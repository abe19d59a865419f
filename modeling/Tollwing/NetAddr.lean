/-
IP addresses and prefixes.

The part of Go's `net/netip` that classification rests on: addresses
(`Addr`), CIDR prefixes (`Prefix`), the special-range tests and
`Prefix.contains`, together with the decoding of the 32-bit address fields the
BPF data plane hands over (`addrFrom4` of the native-endian bytes, DEC-009).

* `Prefix.contains_v4_iff` — an IPv4 prefix contains an IPv4 address iff the
  two agree on the leading bits;
* `isLoopback_v4_iff`, `isPrivate_v4_iff`, `isLinkLocalUnicast_v4_iff` — the
  octet tests of `netip` name the ranges 127/8, RFC 1918 and 169.254/16.
-/
import Mathlib.Data.Nat.Bitwise
import Mathlib.Data.BitVec
import Mathlib.Tactic.Common

/-- A `netip.Addr`: the zero value, an IPv4 address or an IPv6 address with
its zone. -/
inductive Addr
  | zero
  | v4 (bits : BitVec 32)
  | v6 (bits : BitVec 128) (zone : String)
  deriving DecidableEq, Repr

namespace Addr

def isValid : Addr → Bool
  | .zero => false
  | _ => true

/-- Octet `i` of an IPv4 address, most significant first. -/
def octet (bits : BitVec 32) (i : ℕ) : BitVec 8 := bits.extractLsb' (24 - 8 * i) 8

def is4In6 : Addr → Bool
  | .v6 bits _ => bits.extractLsb' 32 96 == 0xffff
  | _ => false

/-- The IPv4 address inside an IPv4-mapped IPv6 address; other addresses are
left alone. -/
def unmap : Addr → Addr
  | .v6 bits zone =>
    if (Addr.v6 bits zone).is4In6 then .v4 (bits.extractLsb' 0 32) else .v6 bits zone
  | ip => ip

@[simp] theorem unmap_v4 (bits : BitVec 32) : (Addr.v4 bits).unmap = .v4 bits := rfl

def isLoopback (ip : Addr) : Bool :=
  match ip.unmap with
  | .v4 bits => octet bits 0 == 127
  | .v6 bits _ => bits == 1
  | .zero => false

def isPrivate (ip : Addr) : Bool :=
  match ip.unmap with
  | .v4 bits =>
    octet bits 0 == 10
      || (octet bits 0 == 172 && octet bits 1 &&& 0xf0 == 16)
      || (octet bits 0 == 192 && octet bits 1 == 168)
  | .v6 bits _ => bits.extractLsb' 120 8 &&& 0xfe == 0xfc
  | .zero => false

def isLinkLocalUnicast (ip : Addr) : Bool :=
  match ip.unmap with
  | .v4 bits => octet bits 0 == 169 && octet bits 1 == 254
  | .v6 bits _ => bits.extractLsb' 112 16 &&& 0xffc0 == 0xfe80
  | .zero => false

end Addr

/-- The byte order of the host the agent runs on. -/
inductive ByteOrder
  | little
  | big
  deriving DecidableEq, Repr

/-- The four bytes `binary.NativeEndian.PutUint32` writes, first byte in the
most significant place. -/
def ByteOrder.putUint32 (host : ByteOrder) (v : UInt32) : BitVec 32 :=
  match host with
  | .little => v.toBitVec.extractLsb' 0 8 ++ v.toBitVec.extractLsb' 8 8
      ++ v.toBitVec.extractLsb' 16 8 ++ v.toBitVec.extractLsb' 24 8
  | .big => v.toBitVec

/-- A `netip.Prefix`.  The length of a valid prefix fits its address family, so
a prefix with a bad length is the one invalid value. -/
inductive Prefix
  | invalid
  | v4 (bits : BitVec 32) (len : Fin 33)
  | v6 (bits : BitVec 128) (len : Fin 129)
  deriving DecidableEq, Repr

namespace Prefix

def isValid : Prefix → Bool
  | .invalid => false
  | _ => true

/-- The prefix length, `-1` for the invalid prefix. -/
def bits : Prefix → ℤ
  | .invalid => -1
  | .v4 _ len => len
  | .v6 _ len => len

/-- Whether the prefix contains the address.  Families never mix, and an
address with an IPv6 zone is in no prefix. -/
def contains : Prefix → Addr → Bool
  | .v4 p len, .v4 a => (a ^^^ p) >>> (32 - len.val) == 0#32
  | .v6 p len, .v6 a zone => zone == "" && (a ^^^ p) >>> (128 - len.val) == 0#128
  | _, _ => false

@[simp] theorem contains_invalid (a : Addr) : invalid.contains a = false := rfl

theorem isValid_of_contains {p : Prefix} {a : Addr} (h : p.contains a = true) :
    p.isValid = true := by
  cases p with
  | invalid => simp at h
  | v4 bits len => rfl
  | v6 bits len => rfl

theorem contains_v4_iff {p a : BitVec 32} {len : Fin 33} :
    (v4 p len).contains (.v4 a) = true ↔
      a.toNat / 2 ^ (32 - len.val) = p.toNat / 2 ^ (32 - len.val) := by
  rw [contains, beq_iff_eq, BitVec.ushiftRight_xor_distrib, BitVec.xor_eq_zero_iff,
    BitVec.toNat_eq, BitVec.toNat_ushiftRight, BitVec.toNat_ushiftRight,
    Nat.shiftRight_eq_div_pow, Nat.shiftRight_eq_div_pow]

end Prefix

namespace Addr

/-! ### The special ranges of IPv4 -/

theorem octet_toNat (bits : BitVec 32) (i : ℕ) :
    (octet bits i).toNat = bits.toNat / 2 ^ (24 - 8 * i) % 256 := by
  rw [octet, BitVec.extractLsb'_toNat, Nat.shiftRight_eq_div_pow]

theorem and_f0_eq_16_iff (n : BitVec 8) : n &&& 0xf0 = 16 ↔ n.toNat / 16 = 1 := by
  revert n
  decide

theorem isLoopback_v4_iff (bits : BitVec 32) :
    (Addr.v4 bits).isLoopback = true ↔ (Prefix.v4 0x7f000000#32 8).contains (.v4 bits) = true := by
  have h := bits.isLt
  rw [Prefix.contains_v4_iff, isLoopback, unmap_v4, beq_iff_eq, BitVec.toNat_eq, octet_toNat]
  simp
  omega

theorem isPrivate_v4_iff (bits : BitVec 32) :
    (Addr.v4 bits).isPrivate = true ↔
      (Prefix.v4 0x0a000000#32 8).contains (.v4 bits) = true ∨
      (Prefix.v4 0xac100000#32 12).contains (.v4 bits) = true ∨
      (Prefix.v4 0xc0a80000#32 16).contains (.v4 bits) = true := by
  have h := bits.isLt
  rw [Prefix.contains_v4_iff, Prefix.contains_v4_iff, Prefix.contains_v4_iff, isPrivate, unmap_v4]
  simp only [Bool.or_eq_true, Bool.and_eq_true, beq_iff_eq, and_f0_eq_16_iff]
  simp only [BitVec.toNat_eq, octet_toNat]
  simp
  omega

theorem isLinkLocalUnicast_v4_iff (bits : BitVec 32) :
    (Addr.v4 bits).isLinkLocalUnicast = true ↔
      (Prefix.v4 0xa9fe0000#32 16).contains (.v4 bits) = true := by
  have h := bits.isLt
  rw [Prefix.contains_v4_iff, isLinkLocalUnicast, unmap_v4]
  simp only [Bool.and_eq_true, beq_iff_eq, BitVec.toNat_eq, octet_toNat]
  simp
  omega

end Addr
