/-
Overlapping prefixes.

`overlapsAny` compares two prefixes by their base addresses (`pkg/cloud/topology.go`).
Prefixes are nested or disjoint, so this decides whether they share an address.

* `Prefix.overlaps_iff` — a shared address is one base address in the other prefix;
* `overlapsAny_isSome_iff` — the test of a prefix against some others.
-/
import Tollwing.NetAddr

namespace Prefix

/-- `Addr`: the base address. -/
def addr : Prefix → Addr
  | .invalid => .zero
  | .v4 bits _ => .v4 bits
  | .v6 bits _ => .v6 bits ""

/-- The prefixes share an address. -/
def Overlaps (p o : Prefix) : Prop := ∃ a, p.contains a = true ∧ o.contains a = true

theorem contains_v6_iff {p a : BitVec 128} {len : Fin 129} :
    (v6 p len).contains (.v6 a "") = true ↔
      a.toNat / 2 ^ (128 - len.val) = p.toNat / 2 ^ (128 - len.val) := by
  rw [contains, beq_self_eq_true, Bool.true_and, beq_iff_eq, BitVec.ushiftRight_xor_distrib,
    BitVec.xor_eq_zero_iff, BitVec.toNat_eq, BitVec.toNat_ushiftRight, BitVec.toNat_ushiftRight,
    Nat.shiftRight_eq_div_pow, Nat.shiftRight_eq_div_pow]

/-- A valid prefix contains its base address. -/
theorem contains_addr {p : Prefix} (h : p.isValid = true) : p.contains p.addr = true := by
  cases p with
  | invalid => cases h
  | v4 bits len => exact contains_v4_iff.mpr rfl
  | v6 bits len => exact contains_v6_iff.mpr rfl

/-- Numbers that agree above some bits agree above more. -/
theorem div_two_pow_eq {m n x y : ℕ} (hmn : m ≤ n) (h : x / 2 ^ m = y / 2 ^ m) :
    x / 2 ^ n = y / 2 ^ n := by
  obtain ⟨k, rfl⟩ := Nat.exists_eq_add_of_le hmn
  rw [pow_add, ← Nat.div_div_eq_div_mul, ← Nat.div_div_eq_div_mul, h]

/-- If the prefixes share an address, the shorter one contains the other's base. -/
theorem contains_addr_of_bits_le {p o : Prefix} {a : Addr} (hp : p.contains a = true)
    (ho : o.contains a = true) (hle : p.bits ≤ o.bits) : p.contains o.addr = true := by
  match p, o, a with
  | .v4 p m, .v4 o n, .v4 a =>
    have hmn : m.val ≤ n.val := Int.ofNat_le.mp hle
    have hagree := div_two_pow_eq (Nat.sub_le_sub_left hmn 32) (contains_v4_iff.mp ho)
    exact contains_v4_iff.mpr (hagree.symm.trans (contains_v4_iff.mp hp))
  | .v6 p m, .v6 o n, .v6 a zone =>
    have hzone : zone = "" := by
      rw [contains, Bool.and_eq_true, beq_iff_eq] at hp
      exact hp.1
    rw [hzone] at hp ho
    have hmn : m.val ≤ n.val := Int.ofNat_le.mp hle
    have hagree := div_two_pow_eq (Nat.sub_le_sub_left hmn 128) (contains_v6_iff.mp ho)
    exact contains_v6_iff.mpr (hagree.symm.trans (contains_v6_iff.mp hp))

/-- **Prefixes overlap** exactly if one contains the other's base address. -/
theorem overlaps_iff {p o : Prefix} :
    p.Overlaps o ↔ p.contains o.addr = true ∨ o.contains p.addr = true := by
  have hbase : ∀ {q : Prefix} {r : Prefix}, q.contains r.addr = true → r.isValid = true := by
    intro q r h
    cases r with
    | invalid => cases q <;> cases h
    | v4 bits len => rfl
    | v6 bits len => rfl
  constructor
  · rintro ⟨a, hp, ho⟩
    rcases le_total p.bits o.bits with hle | hle
    · exact Or.inl (contains_addr_of_bits_le hp ho hle)
    · exact Or.inr (contains_addr_of_bits_le ho hp hle)
  · rintro (h | h)
    · exact ⟨o.addr, h, contains_addr (hbase h)⟩
    · exact ⟨p.addr, contains_addr (hbase h), h⟩

end Prefix

/-- `overlapsAny`: the first of the others that the prefix overlaps. -/
def overlapsAny (pfx : Prefix) (others : List Prefix) : Option Prefix :=
  others.find? fun o => pfx.contains o.addr || o.contains pfx.addr

theorem overlapsAny_isSome_iff {pfx : Prefix} {others : List Prefix} :
    (overlapsAny pfx others).isSome = true ↔ ∃ o ∈ others, pfx.Overlaps o := by
  rw [overlapsAny, List.find?_isSome]
  simp only [Bool.or_eq_true, Prefix.overlaps_iff]
