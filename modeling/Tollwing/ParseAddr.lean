/-
Addresses and prefixes as text.

`netip.ParseAddr`, `netip.ParsePrefix` and `Addr.String` for IPv4, on the
characters of a string.

* `isValid_of_parsePrefix` — a prefix that is read is valid.
-/
import Tollwing.NetAddr
import Tollwing.Strings

/-! ### IPv4 -/

/-- One field of an IPv4 address: a number below 256 without a leading zero. -/
def parseOctet (cs : List Char) : Option ℕ :=
  if cs ≠ [] ∧ cs.all Char.isDigit ∧ (cs.head? = some '0' → cs.length = 1) ∧
      Strings.digitsVal cs ≤ 255 then
    some (Strings.digitsVal cs)
  else none

/-- `parseIPv4Fields`: four fields between dots. -/
def parseIPv4Fields (cs : List Char) : Option (BitVec 32) :=
  match (cs.splitOn '.').mapM parseOctet with
  | some [a, b, c, d] => some (BitVec.ofNat 32 (((a * 256 + b) * 256 + c) * 256 + d))
  | _ => none

/-! ### IPv6 -/

/-- The loop of `parseIPv6`, with room for some more groups of 16 bits: the groups
and how many of them stand in front of the ellipsis, if there is one. -/
def parseGroups : ℕ → List ℕ → Option ℕ → List Char → Option (List ℕ × Option ℕ)
  | 0, groups, ellipsis, cs => if cs = [] then some (groups, ellipsis) else none
  | room + 1, groups, ellipsis, cs =>
    let digits := cs.takeWhile Strings.isHexDigit
    let next := groups ++ [Strings.hexVal digits]
    if digits = [] ∨ 4 < digits.length then none
    else
      match cs.dropWhile Strings.isHexDigit with
      | [] => some (next, ellipsis)
      | '.' :: _ =>
        -- an IPv4 address takes the place of the last two groups
        if (ellipsis = none ∧ groups.length ≠ 6) ∨ room = 0 then none
        else (parseIPv4Fields cs).map fun v4 =>
          (groups ++ [v4.toNat / 2 ^ 16, v4.toNat % 2 ^ 16], ellipsis)
      | [':'] => none
      | [':', ':'] => if ellipsis = none then some (next, some next.length) else none
      | ':' :: ':' :: rest =>
        if ellipsis = none then parseGroups room next (some next.length) rest else none
      | ':' :: rest => parseGroups room next ellipsis rest
      | _ => none

/-- The zero groups that an ellipsis stands for, at least one. -/
def expandEllipsis : List ℕ × Option ℕ → Option (List ℕ)
  | (groups, none) => if groups.length = 8 then some groups else none
  | (groups, some k) =>
    if groups.length < 8 then
      some (groups.take k ++ List.replicate (8 - groups.length) 0 ++ groups.drop k)
    else none

def parseIPv6Bits (cs : List Char) : Option (BitVec 128) :=
  let groups :=
    match cs with
    | [':', ':'] => some ([], some 0)
    | ':' :: ':' :: rest => parseGroups 8 [] (some 0) rest
    | _ => parseGroups 8 [] none cs
  (groups.bind expandEllipsis).map fun groups =>
    BitVec.ofNat 128 (groups.foldl (fun n g => n * 2 ^ 16 + g) 0)

/-- `parseIPv6`: the address and, behind a percent sign, its zone. -/
def parseIPv6 (cs : List Char) : Option Addr :=
  let zone := (cs.dropWhile (· ≠ '%')).drop 1
  if '%' ∈ cs ∧ zone = [] then none
  else (parseIPv6Bits (cs.takeWhile (· ≠ '%'))).map fun bits => .v6 bits (String.ofList zone)

/-! ### Both families -/

/-- `ParseAddr`; the first dot or colon tells the family. -/
def parseAddr (s : String) : Option Addr :=
  match s.toList.find? fun c => c = '.' ∨ c = ':' ∨ c = '%' with
  | some '.' => (parseIPv4Fields s.toList).map .v4
  | some ':' => parseIPv6 s.toList
  | _ => none

/-- The length of a prefix: a numeral without a sign or a leading zero. -/
def parseBits (cs : List Char) : Option ℕ :=
  if cs ≠ [] ∧ cs.all Char.isDigit ∧ (cs.head? = some '0' → cs.length = 1) then
    some (Strings.digitsVal cs)
  else none

/-- `PrefixFrom` of an address without a zone, if the length fits. -/
def prefixFrom : Addr → ℕ → Option Prefix
  | .v4 bits, len => if h : len < 33 then some (.v4 bits ⟨len, h⟩) else none
  | .v6 bits zone, len => if h : zone = "" ∧ len < 129 then some (.v6 bits ⟨len, h.2⟩) else none
  | .zero, _ => none

/-- `ParsePrefix`: an address and a length around the last slash. -/
def parsePrefix (s : String) : Option Prefix :=
  let cs := s.toList.reverse
  if '/' ∈ cs then
    (parseAddr (String.ofList ((cs.dropWhile (· ≠ '/')).drop 1).reverse)).bind fun ip =>
      (parseBits (cs.takeWhile (· ≠ '/')).reverse).bind fun len => prefixFrom ip len
  else none

example : parseAddr "10.0.1.200" = some (.v4 0x0a0001c8#32) ∧ parseAddr "10.0.01.1" = none ∧
    parseAddr "fe80::1%eth0" = some (.v6 0xfe800000000000000000000000000001#128 "eth0") ∧
    parseAddr "::ffff:10.0.0.1" = some (.v6 0xffff0a000001#128 "") ∧
    parseAddr "1:2:3:4:5:6:7::" = some (.v6 0x00010002000300040005000600070000#128 "") ∧
    parseAddr "1:2:3:4:5:6:7:8::" = none ∧ parseAddr "None" = none := by
  decide +kernel

example : parsePrefix "10.1.0.0/16" = some (.v4 0x0a010000#32 16) ∧
    parsePrefix "10.1.0.0/016" = none ∧ parsePrefix "10.1.0.0/33" = none ∧
    parsePrefix "fd00::/8" = some (.v6 0xfd000000000000000000000000000000#128 8) ∧
    parsePrefix "10.1.0.0" = none := by
  decide +kernel

/-- `String` of an IPv4 address. -/
def v4String (bits : BitVec 32) : String :=
  let octet := fun i => toString (Addr.octet bits i).toNat
  octet 0 ++ "." ++ octet 1 ++ "." ++ octet 2 ++ "." ++ octet 3

/-! ### Validity -/

theorem parsePrefix_empty : parsePrefix "" = none := by decide +kernel

theorem isValid_of_parsePrefix {s : String} {p : Prefix} (h : parsePrefix s = some p) :
    p.isValid = true := by
  rw [parsePrefix] at h
  split_ifs at h
  obtain ⟨ip, -, h⟩ := Option.bind_eq_some_iff.mp h
  obtain ⟨len, -, h⟩ := Option.bind_eq_some_iff.mp h
  cases ip with
  | zero => cases h
  | v4 bits =>
    rw [prefixFrom] at h
    split_ifs at h
    rw [← Option.some.inj h]
    rfl
  | v6 bits zone =>
    rw [prefixFrom] at h
    split_ifs at h
    rw [← Option.some.inj h]
    rfl
