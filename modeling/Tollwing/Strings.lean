/-
Text as Go's standard library reads it, on the characters of a string:
`strings.Contains`, and digits and decimal numerals as the exact numbers they denote.
-/
import Mathlib.Algebra.Field.Rat

namespace Strings

/-- Whether `sub` begins somewhere in the list. -/
def hasInfix (sub : List Char) : List Char → Bool
  | [] => sub.isEmpty
  | c :: cs => sub.isPrefixOf (c :: cs) || hasInfix sub cs

theorem hasInfix_iff {sub : List Char} : ∀ {cs : List Char},
    hasInfix sub cs = true ↔ sub <:+: cs := by
  intro cs
  induction cs with
  | nil =>
    rw [hasInfix, List.isEmpty_iff, List.infix_nil]
  | cons c cs ih =>
    rw [hasInfix, Bool.or_eq_true, ih, List.isPrefixOf_iff_prefix, List.infix_cons_iff]

/-- `strings.Contains`. -/
def contains (s sub : String) : Bool := hasInfix sub.toList s.toList

/-! ### Numerals -/

/-- The number a list of digits denotes. -/
def digitsVal (digits : List Char) : ℕ :=
  digits.foldl (fun n c => 10 * n + (c.toNat - '0'.toNat)) 0

/-- A sign and what it stands in front of. -/
def splitSign : List Char → ℤ × List Char
  | '-' :: cs => (-1, cs)
  | '+' :: cs => (1, cs)
  | cs => (1, cs)

def isHexDigit (c : Char) : Bool :=
  c.isDigit || ('a' ≤ c && c ≤ 'f') || ('A' ≤ c && c ≤ 'F')

def hexDigitVal (c : Char) : ℕ :=
  if c.isDigit then c.toNat - '0'.toNat
  else if 'a' ≤ c then c.toNat - 'a'.toNat + 10
  else c.toNat - 'A'.toNat + 10

def hexVal (cs : List Char) : ℕ := cs.foldl (fun n c => 16 * n + hexDigitVal c) 0

/-- The exponent of a numeral: a sign and at least one digit.  One that is large enough is
read no further. -/
def parseExponent (cs : List Char) : Option ℤ :=
  let (sign, digits) := splitSign cs
  if digits ≠ [] ∧ digits.all Char.isDigit then
    some (sign * digits.foldl
      (fun e c => if e < 10000 then e * 10 + (c.toNat - '0'.toNat) else e) 0)
  else none

/-- An unsigned decimal numeral: digits with a point among them or around them,
then possibly an exponent. -/
def parseDecimal (cs : List Char) : Option ℚ :=
  let whole := cs.takeWhile Char.isDigit
  let rest := cs.dropWhile Char.isDigit
  let frac := if rest.head? = some '.' then rest.tail.takeWhile Char.isDigit else []
  let rest := if rest.head? = some '.' then rest.tail.dropWhile Char.isDigit else rest
  let mantissa : ℚ := digitsVal (whole ++ frac) / 10 ^ frac.length
  if whole = [] ∧ frac = [] then none
  else
    match rest with
    | [] => some mantissa
    | c :: exp =>
      if c = 'e' ∨ c = 'E' then (parseExponent exp).map fun n => mantissa * (10 : ℚ) ^ n else none

end Strings
