/-
Numbers in fixed point, as `fmt` prints them for `%.df`: rounded to `d` decimals,
to the nearer one and of two to the even one, and then written with all of them.

* `parseDecimal_digits` — the digits read back are the number that was printed.
-/
import Tollwing.Durations
import Tollwing.Float64

open Nearest

namespace FixedPoint

/-- `n` units of the last of `d` places. -/
def digits (d n : ℕ) : List Char :=
  Nat.toDigits 10 (n / 10 ^ d) ++
    if d = 0 then [] else '.' :: (Nat.toDigits 10 (n % 10 ^ d)).leftpad d '0'

/-- `%.df` of an exact number. -/
def print (d : ℕ) (q : ℚ) : List Char :=
  (if q < 0 then ['-'] else []) ++ digits d (roundEven (|q| * 10 ^ d))

/-- `%.df` of a float. -/
def printFloat (d : ℕ) : Float64 → List Char
  | .nan => ['N', 'a', 'N']
  | .inf neg => (if neg then '-' else '+') :: ['I', 'n', 'f']
  | .finite neg m => (if neg then ['-'] else []) ++ digits d (roundEven (m.val * 10 ^ d))

/-- The float that is nearest to what `%.df` prints of a float. -/
def printed (d : ℕ) : Float64 → Float64
  | .finite neg m =>
    .round neg (Float64.signed neg (roundEven (m.val * 10 ^ d) / 10 ^ d))
  | x => x

/-! ### Digits -/

theorem digitsVal_toDigits (n : ℕ) : Strings.digitsVal (Nat.toDigits 10 n) = n := by
  rw [Strings.digitsVal, ← Nat.ofDigitChars_eq_foldl]
  exact Nat.ofDigitChars_ten_toDigits

theorem digitsVal_append (l m : List Char) :
    Strings.digitsVal (l ++ m) = 10 ^ m.length * Strings.digitsVal l + Strings.digitsVal m := by
  simp only [Strings.digitsVal, ← Nat.ofDigitChars_eq_foldl, Nat.ofDigitChars_append]
  exact Nat.ofDigitChars_eq_ofDigitChars_zero

theorem digitsVal_leftpad (d : ℕ) (l : List Char) :
    Strings.digitsVal (l.leftpad d '0') = Strings.digitsVal l := by
  rw [List.leftpad, digitsVal_append, Strings.digitsVal, ← Nat.ofDigitChars_eq_foldl,
    Nat.ofDigitChars_replicate_zero]
  omega

theorem isDigit_of_mem_toDigits {n : ℕ} {c : Char} (h : c ∈ Nat.toDigits 10 n) :
    c.isDigit = true :=
  Nat.isDigit_of_mem_toDigits (by omega) le_rfl h

theorem isDigit_of_mem_leftpad {d n : ℕ} {c : Char}
    (h : c ∈ (Nat.toDigits 10 n).leftpad d '0') : c.isDigit = true := by
  rw [List.leftpad, List.mem_append] at h
  rcases h with hpad | hdigit
  · rw [List.eq_of_mem_replicate hpad]
    rfl
  · exact isDigit_of_mem_toDigits hdigit

/-- The fraction takes all of its places and no more. -/
theorem length_fraction {d n : ℕ} (hd : d ≠ 0) :
    ((Nat.toDigits 10 (n % 10 ^ d)).leftpad d '0').length = d := by
  have hlt : n % 10 ^ d < 10 ^ d := Nat.mod_lt _ (by positivity)
  have hle : (Nat.toDigits 10 (n % 10 ^ d)).length ≤ d :=
    (Nat.length_toDigits_le_iff (by omega) (Nat.pos_of_ne_zero hd)).mpr hlt
  rw [List.length_leftpad]
  exact max_eq_left hle

/-- Digits, a point and digits are a decimal numeral. -/
theorem parseDecimal_of_point {whole frac : List Char} (hne : whole ≠ [])
    (hwhole : ∀ c ∈ whole, c.isDigit = true) (hfrac : ∀ c ∈ frac, c.isDigit = true) :
    Strings.parseDecimal (whole ++ '.' :: frac)
      = some (Strings.digitsVal (whole ++ frac) / 10 ^ frac.length : ℚ) := by
  have htake : (whole ++ '.' :: frac).takeWhile Char.isDigit = whole := by
    rw [List.takeWhile_append_of_pos hwhole, List.takeWhile_cons_of_neg (by decide),
      List.append_nil]
  have hdrop : (whole ++ '.' :: frac).dropWhile Char.isDigit = '.' :: frac := by
    rw [List.dropWhile_append_of_pos hwhole, List.dropWhile_cons_of_neg (by decide)]
  have hfracTake : frac.takeWhile Char.isDigit = frac := List.takeWhile_eq_self_iff.mpr hfrac
  have hfracDrop : frac.dropWhile Char.isDigit = [] := List.dropWhile_eq_nil_iff.mpr hfrac
  simp only [Strings.parseDecimal, htake, hdrop, List.head?_cons, List.tail_cons, if_true,
    hfracTake, hfracDrop]
  rw [if_neg fun hnil => hne hnil.1]

/-- The digits read back. -/
theorem parseDecimal_digits (d n : ℕ) :
    Strings.parseDecimal (digits d n) = some (n / 10 ^ d : ℚ) := by
  have hwhole (c : Char) (hc : c ∈ Nat.toDigits 10 (n / 10 ^ d)) : c.isDigit = true :=
    isDigit_of_mem_toDigits hc
  rcases eq_or_ne d 0 with rfl | hd
  · rw [digits, if_pos rfl, List.append_nil,
      Strings.parseDecimal_of_digits Nat.toDigits_ne_nil hwhole, digitsVal_toDigits, pow_zero,
      pow_zero, Nat.div_one, div_one]
  · have hvalue : 10 ^ d * (n / 10 ^ d) + n % 10 ^ d = n := Nat.div_add_mod n (10 ^ d)
    rw [digits, if_neg hd, parseDecimal_of_point Nat.toDigits_ne_nil hwhole
        (fun c hc => isDigit_of_mem_leftpad hc), digitsVal_append, digitsVal_leftpad,
      digitsVal_toDigits, digitsVal_toDigits, length_fraction hd, hvalue]

/-! ### Printed floats -/

/-- The digits of a float are those of the largest one at most. -/
theorem roundEven_le_largest (d : ℕ) (m : Float64.Magnitude) :
    roundEven (m.val * 10 ^ d) ≤ Float64.largest * 10 ^ d := by
  have hle : m.val * 10 ^ d ≤ ((Float64.largest * 10 ^ d : ℕ) : ℚ) := by
    rw [Nat.cast_mul, Nat.cast_pow, Nat.cast_ofNat]
    exact mul_le_mul_of_nonneg_right m.le_largest (by positivity)
  exact (roundEven_mono hle).trans_eq (roundEven_natCast _)

/-- What is printed of a finite float is in range. -/
theorem isFinite_printed (d : ℕ) (neg : Bool) (m : Float64.Magnitude) :
    (printed d (.finite neg m)).IsFinite := by
  refine Float64.isFinite_round_of_le ?_
  have hpos : (0 : ℚ) < 10 ^ d := by positivity
  rw [Float64.abs_signed, abs_of_nonneg (by positivity), div_le_iff₀ hpos]
  exact_mod_cast roundEven_le_largest d m

end FixedPoint
