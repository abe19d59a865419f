/-
Quoted strings as Go prints them for `%q`.

* `newline_notMem_quote` — a quoted string breaks no line;
* `length_quote_le` — and takes ten characters for one at most.
-/
import Mathlib.Order.Lattice
import Mathlib.Tactic.NormNum
import Mathlib.Tactic.SplitIfs

namespace Quote

/-- `strconv.IsPrint`; beyond Latin-1 it is a table of the library. -/
def isPrint (table : Char → Bool) (c : Char) : Bool :=
  let r := c.toNat
  if r ≤ 0xff then (0x20 ≤ r && r < 0x7f) || (0xa1 ≤ r && r ≠ 0xad) else table c

/-- `\` in front of a letter and digits. -/
def escape (letter : Char) (digits : List Char) : List Char := Char.ofNat 92 :: letter :: digits

def hexDigits (width n : ℕ) : List Char := (Nat.toDigits 16 n).leftpad width '0'

/-- The control characters with a letter of their own. -/
def letters : List (ℕ × Char) :=
  [(7, 'a'), (8, 'b'), (12, 'f'), (10, 'n'), (13, 'r'), (9, 't'), (11, 'v')]

/-- A control character, or one that is not printed, by its number. -/
def escapedNumber (r : ℕ) : List Char :=
  if r < 0x20 ∨ r = 0x7f then escape 'x' (hexDigits 2 r)
  else if r < 0x10000 then escape 'u' (hexDigits 4 r)
  else escape 'U' (hexDigits 8 r)

/-- `appendEscapedRune`: a quote and a backslash, what is printed, and the rest as
escapes. -/
def escapedRune (table : Char → Bool) (c : Char) : List Char :=
  if c.toNat = 34 ∨ c.toNat = 92 then escape c []
  else if isPrint table c then [c]
  else
    match letters.lookup c.toNat with
    | some letter => escape letter []
    | none => escapedNumber c.toNat

/-- `%q`. -/
def quote (table : Char → Bool) (s : String) : List Char :=
  Char.ofNat 34 :: s.toList.flatMap (escapedRune table) ++ [Char.ofNat 34]

/-! ### No breaks -/

theorem newline_notMem_toDigits (b n : ℕ) (hb : 1 < b ∧ b ≤ 16) : '\n' ∉ Nat.toDigits b n := by
  induction n using Nat.strong_induction_on with
  | _ n ih =>
    have hdigit : ∀ k < 16, k.digitChar ≠ '\n' := by decide
    rcases lt_or_ge n b with hn | hn
    · rw [Nat.toDigits_of_lt_base hn, List.mem_singleton]
      exact (hdigit n (by omega)).symm
    · rw [Nat.toDigits_of_base_le hb.1 hn, List.mem_append, List.mem_singleton, not_or]
      exact ⟨ih (n / b) (Nat.div_lt_self (by omega) hb.1),
        (hdigit (n % b) ((Nat.mod_lt n (by omega)).trans_le hb.2)).symm⟩

theorem newline_notMem_hexDigits (width n : ℕ) : '\n' ∉ hexDigits width n := by
  rw [hexDigits, List.leftpad, List.mem_append, not_or]
  exact ⟨fun h => absurd (List.eq_of_mem_replicate h) (by decide),
    newline_notMem_toDigits 16 n (by omega)⟩

theorem newline_notMem_escape {letter : Char} {digits : List Char} (hletter : letter ≠ '\n')
    (hdigits : '\n' ∉ digits) : '\n' ∉ escape letter digits := by
  rw [escape, List.mem_cons, List.mem_cons, not_or, not_or]
  exact ⟨by decide, hletter.symm, hdigits⟩

section
variable (table : Char → Bool)

theorem escapedRune_cases (c : Char) : escapedRune table c = escape c [] ∧ c ≠ '\n' ∨
    escapedRune table c = [c] ∧ c ≠ '\n' ∨
    (∃ e ∈ letters, escapedRune table c = escape e.2 []) ∨
    escapedRune table c = escapedNumber c.toNat := by
  rw [escapedRune]
  by_cases hquote : c.toNat = 34 ∨ c.toNat = 92
  · refine Or.inl ⟨if_pos hquote, ?_⟩
    rintro rfl
    exact absurd hquote (by decide)
  rw [if_neg hquote]
  by_cases hprint : isPrint table c = true
  · -- a line break is not printed as itself
    refine Or.inr (Or.inl ⟨if_pos hprint, ?_⟩)
    rintro rfl
    exact absurd hprint Bool.false_ne_true
  rw [if_neg hprint]
  cases hletter : letters.lookup c.toNat with
  | none => exact Or.inr (Or.inr (Or.inr rfl))
  | some letter =>
    obtain ⟨before, after, heq, -⟩ := List.lookup_eq_some_iff.mp hletter
    have hmem : (c.toNat, letter) ∈ letters := by
      rw [heq]
      exact List.mem_append_right _ List.mem_cons_self
    exact Or.inr (Or.inr (Or.inl ⟨_, hmem, rfl⟩))

/-- A number is a letter of its own and hexadecimal digits. -/
theorem escapedNumber_cases (r : ℕ) : ∃ letter width, letter ≠ '\n' ∧ width ≤ 8 ∧
    escapedNumber r = escape letter (hexDigits width r) := by
  rw [escapedNumber]
  split_ifs
  · exact ⟨'x', 2, by decide, by omega, rfl⟩
  · exact ⟨'u', 4, by decide, by omega, rfl⟩
  · exact ⟨'U', 8, by decide, le_rfl, rfl⟩

theorem newline_notMem_escapedRune (c : Char) : '\n' ∉ escapedRune table c := by
  rcases escapedRune_cases table c with ⟨h, hc⟩ | ⟨h, hc⟩ | ⟨e, he, h⟩ | h
  · rw [h]
    exact newline_notMem_escape hc List.not_mem_nil
  · rw [h, List.mem_singleton]
    exact hc.symm
  · have hletters : ∀ e ∈ letters, e.2 ≠ '\n' := by decide
    rw [h]
    exact newline_notMem_escape (hletters e he) List.not_mem_nil
  · obtain ⟨letter, width, hletter, -, heq⟩ := escapedNumber_cases c.toNat
    rw [h, heq]
    exact newline_notMem_escape hletter (newline_notMem_hexDigits width _)

theorem length_escapedRune_le (c : Char) : (escapedRune table c).length ≤ 10 := by
  rcases escapedRune_cases table c with ⟨h, -⟩ | ⟨h, -⟩ | ⟨e, -, h⟩ | h
  · rw [h, escape, List.length_cons, List.length_cons, List.length_nil]
    omega
  · rw [h, List.length_singleton]
    omega
  · rw [h, escape, List.length_cons, List.length_cons, List.length_nil]
    omega
  · obtain ⟨letter, width, -, hwidth, heq⟩ := escapedNumber_cases c.toNat
    have hdigits : (Nat.toDigits 16 c.toNat).length ≤ 8 := by
      refine (Nat.length_toDigits_le_iff (by omega) (by omega)).mpr ?_
      exact (UInt32.toNat_lt c.val).trans_le (by norm_num)
    rw [h, heq, escape, List.length_cons, List.length_cons, hexDigits, List.length_leftpad]
    have hmax := max_le hwidth hdigits
    omega

theorem newline_notMem_quote (s : String) : '\n' ∉ quote table s := by
  rw [quote, List.mem_append, List.mem_cons, List.mem_flatMap, List.mem_singleton]
  rintro ((h | ⟨c, -, h⟩) | h)
  · exact absurd h (by decide)
  · exact newline_notMem_escapedRune table c h
  · exact absurd h (by decide)

theorem length_quote_le (s : String) : (quote table s).length ≤ 10 * s.length + 2 := by
  have hsum : (s.toList.flatMap (escapedRune table)).length ≤ 10 * s.toList.length := by
    induction s.toList with
    | nil => exact Nat.zero_le _
    | cons c cs ih =>
      have hc := length_escapedRune_le table c
      rw [List.flatMap_cons, List.length_append, List.length_cons]
      omega
  rw [String.length_toList] at hsum
  simp only [quote, List.length_append, List.length_cons, List.length_nil]
  omega

end

end Quote
