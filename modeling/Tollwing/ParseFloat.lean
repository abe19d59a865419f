/-
Numbers as Go's `strconv.ParseFloat` reads them, on the characters of a text: numerals to
base ten and sixteen, with underscores between their digits, infinities and NaN.  The
number that a numeral denotes is rounded once.

* `parseFloat_of_decimal` — a decimal numeral after a sign.
-/
import Tollwing.Durations
import Tollwing.Float64

namespace ParseFloat

/-- What the error of `ParseFloat` is about. -/
inductive NumError
  | errSyntax
  | errRange
  deriving DecidableEq

/-- `underscoreOK` after the sign and the base: underscores stand between digits.  `saw` is
the last character, `'0'` for a digit and `'!'` for what is neither. -/
def underscoreOK (hex : Bool) : Char → List Char → Bool
  | saw, [] => saw ≠ '_'
  | saw, c :: cs =>
    if c.isDigit || (hex && Strings.isHexDigit c) then underscoreOK hex '0' cs
    else if c = '_' then saw = '0' && underscoreOK hex '_' cs
    else saw ≠ '_' && underscoreOK hex '!' cs

/-- A hexadecimal numeral after its `0x`, with a binary exponent. -/
def parseHex (cs : List Char) : Option ℚ :=
  let whole := cs.takeWhile Strings.isHexDigit
  let rest := cs.dropWhile Strings.isHexDigit
  let frac := if rest.head? = some '.' then rest.tail.takeWhile Strings.isHexDigit else []
  let rest := if rest.head? = some '.' then rest.tail.dropWhile Strings.isHexDigit else rest
  match rest with
  | [] => none
  | c :: exp =>
    if (c = 'p' ∨ c = 'P') ∧ (whole ≠ [] ∨ frac ≠ []) then
      (Strings.parseExponent exp).map fun n =>
        Strings.hexVal (whole ++ frac) / 16 ^ frac.length * 2 ^ n
    else none

/-- `readFloat` after the sign: the number of a numeral to either base, with underscores. -/
def readFloat : List Char → Option ℚ
  | '0' :: 'x' :: cs => if underscoreOK true '0' cs then parseHex (cs.filter (· ≠ '_')) else none
  | '0' :: 'X' :: cs => if underscoreOK true '0' cs then parseHex (cs.filter (· ≠ '_')) else none
  | cs =>
    if underscoreOK false '^' cs then Strings.parseDecimal (cs.filter (· ≠ '_')) else none

/-- `special`: an infinity, possibly with a sign, or NaN. -/
def special (cs : List Char) : Option Float64 :=
  let (sign, word) := Strings.splitSign cs
  if cs.map Char.toLower = ['n', 'a', 'n'] then some .nan
  else if word.map Char.toLower = "inf".toList ∨ word.map Char.toLower = "infinity".toList then
    some (.inf (sign = -1))
  else none

/-- `ParseFloat`: zero with an error for what is no number, an infinity with another for
what is out of range. -/
def parseFloat (cs : List Char) : Float64 × Option NumError :=
  match special cs with
  | some x => (x, none)
  | none =>
    let (sign, digits) := Strings.splitSign cs
    match readFloat digits with
    | none => (0, some .errSyntax)
    | some q =>
      let x := Float64.round (sign = -1) (sign * q)
      (x, if x.IsFinite then none else some .errRange)

/-- The number of `ParseFloat`, unless there was an error. -/
def floatOrError (cs : List Char) : Option Float64 :=
  match parseFloat cs with
  | (x, none) => some x
  | (_, some _) => none

example : parseFloat "10240".toList = (10240.0, none) ∧
    parseFloat "-1_5.0e-1".toList = (-1.5, none) ∧ parseFloat "0x1.8p+1".toList = (3.0, none) ∧
    parseFloat "-Inf".toList = (.inf true, none) ∧ parseFloat "nan".toList = (.nan, none) ∧
    parseFloat "10,240".toList = (0, some .errSyntax) ∧
    parseFloat "1e400".toList = (.inf false, some .errRange) := by
  decide +kernel

/-! ### Decimal numerals -/

/-- A numeral as it is printed: digits, and possibly a point and digits. -/
structure Numeral (cs whole tail : List Char) : Prop where
  eq : cs = whole ++ tail
  ne_nil : whole ≠ []
  whole : ∀ c ∈ whole, c.isDigit = true
  tail : tail = [] ∨ ∃ frac, tail = '.' :: frac ∧ ∀ c ∈ frac, c.isDigit = true

theorem ne_of_isDigit {c x : Char} (hc : c.isDigit = true) (hx : x.isDigit = false) : c ≠ x := by
  rintro rfl
  exact Bool.false_ne_true (hx.symm.trans hc)

theorem toLower_of_isDigit {c : Char} (hc : c.isDigit = true) : c.toLower = c := by
  have hle : c.val ≤ '9'.val := by
    simp only [Char.isDigit, Bool.and_eq_true, decide_eq_true_eq] at hc
    exact hc.2
  have hlow : ¬ 'A'.val ≤ c.val := fun hA =>
    absurd (UInt32.le_trans hA hle) (by decide)
  exact dif_neg fun hupper => hlow hupper.1

theorem splitSign_of_isDigit {c : Char} (hc : c.isDigit = true) (rest : List Char) :
    Strings.splitSign (c :: rest) = (1, c :: rest) := by
  rcases Strings.splitSign_cases (c :: rest) with ⟨t, ht, -⟩ | ⟨t, ht, -⟩ | h
  · exact absurd (List.cons.inj ht).1 (ne_of_isDigit hc (by decide))
  · exact absurd (List.cons.inj ht).1 (ne_of_isDigit hc (by decide))
  · exact h

/-- Underscores are allowed where there are none. -/
theorem underscoreOK_of_plain {l : List Char} (h : ∀ c ∈ l, c.isDigit = true ∨ c = '.') {saw : Char}
    (hsaw : saw ≠ '_') : underscoreOK false saw l = true := by
  induction l generalizing saw with
  | nil => exact decide_eq_true hsaw
  | cons c l ih =>
    have htail : ∀ c' ∈ l, c'.isDigit = true ∨ c' = '.' := fun c' hc' =>
      h c' (List.mem_cons_of_mem c hc')
    rw [underscoreOK]
    rcases h c List.mem_cons_self with hc | rfl
    · rw [if_pos (by rw [hc, Bool.true_or])]
      exact ih htail (by decide)
    · rw [if_neg (by decide), if_neg (by decide), ih htail (by decide), Bool.and_true]
      exact decide_eq_true hsaw

namespace Numeral

variable {cs whole tail : List Char}

/-- Every character is a digit or the point. -/
theorem mem (h : Numeral cs whole tail) {c : Char} (hc : c ∈ cs) :
    c.isDigit = true ∨ c = '.' := by
  rw [h.eq, List.mem_append] at hc
  rcases hc with hw | ht
  · exact Or.inl (h.whole c hw)
  · rcases h.tail with hnil | ⟨frac, hfrac, hdigits⟩
    · rw [hnil] at ht
      exact absurd ht List.not_mem_nil
    · rw [hfrac, List.mem_cons] at ht
      exact ht.elim Or.inr fun hmem => Or.inl (hdigits c hmem)

/-- The first one is a digit. -/
theorem exists_cons (h : Numeral cs whole tail) :
    ∃ c rest, cs = c :: rest ∧ c.isDigit = true := by
  obtain ⟨c, w, hw⟩ := List.exists_cons_of_ne_nil h.ne_nil
  refine ⟨c, w ++ tail, ?_, h.whole c ?_⟩
  · rw [h.eq, hw, List.cons_append]
  · rw [hw]
    exact List.mem_cons_self

theorem notMem_of_plain (h : Numeral cs whole tail) {x : Char} (hdigit : x.isDigit = false)
    (hpoint : x ≠ '.') : x ∉ cs := fun hx =>
  (h.mem hx).elim (fun hd => Bool.false_ne_true (hdigit.symm.trans hd)) hpoint

theorem readFloat_eq (h : Numeral cs whole tail) : readFloat cs = Strings.parseDecimal cs := by
  have hfilter : cs.filter (fun c => c ≠ '_') = cs := by
    refine List.filter_eq_self.mpr fun c hc => decide_eq_true ?_
    rintro rfl
    exact h.notMem_of_plain (by decide) (by decide) hc
  have hok : underscoreOK false '^' cs = true :=
    underscoreOK_of_plain (fun c hc => h.mem hc) (by decide)
  unfold readFloat
  split
  · exact absurd (List.mem_cons_of_mem _ List.mem_cons_self)
      (h.notMem_of_plain (x := 'x') (by decide) (by decide))
  · exact absurd (List.mem_cons_of_mem _ List.mem_cons_self)
      (h.notMem_of_plain (x := 'X') (by decide) (by decide))
  · rw [if_pos hok, hfilter]

theorem splitSign_eq (h : Numeral cs whole tail) (neg : Bool) :
    Strings.splitSign ((if neg then ['-'] else []) ++ cs) = (if neg then -1 else 1, cs) := by
  obtain ⟨c, rest, rfl, hc⟩ := h.exists_cons
  cases neg with
  | true => rfl
  | false => exact splitSign_of_isDigit hc rest

/-- A numeral is no word, whatever its sign. -/
theorem special_eq_none (h : Numeral cs whole tail) (neg : Bool) :
    special ((if neg then ['-'] else []) ++ cs) = none := by
  have hsplit := h.splitSign_eq neg
  obtain ⟨c, rest, rfl, hc⟩ := h.exists_cons
  have hword : ∀ (x : Char) (w : List Char), x.isDigit = false →
      (c :: rest).map Char.toLower ≠ x :: w := fun x w hx heq =>
    ne_of_isDigit hc hx ((toLower_of_isDigit hc).symm.trans (List.cons.inj heq).1)
  have hnan : ((if neg then ['-'] else []) ++ c :: rest).map Char.toLower ≠ ['n', 'a', 'n'] := by
    cases neg with
    | true => exact fun heq => absurd (List.cons.inj heq).1 (by decide)
    | false => exact hword 'n' ['a', 'n'] rfl
  simp only [special, hsplit, if_neg hnan]
  exact if_neg (not_or.mpr
    ⟨hword 'i' ['n', 'f'] rfl, hword 'i' ['n', 'f', 'i', 'n', 'i', 't', 'y'] rfl⟩)

end Numeral

/-- **A decimal numeral** is rounded to a float of its sign. -/
theorem parseFloat_of_decimal {cs whole tail : List Char} (h : Numeral cs whole tail) (neg : Bool)
    {q : ℚ} (hq : Strings.parseDecimal cs = some q) :
    parseFloat ((if neg then ['-'] else []) ++ cs)
      = (Float64.round neg (Float64.signed neg q),
        if (Float64.round neg (Float64.signed neg q)).IsFinite then none else some .errRange) := by
  rw [parseFloat, h.special_eq_none neg, h.splitSign_eq neg]
  simp only [h.readFloat_eq, hq]
  cases neg <;> simp [Float64.signed]

end ParseFloat
