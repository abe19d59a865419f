/-
Durations as Go's standard library reads them: `strconv.Atoi` and
`time.ParseDuration`, on the characters of a string.

`parseDuration` accumulates in unsigned machine words; what a fraction adds is
computed in floating point and therefore an argument.  Beside it stands what such a
text denotes, `sumTerms`: numbers followed by units, added up exactly.

* `parseTerms_spec` — without fractions and sub-millisecond units the accumulation
  does not wrap, and is the sum of the terms;
* `parseDuration_pos` — so that a positive duration is what its text adds up to.
-/
import Mathlib.Algebra.Order.Ring.Rat
import Mathlib.Data.List.TakeWhile
import Mathlib.Tactic.SplitIfs
import Tollwing.Strings

namespace Strings

/-- The three forms of a sign. -/
theorem splitSign_cases (cs : List Char) :
    (∃ t, cs = '-' :: t ∧ splitSign cs = (-1, t)) ∨ (∃ t, cs = '+' :: t ∧ splitSign cs = (1, t)) ∨
      splitSign cs = (1, cs) := by
  unfold splitSign
  split
  · exact Or.inl ⟨_, rfl, rfl⟩
  · exact Or.inr (Or.inl ⟨_, rfl, rfl⟩)
  · exact Or.inr (Or.inr rfl)

/-- `strconv.Atoi`: a sign and digits, within 64 bits. -/
def atoi (cs : List Char) : Option ℤ :=
  let (sign, digits) := splitSign cs
  if digits ≠ [] ∧ digits.all Char.isDigit then
    let n := sign * digitsVal digits
    if -2 ^ 63 ≤ n ∧ n < 2 ^ 63 then some n else none
  else none

/-- The characters of numbers. -/
def isNumeral (c : Char) : Bool := c = '.' || c.isDigit

/-- `leadingInt`: the digits at the front and the rest, unless they overflow. -/
def leadingInt : ℕ → List Char → Option (ℕ × List Char)
  | x, [] => some (x, [])
  | x, c :: cs =>
    if c.isDigit then
      if 2 ^ 63 / 10 < x then none
      else
        let x := x * 10 + (c.toNat - '0'.toNat)
        if 2 ^ 63 < x then none else leadingInt x cs
    else some (x, c :: cs)

/-- `unitMap`, in nanoseconds; either spelling of the micro sign is known. -/
def unitMap : List Char → Option ℕ
  | ['n', 's'] => some 1
  | ['u', 's'] => some 1000
  | ['µ', 's'] => some 1000
  | ['μ', 's'] => some 1000
  | ['m', 's'] => some 1000000
  | ['s'] => some 1000000000
  | ['m'] => some 60000000000
  | ['h'] => some 3600000000000
  | _ => none

/-- The loop of `ParseDuration`, with the rounds left and the nanoseconds so far; there
is a round for every character.  `fraction` is what digits after a point add. -/
def parseTerms (fraction : List Char → ℕ → ℕ) : ℕ → ℕ → List Char → Option ℕ
  | _, d, [] => some d
  | 0, _, _ :: _ => none
  | fuel + 1, d, c :: cs =>
    if !isNumeral c then none
    else
      match leadingInt 0 (c :: cs) with
      | none => none
      | some (v, rest) =>
        let digits := if rest.head? = some '.' then rest.tail.takeWhile Char.isDigit else []
        let after := if rest.head? = some '.' then rest.tail.dropWhile Char.isDigit else rest
        -- no digits on either side of the point
        if rest.length = (c :: cs).length ∧ digits = [] then none
        else
          match unitMap (after.takeWhile fun c => !isNumeral c) with
          | none => none
          | some unit =>
            if 2 ^ 63 / unit < v then none
            else
              let v := (v * unit + if digits = [] then 0 else fraction digits unit) % 2 ^ 64
              if 2 ^ 63 < v then none
              else
                let d := (d + v) % 2 ^ 64
                if 2 ^ 63 < d then none
                else parseTerms fraction fuel d (after.dropWhile fun c => !isNumeral c)

/-- `time.ParseDuration`. -/
def parseDuration (fraction : List Char → ℕ → ℕ) (cs : List Char) : Option Int64 :=
  let (sign, cs) := splitSign cs
  if cs = ['0'] then some 0
  else if cs = [] then none
  else
    match parseTerms fraction cs.length 0 cs with
    | none => none
    | some d =>
      if sign = -1 then some (-Int64.ofNat d)
      else if 2 ^ 63 - 1 < d then none
      else some (Int64.ofNat d)

/-! ### What a text of numbers and units denotes -/

/-- The sum of the terms, each a number and a unit; a round for every character is
enough. -/
def sumTerms (number : List Char → Option ℚ) (unit : List Char → Option ℚ) :
    ℕ → List Char → Option ℚ
  | _, [] => some 0
  | 0, _ :: _ => none
  | fuel + 1, c :: cs =>
    match number ((c :: cs).takeWhile isNumeral) with
    | none => none
    | some x =>
      let after := (c :: cs).dropWhile isNumeral
      match unit (after.takeWhile fun c => !isNumeral c) with
      | none => none
      | some u =>
        match sumTerms number unit fuel (after.dropWhile fun c => !isNumeral c) with
        | none => none
        | some more => some (x * u + more)

/-- An unsigned integer. -/
def parseUnsigned (cs : List Char) : Option ℚ :=
  if cs ≠ [] ∧ cs.all Char.isDigit then some (digitsVal cs) else none

/-- A positive number without a plus sign is its digits. -/
theorem atoi_pos {cs : List Char} {n : ℤ} (h : atoi cs = some n) (hn : 0 < n) (hplus : '+' ∉ cs) :
    cs ≠ [] ∧ (∀ c ∈ cs, c.isDigit = true) ∧ n = digitsVal cs := by
  rw [atoi] at h
  rcases splitSign_cases cs with ⟨t, rfl, hsplit⟩ | ⟨t, rfl, -⟩ | hsplit
  · rw [hsplit] at h
    dsimp only at h
    split_ifs at h
    obtain rfl := Option.some_inj.mp h
    omega
  · exact absurd List.mem_cons_self hplus
  · rw [hsplit] at h
    dsimp only at h
    split_ifs at h with hdigits
    obtain rfl := Option.some_inj.mp h
    exact ⟨hdigits.1, List.all_eq_true.mp hdigits.2, one_mul _⟩

/-- Digits are a decimal numeral. -/
theorem parseDecimal_of_digits {cs : List Char} (hne : cs ≠ []) (h : ∀ c ∈ cs, c.isDigit = true) :
    parseDecimal cs = some (digitsVal cs : ℚ) := by
  have htake : cs.takeWhile Char.isDigit = cs := List.takeWhile_eq_self_iff.mpr h
  have hdrop : cs.dropWhile Char.isDigit = [] := List.dropWhile_eq_nil_iff.mpr h
  simp [parseDecimal, htake, hdrop, hne]

theorem parseUnsigned_of_digits {cs : List Char} (hne : cs ≠ [])
    (h : ∀ c ∈ cs, c.isDigit = true) : parseUnsigned cs = some (digitsVal cs : ℚ) :=
  if_pos ⟨hne, List.all_eq_true.mpr h⟩

/-- The digits at the front, read onto `x`. -/
theorem leadingInt_eq_some {x v : ℕ} {cs rest : List Char} (hx : x ≤ 2 ^ 63)
    (h : leadingInt x cs = some (v, rest)) :
    v = (cs.takeWhile Char.isDigit).foldl (fun n c => 10 * n + (c.toNat - '0'.toNat)) x ∧
      rest = cs.dropWhile Char.isDigit ∧ v ≤ 2 ^ 63 := by
  induction cs generalizing x with
  | nil =>
    obtain ⟨rfl, rfl⟩ := Prod.mk.inj (Option.some_inj.mp h)
    exact ⟨rfl, rfl, hx⟩
  | cons c cs ih =>
    rw [leadingInt] at h
    by_cases hc : c.isDigit = true
    · rw [if_pos hc] at h
      by_cases hover : 2 ^ 63 / 10 < x
      · rw [if_pos hover] at h
        exact absurd h nofun
      rw [if_neg hover] at h
      by_cases hover' : 2 ^ 63 < x * 10 + (c.toNat - '0'.toNat)
      · exact absurd ((if_pos hover').symm.trans h) nofun
      obtain ⟨hv, hrest, hle⟩ := ih (not_lt.mp hover') ((if_neg hover').symm.trans h)
      rw [List.takeWhile_cons_of_pos hc, List.dropWhile_cons_of_pos hc, List.foldl_cons,
        Nat.mul_comm 10 x]
      exact ⟨hv, hrest, hle⟩
    · rw [if_neg hc] at h
      obtain ⟨rfl, rfl⟩ := Prod.mk.inj (Option.some_inj.mp h)
      rw [List.takeWhile_cons_of_neg hc, List.dropWhile_cons_of_neg hc]
      exact ⟨rfl, rfl, hx⟩

/-- Without a point the numbers are their digits. -/
theorem while_isNumeral {cs : List Char} (h : '.' ∉ cs) :
    cs.takeWhile isNumeral = cs.takeWhile Char.isDigit ∧
      cs.dropWhile isNumeral = cs.dropWhile Char.isDigit := by
  induction cs with
  | nil => exact ⟨rfl, rfl⟩
  | cons c cs ih =>
    obtain ⟨hc, hcs⟩ := not_or.mp (mt List.mem_cons.mpr h)
    have hsame : isNumeral c = c.isDigit := by
      rw [isNumeral, decide_eq_false (Ne.symm hc), Bool.false_or]
    obtain ⟨htake, hdrop⟩ := ih hcs
    rw [List.takeWhile_cons, List.takeWhile_cons, List.dropWhile_cons, List.dropWhile_cons, hsame,
      htake, hdrop]
    exact ⟨rfl, rfl⟩

/-- The characters of fractions and of the units below a millisecond. -/
def fine : List Char := ['.', 'n', 'u', 'µ', 'μ']

/-- The units from a millisecond on. -/
theorem unitMap_coarse {u : List Char} {unit : ℕ} (h : unitMap u = some unit)
    (hu : ∀ c ∈ u, c ∉ fine) :
    (u = ['m', 's'] ∧ unit = 1000000) ∨ (u = ['s'] ∧ unit = 1000000000) ∨
      (u = ['m'] ∧ unit = 60000000000) ∨ (u = ['h'] ∧ unit = 3600000000000) := by
  unfold unitMap at h
  split at h <;> simp_all [fine]

/-- Five divides these units, so their multiples are not powers of two. -/
theorem mul_coarse_lt {u : List Char} {unit v : ℕ} (h : unitMap u = some unit)
    (hu : ∀ c ∈ u, c ∉ fine) (hv : ¬2 ^ 63 / unit < v) : v * unit < 2 ^ 63 := by
  rcases unitMap_coarse h hu with ⟨-, rfl⟩ | ⟨-, rfl⟩ | ⟨-, rfl⟩ | ⟨-, rfl⟩ <;> omega

/-- One round of the loop, on a text without fractions and sub-millisecond units. -/
theorem parseTerms_cons {fraction : List Char → ℕ → ℕ} {fuel d total : ℕ} {c : Char}
    {cs after : List Char} (hcs : ∀ c' ∈ c :: cs, c' ∉ fine) (hd : d ≤ 2 ^ 63)
    (hafter : (c :: cs).dropWhile Char.isDigit = after)
    (h : parseTerms fraction (fuel + 1) d (c :: cs) = some total) :
    (c :: cs).takeWhile Char.isDigit ≠ [] ∧
      ∃ u, unitMap (after.takeWhile fun c => !isNumeral c) = some u ∧
        d + digitsVal ((c :: cs).takeWhile Char.isDigit) * u ≤ 2 ^ 63 ∧
        parseTerms fraction fuel (d + digitsVal ((c :: cs).takeWhile Char.isDigit) * u)
          (after.dropWhile fun c => !isNumeral c) = some total := by
  have hafter_mem : ∀ c' ∈ after, c' ∈ c :: cs := by
    rw [← hafter]
    exact fun c' hc' => List.dropWhile_subset _ hc'
  -- no point follows the digits
  have hhead : after.head? ≠ some '.' := fun hhead =>
    hcs _ (hafter_mem _ (List.mem_of_head? hhead)) (by simp [fine])
  rw [parseTerms] at h
  split_ifs at h with hc
  cases hlead : leadingInt 0 (c :: cs) with
  | none =>
    rw [hlead] at h
    exact absurd h nofun
  | some lead =>
    obtain ⟨v, rest⟩ := lead
    obtain ⟨hv, hrest, -⟩ := leadingInt_eq_some (Nat.zero_le _) hlead
    obtain rfl : rest = after := hrest.trans hafter
    simp only [hlead, if_neg hhead, and_true, if_true, add_zero] at h
    split_ifs at h with hlength
    refine ⟨fun hnil => hlength ?_, ?_⟩
    · have hsplit := List.takeWhile_append_dropWhile (p := Char.isDigit) (l := c :: cs)
      rw [hnil, hafter, List.nil_append] at hsplit
      exact congrArg List.length hsplit
    cases hu : unitMap (rest.takeWhile fun c => !isNumeral c) with
    | none =>
      rw [hu] at h
      exact absurd h nofun
    | some u =>
      rw [hu] at h
      dsimp only at h
      split_ifs at h with hover hover' hover''
      have hmul : v * u < 2 ^ 63 := mul_coarse_lt hu
        (fun c' hc' => hcs c' (hafter_mem c' (List.takeWhile_subset _ hc'))) hover
      rw [Nat.mod_eq_of_lt (by omega : v * u < 2 ^ 64),
        Nat.mod_eq_of_lt (by omega : d + v * u < 2 ^ 64)] at h hover''
      rw [hv] at h hover''
      exact ⟨u, rfl, not_lt.mp hover'', h⟩

/-- **The loop of `ParseDuration`** does not wrap on a text without fractions and
sub-millisecond units: it adds the terms, however their numbers and units are read. -/
theorem parseTerms_spec {fraction : List Char → ℕ → ℕ} (number unit : List Char → Option ℚ)
    (hnumber : ∀ w, w ≠ [] → (∀ c ∈ w, c.isDigit = true) → number w = some (digitsVal w : ℚ))
    (hunit : ∀ u n, unitMap u = some n → (∀ c ∈ u, c ∉ fine) → unit u = some (n : ℚ))
    (fuel : ℕ) {n d total : ℕ} {cs : List Char} (hcs : ∀ c ∈ cs, c ∉ fine) (hd : d ≤ 2 ^ 63)
    (hn : cs.length ≤ n) (h : parseTerms fraction fuel d cs = some total) :
    total ≤ 2 ^ 63 ∧ ∃ k : ℕ, total = d + k ∧ sumTerms number unit n cs = some (k : ℚ) := by
  have hempty : ∀ {n d : ℕ}, d ≤ 2 ^ 63 → d ≤ 2 ^ 63 ∧ ∃ k : ℕ, d = d + k ∧
      sumTerms number unit n [] = some (k : ℚ) := by
    intro n d hd
    refine ⟨hd, 0, rfl, ?_⟩
    rw [Nat.cast_zero]
    cases n <;> rfl
  induction fuel generalizing n d cs with
  | zero =>
    cases cs with
    | nil =>
      obtain rfl := Option.some_inj.mp h
      exact hempty hd
    | cons c cs => exact absurd h nofun
  | succ fuel ih =>
    cases cs with
    | nil =>
      obtain rfl := Option.some_inj.mp h
      exact hempty hd
    | cons c cs =>
      obtain ⟨n, rfl⟩ : ∃ m, n = m + 1 := ⟨n - 1, by rw [List.length_cons] at hn; omega⟩
      obtain ⟨htake, hdrop⟩ := while_isNumeral fun hmem => hcs '.' hmem (by simp [fine])
      generalize hafter : (c :: cs).dropWhile Char.isDigit = after
      obtain ⟨hne, u, hu, hle, hrest⟩ := parseTerms_cons hcs hd hafter h
      have hmem : ∀ c' ∈ after, c' ∉ fine := by
        rw [← hafter]
        exact fun c' hc' => hcs c' (List.dropWhile_subset _ hc')
      -- the rest is shorter by the digits
      have hlength : (after.dropWhile fun c => !isNumeral c).length ≤ n := by
        have hshorter : (after.dropWhile fun c => !isNumeral c).length ≤ after.length :=
          (List.dropWhile_sublist _).length_le
        have hsplit := congrArg List.length
          (List.takeWhile_append_dropWhile (p := Char.isDigit) (l := c :: cs))
        have hpos := List.length_pos_iff.mpr hne
        rw [List.length_append, hafter] at hsplit
        omega
      obtain ⟨htotal, k, rfl, hk⟩ := ih
        (fun c' hc' => hmem c' (List.dropWhile_subset _ hc')) hle hlength hrest
      refine ⟨htotal, digitsVal ((c :: cs).takeWhile Char.isDigit) * u + k, by omega, ?_⟩
      rw [sumTerms, htake, hdrop, hafter,
        hnumber _ hne fun c' hc' => List.mem_takeWhile_imp hc']
      simp only [hunit _ u hu fun c' hc' => hmem c' (List.takeWhile_subset _ hc'), hk]
      push_cast
      rfl

/-- The characters of a sum of terms are those of its numbers and units. -/
theorem sumTerms_chars {number unit : List Char → Option ℚ} {P : Char → Prop}
    (hnumber : ∀ w x, number w = some x → ∀ c ∈ w, P c)
    (hunit : ∀ u x, unit u = some x → ∀ c ∈ u, P c) {n : ℕ} {cs : List Char} {x : ℚ}
    (h : sumTerms number unit n cs = some x) : ∀ c ∈ cs, P c := by
  induction n generalizing cs x with
  | zero =>
    cases cs with
    | nil => exact fun c hc => absurd hc List.not_mem_nil
    | cons c cs => exact absurd h nofun
  | succ n ih =>
    cases cs with
    | nil => exact fun c hc => absurd hc List.not_mem_nil
    | cons c cs =>
      rw [sumTerms] at h
      generalize hafter : (c :: cs).dropWhile isNumeral = after at h
      cases hx : number ((c :: cs).takeWhile isNumeral) with
      | none =>
        rw [hx] at h
        exact absurd h nofun
      | some x =>
        cases hu : unit (after.takeWhile fun c => !isNumeral c) with
        | none =>
          simp only [hx, hu] at h
          exact absurd h nofun
        | some u =>
          cases hmore : sumTerms number unit n (after.dropWhile fun c => !isNumeral c) with
          | none =>
            simp only [hx, hu, hmore] at h
            exact absurd h nofun
          | some more =>
            -- the text is its first number, that number's unit and the rest
            have hsplit : c :: cs = (c :: cs).takeWhile isNumeral ++
                (after.takeWhile (fun c => !isNumeral c) ++
                  after.dropWhile fun c => !isNumeral c) := by
              rw [List.takeWhile_append_dropWhile, ← hafter, List.takeWhile_append_dropWhile]
            intro c' hc'
            rw [hsplit, List.mem_append, List.mem_append] at hc'
            rcases hc' with hc' | hc' | hc'
            · exact hnumber _ _ hx c' hc'
            · exact hunit _ _ hu c' hc'
            · exact ih hmore c' hc'

/-- One term of digits and a unit of one letter. -/
theorem sumTerms_single {number unit : List Char → Option ℚ} {w : List Char} {c : Char} {x u : ℚ}
    (hne : w ≠ []) (hw : ∀ c ∈ w, c.isDigit = true) (hc : isNumeral c = false)
    (hx : number w = some x) (hu : unit [c] = some u) :
    sumTerms number unit (w ++ [c]).length (w ++ [c]) = some (x * u) := by
  have hnum : ∀ c ∈ w, isNumeral c = true := fun c hc => by rw [isNumeral, hw c hc, Bool.or_true]
  have hneg : ¬isNumeral c = true := by rw [hc]; exact Bool.false_ne_true
  have htake : (w ++ [c]).takeWhile isNumeral = w := by
    rw [List.takeWhile_append_of_pos hnum, List.takeWhile_cons_of_neg hneg, List.append_nil]
  have hdrop : (w ++ [c]).dropWhile isNumeral = [c] := by
    rw [List.dropWhile_append_of_pos hnum, List.dropWhile_cons_of_neg hneg]
  have hunit : [c].takeWhile (fun c => !isNumeral c) = [c] ∧
      [c].dropWhile (fun c => !isNumeral c) = [] := by
    rw [List.takeWhile_cons_of_pos (by rw [hc]; rfl), List.dropWhile_cons_of_pos (by rw [hc]; rfl)]
    exact ⟨rfl, rfl⟩
  cases w with
  | nil => exact absurd rfl hne
  | cons c' w =>
    rw [List.cons_append] at htake hdrop ⊢
    rw [List.length_cons, sumTerms, htake, hdrop]
    simp only [hx, hunit, hu]
    cases (w ++ [c]).length <;> simp [sumTerms]

/-- A positive duration without plus signs and fine characters is what its terms add up
to. -/
theorem parseDuration_pos {fraction : List Char → ℕ → ℕ} {cs : List Char} {d : Int64}
    (h : parseDuration fraction cs = some d) (hpos : 0 < d.toInt)
    (hplain : ∀ c ∈ cs, c ≠ '+' ∧ c ∉ fine) :
    splitSign cs = (1, cs) ∧ cs ≠ [] ∧
      ∃ total : ℕ, parseTerms fraction cs.length 0 cs = some total ∧ d.toInt = total := by
  have hle : ∀ {cs : List Char} {total : ℕ}, (∀ c ∈ cs, c ∉ fine) →
      parseTerms fraction cs.length 0 cs = some total → total ≤ 2 ^ 63 :=
    fun hcs hterms => (parseTerms_spec (fun w => some (digitsVal w : ℚ))
      (fun u => (unitMap u).map fun n => (n : ℚ)) (fun _ _ _ => rfl)
      (fun u n hu _ => by rw [hu]; rfl) _ hcs (Nat.zero_le _) le_rfl hterms).1
  rw [parseDuration] at h
  -- zero is not positive, whatever its sign
  have hzero : ∀ {rest : List Char} {other : Option Int64},
      (if rest = ['0'] then some 0 else if rest = [] then none else other) = some d →
        rest ≠ [] ∧ other = some d := by
    intro rest other h
    split_ifs at h with hrest hrest'
    · obtain rfl := Option.some_inj.mp h
      exact absurd hpos (by decide)
    · exact ⟨hrest', h⟩
  rcases splitSign_cases cs with ⟨t, rfl, hsplit⟩ | ⟨t, rfl, -⟩ | hsplit
  · rw [hsplit] at h
    obtain ⟨-, h⟩ := hzero h
    cases hterms : parseTerms fraction t.length 0 t with
    | none =>
      rw [hterms] at h
      exact absurd h nofun
    | some total =>
      rw [hterms] at h
      obtain rfl := Option.some_inj.mp h
      have htotal := hle (fun c hc => (hplain c (List.mem_cons_of_mem _ hc)).2) hterms
      rw [Int64.toInt_neg_ofNat_of_le htotal] at hpos
      omega
  · exact absurd rfl (hplain '+' List.mem_cons_self).1
  · rw [hsplit] at h
    obtain ⟨hne, h⟩ := hzero h
    refine ⟨hsplit, hne, ?_⟩
    cases hterms : parseTerms fraction cs.length 0 cs with
    | none =>
      rw [hterms] at h
      exact absurd h nofun
    | some total =>
      rw [hterms] at h
      dsimp only at h
      rw [if_neg (by decide)] at h
      by_cases hover : 2 ^ 63 - 1 < total
      · rw [if_pos hover] at h
        exact absurd h nofun
      · rw [if_neg hover] at h
        obtain rfl := Option.some_inj.mp h
        exact ⟨total, rfl, Int64.toInt_ofNat_of_lt (by omega)⟩

end Strings
