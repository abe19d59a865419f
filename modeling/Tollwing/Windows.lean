/-
The window of a scan (`pkg/scan/prometheus.go`).

`ParseWindow` turns a text into a duration, which the projection divides by, and the
range of a PromQL query, which is the text itself.  Days are read by a branch of its
own and multiplied out without a check.

* `lengthOf`, `promLength` — what a text denotes as a length of time, and as a range;
* `parseWindow_exact_iff` — for which accepted texts the duration is what both denote.
-/
import Mathlib.Data.List.Basic
import Tollwing.Durations

/-- The units of a length of time, in nanoseconds: those of durations, and days. -/
def lengthUnit (u : List Char) : Option ℚ :=
  match Strings.unitMap u with
  | some n => some n
  | none => if u = ['d'] then some 86400000000000 else none

/-- The units of PromQL, in nanoseconds. -/
def promUnit : List Char → Option ℚ
  | ['m', 's'] => some 1000000
  | ['s'] => some 1000000000
  | ['m'] => some 60000000000
  | ['h'] => some 3600000000000
  | ['d'] => some 86400000000000
  | ['w'] => some 604800000000000
  | ['y'] => some 31536000000000000
  | _ => none

/-- The length of time that a text denotes: a sign, and numbers with units. -/
def lengthOf (s : String) : Option ℚ :=
  let (sign, cs) := Strings.splitSign s.toList
  if cs = [] then none
  else (Strings.sumTerms Strings.parseDecimal lengthUnit cs.length cs).map fun x => sign * x

/-- The range that a PromQL duration denotes: unsigned integers with units. -/
def promLength (s : String) : Option ℚ :=
  if s.toList = [] then none
  else Strings.sumTerms Strings.parseUnsigned promUnit s.toList.length s.toList

/-- Why a window is rejected: it is empty, no positive number of days, no duration, or no
positive one. -/
inductive WindowError
  | empty
  | invalidDay
  | invalid
  | notPositive
  deriving DecidableEq, Repr

/-- `ParseWindow`: the duration and the range text. -/
def parseWindow (fraction : List Char → ℕ → ℕ) (s : String) :
    Except WindowError (Int64 × String) :=
  if s.toList = [] then .error .empty
  else if s.toList.getLast? = some 'd' then
    match Strings.atoi s.toList.dropLast with
    | none => .error .invalidDay
    | some days =>
      if days ≤ 0 then .error .invalidDay
      else .ok (Int64.ofInt days * 24 * 3600000000000, s)
  else
    match Strings.parseDuration fraction s.toList with
    | none => .error .invalid
    | some d => if d ≤ 0 then .error .notPositive else .ok (d, s)

/-- The duration is positive and as long as the text, and so is the range. -/
structure ExactWindow (s : String) (d : Int64) (text : String) : Prop where
  pos : 0 < d
  length : lengthOf s = some (d.toInt : ℚ)
  range : promLength text = some (d.toInt : ℚ)

/-- No plus sign, fraction or unit below a millisecond, and no more days than fit. -/
def PlainWindow (s : String) : Prop :=
  (∀ c ∈ s.toList, c ≠ '+' ∧ c ∉ Strings.fine) ∧
    (s.toList.getLast? = some 'd' → Strings.digitsVal s.toList.dropLast ≤ 106751)

/-- What `ParseWindow` accepts: a positive number of days, or a positive duration. -/
theorem parseWindow_ok {fraction : List Char → ℕ → ℕ} {s text : String} {d : Int64}
    (h : parseWindow fraction s = .ok (d, text)) :
    text = s ∧ ((∃ w days, s.toList = w ++ ['d'] ∧ Strings.atoi w = some days ∧ 0 < days ∧
        d = Int64.ofInt days * 24 * 3600000000000) ∨
      (s.toList.getLast? ≠ some 'd' ∧ Strings.parseDuration fraction s.toList = some d ∧
        0 < d)) := by
  rw [parseWindow] at h
  split_ifs at h with hempty hday
  · cases hatoi : Strings.atoi s.toList.dropLast with
    | none =>
      rw [hatoi] at h
      exact absurd h nofun
    | some days =>
      rw [hatoi] at h
      dsimp only at h
      split_ifs at h with hpos
      obtain ⟨rfl, rfl⟩ := Prod.mk.inj (Except.ok.inj h)
      exact ⟨rfl, Or.inl ⟨_, days, (List.dropLast_append_getLast? 'd' hday).symm, hatoi,
        not_le.mp hpos, rfl⟩⟩
  · cases hparse : Strings.parseDuration fraction s.toList with
    | none =>
      rw [hparse] at h
      exact absurd h nofun
    | some d' =>
      rw [hparse] at h
      dsimp only at h
      split_ifs at h with hpos
      obtain ⟨rfl, rfl⟩ := Prod.mk.inj (Except.ok.inj h)
      exact ⟨rfl, Or.inr ⟨hday, rfl, Int64.not_le.mp hpos⟩⟩

/-- A PromQL duration has neither a sign nor any of the fine characters. -/
theorem promLength_chars {s : String} {x : ℚ} (h : promLength s = some x) :
    ∀ c ∈ s.toList, c ≠ '+' ∧ c ∉ Strings.fine := by
  rw [promLength] at h
  split_ifs at h with hempty
  refine Strings.sumTerms_chars (fun w x hw c hc => ?_) (fun u x hu => ?_) h
  · rw [Strings.parseUnsigned] at hw
    split_ifs at hw with hdigits
    have hdigit : c.isDigit = true := List.all_eq_true.mp hdigits.2 c hc
    refine ⟨?_, fun hfine => ?_⟩
    · rintro rfl
      exact absurd hdigit (by decide)
    · simp only [Strings.fine, List.mem_cons, List.not_mem_nil, or_false] at hfine
      rcases hfine with rfl | rfl | rfl | rfl | rfl <;> exact absurd hdigit (by decide)
  · unfold promUnit at hu
    split at hu
    case h_8 => exact absurd hu.symm (Option.some_ne_none x)
    all_goals simp [Strings.fine]

/-- Days without a plus sign: the text denotes so many days, and so does the range. -/
theorem lengths_of_days {s : String} {w : List Char} {days : ℤ} (hs : s.toList = w ++ ['d'])
    (hdays : Strings.atoi w = some days) (hpos : 0 < days) (hplus : '+' ∉ s.toList) :
    days = Strings.digitsVal w ∧ lengthOf s = some ((days : ℚ) * 86400000000000) ∧
      promLength s = some ((days : ℚ) * 86400000000000) := by
  obtain ⟨hne, hdigits, rfl⟩ := Strings.atoi_pos hdays hpos
    fun hmem => hplus (hs ▸ List.mem_append_left _ hmem)
  have hnil : w ++ ['d'] ≠ [] := List.append_ne_nil_of_right_ne_nil _ (List.cons_ne_nil _ _)
  refine ⟨rfl, ?_, ?_⟩
  · have hsign : Strings.splitSign (w ++ ['d']) = (1, w ++ ['d']) := by
      rcases Strings.splitSign_cases (w ++ ['d']) with ⟨t, ht, -⟩ | ⟨t, ht, -⟩ | h
      · cases w with
        | nil => exact absurd rfl hne
        | cons c w =>
          obtain ⟨rfl, -⟩ := List.cons.inj ht
          exact absurd (hdigits '-' List.mem_cons_self) (by decide)
      · exact absurd (hs ▸ ht ▸ List.mem_cons_self) hplus
      · exact h
    rw [lengthOf, hs, hsign]
    dsimp only
    rw [if_neg hnil, Strings.sumTerms_single hne hdigits rfl
      (Strings.parseDecimal_of_digits hne hdigits) (u := 86400000000000) rfl]
    simp
  · rw [promLength, hs, if_neg hnil, Strings.sumTerms_single hne hdigits rfl
      (Strings.parseUnsigned_of_digits hne hdigits) (u := 86400000000000) rfl]
    simp

/-- Up to 106751 days fit in 64 bits of nanoseconds. -/
theorem toInt_days {days : ℤ} (hpos : 0 < days) (hle : days ≤ 106751) :
    (Int64.ofInt days * 24 * 3600000000000).toInt = days * 86400000000000 := by
  have hdays : (Int64.ofInt days).toInt = days :=
    Int64.toInt_ofInt_of_le (by omega) (by omega)
  have hhours : (Int64.ofInt days * 24).toInt = days * 24 := by
    rw [Int64.toInt_mul, hdays]
    exact Int.bmod_eq_of_le (by change _ ≤ days * 24; omega) (by change days * 24 < _; omega)
  rw [Int64.toInt_mul, hhours]
  change (days * 24 * 3600000000000).bmod (2 ^ 64) = _
  rw [Int.bmod_eq_of_le (by omega) (by omega)]
  omega

/-- The units that durations share with PromQL. -/
theorem promUnit_of_unitMap {u : List Char} {n : ℕ} (h : Strings.unitMap u = some n)
    (hu : ∀ c ∈ u, c ∉ Strings.fine) : promUnit u = some (n : ℚ) := by
  rcases Strings.unitMap_coarse h hu with ⟨rfl, rfl⟩ | ⟨rfl, rfl⟩ | ⟨rfl, rfl⟩ | ⟨rfl, rfl⟩ <;> rfl

/-- **Durations** without a sign, a fraction or a fine unit are as long as their text, which
is a range of that length. -/
theorem lengths_of_duration {fraction : List Char → ℕ → ℕ} {s : String} {d : Int64}
    (hparse : Strings.parseDuration fraction s.toList = some d) (hpos : 0 < d)
    (hplain : ∀ c ∈ s.toList, c ≠ '+' ∧ c ∉ Strings.fine) :
    lengthOf s = some (d.toInt : ℚ) ∧ promLength s = some (d.toInt : ℚ) := by
  obtain ⟨hsign, hne, total, hterms, htotal⟩ :=
    Strings.parseDuration_pos hparse (Int64.lt_iff_toInt_lt.mp hpos) hplain
  have hfine : ∀ c ∈ s.toList, c ∉ Strings.fine := fun c hc => (hplain c hc).2
  -- the same terms, read as lengths and as ranges
  obtain ⟨-, k, hk, hlength⟩ := Strings.parseTerms_spec Strings.parseDecimal lengthUnit
    (fun w hne hw => Strings.parseDecimal_of_digits hne hw)
    (fun u n hu _ => by rw [lengthUnit, hu]) _ hfine (Nat.zero_le _) le_rfl hterms
  obtain ⟨-, k', hk', hrange⟩ := Strings.parseTerms_spec Strings.parseUnsigned promUnit
    (fun w hne hw => Strings.parseUnsigned_of_digits hne hw)
    (fun u n hu hcoarse => promUnit_of_unitMap hu hcoarse) _ hfine (Nat.zero_le _) le_rfl hterms
  obtain rfl : total = k := by omega
  obtain rfl : total = k' := by omega
  rw [htotal, lengthOf, promLength, hsign]
  dsimp only
  rw [if_neg hne, if_neg hne, hlength, hrange]
  simp

/-- **`ParseWindow` is exact** on the plain texts it accepts, and on no others. -/
theorem parseWindow_exact_iff {fraction : List Char → ℕ → ℕ} {s text : String} {d : Int64}
    (h : parseWindow fraction s = .ok (d, text)) : ExactWindow s d text ↔ PlainWindow s := by
  obtain ⟨rfl, ⟨w, days, hs, hdays, hpos, rfl⟩ | ⟨hlast, hparse, hpos⟩⟩ := parseWindow_ok h
  · have hdrop : text.toList.dropLast = w := by rw [hs, List.dropLast_concat]
    constructor
    · intro hexact
      have hchars := promLength_chars hexact.range
      obtain ⟨hval, hlength, -⟩ := lengths_of_days hs hdays hpos fun hplus =>
        (hchars '+' hplus).1 rfl
      refine ⟨hchars, fun _ => ?_⟩
      -- the exact length is within 64 bits
      have heq := Option.some_inj.mp (hlength.symm.trans hexact.length)
      have hmul : days * 86400000000000 =
          (Int64.ofInt days * 24 * 3600000000000).toInt := by exact_mod_cast heq
      have hlt := (Int64.ofInt days * 24 * 3600000000000).toInt_lt
      rw [hdrop]
      omega
    · intro ⟨hchars, hbound⟩
      obtain ⟨hval, hlength, hrange⟩ := lengths_of_days hs hdays hpos fun hplus =>
        (hchars '+' hplus).1 rfl
      have hle := hbound (by rw [hs, List.getLast?_concat])
      rw [hdrop] at hle
      have hexact := toInt_days hpos (by omega)
      refine ⟨Int64.lt_iff_toInt_lt.mpr ?_, ?_, ?_⟩
      · rw [hexact]
        change 0 < _
        omega
      · rw [hlength, hexact]
        push_cast
        rfl
      · rw [hrange, hexact]
        push_cast
        rfl
  · constructor
    · intro hexact
      exact ⟨promLength_chars hexact.range, fun hday => absurd hday hlast⟩
    · intro ⟨hchars, _⟩
      obtain ⟨hlength, hrange⟩ := lengths_of_duration hparse hpos hchars
      exact ⟨hpos, hlength, hrange⟩

/-- A week. -/
theorem parseWindow_exact_iff_week :
    parseWindow (fun _ _ => 0) "7d" = .ok (604800000000000, "7d") ∧
      (ExactWindow "7d" 604800000000000 "7d" ↔ PlainWindow "7d") :=
  ⟨by decide, @parseWindow_exact_iff (fun _ _ => 0) "7d" "7d" 604800000000000 (by decide)⟩

/-- The first number of days that does not fit becomes a negative duration, and a number of
days with a sign is no range. -/
theorem not_exact_long_window :
    (parseWindow (fun _ _ => 0) "106752d" = .ok (-9223371273709551616, "106752d") ∧
        ¬ExactWindow "106752d" (-9223371273709551616) "106752d") ∧
      parseWindow (fun _ _ => 0) "+7d" = .ok (604800000000000, "+7d") ∧
        ¬ExactWindow "+7d" 604800000000000 "+7d" :=
  ⟨⟨by decide, fun h => absurd h.pos (by decide)⟩, by decide, fun h => absurd h.range nofun⟩
