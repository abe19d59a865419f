/-
Regions of zone names (`pkg/agent/agent.go`, `pkg/classifier/traffic.go`,
`pkg/classifier/zone.go`).

The agent and the classifier each take the region out of a zone name, with rules of their
own.  Indexing and slicing panic outside of the text, so both are modelled with checked
accesses first.

* `Agent.regionFromZone`, `Classifier.regionFromZoneLoop` — the two as they are written;
* `regionFromZoneLoop_eq` — the classifier's never panics;
* `extractors_agree_iff` — the zones on which both give one region;
* `regions_correct_iff` — the regions that the classifier recovers and leaves alone.
-/
import Tollwing.ZoneResolver

/-! ### Text with checked bounds -/

namespace Text

/-- `s[i]`; nothing where it panics. -/
def index (s : List Char) (i : ℤ) : Option Char := if 0 ≤ i then s[i.toNat]? else none

/-- `s[:n]`; nothing where it panics. -/
def slice (s : List Char) (n : ℤ) : Option (List Char) :=
  if 0 ≤ n ∧ n ≤ s.length then some (s.take n.toNat) else none

theorem index_append (s t : List Char) (c : Char) : index (s ++ c :: t) s.length = some c := by
  rw [index, if_pos (Int.natCast_nonneg _), Int.toNat_natCast, List.getElem?_append_right le_rfl,
    Nat.sub_self]
  rfl

theorem slice_append (s t : List Char) : slice (s ++ t) s.length = some s := by
  have hlen : (s.length : ℤ) ≤ (s ++ t).length := by
    rw [List.length_append]
    omega
  rw [slice, if_pos ⟨Int.natCast_nonneg _, hlen⟩, Int.toNat_natCast, List.take_left]

/-- The last character of a text that has one. -/
theorem index_last (s : List Char) (c : Char) :
    index (s ++ [c]) ((s ++ [c]).length - 1) = some c := by
  have hlen : ((s ++ [c]).length : ℤ) - 1 = s.length := by simp
  rw [hlen]
  exact index_append s [] c

/-- The text without its last character. -/
theorem slice_last (s : List Char) (c : Char) :
    slice (s ++ [c]) ((s ++ [c]).length - 1) = some s := by
  have hlen : ((s ++ [c]).length : ℤ) - 1 = s.length := by simp
  rw [hlen]
  exact slice_append s [c]

/-- A text with a dash, around its last one. -/
theorem exists_last_dash {zone : List Char} (h : '-' ∈ zone) :
    ∃ front rest, zone = front ++ '-' :: rest ∧ '-' ∉ rest := by
  obtain ⟨rest, front, hsplit, hrest⟩ :=
    List.eq_append_cons_of_mem (List.mem_reverse.mpr h)
  refine ⟨front.reverse, rest.reverse, ?_, by simpa using hrest⟩
  simpa using congrArg List.reverse hsplit

end Text

open Text

/-! ### The two extractors -/

namespace Agent

/-- The loop of the agent, from the last character on. -/
def dashLoop (zone : List Char) : ℕ → Option (List Char)
  | 0 => some zone
  | i + 1 => (index zone i).bind fun c => if c = '-' then slice zone i else dashLoop zone i

/-- A zone that ends in a letter: the letter goes, and a dash in front of it. -/
def dropLetter (zone : List Char) : Option (List Char) :=
  (slice zone (zone.length - 1)).bind fun candidate =>
    if 0 < candidate.length then
      (index candidate (candidate.length - 1)).bind fun c =>
        if c ≠ '-' then some candidate else slice candidate (candidate.length - 1)
    else slice candidate (candidate.length - 1)

def region (zone : List Char) : Option (List Char) :=
  if zone = [] then some []
  else
    (index zone (zone.length - 1)).bind fun last =>
      if 'a' ≤ last ∧ last ≤ 'z' then dropLetter zone else dashLoop zone zone.length

/-- The agent's `regionFromZone`, which selects the rate card. -/
def regionFromZone (zone : String) : Option String := (region zone.toList).map String.ofList

end Agent

namespace Classifier

/-- The loop of the classifier, from the last character on. -/
def zoneLoop (zone : List Char) : ℕ → Option (List Char)
  | 0 => some zone
  | i + 1 => (index zone i).bind fun c =>
    if c = '-' then
      (slice zone i).map fun candidate => if 0 < candidate.length then candidate else zone
    else if (i : ℤ) = zone.length - 1 ∧ ('a' ≤ c ∧ c ≤ 'z') ∧ 0 < i then
      (index zone (i - 1)).bind fun d =>
        if d.isDigit then slice zone (zone.length - 1) else zoneLoop zone i
    else zoneLoop zone i

/-- The classifier's `regionFromZone`, as it is written. -/
def regionFromZoneLoop (zone : String) : Option String :=
  if zone = "" then some "" else (zoneLoop zone.toList zone.toList.length).map String.ofList

/-- The region that the scan from the end finds, or the zone itself. -/
def region (zone : List Char) : List Char := (regionScan true zone.reverse).elim zone List.reverse

theorem regionFromZone_eq (zone : String) :
    regionFromZone zone = String.ofList (region zone.toList) := by
  rw [regionFromZone, region]
  cases regionScan true zone.toList.reverse with
  | none => exact String.ofList_toList.symm
  | some front => rfl

/-- The loop is at the end of `pre`, the characters behind it are read. -/
theorem zoneLoop_eq (pre : List Char) : ∀ suf : List Char,
    zoneLoop (pre ++ suf) pre.length
      = some ((regionScan (suf = []) pre.reverse).elim (pre ++ suf) List.reverse) := by
  induction pre using List.reverseRecOn with
  | nil => exact fun _ => rfl
  | append_singleton front c ih =>
    intro suf
    have hrest : zoneLoop (front ++ c :: suf) front.length
        = some ((regionScan false front.reverse).elim (front ++ c :: suf) List.reverse) := by
      simpa using ih (c :: suf)
    rw [List.length_append, List.length_singleton, zoneLoop, List.append_assoc,
      List.singleton_append, index_append, Option.bind_some, List.reverse_append,
      List.reverse_singleton, List.singleton_append, regionScan]
    by_cases hdash : c = '-'
    · rw [if_pos hdash, if_pos hdash, slice_append, Option.map_some]
      by_cases hempty : front = []
      · rw [hempty]
        rfl
      · have hreverse : front.reverse ≠ [] := mt List.reverse_eq_nil_iff.mp hempty
        rw [if_pos (List.length_pos_iff.mpr hempty), if_neg hreverse, Option.elim_some,
          List.reverse_reverse]
    · rw [if_neg hdash, if_neg hdash]
      have hlast : (front.length : ℤ) = (front ++ c :: suf).length - 1 ↔ suf = [] := by
        rw [List.length_append, List.length_cons, ← List.length_eq_zero_iff]
        omega
      have hhead : front.reverse.head?.any Char.isDigit = true → front ≠ [] := by
        rintro hdigit rfl
        cases hdigit
      by_cases hletter : suf = [] ∧ ('a' ≤ c ∧ c ≤ 'z') ∧ front ≠ []
      · -- the last character is a letter behind another character
        obtain ⟨rfl, hlower, hfront⟩ := hletter
        obtain ⟨f, d, rfl⟩ := (List.eq_nil_or_concat' front).resolve_left hfront
        rw [if_pos ⟨hlast.mpr rfl, hlower, List.length_pos_iff.mpr hfront⟩]
        have hindex : index ((f ++ [d]) ++ [c]) ((f ++ [d]).length - 1) = some d := by
          have hlen : ((f ++ [d]).length : ℤ) - 1 = f.length := by simp
          rw [hlen, List.append_assoc]
          exact index_append f [c] d
        rw [hindex, Option.bind_some, slice_last, List.reverse_append, List.reverse_singleton,
          List.singleton_append, List.head?_cons, Option.any_some]
        by_cases hdigit : d.isDigit = true
        · rw [if_pos hdigit, if_pos ⟨rfl, hlower.1, hlower.2, hdigit⟩]
          simp
        · rw [if_neg hdigit, if_neg fun h => hdigit h.2.2.2, hrest]
          simp
      · rw [if_neg fun h => hletter ⟨hlast.mp h.1, h.2.1, List.length_pos_iff.mp h.2.2⟩,
          if_neg fun h => hletter ⟨of_decide_eq_true h.1, ⟨h.2.1, h.2.2.1⟩, hhead h.2.2.2⟩, hrest]

/-- The classifier's extractor never panics. -/
theorem regionFromZoneLoop_eq (zone : String) :
    regionFromZoneLoop zone = some (regionFromZone zone) := by
  rw [regionFromZoneLoop]
  split_ifs with hempty
  · rw [hempty]
    rfl
  · have hloop := zoneLoop_eq zone.toList []
    rw [List.append_nil] at hloop
    rw [hloop, regionFromZone_eq]
    rfl

/-! ### What the scan finds -/

/-- A letter behind a digit at the end. -/
def AWSSuffix (zone : List Char) : Prop :=
  ∃ front d c, zone = front ++ [d, c] ∧ d.isDigit = true ∧ 'a' ≤ c ∧ c ≤ 'z'

theorem letter_ne_dash {c : Char} (hc : 'a' ≤ c ∧ c ≤ 'z') : '-' ≠ c := by
  rintro rfl
  exact absurd hc.1 (by decide)

theorem digit_ne_dash {d : Char} (hd : d.isDigit = true) : d ≠ '-' := by
  rintro rfl
  exact absurd hd (by decide)

theorem not_awsSuffix_of_not_digit (front : List Char) {d c : Char} (hd : ¬d.isDigit = true) :
    ¬AWSSuffix (front ++ [d, c]) := by
  rintro ⟨front', d', c', h, hd', -⟩
  cases (List.append_inj' h rfl).2
  exact hd hd'

theorem region_letter (front : List Char) {d c : Char} (hd : d.isDigit = true)
    (hc : 'a' ≤ c ∧ c ≤ 'z') : region (front ++ [d, c]) = front ++ [d] := by
  have hreverse : (front ++ [d, c]).reverse = c :: d :: front.reverse := by simp
  rw [region, hreverse, regionScan, if_neg (letter_ne_dash hc).symm,
    if_pos ⟨rfl, hc.1, hc.2, by simpa using hd⟩]
  simp

/-- Without a letter behind a digit, the scan looks for dashes only. -/
theorem regionScan_of_not_suffix {zone : List Char} (h : ¬AWSSuffix zone) :
    regionScan true zone.reverse = regionScan false zone.reverse := by
  obtain rfl | ⟨front, c, rfl⟩ := List.eq_nil_or_concat' zone
  · rfl
  rw [List.reverse_append, List.reverse_singleton, List.singleton_append, regionScan, regionScan]
  refine if_congr Iff.rfl rfl ?_
  rw [if_neg, if_neg (fun h => Bool.false_ne_true h.1)]
  rintro ⟨-, hge, hle, hdigit⟩
  obtain rfl | ⟨f, d, rfl⟩ := List.eq_nil_or_concat' front
  · cases hdigit
  · refine h ⟨f, d, c, by simp, ?_, hge, hle⟩
    simpa using hdigit

theorem regionScan_dash {rest : List Char} (hrest : '-' ∉ rest) (front : List Char) :
    regionScan false (rest ++ '-' :: front) = if front = [] then none else some front := by
  induction rest with
  | nil => rw [List.nil_append, regionScan, if_pos rfl]
  | cons c rest ih =>
    obtain ⟨hc, hrest⟩ := not_or.mp (mt List.mem_cons.mpr hrest)
    rw [List.cons_append, regionScan, if_neg (Ne.symm hc),
      if_neg (fun h => Bool.false_ne_true h.1)]
    exact ih hrest

theorem regionScan_no_dash {zone : List Char} (h : '-' ∉ zone) : regionScan false zone = none := by
  induction zone with
  | nil => rfl
  | cons c rest ih =>
    obtain ⟨hc, hrest⟩ := not_or.mp (mt List.mem_cons.mpr h)
    rw [regionScan, if_neg (Ne.symm hc), if_neg (fun h => Bool.false_ne_true h.1)]
    exact ih hrest

/-- The region in front of the last dash, if there is one. -/
theorem region_dash {front rest : List Char} (h : ¬AWSSuffix (front ++ '-' :: rest))
    (hrest : '-' ∉ rest) :
    region (front ++ '-' :: rest) = if front = [] then '-' :: rest else front := by
  have hreverse : (front ++ '-' :: rest).reverse = rest.reverse ++ '-' :: front.reverse := by simp
  rw [region, regionScan_of_not_suffix h, hreverse, regionScan_dash (by simpa using hrest)]
  by_cases hempty : front = []
  · rw [hempty]
    rfl
  · rw [if_neg (mt List.reverse_eq_nil_iff.mp hempty), if_neg hempty, Option.elim_some,
      List.reverse_reverse]

theorem region_no_dash {zone : List Char} (h : ¬AWSSuffix zone) (hdash : '-' ∉ zone) :
    region zone = zone := by
  rw [region, regionScan_of_not_suffix h, regionScan_no_dash (by simpa using hdash)]
  rfl

/-- Only a letter behind a digit is taken off alone. -/
theorem region_ne_drop {front : List Char} {d c : Char} (h : ¬AWSSuffix (front ++ [d, c]))
    (hdash : '-' ≠ c) : region (front ++ [d, c]) ≠ front ++ [d] := by
  intro heq
  have happend : front ++ [d, c] = front ++ [d] ++ [c] := by simp
  have hshorter : front ++ [d, c] ≠ front ++ [d] := by simp
  by_cases hmem : '-' ∈ front ++ [d, c]
  · obtain ⟨f, rest, hsplit, hrest⟩ := exists_last_dash hmem
    rw [hsplit] at heq h hshorter
    rw [region_dash h hrest] at heq
    split_ifs at heq with hempty
    · rw [hempty] at hshorter
      exact hshorter heq
    · -- what is taken off begins with a dash
      rw [heq, happend] at hsplit
      exact hdash (List.cons.inj (List.append_cancel_left hsplit)).1.symm
  · exact hshorter ((region_no_dash h hmem).symm.trans heq)

/-- A letter at the end is taken off, with a dash in front of it, exactly behind a digit or
behind a dash that is not the first character. -/
theorem region_eq_drop_iff (front : List Char) {d c : Char} (hc : 'a' ≤ c ∧ c ≤ 'z') :
    (if d ≠ '-' then front ++ [d] else front) = region (front ++ [d, c]) ↔
      d.isDigit = true ∨ d = '-' ∧ front ≠ [] := by
  by_cases hdigit : d.isDigit = true
  · rw [region_letter front hdigit hc, if_pos (digit_ne_dash hdigit)]
    exact iff_of_true rfl (Or.inl hdigit)
  have hsuffix := not_awsSuffix_of_not_digit front (c := c) hdigit
  by_cases hdash : d = '-'
  · rw [hdash] at hsuffix ⊢
    rw [if_neg (not_not_intro rfl),
      region_dash hsuffix (show '-' ∉ [c] by simpa using letter_ne_dash hc)]
    by_cases hempty : front = []
    · -- without the dash nothing would be left
      rw [if_pos hempty, hempty]
      refine iff_of_false (List.cons_ne_nil _ _).symm ?_
      rintro (hminus | ⟨-, hne⟩)
      · exact absurd hminus (by decide)
      · exact hne rfl
    · rw [if_neg hempty]
      exact iff_of_true rfl (Or.inr ⟨rfl, hempty⟩)
  · -- the scan takes more than the letter off, or nothing
    rw [if_pos hdash]
    refine iff_of_false (region_ne_drop hsuffix (letter_ne_dash hc)).symm ?_
    rintro (hd | ⟨hd, -⟩)
    · exact hdigit hd
    · exact hdash hd

end Classifier

namespace Agent

theorem region_concat (front : List Char) (c : Char) :
    region (front ++ [c]) = if 'a' ≤ c ∧ c ≤ 'z' then dropLetter (front ++ [c])
      else dashLoop (front ++ [c]) (front ++ [c]).length := by
  rw [region, if_neg (List.append_ne_nil_of_right_ne_nil _ (List.cons_ne_nil c [])), index_last]
  rfl

theorem dropLetter_concat (front : List Char) (d c : Char) :
    dropLetter (front ++ [d] ++ [c]) = some (if d ≠ '-' then front ++ [d] else front) := by
  rw [dropLetter, slice_last, Option.bind_some, if_pos (by simp), index_last, Option.bind_some,
    slice_last]
  split_ifs <;> rfl

/-- The loop passes over text without a dash. -/
theorem dashLoop_append (front : List Char) {rest : List Char} (hrest : '-' ∉ rest) :
    ∀ suf, dashLoop (front ++ rest ++ suf) (front ++ rest).length
      = dashLoop (front ++ rest ++ suf) front.length := by
  induction rest using List.reverseRecOn with
  | nil =>
    intro suf
    rw [List.append_nil]
  | append_singleton rest c ih =>
    intro suf
    rw [List.mem_append, List.mem_singleton, not_or] at hrest
    have hlen : (front ++ (rest ++ [c])).length = (front ++ rest).length + 1 := by
      simp only [List.length_append, List.length_singleton]
      omega
    have hsplit : front ++ (rest ++ [c]) ++ suf = front ++ rest ++ c :: suf := by simp
    rw [hlen, hsplit, dashLoop, index_append, Option.bind_some, if_neg (Ne.symm hrest.2)]
    exact ih hrest.1 (c :: suf)

theorem dashLoop_dash (front : List Char) {rest : List Char} (hrest : '-' ∉ rest) :
    dashLoop (front ++ '-' :: rest) (front ++ '-' :: rest).length = some front := by
  have hlen : (front ++ ['-']).length = front.length + 1 := List.length_append
  have hpass := dashLoop_append (front ++ ['-']) hrest []
  rw [List.append_nil, hlen, dashLoop, List.append_assoc, List.singleton_append, index_append,
    Option.bind_some, if_pos rfl, slice_append] at hpass
  exact hpass

theorem dashLoop_no_dash {zone : List Char} (h : '-' ∉ zone) :
    dashLoop zone zone.length = some zone := by
  have hpass := dashLoop_append [] h []
  rw [List.nil_append, List.append_nil] at hpass
  exact hpass

end Agent

/-! ### Where the two agree -/

/-- A zone that ends in a letter has a digit in front of it, or a dash that is not its
first character; another zone does not have its only dash in front. -/
def ExtractorsAgree (zone : List Char) : Prop :=
  (∀ front c, zone = front ++ [c] → 'a' ≤ c ∧ c ≤ 'z' →
      ∃ f d, front = f ++ [d] ∧ (d.isDigit = true ∨ d = '-' ∧ f ≠ [])) ∧
    ((∀ front c, zone = front ++ [c] → ¬('a' ≤ c ∧ c ≤ 'z')) →
      ∀ rest, zone = '-' :: rest → '-' ∈ rest)

/-- The agreement on a zone that ends in a letter. -/
theorem region_agree_letter {front : List Char} {c : Char} (hc : 'a' ≤ c ∧ c ≤ 'z') :
    Agent.region (front ++ [c]) = some (Classifier.region (front ++ [c])) ↔
      ∃ f d, front = f ++ [d] ∧ (d.isDigit = true ∨ d = '-' ∧ f ≠ []) := by
  rw [Agent.region_concat, if_pos hc]
  obtain rfl | ⟨f, d, rfl⟩ := List.eq_nil_or_concat' front
  · -- the agent panics
    refine ⟨fun h => absurd h (Option.some_ne_none _).symm, ?_⟩
    rintro ⟨f, d, h, -⟩
    exact absurd h.symm (List.append_ne_nil_of_right_ne_nil _ (List.cons_ne_nil d []))
  have hunique : (∃ f' d', f ++ [d] = f' ++ [d'] ∧ (d'.isDigit = true ∨ d' = '-' ∧ f' ≠ []))
      ↔ d.isDigit = true ∨ d = '-' ∧ f ≠ [] := by
    constructor
    · rintro ⟨f', d', h, hd'⟩
      obtain ⟨rfl, hd⟩ := List.append_inj' h rfl
      rwa [List.singleton_inj.mp hd]
    · intro hd
      exact ⟨f, d, rfl, hd⟩
  have happend : f ++ [d] ++ [c] = f ++ [d, c] := by simp
  rw [hunique, Agent.dropLetter_concat, Option.some_inj, happend]
  exact Classifier.region_eq_drop_iff f hc

/-- The agreement on a zone that does not. -/
theorem region_agree_other {zone : List Char}
    (hother : ∀ front c, zone = front ++ [c] → ¬('a' ≤ c ∧ c ≤ 'z')) :
    Agent.region zone = some (Classifier.region zone) ↔
      ∀ rest, zone = '-' :: rest → '-' ∈ rest := by
  have hsuffix : ¬Classifier.AWSSuffix zone := by
    rintro ⟨front, d, c, h, -, hc⟩
    exact hother (front ++ [d]) c (by simpa using h) hc
  obtain rfl | ⟨front, c, hzone⟩ := List.eq_nil_or_concat' zone
  · exact ⟨nofun, fun _ => rfl⟩
  have hagent : Agent.region zone = Agent.dashLoop zone zone.length := by
    rw [hzone, Agent.region_concat, if_neg (hother front c hzone)]
  rw [hagent]
  by_cases hdash : '-' ∈ zone
  · obtain ⟨front, rest, rfl, hrest⟩ := exists_last_dash hdash
    rw [Agent.dashLoop_dash front hrest, Classifier.region_dash hsuffix hrest, Option.some_inj]
    by_cases hempty : front = []
    · rw [if_pos hempty, hempty]
      refine ⟨fun h => absurd h (List.cons_ne_nil _ _).symm, fun h => ?_⟩
      exact absurd (h rest rfl) hrest
    · rw [if_neg hempty]
      refine ⟨fun _ rest' h => ?_, fun _ => rfl⟩
      obtain ⟨c, front, rfl⟩ := List.exists_cons_of_ne_nil hempty
      rw [← (List.cons.inj h).2]
      exact List.mem_append_right front List.mem_cons_self
  · rw [Agent.dashLoop_no_dash hdash, Classifier.region_no_dash hsuffix hdash]
    refine ⟨fun _ rest h => ?_, fun _ => rfl⟩
    rw [h] at hdash
    exact absurd List.mem_cons_self hdash

theorem region_agree_iff (zone : List Char) :
    Agent.region zone = some (Classifier.region zone) ↔ ExtractorsAgree zone := by
  by_cases hletter : ∃ front c, zone = front ++ [c] ∧ 'a' ≤ c ∧ c ≤ 'z'
  · obtain ⟨front, c, rfl, hc⟩ := hletter
    rw [region_agree_letter hc, ExtractorsAgree]
    constructor
    · intro h
      refine ⟨fun front' c' heq _ => ?_, fun hother => absurd hc (hother front c rfl)⟩
      rwa [← (List.append_inj' heq rfl).1]
    · exact fun h => h.1 front c rfl hc
  · have hother : ∀ front c, zone = front ++ [c] → ¬('a' ≤ c ∧ c ≤ 'z') :=
      fun front c h hc => hletter ⟨front, c, h, hc⟩
    rw [region_agree_other hother, ExtractorsAgree]
    exact ⟨fun h => ⟨fun front c heq hc => absurd hc (hother front c heq), fun _ => h⟩,
      fun h => h.2 hother⟩

/-- **The two extractors agree** on a zone, neither panicking, exactly if it does not end
in a letter of its own accord nor begin with its only dash. -/
theorem extractors_agree_iff (zone : String) :
    (∃ region, Agent.regionFromZone zone = some region ∧
        Classifier.regionFromZoneLoop zone = some region) ↔ ExtractorsAgree zone.toList := by
  rw [← region_agree_iff, Classifier.regionFromZoneLoop_eq, Classifier.regionFromZone_eq,
    Agent.regionFromZone]
  constructor
  · rintro ⟨region, hagent, hclassifier⟩
    obtain ⟨cs, hcs, rfl⟩ := Option.map_eq_some_iff.mp hagent
    rw [hcs, String.ofList_injective (Option.some.inj hclassifier)]
  · intro h
    exact ⟨_, by rw [h, Option.map_some], rfl⟩

/-- An unqualified Azure region loses its last letter on the agent's side only, and a
letter alone makes the agent panic. -/
theorem extractors_disagree :
    (Agent.regionFromZone "eastus" = some "eastu" ∧
        Classifier.regionFromZoneLoop "eastus" = some "eastus") ∧
      Agent.regionFromZone "a" = none ∧ Classifier.regionFromZoneLoop "a" = some "a" := by
  decide +kernel

/-! ### Regions of all providers -/

/-- `QualifyAzureZone`. -/
def qualifyAzureZone (region zone : String) : String :=
  if zone = "" then ""
  -- already qualified, or no bare ordinal
  else if ¬zone.toList.all Char.isDigit then zone
  else if region = "" then zone
  else region ++ "-" ++ zone

/-- The region is taken out of its zones in each style, and left alone itself. -/
structure RegionsCorrect (region : String) (letter : Char) (ordinal : String) : Prop where
  aws : (∃ front d, region.toList = front ++ [d] ∧ d.isDigit = true) →
    regionFromZone (region.push letter) = region
  gcp : regionFromZone (region ++ "-" ++ letter.toString) = region
  azure : regionFromZone (region ++ "-" ++ ordinal) = region
  qualified : regionFromZone (qualifyAzureZone region ordinal) = region
  bare : regionFromZone region = region
  idempotent : ∀ zone, regionFromZone zone = region →
    regionFromZone (regionFromZone zone) = regionFromZone zone

namespace Classifier

theorem not_letter_of_isDigit {c : Char} (h : c.isDigit = true) : ¬('a' ≤ c ∧ c ≤ 'z') := by
  rintro ⟨hge, -⟩
  rw [Char.isDigit, Bool.and_eq_true, decide_eq_true_eq, decide_eq_true_eq] at h
  have hle : 'a'.val ≤ '9'.val := UInt32.le_trans hge h.2
  exact absurd hle (by decide)

theorem not_awsSuffix_of_last (front : List Char) {c : Char} (hc : ¬('a' ≤ c ∧ c ≤ 'z')) :
    ¬AWSSuffix (front ++ [c]) := by
  rintro ⟨front', d, c', h, -, hc'⟩
  have h' : front ++ [c] = front' ++ [d] ++ [c'] := by simpa using h
  rw [List.singleton_inj.mp (List.append_inj' h' rfl).2] at hc
  exact hc hc'

theorem region_dash_letter {region : List Char} (hregion : region ≠ []) {c : Char}
    (hc : '-' ≠ c) : Classifier.region (region ++ ['-', c]) = region := by
  have hsuffix : ¬AWSSuffix (region ++ ['-', c]) := not_awsSuffix_of_not_digit region (by decide)
  rw [region_dash hsuffix (by simpa using hc), if_neg hregion]

theorem region_dash_ordinal {region ordinal : List Char} (hregion : region ≠ [])
    (hordinal : ordinal ≠ []) (hdigits : ∀ c ∈ ordinal, c.isDigit = true) :
    Classifier.region (region ++ '-' :: ordinal) = region := by
  have hrest : '-' ∉ ordinal := fun hdash => absurd (hdigits '-' hdash) (by decide)
  obtain ⟨front, c, rfl⟩ := (List.eq_nil_or_concat' ordinal).resolve_left hordinal
  have hletter := not_letter_of_isDigit (hdigits c (by simp))
  have hsuffix : ¬AWSSuffix (region ++ '-' :: (front ++ [c])) := by
    have hlast := not_awsSuffix_of_last (region ++ '-' :: front) hletter
    simpa using hlast
  rw [region_dash hsuffix hrest, if_neg hregion]

/-- A text is left alone if it neither ends in a zone letter nor has a dash inside. -/
theorem region_eq_self_iff {region : List Char} (hregion : region ≠ []) :
    Classifier.region region = region ↔ ¬AWSSuffix region ∧ '-' ∉ region.tail := by
  constructor
  · intro h
    have hsuffix : ¬AWSSuffix region := by
      rintro ⟨front, d, c, rfl, hd, hc⟩
      rw [region_letter front hd hc] at h
      simp at h
    refine ⟨hsuffix, fun hdash => ?_⟩
    obtain ⟨c, tail, rfl⟩ := List.exists_cons_of_ne_nil hregion
    obtain ⟨front, rest, rfl, hrest⟩ := exists_last_dash hdash
    have hregion' := region_dash (show ¬AWSSuffix ((c :: front) ++ '-' :: rest) from hsuffix) hrest
    rw [if_neg (List.cons_ne_nil c front), List.cons_append, h] at hregion'
    simp at hregion'
  · rintro ⟨hsuffix, htail⟩
    by_cases hdash : '-' ∈ region
    · obtain ⟨front, rest, rfl, hrest⟩ := exists_last_dash hdash
      have hfront : front = [] := by
        by_contra hne
        obtain ⟨c, front, rfl⟩ := List.exists_cons_of_ne_nil hne
        exact htail (List.mem_append_right front List.mem_cons_self)
      rw [region_dash hsuffix hrest, if_pos hfront, hfront]
      rfl
    · exact region_no_dash hsuffix hdash

end Classifier

theorem ofList_eq_iff {cs : List Char} {s : String} : String.ofList cs = s ↔ cs = s.toList := by
  rw [← String.toList_inj, String.toList_ofList]

/-- A bare region is left alone exactly if it is not spelled like a zone. -/
theorem regionFromZone_bare_iff {region : String} (hregion : region ≠ "") :
    regionFromZone region = region ↔
      ¬Classifier.AWSSuffix region.toList ∧ '-' ∉ region.toList.tail := by
  rw [Classifier.regionFromZone_eq, ofList_eq_iff,
    Classifier.region_eq_self_iff (mt String.toList_eq_nil_iff.mp hregion)]

/-- A letter behind a digit is taken off exactly if it is a small one. -/
theorem regionFromZone_letter_iff {region : String} {letter : Char} (hdash : '-' ≠ letter)
    {front : List Char} {d : Char} (hsplit : region.toList = front ++ [d])
    (hd : d.isDigit = true) :
    regionFromZone (region.push letter) = region ↔ 'a' ≤ letter ∧ letter ≤ 'z' := by
  have hpush : (region.push letter).toList = front ++ [d, letter] := by
    rw [String.toList_push, hsplit, List.append_assoc, List.singleton_append]
  rw [Classifier.regionFromZone_eq, ofList_eq_iff, hpush, hsplit]
  constructor
  · intro h
    by_contra hlower
    have hsuffix := Classifier.not_awsSuffix_of_last (front ++ [d]) hlower
    rw [List.append_assoc, List.singleton_append] at hsuffix
    exact Classifier.region_ne_drop hsuffix hdash h
  · exact Classifier.region_letter front hd

theorem regionFromZone_dash_letter {region : String} (hregion : region ≠ "") {letter : Char}
    (hdash : '-' ≠ letter) : regionFromZone (region ++ "-" ++ letter.toString) = region := by
  have hzone : (region ++ "-" ++ letter.toString).toList = region.toList ++ ['-', letter] := by
    simp
  rw [Classifier.regionFromZone_eq, ofList_eq_iff, hzone]
  exact Classifier.region_dash_letter (mt String.toList_eq_nil_iff.mp hregion) hdash

theorem regionFromZone_dash_ordinal {region ordinal : String} (hregion : region ≠ "")
    (hordinal : ordinal ≠ "") (hdigits : ordinal.toList.all Char.isDigit = true) :
    regionFromZone (region ++ "-" ++ ordinal) = region := by
  have hzone : (region ++ "-" ++ ordinal).toList = region.toList ++ '-' :: ordinal.toList := by
    simp
  rw [Classifier.regionFromZone_eq, ofList_eq_iff, hzone]
  exact Classifier.region_dash_ordinal (mt String.toList_eq_nil_iff.mp hregion)
    (mt String.toList_eq_nil_iff.mp hordinal) (List.all_eq_true.mp hdigits)

/-- An ordinal that was qualified gives the region back. -/
theorem regionFromZone_qualified {region ordinal : String} (hregion : region ≠ "")
    (hordinal : ordinal ≠ "") (hdigits : ordinal.toList.all Char.isDigit = true) :
    regionFromZone (qualifyAzureZone region ordinal) = region := by
  rw [qualifyAzureZone, if_neg hordinal, if_neg (not_not_intro hdigits), if_neg hregion]
  exact regionFromZone_dash_ordinal hregion hordinal hdigits

/-- **Regions are right**, for a region, a zone letter and a zone ordinal, exactly if the
letter is a small one where it follows a digit, and the region is no zone name itself: it
neither ends in a digit and a small letter nor has a dash inside. -/
theorem regions_correct_iff {region ordinal : String} {letter : Char} (hregion : region ≠ "")
    (hletter : letter.isAlpha = true) (hordinal : ordinal ≠ "")
    (hdigits : ordinal.toList.all Char.isDigit = true) :
    RegionsCorrect region letter ordinal ↔
      ((∃ front d, region.toList = front ++ [d] ∧ d.isDigit = true) →
          'a' ≤ letter ∧ letter ≤ 'z') ∧
        ¬Classifier.AWSSuffix region.toList ∧ '-' ∉ region.toList.tail := by
  have hdash : '-' ≠ letter := by
    rintro rfl
    exact absurd hletter (by decide)
  have hbare := regionFromZone_bare_iff hregion
  constructor
  · intro h
    refine ⟨?_, hbare.mp h.bare⟩
    rintro ⟨front, d, hsplit, hd⟩
    exact (regionFromZone_letter_iff hdash hsplit hd).mp (h.aws ⟨front, d, hsplit, hd⟩)
  · rintro ⟨hlower, hself⟩
    refine ⟨?_, regionFromZone_dash_letter hregion hdash,
      regionFromZone_dash_ordinal hregion hordinal hdigits,
      regionFromZone_qualified hregion hordinal hdigits, hbare.mpr hself, ?_⟩
    · rintro ⟨front, d, hsplit, hd⟩
      exact (regionFromZone_letter_iff hdash hsplit hd).mpr (hlower ⟨front, d, hsplit, hd⟩)
    · rintro zone rfl
      exact hbare.mpr hself

/-- Azure's regions have no dash. -/
theorem regions_correct_eastus : RegionsCorrect "eastus" 'a' "1" := by
  refine (regions_correct_iff (by decide) (by decide) (by decide) (by decide)).mpr
    ⟨fun _ => by decide, ?_, by decide⟩
  rintro ⟨front, d, c, h, hd, -⟩
  have hsplit : "east".toList ++ ['u', 's'] = front ++ [d, c] := h
  cases (List.append_inj' hsplit rfl).2
  exact absurd hd (by decide)

/-- A bare region of AWS is taken for a zone of Azure. -/
theorem bare_region_truncated :
    regionFromZone "us-east-1" = "us-east" ∧ ¬RegionsCorrect "us-east-1" 'a' "1" := by
  have hbare : regionFromZone "us-east-1" = "us-east" := by decide +kernel
  refine ⟨hbare, fun h => ?_⟩
  exact absurd (hbare.symm.trans h.bare) (by decide)
