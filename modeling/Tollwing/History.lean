/-
Values in force after a history of events.

A component that is configured by events holds, for each thing it can be told,
the value of the last event that set it.  The two readings of a history used
here are stated on the event list itself and never mention a state:

* `lastValue` — what the most recent setting event said;
* `sinceReset` — the list a most recent reset installed, followed by what later
  events appended.

`foldl_lastValue` and `foldl_sinceReset` are the rules that connect them to a
state machine: a field that each step sets or keeps holds the last value, and
what each step resets or extends is the list in force.

`Along` states that every step of a run meets a condition on the state it finds;
`along_iff` and `along_iff_of_domain` compare two such conditions, and
`forall_take_iff` one with a property that is kept at every point of the run.

`collect` and `countAlong` are what the steps of a run give and how many of them meet a
condition; `foldl_collect` and `foldl_countAlong` connect them to what a state keeps, and
`exists_of_collect` goes back to the step that gave an item.
-/
import Mathlib.Algebra.Group.Basic
import Mathlib.Data.List.Induction
import Mathlib.Tactic.Common

namespace History

variable {σ κ ν : Type*}

/-- What the most recent event with a setting says, `d` when there is none. -/
def lastValue (setting : κ → Option ν) (d : ν) (h : List κ) : ν :=
  (h.reverse.findSome? setting).getD d

/-- The list of the most recent reset, followed by what each later event adds. -/
def sinceReset (reset : κ → Option (List ν)) (added : κ → List ν) (h : List κ) : List ν :=
  lastValue reset [] h ++ (h.reverse.takeWhile fun x => (reset x).isNone).reverse.flatMap added

section
variable {setting : κ → Option ν}

theorem lastValue_concat (d : ν) (h : List κ) (x : κ) :
    lastValue setting d (h ++ [x]) = (setting x).getD (lastValue setting d h) := by
  rw [lastValue, List.reverse_concat, List.findSome?_cons]
  cases hx : setting x with
  | none => rfl
  | some v => rfl

/-- What comes before a history is the value that it starts from. -/
theorem lastValue_append (d : ν) (h h' : List κ) :
    lastValue setting d (h ++ h') = lastValue setting (lastValue setting d h) h' := by
  induction h' using List.reverseRecOn with
  | nil => rw [List.append_nil]; rfl
  | append_singleton h' x ih =>
    rw [← List.append_assoc, lastValue_concat, lastValue_concat, ih]

theorem lastValue_of_unset {d : ν} {h : List κ} (hunset : ∀ x ∈ h, setting x = none) :
    lastValue setting d h = d := by
  have hnone : h.reverse.findSome? setting = none :=
    List.findSome?_eq_none_iff.mpr fun x hx => hunset x (List.mem_reverse.mp hx)
  rw [lastValue, hnone, Option.getD_none]

/-- The value, if all that is set is set to it. -/
theorem lastValue_of_mem {d v : ν} {h : List κ} {x : κ} (hx : x ∈ h) (hv : setting x = some v)
    (hall : ∀ y ∈ h, ∀ w, setting y = some w → w = v) : lastValue setting d h = v := by
  rw [lastValue]
  cases hfound : h.reverse.findSome? setting with
  | none =>
    have hnone := List.findSome?_eq_none_iff.mp hfound x (List.mem_reverse.mpr hx)
    exact absurd (hv.symm.trans hnone) (Option.some_ne_none v)
  | some w =>
    obtain ⟨y, hy, hw⟩ := List.exists_of_findSome?_eq_some hfound
    exact hall y (List.mem_reverse.mp hy) w hw

/-- The value that the last setting of a history gives. -/
theorem lastValue_of_last {d v : ν} {h h' : List κ} {x : κ} (hx : setting x = some v)
    (hunset : ∀ y ∈ h', setting y = none) : lastValue setting d (h ++ x :: h') = v := by
  rw [List.append_cons, lastValue_append, lastValue_of_unset hunset, lastValue_concat, hx,
    Option.getD_some]

/-- The last setting of a history, if its value is not the one it started from. -/
theorem exists_last_setting {d v : ν} {h : List κ} (hv : lastValue setting d h = v)
    (hne : v ≠ d) : ∃ h₁ x h₂, h = h₁ ++ x :: h₂ ∧ setting x = some v ∧
      ∀ y ∈ h₂, setting y = none := by
  induction h using List.reverseRecOn with
  | nil => exact absurd hv.symm hne
  | append_singleton h x ih =>
    rw [lastValue_concat] at hv
    cases hx : setting x with
    | some w =>
      rw [hx] at hv
      exact ⟨h, x, [], rfl, hx.trans (congrArg some hv), fun y hy => absurd hy List.not_mem_nil⟩
    | none =>
      rw [hx] at hv
      obtain ⟨h₁, y, h₂, rfl, hy, hunset⟩ := ih hv
      refine ⟨h₁, y, h₂ ++ [x], List.append_assoc _ _ _, hy, fun z hz => ?_⟩
      rcases List.mem_append.mp hz with hz | hz
      · exact hunset z hz
      · rwa [List.mem_singleton.mp hz]

/-- A field that every step either sets or keeps holds the last value set. -/
theorem foldl_lastValue {β : Type*} (field : σ → β) (g : ν → β) {step : σ → κ → σ}
    (hstep : ∀ s x, field (step s x) = (setting x).elim (field s) g)
    {s : σ} {d : ν} (hs : field s = g d) (h : List κ) :
    field (h.foldl step s) = g (lastValue setting d h) := by
  induction h using List.reverseRecOn with
  | nil => exact hs
  | append_singleton h x ih =>
    rw [List.foldl_append, List.foldl_cons, List.foldl_nil, lastValue_concat, hstep, ih]
    cases setting x <;> rfl

end

section
variable {reset : κ → Option (List ν)} {added : κ → List ν}

theorem sinceReset_concat_reset {h : List κ} {x : κ} {l : List ν} (hx : reset x = some l) :
    sinceReset reset added (h ++ [x]) = l := by
  rw [sinceReset, lastValue_concat, hx, List.reverse_concat,
    List.takeWhile_cons_of_neg (by simp [hx])]
  simp

theorem sinceReset_concat_added {h : List κ} {x : κ} (hx : reset x = none) :
    sinceReset reset added (h ++ [x]) = sinceReset reset added h ++ added x := by
  rw [sinceReset, lastValue_concat, hx, List.reverse_concat,
    List.takeWhile_cons_of_pos (by simp [hx])]
  simp [sinceReset]

theorem sinceReset_of_unset {h : List κ} (hunset : ∀ x ∈ h, reset x = none ∧ added x = []) :
    sinceReset reset added h = [] := by
  rw [sinceReset, lastValue_of_unset fun x hx => (hunset x hx).1, List.nil_append,
    List.flatMap_eq_nil_iff]
  intro x hx
  exact (hunset x (List.mem_reverse.mp ((List.takeWhile_sublist _).subset
    (List.mem_reverse.mp hx)))).2

/-- A state that every step either resets or extends, as far as `R` can
tell, holds the list in force. -/
theorem foldl_sinceReset {step : σ → κ → σ} {R : σ → List ν → Prop}
    (hreset : ∀ s x l, reset x = some l → R (step s x) l)
    (hadded : ∀ s x l, reset x = none → R s l → R (step s x) (l ++ added x))
    {s : σ} (hs : R s []) (h : List κ) :
    R (h.foldl step s) (sinceReset reset added h) := by
  induction h using List.reverseRecOn with
  | nil => exact hs
  | append_singleton h x ih =>
    rw [List.foldl_append, List.foldl_cons, List.foldl_nil]
    cases hx : reset x with
    | some l =>
      rw [sinceReset_concat_reset hx]
      exact hreset _ x l hx
    | none =>
      rw [sinceReset_concat_added hx]
      exact hadded _ x _ hx ih

end

/-! ### Conditions along a run -/

/-- Every event of the run finds a state that meets the condition. -/
def Along (step : σ → κ → σ) (P : σ → κ → Prop) : σ → List κ → Prop
  | _, [] => True
  | s, x :: h => P s x ∧ Along step P (step s x) h

instance decidableAlong (step : σ → κ → σ) (P : σ → κ → Prop) [∀ s x, Decidable (P s x)] :
    ∀ s h, Decidable (Along step P s h)
  | _, [] => inferInstanceAs (Decidable True)
  | s, x :: h =>
    have := decidableAlong step P (step s x) h
    inferInstanceAs (Decidable (P s x ∧ Along step P (step s x) h))

/-- A run meets a condition if its first part does and its second part does from
where the first ends. -/
theorem along_append {step : σ → κ → σ} {P : σ → κ → Prop} {s : σ} {h h' : List κ} :
    Along step P s (h ++ h') ↔ Along step P s h ∧ Along step P (h.foldl step s) h' := by
  induction h generalizing s with
  | nil => exact ⟨fun h => ⟨trivial, h⟩, fun h => h.2⟩
  | cons x h ih => exact (and_congr_right' ih).trans and_assoc.symm

/-- A run meets a conjunction if it meets both conditions. -/
theorem along_and {step : σ → κ → σ} {P Q : σ → κ → Prop} {s : σ} {h : List κ}
    (hp : Along step P s h) (hq : Along step Q s h) :
    Along step (fun s x => P s x ∧ Q s x) s h := by
  induction h generalizing s with
  | nil => trivial
  | cons x h ih => exact ⟨⟨hp.1, hq.1⟩, ih hp.2 hq.2⟩

/-- What every step with the condition keeps holds at the end of the run. -/
theorem Along.foldl {step : σ → κ → σ} {Inv : σ → Prop} {P : σ → κ → Prop}
    (hstep : ∀ s x, Inv s → P s x → Inv (step s x)) {s : σ} {h : List κ}
    (hp : Along step P s h) (hs : Inv s) : Inv (h.foldl step s) := by
  induction h generalizing s with
  | nil => exact hs
  | cons x h ih => exact ih hp.2 (hstep s x hs hp.1)

/-- The condition is that of each step at its place. -/
theorem along_iff_split {step : σ → κ → σ} {P : σ → κ → Prop} {s : σ} {h : List κ} :
    Along step P s h ↔ ∀ h₁ x h₂, h = h₁ ++ x :: h₂ → P (h₁.foldl step s) x := by
  constructor
  · rintro hp h₁ x h₂ rfl
    exact (along_append.mp hp).2.1
  · intro hsplit
    induction h generalizing s with
    | nil => trivial
    | cons x h ih =>
      refine ⟨hsplit [] x h rfl, ih fun h₁ y h₂ heq => ?_⟩
      exact hsplit (x :: h₁) y h₂ (congrArg (x :: ·) heq)

/-- A weaker condition. -/
theorem Along.imp {step : σ → κ → σ} {P Q : σ → κ → Prop} (himp : ∀ s x, P s x → Q s x) {s : σ}
    {h : List κ} (hp : Along step P s h) : Along step Q s h := by
  induction h generalizing s with
  | nil => trivial
  | cons x h ih => exact ⟨himp s x hp.1, ih hp.2⟩

/-- A condition on the events alone. -/
theorem along_of_forall_mem {step : σ → κ → σ} {D : κ → Prop} {s : σ} {h : List κ}
    (hd : ∀ x ∈ h, D x) : Along step (fun _ => D) s h := by
  induction h generalizing s with
  | nil => trivial
  | cons x h ih =>
    obtain ⟨hx, hrest⟩ := List.forall_mem_cons.mp hd
    exact ⟨hx, ih hrest⟩

/-- Two conditions hold along the same runs of a domain if they agree in it
wherever the invariant holds that it preserves. -/
theorem along_iff_of_domain {step : σ → κ → σ} {Inv : σ → Prop} {D P Q : σ → κ → Prop}
    (hstep : ∀ s x, Inv s → D s x → Inv (step s x))
    (hiff : ∀ s x, Inv s → D s x → (P s x ↔ Q s x)) {s : σ} (hs : Inv s) {h : List κ}
    (hdomain : Along step D s h) : Along step P s h ↔ Along step Q s h := by
  induction h generalizing s with
  | nil => exact Iff.rfl
  | cons x h ih =>
    obtain ⟨hx, hrest⟩ := hdomain
    exact and_congr (hiff s x hs hx) (ih (hstep s x hs hx) hrest)

/-- Two conditions hold along the same runs if they agree wherever the invariant
holds that they preserve. -/
theorem along_iff {step : σ → κ → σ} {Inv : σ → Prop} {P Q : σ → κ → Prop}
    (hstep : ∀ s x, Inv s → P s x → Inv (step s x)) (hiff : ∀ s x, Inv s → (P s x ↔ Q s x))
    {s : σ} (hs : Inv s) (h : List κ) : Along step P s h ↔ Along step Q s h := by
  induction h generalizing s with
  | nil => exact Iff.rfl
  | cons x h ih =>
    constructor
    · exact fun ⟨hx, hrest⟩ => ⟨(hiff s x hs).mp hx, (ih (hstep s x hs hx)).mp hrest⟩
    · rintro ⟨hx, hrest⟩
      have hp := (hiff s x hs).mpr hx
      exact ⟨hp, (ih (hstep s x hs hp)).mpr hrest⟩

/-- A property is kept at every point of a run exactly if every step meets the
condition under which one step keeps it.  `account` is carried beside the state. -/
theorem forall_take_iff {γ : Type*} {step : σ → κ → σ} {account : γ → κ → γ}
    {P : σ → γ → Prop} {D Q : σ → κ → Prop}
    (hiff : ∀ s g x, P s g → D s x → (P (step s x) (account g x) ↔ Q s x)) {s : σ} {g : γ}
    (hs : P s g) {h : List κ} (hdomain : Along step D s h) :
    (∀ m, P ((h.take m).foldl step s) ((h.take m).foldl account g)) ↔ Along step Q s h := by
  induction h generalizing s g with
  | nil => exact ⟨fun _ => trivial, fun _ m => by rwa [List.take_nil]⟩
  | cons x h ih =>
    obtain ⟨hx, hrest⟩ := hdomain
    constructor
    · intro hkept
      have hnext : P (step s x) (account g x) := hkept 1
      refine ⟨(hiff s g x hs hx).mp hnext, (ih hnext hrest).mp ?_⟩
      intro m
      exact hkept (m + 1)
    · rintro ⟨hq, hqs⟩ m
      have hnext := (hiff s g x hs hx).mpr hq
      cases m with
      | zero => exact hs
      | succ m => exact (ih hnext hrest).mpr hqs m

/-- The same of a property of the state alone. -/
theorem forall_take_iff_of_state {step : σ → κ → σ} {P : σ → Prop} {Q : σ → κ → Prop}
    (hiff : ∀ s x, P s → (P (step s x) ↔ Q s x)) {s : σ} (hs : P s) (h : List κ) :
    (∀ m, P ((h.take m).foldl step s)) ↔ Along step Q s h := by
  have htrue : Along step (fun _ _ => True) s h := along_of_forall_mem fun _ _ => trivial
  let account : Unit → κ → Unit := fun u _ => u
  have hone : ∀ s (u : Unit) x, P s → True → (P (step s x) ↔ Q s x) := fun s _ x h _ => hiff s x h
  exact @forall_take_iff _ _ _ step account (fun s _ => P s) _ _ hone s () hs h htrue

/-- What holds after a run and did not before it came about at some step, and has held
since. -/
theorem exists_since {step : σ → κ → σ} {P : σ → Prop} {s : σ} {h : List κ} (hs : ¬P s)
    (hend : P (h.foldl step s)) :
    ∃ h₁ x h₂, h = h₁ ++ x :: h₂ ∧ ¬P (h₁.foldl step s) ∧
      ∀ h₃, h₃ <+: h₂ → P ((h₁ ++ x :: h₃).foldl step s) := by
  induction h using List.reverseRecOn with
  | nil => exact absurd hend hs
  | append_singleton h x ih =>
    by_cases hbefore : P (h.foldl step s)
    · obtain ⟨h₁, y, h₂, rfl, hnot, hsince⟩ := ih hbefore
      refine ⟨h₁, y, h₂ ++ [x], List.append_assoc _ _ _, hnot, fun h₃ hprefix => ?_⟩
      rcases List.prefix_concat_iff.mp hprefix with rfl | hprefix
      · rwa [List.append_assoc] at hend
      · exact hsince h₃ hprefix
    · refine ⟨h, x, [], rfl, hbefore, fun h₃ hprefix => ?_⟩
      rwa [List.prefix_nil.mp hprefix]

/-! ### What the steps of a run give -/

/-- What the steps of a run give, in their order. -/
def collect (step : σ → κ → σ) (f : σ → κ → List ν) : σ → List κ → List ν
  | _, [] => []
  | s, x :: h => f s x ++ collect step f (step s x) h

/-- The number of steps that meet a condition on the state they find. -/
def countAlong (step : σ → κ → σ) (p : σ → κ → Bool) : σ → List κ → ℕ
  | _, [] => 0
  | s, x :: h => (if p s x then 1 else 0) + countAlong step p (step s x) h

theorem countAlong_append (step : σ → κ → σ) (p : σ → κ → Bool) (s : σ) (h h' : List κ) :
    countAlong step p s (h ++ h')
      = countAlong step p s h + countAlong step p (h.foldl step s) h' := by
  induction h generalizing s with
  | nil => exact (Nat.zero_add _).symm
  | cons x h ih => rw [List.cons_append, countAlong, ih, countAlong, Nat.add_assoc, List.foldl_cons]

/-- Where steps give one item at most, each item of a run is what one step gave. -/
theorem exists_of_collect {step : σ → κ → σ} {f : σ → κ → List ν}
    (hone : ∀ s x, (f s x).length ≤ 1) {s : σ} {h : List κ} {l l' : List ν} {v : ν}
    (hv : collect step f s h = l ++ v :: l') :
    ∃ h₁ x h₂, h = h₁ ++ x :: h₂ ∧ collect step f s h₁ = l ∧ f (h₁.foldl step s) x = [v] := by
  induction h generalizing s l with
  | nil => exact absurd hv (by simp [collect])
  | cons x h ih =>
    rw [collect] at hv
    rcases hgiven : f s x with _ | ⟨w, _ | ⟨w', rest⟩⟩
    · rw [hgiven, List.nil_append] at hv
      obtain ⟨h₁, y, h₂, rfl, hbefore, hy⟩ := ih hv
      exact ⟨x :: h₁, y, h₂, rfl, by rw [collect, hgiven, List.nil_append, hbefore], hy⟩
    · rw [hgiven, List.singleton_append] at hv
      cases l with
      | nil =>
        obtain ⟨rfl, -⟩ := List.cons.inj hv
        exact ⟨[], x, h, rfl, rfl, hgiven⟩
      | cons w' l =>
        obtain ⟨rfl, hrest⟩ := List.cons.inj hv
        obtain ⟨h₁, y, h₂, rfl, hbefore, hy⟩ := ih hrest
        exact ⟨x :: h₁, y, h₂, rfl, by rw [collect, hgiven, hbefore, List.singleton_append], hy⟩
    · have := hone s x
      rw [hgiven] at this
      exact absurd this (by simp)

/-- A list that every step extends by what it gives. -/
theorem foldl_collect (π : σ → List ν) {step : σ → κ → σ} {f : σ → κ → List ν}
    (hstep : ∀ s x, π (step s x) = π s ++ f s x) (s : σ) (h : List κ) :
    π (h.foldl step s) = π s ++ collect step f s h := by
  induction h generalizing s with
  | nil => exact (List.append_nil _).symm
  | cons x h ih => rw [List.foldl_cons, ih, hstep, List.append_assoc, collect]

/-- A counter that the steps with a condition count up. -/
theorem foldl_countAlong {M : Type*} [AddMonoid M] (π : σ → M) {step : σ → κ → σ}
    {p : σ → κ → Bool} {one : M} (hstep : ∀ s x, π (step s x) = π s + if p s x then one else 0)
    (s : σ) (h : List κ) : π (h.foldl step s) = π s + countAlong step p s h • one := by
  induction h generalizing s with
  | nil => rw [countAlong, zero_nsmul, add_zero, List.foldl_nil]
  | cons x h ih =>
    have hone : (if p s x then one else 0) = (if p s x then 1 else 0 : ℕ) • one := by
      split_ifs
      · exact (one_nsmul one).symm
      · exact (zero_nsmul one).symm
    rw [List.foldl_cons, ih, hstep, hone, countAlong, add_nsmul, add_assoc]

end History
