/-
Shares of an inflow.

A net gives, for every vertex, the vertices its inflow comes from with the
share of each.  Starting from an origin pinned at one, `iterate` propagates how
much of every inflow goes back to the origin, in rounds, over any ordered
field.  The shares of one vertex add up to at most one; nothing is assumed of
the shape of the net until the last section.

* `Nonneg.iterate_le_succ`, `Substochastic.iterate_mem_Icc` — on every net, cyclic
  ones included, the rounds never decrease and stay between zero and one;
* `iterate_stable` — where the sources have a lower rank, a vertex is settled
  after as many rounds as its rank;
* `iterate_eq_sum_walk` — a round adds the walks from the origin that are one
  edge longer;
* `eq_iterate_of_step` — the settled values are the only fixed point;
* `sum_iterate` — settled values add up to one over the origins that have no
  inflow themselves.
-/
import Mathlib.Algebra.BigOperators.Ring.Finset
import Mathlib.Algebra.Order.BigOperators.Group.List
import Mathlib.Algebra.Order.Field.Basic
import Mathlib.Data.Finset.Card
import Mathlib.Logic.Relation
import Mathlib.Tactic.Common

/-- The sources of every vertex with their shares. -/
abbrev Inflow (V K : Type*) := V → List (V × K)

namespace Inflow

variable {V K : Type*} [Field K]

/-- The mean of `r` over the sources of `v`. -/
def mean (net : Inflow V K) (r : V → K) (v : V) : K :=
  ((net v).map fun e => e.2 * r e.1).sum

theorem mean_congr {net : Inflow V K} {r r' : V → K} {v : V} (h : ∀ e ∈ net v, r e.1 = r' e.1) :
    net.mean r v = net.mean r' v := by
  rw [mean, mean]
  exact congrArg List.sum (List.map_congr_left fun e he => by rw [h e he])

theorem mean_const (net : Inflow V K) (c : K) (v : V) :
    net.mean (fun _ => c) v = ((net v).map Prod.snd).sum * c := by
  rw [mean]
  induction net v with
  | nil => exact (zero_mul c).symm
  | cons e l ih => rw [List.map_cons, List.sum_cons, ih, List.map_cons, List.sum_cons, add_mul]

/-- The mean is additive over any finite family. -/
theorem sum_mean {ι : Type*} (net : Inflow V K) (s : Finset ι) (r : ι → V → K) (v : V) :
    ∑ i ∈ s, net.mean (r i) v = net.mean (fun u => ∑ i ∈ s, r i u) v := by
  simp only [mean]
  induction net v with
  | nil => exact Finset.sum_const_zero
  | cons e l ih =>
    simp only [List.map_cons, List.sum_cons]
    rw [Finset.sum_add_distrib, ih, Finset.mul_sum]

variable [DecidableEq V]

/-- One round, with the origin pinned at one. -/
def step (net : Inflow V K) (o : V) (r : V → K) (v : V) : K :=
  if v = o then 1 else net.mean r v

/-- The value of every vertex after `n` rounds. -/
def iterate (net : Inflow V K) (o : V) : ℕ → V → K
  | 0, v => if v = o then 1 else 0
  | n + 1, v => net.step o (net.iterate o n) v

theorem step_of_ne {net : Inflow V K} {o v : V} (h : v ≠ o) (r : V → K) :
    net.step o r v = net.mean r v := if_neg h

@[simp] theorem iterate_origin (net : Inflow V K) (o : V) (n : ℕ) : net.iterate o n o = 1 := by
  cases n with
  | zero => exact if_pos rfl
  | succ n => exact if_pos rfl

/-! ### Bounds on every net -/

section
variable [LinearOrder K] [IsStrictOrderedRing K]

/-- Shares are nonnegative. -/
def Nonneg (net : Inflow V K) : Prop := ∀ v, ∀ e ∈ net v, 0 ≤ e.2

namespace Nonneg

variable {net : Inflow V K} (h : net.Nonneg)
include h

omit [DecidableEq V] in
theorem mean_mono {r r' : V → K} (hr : ∀ v, r v ≤ r' v) (v : V) : net.mean r v ≤ net.mean r' v :=
  List.sum_le_sum fun e he => mul_le_mul_of_nonneg_left (hr e.1) (h v e he)

omit [DecidableEq V] in
theorem mean_nonneg {r : V → K} (hr : ∀ v, 0 ≤ r v) (v : V) : 0 ≤ net.mean r v := by
  have hzero := h.mean_mono hr v
  rwa [mean_const, mul_zero] at hzero

omit [DecidableEq V] in
/-- A source gives no more than the mean. -/
theorem le_mean {r : V → K} (hr : ∀ v, 0 ≤ r v) {v : V} {e : V × K} (he : e ∈ net v) :
    e.2 * r e.1 ≤ net.mean r v := by
  refine List.single_le_sum (fun x hx => ?_) _ (List.mem_map_of_mem he)
  obtain ⟨e', he', rfl⟩ := List.mem_map.mp hx
  exact mul_nonneg (h v e' he') (hr e'.1)

theorem step_mono {o : V} {r r' : V → K} (hr : ∀ v, r v ≤ r' v) (v : V) :
    net.step o r v ≤ net.step o r' v := by
  by_cases hv : v = o
  · rw [step, step, if_pos hv, if_pos hv]
  · rw [step_of_ne hv, step_of_ne hv]
    exact h.mean_mono hr v

theorem iterate_nonneg (o : V) (n : ℕ) (v : V) : 0 ≤ net.iterate o n v := by
  induction n generalizing v with
  | zero =>
    show (0 : K) ≤ if v = o then 1 else 0
    split_ifs
    · exact zero_le_one
    · exact le_rfl
  | succ n ih =>
    by_cases hv : v = o
    · rw [hv, iterate_origin]
      exact zero_le_one
    · exact (h.mean_nonneg ih v).trans_eq (step_of_ne hv _).symm

theorem iterate_le_succ (o : V) (n : ℕ) (v : V) : net.iterate o n v ≤ net.iterate o (n + 1) v := by
  induction n generalizing v with
  | zero =>
    by_cases hv : v = o
    · rw [hv, iterate_origin, iterate_origin]
    · exact (if_neg hv).le.trans (h.iterate_nonneg o 1 v)
  | succ n ih => exact h.step_mono ih v

theorem iterate_mono (o : V) (v : V) : Monotone fun n => net.iterate o n v :=
  monotone_nat_of_le_succ fun n => h.iterate_le_succ o n v

end Nonneg

/-- Shares are nonnegative, and those of one vertex make up at most all of it. -/
structure Substochastic (net : Inflow V K) : Prop where
  nonneg : ∀ v, ∀ e ∈ net v, 0 ≤ e.2
  le_one : ∀ v, ((net v).map Prod.snd).sum ≤ 1

namespace Substochastic

variable {net : Inflow V K} (h : net.Substochastic)
include h

theorem step_mem_Icc {o : V} {r : V → K} (hr : ∀ v, r v ∈ Set.Icc 0 1) (v : V) :
    net.step o r v ∈ Set.Icc 0 1 := by
  by_cases hv : v = o
  · rw [step, if_pos hv]
    exact ⟨zero_le_one, le_rfl⟩
  · rw [step_of_ne hv]
    constructor
    · exact Nonneg.mean_nonneg h.nonneg (fun u => (hr u).1) v
    · have hone := Nonneg.mean_mono h.nonneg (fun u => (hr u).2) v
      rw [mean_const, mul_one] at hone
      exact hone.trans (h.le_one v)

theorem iterate_mem_Icc (o : V) (n : ℕ) (v : V) : net.iterate o n v ∈ Set.Icc 0 1 := by
  induction n generalizing v with
  | zero =>
    show (if v = o then (1 : K) else 0) ∈ Set.Icc 0 1
    split_ifs
    · exact ⟨zero_le_one, le_rfl⟩
    · exact ⟨le_rfl, zero_le_one⟩
  | succ n ih => exact h.step_mem_Icc ih v

end Substochastic

end

/-! ### Nets without cycles -/

/-- Every source has a lower rank than what it flows into. -/
def Ranked (net : Inflow V K) (rk : V → ℕ) : Prop := ∀ v, ∀ e ∈ net v, rk e.1 < rk v

omit [DecidableEq V] [Field K] in
/-- A finite relation without cycles has a rank up to the number of vertices: the
number of ancestors. -/
theorem exists_rank {E : V → V → Prop} {S : Finset V} (hS : ∀ {u v}, E u v → u ∈ S)
    (hacyc : ∀ v, ¬Relation.TransGen E v v) :
    ∃ rk : V → ℕ, (∀ {u v}, E u v → rk u < rk v) ∧ ∀ v, rk v ≤ S.card := by
  classical
  refine ⟨fun v => (S.filter fun u => Relation.TransGen E u v).card, fun {u v} huv => ?_,
    fun v => Finset.card_filter_le S _⟩
  refine Finset.card_lt_card ((Finset.ssubset_iff_of_subset ?_).mpr ⟨u, ?_, ?_⟩)
  · intro x hx
    obtain ⟨hxS, hxu⟩ := Finset.mem_filter.mp hx
    exact Finset.mem_filter.mpr ⟨hxS, hxu.tail huv⟩
  · exact Finset.mem_filter.mpr ⟨hS huv, Relation.TransGen.single huv⟩
  · exact fun hu => hacyc u (Finset.mem_filter.mp hu).2

omit [DecidableEq V] [Field K] in
theorem Ranked.eq_nil {net : Inflow V K} {rk : V → ℕ} (h : net.Ranked rk) {v : V}
    (hv : rk v = 0) : net v = [] := by
  refine List.eq_nil_iff_forall_not_mem.mpr fun e he => ?_
  have hlt := h v e he
  omega

/-- A vertex does not change any more after as many rounds as its rank. -/
theorem iterate_succ_of_rank_le {net : Inflow V K} {rk : V → ℕ} (h : net.Ranked rk) (o : V)
    {n : ℕ} {v : V} (hv : rk v ≤ n) : net.iterate o (n + 1) v = net.iterate o n v := by
  induction n generalizing v with
  | zero =>
    by_cases ho : v = o
    · rw [ho, iterate_origin, iterate_origin]
    · show net.step o _ v = if v = o then (1 : K) else 0
      rw [if_neg ho, step_of_ne ho, mean, h.eq_nil (Nat.le_zero.mp hv)]
      rfl
  | succ n ih =>
    by_cases ho : v = o
    · rw [ho, iterate_origin, iterate_origin]
    · show net.step o _ v = net.step o _ v
      rw [step_of_ne ho, step_of_ne ho]
      -- the sources have lower ranks, so they were settled a round before
      refine mean_congr fun e he => ih ?_
      have hlt := h v e he
      omega

/-- So any two later rounds agree on it. -/
theorem iterate_stable {net : Inflow V K} {rk : V → ℕ} (h : net.Ranked rk) (o : V) {n m : ℕ}
    {v : V} (hn : rk v ≤ n) (hm : rk v ≤ m) : net.iterate o n v = net.iterate o m v := by
  have hrank : ∀ {n : ℕ}, rk v ≤ n → net.iterate o n v = net.iterate o (rk v) v := by
    intro n hn
    induction n, hn using Nat.le_induction with
    | base => rfl
    | succ n hn ih => exact (iterate_succ_of_rank_le h o hn).trans ih
  exact (hrank hn).trans (hrank hm).symm

/-- The settled values are the only solution of the recurrence. -/
theorem eq_iterate_of_step {net : Inflow V K} {rk : V → ℕ} (h : net.Ranked rk) {o : V} {r : V → K}
    (hr : ∀ v, r v = net.step o r v) {n : ℕ} {v : V} (hv : rk v ≤ n) :
    r v = net.iterate o n v := by
  induction n generalizing v with
  | zero =>
    rw [hr v]
    show net.step o r v = if v = o then (1 : K) else 0
    by_cases ho : v = o
    · rw [if_pos ho, step, if_pos ho]
    · rw [if_neg ho, step_of_ne ho, mean, h.eq_nil (Nat.le_zero.mp hv)]
      rfl
  | succ n ih =>
    rw [hr v]
    show net.step o r v = net.step o (net.iterate o n) v
    by_cases ho : v = o
    · rw [step, step, if_pos ho, if_pos ho]
    · rw [step_of_ne ho, step_of_ne ho]
      refine mean_congr fun e he => ih ?_
      have hlt := h v e he
      omega

/-- What reaches a vertex from the origin over walks of `n` edges. -/
def walk (net : Inflow V K) (o : V) : ℕ → V → K
  | 0, v => if v = o then 1 else 0
  | n + 1, v => net.mean (net.walk o n) v

omit [DecidableEq V] in
theorem mean_eq_zero {net : Inflow V K} {r : V → K} {v : V} (h : ∀ e ∈ net v, r e.1 = 0) :
    net.mean r v = 0 := by
  rw [show net.mean r v = net.mean (fun _ => 0) v from mean_congr h, mean_const, mul_zero]

/-- A walk gains a rank with every edge. -/
theorem walk_eq_zero_of_rank_lt {net : Inflow V K} {rk : V → ℕ} (h : net.Ranked rk) {o : V} {n : ℕ}
    {v : V} (hv : rk v < rk o + n) : net.walk o n v = 0 := by
  induction n generalizing v with
  | zero =>
    refine if_neg fun heq : v = o => ?_
    rw [heq] at hv
    omega
  | succ n ih =>
    refine mean_eq_zero fun e he => ih ?_
    have hlt := h v e he
    omega

/-- Without walks of one length there are none that are longer. -/
theorem walk_eq_zero_of_le {net : Inflow V K} {o : V} {n m : ℕ} (h : ∀ v, net.walk o n v = 0)
    (hnm : n ≤ m) (v : V) : net.walk o m v = 0 := by
  induction m, hnm using Nat.le_induction generalizing v with
  | base => exact h v
  | succ m _ ih => exact mean_eq_zero fun e _ => ih e.1

/-- **A round counts the walks that are no longer than it.** -/
theorem iterate_eq_sum_walk {net : Inflow V K} {rk : V → ℕ} (h : net.Ranked rk) (o : V) (n : ℕ)
    (v : V) : net.iterate o n v = ∑ i ∈ Finset.range (n + 1), net.walk o i v := by
  induction n generalizing v with
  | zero => exact (Finset.sum_range_one fun i => net.walk o i v).symm
  | succ n ih =>
    rw [Finset.sum_range_succ']
    by_cases ho : v = o
    · -- no walk comes back to the origin
      have hzero : ∀ i ∈ Finset.range (n + 1), net.walk o (i + 1) v = 0 := fun i _ =>
        walk_eq_zero_of_rank_lt h (by rw [ho]; omega)
      rw [Finset.sum_eq_zero hzero, zero_add, ho, iterate_origin]
      exact (if_pos rfl).symm
    · calc net.iterate o (n + 1) v
          = net.mean (net.iterate o n) v := step_of_ne ho _
        _ = net.mean (fun u => ∑ i ∈ Finset.range (n + 1), net.walk o i u) v :=
            mean_congr fun e _ => ih e.1
        _ = ∑ i ∈ Finset.range (n + 1), net.walk o (i + 1) v := (sum_mean net _ _ v).symm
        _ = ∑ i ∈ Finset.range (n + 1), net.walk o (i + 1) v + net.walk o 0 v := by
            rw [show net.walk o 0 v = 0 from if_neg ho, add_zero]

theorem walk_nonneg [LinearOrder K] [IsStrictOrderedRing K] {net : Inflow V K} (h : net.Nonneg)
    (o : V) (n : ℕ) (v : V) : 0 ≤ net.walk o n v := by
  induction n generalizing v with
  | zero =>
    show (0 : K) ≤ if v = o then 1 else 0
    split_ifs
    · exact zero_le_one
    · exact le_rfl
  | succ n ih => exact h.mean_nonneg ih v

/-- **Settled values add up to one** over the origins `R` without inflow, for a
vertex whose inflow goes back to them. -/
theorem sum_iterate {net : Inflow V K} {rk : V → ℕ} (h : net.Ranked rk) {R : Finset V}
    (hR : ∀ o ∈ R, net o = []) (hfull : ∀ v, v ∉ R → net v ≠ [] → ((net v).map Prod.snd).sum = 1)
    (hclosed : ∀ v, ∀ e ∈ net v, e.1 ∈ R ∨ net e.1 ≠ []) {n : ℕ} {v : V} (hn : rk v ≤ n)
    (hv : v ∈ R ∨ net v ≠ []) : ∑ o ∈ R, net.iterate o n v = 1 := by
  induction n generalizing v with
  | zero =>
    -- a vertex of rank zero has no inflow
    have hroot : v ∈ R := hv.resolve_right (not_not_intro (h.eq_nil (Nat.le_zero.mp hn)))
    show ∑ o ∈ R, (if v = o then (1 : K) else 0) = 1
    rw [Finset.sum_ite_eq, if_pos hroot]
  | succ n ih =>
    by_cases hroot : v ∈ R
    · have hone : ∀ o ∈ R, net.iterate o (n + 1) v = if v = o then 1 else 0 := by
        intro o _
        show net.step o _ v = _
        by_cases ho : v = o
        · rw [step, if_pos ho, if_pos ho]
        · rw [step_of_ne ho, if_neg ho, mean, hR v hroot]
          rfl
      rw [Finset.sum_congr rfl hone, Finset.sum_ite_eq, if_pos hroot]
    · have hne : net v ≠ [] := hv.resolve_left hroot
      have hstep : ∀ o ∈ R, net.iterate o (n + 1) v = net.mean (net.iterate o n) v := fun o ho =>
        step_of_ne (fun heq : v = o => hroot (heq ▸ ho)) _
      have hsources : ∀ e ∈ net v, ∑ o ∈ R, net.iterate o n e.1 = 1 := by
        intro e he
        have hlt := h v e he
        exact ih (by omega) (hclosed v e he)
      calc ∑ o ∈ R, net.iterate o (n + 1) v
          = ∑ o ∈ R, net.mean (net.iterate o n) v := Finset.sum_congr rfl hstep
        _ = net.mean (fun u => ∑ o ∈ R, net.iterate o n u) v := sum_mean net R _ v
        _ = net.mean (fun _ => 1) v := mean_congr hsources
        _ = 1 := by rw [mean_const, mul_one, hfull v hroot hne]

end Inflow
