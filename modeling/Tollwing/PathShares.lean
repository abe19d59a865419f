/-
How far responsibilities reach (`pkg/servicegraph/attribution.go`).

On an acyclic graph a round of `AttributeFrom` adds the shares over paths that are
one edge longer, so the largest change of a round is the largest such share.
The loop gives up after `MaxIterations` rounds or a round whose largest change
is under `Epsilon`.

* `ServiceGraph.Recurrence` — the documented recurrence;
* `ServiceGraph.responsibility_exact_iff` — what `AttributeFrom` charges by solves
  it exactly if the loop gives up on no path;
* `ServiceGraph.early_stop_truncates` — under the default options it gives up on
  all that is behind a share below the threshold.
-/
import Tollwing.Attribution

namespace ServiceGraph

/-- The bytes that enter a node. -/
def inTotal (g : ServiceGraph ℚ) (id : NodeID) : ℕ :=
  ((g.inEdges id).map fun e => e.bytes.toNat).sum

/-- What a node inherits of `r` from its callers, by their share of its inbound
bytes. -/
def inherited (g : ServiceGraph ℚ) (r : NodeID → ℚ) (id : NodeID) : ℚ :=
  ((g.inEdges id).map fun e => (e.bytes.toNat : ℚ) / g.inTotal id * r e.src).sum

/-- The recurrence in the comment of `AttributeFrom`. -/
structure Recurrence (g : ServiceGraph ℚ) (origin : NodeID) (r : NodeID → ℚ) : Prop where
  pinned : r origin = 1
  inbound : ∀ id, id ≠ origin → r id = g.inherited r id

/-- The share of a node's traffic that reaches it over paths of exactly `n` edges
from the origin. -/
def pathShare (g : ServiceGraph ℚ) (origin : NodeID) : ℕ → NodeID → ℚ
  | 0, id => if id = origin then 1 else 0
  | n + 1, id => g.inherited (g.pathShare origin n) id

/-- The largest share over paths of exactly `n` edges. -/
def largestShare (g : ServiceGraph ℚ) (origin : NodeID) (n : ℕ) : ℚ :=
  g.nodes.keys.fold max 0 (g.pathShare origin n)

theorem WellFormed.inherited_eq {g : ServiceGraph ℚ} (h : g.WellFormed) (hover : g.NoOverflow)
    (r : NodeID → ℚ) (id : NodeID) : g.inherited r id = g.net.mean r id := by
  rw [inherited, Inflow.mean, net]
  have htotal : (g.inBytes id).toNat = g.inTotal id := toNat_inBytes hover id
  split_ifs with hcond
  · -- no edge comes in, or none with bytes
    refine List.sum_eq_zero fun x hx => ?_
    obtain ⟨e, he, rfl⟩ := List.mem_map.mp hx
    have hzero : g.inTotal id = 0 := by
      rcases hcond with hid | hzero
      · obtain ⟨k, hk, hdst⟩ := h.mem_inEdges.mp he
        refine absurd ?_ hid
        rw [← hdst, (h.ends hk).2]
        exact (h.nodes (Finmap.mem_of_lookup_eq_some hk)).2
      · rw [← htotal, hzero]
        rfl
    rw [hzero, Nat.cast_zero, div_zero, zero_mul]
  · rw [List.map_map, htotal]
    rfl

theorem WellFormed.pathShare_eq {g : ServiceGraph ℚ} (h : g.WellFormed) (hover : g.NoOverflow)
    (origin : NodeID) (n : ℕ) : g.pathShare origin n = g.net.walk origin n := by
  induction n with
  | zero => rfl
  | succ n ih =>
    funext id
    rw [pathShare, ih, h.inherited_eq hover]
    rfl

/-- A solution is a fixed point of the net. -/
theorem WellFormed.recurrence_iff {g : ServiceGraph ℚ} (h : g.WellFormed) (hover : g.NoOverflow)
    {origin : NodeID} {r : NodeID → ℚ} :
    g.Recurrence origin r ↔ ∀ id, r id = g.net.step origin r id := by
  constructor
  · intro hr id
    by_cases hid : id = origin
    · rw [Inflow.step, if_pos hid, hid, hr.pinned]
    · rw [Inflow.step_of_ne hid, hr.inbound id hid, h.inherited_eq hover]
  · intro hr
    refine ⟨?_, fun id hid => ?_⟩
    · rw [hr origin, Inflow.step, if_pos rfl]
    · rw [hr id, Inflow.step_of_ne hid, h.inherited_eq hover]

/-! ### Where the loop stops -/

/-- The largest change of the round after the `n`-th. -/
def deltaAfter (g : ServiceGraph ℚ) (origin : NodeID) (n : ℕ) : ℚ :=
  g.maxDelta (g.respAfter origin n) (g.respAfter origin (n + 1))

/-- The loop runs a round at least, and no more after the cap is reached or a round
changes little. -/
theorem respLoop_stops (g : ServiceGraph ℚ) (origin : NodeID) (epsilon : ℚ) (n i : ℕ) :
    ∃ k ≤ n,
      g.respLoop origin epsilon (n + 1) (g.respAfter origin i)
        = g.respAfter origin (i + k + 1) ∧
      (k = n ∨ g.deltaAfter origin (i + k) < epsilon) ∧
      ∀ m < k, epsilon ≤ g.deltaAfter origin (i + m) := by
  induction n generalizing i with
  | zero =>
    refine ⟨0, le_rfl, ?_, Or.inl rfl, fun m hm => absurd hm (Nat.not_lt_zero m)⟩
    rw [respLoop]
    split_ifs <;> rfl
  | succ n ih =>
    rw [respLoop]
    split_ifs with hdelta
    · exact ⟨0, Nat.zero_le _, rfl, Or.inr (maxDelta_lt_iff.mpr hdelta), fun m hm => absurd hm (Nat.not_lt_zero m)⟩
    · obtain ⟨k, hk, hloop, hstop, hrun⟩ := ih (i + 1)
      refine ⟨k + 1, by omega, ?_, ?_, fun m hm => ?_⟩
      · rw [show i + (k + 1) + 1 = i + 1 + k + 1 by omega]
        exact hloop
      · rw [show i + (k + 1) = i + 1 + k by omega]
        exact hstop.imp_left (congrArg (· + 1))
      · cases m with
        | zero => exact not_lt.mp (mt maxDelta_lt_iff.mp hdelta)
        | succ m =>
          rw [show i + (m + 1) = i + 1 + m by omega]
          exact hrun m (by omega)

/-- What `AttributeFrom` charges by is the round that the loop stops at. -/
theorem responsibility_stops (g : ServiceGraph ℚ) (opts : AttributeOpts ℚ) {origin : NodeID}
    (horigin : origin ∈ g.nodes) :
    ∃ k : ℕ, (k : ℤ) + 1 ≤ opts.setDefaults.maxIterations ∧
      g.responsibility opts origin = g.respAfter origin (k + 1) ∧
      ((k : ℤ) + 1 = opts.setDefaults.maxIterations ∨
        g.deltaAfter origin k < opts.setDefaults.epsilon) ∧
      ∀ m < k, opts.setDefaults.epsilon ≤ g.deltaAfter origin m := by
  -- the cap is positive, given or by default
  have hpos : 0 < opts.setDefaults.maxIterations := by
    show 0 < if opts.maxIterations ≤ 0 then (100 : ℤ) else opts.maxIterations
    split_ifs <;> omega
  obtain ⟨cap, hcap⟩ : ∃ cap : ℕ, opts.setDefaults.maxIterations.toNat = cap + 1 :=
    ⟨(opts.setDefaults.maxIterations - 1).toNat, by omega⟩
  obtain ⟨k, hk, hloop, hstop, hrun⟩ := g.respLoop_stops origin opts.setDefaults.epsilon cap 0
  simp only [Nat.zero_add] at hloop hstop hrun
  refine ⟨k, by omega, ?_, hstop.imp_left fun heq => by omega, hrun⟩
  rw [responsibility, if_neg (not_not_intro horigin), hcap]
  exact hloop

section
variable {g : ServiceGraph ℚ} (h : g.WellFormed) (hacyc : g.Acyclic) (hover : g.NoOverflow)
include h hacyc hover

/-- A round counts the paths that are no longer than it. -/
theorem WellFormed.respAfter_eq_sum (origin : NodeID) (n : ℕ) (id : NodeID) :
    g.respAfter origin n id = ∑ i ∈ Finset.range (n + 1), g.pathShare origin i id := by
  obtain ⟨rk, hranked, -⟩ := h.exists_ranked hacyc
  rw [respAfter_eq, Inflow.iterate_eq_sum_walk hranked]
  simp only [h.pathShare_eq hover]

omit hacyc in
theorem WellFormed.pathShare_nonneg (origin : NodeID) (n : ℕ) (id : NodeID) :
    0 ≤ g.pathShare origin n id := by
  rw [h.pathShare_eq hover]
  exact Inflow.walk_nonneg (substochastic_net hover).nonneg origin n id

/-- What a round changes are the shares over the longest paths that it counts. -/
theorem WellFormed.deltaAfter_eq (origin : NodeID) (n : ℕ) :
    g.deltaAfter origin n = g.largestShare origin (n + 1) := by
  have hdiff : ∀ id, |g.respAfter origin (n + 1) id - g.respAfter origin n id|
      = g.pathShare origin (n + 1) id := by
    intro id
    rw [h.respAfter_eq_sum hacyc hover, h.respAfter_eq_sum hacyc hover, Finset.sum_range_succ,
      add_sub_cancel_left, abs_of_nonneg (h.pathShare_nonneg hover origin (n + 1) id)]
  rw [deltaAfter, maxDelta, largestShare]
  exact Finset.fold_congr fun id _ => hdiff id

omit hacyc hover in
/-- Nothing reaches what is no node. -/
theorem WellFormed.pathShare_of_notMem {origin id : NodeID} (horigin : origin ∈ g.nodes)
    (hid : id ∉ g.nodes) (n : ℕ) : g.pathShare origin n id = 0 := by
  cases n with
  | zero => exact if_neg fun heq : id = origin => hid (heq ▸ horigin)
  | succ n =>
    refine List.sum_eq_zero fun x hx => ?_
    obtain ⟨e, he, -⟩ := List.mem_map.mp hx
    obtain ⟨k, hk, hdst⟩ := h.mem_inEdges.mp he
    refine absurd ?_ hid
    rw [← hdst, (h.ends hk).2]
    exact (h.nodes (Finmap.mem_of_lookup_eq_some hk)).2

omit hacyc in
theorem WellFormed.largestShare_eq_zero_iff {origin : NodeID} (horigin : origin ∈ g.nodes)
    (n : ℕ) : g.largestShare origin n = 0 ↔ ∀ id, g.pathShare origin n id = 0 := by
  constructor
  · intro hzero id
    by_cases hid : id ∈ g.nodes
    · have hle : g.pathShare origin n id ≤ g.largestShare origin n :=
        (Finset.le_fold_max _).mpr (Or.inr ⟨id, Finmap.mem_keys.mpr hid, le_rfl⟩)
      exact le_antisymm (hzero ▸ hle) (h.pathShare_nonneg hover origin n id)
    · exact h.pathShare_of_notMem horigin hid n
  · intro hzero
    refine le_antisymm ((Finset.fold_max_le 0).mpr ⟨le_rfl, fun id _ => (hzero id).le⟩) ?_
    exact (Finset.le_fold_max 0).mpr (Or.inl le_rfl)

/-- The rounds have settled when there are no longer paths. -/
theorem WellFormed.respAfter_settled_iff {origin : NodeID} (horigin : origin ∈ g.nodes) (n : ℕ) :
    g.respAfter origin n = g.respAfter origin g.nodes.keys.card
      ↔ g.largestShare origin (n + 1) = 0 := by
  rw [h.largestShare_eq_zero_iff hover horigin]
  constructor
  · intro hsettled id
    -- one more round would change nothing
    have hfixed : g.respAfter origin (n + 1) = g.respAfter origin n := by
      refine (congrArg (g.respStep origin) hsettled).trans (Eq.trans ?_ hsettled.symm)
      exact h.respAfter_settled hacyc origin (Nat.le_succ _)
    have hid := congrFun hfixed id
    rw [h.respAfter_eq_sum hacyc hover, h.respAfter_eq_sum hacyc hover,
      Finset.sum_range_succ] at hid
    exact left_eq_add.mp hid.symm
  · intro hzero
    have hfixed : g.respAfter origin (n + 1) = g.respAfter origin n := by
      funext id
      rw [h.respAfter_eq_sum hacyc hover, h.respAfter_eq_sum hacyc hover, Finset.sum_range_succ,
        hzero id, add_zero]
    rw [← respAfter_eq_of_fixed hfixed (le_max_left n g.nodes.keys.card)]
    exact h.respAfter_settled hacyc origin (le_max_right _ _)

end

/-- **How exact the responsibilities are.**  On an acyclic graph the recurrence has
one solution, the shares over all paths.  What `AttributeFrom` charges by is the
solution if and only if no path with bytes on every edge is longer than the cap
and, for every length but that of the longest paths, the largest share over
paths of that length reaches the early-stop threshold. -/
theorem responsibility_exact_iff (rows : List (EdgeRow ℚ)) (opts : AttributeOpts ℚ) (origin : NodeID)
    (horigin : origin ∈ (build rows).nodes) (hacyc : (build rows).Acyclic)
    (hover : (build rows).NoOverflow) :
    ∃ r, (build rows).Recurrence origin r ∧
      (∀ r', (build rows).Recurrence origin r' → r' = r) ∧
      (∀ id, r id = ∑ n ∈ Finset.range ((build rows).nodes.keys.card + 1),
        (build rows).pathShare origin n id) ∧
      ((build rows).responsibility opts origin = r ↔
        ∀ n, (build rows).largestShare origin (n + 1) ≠ 0 →
          ((n + 1 : ℕ) : ℤ) ≤ opts.setDefaults.maxIterations ∧
            (n ≠ 0 → opts.setDefaults.epsilon ≤ (build rows).largestShare origin n)) := by
  have hwf := wellFormed_build rows
  generalize build rows = g at *
  obtain ⟨rk, hranked, hrk⟩ := hwf.exists_ranked hacyc
  have hsettled : g.respAfter origin (g.nodes.keys.card + 1)
      = g.respAfter origin g.nodes.keys.card := hwf.respAfter_settled hacyc origin (Nat.le_succ _)
  refine ⟨g.respAfter origin g.nodes.keys.card, (hwf.recurrence_iff hover).mpr fun id => ?_,
    fun r' hr' => ?_, hwf.respAfter_eq_sum hacyc hover origin _, ?_⟩
  · exact (congrFun hsettled id).symm.trans (respStep_eq g origin _ id)
  · funext id
    rw [respAfter_eq]
    exact Inflow.eq_iterate_of_step hranked ((hwf.recurrence_iff hover).mp hr') (hrk id)
  obtain ⟨k, hk, hresp, hstop, hrun⟩ := g.responsibility_stops opts horigin
  rw [hresp, hwf.respAfter_settled_iff hacyc hover horigin]
  simp only [hwf.deltaAfter_eq hacyc hover] at hstop hrun
  constructor
  · intro hlast n hn
    -- a path of this length is counted, so its round was run
    have hle : n ≤ k := by
      by_contra hlt
      refine hn ((hwf.largestShare_eq_zero_iff hover horigin _).mpr ?_)
      rw [hwf.largestShare_eq_zero_iff hover horigin] at hlast
      rw [hwf.pathShare_eq hover] at hlast ⊢
      exact Inflow.walk_eq_zero_of_le hlast (by omega)
    refine ⟨by omega, fun hne => ?_⟩
    obtain ⟨m, rfl⟩ := Nat.exists_eq_succ_of_ne_zero hne
    exact hrun m (by omega)
  · intro hcond
    by_contra hne
    obtain ⟨hlong, hsmall⟩ := hcond (k + 1) hne
    rcases hstop with hcap | hlt
    · omega
    · exact absurd (hsmall (Nat.succ_ne_zero k)) (not_le.mpr hlt)

theorem responsibility_exact_iff_shared :
    ∃ r, (build sharedRows).Recurrence (svc "s1") r ∧ r (svc "b") = 3 / 4 := by
  have hacyc : (build sharedRows).Acyclic :=
    acyclic_of_lt (fun id => if id = svc "a" then 1 else if id = svc "b" then 2 else 0)
      (by decide +kernel)
  obtain ⟨r, hr, -, hpaths, -⟩ := responsibility_exact_iff sharedRows ⟨0, 0, 0⟩ (svc "s1")
    (by decide +kernel) hacyc ((wellFormed_build sharedRows).noOverflow (by decide +kernel))
  exact ⟨r, hr, (hpaths (svc "b")).trans (by decide +kernel)⟩

/-- A small caller of a busy service that calls another. -/
def smallShareRows : List (EdgeRow ℚ) :=
  [⟨svc "o", svc "a", "", "", "cross_az", 1, 1, 0⟩,
    ⟨svc "r", svc "a", "", "", "cross_az", 10000000000, 1, 0⟩,
    ⟨svc "a", svc "b", "", "", "cross_az", 1, 1, 1⟩]

/-- The first round changes less than the default threshold, so the second, which
would reach `b`, is not run. -/
theorem early_stop_truncates :
    ¬∀ (rows : List (EdgeRow ℚ)) (origin : NodeID), (build rows).Acyclic → (build rows).NoOverflow →
      origin ∈ (build rows).nodes →
      (build rows).Recurrence origin ((build rows).responsibility ⟨0, 0, 0⟩ origin) := by
  intro h
  have hacyc : (build smallShareRows).Acyclic :=
    acyclic_of_lt (fun id => if id = svc "a" then 1 else if id = svc "b" then 2 else 0)
      (by decide +kernel)
  have hr := h smallShareRows (svc "o") hacyc
    ((wellFormed_build smallShareRows).noOverflow (by decide +kernel)) (by decide +kernel)
  exact absurd (hr.inbound (svc "b") (by decide +kernel)) (by decide +kernel)

end ServiceGraph
