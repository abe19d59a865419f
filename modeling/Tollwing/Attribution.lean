/-
Transitive cost attribution (`pkg/servicegraph/attribution.go`).

`AttributeFrom` iterates the responsibility of an origin for every node and
charges each cross-zone edge by the responsibility of its source.  The rounds
are those of an inflow net (`ServiceGraph.respAfter_eq`), as long as the byte
totals of the nodes do not overflow.

* `ServiceGraph.responsibility_eq_settled` — on an acyclic graph neither the
  cap nor the early stop keeps the iteration from settling;
* `ServiceGraph.attribution_conserves` — the originators without inbound bytes
  share out every edge and the total;
* `ServiceGraph.responsibility_bounds` — on every graph the rounds are in [0,1]
  and never decrease, and no origin is charged more than there is.
-/
import Tollwing.Inflow
import Tollwing.KeyedFold
import Tollwing.ServiceGraph
import Mathlib.Algebra.Field.Rat
import Mathlib.Algebra.Order.Ring.Rat

/-- `AttributeOpts`; `topN` bounds the list of contributors only. -/
structure AttributeOpts (κ : Type*) where
  maxIterations : ℤ
  epsilon : κ
  topN : ℤ
  deriving DecidableEq

/-- `setDefaults`. -/
def AttributeOpts.setDefaults {κ : Type*} [Zero κ] [OfScientific κ] [LE κ] [DecidableLE κ]
    (o : AttributeOpts κ) : AttributeOpts κ :=
  { maxIterations := if o.maxIterations ≤ 0 then 100 else o.maxIterations
    epsilon := if o.epsilon ≤ 0 then 1e-9 else o.epsilon
    topN := if o.topN = 0 then 10 else o.topN }

namespace ServiceGraph

/-! ### The iteration -/

/-- The inbound byte total of a node, a wrapping sum. -/
def inBytes {κ : Type*} (g : ServiceGraph κ) (id : NodeID) : UInt64 :=
  ((g.inEdges id).map Edge.bytes).sum

section
variable {κ : Type*} [AddZero κ] [One κ] [Sub κ] [Neg κ] [Mul κ] [Div κ] [NatCast κ]
  [OfScientific κ] [LT κ] [DecidableLT κ] [LE κ] [DecidableLE κ] [BEq κ]

/-- The share that `AttributeFrom` sums over the inbound edges of a node; an edge
without bytes is passed over. -/
def inflowShare (g : ServiceGraph κ) (id : NodeID) (resp : NodeID → κ) : κ :=
  (g.inEdges id).foldl (fun r e =>
    if e.bytes = 0 then r
    else r + (e.bytes.toNat : κ) / ((g.inBytes id).toNat : κ) * resp e.src) 0

/-- One round of the iteration.  What the source's map lacks reads zero. -/
def respStep (g : ServiceGraph κ) (origin : NodeID) (resp : NodeID → κ) (id : NodeID) : κ :=
  if id = origin then 1
  else if id ∉ g.nodes then 0
  else if g.inBytes id = 0 then 0
  else g.inflowShare id resp

/-- `absf`. -/
def absf (v : κ) : κ := if v < 0 then -v else v

/-- `maxDelta`, over the nodes in some order; those that the loop passes over do not change. -/
def maxDeltaIn (order : RangeOrder NodeID) (g : ServiceGraph κ) (resp next : NodeID → κ) : κ :=
  ((order.keys g.nodes.keys).map fun id => absf (next id - resp id)).foldl
    (fun m d => if m < d then d else m) 0

/-- Whether `maxDelta` is below the threshold, which does not depend on the order
(`maxDeltaIn_lt_iff`). -/
def MaxDeltaBelow (g : ServiceGraph κ) (epsilon : κ) (resp next : NodeID → κ) : Prop :=
  0 < epsilon ∧ ∀ id ∈ g.nodes.keys, ¬epsilon ≤ absf (next id - resp id)

instance (g : ServiceGraph κ) (epsilon : κ) (resp next : NodeID → κ) :
    Decidable (g.MaxDeltaBelow epsilon resp next) :=
  inferInstanceAs (Decidable (_ ∧ _))

/-- The loop of `AttributeFrom`, with the rounds left. -/
def respLoop (g : ServiceGraph κ) (origin : NodeID) (epsilon : κ) :
    ℕ → (NodeID → κ) → NodeID → κ
  | 0, resp => resp
  | n + 1, resp =>
    let next := g.respStep origin resp
    if g.MaxDeltaBelow epsilon resp next then next else g.respLoop origin epsilon n next

/-- What the loop starts from. -/
def respStart (origin id : NodeID) : κ := if id = origin then 1 else 0

/-- The responsibility of `origin` for every node that `AttributeFrom` charges by;
an unknown origin is charged nothing. -/
def responsibility (g : ServiceGraph κ) (opts : AttributeOpts κ) (origin : NodeID) : NodeID → κ :=
  if origin ∉ g.nodes then fun _ => 0
  else
    g.respLoop origin opts.setDefaults.epsilon opts.setDefaults.maxIterations.toNat
      (respStart origin)

/-! ### The dollars -/

/-- `attr`: what an edge is charged to the origin, unless it is passed over. -/
def attributed (resp : NodeID → κ) (e : Edge κ) : Option κ :=
  let cz := e.crossZoneCost
  if cz == 0 then none
  else if resp e.src == 0 then none
  else some (resp e.src * cz)

/-- What the loop over the edges adds up of those with a property: `direct` of the origin's
own edges, `induced` of the others. -/
def addCharges (order : RangeOrder EdgeKey) (g : ServiceGraph κ) (resp : NodeID → κ)
    (p : Edge κ → Bool) : κ :=
  KeyedFold.addUp ((g.edges.listed order).filterMap fun e =>
    if p e.2 then attributed resp e.2 else none)

/-- `direct`, before rounding. -/
def directIn (order : RangeOrder EdgeKey) (g : ServiceGraph κ) (opts : AttributeOpts κ)
    (origin : NodeID) : κ :=
  g.addCharges order (g.responsibility opts origin) fun e => e.src = origin

/-- `induced`, before rounding. -/
def inducedIn (order : RangeOrder EdgeKey) (g : ServiceGraph κ) (opts : AttributeOpts κ)
    (origin : NodeID) : κ :=
  g.addCharges order (g.responsibility opts origin) fun e => e.src ≠ origin

/-- What an edge is charged to the origin. -/
def edgeUSD (resp : NodeID → κ) (e : Edge κ) : κ := (attributed resp e).getD 0

end

/-! ### Exact dollars -/

/-- `direct` in exact arithmetic, where the order makes no difference. -/
def directUSD (g : ServiceGraph ℚ) (opts : AttributeOpts ℚ) (origin : NodeID) : ℚ :=
  g.edges.sum fun _ e => if e.src = origin then edgeUSD (g.responsibility opts origin) e else 0

/-- `induced`, likewise: the edges downstream. -/
def inducedUSD (g : ServiceGraph ℚ) (opts : AttributeOpts ℚ) (origin : NodeID) : ℚ :=
  g.edges.sum fun _ e => if e.src = origin then 0 else edgeUSD (g.responsibility opts origin) e

/-- The total charged to the origin, before rounding. -/
def totalUSD (g : ServiceGraph ℚ) (opts : AttributeOpts ℚ) (origin : NodeID) : ℚ :=
  g.directUSD opts origin + g.inducedUSD opts origin

/-- The cross-zone cost of the whole graph. -/
def crossZoneUSD (g : ServiceGraph ℚ) : ℚ := g.edges.sum fun _ e => e.crossZoneCost

/-- `maxDelta` in exact arithmetic: the largest change of a round. -/
def maxDelta (g : ServiceGraph ℚ) (resp next : NodeID → ℚ) : ℚ :=
  g.nodes.keys.fold max 0 fun id => |next id - resp id|

theorem absf_eq (v : ℚ) : absf v = |v| := by
  rw [absf]
  split_ifs with hv
  · exact (abs_of_neg hv).symm
  · exact (abs_of_nonneg (not_lt.mp hv)).symm

theorem maxDelta_lt_iff {g : ServiceGraph ℚ} {epsilon : ℚ} {resp next : NodeID → ℚ} :
    g.maxDelta resp next < epsilon ↔ g.MaxDeltaBelow epsilon resp next := by
  rw [maxDelta, Finset.fold_max_lt, MaxDeltaBelow]
  simp only [absf_eq, not_le]

/-- The code's loop over the edges adds up the exact charges, in any order. -/
theorem addCharges_eq (order : RangeOrder EdgeKey) (g : ServiceGraph ℚ) (resp : NodeID → ℚ)
    (p : Edge ℚ → Bool) :
    g.addCharges order resp p = g.edges.sum fun _ e => if p e then edgeUSD resp e else 0 := by
  have hsum : ∀ l : List (EdgeKey × Edge ℚ),
      (l.filterMap fun e => if p e.2 then attributed resp e.2 else none).sum
        = (l.map fun e => if p e.2 then edgeUSD resp e.2 else 0).sum := by
    intro l
    induction l with
    | nil => rfl
    | cons e l ih =>
      rw [List.filterMap_cons, List.map_cons, List.sum_cons, ← ih, edgeUSD]
      split_ifs
      · cases attributed resp e.2 with
        | none => exact (zero_add _).symm
        | some attr => exact List.sum_cons
      · exact (zero_add _).symm
  rw [addCharges, KeyedFold.addUp_eq_sum, hsum]
  exact g.edges.sum_listed order fun _ e => if p e then edgeUSD resp e else 0

/-- So both totals of `AttributeFrom` are the exact ones. -/
theorem directIn_eq (order : RangeOrder EdgeKey) (g : ServiceGraph ℚ) (opts : AttributeOpts ℚ)
    (origin : NodeID) : g.directIn order opts origin = g.directUSD opts origin := by
  rw [directIn, addCharges_eq, directUSD]
  simp only [decide_eq_true_eq]

theorem inducedIn_eq (order : RangeOrder EdgeKey) (g : ServiceGraph ℚ) (opts : AttributeOpts ℚ)
    (origin : NodeID) : g.inducedIn order opts origin = g.inducedUSD opts origin := by
  rw [inducedIn, addCharges_eq, inducedUSD]
  simp only [decide_eq_true_eq, ite_not]

/-! ### The net of a graph -/

/-- The responsibilities after `n` rounds without an early stop. -/
def respAfter (g : ServiceGraph ℚ) (origin : NodeID) : ℕ → NodeID → ℚ
  | 0 => respStart origin
  | n + 1 => g.respStep origin (g.respAfter origin n)

/-- No node's inbound byte total overflows. -/
def NoOverflow (g : ServiceGraph ℚ) : Prop :=
  ∀ id, ((g.inEdges id).map fun e => e.bytes.toNat).sum < 2 ^ 64

/-- The shares of the inbound edges of a node. -/
def net (g : ServiceGraph ℚ) : Inflow NodeID ℚ := fun id =>
  if id ∉ g.nodes ∨ g.inBytes id = 0 then []
  else (g.inEdges id).map fun e => (e.src, (e.bytes.toNat : ℚ) / (g.inBytes id).toNat)

/-- An edge without bytes adds nothing. -/
theorem inflowShare_eq (g : ServiceGraph ℚ) (id : NodeID) (resp : NodeID → ℚ) :
    g.inflowShare id resp
      = ((g.inEdges id).map fun e => (e.bytes.toNat : ℚ) / (g.inBytes id).toNat * resp e.src).sum := by
  have hfold : ∀ (edges : List (Edge ℚ)) (r : ℚ), edges.foldl (fun r e =>
        if e.bytes = 0 then r
        else r + (e.bytes.toNat : ℚ) / (g.inBytes id).toNat * resp e.src) r
      = r + (edges.map fun e => (e.bytes.toNat : ℚ) / (g.inBytes id).toNat * resp e.src).sum := by
    intro edges
    induction edges with
    | nil => exact fun r => (add_zero r).symm
    | cons e edges ih =>
      intro r
      rw [List.foldl_cons, ih, List.map_cons, List.sum_cons]
      split_ifs with hbytes
      · simp [hbytes]
      · exact add_assoc _ _ _
  exact (hfold _ 0).trans (zero_add _)

theorem respStep_eq (g : ServiceGraph ℚ) (origin : NodeID) (resp : NodeID → ℚ) (id : NodeID) :
    g.respStep origin resp id = g.net.step origin resp id := by
  rw [respStep, Inflow.step]
  by_cases horigin : id = origin
  · rw [if_pos horigin, if_pos horigin]
  rw [if_neg horigin, if_neg horigin, Inflow.mean, net]
  by_cases hid : id ∈ g.nodes
  · rw [if_neg (not_not_intro hid)]
    by_cases hzero : g.inBytes id = 0
    · rw [if_pos hzero, if_pos (Or.inr hzero)]
      rfl
    · rw [if_neg hzero, if_neg (not_or.mpr ⟨not_not_intro hid, hzero⟩), List.map_map,
        inflowShare_eq]
      rfl
  · rw [if_pos hid, if_pos (Or.inl hid)]
    rfl

/-- The rounds are those of the net. -/
theorem respAfter_eq (g : ServiceGraph ℚ) (origin : NodeID) (n : ℕ) :
    g.respAfter origin n = g.net.iterate origin n := by
  induction n with
  | zero => rfl
  | succ n ih =>
    funext id
    rw [respAfter, ih, respStep_eq]
    rfl

/-- Without overflow the inbound total is the sum of the edges' bytes. -/
theorem toNat_inBytes {g : ServiceGraph ℚ} (h : g.NoOverflow) (id : NodeID) :
    (g.inBytes id).toNat = ((g.inEdges id).map fun e => e.bytes.toNat).sum := by
  have hmap : ((g.inEdges id).map Edge.bytes).map UInt64.toNat
      = (g.inEdges id).map fun e => e.bytes.toNat := List.map_map
  rw [inBytes, KeyedFold.toNat_sum _ (by rw [hmap]; exact h id), hmap]

/-- The shares of a node with inbound bytes make up all of it. -/
theorem sum_net {g : ServiceGraph ℚ} (h : g.NoOverflow) {id : NodeID} (hne : g.net id ≠ []) :
    ((g.net id).map Prod.snd).sum = 1 := by
  have hcond : ¬(id ∉ g.nodes ∨ g.inBytes id = 0) := fun hcond => hne (if_pos hcond)
  have hpos : ((g.inBytes id).toNat : ℚ) ≠ 0 := by
    rw [Nat.cast_ne_zero]
    exact fun hzero => hcond (Or.inr (UInt64.toNat_inj.mp hzero))
  -- the shares have one denominator
  have hsum : ∀ edges : List (Edge ℚ),
      ((edges.map fun e => (e.bytes.toNat : ℚ) / (g.inBytes id).toNat)).sum
        = ((edges.map fun e => e.bytes.toNat).sum : ℕ) / (g.inBytes id).toNat := by
    intro edges
    induction edges with
    | nil => simp
    | cons e edges ih =>
      rw [List.map_cons, List.sum_cons, ih, List.map_cons, List.sum_cons, Nat.cast_add, add_div]
  rw [net, if_neg hcond, List.map_map]
  refine (hsum (g.inEdges id)).trans ?_
  rw [← toNat_inBytes h, div_self hpos]

theorem net_nonneg (g : ServiceGraph ℚ) : g.net.Nonneg := by
  intro id e he
  rw [net] at he
  split_ifs at he
  · exact absurd he List.not_mem_nil
  · obtain ⟨e', -, rfl⟩ := List.mem_map.mp he
    exact div_nonneg (Nat.cast_nonneg _) (Nat.cast_nonneg _)

theorem substochastic_net {g : ServiceGraph ℚ} (h : g.NoOverflow) : g.net.Substochastic where
  nonneg := net_nonneg g
  le_one id := by
    by_cases hnil : g.net id = []
    · rw [hnil]
      exact zero_le_one
    · exact (sum_net h hnil).le

/-- Only the nodes of a graph have inbound edges. -/
theorem WellFormed.noOverflow {g : ServiceGraph ℚ} (h : g.WellFormed)
    (hnodes : ∀ id ∈ g.nodes.keys, ((g.inEdges id).map fun e => e.bytes.toNat).sum < 2 ^ 64) :
    g.NoOverflow := by
  intro id
  by_cases hid : id ∈ g.nodes.keys
  · exact hnodes id hid
  · have hnil : g.inEdges id = [] := List.eq_nil_iff_forall_not_mem.mpr fun e he => by
      obtain ⟨k, hk, hdst⟩ := h.mem_inEdges.mp he
      refine hid (Finmap.mem_keys.mpr ?_)
      rw [← hdst, (h.ends hk).2]
      exact (h.nodes (Finmap.mem_of_lookup_eq_some hk)).2
    rw [hnil]
    exact Nat.two_pow_pos 64

/-! ### Bounds on every graph -/

/-- What the loop returns is a round. -/
theorem exists_respLoop (g : ServiceGraph ℚ) (origin : NodeID) (epsilon : ℚ) (n i : ℕ) :
    ∃ k, g.respLoop origin epsilon n (g.respAfter origin i) = g.respAfter origin (i + k) := by
  induction n generalizing i with
  | zero => exact ⟨0, rfl⟩
  | succ n ih =>
    rw [respLoop]
    split_ifs
    · exact ⟨1, rfl⟩
    · obtain ⟨k, hk⟩ := ih (i + 1)
      exact ⟨1 + k, hk.trans (by rw [add_assoc])⟩

/-- Responsibilities stay between zero and one. -/
theorem responsibility_mem_Icc {g : ServiceGraph ℚ} (h : g.NoOverflow) (opts : AttributeOpts ℚ)
    (origin id : NodeID) : g.responsibility opts origin id ∈ Set.Icc 0 1 := by
  rw [responsibility]
  split_ifs with horigin
  · obtain ⟨k, hk⟩ := g.exists_respLoop origin opts.setDefaults.epsilon
      opts.setDefaults.maxIterations.toNat 0
    show g.respLoop origin _ _ (g.respAfter origin 0) id ∈ _
    rw [hk, respAfter_eq]
    exact (substochastic_net h).iterate_mem_Icc origin (0 + k) id
  · exact ⟨le_rfl, zero_le_one⟩

theorem edgeUSD_eq (resp : NodeID → ℚ) (e : Edge ℚ) :
    edgeUSD resp e = resp e.src * e.crossZoneCost := by
  rw [edgeUSD, attributed]
  split_ifs with hcz hresp
  · rw [beq_iff_eq.mp hcz, mul_zero]
    rfl
  · rw [beq_iff_eq.mp hresp, zero_mul]
    rfl
  · rfl

/-- Direct and induced dollars make up every edge. -/
theorem totalUSD_eq (g : ServiceGraph ℚ) (opts : AttributeOpts ℚ) (origin : NodeID) :
    g.totalUSD opts origin
      = g.edges.sum fun _ e => g.responsibility opts origin e.src * e.crossZoneCost := by
  rw [totalUSD, directUSD, inducedUSD, ← FinMap.sum_add]
  refine FinMap.sum_congr fun k e _ => ?_
  rw [← edgeUSD_eq]
  split_ifs
  · exact add_zero _
  · exact zero_add _

/-- **Responsibility bounds**, on every graph. -/
theorem responsibility_bounds (rows : List (EdgeRow ℚ)) (h : (build rows).NoOverflow)
    (origin : NodeID) :
    (∀ n id, (build rows).respAfter origin n id ∈ Set.Icc 0 1) ∧
      (∀ n, (build rows).respAfter origin n origin = 1) ∧
      (∀ n id, (build rows).respAfter origin n id ≤ (build rows).respAfter origin (n + 1) id) ∧
      ((∀ k e, (build rows).edges.lookup k = some e → 0 ≤ e.crossZoneCost) →
        ∀ opts, (build rows).totalUSD opts origin ≤ (build rows).crossZoneUSD) := by
  have hnet := substochastic_net h
  refine ⟨fun n id => ?_, fun n => ?_, fun n id => ?_, fun hcost opts => ?_⟩
  · rw [respAfter_eq]
    exact hnet.iterate_mem_Icc origin n id
  · rw [respAfter_eq, Inflow.iterate_origin]
  · rw [respAfter_eq, respAfter_eq]
    exact Inflow.Nonneg.iterate_le_succ hnet.nonneg origin n id
  · rw [totalUSD_eq, crossZoneUSD]
    refine FinMap.sum_le_sum fun k e he => ?_
    exact mul_le_of_le_one_left (hcost k e he) (responsibility_mem_Icc h opts origin e.src).2

/-- A service of one cluster and namespace. -/
def svc (name : String) : NodeID := ⟨"", "p", name, .kindService⟩

/-- Two services that call each other, one of them also itself. -/
def cyclicRows : List (EdgeRow ℚ) :=
  [⟨svc "a", svc "b", "", "", "cross_az", 100, 1, 10⟩,
    ⟨svc "b", svc "a", "", "", "same_zone", 100, 1, 0⟩,
    ⟨svc "b", svc "b", "", "", "cross_az", 60, 1, 6⟩]

theorem responsibility_bounds_cyclic :
    (∀ n v, (build cyclicRows).respAfter (svc "a") n v ∈ Set.Icc 0 1) ∧
      (build cyclicRows).totalUSD ⟨0, 0, 0⟩ (svc "a") ≤ (build cyclicRows).crossZoneUSD := by
  have hcosts : ∀ k ∈ (build cyclicRows).edges.keys,
      0 ≤ (((build cyclicRows).edges.lookup k).map Edge.crossZoneCost).getD 0 := by
    decide +kernel
  have h := responsibility_bounds cyclicRows
    ((wellFormed_build cyclicRows).noOverflow (by decide +kernel)) (svc "a")
  refine ⟨h.1, h.2.2.2 (fun k e he => ?_) ⟨0, 0, 0⟩⟩
  have hk := hcosts k (FinMap.mem_keys_iff_lookup.mpr (by rw [he]; nofun))
  rwa [he] at hk

/-! ### Acyclic graphs -/

/-- `u` calls `v`. -/
def Adj {κ : Type*} (g : ServiceGraph κ) (u v : NodeID) : Prop := ⟨u, v⟩ ∈ g.edges

/-- No node is downstream of itself, counting edges without bytes. -/
def Acyclic {κ : Type*} (g : ServiceGraph κ) : Prop := ∀ v, ¬Relation.TransGen g.Adj v v

/-- Edges that only lead up make no cycle. -/
theorem acyclic_of_lt {g : ServiceGraph ℚ} (f : NodeID → ℕ)
    (h : ∀ k ∈ g.edges.keys, f k.src < f k.dst) : g.Acyclic := by
  have hlt : ∀ {u v}, Relation.TransGen g.Adj u v → f u < f v := by
    intro u v huv
    induction huv with
    | single hadj => exact h _ (Finmap.mem_keys.mpr hadj)
    | tail _ hadj ih => exact ih.trans (h _ (Finmap.mem_keys.mpr hadj))
  exact fun v hv => absurd (hlt hv) (lt_irrefl _)

/-- The originators: the nodes without inbound bytes. -/
def roots (g : ServiceGraph ℚ) : Finset NodeID := g.nodes.keys.filter fun id => g.inBytes id = 0

/-- Every change of a responsibility within the cap reaches the early-stop
threshold. -/
def ThresholdBelowChanges (g : ServiceGraph ℚ) (opts : AttributeOpts ℚ) (origin : NodeID) : Prop :=
  ∀ n < opts.setDefaults.maxIterations.toNat, ∀ id ∈ g.nodes.keys,
    g.respAfter origin (n + 1) id ≠ g.respAfter origin n id →
      opts.setDefaults.epsilon ≤ |g.respAfter origin (n + 1) id - g.respAfter origin n id|

/-- The sources of a node's net are its callers. -/
theorem WellFormed.adj_of_mem_net {g : ServiceGraph ℚ} (h : g.WellFormed) {id : NodeID}
    {s : NodeID × ℚ} (hs : s ∈ g.net id) : g.Adj s.1 id := by
  rw [net] at hs
  split_ifs at hs
  · exact absurd hs List.not_mem_nil
  · obtain ⟨e, he, rfl⟩ := List.mem_map.mp hs
    obtain ⟨k, hk, hdst⟩ := h.mem_inEdges.mp he
    obtain ⟨hsrc, hdst'⟩ := h.ends hk
    have hkey : k = ⟨e.src, id⟩ := by
      cases k
      rw [← hdst, hsrc, hdst']
    show (⟨e.src, id⟩ : EdgeKey) ∈ g.edges
    rw [← hkey]
    exact Finmap.mem_of_lookup_eq_some hk

/-- The net of an acyclic graph is ranked, by at most the number of nodes. -/
theorem WellFormed.exists_ranked {g : ServiceGraph ℚ} (h : g.WellFormed) (hacyc : g.Acyclic) :
    ∃ rk : NodeID → ℕ, g.net.Ranked rk ∧ ∀ id, rk id ≤ g.nodes.keys.card := by
  obtain ⟨rk, hlt, hle⟩ := Inflow.exists_rank (E := g.Adj) (S := g.nodes.keys)
    (fun hadj => Finmap.mem_keys.mpr (h.nodes hadj).1) hacyc
  exact ⟨rk, fun v s hs => hlt (h.adj_of_mem_net hs), hle⟩

/-- A round that changes nothing by the threshold changes nothing. -/
theorem respAfter_succ_of_maxDelta {g : ServiceGraph ℚ} {opts : AttributeOpts ℚ} {origin : NodeID}
    (hthreshold : g.ThresholdBelowChanges opts origin) {i : ℕ}
    (hi : i < opts.setDefaults.maxIterations.toNat)
    (hdelta : g.maxDelta (g.respAfter origin i) (g.respAfter origin (i + 1))
      < opts.setDefaults.epsilon) :
    g.respAfter origin (i + 1) = g.respAfter origin i := by
  funext id
  by_cases hid : id ∈ g.nodes.keys
  · by_contra hne
    have hle := hthreshold i hi id hid hne
    have hmax := (Finset.le_fold_max (s := g.nodes.keys) (b := (0 : ℚ))
      (f := fun id => |g.respAfter origin (i + 1) id - g.respAfter origin i id|)
      (|g.respAfter origin (i + 1) id - g.respAfter origin i id|)).mpr (Or.inr ⟨id, hid, le_rfl⟩)
    exact absurd (hle.trans hmax) (not_le.mpr hdelta)
  · -- a node the graph does not have never changes
    have hconst : ∀ n, g.respAfter origin n id = respStart origin id := by
      intro n
      cases n with
      | zero => rfl
      | succ n =>
        rw [respAfter, respStep, respStart, if_pos (fun h => hid (Finmap.mem_keys.mpr h))]
    rw [hconst, hconst]

/-- Once the changes are over, the rounds stay the same. -/
theorem respAfter_eq_of_fixed {g : ServiceGraph ℚ} {origin : NodeID} {i : ℕ}
    (h : g.respAfter origin (i + 1) = g.respAfter origin i) {j : ℕ} (hij : i ≤ j) :
    g.respAfter origin j = g.respAfter origin i := by
  induction j, hij using Nat.le_induction with
  | base => rfl
  | succ j _ ih => exact (congrArg (g.respStep origin) ih).trans h

/-- After as many rounds as there are nodes an acyclic graph is settled. -/
theorem WellFormed.respAfter_settled {g : ServiceGraph ℚ} (h : g.WellFormed) (hacyc : g.Acyclic)
    (origin : NodeID) {n : ℕ} (hn : g.nodes.keys.card ≤ n) :
    g.respAfter origin n = g.respAfter origin g.nodes.keys.card := by
  obtain ⟨rk, hranked, hrk⟩ := h.exists_ranked hacyc
  rw [respAfter_eq, respAfter_eq]
  funext id
  exact Inflow.iterate_stable hranked origin ((hrk id).trans hn) (hrk id)

/-- **The iteration settles** on an acyclic graph, when the cap is at least the
number of nodes and the threshold below every change. -/
theorem responsibility_eq_settled {g : ServiceGraph ℚ} (h : g.WellFormed) (hacyc : g.Acyclic)
    {opts : AttributeOpts ℚ} {origin : NodeID} (horigin : origin ∈ g.nodes)
    (hcap : (g.nodes.keys.card : ℤ) ≤ opts.setDefaults.maxIterations)
    (hthreshold : g.ThresholdBelowChanges opts origin) :
    g.responsibility opts origin = g.respAfter origin g.nodes.keys.card := by
  -- from any round, the rounds left lead to the settled values
  have hloop : ∀ n i, i + n = opts.setDefaults.maxIterations.toNat →
      g.respLoop origin opts.setDefaults.epsilon n (g.respAfter origin i)
        = g.respAfter origin g.nodes.keys.card := by
    intro n
    induction n with
    | zero => exact fun i hi => h.respAfter_settled hacyc origin (by omega)
    | succ n ih =>
      intro i hi
      rw [respLoop]
      split_ifs with hdelta
      · have hfixed := respAfter_succ_of_maxDelta hthreshold (by omega) (maxDelta_lt_iff.mpr hdelta)
        have hmax := respAfter_eq_of_fixed hfixed (le_max_left i g.nodes.keys.card)
        rw [h.respAfter_settled hacyc origin (le_max_right _ _)] at hmax
        exact hfixed.trans hmax.symm
      · exact ih (i + 1) (by omega)
  rw [responsibility, if_neg (not_not_intro horigin)]
  exact hloop _ 0 (Nat.zero_add _)

/-- The settled responsibilities of the roots for a node add up to one. -/
theorem WellFormed.sum_respAfter {g : ServiceGraph ℚ} (h : g.WellFormed) (hacyc : g.Acyclic)
    (hover : g.NoOverflow) {id : NodeID} (hid : id ∈ g.nodes) :
    ∑ r ∈ g.roots, g.respAfter r g.nodes.keys.card id = 1 := by
  obtain ⟨rk, hranked, hrk⟩ := h.exists_ranked hacyc
  have hroot : ∀ {v}, v ∈ g.nodes → v ∈ g.roots ∨ g.net v ≠ [] := by
    intro v hv
    by_cases hzero : g.inBytes v = 0
    · exact Or.inl (Finset.mem_filter.mpr ⟨Finmap.mem_keys.mpr hv, hzero⟩)
    · -- inbound bytes come over an edge
      refine Or.inr fun hnil => hzero ?_
      rw [net, if_neg (not_or.mpr ⟨not_not_intro hv, hzero⟩), List.map_eq_nil_iff] at hnil
      rw [inBytes, hnil]
      rfl
  simp only [respAfter_eq]
  refine Inflow.sum_iterate hranked (fun r hr => ?_) (fun v _ hne => sum_net hover hne)
    (fun v s hs => hroot (h.nodes (h.adj_of_mem_net hs)).1) (hrk id) (hroot hid)
  rw [net, if_pos (Or.inr (Finset.mem_filter.mp hr).2)]

/-- So do the responsibilities that `AttributeFrom` charges by. -/
theorem WellFormed.sum_responsibility {g : ServiceGraph ℚ} (h : g.WellFormed) (hacyc : g.Acyclic)
    (hover : g.NoOverflow) {opts : AttributeOpts ℚ}
    (hcap : (g.nodes.keys.card : ℤ) ≤ opts.setDefaults.maxIterations)
    (hthreshold : ∀ r ∈ g.roots, g.ThresholdBelowChanges opts r) {id : NodeID}
    (hid : id ∈ g.nodes) : ∑ r ∈ g.roots, g.responsibility opts r id = 1 := by
  rw [← h.sum_respAfter hacyc hover hid]
  refine Finset.sum_congr rfl fun r hr => ?_
  have hr' : r ∈ g.nodes := Finmap.mem_keys.mp (Finset.mem_filter.mp hr).1
  rw [responsibility_eq_settled h hacyc hr' hcap (hthreshold r hr)]

/-- **Attribution conserves dollars over the originators.**  In an acyclic graph
the roots share out every edge: their responsibilities for its source add up to
one, the dollars charged for it to its cost, and the totals to the total, in whatever order
each attribution adds its edges up. -/
theorem attribution_conserves (rows : List (EdgeRow ℚ)) (opts : AttributeOpts ℚ)
    (hacyc : (build rows).Acyclic) (hover : (build rows).NoOverflow)
    (hcap : ((build rows).nodes.keys.card : ℤ) ≤ opts.setDefaults.maxIterations)
    (hthreshold : ∀ r ∈ (build rows).roots, (build rows).ThresholdBelowChanges opts r) :
    (∀ k e, (build rows).edges.lookup k = some e →
      ∑ r ∈ (build rows).roots, (build rows).responsibility opts r e.src = 1 ∧
        ∑ r ∈ (build rows).roots, edgeUSD ((build rows).responsibility opts r) e
          = e.crossZoneCost) ∧
      ∑ r ∈ (build rows).roots, (build rows).totalUSD opts r = (build rows).crossZoneUSD ∧
      ∀ order r, (build rows).directIn order opts r + (build rows).inducedIn order opts r
        = (build rows).totalUSD opts r := by
  have hwf := wellFormed_build rows
  have hone : ∀ k e, (build rows).edges.lookup k = some e →
      ∑ r ∈ (build rows).roots, (build rows).responsibility opts r e.src = 1 := by
    intro k e he
    have hsrc : e.src ∈ (build rows).nodes := by
      rw [(hwf.ends he).1]
      exact (hwf.nodes (Finmap.mem_of_lookup_eq_some he)).1
    exact hwf.sum_responsibility hacyc hover hcap hthreshold hsrc
  have hedge : ∀ k e, (build rows).edges.lookup k = some e →
      ∑ r ∈ (build rows).roots, (build rows).responsibility opts r e.src * e.crossZoneCost
        = e.crossZoneCost := by
    intro k e he
    rw [← Finset.sum_mul, hone k e he, one_mul]
  refine ⟨fun k e he => ⟨hone k e he, ?_⟩, ?_, fun order r => ?_⟩
  · simp only [edgeUSD_eq]
    exact hedge k e he
  · -- over all roots, then over all edges, or the other way round
    simp only [totalUSD_eq]
    rw [FinMap.finset_sum_sum, crossZoneUSD]
    exact FinMap.sum_congr hedge
  · rw [directIn_eq, inducedIn_eq, totalUSD]

/-- Two originators share a service three to one. -/
def sharedRows : List (EdgeRow ℚ) :=
  [⟨svc "s1", svc "a", "", "", "same_zone", 75, 1, 0⟩,
    ⟨svc "s2", svc "a", "", "", "same_zone", 25, 1, 0⟩,
    ⟨svc "a", svc "b", "", "", "cross_az", 100, 1, 40⟩]

theorem attribution_conserves_shared :
    ∑ r ∈ (build sharedRows).roots, (build sharedRows).totalUSD ⟨4, 0, 0⟩ r = 40 := by
  have hacyc : (build sharedRows).Acyclic :=
    acyclic_of_lt (fun id => if id = svc "a" then 1 else if id = svc "b" then 2 else 0)
      (by decide +kernel)
  have h := attribution_conserves sharedRows ⟨4, 0, 0⟩ hacyc
    ((wellFormed_build sharedRows).noOverflow (by decide +kernel)) (by decide +kernel)
    (by unfold ThresholdBelowChanges; decide +kernel)
  exact h.2.1.trans (by decide +kernel)

end ServiceGraph
