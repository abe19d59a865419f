/-
What a dollar is charged over every origin (`pkg/servicegraph/attribution.go`).

Every service is an origin of its own edges, so its cross-zone edges are charged to
it in full, and whoever sends it traffic is charged for them again.

* `ServiceGraph.chargeback_conserves_iff` — an edge's charges over all origins add
  up to its cost exactly if the cost is zero or nobody else sends bytes to the
  edge's source;
* `ServiceGraph.chain_charged_twice` — in a chain of three services the second hop
  is charged twice.
-/
import Mathlib.Algebra.Order.BigOperators.Group.Finset
import Tollwing.GraphTotals
import Tollwing.PathShares

namespace ServiceGraph

/-- The services of the graph. -/
def services (g : ServiceGraph ℚ) : Finset NodeID :=
  g.nodes.keys.filter fun id => id.kind = .kindService

/-- All that a node receives comes from itself. -/
def NoOtherCaller (g : ServiceGraph ℚ) (id : NodeID) : Prop :=
  g.inBytes id = 0 ∨ ∀ d ∈ g.inEdges id, d.bytes ≠ 0 → d.src = id

/-- Whom nobody else sends bytes to answers for its traffic alone. -/
theorem iterate_eq_zero_of_noOtherCaller {g : ServiceGraph ℚ} {id : NodeID} (h : g.NoOtherCaller id)
    {origin : NodeID} (hne : id ≠ origin) (n : ℕ) : g.net.iterate origin n id = 0 := by
  induction n with
  | zero => exact if_neg hne
  | succ n ih =>
    refine (Inflow.step_of_ne hne _).trans ?_
    rw [Inflow.mean, net]
    split_ifs with hcond
    · rfl
    · rw [List.map_map]
      refine List.sum_eq_zero fun x hx => ?_
      obtain ⟨d, hd, rfl⟩ := List.mem_map.mp hx
      rw [Function.comp_apply]
      by_cases hbytes : d.bytes = 0
      · rw [hbytes, UInt64.toNat_zero, Nat.cast_zero, zero_div, zero_mul]
      · have hself : d.src = id :=
          h.resolve_left (fun hzero => hcond (Or.inr hzero)) d hd hbytes
        rw [hself, ih, mul_zero]

/-- Whoever sends a node bytes is charged for it from the first round on. -/
theorem WellFormed.iterate_pos {g : ServiceGraph ℚ} (h : g.WellFormed) {id : NodeID} {d : Edge ℚ}
    (hd : d ∈ g.inEdges id) (hbytes : d.bytes ≠ 0) (hin : g.inBytes id ≠ 0) (hne : d.src ≠ id)
    (n : ℕ) : 0 < g.net.iterate d.src (n + 1) id := by
  refine lt_of_lt_of_le ?_ (g.net_nonneg.iterate_mono d.src id (Nat.le_add_left 1 n))
  have hid : id ∈ g.nodes := by
    obtain ⟨k, hk, hdst⟩ := h.mem_inEdges.mp hd
    rw [← hdst, (h.ends hk).2]
    exact (h.nodes (Finmap.mem_of_lookup_eq_some hk)).2
  have hpos : ∀ {w : UInt64}, w ≠ 0 → (0 : ℚ) < w.toNat := by
    intro w hw
    exact Nat.cast_pos.mpr (Nat.pos_of_ne_zero fun hzero => hw (UInt64.toNat_inj.mp hzero))
  show 0 < g.net.step d.src (g.net.iterate d.src 0) id
  rw [Inflow.step_of_ne (Ne.symm hne)]
  -- its own share is one of the summands
  have hmem : (d.src, (d.bytes.toNat : ℚ) / (g.inBytes id).toNat) ∈ g.net id := by
    rw [net, if_neg (not_or.mpr ⟨not_not_intro hid, hin⟩)]
    exact List.mem_map_of_mem hd
  have hle := g.net_nonneg.le_mean (g.net_nonneg.iterate_nonneg d.src 0) hmem
  rw [Inflow.iterate_origin, mul_one] at hle
  exact lt_of_lt_of_le (div_pos (hpos hbytes) (hpos hin)) hle

theorem responsibility_nonneg (g : ServiceGraph ℚ) (opts : AttributeOpts ℚ) (origin id : NodeID) :
    0 ≤ g.responsibility opts origin id := by
  by_cases horigin : origin ∈ g.nodes
  · obtain ⟨k, -, hresp, -⟩ := g.responsibility_stops opts horigin
    rw [hresp, respAfter_eq]
    exact g.net_nonneg.iterate_nonneg origin _ id
  · rw [responsibility, if_pos horigin]

/-- An origin is charged for its own edges in full. -/
theorem responsibility_self {g : ServiceGraph ℚ} (opts : AttributeOpts ℚ) {origin : NodeID}
    (horigin : origin ∈ g.nodes) : g.responsibility opts origin origin = 1 := by
  obtain ⟨k, -, hresp, -⟩ := g.responsibility_stops opts horigin
  rw [hresp, respAfter_eq, Inflow.iterate_origin]

/-- Over origins that include a node and its callers, the responsibilities for it
add up to one exactly if it has no other caller. -/
theorem WellFormed.sum_responsibility_iff {g : ServiceGraph ℚ} (h : g.WellFormed)
    (opts : AttributeOpts ℚ) {S : Finset NodeID} (hS : ∀ o ∈ S, o ∈ g.nodes) {id : NodeID}
    (hid : id ∈ S) (hcallers : ∀ d ∈ g.inEdges id, d.src ∈ S) :
    ∑ o ∈ S, g.responsibility opts o id = 1 ↔ g.NoOtherCaller id := by
  rw [← Finset.add_sum_erase S _ hid, responsibility_self opts (hS id hid), add_eq_left,
    Finset.sum_eq_zero_iff_of_nonneg fun o _ => g.responsibility_nonneg opts o id]
  constructor
  · intro hzero
    refine or_iff_not_imp_left.mpr fun hin d hd hbytes => ?_
    by_contra hne
    have hcharged := hzero d.src (Finset.mem_erase.mpr ⟨hne, hcallers d hd⟩)
    obtain ⟨k, -, hresp, -⟩ := g.responsibility_stops opts (hS d.src (hcallers d hd))
    rw [hresp, respAfter_eq] at hcharged
    exact (h.iterate_pos hd hbytes hin hne k).ne' hcharged
  · intro hnone o ho
    obtain ⟨hne, hoS⟩ := Finset.mem_erase.mp ho
    obtain ⟨k, -, hresp, -⟩ := g.responsibility_stops opts (hS o hoS)
    rw [hresp, respAfter_eq]
    exact iterate_eq_zero_of_noOtherCaller hnone (Ne.symm hne) _

/-- **When an edge's charges add up to its cost**, over every node as origin and, as
only services send traffic, over every service. -/
theorem chargeback_conserves_iff (rows : List (EdgeRow ℚ)) (opts : AttributeOpts ℚ) {k : EdgeKey}
    {e : Edge ℚ} (he : (build rows).edges.lookup k = some e) :
    (∑ o ∈ (build rows).nodes.keys, edgeUSD ((build rows).responsibility opts o) e
        = e.crossZoneCost
      ↔ e.crossZoneCost = 0 ∨ (build rows).NoOtherCaller e.src) ∧
    ((∀ r ∈ rows, r.src.kind = .kindService) →
      (∑ o ∈ (build rows).services, edgeUSD ((build rows).responsibility opts o) e
          = e.crossZoneCost
        ↔ e.crossZoneCost = 0 ∨ (build rows).NoOtherCaller e.src)) := by
  have hwf := wellFormed_build rows
  -- the source of an edge is the source of some row
  have hsource : ∀ {k' d}, (build rows).edges.lookup k' = some d → ∃ r ∈ rows, r.src = d.src := by
    intro k' d hd
    obtain ⟨r, hr, hkey⟩ := mem_edges_build.mp (Finmap.mem_of_lookup_eq_some hd)
    refine ⟨r, hr, ?_⟩
    rw [(hwf.ends hd).1, ← hkey]
    rfl
  have hnode : ∀ {k' d}, (build rows).edges.lookup k' = some d → d.src ∈ (build rows).nodes := by
    intro k' d hd
    obtain ⟨r, hr, hsrc⟩ := hsource hd
    exact mem_nodes_build.mpr ⟨r, hr, Or.inl hsrc⟩
  have hsum : ∀ S : Finset NodeID, (∀ o ∈ S, o ∈ (build rows).nodes) →
      (∀ {k' d}, (build rows).edges.lookup k' = some d → d.src ∈ S) →
      (∑ o ∈ S, edgeUSD ((build rows).responsibility opts o) e = e.crossZoneCost
        ↔ e.crossZoneCost = 0 ∨ (build rows).NoOtherCaller e.src) := by
    intro S hS hsources
    have hcallers : ∀ d ∈ (build rows).inEdges e.src, d.src ∈ S := by
      intro d hd
      obtain ⟨k', hk', -⟩ := hwf.mem_inEdges.mp hd
      exact hsources hk'
    simp only [edgeUSD_eq]
    rw [← Finset.sum_mul, mul_left_eq_self₀,
      hwf.sum_responsibility_iff opts hS (hsources he) hcallers, or_comm]
  refine ⟨hsum _ (fun o ho => Finmap.mem_keys.mp ho) fun hd => Finmap.mem_keys.mpr (hnode hd),
    fun hkinds => hsum _ (fun o ho => ?_) fun hd => ?_⟩
  · exact Finmap.mem_keys.mp (Finset.mem_filter.mp ho).1
  · obtain ⟨r, hr, hsrc⟩ := hsource hd
    exact Finset.mem_filter.mpr ⟨Finmap.mem_keys.mpr (hnode hd), hsrc ▸ hkinds r hr⟩

/-- A service that calls another, which calls a third. -/
def chainRows : List (EdgeRow ℚ) :=
  [⟨svc "a", svc "b", "", "", "cross_az", 100, 1, 10⟩,
    ⟨svc "b", svc "c", "", "", "cross_az", 100, 1, 7⟩]

theorem chargeback_conserves_chain :
    ∃ e, (build chainRows).edges.lookup ⟨svc "a", svc "b"⟩ = some e ∧
      ∑ o ∈ (build chainRows).services, edgeUSD ((build chainRows).responsibility ⟨0, 0, 0⟩ o) e
        = e.crossZoneCost := by
  have hsome : ((build chainRows).edges.lookup ⟨svc "a", svc "b"⟩).isSome := by decide +kernel
  obtain ⟨e, he⟩ := Option.isSome_iff_exists.mp hsome
  refine ⟨e, he, ((chargeback_conserves_iff chainRows ⟨0, 0, 0⟩ he).2 (by decide)).mpr ?_⟩
  rw [((wellFormed_build chainRows).ends he).1]
  exact Or.inr (Or.inl (by decide +kernel))

/-- The second hop is charged to its own source and to the first service. -/
theorem chain_charged_twice :
    ¬∀ (rows : List (EdgeRow ℚ)) (k : EdgeKey) (e : Edge ℚ), (build rows).edges.lookup k = some e →
      ∑ o ∈ (build rows).services, edgeUSD ((build rows).responsibility ⟨0, 0, 0⟩ o) e
        = e.crossZoneCost := by
  intro h
  have hcharges : ((build chainRows).edges.lookup ⟨svc "b", svc "c"⟩).map (fun e =>
      (∑ o ∈ (build chainRows).services, edgeUSD ((build chainRows).responsibility ⟨0, 0, 0⟩ o) e,
        e.crossZoneCost)) = some (14, 7) := by
    decide +kernel
  obtain ⟨e, he, hpair⟩ := Option.map_eq_some_iff.mp hcharges
  obtain ⟨hsum, hcost⟩ := Prod.mk.inj hpair
  have heq := h chainRows _ e he
  rw [hsum, hcost] at heq
  exact absurd heq (by decide +kernel)

end ServiceGraph
