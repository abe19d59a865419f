/-
Cycle detection (`pkg/servicegraph/graph.go`).

`hasCycle` is a coloured search from every node of the graph, in the order in
which the node map is ranged over.  Visits nest at most once a node, which is
what the fuel allows.

* `ServiceGraph.hasCycle_build` — on every graph built from rows the search ends
  and tells whether the graph has a directed cycle.
-/
import Tollwing.ColoredSearch
import Tollwing.Attribution
import Tollwing.GraphTotals

namespace ServiceGraph

variable {κ : Type*}

/-- Where the edges that leave `id` lead, in the order of the list. -/
def targets (g : ServiceGraph κ) (id : NodeID) : List NodeID := (g.outEdges id).map Edge.dst

/-- `hasCycle`; `none` would be a visit nested deeper than there are nodes. -/
def hasCycle (g : ServiceGraph κ) (order : RangeOrder NodeID) : Option Bool :=
  ColoredSearch.search (ColoredSearch.visit g.targets g.nodes.card) (order.keys g.nodes.keys)
    fun _ => .white

/-- The targets of a node are the nodes that it calls. -/
theorem WellFormed.mem_targets {g : ServiceGraph κ} (h : g.WellFormed) {id id' : NodeID} :
    id' ∈ g.targets id ↔ g.Adj id id' := by
  rw [targets, List.mem_map]
  constructor
  · rintro ⟨e, he, rfl⟩
    obtain ⟨k, hk, hlookup⟩ := List.mem_filterMap.mp he
    obtain ⟨hedge, rfl⟩ := h.mem_out.mp hk
    rw [(h.ends hlookup).2]
    exact hedge
  · intro hadj
    obtain ⟨e, he⟩ := Finmap.mem_iff.mp hadj
    have hkey : (⟨id, id'⟩ : EdgeKey) ∈ g.outKeys id := h.mem_out.mpr ⟨hadj, rfl⟩
    exact ⟨e, List.mem_filterMap.mpr ⟨_, hkey, he⟩, (h.ends he).2⟩

/-- **Cycle detection** on a well-formed graph. -/
theorem WellFormed.hasCycle_eq {g : ServiceGraph κ} (h : g.WellFormed)
    (order : RangeOrder NodeID) :
    ∃ b, g.hasCycle order = some b ∧ (b = true ↔ ∃ v, Relation.TransGen g.Adj v v) := by
  have hadj : ColoredSearch.Step g.targets = g.Adj := by
    funext v w
    exact propext h.mem_targets
  have hmem : ∀ {id}, id ∈ g.nodes → id ∈ order.keys g.nodes.keys := fun hid =>
    (order.mem_keys _ _).mpr (Finmap.mem_keys.mpr hid)
  -- every node of the map is ranged over once
  have hlength : (order.keys g.nodes.keys).length ≤ g.nodes.card := by
    rw [← List.toFinset_card_of_nodup (order.nodup _)]
    refine Finset.card_le_card fun id hid => ?_
    exact (order.mem_keys _ _).mp (List.mem_toFinset.mp hid)
  have hends : ∀ v w, w ∈ g.targets v →
      v ∈ order.keys g.nodes.keys ∧ w ∈ order.keys g.nodes.keys := by
    intro v w hw
    obtain ⟨hsrc, hdst⟩ := h.nodes (h.mem_targets.mp hw)
    exact ⟨hmem hsrc, hmem hdst⟩
  obtain ⟨b, hb, hiff⟩ := ColoredSearch.search_eq hends hlength
  rw [hadj] at hiff
  exact ⟨b, hb, hiff⟩

/-- **Cycle detection** on the graph of any rows: whatever the order of the nodes,
the search ends, and reports a cycle exactly when there is one. -/
theorem hasCycle_build [AddZero κ] (rows : List (EdgeRow κ)) (order : RangeOrder NodeID) :
    ∃ b, (build rows).hasCycle order = some b ∧
      (b = true ↔ ∃ v, Relation.TransGen (build rows).Adj v v) :=
  (wellFormed_build rows).hasCycle_eq order

end ServiceGraph
