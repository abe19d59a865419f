/-
What the built graph adds up to (`pkg/servicegraph/graph.go`, `source.go`).

Every part of the graph is a total by key over the rows: an edge over the rows
of its pair, a node over the rows that name it at either end, the entry of a
traffic type or of a zone over the rows that carry it.  Costs are added up in the
order of the rows, and rounded at every step where they are floats.

* `ServiceGraph.lookup_edges_build`, `ServiceGraph.lookup_nodes_build` — edges
  and nodes as folds over their rows;
* `ServiceGraph.Conserves` — the totals of edges, nodes and rows agree, those of
  bytes exactly and those of costs up to rounding, and every edge is listed once
  at each end;
* `ServiceGraph.build_conserves` — it holds of every graph built from rows, in
  any order of the rows.
-/
import Tollwing.FloatSum
import Tollwing.KeyedFold
import Tollwing.ServiceGraph

/-! ### The parts of an edge -/

section
variable {κ : Type*} [AddZero κ]

/-- Two slices of an edge together. -/
def EdgeStat.add (s s' : EdgeStat κ) : EdgeStat κ := ⟨s.bytes + s'.bytes, s.cost + s'.cost⟩

namespace Edge

/-- The type that a row's bytes are booked under, if any, with what is booked. -/
def typeRow (r : EdgeRow κ) : List (String × EdgeStat κ) :=
  if r.trafficType = "" then [] else [(r.trafficType, ⟨r.bytes, r.cost⟩)]

/-- One booking in the totals per traffic type. -/
def addStat (m : FinMap String (EdgeStat κ)) (b : String × EdgeStat κ) :
    FinMap String (EdgeStat κ) :=
  m.insert b.1 (((m.lookup b.1).getD ⟨0, 0⟩).add b.2)

theorem byType_addRow (e : Edge κ) (r : EdgeRow κ) :
    (e.addRow r).byType = (typeRow r).foldl addStat e.byType := by
  rw [addRow, typeRow]
  split_ifs <;> rfl

theorem byType_foldl (rows : List (EdgeRow κ)) (e : Edge κ) :
    (rows.foldl addRow e).byType = (rows.flatMap typeRow).foldl addStat e.byType := by
  induction rows generalizing e with
  | nil => rfl
  | cons r rows ih =>
    rw [List.foldl_cons, ih, byType_addRow, List.flatMap_cons, List.foldl_append]

end Edge

omit [AddZero κ] in
/-- The bookings of one traffic type are those of the rows that carry it. -/
theorem Edge.filter_typeRow {t : String} (ht : t ≠ "") (rows : List (EdgeRow κ)) :
    (rows.flatMap Edge.typeRow).filter (fun b => b.1 = t)
      = (rows.filter fun r => r.trafficType = t).map fun r => (t, ⟨r.bytes, r.cost⟩) := by
  induction rows with
  | nil => rfl
  | cons r rows ih =>
    rw [List.flatMap_cons, List.filter_append, ih, Edge.typeRow, List.filter_cons]
    by_cases hr : r.trafficType = t
    · have hne : r.trafficType ≠ "" := fun h => ht (hr.symm.trans h)
      simp [hr, ht]
    · by_cases hempty : r.trafficType = "" <;> simp [hr, hempty, ht.symm]

omit [AddZero κ] in
theorem Edge.filter_typeRow_empty (rows : List (EdgeRow κ)) :
    (rows.flatMap Edge.typeRow).filter (fun b => b.1 = "") = [] := by
  rw [List.filter_eq_nil_iff]
  intro b hb
  obtain ⟨r, -, hbr⟩ := List.mem_flatMap.mp hb
  rw [Edge.typeRow] at hbr
  split_ifs at hbr with hempty
  · exact absurd hbr List.not_mem_nil
  · rw [List.mem_singleton.mp hbr, decide_eq_true_eq]
    exact hempty

/-! ### The parts of a node -/

namespace Node

/-- What is booked in a zone, if one is named. -/
def zoned (zone : String) (bytes : UInt64) : List (String × UInt64) :=
  if zone = "" then [] else [(zone, bytes)]

/-- The zones that a row's bytes are booked under at the node. -/
def zoneRow (id : NodeID) (r : EdgeRow κ) : List (String × UInt64) :=
  (if r.src = id then zoned r.srcZone r.bytes else []) ++
    if r.dst = id then zoned r.dstZone r.bytes else []

/-- One booking in the bytes per zone. -/
def addBytes (m : FinMap String UInt64) (b : String × UInt64) : FinMap String UInt64 :=
  m.insert b.1 ((m.lookup b.1).getD 0 + b.2)

/-- What a row adds to a node: as its source, as its target or as both. -/
def addRow (id : NodeID) (n : Node κ) (r : EdgeRow κ) : Node κ where
  id := n.id
  zones := (zoneRow id r).foldl addBytes n.zones
  bytesIn := n.bytesIn + if r.dst = id then r.bytes else 0
  bytesOut := n.bytesOut + if r.src = id then r.bytes else 0
  costIn := if r.dst = id then n.costIn + r.cost else n.costIn
  costOut := if r.src = id then n.costOut + r.cost else n.costOut

omit [AddZero κ] in
theorem addZone_eq (n : Node κ) (zone : String) (bytes : UInt64) :
    n.addZone zone bytes
      = { n with zones := (zoned zone bytes).foldl addBytes n.zones } := by
  rw [addZone, zoned]
  split_ifs <;> rfl

theorem zones_foldl (id : NodeID) (rows : List (EdgeRow κ)) (n : Node κ) :
    (rows.foldl (addRow id) n).zones = (rows.flatMap (zoneRow id)).foldl addBytes n.zones := by
  induction rows generalizing n with
  | nil => rfl
  | cons r rows ih => rw [List.foldl_cons, ih, List.flatMap_cons, List.foldl_append]; rfl

end Node

end

namespace ServiceGraph

open KeyedFold

section
variable {κ : Type*} [AddZero κ]

/-! ### Edges and nodes as folds over their rows -/

/-- A row leaves every edge but its own. -/
theorem lookup_edges_addEdgeRow (g : ServiceGraph κ) (r : EdgeRow κ) (k : EdgeKey) :
    (g.addEdgeRow r).edges.lookup k =
      if r.key = k then some (((g.edges.lookup k).getD ⟨k.src, k.dst, 0, 0, 0, ∅⟩).addRow r)
      else g.edges.lookup k := by
  have hedges : (((g.node r.src).node r.dst).addTotals r).edges = g.edges := by
    show ((g.node r.src).node r.dst).edges = _
    rw [(edges_node _ _).1, (edges_node _ _).1]
  rw [addEdgeRow, addEdge, hedges]
  by_cases hk : r.key = k
  · rw [if_pos hk, ← hk]
    cases g.edges.lookup r.key with
    | none => exact Finmap.lookup_insert _
    | some e => exact Finmap.lookup_insert _
  · rw [if_neg hk]
    cases g.edges.lookup r.key with
    | none => exact Finmap.lookup_insert_of_ne _ (Ne.symm hk)
    | some e => exact Finmap.lookup_insert_of_ne _ (Ne.symm hk)

/-- The edge of some rows of one pair. -/
def edgeOf (k : EdgeKey) (rows : List (EdgeRow κ)) : Edge κ :=
  rows.foldl Edge.addRow ⟨k.src, k.dst, 0, 0, 0, ∅⟩

/-- The rows of a pair. -/
def rowsOf (rows : List (EdgeRow κ)) (k : EdgeKey) : List (EdgeRow κ) := rows.filter fun r => r.key = k

/-- **An edge is the total of the rows of its pair.** -/
theorem lookup_edges_build (rows : List (EdgeRow κ)) (k : EdgeKey) :
    (build rows).edges.lookup k
      = if rowsOf rows k = [] then none else some (edgeOf k (rowsOf rows k)) := by
  refine view_foldl (v := fun g : ServiceGraph κ => g.edges.lookup k) ?_ rfl rows
  intro g r
  rw [lookup_edges_addEdgeRow]
  simp only [decide_eq_true_eq]

theorem lookup_node (g : ServiceGraph κ) (id id' : NodeID) :
    (g.node id).nodes.lookup id' =
      if id' = id then some ((g.nodes.lookup id').getD ⟨id', ∅, 0, 0, 0, 0⟩)
      else g.nodes.lookup id' := by
  rw [node]
  cases h : g.nodes.lookup id with
  | some n =>
    split_ifs with hid
    · rw [hid, h]
      rfl
    · rfl
  | none =>
    show (g.nodes.insert id _).lookup id' = _
    rw [FinMap.lookup_insert_ite]
    split_ifs with hid
    · rw [hid, h]
      rfl
    · rfl

/-- A row leaves every node but its two ends. -/
theorem lookup_nodes_addEdgeRow (g : ServiceGraph κ) (r : EdgeRow κ) (id : NodeID) :
    (g.addEdgeRow r).nodes.lookup id =
      if r.src = id ∨ r.dst = id then
        some (((g.nodes.lookup id).getD ⟨id, ∅, 0, 0, 0, 0⟩).addRow id r)
      else g.nodes.lookup id := by
  have hnodes : (g.addEdgeRow r).nodes = (((g.node r.src).node r.dst).addTotals r).nodes := by
    rw [addEdgeRow, addEdge]
    split <;> rfl
  rw [hnodes]
  simp only [addTotals, FinMap.lookup_modify_ite, lookup_node, Node.addZone_eq]
  by_cases hsrc : r.src = id <;> by_cases hdst : r.dst = id
  · simp [Node.addRow, Node.zoneRow, hsrc, hdst]
  · simp [Node.addRow, Node.zoneRow, hsrc, hdst, Ne.symm hdst]
  · simp [Node.addRow, Node.zoneRow, hsrc, hdst, Ne.symm hsrc]
  · simp [hsrc, hdst, Ne.symm hsrc, Ne.symm hdst]

/-- The node of some rows that name it. -/
def nodeOf (id : NodeID) (rows : List (EdgeRow κ)) : Node κ :=
  rows.foldl (Node.addRow id) ⟨id, ∅, 0, 0, 0, 0⟩

/-- The rows that name a node at either end. -/
def rowsAt (rows : List (EdgeRow κ)) (id : NodeID) : List (EdgeRow κ) :=
  rows.filter fun r => r.src = id ∨ r.dst = id

/-- **A node is the total of the rows that name it.** -/
theorem lookup_nodes_build (rows : List (EdgeRow κ)) (id : NodeID) :
    (build rows).nodes.lookup id
      = if rowsAt rows id = [] then none else some (nodeOf id (rowsAt rows id)) := by
  refine view_foldl (v := fun g : ServiceGraph κ => g.nodes.lookup id) ?_ rfl rows
  intro g r
  rw [lookup_nodes_addEdgeRow]
  simp only [decide_eq_true_eq]

theorem edgeOf_bytes (k : EdgeKey) (rows : List (EdgeRow κ)) :
    (edgeOf k rows).bytes = (rows.map EdgeRow.bytes).sum :=
  (proj_foldl (π := Edge.bytes) (fun _ _ => rfl) _ rows).trans (zero_add _)

theorem edgeOf_connections (k : EdgeKey) (rows : List (EdgeRow κ)) :
    (edgeOf k rows).connections = (rows.map EdgeRow.connections).sum :=
  (proj_foldl (π := Edge.connections) (fun _ _ => rfl) _ rows).trans (zero_add _)

theorem edgeOf_cost (k : EdgeKey) (rows : List (EdgeRow κ)) :
    (edgeOf k rows).cost = addUp (rows.map EdgeRow.cost) := by
  rw [edgeOf, proj_foldl_filter (π := Edge.cost) (g := EdgeRow.cost) (fun _ => true)
    (fun _ _ => rfl), List.filter_true, addUp]

/-- A total that a node keeps over the rows that name it at one end. -/
theorem nodeOf_total {M : Type*} [AddCommMonoid M] {π : Node κ → M} {e : EdgeRow κ → NodeID}
    {g : EdgeRow κ → M} {id : NodeID} (hzero : π ⟨id, ∅, 0, 0, 0, 0⟩ = 0)
    (hadd : ∀ n r, π (Node.addRow id n r) = π n + if e r = id then g r else 0)
    (hend : ∀ r, e r = id → r.src = id ∨ r.dst = id) (rows : List (EdgeRow κ)) :
    π (nodeOf id (rowsAt rows id)) = ((rows.filter fun r => e r = id).map g).sum := by
  refine (proj_foldl hadd _ _).trans ?_
  rw [hzero, zero_add,
    ← sum_filter_ite (p := fun r => decide (r.src = id ∨ r.dst = id))
      (fun r hr => decide_eq_true (hend r (of_decide_eq_true hr)))]
  simp only [decide_eq_true_eq]
  rfl

/-- A cost that a node adds up over the rows that name it at one end. -/
theorem nodeOf_cost {π : Node κ → κ} {e : EdgeRow κ → NodeID} {id : NodeID}
    (hzero : π ⟨id, ∅, 0, 0, 0, 0⟩ = 0)
    (hadd : ∀ n r, π (Node.addRow id n r) = if e r = id then π n + r.cost else π n)
    (hend : ∀ r, e r = id → r.src = id ∨ r.dst = id) (rows : List (EdgeRow κ)) :
    π (nodeOf id (rowsAt rows id)) = addUp ((rows.filter fun r => e r = id).map EdgeRow.cost) := by
  have hboth : (rowsAt rows id).filter (fun r => e r = id) = rows.filter fun r => e r = id := by
    rw [rowsAt, List.filter_filter]
    refine List.filter_congr fun r _ => ?_
    by_cases hr : e r = id
    · simp [hr, hend r hr]
    · simp [hr]
  rw [nodeOf, proj_foldl_filter (π := π) (g := EdgeRow.cost) (fun r => decide (e r = id))
    (fun n r => by rw [hadd]; simp only [decide_eq_true_eq]), hboth, hzero, addUp]

theorem mem_edges_build {rows : List (EdgeRow κ)} {k : EdgeKey} :
    k ∈ (build rows).edges ↔ ∃ r ∈ rows, r.key = k := by
  rw [← Finmap.mem_keys, FinMap.mem_keys_iff_lookup, lookup_edges_build, rowsOf, Ne,
    ite_eq_left_iff]
  simp [List.filter_eq_nil_iff]

theorem mem_nodes_build {rows : List (EdgeRow κ)} {id : NodeID} :
    id ∈ (build rows).nodes ↔ ∃ r ∈ rows, r.src = id ∨ r.dst = id := by
  rw [← Finmap.mem_keys, FinMap.mem_keys_iff_lookup, lookup_nodes_build, rowsAt, Ne,
    ite_eq_left_iff]
  simp [List.filter_eq_nil_iff, or_iff_not_imp_left]

/-! ### Conservation -/

/-- The edges that leave `id`. -/
def outEdges (g : ServiceGraph κ) (id : NodeID) : List (Edge κ) :=
  (g.outKeys id).filterMap fun k => g.edges.lookup k

/-- The rows with a pair and a traffic type. -/
def typedRows (rows : List (EdgeRow κ)) (k : EdgeKey) (t : String) : List (EdgeRow κ) :=
  rows.filter fun r => r.key = k ∧ r.trafficType = t

end

/-- What the costs of the rows, all added up, may be off by. -/
def tolerance (rows : List (EdgeRow Float64)) : ℚ :=
  FloatSum.growth rows.length * FloatSum.mass (rows.map EdgeRow.cost)

/-- The exact cost of some edges. -/
def exactCost (edges : List (Edge Float64)) : ℚ := FloatSum.exact (edges.map Edge.cost)

/-- The graph accounts for the rows: for all of them in its edges and, once as
sources and once as targets, in its nodes; for a node's over the edges at it; for an
edge's by type; and it lists every edge once at either end.  Bytes agree exactly.  A
cost is the float sum of its rows, in their order; two that are finite and account for
the same rows agree up to the rounding of these sums. -/
structure Conserves (g : ServiceGraph Float64) (rows : List (EdgeRow Float64)) : Prop where
  edgeBytes : g.edges.sum (fun _ e => e.bytes.toNat) = (rows.map fun r => r.bytes.toNat).sum
  bytesOut : g.nodes.sum (fun _ n => n.bytesOut.toNat) = (rows.map fun r => r.bytes.toNat).sum
  bytesIn : g.nodes.sum (fun _ n => n.bytesIn.toNat) = (rows.map fun r => r.bytes.toNat).sum
  nodeOut : ∀ id n, g.nodes.lookup id = some n →
    n.bytesOut.toNat = ((g.outEdges id).map fun e => e.bytes.toNat).sum
  nodeIn : ∀ id n, g.nodes.lookup id = some n →
    n.bytesIn.toNat = ((g.inEdges id).map fun e => e.bytes.toNat).sum
  memType : ∀ k e, g.edges.lookup k = some e → ∀ t,
    t ∈ e.byType ↔ t ≠ "" ∧ typedRows rows k t ≠ []
  byType : ∀ k e, g.edges.lookup k = some e → ∀ t s, e.byType.lookup t = some s →
    s.bytes.toNat = ((typedRows rows k t).map fun r => r.bytes.toNat).sum ∧
      s.cost = addUp ((typedRows rows k t).map EdgeRow.cost)
  edgeCost : ∀ k e, g.edges.lookup k = some e →
    e.cost = addUp ((rowsOf rows k).map EdgeRow.cost)
  nodeCost : ∀ id n, g.nodes.lookup id = some n →
    n.costOut = addUp ((rows.filter fun r => r.src = id).map EdgeRow.cost) ∧
      n.costIn = addUp ((rows.filter fun r => r.dst = id).map EdgeRow.cost)
  edgeTotal : (∀ k e, g.edges.lookup k = some e → e.cost.IsFinite) →
    |g.edges.sum (fun _ e => e.cost.toRat) - FloatSum.exact (rows.map EdgeRow.cost)|
      ≤ tolerance rows
  outTotal : (∀ id n, g.nodes.lookup id = some n → n.costOut.IsFinite) →
    |g.nodes.sum (fun _ n => n.costOut.toRat) - FloatSum.exact (rows.map EdgeRow.cost)|
      ≤ tolerance rows
  inTotal : (∀ id n, g.nodes.lookup id = some n → n.costIn.IsFinite) →
    |g.nodes.sum (fun _ n => n.costIn.toRat) - FloatSum.exact (rows.map EdgeRow.cost)|
      ≤ tolerance rows
  costOut : ∀ id n, g.nodes.lookup id = some n → n.costOut.IsFinite →
    (∀ e ∈ g.outEdges id, e.cost.IsFinite) →
      |n.costOut.toRat - exactCost (g.outEdges id)| ≤ 2 * tolerance rows
  costIn : ∀ id n, g.nodes.lookup id = some n → n.costIn.IsFinite →
    (∀ e ∈ g.inEdges id, e.cost.IsFinite) →
      |n.costIn.toRat - exactCost (g.inEdges id)| ≤ 2 * tolerance rows
  outOnce : ∀ k ∈ g.edges, ∀ id, (g.outKeys id).count k = if id = k.src then 1 else 0
  innOnce : ∀ k ∈ g.edges, ∀ id, (g.inKeys id).count k = if id = k.dst then 1 else 0
  listed : ∀ id k, k ∈ g.outKeys id ∨ k ∈ g.inKeys id → k ∈ g.edges

/-- The graphs differ at most in the order of the adjacency lists. -/
structure SameUpToOrder {κ : Type*} (g h : ServiceGraph κ) : Prop where
  nodes : g.nodes = h.nodes
  edges : g.edges = h.edges
  out : ∀ id, Option.Rel List.Perm (g.out.lookup id) (h.out.lookup id)
  inn : ∀ id, Option.Rel List.Perm (g.inn.lookup id) (h.inn.lookup id)

section
variable {κ : Type*} [AddZero κ]

section
variable {rows : List (EdgeRow κ)} (hover : (rows.map fun r => r.bytes.toNat).sum < 2 ^ 64)
include hover

omit [AddZero κ] in
/-- The bytes of some of the rows. -/
theorem toNat_sum_rows (p : EdgeRow κ → Bool) :
    ((rows.filter p).map EdgeRow.bytes).sum.toNat
      = ((rows.filter p).map fun r => r.bytes.toNat).sum := by
  have hle := sum_filter_le p (fun r => r.bytes.toNat) rows
  have hmap : ((rows.filter p).map EdgeRow.bytes).map UInt64.toNat
      = (rows.filter p).map fun r => r.bytes.toNat := List.map_map
  rw [toNat_sum _ (by rw [hmap]; omega), hmap]

theorem toNat_bytesOut {id : NodeID} {n : Node κ} (hn : (build rows).nodes.lookup id = some n) :
    n.bytesOut.toNat = ((rows.filter fun r => r.src = id).map fun r => r.bytes.toNat).sum := by
  rw [lookup_nodes_build] at hn
  split_ifs at hn
  rw [← Option.some.inj hn,
    nodeOf_total (π := Node.bytesOut) (e := EdgeRow.src) rfl (fun _ _ => rfl) fun _ => Or.inl]
  exact toNat_sum_rows hover _

theorem toNat_bytesIn {id : NodeID} {n : Node κ} (hn : (build rows).nodes.lookup id = some n) :
    n.bytesIn.toNat = ((rows.filter fun r => r.dst = id).map fun r => r.bytes.toNat).sum := by
  rw [lookup_nodes_build] at hn
  split_ifs at hn
  rw [← Option.some.inj hn,
    nodeOf_total (π := Node.bytesIn) (e := EdgeRow.dst) rfl (fun _ _ => rfl) fun _ => Or.inr]
  exact toNat_sum_rows hover _

theorem toNat_bytes_edge {k : EdgeKey} {e : Edge κ} (he : (build rows).edges.lookup k = some e) :
    e.bytes.toNat = ((rows.filter fun r => r.key = k).map fun r => r.bytes.toNat).sum := by
  rw [lookup_edges_build] at he
  split_ifs at he
  rw [← Option.some.inj he, edgeOf_bytes]
  exact toNat_sum_rows hover _

end

theorem cost_edge {rows : List (EdgeRow κ)} {k : EdgeKey} {e : Edge κ}
    (he : (build rows).edges.lookup k = some e) :
    e.cost = addUp ((rowsOf rows k).map EdgeRow.cost) := by
  rw [lookup_edges_build] at he
  split_ifs at he
  rw [← Option.some.inj he, edgeOf_cost]

theorem costOut_node {rows : List (EdgeRow κ)} {id : NodeID} {n : Node κ}
    (hn : (build rows).nodes.lookup id = some n) :
    n.costOut = addUp ((rows.filter fun r => r.src = id).map EdgeRow.cost) := by
  rw [lookup_nodes_build] at hn
  split_ifs at hn
  rw [← Option.some.inj hn,
    nodeOf_cost (π := Node.costOut) (e := EdgeRow.src) rfl (fun _ _ => rfl) fun _ => Or.inl]

theorem costIn_node {rows : List (EdgeRow κ)} {id : NodeID} {n : Node κ}
    (hn : (build rows).nodes.lookup id = some n) :
    n.costIn = addUp ((rows.filter fun r => r.dst = id).map EdgeRow.cost) := by
  rw [lookup_nodes_build] at hn
  split_ifs at hn
  rw [← Option.some.inj hn,
    nodeOf_cost (π := Node.costIn) (e := EdgeRow.dst) rfl (fun _ _ => rfl) fun _ => Or.inr]

/-- The edges that leave a node carry the rows that it sent. -/
theorem sum_outEdges {M : Type*} [AddCommMonoid M] {rows : List (EdgeRow κ)} {μ : Edge κ → M}
    {g : EdgeRow κ → M}
    (h : ∀ k e, (build rows).edges.lookup k = some e →
      μ e = ((rows.filter fun r => r.key = k).map g).sum) (id : NodeID) :
    (((build rows).outEdges id).map μ).sum = ((rows.filter fun r => r.src = id).map g).sum := by
  have hwf := wellFormed_build rows
  rw [outEdges, sum_listed h (hwf.nodup_out id)
    fun k hk => Finmap.mem_keys.mpr (hwf.mem_out.mp hk).1]
  congr 2
  refine List.filter_congr fun r hr => decide_eq_decide.mpr ?_
  exact hwf.mem_out.trans (and_iff_right (mem_edges_build.mpr ⟨r, hr, rfl⟩))

/-- And the edges that enter it the rows that it received. -/
theorem sum_inEdges {M : Type*} [AddCommMonoid M] {rows : List (EdgeRow κ)} {μ : Edge κ → M}
    {g : EdgeRow κ → M}
    (h : ∀ k e, (build rows).edges.lookup k = some e →
      μ e = ((rows.filter fun r => r.key = k).map g).sum) (id : NodeID) :
    (((build rows).inEdges id).map μ).sum = ((rows.filter fun r => r.dst = id).map g).sum := by
  have hwf := wellFormed_build rows
  rw [inEdges, sum_listed h (hwf.nodup_inn id)
    fun k hk => Finmap.mem_keys.mpr (hwf.mem_inn.mp hk).1]
  congr 2
  refine List.filter_congr fun r hr => decide_eq_decide.mpr ?_
  exact hwf.mem_inn.trans (and_iff_right (mem_edges_build.mpr ⟨r, hr, rfl⟩))

/-! ### Types and zones -/

/-- What the types of an edge read. -/
theorem lookup_byType (k : EdgeKey) (rows : List (EdgeRow κ)) (t : String) :
    (edgeOf k rows).byType.lookup t =
      if t = "" ∨ (rows.filter fun r => r.trafficType = t) = [] then none
      else some ⟨((rows.filter fun r => r.trafficType = t).map EdgeRow.bytes).sum,
        addUp ((rows.filter fun r => r.trafficType = t).map EdgeRow.cost)⟩ := by
  have hfold := lookup_foldl_insert (⟨0, 0⟩ : EdgeStat κ) EdgeStat.add
    (rows.flatMap Edge.typeRow) t
  rw [edgeOf, Edge.byType_foldl]
  refine hfold.trans ?_
  by_cases ht : t = ""
  · rw [if_pos (Or.inl ht), ht, Edge.filter_typeRow_empty, if_pos rfl]
  rw [Edge.filter_typeRow ht]
  simp only [List.map_eq_nil_iff, ht, false_or]
  split_ifs with hnil
  · rfl
  · rw [List.foldl_map]
    have hbytes := proj_foldl (π := EdgeStat.bytes) (g := EdgeRow.bytes)
      (f := fun s r => s.add ⟨r.bytes, r.cost⟩) (fun _ _ => rfl) ⟨0, 0⟩
      (rows.filter fun r => r.trafficType = t)
    have hcost := proj_foldl_filter (π := EdgeStat.cost) (g := EdgeRow.cost)
      (f := fun s r => s.add ⟨r.bytes, r.cost⟩) (fun _ => true) (fun _ _ => rfl) ⟨0, 0⟩
      (rows.filter fun r => r.trafficType = t)
    rw [zero_add] at hbytes
    rw [List.filter_true] at hcost
    rw [← hbytes, addUp, ← hcost]

/-- What the zones of a node read. -/
theorem lookup_zones (id : NodeID) (rows : List (EdgeRow κ)) (z : String) :
    (nodeOf id rows).zones.lookup z =
      if (rows.flatMap (Node.zoneRow id)).filter (fun b => b.1 = z) = [] then none
      else some (((rows.flatMap (Node.zoneRow id)).filter fun b => b.1 = z).map Prod.snd).sum := by
  rw [nodeOf, Node.zones_foldl]
  refine (lookup_foldl_insert 0 (· + ·) (rows.flatMap (Node.zoneRow id)) z).trans ?_
  split_ifs
  · rfl
  · exact congrArg some ((proj_foldl (π := fun n : UInt64 => n) (g := Prod.snd)
      (fun _ _ => rfl) 0 _).trans (zero_add _))

/-! ### Any order of the rows -/

attribute [ext] Edge Node

/-- A list of edges is not kept empty. -/
theorem lists_ne_nil (rows : List (EdgeRow κ)) (id : NodeID) :
    (build rows).out.lookup id ≠ some [] ∧ (build rows).inn.lookup id ≠ some [] := by
  induction rows using List.reverseRecOn with
  | nil => exact ⟨nofun, nofun⟩
  | append_singleton rows r ih =>
    rw [build, List.foldl_append, List.foldl_cons, List.foldl_nil, ← build]
    generalize build rows = g at ih
    -- a list that is written ends with the new edge
    have hjoin : ∀ {lists : FinMap NodeID (List EdgeKey)} {end' : NodeID} {ks : List EdgeKey},
        lists.lookup id ≠ some [] → (lists.insert end' (ks ++ [r.key])).lookup id ≠ some [] := by
      intro lists end' ks hne
      rw [FinMap.lookup_insert_ite]
      split_ifs
      · exact fun h => List.append_ne_nil_of_right_ne_nil ks (List.cons_ne_nil _ _)
          (Option.some.inj h)
      · exact hne
    have hout : (((g.node r.src).node r.dst).addTotals r).out = g.out :=
      (edges_node _ _).2.1.trans (edges_node _ _).2.1
    have hinn : (((g.node r.src).node r.dst).addTotals r).inn = g.inn :=
      (edges_node _ _).2.2.trans (edges_node _ _).2.2
    rw [addEdgeRow, addEdge, hout, hinn]
    split
    · exact ih
    · exact ⟨hjoin ih.1, hjoin ih.2⟩

/-- Lists with the same entries, none of them kept empty, differ in their order. -/
theorem rel_perm_of_mem {l l' : Option (List EdgeKey)} (hl : l ≠ some []) (hl' : l' ≠ some [])
    (hnodup : (l.getD []).Nodup) (hnodup' : (l'.getD []).Nodup)
    (hmem : ∀ k, k ∈ l.getD [] ↔ k ∈ l'.getD []) : Option.Rel List.Perm l l' := by
  have hperm : (l.getD []).Perm (l'.getD []) := (List.perm_ext_iff_of_nodup hnodup hnodup').mpr hmem
  cases l with
  | none =>
    cases l' with
    | none => exact Option.Rel.none
    | some ks => exact absurd (congrArg some (List.nil_perm.mp hperm)) hl'
  | some ks =>
    cases l' with
    | none => exact absurd (congrArg some (List.perm_nil.mp hperm)) hl
    | some ks' => exact Option.Rel.some hperm

/-- Graphs built with the same edges list them at the same nodes. -/
theorem rel_lists_build (rows rows' : List (EdgeRow κ))
    (h : ∀ k, k ∈ (build rows).edges ↔ k ∈ (build rows').edges) :
    (∀ id, Option.Rel List.Perm ((build rows).out.lookup id) ((build rows').out.lookup id)) ∧
      ∀ id, Option.Rel List.Perm ((build rows).inn.lookup id) ((build rows').inn.lookup id) := by
  have hwf := wellFormed_build rows
  have hwf' := wellFormed_build rows'
  refine ⟨fun id => ?_, fun id => ?_⟩
  · refine rel_perm_of_mem (lists_ne_nil rows id).1 (lists_ne_nil rows' id).1 (hwf.nodup_out id)
      (hwf'.nodup_out id) fun k => hwf.mem_out.trans ?_
    rw [h]
    exact hwf'.mem_out.symm
  · refine rel_perm_of_mem (lists_ne_nil rows id).2 (lists_ne_nil rows' id).2 (hwf.nodup_inn id)
      (hwf'.nodup_inn id) fun k => hwf.mem_inn.trans ?_
    rw [h]
    exact hwf'.mem_inn.symm

/-- Built graphs with the same nodes and edges differ in the order of their lists. -/
theorem sameUpToOrder_build {rows rows' : List (EdgeRow κ)}
    (hnodes : (build rows).nodes = (build rows').nodes)
    (hedges : (build rows).edges = (build rows').edges) :
    SameUpToOrder (build rows) (build rows') := by
  obtain ⟨hout, hinn⟩ := rel_lists_build rows rows' fun k => by rw [hedges]
  exact ⟨hnodes, hedges, hout, hinn⟩

/-- The types of an edge are those of its rows. -/
theorem typed_edge {rows : List (EdgeRow κ)} {k : EdgeKey} {e : Edge κ}
    (he : (build rows).edges.lookup k = some e) (t : String) :
    e.byType.lookup t = if t = "" ∨ typedRows rows k t = [] then none
      else some ⟨((typedRows rows k t).map EdgeRow.bytes).sum,
        addUp ((typedRows rows k t).map EdgeRow.cost)⟩ := by
  have htyped : (rowsOf rows k).filter (fun r => r.trafficType = t) = typedRows rows k t := by
    rw [rowsOf, List.filter_filter, typedRows]
    refine List.filter_congr fun r _ => ?_
    rw [Bool.decide_and, Bool.and_comm]
  rw [lookup_edges_build] at he
  split_ifs at he
  rw [← Option.some.inj he, lookup_byType, htyped]

end

/-! ### Costs in another order -/

open FloatSum (Near near_of_perm)

/-- Edges with the same traffic, whose costs are no farther apart than `t`. -/
structure NearEdges (t : ℚ) (e e' : Edge Float64) : Prop where
  src : e.src = e'.src
  dst : e.dst = e'.dst
  bytes : e.bytes = e'.bytes
  connections : e.connections = e'.connections
  cost : Near t e.cost e'.cost
  byType : ∀ ty, Option.Rel (fun s s' => s.bytes = s'.bytes ∧ Near t s.cost s'.cost)
    (e.byType.lookup ty) (e'.byType.lookup ty)

/-- And such nodes. -/
structure NearNodes (t : ℚ) (n n' : Node Float64) : Prop where
  id : n.id = n'.id
  zones : n.zones = n'.zones
  bytesIn : n.bytesIn = n'.bytesIn
  bytesOut : n.bytesOut = n'.bytesOut
  costIn : Near t n.costIn n'.costIn
  costOut : Near t n.costOut n'.costOut

/-- The graphs differ at most in the order of the adjacency lists and, by `t`, in costs. -/
structure SameUpToRounding (t : ℚ) (g h : ServiceGraph Float64) : Prop where
  nodes : ∀ id, Option.Rel (NearNodes t) (g.nodes.lookup id) (h.nodes.lookup id)
  edges : ∀ k, Option.Rel (NearEdges t) (g.edges.lookup k) (h.edges.lookup k)
  out : ∀ id, Option.Rel List.Perm (g.out.lookup id) (h.out.lookup id)
  inn : ∀ id, Option.Rel List.Perm (g.inn.lookup id) (h.inn.lookup id)

section
variable {rows rows' : List (EdgeRow Float64)} (h : rows.Perm rows')
include h

omit h in
/-- Some of the rows cost the same in both orders, up to rounding. -/
theorem near_cost {some some' : List (EdgeRow Float64)} (hsome : some.Perm some')
    (hsub : some.Sublist rows) :
    Near (2 * tolerance rows) (addUp (some.map EdgeRow.cost)) (addUp (some'.map EdgeRow.cost)) := by
  have hnear := near_of_perm (hsome.map EdgeRow.cost) (hsub.map EdgeRow.cost)
  rwa [List.length_map] at hnear

/-- An edge depends on the order of its rows by rounding only. -/
theorem nearEdges_edgeOf (k : EdgeKey) :
    NearEdges (2 * tolerance rows) (edgeOf k (rowsOf rows k)) (edgeOf k (rowsOf rows' k)) := by
  have hrows : (rowsOf rows k).Perm (rowsOf rows' k) := h.filter _
  refine ⟨?_, ?_, ?_, ?_, ?_, fun ty => ?_⟩
  · exact (const_foldl (π := Edge.src) (f := Edge.addRow) (fun _ _ => rfl) _ _).trans
      (const_foldl (π := Edge.src) (f := Edge.addRow) (fun _ _ => rfl) _ _).symm
  · exact (const_foldl (π := Edge.dst) (f := Edge.addRow) (fun _ _ => rfl) _ _).trans
      (const_foldl (π := Edge.dst) (f := Edge.addRow) (fun _ _ => rfl) _ _).symm
  · rw [edgeOf_bytes, edgeOf_bytes, (hrows.map _).sum_eq]
  · rw [edgeOf_connections, edgeOf_connections, (hrows.map _).sum_eq]
  · rw [edgeOf_cost, edgeOf_cost]
    exact near_cost hrows List.filter_sublist
  · have htyped := hrows.filter fun r => r.trafficType = ty
    rw [lookup_byType, lookup_byType, (htyped.map _).sum_eq]
    simp only [← List.length_eq_zero_iff, htyped.length_eq]
    split_ifs
    · exact Option.Rel.none
    · exact Option.Rel.some
        ⟨rfl, near_cost htyped (List.filter_sublist.trans List.filter_sublist)⟩

/-- And so does a node. -/
theorem nearNodes_nodeOf (id : NodeID) :
    NearNodes (2 * tolerance rows) (nodeOf id (rowsAt rows id)) (nodeOf id (rowsAt rows' id)) := by
  have hrows : (rowsAt rows id).Perm (rowsAt rows' id) := h.filter _
  refine ⟨?_, Finmap.ext_lookup fun z => ?_, ?_, ?_, ?_, ?_⟩
  · exact (const_foldl (π := Node.id) (f := Node.addRow id) (fun _ _ => rfl) _ _).trans
      (const_foldl (π := Node.id) (f := Node.addRow id) (fun _ _ => rfl) _ _).symm
  · have hzoned := (hrows.flatMap_right (Node.zoneRow id)).filter fun b => b.1 = z
    rw [lookup_zones, lookup_zones, (hzoned.map _).sum_eq]
    simp only [← List.length_eq_zero_iff, hzoned.length_eq]
  · rw [nodeOf_total (π := Node.bytesIn) (e := EdgeRow.dst) rfl (fun _ _ => rfl) fun _ => Or.inr,
      nodeOf_total (π := Node.bytesIn) (e := EdgeRow.dst) rfl (fun _ _ => rfl) fun _ => Or.inr,
      ((h.filter _).map _).sum_eq]
  · rw [nodeOf_total (π := Node.bytesOut) (e := EdgeRow.src) rfl (fun _ _ => rfl) fun _ => Or.inl,
      nodeOf_total (π := Node.bytesOut) (e := EdgeRow.src) rfl (fun _ _ => rfl) fun _ => Or.inl,
      ((h.filter _).map _).sum_eq]
  · rw [nodeOf_cost (π := Node.costIn) (e := EdgeRow.dst) rfl (fun _ _ => rfl) fun _ => Or.inr,
      nodeOf_cost (π := Node.costIn) (e := EdgeRow.dst) rfl (fun _ _ => rfl) fun _ => Or.inr]
    exact near_cost (h.filter _) List.filter_sublist
  · rw [nodeOf_cost (π := Node.costOut) (e := EdgeRow.src) rfl (fun _ _ => rfl) fun _ => Or.inl,
      nodeOf_cost (π := Node.costOut) (e := EdgeRow.src) rfl (fun _ _ => rfl) fun _ => Or.inl]
    exact near_cost (h.filter _) List.filter_sublist

/-- The graph is the same in any order of the rows, up to the order of the lists and the
rounding of the costs. -/
theorem build_perm : SameUpToRounding (2 * tolerance rows) (build rows) (build rows') := by
  have hlists := rel_lists_build rows rows' fun k => by
    rw [mem_edges_build, mem_edges_build]
    exact exists_congr fun r => and_congr_left' h.mem_iff
  refine ⟨fun id => ?_, fun k => ?_, hlists.1, hlists.2⟩
  · have hrows : (rowsAt rows id).Perm (rowsAt rows' id) := h.filter _
    rw [lookup_nodes_build, lookup_nodes_build]
    simp only [← List.length_eq_zero_iff, hrows.length_eq]
    split_ifs
    · exact Option.Rel.none
    · exact Option.Rel.some (nearNodes_nodeOf h id)
  · have hrows : (rowsOf rows k).Perm (rowsOf rows' k) := h.filter _
    rw [lookup_edges_build, lookup_edges_build]
    simp only [← List.length_eq_zero_iff, hrows.length_eq]
    split_ifs
    · exact Option.Rel.none
    · exact Option.Rel.some (nearEdges_edgeOf h k)

end

/-! ### The edges at a node -/

section
variable {rows : List (EdgeRow Float64)}

/-- A cost that accounts for the rows at one end of a node, against the edges at that
end, which account for them once more. -/
theorem abs_cost_sub_exactCost_le {cost : Float64} {ks : List EdgeKey} {p : EdgeRow Float64 → Bool}
    (hcost : cost = addUp ((rows.filter p).map EdgeRow.cost)) (hfin : cost.IsFinite)
    (hks : ks.Nodup) (hmem : ∀ k ∈ ks, k ∈ (build rows).edges)
    (hp : ∀ r ∈ rows, r.key ∈ ks ↔ p r = true)
    (hedges : ∀ e ∈ ks.filterMap fun k => (build rows).edges.lookup k, e.cost.IsFinite) :
    |cost.toRat - exactCost (ks.filterMap fun k => (build rows).edges.lookup k)|
      ≤ 2 * tolerance rows := by
  have hrows : (rows.filter fun r => r.key ∈ ks) = rows.filter p :=
    List.filter_congr fun r hr => by rw [Bool.eq_iff_iff, decide_eq_true_iff, hp r hr]
  have htotal : ∀ k e, (build rows).edges.lookup k = some e →
      e.cost = addUp ((rows.filter fun r => r.key = k).map EdgeRow.cost) :=
    fun k e he => cost_edge he
  have hlisted := FloatSum.abs_sum_listed_sub_le htotal hks
    (fun k hk => Finmap.mem_keys.mpr (hmem k hk))
    (fun k hk e he => hedges e (List.mem_filterMap.mpr ⟨k, hk, he⟩))
  have hsum := FloatSum.abs_toRat_addUp_sub_le (hcost ▸ hfin)
  rw [hrows] at hlisted
  rw [← hcost, List.length_map] at hsum
  have hsub : ((rows.filter p).map EdgeRow.cost).Sublist (rows.map EdgeRow.cost) :=
    List.filter_sublist.map _
  have hmass := FloatSum.mass_sublist hsub
  have hgrowth := FloatSum.growth_mono (List.length_filter_le p rows)
  have hbound : FloatSum.growth (rows.filter p).length * FloatSum.mass ((rows.filter p).map EdgeRow.cost)
      ≤ tolerance rows :=
    mul_le_mul hgrowth hmass (FloatSum.mass_nonneg _) (FloatSum.growth_nonneg _)
  have hbound' : FloatSum.growth rows.length * FloatSum.mass ((rows.filter p).map EdgeRow.cost)
      ≤ tolerance rows := mul_le_mul_of_nonneg_left hmass (FloatSum.growth_nonneg _)
  rw [exactCost]
  rw [abs_le] at hsum hlisted ⊢
  constructor <;> linarith [hsum.1, hsum.2, hlisted.1, hlisted.2]

end

/-- A key is in one list, once. -/
theorem count_eq_ite {ks : List EdgeKey} (h : ks.Nodup) {k : EdgeKey} {p : Prop} [Decidable p]
    (hmem : k ∈ ks ↔ p) : ks.count k = if p then 1 else 0 := by
  split_ifs with hp
  · exact List.count_eq_one_of_mem h (hmem.mpr hp)
  · exact List.count_eq_zero_of_not_mem (mt hmem.mp hp)

/-- **The built graph conserves the rows**, in whatever order they come. -/
theorem build_conserves (rows : List (EdgeRow Float64))
    (hover : (rows.map fun r => r.bytes.toNat).sum < 2 ^ 64) :
    (build rows).Conserves rows ∧
      ∀ rows', rows.Perm rows' →
        SameUpToRounding (2 * tolerance rows) (build rows) (build rows') := by
  have hwf := wellFormed_build rows
  have hkeys : ∀ r ∈ rows, r.key ∈ (build rows).edges.keys := fun r hr =>
    Finmap.mem_keys.mpr (mem_edges_build.mpr ⟨r, hr, rfl⟩)
  have hsrc : ∀ r ∈ rows, r.src ∈ (build rows).nodes.keys := fun r hr =>
    Finmap.mem_keys.mpr (mem_nodes_build.mpr ⟨r, hr, Or.inl rfl⟩)
  have hdst : ∀ r ∈ rows, r.dst ∈ (build rows).nodes.keys := fun r hr =>
    Finmap.mem_keys.mpr (mem_nodes_build.mpr ⟨r, hr, Or.inr rfl⟩)
  have hbytes := fun k e => @toNat_bytes_edge _ _ rows hover k e
  have htolerance : FloatSum.growth rows.length * FloatSum.mass (rows.map EdgeRow.cost)
      = tolerance rows := rfl
  refine ⟨?_, fun _ => build_perm⟩
  exact
    { edgeBytes := sum_totals hbytes hkeys
      bytesOut := sum_totals (fun _ _ => toNat_bytesOut hover) hsrc
      bytesIn := sum_totals (fun _ _ => toNat_bytesIn hover) hdst
      nodeOut := fun id n hn => (toNat_bytesOut hover hn).trans (sum_outEdges hbytes id).symm
      nodeIn := fun id n hn => (toNat_bytesIn hover hn).trans (sum_inEdges hbytes id).symm
      memType := fun k e he t => by
        rw [← Finmap.mem_keys, FinMap.mem_keys_iff_lookup, typed_edge he, Ne, ite_eq_left_iff]
        simp
      byType := fun k e he t s hs => by
        rw [typed_edge he] at hs
        split_ifs at hs
        rw [← Option.some.inj hs]
        exact ⟨toNat_sum_rows hover _, rfl⟩
      edgeCost := fun k e he => cost_edge he
      nodeCost := fun id n hn => ⟨costOut_node hn, costIn_node hn⟩
      edgeTotal := FloatSum.abs_sum_totals_sub_le (fun _ _ => cost_edge) hkeys
      outTotal := FloatSum.abs_sum_totals_sub_le (fun _ _ => costOut_node) hsrc
      inTotal := FloatSum.abs_sum_totals_sub_le (fun _ _ => costIn_node) hdst
      costOut := fun id n hn hfin => abs_cost_sub_exactCost_le (costOut_node hn) hfin
        (hwf.nodup_out id) (fun k hk => (hwf.mem_out.mp hk).1) fun r hr => by
          rw [decide_eq_true_iff]
          exact hwf.mem_out.trans (and_iff_right (mem_edges_build.mpr ⟨r, hr, rfl⟩))
      costIn := fun id n hn hfin => abs_cost_sub_exactCost_le (costIn_node hn) hfin
        (hwf.nodup_inn id) (fun k hk => (hwf.mem_inn.mp hk).1) fun r hr => by
          rw [decide_eq_true_iff]
          exact hwf.mem_inn.trans (and_iff_right (mem_edges_build.mpr ⟨r, hr, rfl⟩))
      outOnce := fun k hk id => count_eq_ite (hwf.nodup_out id)
        (hwf.mem_out.trans ((and_iff_right hk).trans eq_comm))
      innOnce := fun k hk id => count_eq_ite (hwf.nodup_inn id)
        (hwf.mem_inn.trans ((and_iff_right hk).trans eq_comm))
      listed := fun id k hk => hk.elim (fun h => (hwf.mem_out.mp h).1)
        fun h => (hwf.mem_inn.mp h).1 }

/-- A service that calls itself and, over two zones and once without a type, another. -/
def loopRows : List (EdgeRow Float64) :=
  let a : NodeID := ⟨"", "p", "a", .kindService⟩
  let b : NodeID := ⟨"", "p", "b", .kindService⟩
  [⟨a, a, "z1", "z1", "same_zone", 60, 1, 0⟩, ⟨a, b, "z1", "z2", "cross_az", 100, 1, 10⟩,
    ⟨a, b, "z1", "", "", 0, 1, 0⟩, ⟨a, b, "z3", "z2", "cross_az", 40, 2, 4⟩]

theorem build_conserves_loop :
    (build loopRows).Conserves loopRows ∧
      SameUpToRounding (2 * tolerance loopRows) (build loopRows) (build loopRows.reverse) := by
  obtain ⟨htotals, horder⟩ := build_conserves loopRows (by decide +kernel)
  exact ⟨htotals, horder _ (List.reverse_perm _).symm⟩

/-- Sixty cents over three rows and two edges. -/
def tenthRows : List (EdgeRow Float64) :=
  let a : NodeID := ⟨"", "p", "a", .kindService⟩
  [⟨a, ⟨"", "p", "b", .kindService⟩, "", "", "cross_az", 1, 1, 0.1⟩,
    ⟨a, ⟨"", "p", "b", .kindService⟩, "", "", "cross_az", 1, 1, 0.2⟩,
    ⟨a, ⟨"", "p", "c", .kindService⟩, "", "", "cross_az", 1, 1, 0.3⟩]

/-- What the node sent is not what its edges cost, nor do the edges cost what the rows do,
and in the other order of the rows it is another graph. -/
theorem tenths_not_conserved :
    (((build tenthRows).nodes.lookup ⟨"", "p", "a", .kindService⟩).map fun n => n.costOut.toRat)
        ≠ some (exactCost ((build tenthRows).outEdges ⟨"", "p", "a", .kindService⟩)) ∧
      (build tenthRows).edges.sum (fun _ e => e.cost.toRat)
        ≠ FloatSum.exact (tenthRows.map EdgeRow.cost) ∧
      ¬SameUpToOrder (build tenthRows) (build tenthRows.reverse) := by
  refine ⟨by decide +kernel, by decide +kernel, fun h => ?_⟩
  have hcost : ((build tenthRows).nodes.lookup ⟨"", "p", "a", .kindService⟩).map Node.costOut
      ≠ ((build tenthRows.reverse).nodes.lookup ⟨"", "p", "a", .kindService⟩).map
        Node.costOut := by
    decide +kernel
  rw [h.nodes] at hcost
  exact hcost rfl

end ServiceGraph
