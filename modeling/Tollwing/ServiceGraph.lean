/-
The service graph (`pkg/servicegraph/graph.go`).

`build` accumulates edge rows into nodes, edges and the two adjacency lists.
The source's lists hold pointers to the edges; an edge is allocated once and
never removed, so its key stands for the pointer here.  Byte and connection
counts are machine words.  Costs are of a type `κ` with an addition: floats as in
the source, or rationals where amounts are taken as exact.

* `ServiceGraph.WellFormed` — what ties the lists to the edges and the edges to
  the nodes;
* `ServiceGraph.wellFormed_build` — it holds of every graph built from rows.
-/
import Mathlib.Algebra.Group.Defs
import Mathlib.Data.UInt
import Mathlib.Data.List.Induction
import Mathlib.Data.List.Permutation
import Tollwing.FinMap
import Tollwing.TrafficType

inductive NodeKind
  | kindService
  | kindExternal
  deriving DecidableEq, Repr

/-- A node of the graph; external nodes have no namespace. -/
structure NodeID where
  cluster : String
  ns : String
  name : String
  kind : NodeKind
  deriving DecidableEq, Repr

structure EdgeStat (κ : Type*) where
  bytes : UInt64
  cost : κ
  deriving DecidableEq

/-- An aggregated dependency, with its totals per traffic type. -/
structure Edge (κ : Type*) where
  src : NodeID
  dst : NodeID
  bytes : UInt64
  connections : UInt64
  cost : κ
  byType : FinMap String (EdgeStat κ)

structure Node (κ : Type*) where
  id : NodeID
  zones : FinMap String UInt64
  bytesIn : UInt64
  bytesOut : UInt64
  costIn : κ
  costOut : κ

/-- One observation; `trafficType` is the canonical string, zones may be empty. -/
structure EdgeRow (κ : Type*) where
  src : NodeID
  dst : NodeID
  srcZone : String
  dstZone : String
  trafficType : String
  bytes : UInt64
  connections : UInt64
  cost : κ

structure EdgeKey where
  src : NodeID
  dst : NodeID
  deriving DecidableEq, Repr

structure ServiceGraph (κ : Type*) where
  nodes : FinMap NodeID (Node κ)
  edges : FinMap EdgeKey (Edge κ)
  out : FinMap NodeID (List EdgeKey)
  inn : FinMap NodeID (List EdgeKey)

/-- `crossZoneCharged`: the traffic types that are charged for crossing zones. -/
def crossZoneCharged (t : String) : Bool :=
  t == TrafficType.crossAZ.string || t == TrafficType.crossRegion.string

section
variable {κ : Type*} [AddZero κ]

/-- `CrossZoneCost`: what crossing zones costs on the edge, over the types in some order. -/
def Edge.crossZoneCostIn (order : RangeOrder String) (e : Edge κ) : κ :=
  (e.byType.listed order).foldl (fun c t => if crossZoneCharged t.1 then c + t.2.cost else c) 0

/-- The same over the charged types, in whose order it makes no difference
(`crossZoneCostIn_eq`). -/
def Edge.crossZoneCost (e : Edge κ) : κ :=
  [TrafficType.crossAZ.string, TrafficType.crossRegion.string].foldl
    (fun c t => (e.byType.lookup t).elim c fun s => c + s.cost) 0

/-- What a row adds to its edge. -/
def Edge.addRow (e : Edge κ) (r : EdgeRow κ) : Edge κ :=
  { e with
    bytes := e.bytes + r.bytes
    connections := e.connections + r.connections
    cost := e.cost + r.cost
    byType :=
      if r.trafficType = "" then e.byType
      else
        let s := (e.byType.lookup r.trafficType).getD ⟨0, 0⟩
        e.byType.insert r.trafficType ⟨s.bytes + r.bytes, s.cost + r.cost⟩ }

/-- No more than two types are charged, so two orders differ in one addition. -/
theorem Edge.crossZoneCostIn_eq (hcomm : ∀ x y : κ, 0 + x + y = 0 + y + x)
    (order : RangeOrder String) (e : Edge κ) : e.crossZoneCostIn order = e.crossZoneCost := by
  set charged := (e.byType.listed order).filter fun t => crossZoneCharged t.1 with hcharged
  set types := [TrafficType.crossAZ.string, TrafficType.crossRegion.string].filterMap fun t =>
    (e.byType.lookup t).map fun s => (t, s) with htypes
  have hmem : ∀ t s, (t, s) ∈ charged ↔ (t, s) ∈ types := by
    intro t s
    rw [hcharged, htypes, List.mem_filter, FinMap.mem_listed, List.mem_filterMap, crossZoneCharged,
      Bool.or_eq_true, beq_iff_eq, beq_iff_eq]
    constructor
    · rintro ⟨hs, ht⟩
      exact ⟨t, by simpa using ht, by rw [hs]; rfl⟩
    · rintro ⟨t', ht', hs⟩
      obtain ⟨s', hs', heq⟩ := Option.map_eq_some_iff.mp hs
      cases heq
      exact ⟨hs', by simpa using ht'⟩
  have hnodup : types.Nodup := by
    refine List.Nodup.filterMap (fun t t' b hb hb' => ?_) (by decide)
    obtain ⟨s, -, rfl⟩ := Option.map_eq_some_iff.mp hb
    obtain ⟨s', -, heq⟩ := Option.map_eq_some_iff.mp hb'
    exact (congrArg Prod.fst heq).symm
  have hperm : charged.Perm types := (List.perm_ext_iff_of_nodup
    ((e.byType.nodup_listed order).filter _) hnodup).mpr fun ⟨t, s⟩ => hmem t s
  have hlength : types.length ≤ 2 := List.length_filterMap_le _ _
  have hrange : e.crossZoneCostIn order = charged.foldl (fun c t => c + t.2.cost) 0 := by
    rw [crossZoneCostIn, hcharged, List.foldl_filter]
  have hcost : e.crossZoneCost = types.foldl (fun c t => c + t.2.cost) 0 := by
    rw [htypes, List.foldl_filterMap, crossZoneCost]
    congr 1
    funext c t
    cases e.byType.lookup t <;> rfl
  rw [hrange, hcost]
  clear_value charged types
  match types, charged, hlength, hperm with
  | [], _, _, hperm => rw [List.perm_nil.mp hperm]
  | [t], _, _, hperm => rw [List.perm_singleton.mp hperm]
  | [t, t'], charged, _, hperm =>
    rcases List.perm_pair.mp hperm with rfl | rfl
    · rfl
    · exact hcomm _ _

end

/-- The bytes of a row in its zone, if it names one. -/
def Node.addZone {κ : Type*} (n : Node κ) (zone : String) (bytes : UInt64) : Node κ :=
  if zone = "" then n
  else { n with zones := n.zones.insert zone ((n.zones.lookup zone).getD 0 + bytes) }

def EdgeRow.key {κ : Type*} (r : EdgeRow κ) : EdgeKey := ⟨r.src, r.dst⟩

namespace ServiceGraph

variable {κ : Type*} [AddZero κ]

/-- `New`. -/
def new : ServiceGraph κ := ⟨∅, ∅, ∅, ∅⟩

/-- `node`: the graph with the node present. -/
def node (g : ServiceGraph κ) (id : NodeID) : ServiceGraph κ :=
  match g.nodes.lookup id with
  | some _ => g
  | none => { g with nodes := g.nodes.insert id ⟨id, ∅, 0, 0, 0, 0⟩ }

/-- The node part of `AddEdgeRow`.  Source and target may be one node. -/
def addTotals (g : ServiceGraph κ) (r : EdgeRow κ) : ServiceGraph κ :=
  let nodes := g.nodes.modify r.src fun n =>
    { n with bytesOut := n.bytesOut + r.bytes, costOut := n.costOut + r.cost }
  let nodes := nodes.modify r.dst fun n =>
    { n with bytesIn := n.bytesIn + r.bytes, costIn := n.costIn + r.cost }
  let nodes := nodes.modify r.src fun n => n.addZone r.srcZone r.bytes
  { g with nodes := nodes.modify r.dst fun n => n.addZone r.dstZone r.bytes }

/-- The edge part of `AddEdgeRow`: a new edge joins both adjacency lists. -/
def addEdge (g : ServiceGraph κ) (r : EdgeRow κ) : ServiceGraph κ :=
  match g.edges.lookup r.key with
  | some e => { g with edges := g.edges.insert r.key (e.addRow r) }
  | none =>
    { g with
      edges := g.edges.insert r.key ((⟨r.src, r.dst, 0, 0, 0, ∅⟩ : Edge κ).addRow r)
      out := g.out.insert r.src ((g.out.lookup r.src).getD [] ++ [r.key])
      inn := g.inn.insert r.dst ((g.inn.lookup r.dst).getD [] ++ [r.key]) }

/-- `AddEdgeRow`. -/
def addEdgeRow (g : ServiceGraph κ) (r : EdgeRow κ) : ServiceGraph κ :=
  (((g.node r.src).node r.dst).addTotals r).addEdge r

/-- `Build`. -/
def build (rows : List (EdgeRow κ)) : ServiceGraph κ := rows.foldl addEdgeRow new

/-- The keys of the edges that leave `id`. -/
def outKeys (g : ServiceGraph κ) (id : NodeID) : List EdgeKey := (g.out.lookup id).getD []

/-- The keys of the edges that enter `id`. -/
def inKeys (g : ServiceGraph κ) (id : NodeID) : List EdgeKey := (g.inn.lookup id).getD []

/-- The edges that enter `id`, as the source's list of pointers reads. -/
def inEdges (g : ServiceGraph κ) (id : NodeID) : List (Edge κ) :=
  (g.inKeys id).filterMap fun k => g.edges.lookup k

/-! ### Well-formed graphs -/

/-- The adjacency lists hold every edge once, at its ends, and the ends of an
edge are nodes. -/
structure WellFormed (g : ServiceGraph κ) : Prop where
  ends : ∀ {k e}, g.edges.lookup k = some e → e.src = k.src ∧ e.dst = k.dst
  nodes : ∀ {k}, k ∈ g.edges → k.src ∈ g.nodes ∧ k.dst ∈ g.nodes
  mem_out : ∀ {id k}, k ∈ g.outKeys id ↔ k ∈ g.edges ∧ k.src = id
  mem_inn : ∀ {id k}, k ∈ g.inKeys id ↔ k ∈ g.edges ∧ k.dst = id
  nodup_out : ∀ id, (g.outKeys id).Nodup
  nodup_inn : ∀ id, (g.inKeys id).Nodup

omit [AddZero κ] in
theorem wellFormed_new : (new : ServiceGraph κ).WellFormed where
  ends h := nomatch h
  nodes h := absurd h Finmap.notMem_empty
  mem_out := ⟨nofun, fun h => absurd h.1 Finmap.notMem_empty⟩
  mem_inn := ⟨nofun, fun h => absurd h.1 Finmap.notMem_empty⟩
  nodup_out _ := List.nodup_nil
  nodup_inn _ := List.nodup_nil

theorem mem_node {g : ServiceGraph κ} {id id' : NodeID} :
    id' ∈ (g.node id).nodes ↔ id' = id ∨ id' ∈ g.nodes := by
  rw [node]
  cases h : g.nodes.lookup id with
  | some n =>
    refine ⟨Or.inr, fun hmem => hmem.elim (fun heq => ?_) fun hm => hm⟩
    rw [heq]
    exact Finmap.mem_of_lookup_eq_some h
  | none => exact Finmap.mem_insert

theorem mem_addTotals {g : ServiceGraph κ} {r : EdgeRow κ} {id : NodeID} :
    id ∈ (g.addTotals r).nodes ↔ id ∈ g.nodes := by
  simp [addTotals]

/-- A new node touches neither the edges nor their lists. -/
theorem edges_node (g : ServiceGraph κ) (id : NodeID) :
    (g.node id).edges = g.edges ∧ (g.node id).out = g.out ∧ (g.node id).inn = g.inn := by
  rw [node]
  split <;> exact ⟨rfl, rfl, rfl⟩

/-- More nodes leave a graph well formed. -/
theorem WellFormed.node {g : ServiceGraph κ} (h : g.WellFormed) (id : NodeID) :
    (g.node id).WellFormed := by
  have hnodes : ∀ {id'}, id' ∈ g.nodes → id' ∈ (g.node id).nodes := fun hmem =>
    mem_node.mpr (Or.inr hmem)
  obtain ⟨hedges, hout, hinn⟩ := g.edges_node id
  have houtKeys : ∀ id', (g.node id).outKeys id' = g.outKeys id' := fun id' => by
    rw [outKeys, hout, outKeys]
  have hinKeys : ∀ id', (g.node id).inKeys id' = g.inKeys id' := fun id' => by
    rw [inKeys, hinn, inKeys]
  refine ⟨?_, ?_, ?_, ?_, ?_, ?_⟩
  · rw [hedges]
    exact h.ends
  · rw [hedges]
    exact fun hk => ⟨hnodes (h.nodes hk).1, hnodes (h.nodes hk).2⟩
  · intro id' k
    rw [houtKeys, hedges]
    exact h.mem_out
  · intro id' k
    rw [hinKeys, hedges]
    exact h.mem_inn
  · exact fun id' => houtKeys id' ▸ h.nodup_out id'
  · exact fun id' => hinKeys id' ▸ h.nodup_inn id'

theorem WellFormed.addTotals {g : ServiceGraph κ} (h : g.WellFormed) (r : EdgeRow κ) :
    (g.addTotals r).WellFormed where
  ends := h.ends
  nodes hk := ⟨mem_addTotals.mpr (h.nodes hk).1, mem_addTotals.mpr (h.nodes hk).2⟩
  mem_out := h.mem_out
  mem_inn := h.mem_inn
  nodup_out := h.nodup_out
  nodup_inn := h.nodup_inn

omit [AddZero κ] in
/-- A key that joins the list of one end is in the lists it belongs in. -/
theorem mem_join (p : EdgeKey → NodeID) (key : EdgeKey) {edges : FinMap EdgeKey (Edge κ)}
    {lists : FinMap NodeID (List EdgeKey)} {e : Edge κ}
    (h : ∀ {id k}, k ∈ (lists.lookup id).getD [] ↔ k ∈ edges ∧ p k = id) {id : NodeID}
    {k : EdgeKey} :
    k ∈ ((lists.insert (p key) ((lists.lookup (p key)).getD [] ++ [key])).lookup id).getD []
      ↔ k ∈ edges.insert key e ∧ p k = id := by
  rw [FinMap.lookup_insert_ite, Finmap.mem_insert]
  by_cases hid : id = p key
  · rw [if_pos hid, Option.getD_some, List.mem_append, h, List.mem_singleton, hid]
    constructor
    · rintro (⟨hk, hend⟩ | rfl)
      · exact ⟨Or.inr hk, hend⟩
      · exact ⟨Or.inl rfl, rfl⟩
    · rintro ⟨rfl | hk, hend⟩
      · exact Or.inr rfl
      · exact Or.inl ⟨hk, hend⟩
  · rw [if_neg hid, h]
    constructor
    · exact fun ⟨hk, hend⟩ => ⟨Or.inr hk, hend⟩
    · rintro ⟨rfl | hk, hend⟩
      · exact absurd hend.symm hid
      · exact ⟨hk, hend⟩

omit [AddZero κ] in
/-- A new key occurs once in the list it joins. -/
theorem nodup_join (p : EdgeKey → NodeID) {key : EdgeKey} {edges : FinMap EdgeKey (Edge κ)}
    {lists : FinMap NodeID (List EdgeKey)} (hkey : key ∉ edges)
    (h : ∀ {id k}, k ∈ (lists.lookup id).getD [] ↔ k ∈ edges ∧ p k = id)
    (hnodup : ∀ id, ((lists.lookup id).getD []).Nodup) (id : NodeID) :
    (((lists.insert (p key) ((lists.lookup (p key)).getD [] ++ [key])).lookup id).getD
      []).Nodup := by
  rw [FinMap.lookup_insert_ite]
  split_ifs
  · refine List.nodup_append.mpr ⟨hnodup _, List.nodup_singleton key, ?_⟩
    intro k hk k' hk' heq
    rw [List.mem_singleton.mp hk'] at heq
    exact hkey (heq ▸ (h.mp hk).1)
  · exact hnodup id

theorem WellFormed.addEdge {g : ServiceGraph κ} (h : g.WellFormed) {r : EdgeRow κ}
    (hsrc : r.src ∈ g.nodes) (hdst : r.dst ∈ g.nodes) : (g.addEdge r).WellFormed := by
  have hends : ∀ {e : Edge κ}, e.src = r.src ∧ e.dst = r.dst →
      ∀ {k e'}, (g.edges.insert r.key (e.addRow r)).lookup k = some e' →
        e'.src = k.src ∧ e'.dst = k.dst := by
    intro e he k e'
    exact FinMap.forall_lookup_insert (fun _ _ hk => h.ends hk) he k e'
  have hnodes : ∀ {e : Edge κ} {k}, k ∈ g.edges.insert r.key e →
      k.src ∈ g.nodes ∧ k.dst ∈ g.nodes := by
    intro e k hk
    rcases Finmap.mem_insert.mp hk with rfl | hk
    · exact ⟨hsrc, hdst⟩
    · exact h.nodes hk
  rw [ServiceGraph.addEdge]
  cases hlookup : g.edges.lookup r.key with
  | some e =>
    -- the edge is there and so is its key
    have hmem : ∀ {k}, k ∈ g.edges.insert r.key (e.addRow r) ↔ k ∈ g.edges :=
      FinMap.mem_insert_of_lookup hlookup _
    exact
      { ends := hends (h.ends hlookup)
        nodes := hnodes
        mem_out := h.mem_out.trans (and_congr_left' hmem.symm)
        mem_inn := h.mem_inn.trans (and_congr_left' hmem.symm)
        nodup_out := h.nodup_out
        nodup_inn := h.nodup_inn }
  | none =>
    -- a new edge joins the lists of both its ends
    have hkey : r.key ∉ g.edges := Finmap.lookup_eq_none.mp hlookup
    exact
      { ends := hends ⟨rfl, rfl⟩
        nodes := hnodes
        mem_out := mem_join EdgeKey.src r.key h.mem_out
        mem_inn := mem_join EdgeKey.dst r.key h.mem_inn
        nodup_out := nodup_join EdgeKey.src hkey h.mem_out h.nodup_out
        nodup_inn := nodup_join EdgeKey.dst hkey h.mem_inn h.nodup_inn }

theorem WellFormed.addEdgeRow {g : ServiceGraph κ} (h : g.WellFormed) (r : EdgeRow κ) :
    (g.addEdgeRow r).WellFormed := by
  refine (((h.node r.src).node r.dst).addTotals r).addEdge ?_ ?_
  · exact mem_addTotals.mpr (mem_node.mpr (Or.inr (mem_node.mpr (Or.inl rfl))))
  · exact mem_addTotals.mpr (mem_node.mpr (Or.inl rfl))

/-- **Every graph built from rows is well formed.** -/
theorem wellFormed_build (rows : List (EdgeRow κ)) : (build rows).WellFormed := by
  induction rows using List.reverseRecOn with
  | nil => exact wellFormed_new
  | append_singleton rows r ih =>
    rw [build, List.foldl_append, List.foldl_cons, List.foldl_nil]
    exact ih.addEdgeRow r

omit [AddZero κ] in
/-- The edges that enter a node. -/
theorem WellFormed.mem_inEdges {g : ServiceGraph κ} (h : g.WellFormed) {id : NodeID} {e : Edge κ} :
    e ∈ g.inEdges id ↔ ∃ k, g.edges.lookup k = some e ∧ e.dst = id := by
  rw [inEdges, List.mem_filterMap]
  refine exists_congr fun k => ?_
  constructor
  · rintro ⟨hk, he⟩
    exact ⟨he, (h.ends he).2.trans (h.mem_inn.mp hk).2⟩
  · rintro ⟨he, hdst⟩
    exact ⟨h.mem_inn.mpr ⟨Finmap.mem_of_lookup_eq_some he, (h.ends he).2.symm.trans hdst⟩, he⟩

end ServiceGraph
