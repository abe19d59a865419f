/-
The source of the service graph and its snapshots (`pkg/servicegraph/source.go`,
`snapshot.go`).

The graph is not built from the flows but from an aggregate over them, in whatever order
the database returns its groups, and is built again and again while flows come and go.

* `AnswersEdgeQuery` — what the aggregate query means;
* `AnswersEdgeQuery.build` — the graph of the aggregate is the graph of the flows;
* `Snapshotter.snapshot_exact` — after any run of refreshes, some of which fail, the served
  graph is that of the flows at the last refresh that succeeded.
-/
import Mathlib.Data.Int.Order.Basic
import Tollwing.GraphTotals
import Tollwing.History

/-! ### The aggregate query -/

/-- The columns that `edgeQuery` groups by. -/
structure RollupKey where
  cluster : String
  srcNamespace : String
  srcService : String
  dstNamespace : String
  dstService : String
  cloudService : String
  domain : String
  srcZone : String
  dstZone : String
  trafficType : String
  deriving DecidableEq, Repr

/-- A row of the `flows` table, as far as the query reads it. -/
structure FlowRow where
  timestamp : ℤ
  key : RollupKey
  txBytes : UInt64
  rxBytes : UInt64
  connections : UInt32
  costUSD : ℚ

/-- A row of the query's result. -/
structure RollupRow where
  key : RollupKey
  bytes : UInt64
  conns : UInt64
  cost : ℚ

/-- The query's condition; without a cluster there is no filter for it. -/
def FlowRow.selected (since : ℤ) (cluster : String) (f : FlowRow) : Bool :=
  decide (since ≤ f.timestamp) && decide (f.key.srcService ≠ "") &&
    decide (f.key.dstService ≠ "" ∨ f.key.cloudService ≠ "" ∨ f.key.domain ≠ "") &&
    decide (cluster = "" ∨ f.key.cluster = cluster)

/-- The rows of a group. -/
def groupOf (flows : List FlowRow) (key : RollupKey) : List FlowRow :=
  flows.filter fun f => f.key = key

/-- What SQL says of the result: one row for every group, with its sums, in any order. -/
structure AnswersEdgeQuery (flows : List FlowRow) (answer : List RollupRow) : Prop where
  nodup : (answer.map RollupRow.key).Nodup
  mem : ∀ key, (∃ r ∈ answer, r.key = key) ↔ ∃ f ∈ flows, f.key = key
  bytes : ∀ r ∈ answer, r.bytes = ((groupOf flows r.key).map fun f => f.txBytes + f.rxBytes).sum
  conns : ∀ r ∈ answer, r.conns = ((groupOf flows r.key).map fun f => f.connections.toUInt64).sum
  cost : ∀ r ∈ answer, r.cost = ((groupOf flows r.key).map FlowRow.costUSD).sum

/-! ### Edges -/

/-- `dstNode`: the service that was dialed, else the cloud service, else the domain. -/
def dstNode (cluster dstNS dstSvc cloudSvc domain : String) : NodeID :=
  if dstSvc ≠ "" then ⟨cluster, dstNS, dstSvc, .kindService⟩
  else if cloudSvc ≠ "" then ⟨cluster, "", cloudSvc, .kindExternal⟩
  else ⟨cluster, "", domain, .kindExternal⟩

/-- The edge row that `Edges` makes of a result row. -/
def RollupRow.edgeRow (r : RollupRow) : EdgeRow ℚ where
  src := ⟨r.key.cluster, r.key.srcNamespace, r.key.srcService, .kindService⟩
  dst := dstNode r.key.cluster r.key.dstNamespace r.key.dstService r.key.cloudService r.key.domain
  srcZone := r.key.srcZone
  dstZone := r.key.dstZone
  trafficType := r.key.trafficType
  bytes := r.bytes
  connections := r.conns
  cost := r.cost

inductive EdgesError
  | dbNil
  | queryFlows
  | scan
  | rows
  deriving DecidableEq, Repr

/-- What the database answers: nothing, or rows of which some may not scan, and perhaps an
error after them. -/
inductive QueryAnswer
  | failed
  | rows (rows : List (Option RollupRow)) (err : Bool)

structure ClickHouseEdgeSource where
  /-- `DB` is set. -/
  db : Bool
  cluster : String

/-- `Edges`, given what the database answers. -/
def ClickHouseEdgeSource.edges (c : ClickHouseEdgeSource) :
    QueryAnswer → Except EdgesError (List (EdgeRow ℚ))
  | .failed => if c.db then .error .queryFlows else .error .dbNil
  | .rows rows err =>
    if c.db then
      match rows.mapM id with
      | none => .error .scan
      | some out => if err then .error .rows else .ok (out.map RollupRow.edgeRow)
    else .error .dbNil

/-! ### The graph of an aggregate -/

/-- What edge rows add up over. -/
structure EdgeParts where
  src : NodeID
  dst : NodeID
  srcZone : String
  dstZone : String
  trafficType : String
  deriving DecidableEq

namespace EdgeRow

def parts (r : EdgeRow ℚ) : EdgeParts := ⟨r.src, r.dst, r.srcZone, r.dstZone, r.trafficType⟩

/-- The row as a keyed amount. -/
def entry (r : EdgeRow ℚ) : EdgeParts × (UInt64 × UInt64 × ℚ) :=
  (r.parts, (r.bytes, r.connections, r.cost))

end EdgeRow

/-- What a flow would be as a group of its own. -/
def FlowRow.edgeRow (f : FlowRow) : EdgeRow ℚ :=
  RollupRow.edgeRow ⟨f.key, f.txBytes + f.rxBytes, f.connections.toUInt64, f.costUSD⟩

namespace ServiceGraph

variable {rows rows' : List (EdgeRow ℚ)}

open KeyedFold

/-- Amounts add up part by part. -/
theorem sum_amounts {α : Type} (bytes conns : α → UInt64) (cost : α → ℚ) (l : List α) :
    (l.map fun a => (bytes a, conns a, cost a)).sum
      = ((l.map bytes).sum, (l.map conns).sum, (l.map cost).sum) := by
  induction l with
  | nil => rfl
  | cons a l ih =>
    rw [List.map_cons, List.sum_cons, ih]
    rfl

/-- The amounts of the rows that some of the parts single out. -/
theorem sum_entries (rows : List (EdgeRow ℚ)) (p : EdgeParts → Bool) :
    (((rows.map EdgeRow.entry).filter fun e => p e.1).map Prod.snd).sum
      = (((rows.filter fun r => p r.parts).map EdgeRow.bytes).sum,
          ((rows.filter fun r => p r.parts).map EdgeRow.connections).sum,
          ((rows.filter fun r => p r.parts).map EdgeRow.cost).sum) := by
  rw [List.filter_map, List.map_map]
  exact sum_amounts _ _ _ _

/-- Rows that are the same totals. -/
def SameRows (rows rows' : List (EdgeRow ℚ)) : Prop :=
  SameTotals (rows.map EdgeRow.entry) (rows'.map EdgeRow.entry)

section

variable (h : SameRows rows rows') (p : EdgeParts → Bool)
include h

theorem SameRows.sums : (((rows.filter fun r => p r.parts).map EdgeRow.bytes).sum,
      ((rows.filter fun r => p r.parts).map EdgeRow.connections).sum,
      ((rows.filter fun r => p r.parts).map EdgeRow.cost).sum)
    = (((rows'.filter fun r => p r.parts).map EdgeRow.bytes).sum,
      ((rows'.filter fun r => p r.parts).map EdgeRow.connections).sum,
      ((rows'.filter fun r => p r.parts).map EdgeRow.cost).sum) := by
  rw [← sum_entries, ← sum_entries]
  exact SameTotals.sum_filter h p

theorem SameRows.bytes : ((rows.filter fun r => p r.parts).map EdgeRow.bytes).sum
    = ((rows'.filter fun r => p r.parts).map EdgeRow.bytes).sum :=
  congrArg Prod.fst (h.sums p)

theorem SameRows.connections : ((rows.filter fun r => p r.parts).map EdgeRow.connections).sum
    = ((rows'.filter fun r => p r.parts).map EdgeRow.connections).sum :=
  congrArg (fun sums => sums.2.1) (h.sums p)

theorem SameRows.cost : ((rows.filter fun r => p r.parts).map EdgeRow.cost).sum
    = ((rows'.filter fun r => p r.parts).map EdgeRow.cost).sum :=
  congrArg (fun sums => sums.2.2) (h.sums p)

theorem SameRows.filter_eq_nil_iff :
    (rows.filter fun r => p r.parts) = [] ↔ (rows'.filter fun r => p r.parts) = [] := by
  have hnil := SameTotals.filter_eq_nil_iff h p
  rw [List.filter_map, List.filter_map, List.map_eq_nil_iff, List.map_eq_nil_iff] at hnil
  exact hnil

end

/-- An edge is made of the totals of its rows. -/
theorem SameRows.edgeOf (h : SameRows rows rows') (k : EdgeKey) :
    edgeOf k (rowsOf rows k) = edgeOf k (rowsOf rows' k) := by
  let pair : EdgeParts → EdgeKey := fun q => ⟨q.src, q.dst⟩
  refine Edge.ext ?_ ?_ ?_ ?_ ?_ (Finmap.ext_lookup fun t => ?_)
  · exact (const_foldl (π := Edge.src) (f := Edge.addRow) (fun _ _ => rfl) _ _).trans
      (const_foldl (π := Edge.src) (f := Edge.addRow) (fun _ _ => rfl) _ _).symm
  · exact (const_foldl (π := Edge.dst) (f := Edge.addRow) (fun _ _ => rfl) _ _).trans
      (const_foldl (π := Edge.dst) (f := Edge.addRow) (fun _ _ => rfl) _ _).symm
  · rw [edgeOf_bytes, edgeOf_bytes]
    exact h.bytes fun q => pair q = k
  · rw [edgeOf_connections, edgeOf_connections]
    exact h.connections fun q => pair q = k
  · rw [edgeOf_cost, edgeOf_cost, addUp_eq_sum, addUp_eq_sum]
    exact h.cost fun q => pair q = k
  · let typed : EdgeParts → Bool := fun q => decide (q.trafficType = t) && decide (pair q = k)
    have htyped : ∀ rows : List (EdgeRow ℚ), (rowsOf rows k).filter (fun r => r.trafficType = t)
        = rows.filter fun r => typed r.parts := fun rows => List.filter_filter
    simp only [lookup_byType, htyped, addUp_eq_sum, h.bytes typed, h.cost typed,
      h.filter_eq_nil_iff typed]

/-! The zones of a node, by the end at which it is named. -/

def sentFrom (id : NodeID) (z : String) (q : EdgeParts) : Bool :=
  decide (q.src = id) && decide (q.srcZone = z) && decide (z ≠ "")

def receivedIn (id : NodeID) (z : String) (q : EdgeParts) : Bool :=
  decide (q.dst = id) && decide (q.dstZone = z) && decide (z ≠ "")

theorem filter_zoneRow (id : NodeID) (z : String) (r : EdgeRow ℚ) :
    (Node.zoneRow id r).filter (fun b => b.1 = z)
      = (if sentFrom id z r.parts then [(z, r.bytes)] else [])
        ++ if receivedIn id z r.parts then [(z, r.bytes)] else [] := by
  have hzoned : ∀ (zone : String) (c : Prop) [Decidable c],
      (if c then Node.zoned zone r.bytes else []).filter (fun b => b.1 = z)
        = if decide c && decide (zone = z) && decide (z ≠ "") then [(z, r.bytes)] else [] := by
    intro zone c _
    rw [Node.zoned]
    by_cases hc : c
    · by_cases hz : zone = z
      · subst hz
        by_cases hempty : zone = "" <;> simp [hc, hempty]
      · by_cases hempty : zone = "" <;> simp [hc, hz, hempty]
    · simp [hc]
  rw [Node.zoneRow, List.filter_append, hzoned, hzoned]
  rfl

/-- What is booked in a zone of a node. -/
theorem sum_zones (id : NodeID) (z : String) (rows : List (EdgeRow ℚ)) :
    (((rows.flatMap (Node.zoneRow id)).filter fun b => b.1 = z).map Prod.snd).sum
        = ((rows.filter fun r => sentFrom id z r.parts).map EdgeRow.bytes).sum
          + ((rows.filter fun r => receivedIn id z r.parts).map EdgeRow.bytes).sum ∧
      (((rows.flatMap (Node.zoneRow id)).filter fun b => b.1 = z) = []
        ↔ (rows.filter fun r => sentFrom id z r.parts) = [] ∧
          (rows.filter fun r => receivedIn id z r.parts) = []) := by
  induction rows with
  | nil => exact ⟨(add_zero _).symm, by simp⟩
  | cons r rows ih =>
    rw [List.flatMap_cons, List.filter_append, filter_zoneRow, List.filter_cons, List.filter_cons,
      List.map_append, List.sum_append, ih.1, List.append_eq_nil_iff, ih.2]
    by_cases hsent : sentFrom id z r.parts = true <;>
      by_cases hreceived : receivedIn id z r.parts = true
    · simp [hsent, hreceived, add_add_add_comm]
    · simp [hsent, hreceived, add_assoc]
    · simp [hsent, hreceived, add_left_comm]
    · simp [hsent, hreceived]

/-- A node is made of the totals of the rows that name it. -/
theorem SameRows.nodeOf (h : SameRows rows rows') (id : NodeID) :
    nodeOf id (rowsAt rows id) = nodeOf id (rowsAt rows' id) := by
  refine Node.ext ?_ (Finmap.ext_lookup fun z => ?_) ?_ ?_ ?_ ?_
  · exact (const_foldl (π := Node.id) (f := Node.addRow id) (fun _ _ => rfl) _ _).trans
      (const_foldl (π := Node.id) (f := Node.addRow id) (fun _ _ => rfl) _ _).symm
  · -- the other rows book nothing at the node
    have hrows : ∀ rows : List (EdgeRow ℚ), (rowsAt rows id).flatMap (Node.zoneRow id)
        = rows.flatMap (Node.zoneRow id) := by
      intro rows
      induction rows with
      | nil => rfl
      | cons r rows ih =>
        rw [rowsAt] at ih
        rw [rowsAt, List.filter_cons, List.flatMap_cons]
        by_cases hat : r.src = id ∨ r.dst = id
        · rw [if_pos (decide_eq_true hat), List.flatMap_cons, ih]
        · rw [if_neg (mt of_decide_eq_true hat), ih, Node.zoneRow, if_neg (mt Or.inl hat),
            if_neg (mt Or.inr hat)]
          rfl
    rw [lookup_zones, lookup_zones, hrows, hrows, (sum_zones id z rows).1, (sum_zones id z rows').1,
      h.bytes, h.bytes]
    simp only [(sum_zones id z rows).2, (sum_zones id z rows').2, h.filter_eq_nil_iff]
  · rw [nodeOf_total (π := Node.bytesIn) (e := EdgeRow.dst) rfl (fun _ _ => rfl) fun _ => Or.inr,
      nodeOf_total (π := Node.bytesIn) (e := EdgeRow.dst) rfl (fun _ _ => rfl) fun _ => Or.inr]
    exact h.bytes fun q => q.dst = id
  · rw [nodeOf_total (π := Node.bytesOut) (e := EdgeRow.src) rfl (fun _ _ => rfl) fun _ => Or.inl,
      nodeOf_total (π := Node.bytesOut) (e := EdgeRow.src) rfl (fun _ _ => rfl) fun _ => Or.inl]
    exact h.bytes fun q => q.src = id
  · rw [nodeOf_cost (π := Node.costIn) (e := EdgeRow.dst) rfl (fun _ _ => rfl) fun _ => Or.inr,
      nodeOf_cost (π := Node.costIn) (e := EdgeRow.dst) rfl (fun _ _ => rfl) fun _ => Or.inr,
      addUp_eq_sum, addUp_eq_sum]
    exact h.cost fun q => q.dst = id
  · rw [nodeOf_cost (π := Node.costOut) (e := EdgeRow.src) rfl (fun _ _ => rfl) fun _ => Or.inl,
      nodeOf_cost (π := Node.costOut) (e := EdgeRow.src) rfl (fun _ _ => rfl) fun _ => Or.inl,
      addUp_eq_sum, addUp_eq_sum]
    exact h.cost fun q => q.src = id

/-- **The graph is made of totals**: rows with the same totals build the same graph. -/
theorem SameRows.build (h : SameRows rows rows') : SameUpToOrder (build rows) (build rows') := by
  refine sameUpToOrder_build (Finmap.ext_lookup fun id => ?_) (Finmap.ext_lookup fun k => ?_)
  · rw [lookup_nodes_build, lookup_nodes_build, h.nodeOf]
    have hnil := h.filter_eq_nil_iff fun q => decide (q.src = id ∨ q.dst = id)
    exact if_congr hnil rfl rfl
  · rw [lookup_edges_build, lookup_edges_build, h.edgeOf]
    have hnil := h.filter_eq_nil_iff fun q => decide ((⟨q.src, q.dst⟩ : EdgeKey) = k)
    exact if_congr hnil rfl rfl

end ServiceGraph

/-! ### The graph of the flows -/

/-- What an edge row has of a result row's key. -/
def RollupKey.parts (key : RollupKey) : EdgeParts where
  src := ⟨key.cluster, key.srcNamespace, key.srcService, .kindService⟩
  dst := dstNode key.cluster key.dstNamespace key.dstService key.cloudService key.domain
  srcZone := key.srcZone
  dstZone := key.dstZone
  trafficType := key.trafficType

def FlowRow.amounts (f : FlowRow) : UInt64 × UInt64 × ℚ :=
  (f.txBytes + f.rxBytes, f.connections.toUInt64, f.costUSD)

def RollupRow.amounts (r : RollupRow) : UInt64 × UInt64 × ℚ := (r.bytes, r.conns, r.cost)

namespace AnswersEdgeQuery

variable {flows : List FlowRow} {answer : List RollupRow}

/-- It has at most one row for a key. -/
theorem length_filter_le (h : AnswersEdgeQuery flows answer) (key : RollupKey) :
    (answer.filter fun r => r.key = key).length ≤ 1 := by
  have hcount := List.nodup_iff_count_le_one.mp h.nodup key
  rw [List.count, List.countP_map, List.countP_eq_length_filter] at hcount
  refine le_of_eq_of_le (congrArg List.length ?_) hcount
  exact List.filter_congr fun r _ => (Bool.beq_eq_decide_eq r.key key).symm

/-- The result has the totals of the flows. -/
theorem sameTotals (h : AnswersEdgeQuery flows answer) :
    KeyedFold.SameTotals (answer.map fun r => (r.key, r.amounts))
      (flows.map fun f => (f.key, f.amounts)) := by
  constructor
  · intro key
    have hmem := h.mem key
    simpa using hmem
  · intro key
    rw [List.filter_map, List.filter_map, List.map_map, List.map_map]
    show ((answer.filter fun r => r.key = key).map RollupRow.amounts).sum
      = ((groupOf flows key).map FlowRow.amounts).sum
    have hlength := h.length_filter_le key
    cases hrows : answer.filter fun r => r.key = key with
    | nil =>
      have hgroup : groupOf flows key = [] := by
        refine List.filter_eq_nil_iff.mpr fun f hf hkey => ?_
        obtain ⟨r, hr, hrkey⟩ := (h.mem key).mpr ⟨f, hf, of_decide_eq_true hkey⟩
        exact List.filter_eq_nil_iff.mp hrows r hr (decide_eq_true hrkey)
      rw [hgroup]
      rfl
    | cons r rest =>
      have hr : r ∈ answer.filter fun r => r.key = key := hrows ▸ List.mem_cons_self
      obtain ⟨hr, hkey⟩ := List.mem_filter.mp hr
      have hkey := of_decide_eq_true hkey
      obtain rfl : rest = [] := by
        rw [hrows, List.length_cons] at hlength
        exact List.length_eq_zero_iff.mp (by omega)
      rw [List.map_singleton, List.sum_singleton, RollupRow.amounts, h.bytes r hr, h.conns r hr,
        h.cost r hr, hkey]
      exact (ServiceGraph.sum_amounts _ _ _ _).symm

/-- **The graph of the result is the graph of the flows.** -/
theorem build (h : AnswersEdgeQuery flows answer) :
    ServiceGraph.SameUpToOrder (.build (answer.map RollupRow.edgeRow))
      (.build (flows.map FlowRow.edgeRow)) := by
  refine ServiceGraph.SameRows.build ?_
  have hparts := h.sameTotals.map RollupKey.parts
  rw [List.map_map, List.map_map] at hparts
  rw [ServiceGraph.SameRows, List.map_map, List.map_map]
  exact hparts

end AnswersEdgeQuery

/-! ### Snapshots -/

/-- `SnapshotConfig`, in nanoseconds. -/
structure SnapshotConfig where
  window : ℤ
  interval : ℤ
  deriving DecidableEq, Repr

/-- `setDefaults`: over an hour, every five minutes. -/
def SnapshotConfig.setDefaults (c : SnapshotConfig) : SnapshotConfig where
  window := if c.window ≤ 0 then 3600000000000 else c.window
  interval := if c.interval ≤ 0 then 300000000000 else c.interval

/-- A built graph, with when it was built and over what window. -/
structure Snapshot where
  graph : ServiceGraph ℚ
  snapshotAt : ℤ
  window : ℤ

structure Snapshotter where
  src : ClickHouseEdgeSource
  cfg : SnapshotConfig
  current : Option Snapshot

namespace Snapshotter

/-- `NewSnapshotter`. -/
def new (src : ClickHouseEdgeSource) (cfg : SnapshotConfig) : Snapshotter :=
  ⟨src, cfg.setDefaults, none⟩

/-- `Refresh`, given what the database answers and the time of the build. -/
def refresh (s : Snapshotter) (answer : QueryAnswer) (now : ℤ) :
    Snapshotter × Except EdgesError Snapshot :=
  match s.src.edges answer with
  | .error err => (s, .error err)
  | .ok rows =>
    let g : Snapshot := ⟨.build rows, now, s.cfg.window⟩
    ({ s with current := some g }, .ok g)

end Snapshotter

/-- The `flows` table and the snapshotter that reads it. -/
structure GraphService where
  flows : List FlowRow
  snapshotter : Snapshotter

/-- The table is written, or the graph is refreshed: by a query at one time, with its
answer, and a build at another. -/
inductive GraphStep
  | write (flows : List FlowRow)
  | refresh (queriedAt : ℤ) (answer : QueryAnswer) (builtAt : ℤ)

namespace GraphService

/-- No graph has been built. -/
def start (flows : List FlowRow) (src : ClickHouseEdgeSource) (cfg : SnapshotConfig) :
    GraphService := ⟨flows, .new src cfg⟩

def step (s : GraphService) : GraphStep → GraphService
  | .write flows => { s with flows := flows }
  | .refresh _ answer builtAt =>
    { s with snapshotter := (s.snapshotter.refresh answer builtAt).1 }

/-- The flows that a query finds. -/
def found (s : GraphService) (queriedAt : ℤ) : List FlowRow :=
  s.flows.filter (FlowRow.selected (queriedAt - s.snapshotter.cfg.window)
    s.snapshotter.src.cluster)

/-- The database answers the query, if its answer is complete. -/
def Honest (s : GraphService) : GraphStep → Prop
  | .write _ => True
  | .refresh queriedAt answer _ => ∀ rows, answer = .rows (rows.map some) false →
    AnswersEdgeQuery (s.found queriedAt) rows

end GraphService

/-- A refresh that builds a graph. -/
def GraphStep.succeeds (src : ClickHouseEdgeSource) : GraphStep → Bool
  | .write _ => false
  | .refresh _ answer _ => (src.edges answer).isOk

namespace Snapshotter

theorem mapM_id_eq_some {α : Type} {xs : List (Option α)} {ys : List α} :
    xs.mapM id = some ys ↔ xs = ys.map some := by
  induction xs generalizing ys with
  | nil =>
    cases ys with
    | nil => simp
    | cons y ys => simp
  | cons x xs ih =>
    rw [List.mapM_cons]
    cases x with
    | none => cases ys <;> simp
    | some x =>
      cases ys with
      | nil => simp [Option.bind_eq_some_iff]
      | cons y ys => simp [← ih, Option.bind_eq_some_iff, and_comm]

/-- Only a complete answer becomes edge rows. -/
theorem edges_eq_ok_iff {src : ClickHouseEdgeSource} {answer : QueryAnswer}
    {edges : List (EdgeRow ℚ)} : src.edges answer = .ok edges ↔ src.db = true ∧
      ∃ rows : List RollupRow, answer = .rows (rows.map some) false ∧
        edges = rows.map RollupRow.edgeRow := by
  cases hdb : src.db with
  | false => cases answer <;> simp [ClickHouseEdgeSource.edges, hdb]
  | true =>
    cases answer with
    | failed => simp [ClickHouseEdgeSource.edges, hdb]
    | rows rows err =>
      rw [ClickHouseEdgeSource.edges, hdb, if_pos rfl]
      cases hscan : rows.mapM id with
      | none =>
        simp only [reduceCtorEq, true_and, false_iff]
        rintro ⟨rows', hrows, -⟩
        cases hrows
        rw [mapM_id_eq_some.mpr rfl] at hscan
        cases hscan
      | some out =>
        obtain rfl := mapM_id_eq_some.mp hscan
        cases err with
        | true => simp
        | false =>
          simp only [Bool.false_eq_true, if_false, Except.ok.injEq, true_and,
            QueryAnswer.rows.injEq, and_true]
          constructor
          · rintro rfl
            exact ⟨out, rfl, rfl⟩
          · rintro ⟨rows, hrows, rfl⟩
            rw [List.map_injective_iff.mpr (Option.some_injective _) hrows]

/-- A step leaves the configuration alone, and the snapshot unless it builds one. -/
theorem step_cases (s : GraphService) (e : GraphStep) :
    (s.step e).snapshotter.src = s.snapshotter.src ∧
      (s.step e).snapshotter.cfg = s.snapshotter.cfg ∧
      (e.succeeds s.snapshotter.src = false ∧
          (s.step e).snapshotter.current = s.snapshotter.current ∨
        e.succeeds s.snapshotter.src = true ∧ ∃ queriedAt builtAt, ∃ rows : List RollupRow,
          e = .refresh queriedAt (.rows (rows.map some) false) builtAt ∧
          (s.step e).snapshotter.current = some
            ⟨.build (rows.map RollupRow.edgeRow), builtAt, s.snapshotter.cfg.window⟩) := by
  cases e with
  | write flows => exact ⟨rfl, rfl, Or.inl ⟨rfl, rfl⟩⟩
  | refresh queriedAt answer builtAt =>
    rw [GraphService.step, refresh, GraphStep.succeeds]
    cases hedges : s.snapshotter.src.edges answer with
    | error err => exact ⟨rfl, rfl, Or.inl ⟨rfl, rfl⟩⟩
    | ok edges =>
      obtain ⟨-, rows, rfl, rfl⟩ := edges_eq_ok_iff.mp hedges
      exact ⟨rfl, rfl, Or.inr ⟨rfl, queriedAt, builtAt, rows, rfl, rfl⟩⟩

theorem foldl_config (s : GraphService) (steps : List GraphStep) :
    (steps.foldl GraphService.step s).snapshotter.src = s.snapshotter.src ∧
      (steps.foldl GraphService.step s).snapshotter.cfg = s.snapshotter.cfg :=
  ⟨KeyedFold.const_foldl (π := fun s : GraphService => s.snapshotter.src)
      (fun s e => (step_cases s e).1) s steps,
    KeyedFold.const_foldl (π := fun s : GraphService => s.snapshotter.cfg)
      (fun s e => (step_cases s e).2.1) s steps⟩

/-- **The served graph is that of the flows.**  After any run of writes and refreshes there
is a graph exactly if a refresh succeeded, and it is, up to the order of its lists, the
graph of every single flow that the last such refresh found; refreshes that fail later, for
whatever reason, leave it alone. -/
theorem snapshot_exact (flows : List FlowRow) (src : ClickHouseEdgeSource) (cfg : SnapshotConfig)
    (steps : List GraphStep)
    (hhonest : History.Along GraphService.step GraphService.Honest (.start flows src cfg) steps) :
    let at' := fun steps : List GraphStep => steps.foldl GraphService.step (.start flows src cfg)
    ((at' steps).snapshotter.current = none ↔ ∀ e ∈ steps, e.succeeds src = false) ∧
      ∀ snap, (at' steps).snapshotter.current = some snap →
        ∃ before queriedAt answer after,
          steps = before ++ .refresh queriedAt answer snap.snapshotAt :: after ∧
          (∀ e ∈ after, e.succeeds src = false) ∧ snap.window = cfg.setDefaults.window ∧
          snap.graph.SameUpToOrder
            (.build (((at' before).found queriedAt).map FlowRow.edgeRow)) := by
  intro at'
  induction steps using List.reverseRecOn with
  | nil => exact ⟨⟨fun _ _ he => absurd he List.not_mem_nil, fun _ => rfl⟩, nofun⟩
  | append_singleton steps e ih =>
    obtain ⟨hbefore, hlast, -⟩ := History.along_append.mp hhonest
    obtain ⟨hnone, hsome⟩ := ih hbefore
    obtain ⟨hsrc, hcfg⟩ := foldl_config (.start flows src cfg) steps
    have hstep : at' (steps ++ [e]) = (at' steps).step e := List.foldl_concat _ _ _ _
    have hsucceeds : (∀ e' ∈ steps ++ [e], e'.succeeds src = false)
        ↔ (∀ e' ∈ steps, e'.succeeds src = false) ∧ e.succeeds src = false := by
      rw [List.forall_mem_append, List.forall_mem_singleton]
    rw [hstep, hsucceeds]
    obtain ⟨-, -, hcases⟩ := step_cases (at' steps) e
    rw [show (at' steps).snapshotter.src = src from hsrc,
      show (at' steps).snapshotter.cfg = cfg.setDefaults from hcfg] at hcases
    rcases hcases with ⟨hfails, hkept⟩ | ⟨hdone, queriedAt, builtAt, rows, rfl, hbuilt⟩
    · rw [hkept, hnone]
      refine ⟨(and_iff_left hfails).symm, fun snap hsnap => ?_⟩
      obtain ⟨before, queriedAt, answer, after, rfl, hafter, hgraph⟩ := hsome snap hsnap
      refine ⟨before, queriedAt, answer, after ++ [e], ?_, ?_, hgraph⟩
      · rw [List.append_assoc, List.cons_append]
      · exact List.forall_mem_append.mpr ⟨hafter, List.forall_mem_singleton.mpr hfails⟩
    · rw [hbuilt]
      refine ⟨⟨nofun, fun h => absurd (h.2.symm.trans hdone) Bool.false_ne_true⟩, ?_⟩
      rintro snap ⟨⟩
      refine ⟨steps, queriedAt, _, [], rfl, fun e he => absurd he List.not_mem_nil, rfl, ?_⟩
      exact (hlast rows rfl).build

/-- Two flows of one group, and what the database makes of them. -/
def shopFlows : List FlowRow :=
  let key : RollupKey := ⟨"c", "p", "web", "p", "db", "", "", "z1", "z2", "cross_az"⟩
  [⟨0, key, 100, 20, 1, 3⟩, ⟨5, key, 40, 0, 2, 1⟩]

def shopAnswer : List RollupRow :=
  [⟨⟨"c", "p", "web", "p", "db", "", "", "z1", "z2", "cross_az"⟩, 160, 3, 4⟩]

theorem answers_shop : AnswersEdgeQuery shopFlows shopAnswer where
  nodup := List.nodup_singleton _
  mem key := by simp [shopFlows, shopAnswer]
  bytes := by decide
  conns := by decide
  cost := by decide +kernel

/-- A refresh, and one that fails. -/
theorem snapshot_exact_shop :
    ∃ snap, (GraphService.step (GraphService.step (.start shopFlows ⟨true, ""⟩ ⟨0, 0⟩)
        (.refresh 10 (.rows (shopAnswer.map some) false) 11))
        (.refresh 20 .failed 21)).snapshotter.current = some snap ∧
      snap.graph.SameUpToOrder (.build (shopFlows.map FlowRow.edgeRow)) := by
  have hhonest : History.Along GraphService.step GraphService.Honest
      (.start shopFlows ⟨true, ""⟩ ⟨0, 0⟩)
      [.refresh 10 (.rows (shopAnswer.map some) false) 11, .refresh 20 .failed 21] := by
    refine ⟨fun rows hrows => ?_, nofun, trivial⟩
    obtain rfl : shopAnswer = rows := by
      injection hrows with hrows
      exact List.map_injective_iff.mpr (Option.some_injective _) hrows
    exact answers_shop
  obtain ⟨-, hsome⟩ := snapshot_exact shopFlows ⟨true, ""⟩ ⟨0, 0⟩ _ hhonest
  obtain ⟨before, queriedAt, answer, after, hsteps, -, -, hgraph⟩ := hsome _ rfl
  refine ⟨_, rfl, ?_⟩
  -- the graph was built by the first of the two refreshes
  rcases before with _ | ⟨e, _ | ⟨e', before⟩⟩
  · obtain ⟨hfirst, -⟩ := List.cons.inj hsteps
    injection hfirst with hqueried
    rw [← hqueried] at hgraph
    exact hgraph
  · simp at hsteps
  · simp at hsteps

end Snapshotter
