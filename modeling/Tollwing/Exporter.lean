/-
The metrics of the Prometheus exporter (`pkg/exporter/prometheus.go`).

`updateFromPoll` adds the classified flows of a poll to the counters by traffic
type and by pod.  The pods are kept in a table of bounded size beside a ring of
their keys.  Dollars are of a type `κ` with an addition: floats as in the source, or
rationals where amounts are taken as exact.

* `MetricsState.pods_foldl_updateFromPoll` — the pod tables after a sequence of
  polls are those after its flows, one by one;
* `MetricsState.txByType_updateFromPoll`, `MetricsState.txByType_foldl_updateFromPoll`
  and their like — a counter grows by the total of the flows that count for it.
-/
import Mathlib.Algebra.Order.Ring.Rat
import Mathlib.Data.UInt
import Tollwing.KeyedFold
import Tollwing.SlotRing

/-- `podKey`. -/
structure PodKey where
  ns : String
  pod : String
  deriving DecidableEq, Repr

/-- `podMetrics`. -/
structure PodMetrics where
  txBytes : UInt64 := 0
  rxBytes : UInt64 := 0
  deriving DecidableEq, Repr

/-- `ClassifiedFlow`: a flow with its traffic type as the agent's integer, its cost
and what it was enriched with. -/
structure ClassifiedFlow (κ : Type*) where
  trafficType : ℤ
  txBytes : UInt64
  rxBytes : UInt64
  retransmitBytes : UInt64 := 0
  retransmitCount : UInt64 := 0
  costUSD : κ
  ns : String := ""
  pod : String := ""
  isSidecar : Bool := false
  srcZone : String := ""
  srcService : String := ""
  dstNamespace : String := ""
  dstPod : String := ""
  dstService : String := ""
  dstZone : String := ""
  resolvedDomain : String := ""
  cloudService : String := ""
  deriving DecidableEq

def numTrafficTypes : ℕ := 12

/-- The most pods tracked. -/
def maxPodMetrics : ℕ := 1000

section
variable {κ : Type*}

/-- The index of the counters of a flow's type; one that is out of range counts as
unknown. -/
def ClassifiedFlow.typeIndex (f : ClassifiedFlow κ) : Fin numTrafficTypes :=
  if h : 0 ≤ f.trafficType ∧ f.trafficType < numTrafficTypes then ⟨f.trafficType.toNat, by omega⟩
  else ⟨0, by decide⟩

/-- The pod whose counters a flow updates. -/
def ClassifiedFlow.podKey (f : ClassifiedFlow κ) : Option PodKey :=
  if f.isSidecar = false ∧ f.ns ≠ "" ∧ f.pod ≠ "" then some ⟨f.ns, f.pod⟩ else none

/-- Dollars that a flow is added to, if it costs anything. -/
def ClassifiedFlow.addUSD [AddZero κ] [LT κ] [DecidableLT κ] (f : ClassifiedFlow κ) (usd : κ) : κ :=
  if 0 < f.costUSD then usd + f.costUSD else usd

end

/-! ### The pods -/

/-- The per-pod part of the state: `podMetrics`, `podRing` with its position, and
`podCost`. -/
structure PodTables (κ : Type*) where
  metrics : FinMap PodKey PodMetrics
  ring : SlotRing PodKey
  cost : FinMap PodKey κ

namespace PodTables

variable {κ : Type*}

def new : PodTables κ := ⟨∅, .new ⟨"", ""⟩ maxPodMetrics (by decide), ∅⟩

/-- A full table loses the pod in the oldest slot. -/
def evict (t : PodTables κ) : PodTables κ :=
  if maxPodMetrics ≤ FinMap.card t.metrics ∧ t.ring.oldest.ns ≠ "" then
    { t with
      metrics := t.metrics.erase t.ring.oldest
      cost := t.cost.erase t.ring.oldest }
  else t

/-- Make sure that a pod is in the table. -/
def track (t : PodTables κ) (pk : PodKey) : PodTables κ :=
  if pk ∈ t.metrics then t
  else
    { t.evict with
      metrics := t.evict.metrics.insert pk {}
      -- a pod gets its slot here and no other one while it is tracked
      ring := t.ring.push pk }

variable [AddZero κ] [LT κ] [DecidableLT κ]

/-- Add a flow to a tracked pod. -/
def add (t : PodTables κ) (f : ClassifiedFlow κ) (pk : PodKey) : PodTables κ :=
  { t with
    metrics := FinMap.modify t.metrics pk fun pm =>
      ⟨pm.txBytes + f.txBytes, pm.rxBytes + f.rxBytes⟩
    cost :=
      if 0 < f.costUSD then t.cost.insert pk ((t.cost.lookup pk).getD 0 + f.costUSD) else t.cost }

/-- What a flow does to the tables. -/
def updateFlow (t : PodTables κ) (f : ClassifiedFlow κ) : PodTables κ :=
  match f.podKey with
  | none => t
  | some pk => (t.track pk).add f pk

end PodTables

/-! ### The state -/

/-- `metricsState`, as far as polls write it. -/
structure MetricsState (κ : Type*) where
  txByType : Fin numTrafficTypes → UInt64
  rxByType : Fin numTrafficTypes → UInt64
  connsByType : Fin numTrafficTypes → Int64
  activeConns : Int64
  retransmitBytes : UInt64
  retransmitCount : UInt64
  pods : PodTables κ
  costByType : Fin numTrafficTypes → κ
  sidecarSkippedBytes : UInt64
  sidecarSkippedConns : UInt64

structure Exporter (κ : Type*) where
  state : MetricsState κ
  pollCount : UInt64

namespace MetricsState

variable {κ : Type*}

/-- The state of `New`. -/
def new [Zero κ] : MetricsState κ :=
  { txByType := 0
    rxByType := 0
    connsByType := 0
    activeConns := 0
    retransmitBytes := 0
    retransmitCount := 0
    pods := .new
    costByType := 0
    sidecarSkippedBytes := 0
    sidecarSkippedConns := 0 }

variable [AddZero κ] [LT κ] [DecidableLT κ]

/-- A sidecar flow is counted as skipped. -/
def skipSidecar (s : MetricsState κ) (f : ClassifiedFlow κ) : MetricsState κ :=
  { s with
    sidecarSkippedBytes := s.sidecarSkippedBytes + (f.txBytes + f.rxBytes)
    sidecarSkippedConns := s.sidecarSkippedConns + 1 }

/-- The counters of a flow's type. -/
def addByType (s : MetricsState κ) (f : ClassifiedFlow κ) : MetricsState κ :=
  let i := f.typeIndex
  { s with
    txByType := Function.update s.txByType i (s.txByType i + f.txBytes)
    rxByType := Function.update s.rxByType i (s.rxByType i + f.rxBytes)
    connsByType := Function.update s.connsByType i (s.connsByType i + 1)
    retransmitBytes := s.retransmitBytes + f.retransmitBytes
    retransmitCount := s.retransmitCount + f.retransmitCount
    costByType :=
      if 0 < f.costUSD then Function.update s.costByType i (s.costByType i + f.costUSD)
      else s.costByType }

/-- One round of the loop of `UpdateFromPoll`. -/
def updateFlow (s : MetricsState κ) (f : ClassifiedFlow κ) : MetricsState κ :=
  if f.isSidecar then s.skipSidecar f
  else if f.ns ≠ "" ∧ f.pod ≠ "" then
    { s.addByType f with pods := (s.pods.track ⟨f.ns, f.pod⟩).add f ⟨f.ns, f.pod⟩ }
  else s.addByType f

/-- `UpdateFromPoll`; the connection counts are those of this poll. -/
def updateFromPoll (s : MetricsState κ) (flows : List (ClassifiedFlow κ)) : MetricsState κ :=
  { flows.foldl updateFlow { s with connsByType := 0 } with
    activeConns := Int64.ofNat flows.length }

end MetricsState

/-- `RecordPoll`, without the health sample. -/
def Exporter.recordPoll {κ : Type*} (e : Exporter κ) : Exporter κ :=
  { e with pollCount := e.pollCount + 1 }

def Exporter.updateFromPoll {κ : Type*} [AddZero κ] [LT κ] [DecidableLT κ] (e : Exporter κ)
    (flows : List (ClassifiedFlow κ)) : Exporter κ :=
  { e with state := e.state.updateFromPoll flows }

namespace MetricsState

/-! ### What a flow adds -/

variable {κ : Type*}

/-- Whether a flow counts for a type. -/
def counts (i : Fin numTrafficTypes) (f : ClassifiedFlow κ) : Bool :=
  !f.isSidecar && f.typeIndex == i

/-- The dollars a flow adds, if they are exact. -/
def addedUSD (f : ClassifiedFlow ℚ) : ℚ := max f.costUSD 0

variable [AddZero κ] [LT κ] [DecidableLT κ] (s : MetricsState κ) (f : ClassifiedFlow κ)

theorem updateFlow_sidecar {f : ClassifiedFlow κ} (h : f.isSidecar = true) :
    s.updateFlow f = s.skipSidecar f := if_pos h

theorem updateFlow_of_not_sidecar {f : ClassifiedFlow κ} (h : f.isSidecar = false) :
    s.updateFlow f = { s.addByType f with pods := s.pods.updateFlow f } := by
  rw [updateFlow, if_neg (by simp [h]), PodTables.updateFlow, ClassifiedFlow.podKey]
  by_cases hpod : f.ns ≠ "" ∧ f.pod ≠ ""
  · rw [if_pos hpod, if_pos ⟨h, hpod⟩]
  · rw [if_neg hpod, if_neg fun hboth => hpod hboth.2]
    rfl

theorem pods_updateFlow : (s.updateFlow f).pods = s.pods.updateFlow f := by
  cases h : f.isSidecar with
  | true =>
    rw [updateFlow_sidecar s h, PodTables.updateFlow, ClassifiedFlow.podKey, h, if_neg (by simp)]
    rfl
  | false => rw [updateFlow_of_not_sidecar s h]

omit [AddZero κ] [LT κ] [DecidableLT κ] in
/-- A flow changes the counters of its own type only. -/
theorem update_counts {M : Type*} [AddMonoid M] {f : ClassifiedFlow κ} (h : f.isSidecar = false)
    (c : Fin numTrafficTypes → M) (x : M) (i : Fin numTrafficTypes) :
    Function.update c f.typeIndex (c f.typeIndex + x) i = c i + if counts i f then x else 0 := by
  simp only [counts, h, Bool.not_false, Bool.true_and, beq_iff_eq, Function.update_apply]
  by_cases hi : i = f.typeIndex
  · rw [if_pos hi, if_pos hi.symm, hi]
  · rw [if_neg hi, if_neg (Ne.symm hi), add_zero]

omit [AddZero κ] [LT κ] [DecidableLT κ] in
theorem counts_sidecar {f : ClassifiedFlow κ} (h : f.isSidecar = true) (i : Fin numTrafficTypes) :
    counts i f = false := by
  rw [counts, h]
  rfl

/-- A counter by type that a sidecar leaves, and another flow adds to, grows by what the
flows of the type add. -/
theorem byType_updateFlow {M : Type*} [AddMonoid M] {π : MetricsState κ → Fin numTrafficTypes → M}
    {x : M} (hskip : π (s.skipSidecar f) = π s)
    (hadd : ∀ pods, π { s.addByType f with pods := pods }
      = Function.update (π s) f.typeIndex (π s f.typeIndex + x)) (i : Fin numTrafficTypes) :
    π (s.updateFlow f) i = π s i + if counts i f then x else 0 := by
  cases h : f.isSidecar with
  | true =>
    rw [updateFlow_sidecar s h, counts_sidecar h, if_neg Bool.false_ne_true, add_zero, hskip]
  | false =>
    rw [updateFlow_of_not_sidecar s h, hadd]
    exact update_counts h (π s) x i

theorem txByType_updateFlow (i : Fin numTrafficTypes) :
    (s.updateFlow f).txByType i = s.txByType i + if counts i f then f.txBytes else 0 :=
  byType_updateFlow s f rfl (fun _ => rfl) i

theorem rxByType_updateFlow (i : Fin numTrafficTypes) :
    (s.updateFlow f).rxByType i = s.rxByType i + if counts i f then f.rxBytes else 0 :=
  byType_updateFlow s f rfl (fun _ => rfl) i

theorem costByType_updateFlow (i : Fin numTrafficTypes) :
    (s.updateFlow f).costByType i
      = if counts i f then f.addUSD (s.costByType i) else s.costByType i := by
  cases h : f.isSidecar with
  | true =>
    rw [updateFlow_sidecar s h, counts_sidecar h, if_neg Bool.false_ne_true]
    rfl
  | false =>
    rw [updateFlow_of_not_sidecar s h, ClassifiedFlow.addUSD]
    show (if 0 < f.costUSD then _ else _ : Fin numTrafficTypes → κ) i = _
    simp only [counts, h, Bool.not_false, Bool.true_and, beq_iff_eq]
    by_cases hcost : 0 < f.costUSD
    · rw [if_pos hcost, if_pos hcost, Function.update_apply]
      by_cases hi : i = f.typeIndex
      · rw [if_pos hi, if_pos hi.symm, hi]
      · rw [if_neg hi, if_neg (Ne.symm hi)]
    · rw [if_neg hcost, if_neg hcost, ite_self]

theorem sidecarSkippedBytes_updateFlow :
    (s.updateFlow f).sidecarSkippedBytes
      = s.sidecarSkippedBytes + if f.isSidecar then f.txBytes + f.rxBytes else 0 := by
  cases h : f.isSidecar with
  | true =>
    rw [updateFlow_sidecar s h]
    rfl
  | false =>
    rw [updateFlow_of_not_sidecar s h, if_neg Bool.false_ne_true, add_zero]
    rfl

/-! ### What polls add -/

section
variable {M : Type*} [AddCommMonoid M] {π : MetricsState κ → M} {p : ClassifiedFlow κ → Bool}
  {g : ClassifiedFlow κ → M}

/-- A counter that every flow either adds to or leaves grows by the total of a
poll. -/
theorem proj_updateFromPoll (hstep : ∀ s f, π (s.updateFlow f) = π s + if p f then g f else 0)
    (hgauges : ∀ s conns active, π { s with connsByType := conns, activeConns := active } = π s)
    (flows : List (ClassifiedFlow κ)) :
    π (s.updateFromPoll flows) = π s + ((flows.filter p).map g).sum := by
  have hloop := KeyedFold.proj_foldl hstep { s with connsByType := 0 } flows
  rw [← KeyedFold.sum_filter_eq, hgauges s 0 s.activeConns] at hloop
  exact (hgauges _ _ _).trans hloop

/-- And by the total of all flows over a sequence of polls. -/
theorem proj_foldl_updateFromPoll
    (hstep : ∀ s f, π (s.updateFlow f) = π s + if p f then g f else 0)
    (hgauges : ∀ s conns active, π { s with connsByType := conns, activeConns := active } = π s)
    (polls : List (List (ClassifiedFlow κ))) :
    π (polls.foldl updateFromPoll s) = π s + ((polls.flatten.filter p).map g).sum := by
  rw [KeyedFold.proj_foldl (fun s flows => proj_updateFromPoll s hstep hgauges flows),
    List.filter_flatten, List.map_flatten, List.sum_flatten, List.map_map, List.map_map]
  rfl

end

variable (flows : List (ClassifiedFlow κ))

theorem txByType_updateFromPoll (i : Fin numTrafficTypes) :
    (s.updateFromPoll flows).txByType i
      = s.txByType i + ((flows.filter (counts i)).map ClassifiedFlow.txBytes).sum :=
  proj_updateFromPoll (π := fun s => s.txByType i) s
    (fun s f => txByType_updateFlow s f i) (fun _ _ _ => rfl) flows

theorem rxByType_updateFromPoll (i : Fin numTrafficTypes) :
    (s.updateFromPoll flows).rxByType i
      = s.rxByType i + ((flows.filter (counts i)).map ClassifiedFlow.rxBytes).sum :=
  proj_updateFromPoll (π := fun s => s.rxByType i) s
    (fun s f => rxByType_updateFlow s f i) (fun _ _ _ => rfl) flows

/-- Dollars are added up in the order of the flows. -/
theorem costByType_updateFromPoll (i : Fin numTrafficTypes) :
    (s.updateFromPoll flows).costByType i
      = (flows.filter (counts i)).foldl (fun usd f => f.addUSD usd) (s.costByType i) := by
  rw [List.foldl_filter]
  exact (List.foldl_hom (fun s : MetricsState κ => s.costByType i)
    fun s f => (costByType_updateFlow s f i).symm).symm

theorem sidecarSkippedBytes_updateFromPoll :
    (s.updateFromPoll flows).sidecarSkippedBytes
      = s.sidecarSkippedBytes
        + ((flows.filter ClassifiedFlow.isSidecar).map fun f => f.txBytes + f.rxBytes).sum :=
  proj_updateFromPoll (π := fun s => s.sidecarSkippedBytes) s
    sidecarSkippedBytes_updateFlow (fun _ _ _ => rfl) flows

theorem pods_updateFromPoll :
    (s.updateFromPoll flows).pods = flows.foldl PodTables.updateFlow s.pods :=
  (List.foldl_hom MetricsState.pods fun s f => (pods_updateFlow s f).symm).symm

variable (polls : List (List (ClassifiedFlow κ))) (i : Fin numTrafficTypes)

theorem txByType_foldl_updateFromPoll :
    (polls.foldl updateFromPoll s).txByType i
      = s.txByType i + ((polls.flatten.filter (counts i)).map ClassifiedFlow.txBytes).sum :=
  proj_foldl_updateFromPoll (π := fun s => s.txByType i) s
    (fun s f => txByType_updateFlow s f i) (fun _ _ _ => rfl) polls

theorem rxByType_foldl_updateFromPoll :
    (polls.foldl updateFromPoll s).rxByType i
      = s.rxByType i + ((polls.flatten.filter (counts i)).map ClassifiedFlow.rxBytes).sum :=
  proj_foldl_updateFromPoll (π := fun s => s.rxByType i) s
    (fun s f => rxByType_updateFlow s f i) (fun _ _ _ => rfl) polls

theorem costByType_foldl_updateFromPoll :
    (polls.foldl updateFromPoll s).costByType i
      = (polls.flatten.filter (counts i)).foldl (fun usd f => f.addUSD usd) (s.costByType i) := by
  induction polls generalizing s with
  | nil => rfl
  | cons flows polls ih =>
    rw [List.foldl_cons, ih, costByType_updateFromPoll, List.flatten_cons, List.filter_append,
      List.foldl_append]

/-- **The pod tables after polls** are those after their flows, one by one. -/
theorem pods_foldl_updateFromPoll :
    (polls.foldl updateFromPoll s).pods = polls.flatten.foldl PodTables.updateFlow s.pods := by
  rw [List.foldl_flatten]
  exact (List.foldl_hom MetricsState.pods fun s flows => (pods_updateFromPoll s flows).symm).symm

/-! ### Exact dollars -/

theorem foldl_addUSD (flows : List (ClassifiedFlow ℚ)) (usd : ℚ) :
    flows.foldl (fun usd f => f.addUSD usd) usd = usd + (flows.map addedUSD).sum := by
  refine KeyedFold.proj_foldl (π := id) (fun usd f => ?_) usd flows
  rw [ClassifiedFlow.addUSD, addedUSD, id, id]
  split_ifs with hcost
  · rw [max_eq_left hcost.le]
  · rw [max_eq_right (not_lt.mp hcost), add_zero]

end MetricsState
