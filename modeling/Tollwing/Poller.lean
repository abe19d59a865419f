/-
The poller (`pkg/poller/poller.go`) and the data path it closes.

`Capture n` is the kernel state, the snapshots the running poll has taken so
far and the snapshots handed to the agent.  `Capture.step` is one atomic step
of the path: a hook, the take of one aggregate entry by a poll (one
`LookupAndDelete`, or one entry of a batch), the delivery that ends a poll, a
configuration push, or an LRU eviction.  Polls and hooks interleave freely, so
a run is any list of steps.

The lossy read-then-delete of kernels without lookup-and-delete is not a step
here, and QUIC flows have a map of their own.
-/
import Mathlib.Algebra.BigOperators.Fin
import Mathlib.Data.UInt
import Tollwing.BpfHooks

/-- `FlowSnapshot`, as the poller fills it. -/
structure FlowSnapshot where
  srcIP : UInt32
  dstIP : UInt32
  srcPort : UInt16
  dstPort : UInt16
  pid : UInt32
  protocol : UInt8
  direction : UInt8
  txBytes : UInt64 := 0
  rxBytes : UInt64 := 0
  connCount : UInt64 := 0
  packetCount : UInt64 := 0
  retransmitBytes : UInt64 := 0
  retransmitCount : UInt64 := 0
  deriving DecidableEq, Repr

/-- The flow a snapshot is about. -/
def FlowSnapshot.flowKey (snap : FlowSnapshot) : FlowKey :=
  { srcIP := snap.srcIP
    dstIP := snap.dstIP
    srcPort := snap.srcPort
    dstPort := snap.dstPort
    pid := snap.pid
    protocol := snap.protocol
    direction := snap.direction }

/-- One round of the loop of `sumPerCPU`. -/
def FlowSnapshot.add (snap : FlowSnapshot) (m : FlowMetrics) : FlowSnapshot :=
  { snap with
    txBytes := snap.txBytes + m.txBytes
    rxBytes := snap.rxBytes + m.rxBytes
    connCount := snap.connCount + m.connCount
    retransmitBytes := snap.retransmitBytes + m.retransmitBytes
    retransmitCount := snap.retransmitCount + m.retransmitCount }

/-- The empty snapshot of a flow. -/
def FlowSnapshot.ofKey (key : FlowKey) : FlowSnapshot :=
  { srcIP := key.srcIP
    dstIP := key.dstIP
    srcPort := key.srcPort
    dstPort := key.dstPort
    pid := key.pid
    protocol := key.protocol
    direction := key.direction }

/-- `sumPerCPU`. -/
def sumPerCPU {n : ℕ} (key : FlowKey) (perCPU : Fin n → FlowMetrics) : FlowSnapshot :=
  (List.finRange n).foldl (fun snap i => snap.add (perCPU i)) (.ofKey key)

/-- The kernel, the running poll and what has been delivered. -/
structure Capture (n : ℕ) where
  kernel : Kernel n
  flows : List FlowSnapshot
  delivered : List FlowSnapshot

/-- One atomic step of the data path. -/
inductive CaptureStep (n : ℕ)
  | hook (env : HookEnv n) (h : Hook)
  | take (key : FlowKey)
  | deliver
  | setConfig (cfg : AgentConfig)
  | evictConnection (cookie : UInt64)
  | evictOriginalDst (cookie : UInt64)

namespace Capture

variable (host : ByteOrder) {n : ℕ}

def init (cfg : AgentConfig) : Capture n := ⟨.init cfg, [], []⟩

/-- Take one entry of `flow_aggregates`: read it and delete it, atomically. -/
def take (s : Capture n) (key : FlowKey) : Capture n :=
  match s.kernel.flowAggregates.lookup key with
  -- gone since the keys were listed: nothing is left to account
  | none => s
  | some perCPU =>
    { s with
      kernel := { s.kernel with flowAggregates := s.kernel.flowAggregates.erase key }
      flows := s.flows ++ [sumPerCPU key perCPU] }

def step (s : Capture n) : CaptureStep n → Capture n
  | .hook env h => { s with kernel := h.run host env s.kernel }
  | .take key => s.take key
  | .deliver => { s with flows := [], delivered := s.delivered ++ s.flows }
  | .setConfig cfg => { s with kernel := s.kernel.setConfig cfg }
  | .evictConnection cookie => { s with kernel := s.kernel.evictConnection cookie }
  | .evictOriginalDst cookie => { s with kernel := s.kernel.evictOriginalDst cookie }

/-- The state after a run, from empty maps. -/
def exec (cfg : AgentConfig) (run : List (CaptureStep n)) : Capture n :=
  run.foldl (step host) (init cfg)

/-- Every snapshot taken so far: the delivered ones, then those of the poll in
progress. -/
def snapshots (s : Capture n) : List FlowSnapshot := s.delivered ++ s.flows

end Capture

/-! ### Counters -/

/-- The counters of a flow that are accounted for. -/
inductive Counter
  | tx
  | rx
  | retransmitBytes
  | retransmitCount
  deriving DecidableEq, Repr

/-- An amount of each counter, in machine words. -/
abbrev Amount := Counter → UInt64

def FlowMetrics.amount (m : FlowMetrics) : Amount
  | .tx => m.txBytes
  | .rx => m.rxBytes
  | .retransmitBytes => m.retransmitBytes
  | .retransmitCount => m.retransmitCount

def FlowSnapshot.amount (snap : FlowSnapshot) : Amount
  | .tx => snap.txBytes
  | .rx => snap.rxBytes
  | .retransmitBytes => snap.retransmitBytes
  | .retransmitCount => snap.retransmitCount

/-- The counters of a per-CPU entry, over all CPUs. -/
def perCPUAmount {n : ℕ} (perCPU : Fin n → FlowMetrics) : Amount := ∑ i, (perCPU i).amount

theorem FlowSnapshot.amount_add (snap : FlowSnapshot) (m : FlowMetrics) :
    (snap.add m).amount = snap.amount + m.amount := by
  funext c
  cases c <;> rfl

theorem foldl_add_amount {α : Type*} (f : α → FlowMetrics) (l : List α) (snap : FlowSnapshot) :
    (l.foldl (fun snap i => snap.add (f i)) snap).amount
      = snap.amount + (l.map fun i => (f i).amount).sum := by
  induction l generalizing snap with
  | nil => simp
  | cons i l ih =>
    rw [List.foldl_cons, ih, FlowSnapshot.amount_add, List.map_cons, List.sum_cons, add_assoc]

theorem foldl_add_flowKey {α : Type*} (f : α → FlowMetrics) (l : List α) (snap : FlowSnapshot) :
    (l.foldl (fun snap i => snap.add (f i)) snap).flowKey = snap.flowKey := by
  induction l generalizing snap with
  | nil => rfl
  | cons i l ih =>
    rw [List.foldl_cons, ih]
    rfl

/-- A snapshot is about the entry's flow. -/
@[simp] theorem sumPerCPU_flowKey {n : ℕ} (key : FlowKey) (perCPU : Fin n → FlowMetrics) :
    (sumPerCPU key perCPU).flowKey = key :=
  foldl_add_flowKey _ _ _

/-- A snapshot carries the entry's counters, summed over the CPUs. -/
@[simp] theorem sumPerCPU_amount {n : ℕ} (key : FlowKey) (perCPU : Fin n → FlowMetrics) :
    (sumPerCPU key perCPU).amount = perCPUAmount perCPU := by
  rw [sumPerCPU, foldl_add_amount, perCPUAmount, ← List.sum_ofFn, List.ofFn_eq_map]
  have hzero : (FlowSnapshot.ofKey key).amount = 0 := by
    funext c
    cases c <;> rfl
  rw [hzero, zero_add]

/-- Changing one CPU's value changes the total by the change. -/
theorem sum_update_cpu {α M : Type*} [AddCommMonoid M] {n : ℕ} (g : α → M) (perCPU : Fin n → α)
    (cpu : Fin n) {x : α} {a : M} (h : g x = a + g (perCPU cpu)) :
    ∑ i, g (Function.update perCPU cpu x i) = a + ∑ i, g (perCPU i) := by
  have hcomp : (fun i => g (Function.update perCPU cpu x i))
      = Function.update (fun i => g (perCPU i)) cpu (g x) := by
    funext i
    rw [Function.update_apply, Function.update_apply]
    split_ifs <;> rfl
  rw [hcomp, Finset.sum_update_of_mem (Finset.mem_univ cpu), h,
    ← Finset.add_sum_erase _ _ (Finset.mem_univ cpu), add_assoc, Finset.sdiff_singleton_eq_erase]

theorem perCPUAmount_update {n : ℕ} (perCPU : Fin n → FlowMetrics) (cpu : Fin n)
    (m : FlowMetrics) (a : Amount) (h : m.amount = a + (perCPU cpu).amount) :
    perCPUAmount (Function.update perCPU cpu m) = a + perCPUAmount perCPU :=
  sum_update_cpu FlowMetrics.amount perCPU cpu h

theorem perCPUAmount_empty {n : ℕ} : perCPUAmount (fun _ : Fin n => ({} : FlowMetrics)) = 0 := by
  refine Finset.sum_eq_zero fun i _ => ?_
  funext c
  cases c <;> rfl
