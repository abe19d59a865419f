/-
The loops of the poller (`pkg/poller/poller.go`).

A poll drains `flow_aggregates` with batched calls, or key by key where the kernel has no
batches, and then `quic_flows` key by key.  The hooks go on meanwhile: what they do while a
poll runs, which keys the kernel visits and what it answers is the poll's script.

* `Poller.poll_refines` — where no single-key call fails, the poll is a run of the atomic
  takes of `NodeAgent`, no slice of the buffers is out of range, and the handler gets what
  that run takes;
* `Poller.steps` — that run.
-/
import Tollwing.NodeAgent
import Tollwing.SharedTable

/-! ### The poller -/

/-- What the probing batch lookup answers. -/
inductive ProbeAnswer
  | ok
  | keyNotExist
  | notSupported
  | einval
  | eopnotsupp
  | other
  deriving DecidableEq, Repr

/-- `classifyBatchProbe`: whether batches are supported, and whether the answer was
unexpected. -/
def classifyBatchProbe : ProbeAnswer → Bool × Bool
  | .ok | .keyNotExist => (true, false)
  | .notSupported | .einval | .eopnotsupp => (false, false)
  | .other => (false, true)

/-- The poller, as far as its loops read it. -/
structure Poller where
  batchSize : ℕ
  useBatch : Bool
  buffers : Buffers FlowKey FlowMetrics
  /-- `SetQuicMap` was called. -/
  quicMap : Bool

/-- `New`, on a host with `n` possible CPUs. -/
def Poller.new (n batchSize : ℕ) (probe : ProbeAnswer) (quicMap : Bool) : Poller :=
  let size := if batchSize = 0 then 256 else batchSize
  { batchSize := size
    useBatch := (classifyBatchProbe probe).1
    buffers :=
      { keys := List.replicate size ⟨0, 0, 0, 0, 0, 0, 0⟩
        values := List.replicate (size * n) {} }
    quicMap := quicMap }

/-- The sum of the values of a slot. -/
def sumValues (key : FlowKey) (perCPU : List FlowMetrics) : FlowSnapshot :=
  perCPU.foldl FlowSnapshot.add (.ofKey key)

/-! ### What goes on meanwhile -/

/-- A step that is not the poller's. -/
inductive Background (n : ℕ)
  | kernel (e : KernelStep n)
  | setEnabled (enabled : Bool)

def Background.nodeStep {n : ℕ} : Background n → NodeStep n
  | .kernel e => .kernel e
  | .setEnabled enabled => .setEnabled enabled

/-- How a batched call ends: there are more entries, there are none, or it failed. -/
inductive BatchAnswer
  | more
  | keyNotExist
  | failed
  deriving DecidableEq, Repr

/-- One `BatchLookupAndDelete`: the keys the kernel comes to, what happens before the poller
has read its buffers, and the answer. -/
structure BatchCall (n : ℕ) where
  visits : List (Visit (Background n) FlowKey)
  after : List (Background n)
  answer : BatchAnswer

/-- What a poll meets: its batched calls, or the keys that the iterator collected, and the
keys of the QUIC flows. -/
structure PollScript (n : ℕ) where
  calls : List (BatchCall n)
  tries : List (KeyTry (Background n) FlowKey)
  quicTries : List (KeyTry (Background n) QuicFlowKey)

namespace NodeAgent

variable (host : ByteOrder) (l : Loader) {n : ℕ}

def background (s : NodeAgent n) (e : Background n) : NodeAgent n := s.step host l e.nodeStep

/-- `flow_aggregates`, beside what the others do. -/
def flowTable : SharedTable (NodeAgent n) (Background n) FlowKey (Fin n → FlowMetrics) where
  other := background host l
  table s := s.plane.kernel.flowAggregates
  erase s key := s.mapKernel fun k => { k with flowAggregates := k.flowAggregates.erase key }
  table_erase _ _ := rfl

/-- `quic_flows`. -/
def quicTable : SharedTable (NodeAgent n) (Background n) QuicFlowKey (Fin n → QuicFlowMetrics) where
  other := background host l
  table s := s.plane.quicFlows
  erase s key := { s with plane := { s.plane with quicFlows := s.plane.quicFlows.erase key } }
  table_erase _ _ := rfl

end NodeAgent

namespace Poller

variable (host : ByteOrder) (l : Loader) {n : ℕ}

/-! ### The loops -/

/-- `pollBatch`. -/
def pollBatch (p : Poller) (s : NodeAgent n) :
    List (BatchCall n) → Option (Poller × NodeAgent n × List FlowSnapshot)
  | [] => some (p, s, [])
  | c :: calls => do
    let (s, out) := (NodeAgent.flowTable host l).fill p.batchSize s c.visits
    let s := c.after.foldl (NodeAgent.background host l) s
    let p := { p with buffers := p.buffers.write out }
    let slots ← p.buffers.read n out.length
    let flows := slots.map fun slot => sumValues slot.1 slot.2
    -- no more entries
    if c.answer = .keyNotExist ∨ out.length = 0 then return (p, s, flows)
    -- a failure is logged
    else if c.answer = .failed then return (p, s, flows)
    else
      let (p, s, rest) ← pollBatch p s calls
      return (p, s, flows ++ rest)

/-- `pollIterate`: the keys were listed before, and their listed values are not used. -/
def pollIterate (s : NodeAgent n) (tries : List (KeyTry (Background n) FlowKey)) :
    NodeAgent n × List FlowSnapshot :=
  let (s, taken) := (NodeAgent.flowTable host l).tryKeys s tries
  (s, taken.map fun e => sumPerCPU e.1 e.2)

/-- `pollQuic`. -/
def pollQuic (s : NodeAgent n) (tries : List (KeyTry (Background n) QuicFlowKey)) :
    NodeAgent n × List FlowSnapshot :=
  let (s, taken) := (NodeAgent.quicTable host l).tryKeys s tries
  (s, taken.map fun e => quicSnapshot e.1 e.2)

/-- The part of `poll` that drains `flow_aggregates`. -/
def pollFlows (p : Poller) (s : NodeAgent n) (script : PollScript n) :
    Option (Poller × NodeAgent n × List FlowSnapshot) :=
  if p.useBatch then p.pollBatch host l s script.calls
  else some (p, pollIterate host l s script.tries)

/-- `poll`, without the drop counters; `none` is a panic. -/
def poll (p : Poller) (s : NodeAgent n) (script : PollScript n) :
    Option (Poller × NodeAgent n × List FlowSnapshot) := do
  let (p, s, flows) ← p.pollFlows host l s script
  if p.quicMap then
    let (s, quic) := pollQuic host l s script.quicTries
    return (p, s, appendQuicFlows flows quic)
  else return (p, s, flows)

/-! ### The run of a poll -/

/-- The steps of the batched calls up to the one that ends the loop. -/
def batchSteps (size : ℕ) (s : NodeAgent n) :
    List (BatchCall n) → List (DrainStep (Background n) FlowKey)
  | [] => []
  | c :: calls =>
    let (s', out) := (NodeAgent.flowTable host l).fill size s c.visits
    (NodeAgent.flowTable host l).fillSteps size s c.visits ++ c.after.map .other ++
      if c.answer = .more ∧ out.length ≠ 0 then
        batchSteps size (c.after.foldl (NodeAgent.background host l) s') calls
      else []

/-- The steps that drain `flow_aggregates`. -/
def flowSteps (p : Poller) (s : NodeAgent n) (script : PollScript n) :
    List (DrainStep (Background n) FlowKey) :=
  if p.useBatch then batchSteps host l p.batchSize s script.calls
  else script.tries.flatMap KeyTry.steps

/-- The steps that drain `quic_flows`. -/
def quicSteps (p : Poller) (script : PollScript n) : List (DrainStep (Background n) QuicFlowKey) :=
  if p.quicMap then script.quicTries.flatMap KeyTry.steps else []

/-- A step of a drain is a step of the agent. -/
def ofFlowStep : DrainStep (Background n) FlowKey → NodeStep n
  | .other e => e.nodeStep
  | .take key => .takeFlow key

def ofQuicStep : DrainStep (Background n) QuicFlowKey → NodeStep n
  | .other e => e.nodeStep
  | .take key => .takeQuic key

/-- The run that a poll is. -/
def steps (p : Poller) (s : NodeAgent n) (script : PollScript n) : List (NodeStep n) :=
  (p.flowSteps host l s script).map ofFlowStep ++ (p.quicSteps script).map ofQuicStep

/-- The kernel can read and delete a single entry in one call. -/
def Atomic (p : Poller) (script : PollScript n) : Prop :=
  (p.useBatch = false → ∀ t ∈ script.tries, t.fails = false) ∧
    (p.quicMap = true → ∀ t ∈ script.quicTries, t.fails = false)

/-- The buffers have the size that the kernel is told. -/
def Sized (n : ℕ) (p : Poller) : Prop := p.buffers.Sized n p.batchSize

theorem sized_new (n batchSize : ℕ) (probe : ProbeAnswer) (quicMap : Bool) :
    (new n batchSize probe quicMap).Sized n :=
  ⟨List.length_replicate, List.length_replicate⟩

end Poller

/-! ### Snapshots beside the state -/

namespace NodeAgent

variable (host : ByteOrder) (l : Loader) {n : ℕ}

/-- The agent with a running poll that has taken some snapshots. -/
def withPoll (s : NodeAgent n) (flows quic : List FlowSnapshot) : NodeAgent n :=
  { s with flows := flows, quic := quic }

/-- What the others do leaves the running poll alone. -/
theorem background_withPoll (s : NodeAgent n) (flows quic : List FlowSnapshot)
    (e : Background n) :
    (s.withPoll flows quic).step host l e.nodeStep
      = (s.background host l e).withPoll flows quic := by
  cases e with
  | kernel e =>
    show (s.withPoll flows quic).kernelStep host l e = (s.kernelStep host l e).withPoll flows quic
    cases e with
    | hook env h =>
      rw [kernelStep, kernelStep]
      split_ifs <;> rfl
    | egress env send frame =>
      rw [kernelStep, kernelStep]
      split_ifs <;> rfl
    | evictConnection cookie => rfl
    | evictOriginalDst cookie => rfl
  | setEnabled enabled => rfl

/-- A step of a drain of the flows is a step of the agent. -/
theorem step_ofFlowStep (s : NodeAgent n) (flows quic : List FlowSnapshot)
    (e : DrainStep (Background n) FlowKey) :
    (s.withPoll flows quic).step host l (Poller.ofFlowStep e)
      = ((flowTable host l).step s e).1.withPoll
          (flows ++ ((flowTable host l).step s e).2.map fun e => sumPerCPU e.1 e.2) quic := by
  cases e with
  | other e =>
    show (s.withPoll flows quic).step host l e.nodeStep = _
    rw [background_withPoll host l]
    exact congrArg ((s.background host l e).withPoll · quic) (List.append_nil flows).symm
  | take key =>
    show (s.withPoll flows quic).takeFlow key
      = ((flowTable host l).take s key).1.withPoll
          (flows ++ ((flowTable host l).take s key).2.map fun e => sumPerCPU e.1 e.2) quic
    have htable : (s.withPoll flows quic).plane.kernel.flowAggregates
        = (flowTable host l).table s := rfl
    rw [takeFlow, SharedTable.take, htable]
    cases ((flowTable host l).table s).lookup key with
    | none => exact congrArg (s.withPoll · quic) (List.append_nil flows).symm
    | some perCPU => rfl

/-- **A drain of the flows, as a run of the agent.** -/
theorem foldl_ofFlowStep (steps : List (DrainStep (Background n) FlowKey)) (s : NodeAgent n)
    (flows quic : List FlowSnapshot) :
    (steps.map Poller.ofFlowStep).foldl (step host l) (s.withPoll flows quic)
      = ((flowTable host l).drain s steps).1.withPoll
          (flows ++ ((flowTable host l).drain s steps).2.map fun e => sumPerCPU e.1 e.2) quic := by
  induction steps generalizing s flows with
  | nil => exact congrArg (s.withPoll · quic) (List.append_nil flows).symm
  | cons e steps ih =>
    rw [List.map_cons, List.foldl_cons, step_ofFlowStep, ih, SharedTable.drain_cons,
      List.map_append, List.append_assoc]

/-- A step of a drain of the QUIC flows is a step of the agent. -/
theorem step_ofQuicStep (s : NodeAgent n) (flows quic : List FlowSnapshot)
    (e : DrainStep (Background n) QuicFlowKey) :
    (s.withPoll flows quic).step host l (Poller.ofQuicStep e)
      = ((quicTable host l).step s e).1.withPoll flows
          (quic ++ ((quicTable host l).step s e).2.map fun e => quicSnapshot e.1 e.2) := by
  cases e with
  | other e =>
    show (s.withPoll flows quic).step host l e.nodeStep = _
    rw [background_withPoll host l]
    exact congrArg ((s.background host l e).withPoll flows ·) (List.append_nil quic).symm
  | take key =>
    show (s.withPoll flows quic).takeQuic key
      = ((quicTable host l).take s key).1.withPoll flows
          (quic ++ ((quicTable host l).take s key).2.map fun e => quicSnapshot e.1 e.2)
    have htable : (s.withPoll flows quic).plane.quicFlows = (quicTable host l).table s := rfl
    rw [takeQuic, SharedTable.take, htable]
    cases ((quicTable host l).table s).lookup key with
    | none => exact congrArg (s.withPoll flows ·) (List.append_nil quic).symm
    | some perCPU => rfl

/-- A drain of the QUIC flows, as a run of the agent. -/
theorem foldl_ofQuicStep (steps : List (DrainStep (Background n) QuicFlowKey)) (s : NodeAgent n)
    (flows quic : List FlowSnapshot) :
    (steps.map Poller.ofQuicStep).foldl (step host l) (s.withPoll flows quic)
      = ((quicTable host l).drain s steps).1.withPoll flows
          (quic ++ ((quicTable host l).drain s steps).2.map fun e => quicSnapshot e.1 e.2) := by
  induction steps generalizing s quic with
  | nil => exact congrArg (s.withPoll flows ·) (List.append_nil quic).symm
  | cons e steps ih =>
    rw [List.map_cons, List.foldl_cons, step_ofQuicStep, ih, SharedTable.drain_cons,
      List.map_append, List.append_assoc]

end NodeAgent

namespace NodeAgent

variable (host : ByteOrder) (l : Loader) {n : ℕ} {s : NodeAgent n}

/-- No poll is running. -/
def Idle (s : NodeAgent n) : Prop := s.withPoll [] [] = s

theorem Idle.background (h : s.Idle) (e : Background n) : (s.background host l e).Idle := by
  have hstep := background_withPoll host l s [] [] e
  rw [h] at hstep
  exact hstep.symm

/-- A delivery hands on what the poll took. -/
theorem Idle.deliver (h : s.Idle) (flows quic : List FlowSnapshot) :
    (s.withPoll flows quic).step host l .deliver
      = { s with polls := s.polls ++ [(flows, quic)] } :=
  congrArg (fun s : NodeAgent n => { s with polls := s.polls ++ [(flows, quic)] }) h

theorem background_polls (s : NodeAgent n) (e : Background n) :
    (s.background host l e).polls = s.polls := by
  cases e with
  | kernel e =>
    show (s.kernelStep host l e).polls = _
    cases e with
    | hook env h =>
      rw [kernelStep]
      split_ifs <;> rfl
    | egress env send frame =>
      rw [kernelStep]
      split_ifs <;> rfl
    | evictConnection cookie => rfl
    | evictOriginalDst cookie => rfl
  | setEnabled enabled => rfl

/-- A drain of the flows leaves the agent idle, with the polls that it had. -/
theorem Idle.drain_flows (h : s.Idle) (steps : List (DrainStep (Background n) FlowKey)) :
    ((flowTable host l).drain s steps).1.Idle ∧
      ((flowTable host l).drain s steps).1.polls = s.polls :=
  (flowTable host l).drain_inv (fun s' => s'.Idle ∧ s'.polls = s.polls)
    (fun s e hs => ⟨hs.1.background host l e, (s.background_polls host l e).trans hs.2⟩)
    (fun _ key hs => ⟨congrArg (fun s => (flowTable host l).erase s key) hs.1, hs.2⟩) ⟨h, rfl⟩ steps

theorem Idle.drain_quic (h : s.Idle) (steps : List (DrainStep (Background n) QuicFlowKey)) :
    ((quicTable host l).drain s steps).1.Idle ∧
      ((quicTable host l).drain s steps).1.polls = s.polls :=
  (quicTable host l).drain_inv (fun s' => s'.Idle ∧ s'.polls = s.polls)
    (fun s e hs => ⟨hs.1.background host l e, (s.background_polls host l e).trans hs.2⟩)
    (fun _ key hs => ⟨congrArg (fun s => (quicTable host l).erase s key) hs.1, hs.2⟩) ⟨h, rfl⟩ steps

end NodeAgent

/-! ### The loops are runs of takes -/

theorem sumValues_ofFn {n : ℕ} (key : FlowKey) (perCPU : Fin n → FlowMetrics) :
    sumValues key (List.ofFn perCPU) = sumPerCPU key perCPU := by
  rw [sumValues, sumPerCPU, List.ofFn_eq_map, List.foldl_map]

namespace Poller

variable (host : ByteOrder) (l : Loader) {n : ℕ}

/-- One round of `pollBatch`: the slots are read back, and nothing panics. -/
theorem pollBatch_cons (p : Poller) (s : NodeAgent n) (c : BatchCall n)
    (calls : List (BatchCall n)) :
    let filled := (NodeAgent.flowTable host l).fill p.batchSize s c.visits
    let after := c.after.foldl (NodeAgent.background host l) filled.1
    let p' := { p with buffers := p.buffers.write filled.2 }
    let flows := filled.2.map fun e => sumPerCPU e.1 e.2
    p.pollBatch host l s (c :: calls)
      = if c.answer = .more ∧ filled.2.length ≠ 0 then
          (p'.pollBatch host l after calls).map fun r => (r.1, r.2.1, flows ++ r.2.2)
        else some (p', after, flows) := by
  intro filled after p' flows
  have hread : p'.buffers.read n filled.2.length
      = some (filled.2.map fun e => (e.1, List.ofFn e.2)) := Buffers.read_write _ _
  have hflows : (filled.2.map fun e => (e.1, List.ofFn e.2)).map
      (fun slot => sumValues slot.1 slot.2) = flows := by
    rw [List.map_map]
    exact List.map_congr_left fun e _ => sumValues_ofFn e.1 e.2
  rw [pollBatch]
  show ((p'.buffers.read n filled.2.length).bind fun slots => _) = _
  rw [hread, Option.bind_some, hflows]
  by_cases hend : c.answer = .keyNotExist ∨ filled.2.length = 0
  · rw [if_pos hend, if_neg (by rintro ⟨hmore, hsome⟩; simp [hmore, hsome] at hend)]
    rfl
  · rw [if_neg hend]
    by_cases hfailed : c.answer = .failed
    · rw [if_pos hfailed, if_neg (by rintro ⟨hmore, -⟩; simp [hmore] at hfailed)]
      rfl
    · have hmore : c.answer = .more ∧ filled.2.length ≠ 0 := by
        rw [not_or] at hend
        cases h : c.answer with
        | more => exact ⟨rfl, hend.2⟩
        | keyNotExist => exact absurd h hend.1
        | failed => exact absurd h hfailed
      rw [if_neg hfailed, if_pos hmore]
      cases p'.pollBatch host l after calls <;> rfl

theorem batchSteps_cons (size : ℕ) (s : NodeAgent n) (c : BatchCall n)
    (calls : List (BatchCall n)) :
    let filled := (NodeAgent.flowTable host l).fill size s c.visits
    batchSteps host l size s (c :: calls)
      = (NodeAgent.flowTable host l).fillSteps size s c.visits ++ c.after.map .other ++
          if c.answer = .more ∧ filled.2.length ≠ 0 then
            batchSteps host l size (c.after.foldl (NodeAgent.background host l) filled.1) calls
          else [] := rfl

/-- What `pollBatch` leaves of the poller: buffers of the same size. -/
structure SameShape (n : ℕ) (p p' : Poller) : Prop where
  sized : p'.Sized n
  batchSize : p'.batchSize = p.batchSize
  useBatch : p'.useBatch = p.useBatch
  quicMap : p'.quicMap = p.quicMap

/-- **`pollBatch` is a run of takes**, up to the call that ends its loop. -/
theorem pollBatch_eq (calls : List (BatchCall n)) {p : Poller} (hp : p.Sized n)
    (s : NodeAgent n) :
    ∃ p', p.pollBatch host l s calls = some (p',
            ((NodeAgent.flowTable host l).drain s (batchSteps host l p.batchSize s calls)).1,
            ((NodeAgent.flowTable host l).drain s (batchSteps host l p.batchSize s calls)).2.map
              fun e => sumPerCPU e.1 e.2) ∧
      SameShape n p p' := by
  induction calls generalizing p s with
  | nil => exact ⟨p, rfl, hp, rfl, rfl, rfl⟩
  | cons c calls ih =>
    rw [pollBatch_cons, batchSteps_cons, SharedTable.drain_call]
    have hwrite : Sized n { p with
        buffers := p.buffers.write ((NodeAgent.flowTable host l).fill p.batchSize s c.visits).2 } :=
      Buffers.Sized.write hp (SharedTable.length_fill_le _ _ _ _)
    by_cases hmore : c.answer = .more ∧
        ((NodeAgent.flowTable host l).fill p.batchSize s c.visits).2.length ≠ 0
    · rw [if_pos hmore, if_pos hmore]
      obtain ⟨p', hpoll, hshape⟩ := ih hwrite
        (c.after.foldl (NodeAgent.background host l)
          ((NodeAgent.flowTable host l).fill p.batchSize s c.visits).1)
      refine ⟨p', ?_, hshape.sized, hshape.batchSize, hshape.useBatch, hshape.quicMap⟩
      rw [hpoll, Option.map_some, List.map_append]
      rfl
    · rw [if_neg hmore, if_neg hmore]
      refine ⟨_, ?_, hwrite, rfl, rfl, rfl⟩
      show _ = some (_, _, List.map _ (_ ++ []))
      rw [List.append_nil]
      rfl

theorem pollFlows_eq {p : Poller} (hp : p.Sized n) (s : NodeAgent n) {script : PollScript n}
    (hatomic : p.Atomic script) :
    let drained := (NodeAgent.flowTable host l).drain s (p.flowSteps host l s script)
    ∃ p', p.pollFlows host l s script
        = some (p', drained.1, drained.2.map fun e => sumPerCPU e.1 e.2) ∧ SameShape n p p' := by
  intro drained
  rw [pollFlows]
  cases hbatch : p.useBatch with
  | true =>
    have hsteps : p.flowSteps host l s script = batchSteps host l p.batchSize s script.calls := by
      rw [flowSteps, hbatch]
      rfl
    obtain ⟨p', hpoll, hshape⟩ := pollBatch_eq host l script.calls hp s
    refine ⟨p', ?_, hshape⟩
    rw [if_pos rfl, hpoll, ← hsteps]
  | false =>
    have hsteps : p.flowSteps host l s script = script.tries.flatMap KeyTry.steps := by
      rw [flowSteps, hbatch]
      rfl
    refine ⟨p, ?_, hp, rfl, rfl, rfl⟩
    have htries := (NodeAgent.flowTable host l).drain_tries s (hatomic.1 hbatch)
    rw [if_neg Bool.false_ne_true, pollIterate, ← htries, ← hsteps]

/-- **What a poll returns**: the agent after both drains, and what they took. -/
theorem poll_eq {p : Poller} (hp : p.Sized n) (s : NodeAgent n) {script : PollScript n}
    (hatomic : p.Atomic script) :
    let flows := (NodeAgent.flowTable host l).drain s (p.flowSteps host l s script)
    let quic := (NodeAgent.quicTable host l).drain flows.1 (p.quicSteps script)
    ∃ p', p.poll host l s script
        = some (p', quic.1, appendQuicFlows (flows.2.map fun e => sumPerCPU e.1 e.2)
            (quic.2.map fun e => quicSnapshot e.1 e.2)) ∧ SameShape n p p' := by
  intro flows quic
  obtain ⟨p', hflows, hshape⟩ := pollFlows_eq host l hp s hatomic
  refine ⟨p', ?_, hshape⟩
  rw [poll]
  show ((p.pollFlows host l s script).bind fun r => _) = _
  rw [hflows, Option.bind_some]
  dsimp only
  rw [hshape.quicMap]
  cases hquic : p.quicMap with
  | true =>
    have hsteps : p.quicSteps script = script.quicTries.flatMap KeyTry.steps := by
      rw [quicSteps, hquic, if_pos rfl]
    have htries := (NodeAgent.quicTable host l).drain_tries flows.1 (hatomic.2 hquic)
    rw [← hsteps] at htries
    rw [if_pos rfl, pollQuic, ← htries]
    rfl
  | false =>
    have hnone : quic = (flows.1, []) := by
      show (NodeAgent.quicTable host l).drain flows.1 (p.quicSteps script) = _
      rw [quicSteps, hquic, if_neg Bool.false_ne_true]
      rfl
    rw [if_neg Bool.false_ne_true, hnone]
    exact congrArg (fun flows => some (p', _, flows)) (List.append_nil _).symm

/-- **A poll is a run of the agent.**  For every script of the kernel's and the hooks'
doing, the poll does not panic, the agent takes the steps of `Poller.steps`, and what the
handler gets is what the delivery at the end of this run hands on. -/
theorem poll_refines {p : Poller} (hp : p.Sized n)
    {s : NodeAgent n} (hidle : s.Idle) {script : PollScript n} (hatomic : p.Atomic script) :
    ∃ p' s' flows quic,
      p.poll host l s script = some (p', s', appendQuicFlows flows quic) ∧ SameShape n p p' ∧
      s'.Idle ∧ s'.polls = s.polls ∧
      (p.steps host l s script ++ [NodeStep.deliver]).foldl (NodeAgent.step host l) s
        = { s' with polls := s'.polls ++ [(flows, quic)] } := by
  obtain ⟨p', hpoll, hshape⟩ := poll_eq host l hp s hatomic
  obtain ⟨hidle₁, hpolls₁⟩ := hidle.drain_flows host l (p.flowSteps host l s script)
  obtain ⟨hidle', hpolls'⟩ := hidle₁.drain_quic host l (p.quicSteps script)
  refine ⟨p', _, _, _, hpoll, hshape, hidle', hpolls'.trans hpolls₁, ?_⟩
  have hstart := NodeAgent.foldl_ofFlowStep host l (p.flowSteps host l s script) s [] []
  rw [hidle, List.nil_append] at hstart
  rw [List.foldl_append, steps, List.foldl_append, hstart, NodeAgent.foldl_ofQuicStep,
    List.nil_append]
  exact hidle'.deliver host l _ _

end Poller
