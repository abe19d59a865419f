/-
The running agent of a node (`pkg/agent/agent.go`, `pkg/poller/poller.go`,
`pkg/ebpf/drops.go`).

The hooks write the kernel's maps, the poller drains them on every tick, reads the drop
counters and calls the handler, which feeds the exporter and the publisher.  The hooks go on
throughout.

* `NodeSystem.step` — one step: something outside the agent's process, or a tick;
* `NodeSystem.trace` — the run of `NodeAgent` that a run of the system is;
* `NodeSystem.books_balance` — over any run, no byte that was charged is lost without being
  told, and both sinks are told the same;
* `NodeSystem.drops_honest` — the published drop counters have exactly what was lost.
-/
import Tollwing.DNSCapture
import Tollwing.Handover
import Tollwing.NodeTotals
import Tollwing.Outlets
import Tollwing.PollAccounting

/-! ### The drop counters -/

/-- `DropCounters`. -/
structure DropCounters where
  eventsRingbuf : UInt64
  flowAggregates : UInt64
  dnsRingbuf : UInt64
  quicFlows : UInt64
  deriving DecidableEq, Repr

def DropCounters.ringbufDrops (d : DropCounters) : UInt64 := d.eventsRingbuf + d.dnsRingbuf

def DropCounters.mapUpdateDrops (d : DropCounters) : UInt64 := d.flowAggregates + d.quicFlows

/-! ### The system -/

/-- What happens outside the agent's process: a step of the kernel, a change of the
configuration, or a received datagram. -/
inductive Outside (n : ℕ)
  | background (e : Background n)
  | dns (c : DNSCall n)

/-- The agent of a node. -/
structure NodeSystem (n : ℕ) where
  node : NodeAgent n
  dns : DNSCapture n
  poller : Poller
  agent : PollAgent
  /-- The exporter's copies of the kernel's drop counters. -/
  ringbufDrops : UInt64
  mapUpdateDrops : UInt64

/-- One tick of the poll loop: what its poll meets, what happens before it reads each drop
counter, whether that read succeeds, and what the handler finds beside each snapshot. -/
structure Tick (n : ℕ) where
  script : PollScript n
  gaps : DropSlot → List (Outside n)
  readOk : Bool
  around : ℕ → PollView

inductive SystemStep (n : ℕ)
  | outside (e : Outside n)
  | tick (t : Tick n)

/-- The snapshots of a batch as the handler finds them. -/
def Tick.views {n : ℕ} (t : Tick n) (flows : List FlowSnapshot) : List PollView :=
  flows.mapIdx fun i snap => { t.around i with snap := snap }

/-- All that happens while the drop counters are read. -/
def Tick.meanwhile {n : ℕ} (t : Tick n) : List (Outside n) :=
  t.gaps .eventsRingbuf ++ t.gaps .flowAggregates ++ t.gaps .dnsRingbuf ++ t.gaps .quicFlows

/-- What has happened when a slot is looked up. -/
def Tick.upTo {n : ℕ} (t : Tick n) : DropSlot → List (Outside n)
  | .eventsRingbuf => t.gaps .eventsRingbuf
  | .flowAggregates => t.gaps .eventsRingbuf ++ t.gaps .flowAggregates
  | .dnsRingbuf => t.gaps .eventsRingbuf ++ t.gaps .flowAggregates ++ t.gaps .dnsRingbuf
  | .quicFlows => t.meanwhile

theorem Tick.exists_meanwhile {n : ℕ} (t : Tick n) (slot : DropSlot) :
    ∃ rest, t.meanwhile = t.upTo slot ++ rest := by
  cases slot with
  | eventsRingbuf =>
    refine ⟨t.gaps .flowAggregates ++ (t.gaps .dnsRingbuf ++ t.gaps .quicFlows), ?_⟩
    simp only [upTo, meanwhile, List.append_assoc]
  | flowAggregates =>
    refine ⟨t.gaps .dnsRingbuf ++ t.gaps .quicFlows, ?_⟩
    simp only [upTo, meanwhile, List.append_assoc]
  | dnsRingbuf => exact ⟨t.gaps .quicFlows, rfl⟩
  | quicFlows => exact ⟨[], (List.append_nil _).symm⟩

namespace NodeSystem

variable (host : ByteOrder) (l : Loader) {n : ℕ}

/-- The system when the poll loop starts, with both sinks and nothing in them. -/
def start (boot : List (KernelStep n)) (p : Poller) (engine : Option Engine)
    (provider region : String) : NodeSystem n :=
  { node := .start host l boot
    dns := .new
    poller := p
    agent :=
      { host := host
        costEngine := engine
        resolvedProvider := provider
        resolvedRegion := region
        exporter := some ⟨.new, 0⟩
        natsPublisher := some []
        pollClassified := [] }
    ringbufDrops := 0
    mapUpdateDrops := 0 }

def outsideStep (s : NodeSystem n) : Outside n → NodeSystem n
  | .background e => { s with node := s.node.background host l e }
  | .dns c => { s with dns := s.dns.dnsRecvmsg host c }

/-- A slot of `drop_counters`, summed over the CPUs.  The slot of the DNS capture is kept
with the capture. -/
def readSlot (s : NodeSystem n) (slot : DropSlot) : UInt64 :=
  let perCPU := if slot = .dnsRingbuf then s.dns.drops else s.node.plane.kernel.dropCounters slot
  (List.finRange n).foldl (fun sum i => sum + perCPU i) 0

/-- `ReadDropCounters`: the slots are looked up one after the other. -/
def readDropCounters (s : NodeSystem n) (gaps : DropSlot → List (Outside n)) :
    NodeSystem n × DropCounters :=
  let s₁ := (gaps .eventsRingbuf).foldl (outsideStep host l) s
  let s₂ := (gaps .flowAggregates).foldl (outsideStep host l) s₁
  let s₃ := (gaps .dnsRingbuf).foldl (outsideStep host l) s₂
  let s₄ := (gaps .quicFlows).foldl (outsideStep host l) s₃
  (s₄, ⟨s₁.readSlot .eventsRingbuf, s₂.readSlot .flowAggregates, s₃.readSlot .dnsRingbuf,
    s₄.readSlot .quicFlows⟩)

/-- `SetKernelDropStats`, which `OnDrops` calls. -/
def setKernelDropStats (s : NodeSystem n) (dc : DropCounters) : NodeSystem n :=
  { s with ringbufDrops := dc.ringbufDrops, mapUpdateDrops := dc.mapUpdateDrops }

/-- A tick: `poll` and, if there are flows, the handler.  `none` is a panic. -/
def tick (s : NodeSystem n) (t : Tick n) : Option (NodeSystem n) := do
  let (p, node, flows) ← s.poller.poll host l s.node t.script
  let (s, dc) := readDropCounters host l { s with poller := p, node := node } t.gaps
  let s := if t.readOk then s.setKernelDropStats dc else s
  return if 0 < flows.length then { s with agent := s.agent.handlePoll (t.views flows) } else s

def step (s : NodeSystem n) : SystemStep n → Option (NodeSystem n)
  | .outside e => some (s.outsideStep host l e)
  | .tick t => s.tick host l t

def run (s : NodeSystem n) (steps : List (SystemStep n)) : Option (NodeSystem n) :=
  steps.foldlM (step host l) s

end NodeSystem

/-! ### The run of the node agent -/

def Outside.nodeSteps {n : ℕ} : Outside n → List (NodeStep n)
  | .background e => [e.nodeStep]
  | .dns _ => []

def Outside.dnsCalls {n : ℕ} : Outside n → List (DNSCall n)
  | .background _ => []
  | .dns c => [c]

def SystemStep.dnsCalls {n : ℕ} : SystemStep n → List (DNSCall n)
  | .outside e => e.dnsCalls
  | .tick t => t.meanwhile.flatMap Outside.dnsCalls

namespace NodeSystem

variable (host : ByteOrder) (l : Loader) {n : ℕ}

/-- The steps of the node agent that a step of the system comes to. -/
def nodeSteps (s : NodeSystem n) : SystemStep n → List (NodeStep n)
  | .outside e => e.nodeSteps
  | .tick t =>
    s.poller.steps host l s.node t.script ++ [.deliver] ++ t.meanwhile.flatMap Outside.nodeSteps

/-- The run of the node agent that a run of the system is. -/
def trace (s : NodeSystem n) : List (SystemStep n) → List (NodeStep n)
  | [] => []
  | e :: steps =>
    s.nodeSteps host l e ++
      match s.step host l e with
      | none => []
      | some s' => s'.trace steps

end NodeSystem

/-! ### The node agent inside -/

namespace NodeAgent

variable (host : ByteOrder) (l : Loader) {n : ℕ}

/-- The agent with earlier polls before its own. -/
def after (s : NodeAgent n) (polls : List (List FlowSnapshot × List FlowSnapshot)) : NodeAgent n :=
  { s with polls := polls ++ s.polls }

variable (s : NodeAgent n) (polls : List (List FlowSnapshot × List FlowSnapshot))

theorem step_after (e : NodeStep n) :
    (s.after polls).step host l e = (s.step host l e).after polls := by
  cases e with
  | kernel e =>
    show (s.after polls).kernelStep host l e = (s.kernelStep host l e).after polls
    cases e with
    | hook env h =>
      rw [kernelStep, kernelStep]
      split_ifs <;> rfl
    | egress env send frame =>
      rw [kernelStep, kernelStep]
      split_ifs <;> rfl
    | evictConnection cookie => rfl
    | evictOriginalDst cookie => rfl
  | takeFlow key =>
    show (s.after polls).takeFlow key = (s.takeFlow key).after polls
    have htable : (s.after polls).plane.kernel.flowAggregates = s.plane.kernel.flowAggregates := rfl
    rw [takeFlow, takeFlow, htable]
    cases s.plane.kernel.flowAggregates.lookup key <;> rfl
  | takeQuic key =>
    show (s.after polls).takeQuic key = (s.takeQuic key).after polls
    have htable : (s.after polls).plane.quicFlows = s.plane.quicFlows := rfl
    rw [takeQuic, takeQuic, htable]
    cases s.plane.quicFlows.lookup key <;> rfl
  | deliver =>
    exact congrArg (fun polls => { s with flows := [], quic := [], polls := polls })
      (List.append_assoc _ _ _)
  | setEnabled enabled => rfl

/-- Earlier polls make no difference to a run. -/
theorem foldl_after (run : List (NodeStep n)) :
    run.foldl (step host l) (s.after polls) = (run.foldl (step host l) s).after polls := by
  induction run generalizing s with
  | nil => rfl
  | cons e run ih => rw [List.foldl_cons, step_after, ih, List.foldl_cons]

end NodeAgent

namespace NodeSystem

variable (host : ByteOrder) (l : Loader) {n : ℕ}

/-- The state after what a run of the node agent and some received datagrams have done. -/
structure Follows (boot : List (KernelStep n)) (p : Poller) (s : NodeSystem n)
    (tr : List (NodeStep n)) (calls : List (DNSCall n)) : Prop where
  idle : s.node.Idle
  polls : s.node.polls = []
  shape : Poller.SameShape n p s.poller
  node : ∃ polls, NodeAgent.exec host l boot tr = s.node.after polls
  dns : s.dns = calls.foldl (DNSCapture.dnsRecvmsg host) .new

variable {host l} {boot : List (KernelStep n)} {p : Poller} {s : NodeSystem n}
  {tr : List (NodeStep n)} {calls : List (DNSCall n)}

theorem follows_start (boot : List (KernelStep n)) {p : Poller} (hp : p.Sized n)
    (engine : Option Engine) (provider region : String) :
    (start host l boot p engine provider region).Follows host l boot p [] [] where
  idle := by
    show (NodeAgent.start host l boot).Idle
    rw [NodeAgent.start_eq]
    rfl
  polls := by
    show (NodeAgent.start host l boot).polls = []
    rw [NodeAgent.start_eq]
    rfl
  shape := ⟨hp, rfl, rfl, rfl⟩
  node := ⟨[], rfl⟩
  dns := rfl

theorem Follows.outsideStep (h : s.Follows host l boot p tr calls) (e : Outside n) :
    (s.outsideStep host l e).Follows host l boot p (tr ++ e.nodeSteps) (calls ++ e.dnsCalls) := by
  cases e with
  | background e =>
    obtain ⟨polls, hnode⟩ := h.node
    refine
      { idle := h.idle.background host l e
        polls := (s.node.background_polls host l e).trans h.polls
        shape := h.shape
        node := ⟨polls, ?_⟩
        dns := by
          rw [Outside.dnsCalls, List.append_nil]
          exact h.dns }
    rw [NodeAgent.exec, List.foldl_append, ← NodeAgent.exec, hnode, NodeAgent.foldl_after]
    rfl
  | dns c =>
    refine
      { idle := h.idle
        polls := h.polls
        shape := h.shape
        node := by
          rw [Outside.nodeSteps, List.append_nil]
          exact h.node
        dns := ?_ }
    rw [Outside.dnsCalls, List.foldl_append, ← h.dns]
    rfl

theorem Follows.outside (h : s.Follows host l boot p tr calls) (es : List (Outside n)) :
    (es.foldl (NodeSystem.outsideStep host l) s).Follows host l boot p
      (tr ++ es.flatMap Outside.nodeSteps) (calls ++ es.flatMap Outside.dnsCalls) := by
  induction es generalizing s tr calls with
  | nil =>
    rw [List.flatMap_nil, List.flatMap_nil, List.append_nil, List.append_nil]
    exact h
  | cons e es ih =>
    rw [List.flatMap_cons, List.flatMap_cons, ← List.append_assoc, ← List.append_assoc]
    exact ih (h.outsideStep e)

/-- The poll of a tick. -/
theorem Follows.poll (h : s.Follows host l boot p tr calls) {script : PollScript n}
    (hatomic : p.Atomic script) :
    ∃ p' node flows quic,
      s.poller.poll host l s.node script = some (p', node, appendQuicFlows flows quic) ∧
      ({ s with poller := p', node := node } : NodeSystem n).Follows host l boot p
        (tr ++ (s.poller.steps host l s.node script ++ [.deliver])) calls ∧
      (NodeAgent.exec host l boot
          (tr ++ (s.poller.steps host l s.node script ++ [.deliver]))).polls
        = (NodeAgent.exec host l boot tr).polls ++ [(flows, quic)] := by
  have hatomic' : s.poller.Atomic script := by
    obtain ⟨hflows, hquic⟩ := hatomic
    refine ⟨fun hb => hflows ?_, fun hq => hquic ?_⟩
    · rw [← h.shape.useBatch, hb]
    · rw [← h.shape.quicMap, hq]
  obtain ⟨p', node, flows, quic, hpoll, hshape, hidle, hpolls, hrun⟩ :=
    Poller.poll_refines host l h.shape.sized h.idle hatomic'
  obtain ⟨polls, hnode⟩ := h.node
  rw [h.polls] at hpolls
  have hexec : NodeAgent.exec host l boot
        (tr ++ (s.poller.steps host l s.node script ++ [.deliver]))
      = node.after (polls ++ [(flows, quic)]) := by
    rw [NodeAgent.exec, List.foldl_append, ← NodeAgent.exec, hnode, NodeAgent.foldl_after, hrun,
      hpolls]
    show NodeAgent.mk _ _ _ (polls ++ ([] ++ [(flows, quic)]))
      = NodeAgent.mk _ _ _ (_ ++ node.polls)
    rw [hpolls, List.nil_append, List.append_nil]
  refine ⟨p', node, flows, quic, hpoll, ?_, ?_⟩
  · exact
      { idle := hidle
        polls := hpolls
        shape := ⟨hshape.sized, hshape.batchSize.trans h.shape.batchSize,
          hshape.useBatch.trans h.shape.useBatch, hshape.quicMap.trans h.shape.quicMap⟩
        node := ⟨_, hexec⟩
        dns := h.dns }
  · rw [hexec, hnode]
    show _ ++ node.polls = (polls ++ s.node.polls) ++ _
    rw [hpolls, h.polls, List.append_nil, List.append_nil]

end NodeSystem

/-! ### Drops -/

theorem foldl_add_sum {α M : Type*} [AddMonoid M] (f : α → M) (as : List α) (m : M) :
    as.foldl (fun sum a => sum + f a) m = m + (as.map f).sum := by
  induction as generalizing m with
  | nil => exact (add_zero m).symm
  | cons a as ih => rw [List.foldl_cons, ih, List.map_cons, List.sum_cons, add_assoc]

namespace NodeSystem

variable (host : ByteOrder) (l : Loader) {n : ℕ} (boot : List (KernelStep n))

/-- The number of losses by the slot that counts them. -/
def losses (tr : List (NodeStep n)) (calls : List (DNSCall n)) (slot : DropSlot) : ℕ :=
  if slot = .dnsRingbuf then (DNSCapture.lost host calls).length
  else History.countAlong (NodeAgent.step host l) (NodeAgent.loses host l slot)
    (NodeAgent.start host l boot) tr

/-- What is lost stays lost. -/
theorem losses_le (tr tr' : List (NodeStep n)) (calls calls' : List (DNSCall n)) (slot : DropSlot) :
    losses host l boot tr calls slot ≤ losses host l boot (tr ++ tr') (calls ++ calls') slot := by
  rw [losses, losses]
  split_ifs
  · rw [DNSCapture.lost, DNSCapture.lost, List.filterMap_append, List.length_append]
    omega
  · rw [History.countAlong_append]
    omega

variable {host l boot} {p : Poller} {s : NodeSystem n} {tr : List (NodeStep n)}
  {calls : List (DNSCall n)}

/-- **A slot holds the number of its losses.** -/
theorem Follows.readSlot (h : s.Follows host l boot p tr calls) (slot : DropSlot) :
    s.readSlot slot = .ofNat (losses host l boot tr calls slot) := by
  rw [NodeSystem.readSlot, foldl_add_sum, zero_add, ← List.ofFn_eq_map, List.sum_ofFn, losses]
  by_cases hslot : slot = .dnsRingbuf
  · rw [if_pos hslot, if_pos hslot, h.dns, (DNSCapture.foldl_dnsRecvmsg host calls .new).2]
    have hzero : ∑ i : Fin n, (DNSCapture.new : DNSCapture n).drops i = 0 := Finset.sum_const_zero
    rw [hzero, zero_add]
  · rw [if_neg hslot, if_neg hslot]
    obtain ⟨polls, hnode⟩ := h.node
    have hkernel : s.node.plane.kernel = (NodeAgent.exec host l boot tr).plane.kernel := by
      rw [hnode]
      rfl
    rw [hkernel]
    exact NodeAgent.dropTotal_exec host l slot boot tr

variable (host l) in
theorem readDropCounters_eq (s : NodeSystem n) (t : Tick n) :
    let after : DropSlot → NodeSystem n := fun slot =>
      (t.upTo slot).foldl (NodeSystem.outsideStep host l) s
    NodeSystem.readDropCounters host l s t.gaps
      = (after .quicFlows, ⟨(after .eventsRingbuf).readSlot .eventsRingbuf,
          (after .flowAggregates).readSlot .flowAggregates,
          (after .dnsRingbuf).readSlot .dnsRingbuf, (after .quicFlows).readSlot .quicFlows⟩) := by
  simp only [NodeSystem.readDropCounters, Tick.upTo, Tick.meanwhile, List.foldl_append]

/-- What a read of the drop counters brings: each slot's losses at some moment of the
read. -/
theorem Follows.readDropCounters (h : s.Follows host l boot p tr calls) (t : Tick n) :
    let dc := (NodeSystem.readDropCounters host l s t.gaps).2
    ∃ lost : DropSlot → ℕ,
      (∀ slot, losses host l boot tr calls slot ≤ lost slot ∧
        lost slot ≤ losses host l boot (tr ++ t.meanwhile.flatMap Outside.nodeSteps)
          (calls ++ t.meanwhile.flatMap Outside.dnsCalls) slot) ∧
      dc.ringbufDrops = .ofNat (lost .eventsRingbuf + lost .dnsRingbuf) ∧
      dc.mapUpdateDrops = .ofNat (lost .flowAggregates + lost .quicFlows) := by
  intro dc
  have hread : ∀ slot, ((t.upTo slot).foldl (NodeSystem.outsideStep host l) s).readSlot slot
      = UInt64.ofNat (losses host l boot (tr ++ (t.upTo slot).flatMap Outside.nodeSteps)
          (calls ++ (t.upTo slot).flatMap Outside.dnsCalls) slot) :=
    fun slot => (h.outside (t.upTo slot)).readSlot slot
  have hdc := congrArg Prod.snd (readDropCounters_eq host l s t)
  refine ⟨fun slot => losses host l boot (tr ++ (t.upTo slot).flatMap Outside.nodeSteps)
    (calls ++ (t.upTo slot).flatMap Outside.dnsCalls) slot, fun slot => ⟨?_, ?_⟩, ?_, ?_⟩
  · exact losses_le host l boot tr _ calls _ slot
  · obtain ⟨rest, hrest⟩ := t.exists_meanwhile slot
    rw [hrest, List.flatMap_append, List.flatMap_append, ← List.append_assoc, ← List.append_assoc]
    exact losses_le host l boot _ _ _ _ slot
  · rw [UInt64.ofNat_add, ← hread, ← hread]
    exact congrArg DropCounters.ringbufDrops hdc
  · rw [UInt64.ofNat_add, ← hread, ← hread]
    exact congrArg DropCounters.mapUpdateDrops hdc

/-! ### Ticks -/

variable (host l) in
/-- What happens outside the process ends no poll. -/
theorem handed_outside (s : NodeAgent n) (es : List (Outside n)) :
    ((es.flatMap Outside.nodeSteps).foldl (NodeAgent.step host l) s).handed = s.handed := by
  induction es generalizing s with
  | nil => rfl
  | cons e es ih =>
    rw [List.flatMap_cons, List.foldl_append, ih]
    cases e with
    | background e =>
      show (s.background host l e).handed = s.handed
      rw [NodeAgent.handed, NodeAgent.background_polls, NodeAgent.handed]
    | dns c => rfl

variable (host l) in
/-- Nor does it touch what the agent's process has. -/
theorem outside_frame (s : NodeSystem n) (es : List (Outside n)) :
    (es.foldl (NodeSystem.outsideStep host l) s).agent = s.agent ∧
      (es.foldl (NodeSystem.outsideStep host l) s).ringbufDrops = s.ringbufDrops ∧
      (es.foldl (NodeSystem.outsideStep host l) s).mapUpdateDrops = s.mapUpdateDrops := by
  induction es generalizing s with
  | nil => exact ⟨rfl, rfl, rfl⟩
  | cons e es ih =>
    obtain ⟨hagent, hringbuf, hmap⟩ := ih (s.outsideStep host l e)
    rw [List.foldl_cons, hagent, hringbuf, hmap]
    cases e <;> exact ⟨rfl, rfl, rfl⟩

/-- What is left of a tick when its poll is done. -/
def finishTick (s : NodeSystem n) (t : Tick n) (flows : List FlowSnapshot) (dc : DropCounters) :
    NodeSystem n :=
  let s := if t.readOk then s.setKernelDropStats dc else s
  if 0 < flows.length then { s with agent := s.agent.handlePoll (t.views flows) } else s

theorem tick_eq {s : NodeSystem n} {t : Tick n} {p' : Poller} {node : NodeAgent n}
    {flows : List FlowSnapshot}
    (hpoll : s.poller.poll host l s.node t.script = some (p', node, flows)) :
    let r := NodeSystem.readDropCounters host l { s with poller := p', node := node } t.gaps
    s.tick host l t = some (finishTick r.1 t flows r.2) := by
  intro r
  rw [NodeSystem.tick, hpoll]
  rfl

/-- It changes what was told to the sinks. -/
theorem finishTick_frame (s : NodeSystem n) (t : Tick n) (flows : List FlowSnapshot)
    (dc : DropCounters) : finishTick s t flows dc =
      { s with
        agent := if 0 < flows.length then s.agent.handlePoll (t.views flows) else s.agent
        ringbufDrops := if t.readOk then dc.ringbufDrops else s.ringbufDrops
        mapUpdateDrops := if t.readOk then dc.mapUpdateDrops else s.mapUpdateDrops } := by
  rw [finishTick]
  cases t.readOk <;> by_cases hflows : 0 < flows.length <;>
    simp [hflows, NodeSystem.setKernelDropStats]

/-- **A tick does not panic**, it is a run of the node agent, and what it hands on goes to
the handler. -/
theorem Follows.tick (h : s.Follows host l boot p tr calls) {t : Tick n}
    (hatomic : p.Atomic t.script) :
    ∃ s' flows, s.tick host l t = some s' ∧
      s'.Follows host l boot p (tr ++ s.nodeSteps host l (.tick t))
        (calls ++ (SystemStep.tick t).dnsCalls) ∧
      (NodeAgent.exec host l boot (tr ++ s.nodeSteps host l (.tick t))).handed
        = (NodeAgent.exec host l boot tr).handed ++ flows ∧
      s'.agent = (if 0 < flows.length then s.agent.handlePoll (t.views flows) else s.agent) ∧
      (t.readOk = false → s'.ringbufDrops = s.ringbufDrops ∧ s'.mapUpdateDrops = s.mapUpdateDrops) ∧
      (t.readOk = true → ∃ lost : DropSlot → ℕ,
        (∀ slot, losses host l boot tr calls slot ≤ lost slot ∧
          lost slot ≤ losses host l boot (tr ++ s.nodeSteps host l (.tick t))
            (calls ++ (SystemStep.tick t).dnsCalls) slot) ∧
        s'.ringbufDrops = .ofNat (lost .eventsRingbuf + lost .dnsRingbuf) ∧
        s'.mapUpdateDrops = .ofNat (lost .flowAggregates + lost .quicFlows)) := by
  obtain ⟨p', node, flows, quic, hpoll, hafter, hpolls⟩ := h.poll hatomic
  have hend := hafter.outside t.meanwhile
  have hsteps : tr ++ (s.poller.steps host l s.node t.script ++ [.deliver])
      ++ t.meanwhile.flatMap Outside.nodeSteps = tr ++ s.nodeSteps host l (.tick t) :=
    List.append_assoc _ _ _
  rw [hsteps] at hend
  obtain ⟨lost, hlost, hringbuf, hmap⟩ := hafter.readDropCounters t
  rw [hsteps] at hlost
  generalize hs₁ : ({ s with poller := p', node := node } : NodeSystem n) = s₁ at *
  have hread : (NodeSystem.readDropCounters host l s₁ t.gaps).1
      = t.meanwhile.foldl (NodeSystem.outsideStep host l) s₁ :=
    congrArg Prod.fst (readDropCounters_eq host l s₁ t)
  obtain ⟨hagent, hringbuf', hmap'⟩ := outside_frame host l s₁ t.meanwhile
  have htick := tick_eq hpoll
  rw [hs₁] at htick
  dsimp only at htick
  rw [finishTick_frame, hread, hagent, hringbuf', hmap'] at htick
  refine ⟨_, appendQuicFlows flows quic, htick,
    ⟨hend.idle, hend.polls, hend.shape, hend.node, hend.dns⟩, ?_, ?_, fun hno => ?_, fun hok => ?_⟩
  · rw [← hsteps, NodeAgent.exec, List.foldl_append, handed_outside, ← NodeAgent.exec,
      NodeAgent.handed, hpolls, List.flatMap_append, List.flatMap_singleton]
    rfl
  · rw [← hs₁]
  · rw [← hs₁]
    simp [hno]
  · refine ⟨lost, fun slot => ⟨?_, (hlost slot).2⟩, ?_, ?_⟩
    · refine le_trans ?_ (hlost slot).1
      have hle := losses_le host l boot tr (s.poller.steps host l s.node t.script ++ [.deliver])
        calls [] slot
      rwa [List.append_nil] at hle
    · simpa only [hok, if_true] using hringbuf
    · simpa only [hok, if_true] using hmap

end NodeSystem

/-! ### The sinks -/

/-- The counters by type are those of the records. -/
def MetricsState.AgreesByType (s : MetricsState ℚ) (records : List PublishedFlow) : Prop :=
  ∀ i, s.txByType i
      = ((records.filter fun r => r.trafficType.index = i).map fun r => r.txBytes).sum ∧
    s.rxByType i = ((records.filter fun r => r.trafficType.index = i).map fun r => r.rxBytes).sum ∧
    s.costByType i = ((records.filter fun r => r.trafficType.index = i).map fun r => r.costUSD).sum

/-- What both sinks were told: so many bytes, and, if no price was negative, the same by
type in bytes and in dollars. -/
structure PollAgent.Told (a : PollAgent) (priced : Prop) (bytes : UInt64) (e : Exporter ℚ)
    (sent : List (List PublishedFlow)) : Prop where
  exporter : a.exporter = some e
  publisher : a.natsPublisher = some sent
  totalBytes : e.state.totalBytes = bytes
  byType : priced → e.state.AgreesByType sent.flatten

/-- A call of the handler tells both. -/
theorem PollAgent.Told.handlePoll {a : PollAgent} {priced : Prop} {bytes : UInt64} {e : Exporter ℚ}
    {sent : List (List PublishedFlow)} (h : a.Told priced bytes e sent) {views : List PollView}
    (hprices : priced → ∀ v ∈ views, v.cards.NonnegPrices) :
    ∃ e' sent', (a.handlePoll views).Told priced
      (bytes + (views.map fun v => v.snap.bytes).sum) e' sent' := by
  have hpoll := handlePoll_eq h.exporter h.publisher views
  have hbytes : (a.classifyAll views).2.map (fun f => f.txBytes + f.rxBytes)
      = views.map fun v => v.snap.bytes := map_classifyAll views a fun _ _ => rfl
  refine ⟨_, _, by rw [hpoll], by rw [hpoll], ?_, fun hpriced i => ?_⟩
  · show (e.state.updateFromPoll (a.classifyAll views).2).totalBytes = _
    rw [MetricsState.totalBytes_updateFromPoll, hbytes, h.totalBytes]
  · have haccounts := a.accounted_classifyAll e.state (hprices hpriced)
    obtain ⟨htx, hrx, hcost⟩ := h.byType hpriced i
    have hflatten : ∀ records : List PublishedFlow,
        (sent ++ if records = [] then [] else [records]).flatten = sent.flatten ++ records := by
      intro records
      split_ifs with hnone
      · simp [hnone]
      · simp
    simp only [hflatten, List.filter_append, List.map_append, List.sum_append, ← htx, ← hrx,
      ← hcost]
    exact ⟨haccounts.txByType i, haccounts.rxByType i, haccounts.costByType i⟩

/-- No price that the handler finds in a tick is negative. -/
def Tick.Priced {n : ℕ} (t : Tick n) : Prop := ∀ i, (t.around i).cards.NonnegPrices

theorem Tick.bytes_views {n : ℕ} (t : Tick n) (flows : List FlowSnapshot) :
    (t.views flows).map (fun v => v.snap.bytes) = flows.map FlowSnapshot.bytes := by
  rw [views, List.mapIdx_eq_zipIdx_map, List.map_map]
  show flows.zipIdx.map (FlowSnapshot.bytes ∘ Prod.fst) = _
  rw [← List.map_map, List.zipIdx_map_fst]

theorem Tick.Priced.views {n : ℕ} {t : Tick n} (h : t.Priced) (flows : List FlowSnapshot) :
    ∀ v ∈ t.views flows, v.cards.NonnegPrices := by
  intro v hv
  obtain ⟨i, hi, rfl⟩ := List.mem_mapIdx.mp hv
  exact h i

namespace NodeSystem

variable {host : ByteOrder} {l : Loader} {n : ℕ} {boot : List (KernelStep n)} {p : Poller}
  {s : NodeSystem n} {tr : List (NodeStep n)} {calls : List (DNSCall n)} {priced : Prop}

/-- The bytes that the handler was given. -/
def handedBytes (s : NodeAgent n) : UInt64 := (s.handed.map FlowSnapshot.bytes).sum

/-- One step of the system. -/
theorem Follows.step (h : s.Follows host l boot p tr calls) {e : Exporter ℚ}
    {sent : List (List PublishedFlow)}
    (htold : s.agent.Told priced (handedBytes (.exec host l boot tr)) e sent) (x : SystemStep n)
    (hatomic : ∀ t, x = .tick t → p.Atomic t.script)
    (hprices : priced → ∀ t, x = .tick t → t.Priced) :
    ∃ s' e' sent', s.step host l x = some s' ∧
      s'.Follows host l boot p (tr ++ s.nodeSteps host l x) (calls ++ x.dnsCalls) ∧
      s'.agent.Told priced
        (handedBytes (.exec host l boot (tr ++ s.nodeSteps host l x))) e' sent' := by
  cases x with
  | outside x =>
    refine ⟨_, e, sent, rfl, h.outsideStep x, ?_⟩
    have hhanded := handed_outside host l (NodeAgent.exec host l boot tr) [x]
    rw [List.flatMap_singleton] at hhanded
    have hagent : (s.outsideStep host l x).agent = s.agent := by cases x <;> rfl
    rw [hagent, handedBytes, NodeAgent.exec, List.foldl_append, nodeSteps, ← NodeAgent.exec,
      hhanded]
    exact htold
  | tick t =>
    obtain ⟨s', flows, htick, hfollows, hhanded, hagent, -⟩ := h.tick (hatomic t rfl)
    rw [handedBytes, hhanded, List.map_append, List.sum_append, ← handedBytes]
    by_cases hflows : 0 < flows.length
    · obtain ⟨e', sent', htold'⟩ := htold.handlePoll fun hpriced =>
        (hprices hpriced t rfl).views flows
      rw [if_pos hflows] at hagent
      rw [t.bytes_views, ← hagent] at htold'
      exact ⟨s', e', sent', htick, hfollows, htold'⟩
    · -- the handler is not called without a flow
      obtain rfl : flows = [] := List.length_eq_zero_iff.mp (by omega)
      rw [if_neg hflows] at hagent
      rw [List.map_nil, List.sum_nil, add_zero]
      exact ⟨s', e, sent, htick, hfollows, hagent ▸ htold⟩

/-- A run of the system. -/
theorem Follows.run (steps : List (SystemStep n)) (h : s.Follows host l boot p tr calls)
    {e : Exporter ℚ} {sent : List (List PublishedFlow)}
    (htold : s.agent.Told priced (handedBytes (.exec host l boot tr)) e sent)
    (hatomic : ∀ t, .tick t ∈ steps → p.Atomic t.script)
    (hprices : priced → ∀ t, .tick t ∈ steps → t.Priced) :
    ∃ s' e' sent', s.run host l steps = some s' ∧
      s'.Follows host l boot p (tr ++ s.trace host l steps)
        (calls ++ steps.flatMap SystemStep.dnsCalls) ∧
      s'.agent.Told priced
        (handedBytes (.exec host l boot (tr ++ s.trace host l steps))) e' sent' := by
  induction steps generalizing s tr calls e sent with
  | nil =>
    refine ⟨s, e, sent, rfl, ?_, ?_⟩
    · rw [trace, List.flatMap_nil, List.append_nil, List.append_nil]
      exact h
    · rw [trace, List.append_nil]
      exact htold
  | cons x steps ih =>
    obtain ⟨s₁, e₁, sent₁, hstep, h₁, htold₁⟩ := h.step htold x
      (fun t ht => hatomic t (ht ▸ List.mem_cons_self))
      (fun hpriced t ht => hprices hpriced t (ht ▸ List.mem_cons_self))
    obtain ⟨s', e', sent', hrun, h', htold'⟩ := ih h₁ htold₁
      (fun t ht => hatomic t (List.mem_cons_of_mem x ht))
      (fun hpriced t ht => hprices hpriced t (List.mem_cons_of_mem x ht))
    have htrace : tr ++ s.trace host l (x :: steps)
        = tr ++ s.nodeSteps host l x ++ s₁.trace host l steps := by
      rw [trace, hstep, List.append_assoc]
    refine ⟨s', e', sent', ?_, ?_, ?_⟩
    · rw [NodeSystem.run, List.foldlM_cons, hstep]
      exact hrun
    · rw [htrace, List.flatMap_cons, ← List.append_assoc]
      exact h'
    · rw [htrace]
      exact htold'

/-! ### Runs from the start -/

theorem run_append (s : NodeSystem n) (steps steps' : List (SystemStep n)) :
    s.run host l (steps ++ steps') = (s.run host l steps).bind fun s => s.run host l steps' :=
  List.foldlM_append

theorem trace_append {s s₁ : NodeSystem n} {steps : List (SystemStep n)}
    (h : s.run host l steps = some s₁) (steps' : List (SystemStep n)) :
    s.trace host l (steps ++ steps') = s.trace host l steps ++ s₁.trace host l steps' := by
  induction steps generalizing s with
  | nil =>
    cases h
    rfl
  | cons x steps ih =>
    rw [NodeSystem.run, List.foldlM_cons] at h
    obtain ⟨s₂, hstep, hrun⟩ := Option.bind_eq_some_iff.mp h
    rw [List.cons_append, trace, trace, hstep]
    dsimp only
    rw [ih hrun, List.append_assoc]

variable (host l boot)

theorem told_start (p : Poller) (engine : Option Engine) (provider region : String)
    (priced : Prop) : (start host l boot p engine provider region).agent.Told priced
      (handedBytes (.exec host l boot ([] : List (NodeStep n)))) ⟨.new, 0⟩ [] where
  exporter := rfl
  publisher := rfl
  totalBytes := by
    have hhanded : (NodeAgent.exec host l boot ([] : List (NodeStep n))).handed = [] := by
      show (NodeAgent.start host l boot).handed = []
      rw [NodeAgent.start_eq]
      rfl
    rw [handedBytes, hhanded]
    exact add_eq_zero_iff_eq_neg.mpr (Finset.sum_eq_zero fun _ _ => rfl)
  byType _ _ := ⟨rfl, rfl, rfl⟩

/-- The balance of a state: no poll is running, so all snapshots were handed on. -/
theorem Follows.balanced {host : ByteOrder} {l : Loader} {boot : List (KernelStep n)} {p : Poller}
    {s : NodeSystem n} {tr : List (NodeStep n)} {calls : List (DNSCall n)}
    (h : s.Follows host l boot p tr calls) {bytes : UInt64}
    (hbytes : bytes = handedBytes (.exec host l boot tr)) {L : Ledger FlowKey Charge}
    {Q : Ledger QuicFlowKey QuicCharge} (hledgers : NodeAgent.IsLedgers host l boot tr L Q)
    (hmissed : Q.missed = 0) :
    Ledger.total Charge.bytes L.all + Ledger.total QuicCharge.bytes Q.all
      = bytes + s.node.residentBytes
        + (Ledger.total Charge.bytes L.refused + Ledger.total QuicCharge.bytes Q.refused)
        + Ledger.total Charge.bytes L.missed := by
  obtain ⟨polls, hnode⟩ := h.node
  have hsnapshots : (NodeAgent.exec host l boot tr).snapshots
      = (NodeAgent.exec host l boot tr).handed := by
    rw [hnode, NodeAgent.snapshots]
    have hflows : s.node.flows = [] := (congrArg NodeAgent.flows h.idle).symm
    have hquic : s.node.quic = [] := (congrArg NodeAgent.quic h.idle).symm
    show _ ++ appendQuicFlows s.node.flows s.node.quic = _
    rw [hflows, hquic, appendQuicFlows, List.append_nil, List.append_nil]
  have hresident : (NodeAgent.exec host l boot tr).residentBytes = s.node.residentBytes := by
    rw [hnode]
    rfl
  have hbalanced := hledgers.balanced hmissed
  rwa [hsnapshots, ← handedBytes, hresident, ← hbytes] at hbalanced

/-- **No byte is lost untold.**  Over any run of hooks, frames, evictions, toggles and ticks,
and however the hooks go on during the polls, nothing panics, and the bytes of all charges
are those that the exporter has, those that are in the maps, those that were refused for
want of room, and those received on a socket whose flow had no entry.  If no price is
negative, the exporter has of every type what was published of it, in bytes and in
dollars. -/
theorem books_balance (batchSize : ℕ) (probe : ProbeAnswer) (quicMap : Bool)
    (engine : Option Engine) (provider region : String) (steps : List (SystemStep n))
    (hatomic : ∀ t, .tick t ∈ steps → (Poller.new n batchSize probe quicMap).Atomic t.script) :
    let s₀ := start host l boot (.new n batchSize probe quicMap) engine provider region
    ∃ s e sent L Q, s₀.run host l steps = some s ∧ s.agent.exporter = some e ∧
      s.agent.natsPublisher = some sent ∧
      NodeAgent.IsLedgers host l boot (s₀.trace host l steps) L Q ∧
      (∀ c ∈ L.missed, c.hook.creates host = false) ∧
      Ledger.total Charge.bytes L.all + Ledger.total QuicCharge.bytes Q.all
        = e.state.totalBytes + s.node.residentBytes
          + (Ledger.total Charge.bytes L.refused + Ledger.total QuicCharge.bytes Q.refused)
          + Ledger.total Charge.bytes L.missed ∧
      ((∀ t, .tick t ∈ steps → t.Priced) → e.state.AgreesByType sent.flatten) := by
  intro s₀
  obtain ⟨s, e, sent, hrun, hfollows, htold⟩ := Follows.run steps
    (follows_start boot (Poller.sized_new n batchSize probe quicMap) engine provider region)
    (told_start host l boot _ engine provider region (∀ t, .tick t ∈ steps → t.Priced)) hatomic
    fun h => h
  rw [List.nil_append] at hfollows htold
  obtain ⟨L, Q, hledgers, hQmissed, hmissed, -⟩ :=
    NodeAgent.exists_ledgers_after host l boot (s₀.trace host l steps) []
  rw [List.append_nil] at hledgers
  exact ⟨s, e, sent, L, Q, hrun, htold.exporter, htold.publisher, hledgers, hmissed,
    hfollows.balanced htold.totalBytes hledgers hQmissed, htold.byType⟩

/-- A UDP socket connects while there is no room in the ring, and sends a byte. -/
def sendSteps : List (SystemStep 1) :=
  [.outside (.background (.kernel (.hook { Capture.onOneCPU with reserveOk := false } (.connect4
      { cookie := 7, protocol := ipprotoUDP, userIP4 := 0x0100000a, userPort := 0xbb01 })))),
    .outside (.background Poller.sendByte)]

/-- A tick in which it sends two more, of which the poll comes to one. -/
def sendTick : Tick 1 :=
  { script := Poller.sendScript
    gaps := fun _ => []
    readOk := true
    around := fun _ => PollAgent.gibViews.head (by simp [PollAgent.gibViews]) }

/-- The system on a host where the socket path counts. -/
def sendStart : NodeSystem 1 :=
  start .little Poller.socketHost [] (.new 1 1 .ok true) none "aws" "us-east-1"

theorem atomic_sendScript : (Poller.new 1 1 .ok true).Atomic Poller.sendScript :=
  ⟨fun h => absurd h (by decide), fun _ _ ht => absurd ht List.not_mem_nil⟩

/-- The exporter has two of the three bytes, and the third is in the map. -/
theorem books_balance_send :
    ∃ s e sent L Q,
      sendStart.run .little Poller.socketHost (sendSteps ++ [.tick sendTick]) = some s ∧
      s.agent.exporter = some e ∧ s.agent.natsPublisher = some sent ∧
      NodeAgent.IsLedgers .little Poller.socketHost []
        (sendStart.trace .little Poller.socketHost (sendSteps ++ [.tick sendTick])) L Q ∧
      e.state.totalBytes = 2 ∧ s.node.residentBytes = 1 ∧
      Ledger.total Charge.bytes L.all + Ledger.total QuicCharge.bytes Q.all
        = 3 + (Ledger.total Charge.bytes L.refused + Ledger.total QuicCharge.bytes Q.refused)
          + Ledger.total Charge.bytes L.missed := by
  have hatomic : ∀ t, .tick t ∈ sendSteps ++ [SystemStep.tick sendTick] →
      (Poller.new 1 1 .ok true).Atomic t.script := by
    intro t ht
    have htick : t = sendTick := by simpa [sendSteps] using ht
    rw [htick]
    exact atomic_sendScript
  obtain ⟨s, e, sent, L, Q, hrun, hexporter, hpublisher, hledgers, -, hbytes, -⟩ :=
    books_balance .little Poller.socketHost [] 1 .ok true none "aws" "us-east-1"
      (sendSteps ++ [.tick sendTick]) hatomic
  have hvalues : (sendStart.run .little Poller.socketHost (sendSteps ++ [.tick sendTick])).map
      (fun s => (s.agent.exporter.map fun e => e.state.totalBytes, s.node.residentBytes))
        = some (some 2, 1) := by decide +kernel
  have hrun' : sendStart.run .little Poller.socketHost (sendSteps ++ [.tick sendTick]) = some s :=
    hrun
  rw [hrun', Option.map_some, hexporter, Option.map_some] at hvalues
  obtain ⟨htotal, hresident⟩ := Prod.mk.inj (Option.some.inj hvalues)
  have htotal' := Option.some.inj htotal
  rw [htotal', hresident] at hbytes
  exact ⟨s, e, sent, L, Q, hrun, hexporter, hpublisher, hledgers, htotal', hresident, hbytes⟩

/-- The losses of a run of the system. -/
def lossesOf (s₀ : NodeSystem n) (steps : List (SystemStep n)) : DropSlot → ℕ :=
  losses host l boot (s₀.trace host l steps) (steps.flatMap SystemStep.dnsCalls)

/-- Only a read of the drop counters changes what the exporter has of them. -/
theorem Follows.keepsDrops {host : ByteOrder} {l : Loader} {boot : List (KernelStep n)} {p : Poller}
    {s : NodeSystem n} {tr : List (NodeStep n)} {calls : List (DNSCall n)}
    (h : s.Follows host l boot p tr calls) (steps : List (SystemStep n))
    (hatomic : ∀ t, .tick t ∈ steps → p.Atomic t.script)
    (hfails : ∀ t, .tick t ∈ steps → t.readOk = false) :
    ∃ s', s.run host l steps = some s' ∧ s'.ringbufDrops = s.ringbufDrops ∧
      s'.mapUpdateDrops = s.mapUpdateDrops := by
  induction steps generalizing s tr calls with
  | nil => exact ⟨s, rfl, rfl, rfl⟩
  | cons x steps ih =>
    have hstep : ∃ s₁, s.step host l x = some s₁ ∧
        (∃ tr₁ calls₁, s₁.Follows host l boot p tr₁ calls₁) ∧
        s₁.ringbufDrops = s.ringbufDrops ∧ s₁.mapUpdateDrops = s.mapUpdateDrops := by
      cases x with
      | outside x =>
        obtain ⟨-, hringbuf, hmap⟩ := outside_frame host l s [x]
        exact ⟨_, rfl, ⟨_, _, h.outsideStep x⟩, hringbuf, hmap⟩
      | tick t =>
        obtain ⟨s₁, flows, htick, h₁, -, -, hkeeps, -⟩ := h.tick (hatomic t List.mem_cons_self)
        obtain ⟨hringbuf, hmap⟩ := hkeeps (hfails t List.mem_cons_self)
        exact ⟨s₁, htick, ⟨_, _, h₁⟩, hringbuf, hmap⟩
    obtain ⟨s₁, hstep, ⟨tr₁, calls₁, h₁⟩, hringbuf, hmap⟩ := hstep
    obtain ⟨s', hrun, hringbuf', hmap'⟩ := ih h₁ (fun t ht => hatomic t (List.mem_cons_of_mem x ht))
      fun t ht => hfails t (List.mem_cons_of_mem x ht)
    refine ⟨s', ?_, hringbuf'.trans hringbuf, hmap'.trans hmap⟩
    rw [NodeSystem.run, List.foldlM_cons, hstep]
    exact hrun

/-- **The published drops are the losses.**  After the last tick whose read of the counters
succeeded, the exporter has the number of lost events and datagrams, and the number of
failed insertions into the two maps, each slot as it was at some moment of that tick. -/
theorem drops_honest (batchSize : ℕ) (probe : ProbeAnswer) (quicMap : Bool)
    (engine : Option Engine) (provider region : String) (before : List (SystemStep n)) (t : Tick n)
    (rest : List (SystemStep n)) (hread : t.readOk = true)
    (hfails : ∀ t', .tick t' ∈ rest → t'.readOk = false)
    (hatomic : ∀ t', .tick t' ∈ before ++ .tick t :: rest →
      (Poller.new n batchSize probe quicMap).Atomic t'.script) :
    let s₀ := start host l boot (.new n batchSize probe quicMap) engine provider region
    ∃ s, ∃ lost : DropSlot → ℕ, s₀.run host l (before ++ .tick t :: rest) = some s ∧
      (∀ slot, s₀.lossesOf host l boot before slot ≤ lost slot ∧
        lost slot ≤ s₀.lossesOf host l boot (before ++ [.tick t]) slot) ∧
      s.ringbufDrops = .ofNat (lost .eventsRingbuf + lost .dnsRingbuf) ∧
      s.mapUpdateDrops = .ofNat (lost .flowAggregates + lost .quicFlows) := by
  intro s₀
  obtain ⟨s₁, e, sent, hrun, h₁, -⟩ := Follows.run before
    (follows_start boot (Poller.sized_new n batchSize probe quicMap) engine provider region)
    (told_start host l boot _ engine provider region False)
    (fun t' ht => hatomic t' (List.mem_append_left _ ht)) False.elim
  rw [List.nil_append, List.nil_append] at h₁
  obtain ⟨s₂, flows, htick, h₂, -, -, -, hlost⟩ :=
    h₁.tick (hatomic t (List.mem_append_right _ List.mem_cons_self))
  obtain ⟨lost, hbounds, hringbuf, hmap⟩ := hlost hread
  obtain ⟨s, hrest, hringbuf', hmap'⟩ := h₂.keepsDrops rest
    (fun t' ht => hatomic t' (List.mem_append_right _ (List.mem_cons_of_mem _ ht))) hfails
  have htrace : s₀.trace host l (before ++ [.tick t])
      = s₀.trace host l before ++ s₁.nodeSteps host l (.tick t) := by
    have hone : s₁.trace host l [.tick t] = s₁.nodeSteps host l (.tick t) := by
      rw [trace, show s₁.step host l (.tick t) = some s₂ from htick]
      exact List.append_nil _
    rw [trace_append hrun, hone]
  refine ⟨s, lost, ?_, fun slot => ⟨(hbounds slot).1, ?_⟩, hringbuf'.trans hringbuf,
    hmap'.trans hmap⟩
  · rw [run_append, hrun, Option.bind_some, NodeSystem.run, List.foldlM_cons,
      show s₁.step host l (.tick t) = some s₂ from htick]
    exact hrest
  · rw [lossesOf, htrace, List.flatMap_append, List.flatMap_singleton]
    exact (hbounds slot).2

/-- The event for which there was no room is published as one drop. -/
theorem drops_honest_send :
    ∃ s, sendStart.run .little Poller.socketHost (sendSteps ++ [.tick sendTick]) = some s ∧
      s.ringbufDrops = 1 ∧ s.mapUpdateDrops = 0 := by
  obtain ⟨s, lost, hrun, hbounds, hringbuf, hmap⟩ :=
    drops_honest .little Poller.socketHost [] 1 .ok true none "aws" "us-east-1" sendSteps sendTick
      [] rfl (fun _ ht => absurd ht List.not_mem_nil) (fun t ht => by
        have htick : t = sendTick := by simpa [sendSteps] using ht
        rw [htick]
        exact atomic_sendScript)
  have hbefore : sendStart.lossesOf .little Poller.socketHost [] sendSteps .eventsRingbuf = 1 := by
    decide +kernel
  have hafter : ∀ slot, sendStart.lossesOf .little Poller.socketHost []
      (sendSteps ++ [.tick sendTick]) slot = if slot = .eventsRingbuf then 1 else 0 := by
    intro slot
    cases slot <;> decide +kernel
  have hlost : ∀ slot, lost slot = if slot = .eventsRingbuf then 1 else 0 := by
    intro slot
    have hle := (hbounds slot).2.trans_eq (hafter slot)
    by_cases hslot : slot = .eventsRingbuf
    · subst hslot
      have hge := hbefore.symm.trans_le (hbounds .eventsRingbuf).1
      rw [if_pos rfl] at hle ⊢
      omega
    · rw [if_neg hslot] at hle ⊢
      omega
  rw [hlost, hlost] at hringbuf hmap
  exact ⟨s, hrun, hringbuf, hmap⟩

end NodeSystem
