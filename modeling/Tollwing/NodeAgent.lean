/-
The agent with both counters of sent UDP bytes.

`NodeAgent n` is the kernel state with both maps the poller drains, the running
poll and the finished ones.  `NodeAgent.step` is one step: a socket hook, a frame
that leaves the interface, an LRU eviction, the take of one entry of either map,
the delivery that ends a poll, or the run-time toggle.  A frame carries the send
it belongs to, as the number of the step in which the application's
`udp_sendmsg` call ran; a forwarded frame has none.

A run starts with the programs attached and nothing pushed yet;
`NodeAgent.boot_eq` says that whatever happens before `pushConfig` leaves no
trace.
-/
import Tollwing.FlowLedger
import Tollwing.Loader
import Tollwing.QuicEgress
import Tollwing.SocketTables

/-! ### Polling QUIC flows (`pkg/poller/poller.go`) -/

/-- The empty snapshot of a QUIC flow: UDP, outgoing, and of no process. -/
def FlowSnapshot.ofQuicKey (key : QuicFlowKey) : FlowSnapshot :=
  { srcIP := key.srcIP
    dstIP := key.dstIP
    srcPort := key.srcPort
    dstPort := key.dstPort
    pid := 0
    protocol := ipprotoUDP
    direction := 0 }

/-- The snapshot `pollQuic` makes of an entry. -/
def quicSnapshot {n : ℕ} (key : QuicFlowKey) (perCPU : Fin n → QuicFlowMetrics) : FlowSnapshot :=
  (List.finRange n).foldl
    (fun snap i =>
      { snap with
        txBytes := snap.txBytes + (perCPU i).txBytes
        packetCount := snap.packetCount + (perCPU i).pktCount })
    (.ofQuicKey key)

/-- `appendQuicFlows`: nothing is deduplicated. -/
def appendQuicFlows (flows quic : List FlowSnapshot) : List FlowSnapshot := flows ++ quic

/-! ### The agent -/

structure NodeAgent (n : ℕ) where
  plane : QuicPlane n
  /-- The running poll: what it took of `flow_aggregates` and of `quic_flows`. -/
  flows : List FlowSnapshot
  quic : List FlowSnapshot
  /-- The finished polls. -/
  polls : List (List FlowSnapshot × List FlowSnapshot)

/-- What the kernel does by itself. -/
inductive KernelStep (n : ℕ)
  | hook (env : HookEnv n) (h : Hook)
  | egress (env : HookEnv n) (send : Option ℕ) (frame : List UInt8)
  | evictConnection (cookie : UInt64)
  | evictOriginalDst (cookie : UInt64)

inductive NodeStep (n : ℕ)
  | kernel (e : KernelStep n)
  | takeFlow (key : FlowKey)
  | takeQuic (key : QuicFlowKey)
  | deliver
  | setEnabled (enabled : Bool)

def Hook.isUDPSend : Hook → Bool
  | .udpSendmsg _ _ => true
  | _ => false

/-- Whether a hook runs: `fentry/udp_sendmsg` needs its program attached. -/
def Loader.runs (l : Loader) (h : Hook) : Bool := !h.isUDPSend || l.udpSendmsgAttached

namespace NodeAgent

variable (host : ByteOrder) (l : Loader) {n : ℕ}

/-- The agent with empty maps. -/
def init (cfg : AgentConfig) : NodeAgent n :=
  { plane := ⟨.init cfg, ∅⟩, flows := [], quic := [], polls := [] }

def mapKernel (s : NodeAgent n) (f : Kernel n → Kernel n) : NodeAgent n :=
  { s with plane := { s.plane with kernel := f s.plane.kernel } }

def kernelStep (s : NodeAgent n) : KernelStep n → NodeAgent n
  | .hook env h => if l.runs h then s.mapKernel (h.run host env) else s
  | .egress env _ frame =>
    if l.quicEgress = .attached then { s with plane := s.plane.quicEgress host env frame } else s
  | .evictConnection cookie => s.mapKernel (·.evictConnection cookie)
  | .evictOriginalDst cookie => s.mapKernel (·.evictOriginalDst cookie)

/-- Take one entry of `flow_aggregates`. -/
def takeFlow (s : NodeAgent n) (key : FlowKey) : NodeAgent n :=
  match s.plane.kernel.flowAggregates.lookup key with
  | none => s
  | some perCPU =>
    { s.mapKernel (fun k => { k with flowAggregates := k.flowAggregates.erase key }) with
      flows := s.flows ++ [sumPerCPU key perCPU] }

/-- Take one entry of `quic_flows`. -/
def takeQuic (s : NodeAgent n) (key : QuicFlowKey) : NodeAgent n :=
  match s.plane.quicFlows.lookup key with
  | none => s
  | some perCPU =>
    { s with
      plane := { s.plane with quicFlows := s.plane.quicFlows.erase key }
      quic := s.quic ++ [quicSnapshot key perCPU] }

def step (s : NodeAgent n) : NodeStep n → NodeAgent n
  | .kernel e => s.kernelStep host l e
  | .takeFlow key => s.takeFlow key
  | .takeQuic key => s.takeQuic key
  | .deliver => { s with flows := [], quic := [], polls := s.polls ++ [(s.flows, s.quic)] }
  | .setEnabled enabled => s.mapKernel (·.setEnabled enabled)

/-- The agent when `Start` is done: the kernel ran `boot` with nothing pushed,
and then the configuration was pushed. -/
def start (boot : List (KernelStep n)) : NodeAgent n :=
  (boot.foldl (kernelStep host l) (init Loader.zeroConfig)).mapKernel (·.setConfig l.agentConfig)

def exec (boot : List (KernelStep n)) (run : List (NodeStep n)) : NodeAgent n :=
  run.foldl (step host l) (start host l boot)

/-- What the handler got, poll by poll. -/
def handed (s : NodeAgent n) : List FlowSnapshot :=
  s.polls.flatMap fun poll => appendQuicFlows poll.1 poll.2

/-- Every snapshot taken so far: those of the finished polls, then those of the
running one. -/
def snapshots (s : NodeAgent n) : List FlowSnapshot := s.handed ++ appendQuicFlows s.flows s.quic

end NodeAgent

/-! ### Before the push -/

section
variable {host : ByteOrder} {l : Loader} {n : ℕ}

theorem Kernel.evictConnection_init (cfg : AgentConfig) (cookie : UInt64) :
    (Kernel.init cfg : Kernel n).evictConnection cookie = .init cfg :=
  congrArg (fun m => { (Kernel.init cfg : Kernel n) with connections := m })
    (FinMap.erase_empty cookie)

theorem Kernel.evictOriginalDst_init (cfg : AgentConfig) (cookie : UInt64) :
    (Kernel.init cfg : Kernel n).evictOriginalDst cookie = .init cfg :=
  congrArg (fun m => { (Kernel.init cfg : Kernel n) with cookieToOriginalDst := m })
    (FinMap.erase_empty cookie)

/-- With capture off a hook leaves empty maps as they are. -/
theorem Hook.run_init {cfg : AgentConfig} (hoff : cfg.enabled = false) (env : HookEnv n)
    (h : Hook) : h.run host env (.init cfg) = .init cfg := by
  have hnone : (Kernel.init cfg : Kernel n).getConfig = none := by
    rw [Kernel.getConfig, Kernel.init, if_neg (by simp [hoff])]
  have hbytes : h.countsBytes = true → h.run host env (.init cfg) = .init cfg := by
    intro hbytes
    refine Hook.run_of_untracked _ env hbytes ?_
    cases h.counting host with
    | none => rfl
    | some cnt =>
      rw [Option.bind_some, Kernel.tracked, hnone]
  cases h with
  | connect4 ctx =>
    show Kernel.connect4 host _ env ctx = _
    rw [Kernel.connect4, hnone]
  | connect6 ctx =>
    show Kernel.connect6 host _ env ctx = _
    rw [Kernel.connect6, hnone]
  | sockops skops =>
    show Kernel.sockops host _ env skops = _
    rw [Kernel.sockops, hnone]
  | sockRelease cookie protocol =>
    show Kernel.sockRelease _ cookie protocol = _
    rw [Kernel.sockRelease]
    split_ifs
    · rw [Kernel.evictConnection_init, Kernel.evictOriginalDst_init]
    · rw [Kernel.evictOriginalDst_init]
  | _ => exact hbytes rfl

namespace NodeAgent

/-- **Nothing happens before the push.** -/
theorem boot_eq (boot : List (KernelStep n)) :
    boot.foldl (kernelStep host l) (init Loader.zeroConfig) = init Loader.zeroConfig := by
  induction boot with
  | nil => rfl
  | cons e boot ih =>
    have hstep : (init Loader.zeroConfig : NodeAgent n).kernelStep host l e
        = init Loader.zeroConfig := by
      cases e with
      | hook env h =>
        rw [kernelStep, mapKernel, init, Hook.run_init rfl]
        split_ifs <;> rfl
      | egress env send frame =>
        rw [kernelStep]
        split_ifs
        · rfl
        · rfl
      | evictConnection cookie =>
        rw [kernelStep, mapKernel, init, Kernel.evictConnection_init]
      | evictOriginalDst cookie =>
        rw [kernelStep, mapKernel, init, Kernel.evictOriginalDst_init]
    rw [List.foldl_cons, hstep, ih]

/-- The agent starts with empty maps and the pushed configuration. -/
theorem start_eq (boot : List (KernelStep n)) : start host l boot = init l.agentConfig := by
  rw [start, boot_eq]
  rfl

end NodeAgent
end
