/-
The BPF maps (`pkg/ebpf/bpf/maps.h`).

The structs of the data plane and the state its hooks share, `Kernel n` on a
host with `n` possible CPUs: the agent configuration, the two cookie-keyed
tables, the per-CPU flow aggregates and drop counters, the events ring buffer
and the sockets that opted in to state callbacks.  Counters are machine words
and wrap as they do in C.  Insertions into an LRU map can displace other
entries; that is a step of its own (`Kernel.evictConnection`,
`Kernel.evictOriginalDst`), which may follow any insertion.
-/
import Mathlib.Data.Fintype.Basic
import Tollwing.FinMap
import Tollwing.NetAddr

/-- `struct agent_config`. -/
structure AgentConfig where
  enabled : Bool
  trackUDP : Bool
  sampleRate : UInt8
  udpSocketTx : Bool
  deriving DecidableEq, Repr

/-- A 128-bit address as the four words the kernel context exposes. -/
structure IP6 where
  w0 : UInt32 := 0
  w1 : UInt32 := 0
  w2 : UInt32 := 0
  w3 : UInt32 := 0
  deriving DecidableEq, Repr

/-- `struct original_dst`: the destination an application asked for. -/
structure OriginalDst where
  ip : UInt32 := 0
  port : UInt16 := 0
  family : UInt8 := 0
  pid : UInt32 := 0
  cgroupid : UInt64 := 0
  comm : String := ""
  ip6 : IP6 := {}
  deriving DecidableEq, Repr

/-- `struct conn_info`. -/
structure ConnInfo where
  srcIP : UInt32 := 0
  dstIP : UInt32 := 0
  originalDstIP : UInt32 := 0
  srcPort : UInt16 := 0
  dstPort : UInt16 := 0
  originalDstPort : UInt16 := 0
  family : UInt8 := 0
  protocol : UInt8 := 0
  pid : UInt32 := 0
  cgroupid : UInt64 := 0
  startNs : UInt64 := 0
  txBytes : UInt64 := 0
  rxBytes : UInt64 := 0
  retransmitBytes : UInt64 := 0
  retransmitCount : UInt32 := 0
  direction : UInt8 := 0
  state : UInt8 := 0
  srcIP6 : IP6 := {}
  dstIP6 : IP6 := {}
  originalDstIP6 : IP6 := {}
  deriving DecidableEq, Repr

/-- `struct flow_key`. -/
structure FlowKey where
  srcIP : UInt32
  dstIP : UInt32
  srcPort : UInt16
  dstPort : UInt16
  pid : UInt32
  protocol : UInt8
  direction : UInt8
  deriving DecidableEq, Repr

/-- `struct flow_metrics`. -/
structure FlowMetrics where
  txBytes : UInt64 := 0
  rxBytes : UInt64 := 0
  connCount : UInt64 := 0
  lastUpdatedNs : UInt64 := 0
  retransmitBytes : UInt64 := 0
  retransmitCount : UInt64 := 0
  deriving DecidableEq, Repr

/-- The slots of `drop_counters`. -/
inductive DropSlot
  | eventsRingbuf
  | flowAggregates
  | dnsRingbuf
  | quicFlows
  deriving DecidableEq, Repr

/-- `struct connect_event`. -/
structure ConnectEvent where
  protocol : UInt8
  pid : UInt32
  cookie : UInt64
  cgroupid : UInt64
  originalDstIP : UInt32
  originalDstPort : UInt16
  timestampNs : UInt64
  comm : String
  deriving DecidableEq, Repr

/-- `struct establish_event`. -/
structure EstablishEvent where
  direction : UInt8
  protocol : UInt8
  pid : UInt32
  cookie : UInt64
  cgroupid : UInt64
  srcIP : UInt32
  dstIP : UInt32
  srcPort : UInt16
  dstPort : UInt16
  originalDstIP : UInt32
  originalDstPort : UInt16
  timestampNs : UInt64
  comm : String
  deriving DecidableEq, Repr

/-- `struct close_event`. -/
structure CloseEvent where
  direction : UInt8
  protocol : UInt8
  pid : UInt32
  cookie : UInt64
  srcIP : UInt32
  dstIP : UInt32
  srcPort : UInt16
  dstPort : UInt16
  originalDstIP : UInt32
  originalDstPort : UInt16
  txBytes : UInt64
  rxBytes : UInt64
  retransmitBytes : UInt64
  retransmitCount : UInt32
  durationNs : UInt64
  timestampNs : UInt64
  deriving DecidableEq, Repr

/-- A record of the events ring buffer. -/
inductive Event
  | connect (evt : ConnectEvent)
  | establish (evt : EstablishEvent)
  | close (evt : CloseEvent)
  deriving DecidableEq, Repr

/-- The state the hooks share, on a host with `n` possible CPUs. -/
structure Kernel (n : ℕ) where
  agentConfig : AgentConfig
  cookieToOriginalDst : FinMap UInt64 OriginalDst
  connections : FinMap UInt64 ConnInfo
  flowAggregates : FinMap FlowKey (Fin n → FlowMetrics)
  dropCounters : DropSlot → Fin n → UInt64
  events : List Event
  /-- The sockets with `BPF_SOCK_OPS_STATE_CB_FLAG` set. -/
  stateCBFlag : Finset UInt64

/-- What one hook invocation finds around it: its CPU, the clock, the random
source, the current task, and whether the kernel accepts a new aggregate entry
and a new ring buffer record. -/
structure HookEnv (n : ℕ) where
  cpu : Fin n
  now : UInt64 := 0
  prandom : UInt32 := 0
  pid : UInt32 := 0
  cgroupid : UInt64 := 0
  comm : String := ""
  insertOk : Bool := true
  reserveOk : Bool := true
  deriving DecidableEq, Repr

/-- The key a connection is aggregated under. -/
def ConnInfo.flowKey (conn : ConnInfo) : FlowKey :=
  { srcIP := conn.srcIP
    dstIP := conn.dstIP
    srcPort := conn.srcPort
    dstPort := conn.dstPort
    pid := conn.pid
    protocol := conn.protocol
    direction := conn.direction }

namespace Kernel

variable {n : ℕ} (k : Kernel n)

/-- The maps as loaded: everything empty, the configuration as pushed. -/
def init (cfg : AgentConfig) : Kernel n :=
  { agentConfig := cfg
    cookieToOriginalDst := ∅
    connections := ∅
    flowAggregates := ∅
    dropCounters := fun _ _ => 0
    events := []
    stateCBFlag := ∅ }

/-- `count_drop`, on the CPU the hook runs on. -/
def countDrop (env : HookEnv n) (slot : DropSlot) : Kernel n :=
  { k with
    dropCounters := Function.update k.dropCounters slot
      (Function.update (k.dropCounters slot) env.cpu (k.dropCounters slot env.cpu + 1)) }

/-- Reserve, fill and submit a ring buffer record. -/
def submit (env : HookEnv n) (evt : Event) : Kernel n :=
  if env.reserveOk then { k with events := k.events ++ [evt] }
  else k.countDrop env .eventsRingbuf

/-- `bpf_map_update_elem(&flow_aggregates, .., BPF_NOEXIST)` on an absent key,
with `count_drop` when it fails.  A new entry is zero on every other CPU. -/
def insertFlow (env : HookEnv n) (key : FlowKey) (val : FlowMetrics) : Kernel n :=
  if env.insertOk then
    { k with
      flowAggregates := k.flowAggregates.insert key (Function.update (fun _ => {}) env.cpu val) }
  else k.countDrop env .flowAggregates

/-- Change this CPU's value of an aggregate entry in place. -/
def modifyFlow (env : HookEnv n) (key : FlowKey) (perCPU : Fin n → FlowMetrics)
    (f : FlowMetrics → FlowMetrics) : Kernel n :=
  { k with
    flowAggregates :=
      k.flowAggregates.insert key (Function.update perCPU env.cpu (f (perCPU env.cpu))) }

/-- An LRU map displaces an entry of `connections`. -/
def evictConnection (cookie : UInt64) : Kernel n :=
  { k with connections := k.connections.erase cookie }

/-- An LRU map displaces an entry of `cookie_to_original_dst`. -/
def evictOriginalDst (cookie : UInt64) : Kernel n :=
  { k with cookieToOriginalDst := k.cookieToOriginalDst.erase cookie }

/-- Userspace pushes a configuration (start-up, `SetEnabled`, reload). -/
def setConfig (cfg : AgentConfig) : Kernel n := { k with agentConfig := cfg }

end Kernel
