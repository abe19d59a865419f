/-
The BPF hooks (`pkg/ebpf/bpf/tollwing.bpf.c`, `dns.bpf.c`).

Every program that touches the connection table or the flow aggregates, as a
function on `Kernel`: the connect hooks, the sock_ops lifecycle, the TCP and
UDP byte counters, the retransmission counters and the release hook.  A hook
runs atomically.  `Hook` names one invocation with its arguments and
`Hook.run` is its effect.

The counters differ in one respect.  `updateFlowAggregate` creates a missing
aggregate entry and counts a failed insertion as a drop; the receive hook of
UDP and the two retransmission hooks (`touchFlowAggregate`) change an entry
only when it is there.
-/
import Tollwing.BpfMaps

def ipprotoTCP : UInt8 := 6
def ipprotoUDP : UInt8 := 17
def afInet : UInt32 := 2
def afInet6 : UInt32 := 10
def tcpClose : UInt32 := 7

/-- Known sidecar proxy ports: Envoy's and Linkerd's. -/
def isSidecarPort (port : UInt16) : Bool :=
  port ∈ [15001, 15006, 15090, 15021, 4143, 4191]

/-- `bpf_htonl` and `bpf_ntohl`. -/
def ByteOrder.htonl (host : ByteOrder) (v : UInt32) : UInt32 := ⟨host.putUint32 v⟩

/-- Whether a connection is sidecar-internal: loopback on both ends, or a
sidecar port on either. -/
def isSidecarSocketCookie (host : ByteOrder) (conn : ConnInfo) : Bool :=
  let lo := host.htonl 0x7F000001
  (conn.srcIP == lo && conn.dstIP == lo)
    || (isSidecarPort conn.srcPort || isSidecarPort conn.dstPort)

/-- `should_sample`: a rate of 0 or 1 tracks everything. -/
def shouldSample (sampleRate : UInt8) (prandom : UInt32) : Bool :=
  sampleRate ≤ 1 || prandom % sampleRate.toUInt32 == 0

theorem shouldSample_of_le_one {sampleRate : UInt8} (h : sampleRate ≤ 1) (prandom : UInt32) :
    shouldSample sampleRate prandom = true := by
  rw [shouldSample, decide_eq_true h, Bool.true_or]

/-- A C `int` that is positive, widened to `__u64`. -/
def Int32.toU64 (v : Int32) : UInt64 := v.toInt64.toUInt64

/-- `struct bpf_sock_addr`, as the connect hooks read it. -/
structure SockAddr where
  cookie : UInt64
  protocol : UInt8
  userIP4 : UInt32 := 0
  userIP6 : IP6 := {}
  userPort : UInt32 := 0
  deriving DecidableEq, Repr

/-- The sock_ops callbacks the program handles. -/
inductive SockOp
  | activeEstablished
  | passiveEstablished
  | stateChange
  | other
  deriving DecidableEq, Repr

/-- `struct bpf_sock_ops`, as the program reads it; `newState` is `args[1]`. -/
structure SockOps where
  cookie : UInt64
  op : SockOp
  family : UInt32
  localIP4 : UInt32 := 0
  remoteIP4 : UInt32 := 0
  localPort : UInt32 := 0
  remotePort : UInt32 := 0
  localIP6 : IP6 := {}
  remoteIP6 : IP6 := {}
  newState : UInt32 := 0
  deriving DecidableEq, Repr

namespace Kernel

variable (host : ByteOrder) {n : ℕ} (k : Kernel n) (env : HookEnv n)

/-- `get_config`: nothing when capture is disabled. -/
def getConfig : Option AgentConfig := if k.agentConfig.enabled then some k.agentConfig else none

/-! ### Connect -/

/-- The destination `cgroup/connect4` captures. -/
def connectDst4 (ctx : SockAddr) : OriginalDst :=
  { ip := ctx.userIP4
    port := (host.htonl ctx.userPort >>> 16).toUInt16
    pid := env.pid
    cgroupid := env.cgroupid
    comm := env.comm }

/-- The entry `cgroup/connect4` makes for a UDP socket, which has no establish
phase. -/
def connectConn4 (ctx : SockAddr) : ConnInfo :=
  let dst := connectDst4 host env ctx
  { dstIP := ctx.userIP4
    originalDstIP := ctx.userIP4
    dstPort := dst.port
    originalDstPort := dst.port
    pid := dst.pid
    cgroupid := dst.cgroupid
    startNs := env.now
    protocol := ipprotoUDP
    direction := 0
    state := 1 }

/-- `cgroup/connect4`. -/
def connect4 (ctx : SockAddr) : Kernel n :=
  match k.getConfig with
  | none => k
  | some cfg =>
    if ctx.protocol ≠ ipprotoTCP ∧ ¬(ctx.protocol = ipprotoUDP ∧ cfg.trackUDP) then k
    else if shouldSample cfg.sampleRate env.prandom = false then k
    else
      let dst := connectDst4 host env ctx
      let k :=
        { k with
          cookieToOriginalDst := k.cookieToOriginalDst.insert ctx.cookie dst
          -- BPF_NOEXIST: an entry the socket already has stays
          connections :=
            if ctx.protocol = ipprotoUDP ∧ k.connections.lookup ctx.cookie = none then
              k.connections.insert ctx.cookie (connectConn4 host env ctx)
            else k.connections }
      k.submit env (.connect
        { protocol := ctx.protocol
          pid := env.pid
          cookie := ctx.cookie
          cgroupid := env.cgroupid
          originalDstIP := ctx.userIP4
          originalDstPort := dst.port
          timestampNs := env.now
          comm := env.comm })

/-- The destination `cgroup/connect6` captures. -/
def connectDst6 (ctx : SockAddr) : OriginalDst :=
  { family := 10
    port := (host.htonl ctx.userPort >>> 16).toUInt16
    pid := env.pid
    cgroupid := env.cgroupid
    comm := env.comm
    ip6 := ctx.userIP6 }

/-- `cgroup/connect6`. -/
def connect6 (ctx : SockAddr) : Kernel n :=
  match k.getConfig with
  | none => k
  | some cfg =>
    if ctx.protocol ≠ ipprotoTCP ∧ ¬(ctx.protocol = ipprotoUDP ∧ cfg.trackUDP) then k
    else if shouldSample cfg.sampleRate env.prandom = false then k
    else
      let dst := connectDst6 host env ctx
      let k := { k with cookieToOriginalDst := k.cookieToOriginalDst.insert ctx.cookie dst }
      k.submit env (.connect
        { protocol := ctx.protocol
          pid := dst.pid
          cookie := ctx.cookie
          cgroupid := dst.cgroupid
          originalDstIP := 0
          originalDstPort := dst.port
          timestampNs := env.now
          comm := env.comm })

/-! ### Lifecycle -/

/-- Count one more connection of a flow, with an empty entry if it has none. -/
def seedFlow (key : FlowKey) : Kernel n :=
  match k.flowAggregates.lookup key with
  | some perCPU =>
    k.modifyFlow env key perCPU fun m =>
      { m with connCount := m.connCount + 1, lastUpdatedNs := env.now }
  | none => k.insertFlow env key { connCount := 1, lastUpdatedNs := env.now }

/-- The pre-DNAT destination an established connection is correlated with:
what `connect` stored for an outgoing one, nothing otherwise. -/
def originalDstOf (cookie : UInt64) (direction : UInt8) : OriginalDst :=
  if direction = 0 then (k.cookieToOriginalDst.lookup cookie).getD {} else {}

/-- The connection `handle_established` records. -/
def establishedConn (skops : SockOps) (direction : UInt8) : ConnInfo :=
  let orig := k.originalDstOf skops.cookie direction
  { family := skops.family.toUInt8
    srcIP := skops.localIP4
    dstIP := skops.remoteIP4
    originalDstIP := orig.ip
    srcPort := skops.localPort.toUInt16
    dstPort := (host.htonl skops.remotePort).toUInt16
    originalDstPort := orig.port
    pid := orig.pid
    cgroupid := orig.cgroupid
    startNs := env.now
    protocol := ipprotoTCP
    direction := direction
    state := 1
    srcIP6 := if skops.family = afInet6 then skops.localIP6 else {}
    dstIP6 := if skops.family = afInet6 then skops.remoteIP6 else {} }

/-- `handle_established`: consume the correlation entry, record the connection,
arm the state callback, seed the flow and emit the event. -/
def handleEstablished (skops : SockOps) (direction : UInt8) : Kernel n :=
  let orig := k.originalDstOf skops.cookie direction
  let conn := k.establishedConn host env skops direction
  let k :=
    { k with
      -- a correlation entry is used once
      cookieToOriginalDst :=
        if direction = 0 then k.cookieToOriginalDst.erase skops.cookie
        else k.cookieToOriginalDst
      connections := k.connections.insert skops.cookie conn
      stateCBFlag := insert skops.cookie k.stateCBFlag }
  (k.seedFlow env conn.flowKey).submit env (.establish
    { direction := direction
      protocol := ipprotoTCP
      pid := orig.pid
      cookie := skops.cookie
      cgroupid := conn.cgroupid
      srcIP := skops.localIP4
      dstIP := skops.remoteIP4
      srcPort := skops.localPort.toUInt16
      dstPort := conn.dstPort
      originalDstIP := orig.ip
      originalDstPort := orig.port
      timestampNs := env.now
      comm := orig.comm })

/-- `handle_state_change`: only the fully closed state ends a connection. -/
def handleStateChange (skops : SockOps) : Kernel n :=
  if skops.newState ≠ tcpClose then k
  else
    match k.connections.lookup skops.cookie with
    | none => k
    | some conn =>
      let k := k.submit env (.close
        { direction := conn.direction
          protocol := conn.protocol
          pid := conn.pid
          cookie := skops.cookie
          srcIP := conn.srcIP
          dstIP := conn.dstIP
          srcPort := conn.srcPort
          dstPort := conn.dstPort
          originalDstIP := conn.originalDstIP
          originalDstPort := conn.originalDstPort
          txBytes := conn.txBytes
          rxBytes := conn.rxBytes
          retransmitBytes := conn.retransmitBytes
          retransmitCount := conn.retransmitCount
          durationNs := env.now - conn.startNs
          timestampNs := env.now })
      -- the entry goes whether or not the event could be sent
      { k with connections := k.connections.erase skops.cookie }

/-- The `sockops` program. -/
def sockops (skops : SockOps) : Kernel n :=
  match k.getConfig with
  | none => k
  | some cfg =>
    if skops.family ≠ afInet ∧ skops.family ≠ afInet6 then k
    else
      match skops.op with
      | .activeEstablished =>
        -- without an entry `connect` has sampled the connection out
        if k.cookieToOriginalDst.lookup skops.cookie = none ∧ 1 < cfg.sampleRate then k
        else k.handleEstablished host env skops 0
      | .passiveEstablished =>
        -- incoming connections do not go through `connect`, so they are sampled here
        if shouldSample cfg.sampleRate env.prandom = false then k
        else k.handleEstablished host env skops 1
      | .stateChange => k.handleStateChange env skops
      | .other => k

/-! ### Byte counters -/

/-- `update_flow_aggregate`: add to the flow's entry, creating it if need be. -/
def updateFlowAggregate (conn : ConnInfo) (txDelta rxDelta : UInt64) : Kernel n :=
  match k.flowAggregates.lookup conn.flowKey with
  | some perCPU =>
    k.modifyFlow env conn.flowKey perCPU fun m =>
      { m with
        txBytes := m.txBytes + txDelta
        rxBytes := m.rxBytes + rxDelta
        lastUpdatedNs := env.now }
  | none =>
    k.insertFlow env conn.flowKey
      { txBytes := txDelta, rxBytes := rxDelta, connCount := 1, lastUpdatedNs := env.now }

/-- The update of the receive and retransmission hooks: an entry that is not
there is left alone, and nothing is counted. -/
def touchFlowAggregate (conn : ConnInfo) (f : FlowMetrics → FlowMetrics) : Kernel n :=
  match k.flowAggregates.lookup conn.flowKey with
  | some perCPU => k.modifyFlow env conn.flowKey perCPU f
  | none => k

/-- The body the counting hooks share: with capture on, if the socket is
tracked and `counted`, `touch` its own counters and then the aggregates. -/
def countOn (cookie : UInt64) (counted : ConnInfo → Bool) (touch : ConnInfo → ConnInfo)
    (aggregate : Kernel n → ConnInfo → Kernel n) : Kernel n :=
  match k.getConfig with
  | none => k
  | some _ =>
    match k.connections.lookup cookie with
    | none => k
    | some conn =>
      if counted conn then
        aggregate { k with connections := k.connections.insert cookie (touch conn) } conn
      else k

/-- Send `delta` bytes on a TCP socket. -/
def countTCPTx (cookie : UInt64) (delta : UInt64) : Kernel n :=
  k.countOn cookie (fun conn => !isSidecarSocketCookie host conn)
    (fun conn => { conn with txBytes := conn.txBytes + delta })
    fun k conn => k.updateFlowAggregate env conn delta 0

/-- Receive `delta` bytes on a TCP socket. -/
def countTCPRx (cookie : UInt64) (delta : UInt64) : Kernel n :=
  k.countOn cookie (fun conn => !isSidecarSocketCookie host conn)
    (fun conn => { conn with rxBytes := conn.rxBytes + delta })
    fun k conn => k.updateFlowAggregate env conn 0 delta

/-- `kprobe/tcp_sendmsg`: the size is the third register, cut to an `int`. -/
def tcpSendmsg (cookie parm3 : UInt64) : Kernel n :=
  let size := parm3.toUInt32.toInt32
  if size ≤ 0 then k else k.countTCPTx host env cookie size.toU64

/-- `kprobe/tcp_cleanup_rbuf`. -/
def tcpCleanupRbuf (cookie parm2 : UInt64) : Kernel n :=
  let copied := parm2.toUInt32.toInt32
  if copied ≤ 0 then k else k.countTCPRx host env cookie copied.toU64

/-- `fentry/tcp_sendmsg`: tested as an `int`, added as a `size_t`. -/
def tcpSendmsgFentry (cookie size : UInt64) : Kernel n :=
  if size.toUInt32.toInt32 ≤ 0 then k else k.countTCPTx host env cookie size

/-- `fentry/tcp_cleanup_rbuf`. -/
def tcpCleanupRbufFentry (cookie : UInt64) (copied : Int32) : Kernel n :=
  if copied ≤ 0 then k else k.countTCPRx host env cookie copied.toU64

/-- `fentry/udp_sendmsg`. -/
def udpSendmsg (cookie len : UInt64) : Kernel n :=
  if len.toUInt32.toInt32 ≤ 0 then k
  else
    k.countOn cookie (fun conn => conn.protocol == ipprotoUDP)
      (fun conn => { conn with txBytes := conn.txBytes + len })
      fun k conn => k.updateFlowAggregate env conn len 0

/-- `fexit/udp_recvmsg`. -/
def udpRecvmsgExit (cookie : UInt64) (ret : Int32) : Kernel n :=
  if ret ≤ 0 then k
  else
    k.countOn cookie (fun conn => conn.protocol == ipprotoUDP)
      (fun conn => { conn with rxBytes := conn.rxBytes + ret.toU64 })
      fun k conn => k.touchFlowAggregate env conn fun m =>
        { m with rxBytes := m.rxBytes + ret.toU64, lastUpdatedNs := env.now }

/-- Retransmit `len` bytes once. -/
def countRetransmit (cookie : UInt64) (len : UInt32) : Kernel n :=
  k.countOn cookie (fun _ => true)
    (fun conn =>
      { conn with
        retransmitBytes := conn.retransmitBytes + len.toUInt64
        retransmitCount := conn.retransmitCount + 1 })
    fun k conn => k.touchFlowAggregate env conn fun m =>
      { m with
        retransmitBytes := m.retransmitBytes + len.toUInt64
        retransmitCount := m.retransmitCount + 1
        lastUpdatedNs := env.now }

/-- `fentry/tcp_retransmit_skb`. -/
def tcpRetransmit (cookie : UInt64) (skbLen : UInt32) : Kernel n :=
  if skbLen = 0 then k else k.countRetransmit env cookie skbLen

/-- `fentry/tcp_send_loss_probe`: one probe of the cached MSS, or the default. -/
def tcpLossProbe (cookie : UInt64) (mssCache : UInt32) : Kernel n :=
  k.countRetransmit env cookie (if mssCache = 0 then 1460 else mssCache)

/-- `cgroup/sock_release`; not gated on the configuration, and a TCP entry is
left to the state callback. -/
def sockRelease (cookie : UInt64) (protocol : UInt8) : Kernel n :=
  let k := if protocol ≠ ipprotoTCP then k.evictConnection cookie else k
  k.evictOriginalDst cookie

end Kernel

/-! ### Invocations -/

/-- One invocation of a hook. -/
inductive Hook
  | connect4 (ctx : SockAddr)
  | connect6 (ctx : SockAddr)
  | sockops (skops : SockOps)
  | tcpSendmsg (cookie parm3 : UInt64)
  | tcpCleanupRbuf (cookie parm2 : UInt64)
  | tcpSendmsgFentry (cookie size : UInt64)
  | tcpCleanupRbufFentry (cookie : UInt64) (copied : Int32)
  | udpSendmsg (cookie len : UInt64)
  | udpRecvmsgExit (cookie : UInt64) (ret : Int32)
  | tcpRetransmit (cookie : UInt64) (skbLen : UInt32)
  | tcpLossProbe (cookie : UInt64) (mssCache : UInt32)
  | sockRelease (cookie : UInt64) (protocol : UInt8)
  deriving DecidableEq, Repr

def Hook.run (host : ByteOrder) {n : ℕ} (env : HookEnv n) (k : Kernel n) : Hook → Kernel n
  | .connect4 ctx => k.connect4 host env ctx
  | .connect6 ctx => k.connect6 host env ctx
  | .sockops skops => k.sockops host env skops
  | .tcpSendmsg cookie parm3 => k.tcpSendmsg host env cookie parm3
  | .tcpCleanupRbuf cookie parm2 => k.tcpCleanupRbuf host env cookie parm2
  | .tcpSendmsgFentry cookie size => k.tcpSendmsgFentry host env cookie size
  | .tcpCleanupRbufFentry cookie copied => k.tcpCleanupRbufFentry host env cookie copied
  | .udpSendmsg cookie len => k.udpSendmsg env cookie len
  | .udpRecvmsgExit cookie ret => k.udpRecvmsgExit env cookie ret
  | .tcpRetransmit cookie skbLen => k.tcpRetransmit env cookie skbLen
  | .tcpLossProbe cookie mssCache => k.tcpLossProbe env cookie mssCache
  | .sockRelease cookie protocol => k.sockRelease cookie protocol
