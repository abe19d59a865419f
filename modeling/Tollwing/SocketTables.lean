/-
The tables of sockets.

What each hook does to the tables that are keyed by a socket cookie, apart from
the flow aggregates and the drop counters: `Kernel.tables` is the part of the
kernel state that follows the life of sockets.

* `Kernel.tables_connect4`, `Kernel.tables_connect6`, `Kernel.tables_sockops`,
  `Kernel.tables_sockRelease` — the effect of each lifecycle hook;
* `Hook.tables_of_countsBytes` — a byte hook changes `connections` at most;
* `Hook.tablesStep` — the effects of all hooks, as one inversion (`TablesStep`);
* `TablesStep.entry_cases` — where the entries of `connections` come from.
-/
import Tollwing.FlowLedger

/-- The kernel state without the aggregates and the drop counters. -/
structure SocketTables where
  agentConfig : AgentConfig
  cookieToOriginalDst : FinMap UInt64 OriginalDst
  connections : FinMap UInt64 ConnInfo
  events : List Event
  stateCBFlag : Finset UInt64

/-- Send an event, if the ring buffer has room for it. -/
def SocketTables.emit (t : SocketTables) (reserveOk : Bool) (evt : Event) : SocketTables :=
  if reserveOk then { t with events := t.events ++ [evt] } else t

/-- Record the connection of an establishment: an outgoing one uses up its
correlation entry, and the state callback is armed. -/
def SocketTables.establish (t : SocketTables) (cookie : UInt64) (direction : UInt8)
    (conn : ConnInfo) : SocketTables :=
  { t with
    cookieToOriginalDst :=
      if direction = 0 then t.cookieToOriginalDst.erase cookie else t.cookieToOriginalDst
    connections := t.connections.insert cookie conn
    stateCBFlag := insert cookie t.stateCBFlag }

/-- The event that reports the end of a connection. -/
def ConnInfo.closeEvent (conn : ConnInfo) (cookie now : UInt64) : CloseEvent :=
  { direction := conn.direction
    protocol := conn.protocol
    pid := conn.pid
    cookie := cookie
    srcIP := conn.srcIP
    dstIP := conn.dstIP
    srcPort := conn.srcPort
    dstPort := conn.dstPort
    originalDstIP := conn.originalDstIP
    originalDstPort := conn.originalDstPort
    txBytes := conn.txBytes
    rxBytes := conn.rxBytes
    retransmitBytes := conn.retransmitBytes
    retransmitCount := conn.retransmitCount
    durationNs := now - conn.startNs
    timestampNs := now }

namespace Kernel

variable (host : ByteOrder) {n : ℕ} (k : Kernel n) (env : HookEnv n)

def tables : SocketTables :=
  { agentConfig := k.agentConfig
    cookieToOriginalDst := k.cookieToOriginalDst
    connections := k.connections
    events := k.events
    stateCBFlag := k.stateCBFlag }

/-! ### The updates that leave the tables alone -/

@[simp] theorem tables_countDrop (slot : DropSlot) : (k.countDrop env slot).tables = k.tables := rfl

@[simp] theorem tables_modifyFlow (key : FlowKey) (perCPU : Fin n → FlowMetrics)
    (f : FlowMetrics → FlowMetrics) : (k.modifyFlow env key perCPU f).tables = k.tables := rfl

@[simp] theorem tables_insertFlow (key : FlowKey) (val : FlowMetrics) :
    (k.insertFlow env key val).tables = k.tables := by
  rw [insertFlow]
  split_ifs <;> rfl

@[simp] theorem tables_seedFlow (key : FlowKey) : (k.seedFlow env key).tables = k.tables := by
  rw [seedFlow]
  cases k.flowAggregates.lookup key with
  | some perCPU => rfl
  | none => exact k.tables_insertFlow env key _

@[simp] theorem tables_updateFlowAggregate (conn : ConnInfo) (tx rx : UInt64) :
    (k.updateFlowAggregate env conn tx rx).tables = k.tables := by
  rw [updateFlowAggregate]
  cases k.flowAggregates.lookup conn.flowKey with
  | some perCPU => rfl
  | none => exact k.tables_insertFlow env _ _

@[simp] theorem tables_touchFlowAggregate (conn : ConnInfo) (f : FlowMetrics → FlowMetrics) :
    (k.touchFlowAggregate env conn f).tables = k.tables := by
  rw [touchFlowAggregate]
  cases k.flowAggregates.lookup conn.flowKey <;> rfl

theorem tables_submit (evt : Event) :
    (k.submit env evt).tables = k.tables.emit env.reserveOk evt := by
  rw [submit, SocketTables.emit]
  split_ifs <;> rfl

/-! ### Connect -/

/-- A connect that is tracked stores its destination and reports it, and makes the
entry of a UDP socket that has none. -/
theorem tables_connect4_of_tracked {ctx : SockAddr} (hon : k.agentConfig.enabled = true)
    (hproto : ctx.protocol = ipprotoTCP ∨
      ctx.protocol = ipprotoUDP ∧ k.agentConfig.trackUDP = true)
    (hsample : shouldSample k.agentConfig.sampleRate env.prandom = true) :
    ∃ evt : ConnectEvent,
      (k.connect4 host env ctx).tables = SocketTables.emit
        { k.tables with
          cookieToOriginalDst :=
            k.cookieToOriginalDst.insert ctx.cookie (connectDst4 host env ctx)
          connections :=
            if ctx.protocol = ipprotoUDP ∧ k.connections.lookup ctx.cookie = none then
              k.connections.insert ctx.cookie (connectConn4 host env ctx)
            else k.connections } env.reserveOk (.connect evt) := by
  have htracked : ¬(ctx.protocol ≠ ipprotoTCP ∧
      ¬(ctx.protocol = ipprotoUDP ∧ k.agentConfig.trackUDP)) := by tauto
  rw [connect4, getConfig, if_pos hon]
  dsimp only
  rw [if_neg htracked, if_neg (by simp [hsample])]
  exact ⟨_, tables_submit _ env _⟩

/-- A connect hook either passes the socket over, or stores its destination and
reports it; `connect4` also makes the entry of a UDP socket that has none. -/
theorem tables_connect4 (ctx : SockAddr) :
    (k.connect4 host env ctx).tables = k.tables ∨
      (ctx.protocol = ipprotoTCP ∨ ctx.protocol = ipprotoUDP ∧ k.agentConfig.trackUDP = true) ∧
      ∃ evt : ConnectEvent,
        (k.connect4 host env ctx).tables = SocketTables.emit
          { k.tables with
            cookieToOriginalDst :=
              k.cookieToOriginalDst.insert ctx.cookie (connectDst4 host env ctx)
            connections :=
              if ctx.protocol = ipprotoUDP ∧ k.connections.lookup ctx.cookie = none then
                k.connections.insert ctx.cookie (connectConn4 host env ctx)
              else k.connections } env.reserveOk (.connect evt) := by
  by_cases htracked : k.agentConfig.enabled = true ∧
      (ctx.protocol = ipprotoTCP ∨ ctx.protocol = ipprotoUDP ∧ k.agentConfig.trackUDP = true) ∧
      shouldSample k.agentConfig.sampleRate env.prandom = true
  · obtain ⟨hon, hproto, hsample⟩ := htracked
    exact Or.inr ⟨hproto, k.tables_connect4_of_tracked host env hon hproto hsample⟩
  · left
    rw [connect4, getConfig]
    by_cases hon : k.agentConfig.enabled
    · rw [if_pos hon]
      dsimp only
      by_cases hproto :
          ctx.protocol ≠ ipprotoTCP ∧ ¬(ctx.protocol = ipprotoUDP ∧ k.agentConfig.trackUDP)
      · rw [if_pos hproto]
      rw [if_neg hproto]
      by_cases hsample : shouldSample k.agentConfig.sampleRate env.prandom = false
      · rw [if_pos hsample]
      · exact absurd ⟨hon, by tauto, by simpa using hsample⟩ htracked
    · rw [if_neg hon]

theorem tables_connect6 (ctx : SockAddr) :
    (k.connect6 host env ctx).tables = k.tables ∨
      ∃ evt : ConnectEvent,
        (k.connect6 host env ctx).tables = SocketTables.emit
          { k.tables with
            cookieToOriginalDst :=
              k.cookieToOriginalDst.insert ctx.cookie (connectDst6 host env ctx) }
          env.reserveOk (.connect evt) := by
  rw [connect6, getConfig]
  by_cases hon : k.agentConfig.enabled
  · rw [if_pos hon]
    dsimp only
    split_ifs
    · exact Or.inl rfl
    · exact Or.inl rfl
    · exact Or.inr ⟨_, tables_submit _ env _⟩
  · exact Or.inl (by rw [if_neg hon])

/-! ### sock_ops -/

/-- The direction of the establishment that a callback records: none if it
reports no establishment, capture is off, or sampling passes it over. -/
def establishes (skops : SockOps) : Option UInt8 :=
  k.getConfig.bind fun cfg =>
    if skops.family ≠ afInet ∧ skops.family ≠ afInet6 then none
    else
      match skops.op with
      | .activeEstablished =>
        if k.cookieToOriginalDst.lookup skops.cookie = none ∧ 1 < cfg.sampleRate then none
        else some 0
      | .passiveEstablished =>
        if shouldSample cfg.sampleRate env.prandom = false then none else some 1
      | .stateChange | .other => none

/-- Whether a callback reports the transition to `TCP_CLOSE`, with capture on. -/
def ends (skops : SockOps) : Bool :=
  k.agentConfig.enabled && (skops.family == afInet || skops.family == afInet6)
    && skops.op == .stateChange && skops.newState == tcpClose

theorem newState_of_ends {skops : SockOps} (h : k.ends skops = true) :
    skops.newState = tcpClose := by
  rw [ends, Bool.and_eq_true, beq_iff_eq] at h
  exact h.2

/-- An establishment is recorded with capture on only, as what the callback reports. -/
theorem of_establishes {skops : SockOps} {direction : UInt8}
    (h : k.establishes env skops = some direction) :
    k.agentConfig.enabled = true ∧ (skops.op = .activeEstablished ∧ direction = 0 ∨
      skops.op = .passiveEstablished ∧ direction = 1) := by
  rw [establishes, getConfig] at h
  by_cases hon : k.agentConfig.enabled = true
  · refine ⟨hon, ?_⟩
    rw [if_pos hon, Option.bind_some] at h
    cases hop : skops.op with
    | activeEstablished =>
      simp only [hop] at h
      split_ifs at h
      exact Or.inl ⟨rfl, (Option.some.inj h).symm⟩
    | passiveEstablished =>
      simp only [hop] at h
      split_ifs at h
      exact Or.inr ⟨rfl, (Option.some.inj h).symm⟩
    | stateChange => simp [hop] at h
    | other => simp [hop] at h
  · rw [if_neg hon] at h
    cases h

/-- With capture on, the transition of a TCP socket is acted on. -/
theorem ends_of_close {skops : SockOps} (hon : k.agentConfig.enabled = true)
    (hfam : skops.family = afInet ∨ skops.family = afInet6) (hop : skops.op = .stateChange)
    (hclose : skops.newState = tcpClose) : k.ends skops = true := by
  rw [ends, hon, hop, hclose]
  rcases hfam with hfam | hfam <;> rw [hfam] <;> decide

theorem tables_handleEstablished (skops : SockOps) (direction : UInt8) :
    ∃ evt : EstablishEvent,
      (k.handleEstablished host env skops direction).tables
        = (k.tables.establish skops.cookie direction
            (k.establishedConn host env skops direction)).emit env.reserveOk (.establish evt) := by
  rw [handleEstablished, tables_submit, tables_seedFlow]
  exact ⟨_, rfl⟩

theorem tables_handleStateChange {skops : SockOps} (hclose : skops.newState = tcpClose) :
    (k.handleStateChange env skops).tables =
      match k.connections.lookup skops.cookie with
      | none => k.tables
      | some conn =>
        { k.tables.emit env.reserveOk (.close (conn.closeEvent skops.cookie env.now)) with
          connections := k.connections.erase skops.cookie } := by
  rw [handleStateChange, if_neg (not_not.mpr hclose)]
  cases hconn : k.connections.lookup skops.cookie with
  | none => rfl
  | some conn =>
    dsimp only
    rw [← tables_submit]
    -- submitting an event leaves `connections` alone
    have hsame : (k.submit env (.close (conn.closeEvent skops.cookie env.now))).connections
        = k.connections := by
      rw [submit]
      split_ifs <;> rfl
    show SocketTables.mk _ _ _ _ _ = SocketTables.mk _ _ _ _ _
    rw [← hsame]
    rfl

/-- The three things a callback can do. -/
theorem tables_sockops (skops : SockOps) :
    (k.sockops host env skops).tables =
      match k.establishes env skops with
      | some direction => (k.handleEstablished host env skops direction).tables
      | none => if k.ends skops then (k.handleStateChange env skops).tables else k.tables := by
  rw [sockops, establishes, ends, getConfig]
  by_cases hon : k.agentConfig.enabled
  · rw [if_pos hon, Option.bind_some]
    dsimp only
    by_cases hfam : skops.family ≠ afInet ∧ skops.family ≠ afInet6
    · rw [if_pos hfam, if_pos hfam]
      simp [hon, hfam]
    have hfam' : (skops.family == afInet || skops.family == afInet6) = true := by
      rw [Bool.or_eq_true, beq_iff_eq, beq_iff_eq]
      tauto
    rw [if_neg hfam, if_neg hfam, hfam', hon]
    cases hop : skops.op with
    | activeEstablished =>
      by_cases hskip : k.cookieToOriginalDst.lookup skops.cookie = none
          ∧ 1 < k.agentConfig.sampleRate
      · simp [hskip]
      · simp [hskip]
    | passiveEstablished =>
      by_cases hskip : shouldSample k.agentConfig.sampleRate env.prandom = false
      · simp [hskip]
      · simp [hskip]
    | stateChange =>
      dsimp only
      by_cases hstate : skops.newState = tcpClose
      · rw [if_pos (by simp [hstate])]
      · rw [if_neg (by simp [hstate]), handleStateChange, if_pos hstate]
    | other => rfl
  · rw [if_neg hon]
    simp [hon]

/-! ### Release -/

theorem tables_sockRelease (cookie : UInt64) (protocol : UInt8) :
    (k.sockRelease cookie protocol).tables =
      { k.tables with
        cookieToOriginalDst := k.cookieToOriginalDst.erase cookie
        connections :=
          if protocol ≠ ipprotoTCP then k.connections.erase cookie else k.connections } := by
  rw [sockRelease]
  split_ifs <;> rfl

end Kernel

/-! ### Byte hooks -/

section
variable {host : ByteOrder} {n : ℕ} (k : Kernel n) (env : HookEnv n)

/-- A counting changes `connections` at most. -/
theorem Kernel.tables_countOn (cookie : UInt64) (counted : ConnInfo → Bool)
    (touch : ConnInfo → ConnInfo) {aggregate : Kernel n → ConnInfo → Kernel n}
    (haggregate : ∀ k conn, (aggregate k conn).tables = k.tables) :
    (k.countOn cookie counted touch aggregate).tables =
      { k.tables with
        connections := (k.countOn cookie counted touch aggregate).connections } := by
  rw [Kernel.countOn]
  cases k.getConfig with
  | none => rfl
  | some _ =>
    cases k.connections.lookup cookie with
    | none => rfl
    | some conn =>
      dsimp only
      by_cases hc : counted conn = true
      · rw [if_pos hc]
        have hagg := haggregate { k with connections := k.connections.insert cookie (touch conn) }
          conn
        have hconn := congrArg SocketTables.connections hagg
        simp only [Kernel.tables] at hagg hconn ⊢
        rw [hagg, hconn]
      · rw [if_neg hc]
        rfl

theorem Hook.tables_of_countsBytes {h : Hook} (hbytes : h.countsBytes = true) :
    (h.run host env k).tables
      = { k.tables with connections := (h.run host env k).connections } := by
  have hguard : ∀ {c : Prop} [Decidable c] {k' : Kernel n},
      k'.tables = { k.tables with connections := k'.connections } →
      (if c then k else k').tables
        = { k.tables with connections := (if c then k else k').connections } := by
    intro c _ k' h
    split_ifs
    · rfl
    · exact h
  have hupdate : ∀ tx rx (k : Kernel n) conn,
      (k.updateFlowAggregate env conn tx rx).tables = k.tables :=
    fun tx rx k conn => k.tables_updateFlowAggregate env conn tx rx
  have htouch : ∀ f (k : Kernel n) conn, (k.touchFlowAggregate env conn f).tables = k.tables :=
    fun f k conn => k.tables_touchFlowAggregate env conn f
  cases h with
  | tcpSendmsg cookie parm3 => exact hguard (k.tables_countOn _ _ _ (hupdate _ _))
  | tcpCleanupRbuf cookie parm2 => exact hguard (k.tables_countOn _ _ _ (hupdate _ _))
  | tcpSendmsgFentry cookie size => exact hguard (k.tables_countOn _ _ _ (hupdate _ _))
  | tcpCleanupRbufFentry cookie copied => exact hguard (k.tables_countOn _ _ _ (hupdate _ _))
  | udpSendmsg cookie len => exact hguard (k.tables_countOn _ _ _ (hupdate _ _))
  | udpRecvmsgExit cookie ret => exact hguard (k.tables_countOn _ _ _ (htouch _))
  | tcpRetransmit cookie skbLen => exact hguard (k.tables_countOn _ _ _ (htouch _))
  | tcpLossProbe cookie mssCache => exact k.tables_countOn _ _ _ (htouch _)
  | connect4 ctx => cases hbytes
  | connect6 ctx => cases hbytes
  | sockops skops => cases hbytes
  | sockRelease cookie protocol => cases hbytes

theorem Kernel.of_tracked {cnt : Counting} {conn : ConnInfo} (h : k.tracked cnt = some conn) :
    k.connections.lookup cnt.cookie = some conn ∧ cnt.counted conn = true := by
  rw [Kernel.tracked] at h
  cases hcfg : k.getConfig with
  | none =>
    rw [hcfg] at h
    cases h
  | some cfg =>
    rw [hcfg] at h
    exact Option.filter_eq_some_iff.mp h

/-- A byte hook that counts nothing, or finds its socket untracked, changes
nothing. -/
theorem Hook.run_of_untracked {h : Hook} (hbytes : h.countsBytes = true)
    (hnone : (h.counting host).bind k.tracked = none) : h.run host env k = k := by
  cases hcnt : h.counting host with
  | none =>
    have hrun : k.CountsAs env (h.counting host) (h.run host env k) :=
      Hook.run_countsAs k env hbytes
    rw [hcnt] at hrun
    exact hrun
  | some cnt =>
    obtain ⟨body, hrun⟩ := Hook.run_eq_countOn k env hcnt
    rw [hcnt] at hnone
    rw [hrun, k.countOn_of_untracked hnone]

/-! ### The configuration and the entries -/

theorem SocketTables.agentConfig_emit (t : SocketTables) (reserveOk : Bool) (evt : Event) :
    (t.emit reserveOk evt).agentConfig = t.agentConfig := by
  rw [SocketTables.emit]
  split_ifs <;> rfl

theorem SocketTables.connections_emit (t : SocketTables) (reserveOk : Bool) (evt : Event) :
    (t.emit reserveOk evt).connections = t.connections := by
  rw [SocketTables.emit]
  split_ifs <;> rfl

theorem SocketTables.cookieToOriginalDst_emit (t : SocketTables) (reserveOk : Bool) (evt : Event) :
    (t.emit reserveOk evt).cookieToOriginalDst = t.cookieToOriginalDst := by
  rw [SocketTables.emit]
  split_ifs <;> rfl

theorem SocketTables.stateCBFlag_emit (t : SocketTables) (reserveOk : Bool) (evt : Event) :
    (t.emit reserveOk evt).stateCBFlag = t.stateCBFlag := by
  rw [SocketTables.emit]
  split_ifs <;> rfl

/-- When a hook does nothing: a connect is not tracked, a callback neither opens
nor ends a connection, or nothing is counted.  A release always acts. -/
def Hook.Idle (host : ByteOrder) (k : Kernel n) (env : HookEnv n) : Hook → Prop
  | .connect4 _ | .connect6 _ => True
  | .sockops skops =>
    k.establishes env skops = none ∧
      (k.ends skops = true → k.connections.lookup skops.cookie = none)
  | .sockRelease _ _ => False
  | h => (h.counting host).bind k.tracked = none

/-- What a hook does to the tables of sockets. -/
inductive TablesStep (host : ByteOrder) (k : Kernel n) (env : HookEnv n) :
    Hook → SocketTables → Prop
  | idle {h : Hook} (hidle : h.Idle host k env) : TablesStep host k env h k.tables
  | count {h : Hook} {cnt : Counting} {conn conn' : ConnInfo} (hcnt : h.counting host = some cnt)
      (hconn : k.tracked cnt = some conn) (hflow : conn'.flowKey = conn.flowKey)
      (hamount : ∀ c, c ≠ .retransmitCount → conn'.amount c = conn.amount c + cnt.amount c) :
      TablesStep host k env h
        { k.tables with connections := k.connections.insert cnt.cookie conn' }
  | connect4 (ctx : SockAddr) (evt : ConnectEvent)
      (hproto : ctx.protocol = ipprotoTCP ∨
        ctx.protocol = ipprotoUDP ∧ k.agentConfig.trackUDP = true) :
      TablesStep host k env (.connect4 ctx) (SocketTables.emit
        { k.tables with
          cookieToOriginalDst :=
            k.cookieToOriginalDst.insert ctx.cookie (Kernel.connectDst4 host env ctx)
          connections :=
            if ctx.protocol = ipprotoUDP ∧ k.connections.lookup ctx.cookie = none then
              k.connections.insert ctx.cookie (Kernel.connectConn4 host env ctx)
            else k.connections } env.reserveOk (.connect evt))
  | connect6 (ctx : SockAddr) (evt : ConnectEvent) :
      TablesStep host k env (.connect6 ctx) (SocketTables.emit
        { k.tables with
          cookieToOriginalDst :=
            k.cookieToOriginalDst.insert ctx.cookie (Kernel.connectDst6 host env ctx) }
        env.reserveOk (.connect evt))
  | establish (skops : SockOps) (direction : UInt8) (evt : EstablishEvent)
      (hopen : k.establishes env skops = some direction) :
      TablesStep host k env (.sockops skops)
        ((k.tables.establish skops.cookie direction
          (k.establishedConn host env skops direction)).emit env.reserveOk (.establish evt))
  | close (skops : SockOps) (conn : ConnInfo) (hends : k.ends skops = true)
      (hopen : k.establishes env skops = none)
      (hconn : k.connections.lookup skops.cookie = some conn) :
      TablesStep host k env (.sockops skops)
        { k.tables.emit env.reserveOk (.close (conn.closeEvent skops.cookie env.now)) with
          connections := k.connections.erase skops.cookie }
  | release (cookie : UInt64) (protocol : UInt8) :
      TablesStep host k env (.sockRelease cookie protocol)
        { k.tables with
          cookieToOriginalDst := k.cookieToOriginalDst.erase cookie
          connections :=
            if protocol ≠ ipprotoTCP then k.connections.erase cookie else k.connections }

/-- **Every hook has one of these effects.** -/
theorem Hook.tablesStep (h : Hook) : TablesStep host k env h (h.run host env k).tables := by
  have hcounts : h.countsBytes = true →
      h.Idle host k env = ((h.counting host).bind k.tracked = none) →
      TablesStep host k env h (h.run host env k).tables := by
    intro hbytes hidle
    cases hnone : (h.counting host).bind k.tracked with
    | none =>
      rw [Hook.run_of_untracked k env hbytes hnone]
      exact .idle (by rw [hidle]; exact hnone)
    | some conn =>
      obtain ⟨cnt, hcnt, hconn⟩ := Option.bind_eq_some_iff.mp hnone
      obtain ⟨conn', hrun, hflow, hamount⟩ := connections_counting k env hcnt hconn
      rw [Hook.tables_of_countsBytes k env hbytes, hrun]
      exact .count hcnt hconn hflow hamount
  cases h with
  | connect4 ctx =>
    show TablesStep host k env _ (k.connect4 host env ctx).tables
    rcases k.tables_connect4 host env ctx with h | ⟨hproto, evt, h⟩
    · rw [h]
      exact .idle trivial
    · rw [h]
      exact .connect4 ctx evt hproto
  | connect6 ctx =>
    show TablesStep host k env _ (k.connect6 host env ctx).tables
    rcases k.tables_connect6 host env ctx with h | ⟨evt, h⟩
    · rw [h]
      exact .idle trivial
    · rw [h]
      exact .connect6 ctx evt
  | sockops skops =>
    show TablesStep host k env _ (k.sockops host env skops).tables
    rw [k.tables_sockops host env skops]
    cases hopen : k.establishes env skops with
    | some direction =>
      obtain ⟨evt, h⟩ := k.tables_handleEstablished host env skops direction
      dsimp only
      rw [h]
      exact .establish skops direction evt hopen
    | none =>
      by_cases hends : k.ends skops = true
      · dsimp only
        rw [if_pos hends, k.tables_handleStateChange env (k.newState_of_ends hends)]
        cases hconn : k.connections.lookup skops.cookie with
        | none => exact .idle ⟨hopen, fun _ => hconn⟩
        | some conn => exact .close skops conn hends hopen hconn
      · dsimp only
        rw [if_neg hends]
        exact .idle ⟨hopen, fun h => absurd h hends⟩
  | sockRelease cookie protocol =>
    show TablesStep host k env _ (k.sockRelease cookie protocol).tables
    rw [k.tables_sockRelease cookie protocol]
    exact .release cookie protocol
  | tcpSendmsg cookie parm3 => exact hcounts rfl rfl
  | tcpCleanupRbuf cookie parm2 => exact hcounts rfl rfl
  | tcpSendmsgFentry cookie size => exact hcounts rfl rfl
  | tcpCleanupRbufFentry cookie copied => exact hcounts rfl rfl
  | udpSendmsg cookie len => exact hcounts rfl rfl
  | udpRecvmsgExit cookie ret => exact hcounts rfl rfl
  | tcpRetransmit cookie skbLen => exact hcounts rfl rfl
  | tcpLossProbe cookie mssCache => exact hcounts rfl rfl

end

/-! ### What follows from the effect -/

section
variable {host : ByteOrder} {n : ℕ} {k : Kernel n} {env : HookEnv n} {h : Hook} {t : SocketTables}

/-- No hook writes the configuration. -/
theorem TablesStep.agentConfig (hstep : TablesStep host k env h t) :
    t.agentConfig = k.agentConfig := by
  cases hstep with
  | idle hidle => rfl
  | count hcnt hconn hflow hamount => rfl
  | connect4 ctx evt hproto => exact SocketTables.agentConfig_emit _ _ _
  | connect6 ctx evt => exact SocketTables.agentConfig_emit _ _ _
  | establish skops direction evt hopen => exact SocketTables.agentConfig_emit _ _ _
  | close skops conn hends hopen hconn => exact SocketTables.agentConfig_emit _ _ _
  | release cookie protocol => rfl

theorem Hook.agentConfig_run (k : Kernel n) (env : HookEnv n) (h : Hook) :
    (h.run host env k).agentConfig = k.agentConfig :=
  (Hook.tablesStep k env h).agentConfig

/-- Where the entry of a socket comes from: it was there, `connect4` made it for
a UDP socket, or the socket was established. -/
theorem TablesStep.entry_cases (hstep : TablesStep host k env h t) {cookie : UInt64}
    {conn : ConnInfo} (hentry : t.connections.lookup cookie = some conn) :
    (∃ conn', k.connections.lookup cookie = some conn' ∧ conn.flowKey = conn'.flowKey) ∨
      (∃ ctx, h = .connect4 ctx ∧ ctx.cookie = cookie ∧ ctx.protocol = ipprotoUDP ∧
        k.agentConfig.trackUDP = true ∧ conn = Kernel.connectConn4 host env ctx) ∨
      ∃ skops direction, h = .sockops skops ∧ skops.cookie = cookie ∧
        k.establishes env skops = some direction ∧
        conn = k.establishedConn host env skops direction := by
  cases hstep with
  | idle hidle => exact Or.inl ⟨conn, hentry, rfl⟩
  | @count _ cnt old new hcnt hconn hflow hamount =>
    rcases FinMap.lookup_insert_eq_some.mp hentry with ⟨rfl, rfl⟩ | ⟨-, hentry⟩
    · exact Or.inl ⟨old, (k.of_tracked hconn).1, hflow⟩
    · exact Or.inl ⟨conn, hentry, rfl⟩
  | connect4 ctx evt hproto =>
    rw [SocketTables.connections_emit] at hentry
    dsimp only at hentry
    by_cases hnew : ctx.protocol = ipprotoUDP ∧ k.connections.lookup ctx.cookie = none
    · rw [if_pos hnew] at hentry
      rcases FinMap.lookup_insert_eq_some.mp hentry with ⟨hcookie, rfl⟩ | ⟨-, hentry⟩
      · -- the socket is not a TCP one, so UDP is tracked
        have htrack : k.agentConfig.trackUDP = true := by
          rcases hproto with htcp | ⟨-, htrack⟩
          · rw [htcp] at hnew
            cases hnew.1
          · exact htrack
        exact Or.inr (Or.inl ⟨ctx, rfl, hcookie.symm, hnew.1, htrack, rfl⟩)
      · exact Or.inl ⟨conn, hentry, rfl⟩
    · rw [if_neg hnew] at hentry
      exact Or.inl ⟨conn, hentry, rfl⟩
  | connect6 ctx evt =>
    rw [SocketTables.connections_emit] at hentry
    exact Or.inl ⟨conn, hentry, rfl⟩
  | establish skops direction evt hopen =>
    rw [SocketTables.connections_emit, SocketTables.establish] at hentry
    rcases FinMap.lookup_insert_eq_some.mp hentry with ⟨hcookie, hnew⟩ | ⟨-, hentry⟩
    · exact Or.inr (Or.inr ⟨skops, direction, rfl, hcookie.symm, hopen, hnew.symm⟩)
    · exact Or.inl ⟨conn, hentry, rfl⟩
  | close skops ended hends hopen hconn =>
    exact Or.inl ⟨conn, (FinMap.lookup_erase_eq_some.mp hentry).2, rfl⟩
  | release cookie' protocol =>
    dsimp only at hentry
    by_cases htcp : protocol ≠ ipprotoTCP
    · rw [if_pos htcp] at hentry
      exact Or.inl ⟨conn, (FinMap.lookup_erase_eq_some.mp hentry).2, rfl⟩
    · rw [if_neg htcp] at hentry
      exact Or.inl ⟨conn, hentry, rfl⟩

end
