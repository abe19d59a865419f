/-
The life of a TCP connection.

`Capture.tcp_lifecycle` puts together what `connections`, the close events and
`cookie_to_original_dst` say of a socket from its establishment to its end:
which entries a release takes (`Capture.connections_release`), how long a
correlation entry stays (`Capture.originalDst_run`), and the sessions of the
socket.  Connections that sampling passes over have no session; one of them is
`Capture.sampled_out_uncounted`.
-/
import Tollwing.TcpSessions

namespace Capture

/-! ### Release -/

/-- Every entry is of the protocol of its socket. -/
def EntriesOf (proto : UInt64 → UInt8) (t : SocketTables) : Prop :=
  ∀ cookie conn, t.connections.lookup cookie = some conn → conn.protocol = proto cookie

section
variable {host : ByteOrder} {n : ℕ} {proto : UInt64 → UInt8} {cookie : UInt64}

theorem entriesOf_hook {k : Kernel n} {env : HookEnv n} {h : Hook} {t : SocketTables}
    (hentries : EntriesOf proto k.tables) (hreported : h.Reported proto)
    (hstep : TablesStep host k env h t) : EntriesOf proto t := by
  intro cookie conn hconn
  rcases hstep.entry_cases hconn with ⟨conn', hconn', hflow⟩ |
    ⟨ctx, rfl, rfl, hudp, -, rfl⟩ | ⟨skops, direction, rfl, rfl, -, rfl⟩
  · exact (congrArg FlowKey.protocol hflow).trans (hentries cookie conn' hconn')
  · exact hudp.symm.trans hreported
  · exact hreported.1.symm

theorem entriesOf_step {s : Capture n} {e : CaptureStep n}
    (hentries : EntriesOf proto s.kernel.tables) (hreported : e.Reported proto) :
    EntriesOf proto (s.step host e).kernel.tables := by
  cases e with
  | hook env h => exact entriesOf_hook hentries hreported (Hook.tablesStep s.kernel env h)
  | take key =>
    show EntriesOf proto (s.take key).kernel.tables
    rwa [tables_take]
  | deliver => exact hentries
  | setConfig cfg => exact hentries
  | evictConnection c =>
    exact FinMap.forall_lookup_erase hentries
  | evictOriginalDst c => exact hentries

theorem entriesOf_run : ∀ {run : List (CaptureStep n)} {s : Capture n},
    EntriesOf proto s.kernel.tables → (∀ e ∈ run, e.Reported proto) →
    EntriesOf proto (run.foldl (step host) s).kernel.tables := by
  intro run
  induction run with
  | nil => exact fun h _ => h
  | cons e run ih =>
    intro s hentries hreported
    exact ih (entriesOf_step hentries (hreported e List.mem_cons_self))
      fun e' he' => hreported e' (List.mem_cons_of_mem e he')

/-- The release of a socket, as the kernel reports it, takes its UDP entry and
leaves its TCP entry; entries of other sockets stay. -/
theorem connections_release {k : Kernel n} (hentries : EntriesOf proto k.tables)
    {protocol : UInt8} (hreported : protocol = proto cookie) {c : UInt64} {conn : ConnInfo}
    (hconn : k.connections.lookup c = some conn) :
    (conn.protocol = ipprotoTCP ∨ c ≠ cookie →
      (k.sockRelease cookie protocol).connections.lookup c = some conn) ∧
    (conn.protocol = ipprotoUDP ∧ c = cookie →
      (k.sockRelease cookie protocol).connections.lookup c = none) := by
  have hproto := hentries c conn hconn
  have hrun : (k.sockRelease cookie protocol).connections
      = if protocol ≠ ipprotoTCP then k.connections.erase cookie else k.connections :=
    congrArg SocketTables.connections (k.tables_sockRelease cookie protocol)
  rw [hrun]
  constructor
  · intro hkeep
    split_ifs with htcp
    · have hc : c ≠ cookie := by
        rcases hkeep with hkeep | hkeep
        · rintro rfl
          exact htcp (hreported.trans (hproto.symm.trans hkeep))
        · exact hkeep
      rw [Finmap.lookup_erase_ne hc]
      exact hconn
    · exact hconn
  · rintro ⟨hudp, rfl⟩
    rw [if_pos, Finmap.lookup_erase]
    rw [hreported, ← hproto, hudp]
    decide

end
end Capture

/-! ### Correlation -/

/-- Whether a hook reports a connect of the socket. -/
def Hook.connects (cookie : UInt64) : Hook → Bool
  | .connect4 ctx | .connect6 ctx => ctx.cookie == cookie
  | _ => false

def CaptureStep.connects {n : ℕ} (cookie : UInt64) : CaptureStep n → Bool
  | .hook _ h => h.connects cookie
  | _ => false

namespace Capture

section
variable {host : ByteOrder} {n : ℕ} {cookie : UInt64}

/-- Only a connect of the socket makes its correlation entry. -/
theorem originalDst_hook {k : Kernel n} {env : HookEnv n} {h : Hook} {t : SocketTables}
    (hnone : k.cookieToOriginalDst.lookup cookie = none) (hconnect : h.connects cookie = false)
    (hstep : TablesStep host k env h t) : t.cookieToOriginalDst.lookup cookie = none := by
  have herase : ∀ c, (k.cookieToOriginalDst.erase c).lookup cookie = none := by
    intro c
    rw [FinMap.lookup_erase_ite]
    split_ifs
    · rfl
    · exact hnone
  cases hstep with
  | idle hidle => exact hnone
  | count hcnt hconn hflow hamount => exact hnone
  | connect4 ctx evt hproto =>
    rw [SocketTables.cookieToOriginalDst_emit]
    exact (Finmap.lookup_insert_of_ne _ (Ne.symm (by simpa [Hook.connects] using hconnect))).trans
      hnone
  | connect6 ctx evt =>
    rw [SocketTables.cookieToOriginalDst_emit]
    exact (Finmap.lookup_insert_of_ne _ (Ne.symm (by simpa [Hook.connects] using hconnect))).trans
      hnone
  | establish skops direction evt hopen =>
    rw [SocketTables.cookieToOriginalDst_emit, SocketTables.establish]
    dsimp only
    split_ifs
    · exact herase _
    · exact hnone
  | close skops conn hends hopen hconn =>
    show (SocketTables.emit _ _ _).cookieToOriginalDst.lookup cookie = none
    rw [SocketTables.cookieToOriginalDst_emit]
    exact hnone
  | release c protocol => exact herase c

theorem originalDst_step {s : Capture n} {e : CaptureStep n}
    (hnone : s.kernel.cookieToOriginalDst.lookup cookie = none)
    (hconnect : e.connects cookie = false) :
    (s.step host e).kernel.cookieToOriginalDst.lookup cookie = none := by
  cases e with
  | hook env h => exact originalDst_hook hnone hconnect (Hook.tablesStep s.kernel env h)
  | take key =>
    have htake := congrArg SocketTables.cookieToOriginalDst (s.tables_take key)
    exact (congrArg (Finmap.lookup cookie) htake).trans hnone
  | deliver => exact hnone
  | setConfig cfg => exact hnone
  | evictConnection c => exact hnone
  | evictOriginalDst c =>
    show (s.kernel.cookieToOriginalDst.erase c).lookup cookie = none
    rw [FinMap.lookup_erase_ite]
    split_ifs
    · rfl
    · exact hnone

theorem originalDst_run : ∀ {run : List (CaptureStep n)} {s : Capture n},
    s.kernel.cookieToOriginalDst.lookup cookie = none →
    (∀ e ∈ run, e.connects cookie = false) →
    (run.foldl (step host) s).kernel.cookieToOriginalDst.lookup cookie = none := by
  intro run
  induction run with
  | nil => exact fun h _ => h
  | cons e run ih =>
    intro s hnone hconnect
    exact ih (originalDst_step hnone (hconnect e List.mem_cons_self))
      fun e' he' => hconnect e' (List.mem_cons_of_mem e he')

/-- A released socket has no correlation entry. -/
theorem originalDst_release (k : Kernel n) (protocol : UInt8) :
    (k.sockRelease cookie protocol).cookieToOriginalDst.lookup cookie = none := by
  have hrun := congrArg SocketTables.cookieToOriginalDst (k.tables_sockRelease cookie protocol)
  exact (congrArg (Finmap.lookup cookie) hrun).trans (Finmap.lookup_erase _ _)

end

/-! ### The life of a connection -/

section
variable {host : ByteOrder} {n : ℕ} {proto : UInt64 → UInt8} {cfg : AgentConfig}

theorem exec_append (run run' : List (CaptureStep n)) :
    exec host cfg (run ++ run') = run'.foldl (step host) (exec host cfg run) :=
  List.foldl_append

/-- Without sampling, every establishment is recorded. -/
theorem sessionEvent_of_established {s : Capture n} {env : HookEnv n} {skops : SockOps}
    (hreported : (Hook.sockops skops).Reported proto)
    (hon : s.kernel.agentConfig.enabled = true) (hrate : s.kernel.agentConfig.sampleRate ≤ 1) :
    (skops.op = .activeEstablished →
      s.sessionEvent host skops.cookie (.hook env (.sockops skops))
        = .opened (s.kernel.establishedConn host env skops 0)) ∧
    (skops.op = .passiveEstablished →
      s.sessionEvent host skops.cookie (.hook env (.sockops skops))
        = .opened (s.kernel.establishedConn host env skops 1)) := by
  have hfam : ¬(skops.family ≠ afInet ∧ skops.family ≠ afInet6) := by
    have hfam := hreported.2
    tauto
  constructor
  · intro hop
    have hopen : s.kernel.establishes env skops = some 0 := by
      rw [Kernel.establishes, Kernel.getConfig, if_pos hon, Option.bind_some, if_neg hfam, hop]
      exact if_neg fun h => absurd h.2 (UInt8.not_lt.mpr hrate)
    simp [sessionEvent, hopen]
  · intro hop
    have hopen : s.kernel.establishes env skops = some 1 := by
      rw [Kernel.establishes, Kernel.getConfig, if_pos hon, Option.bind_some, if_neg hfam, hop]
      exact if_neg (by simp [shouldSample_of_le_one hrate])
    simp [sessionEvent, hopen]

/-- The transition to `TCP_CLOSE` ends a session. -/
theorem sessionEvent_of_close {s : Capture n} {env : HookEnv n} {skops : SockOps}
    (hreported : (Hook.sockops skops).Reported proto)
    (hon : s.kernel.agentConfig.enabled = true) (hop : skops.op = .stateChange)
    (hclose : skops.newState = tcpClose) :
    s.sessionEvent host skops.cookie (.hook env (.sockops skops)) = .ended := by
  have hopen : s.kernel.establishes env skops = none := by
    rw [Kernel.establishes, hop]
    cases s.kernel.getConfig with
    | none => rfl
    | some cfg => exact ite_self none
  have hends : s.kernel.ends skops = true := s.kernel.ends_of_close hon hreported.2 hop hclose
  simp [sessionEvent, hopen, hends]

variable (host proto cfg)

/-- **The life of a TCP connection.**  Take any run whose reports fit one
protocol for each socket, and the part of it in which capture is on and nothing
is full.  Without sampling every establishment there starts a session.  From its
establishment on, whatever else happens to the socket short of `TCP_CLOSE`, the
entry holds exactly the bytes reported since, the state callback is armed, and
further bytes are recorded for the flow; `TCP_CLOSE` sends one close event with
these bytes and removes the entry; and no other close events are sent.  A
release leaves every TCP entry and takes the UDP entry of its socket, and after
it the socket has no correlation entry. -/
theorem tcp_lifecycle {pre run : List (CaptureStep n)}
    (hreported : ∀ e ∈ pre ++ run, e.Reported proto)
    (hcapturing : Capturing host (exec host cfg pre) run) :
    (∀ a env skops b, run = a ++ .hook env (.sockops skops) :: b →
      let s := exec host cfg (pre ++ a)
      s.kernel.agentConfig.sampleRate ≤ 1 →
        (skops.op = .activeEstablished →
          s.sessionEvent host skops.cookie (.hook env (.sockops skops))
            = .opened (s.kernel.establishedConn host env skops 0)) ∧
        (skops.op = .passiveEstablished →
          s.sessionEvent host skops.cookie (.hook env (.sockops skops))
            = .opened (s.kernel.establishedConn host env skops 1))) ∧
    (∀ cookie, proto cookie = ipprotoTCP → ∀ a e mid b conn, run = a ++ e :: (mid ++ b) →
      IsSession host cookie (exec host cfg (pre ++ a)) e mid conn →
      let s := exec host cfg (pre ++ (a ++ e :: mid))
      let bytes := (mid.map (CaptureStep.tcpBytes cookie)).sum
      (cookie ∈ s.kernel.stateCBFlag ∧
        ∃ conn', s.kernel.connections.lookup cookie = some conn' ∧ conn'.flowKey = conn.flowKey ∧
          ∀ ctr, ctr = .tx ∨ ctr = .rx → conn'.amount ctr = countedOf host conn bytes ctr) ∧
      (∀ env h rest, b = .hook env h :: rest → h.tcpBytes cookie ≠ 0 →
        isSidecarSocketCookie host conn = false → ∀ i,
          s.charge host i (.hook env h) = [⟨i, h, conn.flowKey, h.tcpBytes cookie⟩] ∧
            s.kernel.posting env conn.flowKey true = .kept) ∧
      (∀ env skops rest, b = .hook env (.sockops skops) :: rest → skops.cookie = cookie →
        skops.op = .stateChange → skops.newState = tcpClose →
          closeRecords cookie (s.step host (.hook env (.sockops skops))).kernel.events
            = closeRecords cookie s.kernel.events ++ [closeRecord host (conn, bytes)] ∧
          (s.step host (.hook env (.sockops skops))).kernel.connections.lookup cookie = none)) ∧
    (∀ cookie, proto cookie = ipprotoTCP →
      (exec host cfg pre).kernel.connections.lookup cookie = none →
      closeRecords cookie (exec host cfg (pre ++ run)).kernel.events
        = closeRecords cookie (exec host cfg pre).kernel.events
          ++ (Sessions.read (sessionEvents host cookie (exec host cfg pre) run)).closed.map
            (closeRecord host)) ∧
    ∀ a env cookie protocol b, pre ++ run = a ++ .hook env (.sockRelease cookie protocol) :: b →
      let s := exec host cfg a
      let s' := s.step host (.hook env (.sockRelease cookie protocol))
      (∀ c conn, s.kernel.connections.lookup c = some conn →
        (conn.protocol = ipprotoTCP → s'.kernel.connections.lookup c = some conn) ∧
        (conn.protocol = ipprotoUDP ∧ c = cookie → s'.kernel.connections.lookup c = none)) ∧
      ((∀ e ∈ b, e.connects cookie = false) →
        (exec host cfg (pre ++ run)).kernel.cookieToOriginalDst.lookup cookie = none) := by
  have hrun : ∀ e ∈ run, e.Reported proto := fun e he => hreported e (List.mem_append_right pre he)
  refine ⟨?_, ?_, ?_, ?_⟩
  · intro a env skops b hsplit s hrate
    rw [hsplit] at hrun hcapturing
    have hon := (History.along_append.mp hcapturing).2.1.1
    rw [← exec_append] at hon
    exact sessionEvent_of_established
      (hrun _ (List.mem_append_right a List.mem_cons_self)) hon hrate
  · intro cookie htcp a e mid b conn hsplit hsession s bytes
    rw [hsplit] at hrun hcapturing
    obtain ⟨-, -, hmid⟩ := History.along_append.mp hcapturing
    rw [← exec_append] at hmid
    obtain ⟨hcapturing_mid, hb⟩ := History.along_append.mp hmid
    have hs : s = mid.foldl (step host) ((exec host cfg (pre ++ a)).step host e) := by
      show exec host cfg (pre ++ (a ++ e :: mid)) = _
      rw [← List.append_assoc, exec_append, List.foldl_cons]
    have hm : Matches host cookie (closeRecords cookie (exec host cfg (pre ++ a)).kernel.events)
        s.kernel.tables ⟨some (conn, bytes), []⟩ := by
      rw [hs]
      refine matches_session htcp hsession hcapturing_mid fun e' he' => hrun e' ?_
      simp [he']
    rw [← hs] at hb
    refine ⟨?_, ?_, ?_⟩
    · obtain ⟨hmem, -, hentry⟩ := hm.some conn bytes rfl
      exact ⟨hmem, hentry⟩
    · rintro env h rest rfl hbytes hside i
      have hreported_h : h.Reported proto := hrun (.hook env h) (by simp)
      exact charge_of_matches hm hb.1.1 hb.1.2.1 hreported_h hbytes hside i
    · rintro env skops rest rfl rfl hop hclose
      have hreported_h : (Hook.sockops skops).Reported proto :=
        hrun (.hook env (.sockops skops)) (by simp)
      have hnext := matches_step htcp hm (e := .hook env (.sockops skops)) hb.1.1 hb.1.2
        hreported_h
      rw [sessionEvent_of_close hreported_h hb.1.1 hop hclose] at hnext
      refine ⟨?_, hnext.none rfl⟩
      have hbefore := hm.closed
      rw [List.map_nil, List.append_nil] at hbefore
      exact hnext.closed.trans (by rw [← hbefore]; rfl)
  · intro cookie htcp hfresh
    have hm : Matches host cookie (closeRecords cookie (exec host cfg pre).kernel.events)
        (exec host cfg pre).kernel.tables ⟨none, []⟩ :=
      ⟨fun _ => hfresh, fun _ _ hnone => (by cases hnone), (List.append_nil _).symm⟩
    rw [exec_append]
    exact (matches_run htcp hm hcapturing hrun).closed
  · intro a env cookie protocol b hsplit s s'
    rw [hsplit] at hreported ⊢
    have hentries : EntriesOf proto s.kernel.tables :=
      entriesOf_run (fun _ _ hnone => (by cases hnone)) fun e he =>
        hreported e (List.mem_append_left _ he)
    have hreported_h : (Hook.sockRelease cookie protocol).Reported proto :=
      hreported (.hook env (.sockRelease cookie protocol)) (by simp)
    constructor
    · intro c conn hconn
      have hrelease := connections_release hentries hreported_h hconn
      exact ⟨fun htcp => hrelease.1 (Or.inl htcp), hrelease.2⟩
    · intro hconnect
      have hnone : s'.kernel.cookieToOriginalDst.lookup cookie = none :=
        originalDst_release s.kernel protocol
      rw [exec_append, List.foldl_cons]
      exact originalDst_run hnone hconnect

end

/-- Cookie 7 is a UDP socket, the others are TCP ones. -/
def oneUDP (cookie : UInt64) : UInt8 := if cookie = 7 then ipprotoUDP else ipprotoTCP

/-- The accepted connection reaches a state. -/
def tcpState (newState : UInt32) : CaptureStep 1 :=
  .hook onOneCPU (.sockops { cookie := 9, op := .stateChange, family := afInet, newState })

/-- What happens to the accepted connection before it closes: 100 bytes sent, the
peer's half-close, a UDP socket beside it, the release of the descriptor, a
poll, and 50 more bytes sent and 30 read. -/
def halfClosed : List (CaptureStep 1) :=
  [.hook onOneCPU (.tcpSendmsgFentry 9 100), tcpState 8, udpConnect,
    .hook onOneCPU (.udpSendmsg 7 40), .hook onOneCPU (.sockRelease 9 ipprotoTCP),
    .take tcpFlow, .deliver, .hook onOneCPU (.tcpSendmsg 9 50),
    .hook onOneCPU (.tcpCleanupRbuf 9 30)]

theorem tcp_lifecycle_halfClosed :
    let s := exec .little trackAll (tcpAccept :: halfClosed)
    let s' := s.step .little (tcpState tcpClose)
    closeRecords 9 s'.kernel.events = [(tcpFlow, 150, 30)] ∧
      s'.kernel.connections.lookup 9 = none := by
  obtain ⟨-, hsession, -, -⟩ := @tcp_lifecycle .little 1 oneUDP trackAll []
    (tcpAccept :: (halfClosed ++ [tcpState tcpClose])) (by decide) (by decide)
  obtain ⟨-, -, hclose⟩ := hsession 9 rfl [] tcpAccept halfClosed [tcpState tcpClose] _ rfl
    ⟨rfl, rfl⟩
  obtain ⟨hrecords, hgone⟩ := hclose onOneCPU _ [] rfl rfl rfl rfl
  exact ⟨hrecords.trans (by decide), hgone⟩

/-- A configuration that tracks one connection in two. -/
def everySecond : AgentConfig :=
  { enabled := true, trackUDP := true, sampleRate := 2, udpSocketTx := true }

/-- An accepted connection for which the draw is 1, with 100 bytes sent. -/
def sampledOut : List (CaptureStep 1) :=
  [.hook { onOneCPU with prandom := 1 } (.sockops
      { cookie := 9
        op := .passiveEstablished
        family := afInet
        localIP4 := 0x0100000a
        remoteIP4 := 0x0200000a
        localPort := 40000
        remotePort := 0xbb010000 }),
    .hook onOneCPU (.tcpSendmsgFentry 9 100), tcpState tcpClose]

/-- **A connection that is sampled out is not counted.**  Capture is on and
nothing is full, and yet between its establishment and `TCP_CLOSE` no byte is
recorded and no close event is sent. -/
theorem sampled_out_uncounted :
    (∀ e ∈ sampledOut, e.Reported oneUDP) ∧ Capturing .little (init everySecond) sampledOut ∧
      recorded .little everySecond sampledOut = [] ∧
      (exec .little everySecond sampledOut).kernel.events = [] :=
  ⟨by decide, by decide, rfl, by decide⟩

end Capture
