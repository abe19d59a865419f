/-
Sessions of a TCP socket.

A session of a TCP socket (`Sessions`) starts with an establishment that is
recorded and ends with the transition to `TCP_CLOSE`; between the two lie
whatever else the kernel reports, half-closes and the release of the file
descriptor included.  Here the tables of sockets are shown to keep these
sessions, in runs of hooks of any number of sockets, polls and configuration
pushes in any order.

* `Hook.Reported` — what the kernel's reports are known to obey: a cookie is one
  socket of one protocol, and a send has a size that fits an `int`;
* `Capture.Capturing` — capture is on, and no map or ring buffer is full;
* `Matches` — the entry and the close events of a socket are its sessions;
  `Capture.matches_hook`, `Capture.matches_run`: every step keeps this;
* `Capture.matches_session` — one session, whatever was before it.
-/
import Tollwing.FlowConservation
import Tollwing.Sessions
import Tollwing.SocketTables

/-! ### What the kernel reports -/

/-- The report fits a socket of the protocol `proto` has for its cookie.  The
kernel caps the size of a send below 2^31. -/
def Hook.Reported (proto : UInt64 → UInt8) : Hook → Prop
  | .connect4 ctx | .connect6 ctx => ctx.protocol = proto ctx.cookie
  | .sockops skops =>
    proto skops.cookie = ipprotoTCP ∧ (skops.family = afInet ∨ skops.family = afInet6)
  | .tcpSendmsg _ size | .tcpSendmsgFentry _ size => size.toNat < 2 ^ 31
  | .sockRelease cookie protocol => protocol = proto cookie
  | _ => True

instance (proto : UInt64 → UInt8) : DecidablePred (Hook.Reported proto)
  | .connect4 ctx | .connect6 ctx => inferInstanceAs (Decidable (ctx.protocol = proto ctx.cookie))
  | .sockops skops => inferInstanceAs (Decidable
      (proto skops.cookie = ipprotoTCP ∧ (skops.family = afInet ∨ skops.family = afInet6)))
  | .tcpSendmsg _ size | .tcpSendmsgFentry _ size =>
    inferInstanceAs (Decidable (size.toNat < 2 ^ 31))
  | .sockRelease cookie protocol => inferInstanceAs (Decidable (protocol = proto cookie))
  | .tcpCleanupRbuf _ _ | .tcpCleanupRbufFentry _ _ | .udpSendmsg _ _ | .udpRecvmsgExit _ _
  | .tcpRetransmit _ _ | .tcpLossProbe _ _ => inferInstanceAs (Decidable True)

def CaptureStep.Reported {n : ℕ} (proto : UInt64 → UInt8) : CaptureStep n → Prop
  | .hook _ h => h.Reported proto
  | .take _ | .deliver | .setConfig _ | .evictConnection _ | .evictOriginalDst _ => True

instance {n : ℕ} (proto : UInt64 → UInt8) :
    DecidablePred (@CaptureStep.Reported n proto)
  | .hook _ h => inferInstanceAs (Decidable (h.Reported proto))
  | .take _ | .deliver | .setConfig _ | .evictConnection _ | .evictOriginalDst _ =>
    inferInstanceAs (Decidable True)

/-- The bytes a report says were sent and received on a TCP socket; an `int`
that is not positive stands for none. -/
def Hook.tcpBytes (cookie : UInt64) : Hook → Amount
  | .tcpSendmsg c size | .tcpSendmsgFentry c size => if c = cookie then .ofBytes size 0 else 0
  | .tcpCleanupRbuf c parm2 =>
    if c = cookie ∧ 0 < parm2.toUInt32.toInt32 then .ofBytes 0 parm2.toUInt32.toInt32.toU64 else 0
  | .tcpCleanupRbufFentry c copied =>
    if c = cookie ∧ 0 < copied then .ofBytes 0 copied.toU64 else 0
  | _ => 0

def CaptureStep.tcpBytes {n : ℕ} (cookie : UInt64) : CaptureStep n → Amount
  | .hook _ h => h.tcpBytes cookie
  | _ => 0

/-- No map and no ring buffer is full: every insertion and every reservation
succeeds, and no entry is displaced. -/
def CaptureStep.Unobstructed {n : ℕ} : CaptureStep n → Prop
  | .hook env _ => env.insertOk = true ∧ env.reserveOk = true
  | .evictConnection _ | .evictOriginalDst _ => False
  | .take _ | .deliver | .setConfig _ => True

instance {n : ℕ} : DecidablePred (@CaptureStep.Unobstructed n)
  | .hook env _ => inferInstanceAs (Decidable (env.insertOk = true ∧ env.reserveOk = true))
  | .evictConnection _ | .evictOriginalDst _ => inferInstanceAs (Decidable False)
  | .take _ | .deliver | .setConfig _ => inferInstanceAs (Decidable True)

theorem toInt_toInt32 {v : UInt64} (h : v.toNat < 2 ^ 31) : v.toUInt32.toInt32.toInt = v.toNat := by
  have hv : v.toUInt32.toNat = v.toNat := by
    rw [UInt64.toNat_toUInt32]
    omega
  show v.toUInt32.toBitVec.toInt = _
  rw [BitVec.toInt_eq_toNat_of_lt]
  · exact congrArg _ hv
  · show 2 * v.toUInt32.toNat < _
    omega

/-- A send of an `int` size is tested and counted as what it is. -/
theorem toInt32_le_zero_iff {v : UInt64} (h : v.toNat < 2 ^ 31) :
    v.toUInt32.toInt32 ≤ 0 ↔ v = 0 := by
  rw [Int32.le_iff_toInt_le, toInt_toInt32 h, ← UInt64.toNat_inj]
  simp

theorem toU64_toInt32 {v : UInt64} (h : v.toNat < 2 ^ 31) : v.toUInt32.toInt32.toU64 = v := by
  have hv : v.toUInt32.toBitVec.toNat = v.toNat := by
    show v.toUInt32.toNat = _
    rw [UInt64.toNat_toUInt32]
    omega
  refine UInt64.toBitVec_inj.mp ?_
  show BitVec.signExtend 64 v.toUInt32.toBitVec = _
  rw [BitVec.signExtend_eq_setWidth_of_msb_false]
  · refine BitVec.eq_of_toNat_eq ?_
    rw [BitVec.toNat_setWidth, hv]
    exact Nat.mod_eq_of_lt v.toNat_lt
  · rw [BitVec.msb_eq_false_iff_two_mul_lt, hv]
    omega

namespace Hook

variable {host : ByteOrder} {proto : UInt64 → UInt8} {h : Hook} {cookie : UInt64}

/-- A hook that reports bytes on a TCP socket counts them, unless the socket is
a sidecar's. -/
theorem counting_of_tcpBytes (hreported : h.Reported proto) (hbytes : h.tcpBytes cookie ≠ 0) :
    h.counting host
      = some ⟨cookie, fun conn => !isSidecarSocketCookie host conn, h.tcpBytes cookie, true⟩ := by
  -- a size of no bytes is reported as none
  have hsize {size : UInt64} (hlt : size.toNat < 2 ^ 31) (hsent : Amount.ofBytes size 0 ≠ 0) :
      ¬size.toUInt32.toInt32 ≤ 0 := by
    rw [toInt32_le_zero_iff hlt]
    rintro rfl
    refine hsent ?_
    funext ctr
    cases ctr <;> rfl
  cases h with
  | tcpSendmsg c size =>
    rw [tcpBytes] at hbytes ⊢
    obtain ⟨hc, hsent⟩ := ite_ne_right_iff.mp hbytes
    rw [if_pos hc, counting, if_neg (hsize hreported hsent), toU64_toInt32 hreported, hc]
  | tcpSendmsgFentry c size =>
    rw [tcpBytes] at hbytes ⊢
    obtain ⟨hc, hsent⟩ := ite_ne_right_iff.mp hbytes
    rw [if_pos hc, counting, if_neg (hsize hreported hsent), hc]
  | tcpCleanupRbuf c parm2 =>
    rw [tcpBytes] at hbytes ⊢
    obtain ⟨hc, -⟩ := ite_ne_right_iff.mp hbytes
    rw [if_pos hc, counting, if_neg (Int32.not_le.mpr hc.2), hc.1]
  | tcpCleanupRbufFentry c copied =>
    rw [tcpBytes] at hbytes ⊢
    have hc : c = cookie ∧ 0 < copied := by
      by_contra hc
      exact hbytes (if_neg hc)
    rw [if_pos hc, counting, if_neg (Int32.not_le.mpr hc.2), hc.1]
  | _ => exact absurd rfl hbytes

/-- What a hook counts on a TCP connection is what it reports. -/
theorem amount_of_counting (hreported : h.Reported proto) {cnt : Counting} {conn : ConnInfo}
    (hcnt : h.counting host = some cnt) (hcounted : cnt.counted conn = true)
    (hconn : conn.protocol = ipprotoTCP) {ctr : Counter} (hctr : ctr = .tx ∨ ctr = .rx) :
    cnt.amount ctr = h.tcpBytes cnt.cookie ctr := by
  by_cases htcp : h.isTCPBytes = true
  · cases h with
    | tcpSendmsg c size =>
      obtain rfl := eq_of_guarded hcnt
      rw [tcpBytes, if_pos rfl, toU64_toInt32 hreported]
    | tcpSendmsgFentry c size =>
      obtain rfl := eq_of_guarded hcnt
      rw [tcpBytes, if_pos rfl]
    | tcpCleanupRbuf c parm2 =>
      have hpos : ¬parm2.toUInt32.toInt32 ≤ 0 := fun hle => by simp [counting, hle] at hcnt
      obtain rfl := eq_of_guarded hcnt
      rw [tcpBytes, if_pos ⟨rfl, Int32.not_le.mp hpos⟩]
    | tcpCleanupRbufFentry c copied =>
      have hpos : ¬copied ≤ 0 := fun hle => by simp [counting, hle] at hcnt
      obtain rfl := eq_of_guarded hcnt
      rw [tcpBytes, if_pos ⟨rfl, Int32.not_le.mp hpos⟩]
    | _ => cases htcp
  · -- the UDP hooks count no TCP connection, and a retransmission is not a send
    have hzero : h.tcpBytes cnt.cookie = 0 := by
      cases h <;> first
        | rfl
        | exact absurd rfl htcp
    rw [hzero]
    rcases Hook.counting_of_not_tcp hcnt (by simpa using htcp) with hudp | ⟨htx, hrx⟩
    · rw [hudp conn hcounted] at hconn
      cases hconn
    · rcases hctr with rfl | rfl
      · exact htx
      · exact hrx

end Hook

/-! ### Sessions of a socket -/

namespace Capture

variable (host : ByteOrder) {n : ℕ}

/-- What a step is for the sessions of a socket. -/
def sessionEvent (s : Capture n) (cookie : UInt64) (e : CaptureStep n) :
    SessionEvent ConnInfo Amount :=
  match e with
  | .hook env (.sockops skops) =>
    if skops.cookie = cookie then
      match s.kernel.establishes env skops with
      | some direction => .opened (s.kernel.establishedConn host env skops direction)
      | none => if s.kernel.ends skops then .ended else .charged 0
    else .charged 0
  | e => .charged (e.tcpBytes cookie)

/-- The events of a run that starts in `s`. -/
def sessionEvents (cookie : UInt64) :
    Capture n → List (CaptureStep n) → List (SessionEvent ConnInfo Amount)
  | _, [] => []
  | s, e :: run => s.sessionEvent host cookie e :: sessionEvents cookie (s.step host e) run

/-- Capture is on at every step of the run, and nothing is full. -/
def Capturing (s : Capture n) (run : List (CaptureStep n)) : Prop :=
  History.Along (step host) (fun s e => s.kernel.agentConfig.enabled = true ∧ e.Unobstructed) s run

instance (s : Capture n) (run : List (CaptureStep n)) : Decidable (Capturing host s run) :=
  inferInstanceAs (Decidable (History.Along _ _ _ _))

end Capture

/-- What is counted of the bytes of a session: a sidecar's are skipped. -/
def countedOf (host : ByteOrder) (conn : ConnInfo) (bytes : Amount) : Amount :=
  if isSidecarSocketCookie host conn then 0 else bytes

/-- What a close event says of the session `p`: its flow and its counted bytes. -/
def closeRecord (host : ByteOrder) (p : ConnInfo × Amount) : FlowKey × UInt64 × UInt64 :=
  (p.1.flowKey, countedOf host p.1 p.2 .tx, countedOf host p.1 p.2 .rx)

def CloseEvent.flowKey (evt : CloseEvent) : FlowKey :=
  { srcIP := evt.srcIP
    dstIP := evt.dstIP
    srcPort := evt.srcPort
    dstPort := evt.dstPort
    pid := evt.pid
    protocol := evt.protocol
    direction := evt.direction }

/-- What an event says of the end of a connection of the socket. -/
def Event.closeRecord (cookie : UInt64) : Event → Option (FlowKey × UInt64 × UInt64)
  | .close evt =>
    if evt.cookie = cookie then some (evt.flowKey, evt.txBytes, evt.rxBytes) else none
  | .connect _ | .establish _ => none

/-- The close events of a socket, in the order they were sent. -/
def closeRecords (cookie : UInt64) (events : List Event) : List (FlowKey × UInt64 × UInt64) :=
  events.filterMap (Event.closeRecord cookie)

/-- The entry and the close events of a socket are its sessions: the entry is
the open session with what was counted of its bytes, and the close events after
`base` are those of the ended sessions. -/
structure Matches (host : ByteOrder) (cookie : UInt64) (base : List (FlowKey × UInt64 × UInt64))
    (t : SocketTables) (S : Sessions ConnInfo Amount) : Prop where
  none : S.current = none → t.connections.lookup cookie = none
  some : ∀ conn bytes, S.current = some (conn, bytes) →
    cookie ∈ t.stateCBFlag ∧ conn.protocol = ipprotoTCP ∧
      ∃ conn', t.connections.lookup cookie = some conn' ∧ conn'.flowKey = conn.flowKey ∧
        ∀ ctr, ctr = .tx ∨ ctr = .rx → conn'.amount ctr = countedOf host conn bytes ctr
  closed : closeRecords cookie t.events = base ++ S.closed.map (closeRecord host)

section
variable {host : ByteOrder} {n : ℕ} {cookie : UInt64} {base : List (FlowKey × UInt64 × UInt64)}

theorem closeRecords_append (events events' : List Event) :
    closeRecords cookie (events ++ events')
      = closeRecords cookie events ++ closeRecords cookie events' :=
  List.filterMap_append

theorem closeRecords_emit_connect (t : SocketTables) (reserveOk : Bool) (evt : ConnectEvent) :
    closeRecords cookie (t.emit reserveOk (.connect evt)).events
      = closeRecords cookie t.events := by
  rw [SocketTables.emit]
  split_ifs
  · rw [closeRecords_append]
    exact List.append_nil _
  · rfl

theorem closeRecords_emit_establish (t : SocketTables) (reserveOk : Bool) (evt : EstablishEvent) :
    closeRecords cookie (t.emit reserveOk (.establish evt)).events
      = closeRecords cookie t.events := by
  rw [SocketTables.emit]
  split_ifs
  · rw [closeRecords_append]
    exact List.append_nil _
  · rfl

/-- The close event of a connection, with room in the ring buffer, adds one
record to its own socket and none to another. -/
theorem closeRecords_emit_close (t : SocketTables) (conn : ConnInfo) (cookie' now : UInt64) :
    closeRecords cookie (t.emit true (.close (conn.closeEvent cookie' now))).events
      = closeRecords cookie t.events ++
        if cookie' = cookie then [(conn.flowKey, conn.txBytes, conn.rxBytes)] else [] := by
  have hrecord : Event.closeRecord cookie (.close (conn.closeEvent cookie' now))
      = if cookie' = cookie then some (conn.flowKey, conn.txBytes, conn.rxBytes) else none := rfl
  rw [SocketTables.emit, if_pos rfl, closeRecords_append]
  congr 1
  rw [closeRecords, List.filterMap_cons, hrecord]
  split_ifs <;> rfl

/-- Whether a connection is a sidecar's depends on its flow. -/
theorem isSidecarSocketCookie_congr {conn conn' : ConnInfo} (h : conn.flowKey = conn'.flowKey) :
    isSidecarSocketCookie host conn = isSidecarSocketCookie host conn' := by
  simp only [ConnInfo.flowKey, FlowKey.mk.injEq] at h
  obtain ⟨hsrc, hdst, hsport, hdport, -⟩ := h
  rw [isSidecarSocketCookie, isSidecarSocketCookie, hsrc, hdst, hsport, hdport]

theorem countedOf_of_sidecar {conn : ConnInfo} (h : isSidecarSocketCookie host conn = true)
    (bytes : Amount) : countedOf host conn bytes = 0 :=
  if_pos h

namespace Matches

variable {t t' : SocketTables} {S : Sessions ConnInfo Amount}

/-- Changes of other sockets leave the sessions of this one alone. -/
theorem frame (h : Matches host cookie base t S)
    (hlookup : t'.connections.lookup cookie = t.connections.lookup cookie)
    (hflag : cookie ∈ t.stateCBFlag → cookie ∈ t'.stateCBFlag)
    (hrecords : closeRecords cookie t'.events = closeRecords cookie t.events) :
    Matches host cookie base t' S where
  none hnone := by rw [hlookup]; exact h.none hnone
  some conn bytes hsome := by
    obtain ⟨hmem, hproto, hentry⟩ := h.some conn bytes hsome
    rw [hlookup]
    exact ⟨hflag hmem, hproto, hentry⟩
  closed := by rw [hrecords]; exact h.closed

/-- An entry of the socket is an open session. -/
theorem exists_current (h : Matches host cookie base t S) {conn' : ConnInfo}
    (hlookup : t.connections.lookup cookie = Option.some conn') :
    ∃ conn bytes, S.current = Option.some (conn, bytes) ∧ cookie ∈ t.stateCBFlag ∧
      conn.protocol = ipprotoTCP ∧ conn'.flowKey = conn.flowKey ∧
      ∀ ctr, ctr = .tx ∨ ctr = .rx → conn'.amount ctr = countedOf host conn bytes ctr := by
  cases hcur : S.current with
  | none =>
    rw [h.none hcur] at hlookup
    cases hlookup
  | some p =>
    obtain ⟨hmem, hproto, conn₁, hconn₁, hflow, hamount⟩ := h.some p.1 p.2 hcur
    rw [hconn₁] at hlookup
    obtain rfl := Option.some.inj hlookup
    exact ⟨p.1, p.2, rfl, hmem, hproto, hflow, hamount⟩

theorem current_eq_none (h : Matches host cookie base t S)
    (hlookup : t.connections.lookup cookie = Option.none) : S.current = Option.none := by
  cases hcur : S.current with
  | none => rfl
  | some p =>
    obtain ⟨-, -, conn', hconn', -⟩ := h.some p.1 p.2 hcur
    rw [hconn'] at hlookup
    cases hlookup

end Matches
end

/-! ### One step -/

namespace Capture

section
variable {host : ByteOrder} {n : ℕ} {proto : UInt64 → UInt8} {cookie : UInt64}
  {base : List (FlowKey × UInt64 × UInt64)} {s : Capture n} {env : HookEnv n} {h : Hook}
  {t : SocketTables} {S : Sessions ConnInfo Amount}

/-- Only sock_ops callbacks open and end sessions. -/
theorem sessionEvent_hook (hops : ∀ skops, h ≠ .sockops skops) :
    s.sessionEvent host cookie (.hook env h) = .charged (h.tcpBytes cookie) := by
  cases h with
  | sockops skops => exact absurd rfl (hops skops)
  | _ => rfl

/-- A hook that counts nothing has no bytes to count on an open session. -/
theorem matches_uncounted (hm : Matches host cookie base s.kernel.tables S)
    (hon : s.kernel.agentConfig.enabled = true) (hreported : h.Reported proto)
    (hnone : (h.counting host).bind s.kernel.tracked = none) :
    Matches host cookie base s.kernel.tables (S.step (.charged (h.tcpBytes cookie))) := by
  by_cases hbytes : h.tcpBytes cookie = 0
  · rw [hbytes, Sessions.step_charged_zero]
    exact hm
  rw [Hook.counting_of_tcpBytes hreported hbytes, Option.bind_some, Kernel.tracked,
    Kernel.getConfig, if_pos hon] at hnone
  cases hentry : s.kernel.connections.lookup cookie with
  | none =>
    rw [Sessions.step_charged_of_none (hm.current_eq_none hentry)]
    exact hm
  | some conn' =>
    obtain ⟨conn, bytes, hcur, hmem, hproto, hflow, hamount⟩ := hm.exists_current hentry
    -- the entry is there, so the hook skipped it as a sidecar's
    have hside : isSidecarSocketCookie host conn' = true := by
      dsimp only at hnone
      rw [hentry, Option.filter_eq_none_iff] at hnone
      simpa using hnone conn' rfl
    rw [isSidecarSocketCookie_congr hflow] at hside
    refine ⟨fun hnil => ?_, fun conn₁ bytes₁ hcur₁ => ?_, hm.closed⟩
    · rw [Sessions.step, hcur] at hnil
      cases hnil
    · rw [Sessions.step, hcur] at hcur₁
      cases hcur₁
      refine ⟨hmem, hproto, conn', hentry, hflow, fun ctr hctr => ?_⟩
      rw [hamount ctr hctr, countedOf_of_sidecar hside, countedOf_of_sidecar hside]

/-- A hook that counts on another socket reports no bytes on this one. -/
theorem tcpBytes_of_cookie_ne (hreported : h.Reported proto) {cnt : Counting}
    (hcnt : h.counting host = some cnt) (hcookie : cnt.cookie ≠ cookie) :
    h.tcpBytes cookie = 0 := by
  by_contra hbytes
  rw [Hook.counting_of_tcpBytes hreported hbytes] at hcnt
  cases hcnt
  exact hcookie rfl

/-- A counted hook adds the bytes it reports to the open session. -/
theorem matches_counted (hm : Matches host cookie base s.kernel.tables S)
    (hreported : h.Reported proto) {cnt : Counting} {conn' conn'' : ConnInfo}
    (hcnt : h.counting host = some cnt) (hconn : s.kernel.tracked cnt = some conn')
    (hflow : conn''.flowKey = conn'.flowKey)
    (hamount : ∀ c, c ≠ .retransmitCount → conn''.amount c = conn'.amount c + cnt.amount c) :
    Matches host cookie base
      { s.kernel.tables with
        connections := s.kernel.connections.insert cnt.cookie conn'' }
      (S.step (.charged (h.tcpBytes cookie))) := by
  by_cases hcookie : cnt.cookie = cookie
  · obtain ⟨hentry, hcounted⟩ := s.kernel.of_tracked hconn
    rw [hcookie] at hentry
    obtain ⟨conn, bytes, hcur, hmem, hproto, hflow', hamount'⟩ := hm.exists_current hentry
    refine ⟨fun hnil => ?_, fun conn₁ bytes₁ hcur₁ => ?_, hm.closed⟩
    · rw [Sessions.step, hcur] at hnil
      cases hnil
    · rw [Sessions.step, hcur] at hcur₁
      cases hcur₁
      refine ⟨hmem, hproto, conn'', ?_, hflow.trans hflow', fun ctr hctr => ?_⟩
      · rw [← hcookie]
        exact Finmap.lookup_insert _
      · have hctr' : ctr ≠ .retransmitCount := by rcases hctr with rfl | rfl <;> decide
        have htcp : conn'.protocol = ipprotoTCP :=
          (congrArg FlowKey.protocol hflow').trans hproto
        have hadd := hamount ctr hctr'
        rw [hamount' ctr hctr, Hook.amount_of_counting hreported hcnt hcounted htcp hctr,
          hcookie] at hadd
        rw [hadd]
        by_cases hside : isSidecarSocketCookie host conn = true
        · -- bytes are counted on other connections only, so none were reported
          have hbytes : h.tcpBytes cookie = 0 := by
            by_contra hbytes
            rw [Hook.counting_of_tcpBytes hreported hbytes] at hcnt
            cases hcnt
            dsimp only at hcounted
            rw [isSidecarSocketCookie_congr hflow', hside] at hcounted
            cases hcounted
          rw [hbytes, add_zero]
          exact add_zero _
        · rw [countedOf, if_neg hside, countedOf, if_neg hside]
          rfl
  · rw [tcpBytes_of_cookie_ne hreported hcnt hcookie, Sessions.step_charged_zero]
    refine hm.frame ?_ id rfl
    exact Finmap.lookup_insert_of_ne _ (Ne.symm hcookie)

/-- The end of a connection ends its session and reports it. -/
theorem matches_closed (hm : Matches host cookie base s.kernel.tables S)
    (hreserve : env.reserveOk = true) {skops : SockOps} {conn' : ConnInfo}
    (hends : s.kernel.ends skops = true) (hopen : s.kernel.establishes env skops = none)
    (hconn : s.kernel.connections.lookup skops.cookie = some conn') :
    Matches host cookie base
      { s.kernel.tables.emit env.reserveOk (.close (conn'.closeEvent skops.cookie env.now)) with
        connections := s.kernel.connections.erase skops.cookie }
      (S.step (s.sessionEvent host cookie (.hook env (.sockops skops)))) := by
  rw [hreserve]
  by_cases hcookie : skops.cookie = cookie
  · have hevent : s.sessionEvent host cookie (.hook env (.sockops skops)) = .ended := by
      simp [sessionEvent, hcookie, hopen, hends]
    rw [hcookie] at hconn
    obtain ⟨conn, bytes, hcur, hmem, hproto, hflow, hamount⟩ := hm.exists_current hconn
    rw [hevent, Sessions.step, hcur]
    refine ⟨fun _ => ?_, fun _ _ hnone => (by cases hnone), ?_⟩
    · rw [hcookie]
      exact Finmap.lookup_erase _ _
    · show closeRecords cookie (SocketTables.emit _ _ _).events = _
      have htx : conn'.txBytes = countedOf host conn bytes .tx := hamount .tx (Or.inl rfl)
      have hrx : conn'.rxBytes = countedOf host conn bytes .rx := hamount .rx (Or.inr rfl)
      rw [closeRecords_emit_close, if_pos hcookie, hm.closed, hflow, htx, hrx, List.map_append,
        List.append_assoc]
      rfl
  · have hevent : s.sessionEvent host cookie (.hook env (.sockops skops)) = .charged 0 :=
      if_neg hcookie
    rw [hevent, Sessions.step_charged_zero]
    refine hm.frame (Finmap.lookup_erase_ne (Ne.symm hcookie)) id ?_
    show closeRecords cookie (SocketTables.emit _ _ _).events = _
    rw [closeRecords_emit_close, if_neg hcookie, List.append_nil]

/-- After an establishment the entry is a session with nothing counted. -/
theorem matches_established {k : Kernel n} {closed : List (ConnInfo × Amount)} (skops : SockOps)
    (direction : UInt8) (evt : EstablishEvent) (hcookie : skops.cookie = cookie)
    (hclosed : closeRecords cookie k.events = base ++ closed.map (closeRecord host)) :
    Matches host cookie base
      ((k.tables.establish skops.cookie direction
        (k.establishedConn host env skops direction)).emit env.reserveOk (.establish evt))
      ⟨some (k.establishedConn host env skops direction, 0), closed⟩ := by
  rw [hcookie]
  refine ⟨fun hnone => (by cases hnone), fun conn bytes hcur => ?_, ?_⟩
  · cases hcur
    rw [SocketTables.stateCBFlag_emit, SocketTables.connections_emit]
    refine ⟨Finset.mem_insert_self _ _, rfl, _, Finmap.lookup_insert _, rfl, fun ctr hctr => ?_⟩
    have hzero : countedOf host (k.establishedConn host env skops direction) 0 = 0 := by
      rw [countedOf]
      split_ifs <;> rfl
    rw [hzero]
    rcases hctr with rfl | rfl <;> rfl
  · rw [closeRecords_emit_establish]
    exact hclosed

/-- An establishment opens a session of its own socket. -/
theorem matches_opened (hm : Matches host cookie base s.kernel.tables S) {skops : SockOps}
    {direction : UInt8} (evt : EstablishEvent)
    (hopen : s.kernel.establishes env skops = some direction) :
    Matches host cookie base
      ((s.kernel.tables.establish skops.cookie direction
        (s.kernel.establishedConn host env skops direction)).emit env.reserveOk (.establish evt))
      (S.step (s.sessionEvent host cookie (.hook env (.sockops skops)))) := by
  by_cases hcookie : skops.cookie = cookie
  · have hevent : s.sessionEvent host cookie (.hook env (.sockops skops))
        = .opened (s.kernel.establishedConn host env skops direction) := by
      simp [sessionEvent, hcookie, hopen]
    rw [hevent]
    exact matches_established skops direction evt hcookie hm.closed
  · have hevent : s.sessionEvent host cookie (.hook env (.sockops skops)) = .charged 0 :=
      if_neg hcookie
    rw [hevent, Sessions.step_charged_zero]
    refine hm.frame ?_ ?_ (closeRecords_emit_establish _ _ _)
    · rw [SocketTables.connections_emit]
      exact Finmap.lookup_insert_of_ne _ (Ne.symm hcookie)
    · rw [SocketTables.stateCBFlag_emit]
      exact Finset.mem_insert_of_mem

/-- A hook that does nothing to the tables does nothing to the session: it counts
nothing, or it ends a connection that has no entry. -/
theorem matches_idle (hm : Matches host cookie base s.kernel.tables S)
    (hon : s.kernel.agentConfig.enabled = true) (hreported : h.Reported proto)
    (hidle : h.Idle host s.kernel env) :
    Matches host cookie base s.kernel.tables
      (S.step (s.sessionEvent host cookie (.hook env h))) := by
  cases h with
  | sockops skops =>
    obtain ⟨hopen, hends⟩ := hidle
    by_cases hend : skops.cookie = cookie ∧ s.kernel.ends skops = true
    · -- a close without an entry ends no session
      have hevent : s.sessionEvent host cookie (.hook env (.sockops skops)) = .ended := by
        simp [sessionEvent, hopen, hend.1, hend.2]
      have hentry : s.kernel.tables.connections.lookup cookie = none := by
        rw [← hend.1]
        exact hends hend.2
      rw [hevent, Sessions.step_ended_of_none (hm.current_eq_none hentry)]
      exact hm
    · have hevent : s.sessionEvent host cookie (.hook env (.sockops skops)) = .charged 0 := by
        rw [sessionEvent, hopen]
        dsimp only
        split_ifs with hcookie hends'
        · exact absurd ⟨hcookie, hends'⟩ hend
        · rfl
        · rfl
      rw [hevent, Sessions.step_charged_zero]
      exact hm
  | sockRelease c protocol => exact hidle.elim
  | connect4 ctx =>
    have hevent : s.sessionEvent host cookie (.hook env (.connect4 ctx)) = .charged 0 := rfl
    rwa [hevent, Sessions.step_charged_zero]
  | connect6 ctx =>
    have hevent : s.sessionEvent host cookie (.hook env (.connect6 ctx)) = .charged 0 := rfl
    rwa [hevent, Sessions.step_charged_zero]
  | _ => exact matches_uncounted hm hon hreported hidle

/-- **One hook** moves the tables and the sessions of a TCP socket together. -/
theorem matches_hook (htcp : proto cookie = ipprotoTCP)
    (hm : Matches host cookie base s.kernel.tables S)
    (hon : s.kernel.agentConfig.enabled = true) (hreserve : env.reserveOk = true)
    (hreported : h.Reported proto) (hstep : TablesStep host s.kernel env h t) :
    Matches host cookie base t (S.step (s.sessionEvent host cookie (.hook env h))) := by
  cases hstep with
  | idle hidle => exact matches_idle hm hon hreported hidle
  | count hcnt hconn hflow hamount =>
    rw [sessionEvent_hook (by rintro skops rfl; cases hcnt)]
    exact matches_counted hm hreported hcnt hconn hflow hamount
  | connect4 ctx evt hproto =>
    have hevent : s.sessionEvent host cookie (.hook env (.connect4 ctx)) = .charged 0 := rfl
    rw [hevent, Sessions.step_charged_zero]
    refine hm.frame ?_ ?_ (closeRecords_emit_connect _ _ _)
    · rw [SocketTables.connections_emit]
      dsimp only
      split_ifs with hnew
      · -- the new entry is a UDP socket's
        refine Finmap.lookup_insert_of_ne _ fun hcookie => ?_
        rw [hcookie, ← hreported, hnew.1] at htcp
        cases htcp
      · rfl
    · rw [SocketTables.stateCBFlag_emit]
      exact id
  | connect6 ctx evt =>
    have hevent : s.sessionEvent host cookie (.hook env (.connect6 ctx)) = .charged 0 := rfl
    rw [hevent, Sessions.step_charged_zero]
    refine hm.frame ?_ ?_ (closeRecords_emit_connect _ _ _)
    · rw [SocketTables.connections_emit]
    · rw [SocketTables.stateCBFlag_emit]
      exact id
  | establish skops direction evt hopen => exact matches_opened hm evt hopen
  | close skops conn hends hopen hconn => exact matches_closed hm hreserve hends hopen hconn
  | release c protocol =>
    have hevent : s.sessionEvent host cookie (.hook env (.sockRelease c protocol)) = .charged 0 :=
      rfl
    rw [hevent, Sessions.step_charged_zero]
    refine hm.frame ?_ id rfl
    dsimp only
    split_ifs with hproto
    · -- a socket that is released and is not a TCP one
      refine Finmap.lookup_erase_ne fun hcookie => hproto ?_
      rw [← htcp, hcookie]
      exact hreported
    · rfl

theorem tables_take (s : Capture n) (key : FlowKey) :
    (s.take key).kernel.tables = s.kernel.tables := by
  rw [take]
  cases s.kernel.flowAggregates.lookup key <;> rfl

/-- **One step** moves the tables and the sessions of a TCP socket together. -/
theorem matches_step (htcp : proto cookie = ipprotoTCP)
    (hm : Matches host cookie base s.kernel.tables S) {e : CaptureStep n}
    (hon : s.kernel.agentConfig.enabled = true) (hfree : e.Unobstructed)
    (hreported : e.Reported proto) :
    Matches host cookie base (s.step host e).kernel.tables
      (S.step (s.sessionEvent host cookie e)) := by
  have hzero : (.charged (CaptureStep.tcpBytes cookie e) : SessionEvent ConnInfo Amount)
      = .charged 0 → Matches host cookie base s.kernel.tables
        (S.step (.charged (CaptureStep.tcpBytes cookie e))) := by
    intro h
    rw [h, Sessions.step_charged_zero]
    exact hm
  cases e with
  | hook env h =>
    exact matches_hook htcp hm hon hfree.2 hreported (Hook.tablesStep s.kernel env h)
  | take key =>
    show Matches host cookie base (s.take key).kernel.tables _
    rw [tables_take]
    exact hzero rfl
  | deliver => exact hzero rfl
  | setConfig cfg => exact (hzero rfl).frame rfl id rfl
  | evictConnection c => exact hfree.elim
  | evictOriginalDst c => exact hfree.elim

/-- **A run** moves them together. -/
theorem matches_run (htcp : proto cookie = ipprotoTCP) : ∀ {run : List (CaptureStep n)}
    {s : Capture n} {S : Sessions ConnInfo Amount}, Matches host cookie base s.kernel.tables S →
    Capturing host s run → (∀ e ∈ run, e.Reported proto) →
    Matches host cookie base (run.foldl (step host) s).kernel.tables
      ((sessionEvents host cookie s run).foldl Sessions.step S) := by
  intro run
  induction run with
  | nil => exact fun hm _ _ => hm
  | cons e run ih =>
    rintro s S hm ⟨⟨hon, hfree⟩, hrest⟩ hreported
    exact ih (matches_step htcp hm hon hfree (hreported e List.mem_cons_self)) hrest
      fun e' he' => hreported e' (List.mem_cons_of_mem e he')

/-! ### One session -/

/-- The steps `e :: mid` from `s` lie in one session of the socket: `e` is its
establishment, and in `mid` it is neither established again nor closed. -/
structure IsSession (host : ByteOrder) (cookie : UInt64) (s : Capture n) (e : CaptureStep n)
    (mid : List (CaptureStep n)) (conn : ConnInfo) : Prop where
  opened : s.sessionEvent host cookie e = .opened conn
  within : sessionEvents host cookie (s.step host e) mid
    = mid.map fun e => .charged (e.tcpBytes cookie)

/-- The session that starts with an establishment does not depend on what was
before it. -/
theorem matches_of_opened {e : CaptureStep n} {conn : ConnInfo}
    (hopened : s.sessionEvent host cookie e = .opened conn) :
    Matches host cookie (closeRecords cookie s.kernel.events) (s.step host e).kernel.tables
      ⟨some (conn, 0), []⟩ := by
  cases e with
  | hook env h =>
    cases h with
    | sockops skops =>
      have hcookie : skops.cookie = cookie := by
        by_contra hne
        rw [sessionEvent, if_neg hne] at hopened
        cases hopened
      rw [sessionEvent, if_pos hcookie] at hopened
      cases hopen : s.kernel.establishes env skops with
      | none =>
        rw [hopen] at hopened
        dsimp only at hopened
        split_ifs at hopened
      | some direction =>
        rw [hopen] at hopened
        cases hopened
        obtain ⟨evt, htables⟩ := s.kernel.tables_handleEstablished host env skops direction
        show Matches host cookie _ (s.kernel.sockops host env skops).tables _
        rw [s.kernel.tables_sockops host env skops, hopen]
        dsimp only
        rw [htables]
        exact matches_established skops direction evt hcookie (List.append_nil _).symm
    | _ => cases hopened
  | _ => cases hopened

theorem matches_session {e : CaptureStep n} {mid : List (CaptureStep n)} {conn : ConnInfo}
    (htcp : proto cookie = ipprotoTCP) (hsession : IsSession host cookie s e mid conn)
    (hcapturing : Capturing host (s.step host e) mid) (hreported : ∀ e ∈ mid, e.Reported proto) :
    Matches host cookie (closeRecords cookie s.kernel.events)
      (mid.foldl (step host) (s.step host e)).kernel.tables
      ⟨some (conn, (mid.map (CaptureStep.tcpBytes cookie)).sum), []⟩ := by
  have hrun := matches_run htcp (matches_of_opened hsession.opened) hcapturing hreported
  have hcharged : (mid.map fun e => (.charged (e.tcpBytes cookie) : SessionEvent ConnInfo Amount))
      = (mid.map (CaptureStep.tcpBytes cookie)).map .charged := by
    rw [List.map_map]
    rfl
  rw [hsession.within, hcharged, Sessions.foldl_charged, Option.map_some, zero_add] at hrun
  exact hrun

/-- Within a session of a connection that is no sidecar's, every report of bytes
is recorded for its flow and kept. -/
theorem charge_of_matches {conn : ConnInfo} {bytes : Amount}
    (hm : Matches host cookie base s.kernel.tables ⟨some (conn, bytes), []⟩)
    (hon : s.kernel.agentConfig.enabled = true) (hinsert : env.insertOk = true)
    (hreported : h.Reported proto) (hbytes : h.tcpBytes cookie ≠ 0)
    (hside : isSidecarSocketCookie host conn = false) (i : ℕ) :
    s.charge host i (.hook env h) = [⟨i, h, conn.flowKey, h.tcpBytes cookie⟩] ∧
      s.kernel.posting env conn.flowKey true = .kept := by
  obtain ⟨-, -, conn', hconn, hflow, -⟩ := hm.some conn bytes rfl
  have hentry : s.kernel.connections.lookup cookie = some conn' := hconn
  constructor
  · have hcounted : (!isSidecarSocketCookie host conn') = true := by
      rw [isSidecarSocketCookie_congr hflow, hside]
      rfl
    have htracked : s.kernel.tracked
        ⟨cookie, fun conn => !isSidecarSocketCookie host conn, h.tcpBytes cookie, true⟩
          = some conn' := by
      rw [Kernel.tracked, Kernel.getConfig, if_pos hon]
      dsimp only
      rw [hentry, Option.filter_some, if_pos hcounted]
    rw [charge, Kernel.charge, Hook.counting_of_tcpBytes hreported hbytes, Option.bind_some,
      htracked, ← hflow]
    rfl
  · rw [Kernel.posting, hinsert]
    simp

end

end Capture
