/-
Which connections count as DNATed (`pkg/ebpf/bpf/tollwing.bpf.c`, `pkg/ebpf/maps.go`,
`pkg/agent/agent.go`).

`cgroup/connect4` stores what the application dials, `handle_established` picks
it up for the establish event, and the agent takes a pre-DNAT address that is
not zero for a DNATed connection and puts it into the intent cache.  Nobody
compares the dialed destination with the established one.

`DnatWatch` is a capture beside what each socket last dialed and the
establishments reported, each with what its socket had dialed.

* `DnatWatch.detects_step_iff` — one establishment is judged right exactly if
  there is a correlation entry just when the kernel rewrote the destination;
* `DnatWatch.storesDialed_step`, `DnatWatch.stored_iff_dialed` — with everything
  captured, the entry has what was dialed, rewritten or not;
* `DnatWatch.detects_iff` — every run, with the intent cache;
* `DnatWatch.unrewritten_is_dnated` — a connection to a pod address.
-/
import Tollwing.IntentJoin
import Tollwing.UdpConnect

/-- The remote address and port of an established socket. -/
def SockOps.remote (host : ByteOrder) (skops : SockOps) : UInt32 × UInt16 :=
  (skops.remoteIP4, (host.htonl skops.remotePort).toUInt16)

namespace Kernel

variable (host : ByteOrder) {n : ℕ} (k : Kernel n) (env : HookEnv n)

/-- The event of `handle_established`. -/
def establishedEvent (skops : SockOps) (direction : UInt8) : EstablishEvent :=
  let orig := k.originalDstOf skops.cookie direction
  let conn := k.establishedConn host env skops direction
  { direction := direction
    protocol := ipprotoTCP
    pid := orig.pid
    cookie := skops.cookie
    cgroupid := conn.cgroupid
    srcIP := skops.localIP4
    dstIP := skops.remoteIP4
    srcPort := skops.localPort.toUInt16
    dstPort := conn.dstPort
    originalDstIP := orig.ip
    originalDstPort := orig.port
    timestampNs := env.now
    comm := orig.comm }

theorem events_handleEstablished (skops : SockOps) (direction : UInt8) :
    (k.handleEstablished host env skops direction).events =
      if env.reserveOk then
        k.events ++ [.establish (k.establishedEvent host env skops direction)]
      else k.events := by
  have htables : (k.handleEstablished host env skops direction).tables
      = (k.tables.establish skops.cookie direction
          (k.establishedConn host env skops direction)).emit env.reserveOk
            (.establish (k.establishedEvent host env skops direction)) := by
    rw [handleEstablished, tables_submit, tables_seedFlow]
    rfl
  refine (congrArg SocketTables.events htables).trans ?_
  rw [SocketTables.emit]
  split_ifs <;> rfl

end Kernel

/-! ### The agent's side -/

/-- An event, as far as the intent cache goes. -/
def Agent.handle (a : Agent) : Event → Agent
  | .connect _ => a
  | .establish evt => a.handleEstablish evt
  | .close evt => a.handleClose evt

/-- What a put leaves in the cache is new or was there. -/
theorem IntentCache.get_put {c : IntentCache} {k k' : FlowKey} {d d' : IntentDst}
    (h : (c.put k d).get k' = some d') : (k' = k ∧ d' = d) ∨ c.get k' = some d' := by
  rw [put, get] at h
  dsimp only at h
  rw [FinMap.lookup_insert_ite] at h
  by_cases hk : k' = k
  · rw [if_pos hk] at h
    exact Or.inl ⟨hk, (Option.some.inj h).symm⟩
  · right
    rw [if_neg hk, FinMap.lookup_erase_ite, if_neg hk] at h
    by_cases hfull : c.max ≤ size c.cur
    · -- the current generation is demoted, and the one before it dropped
      rw [if_pos hfull] at h
      rw [get, show c.cur.lookup k' = some d' from h]
    · rw [if_neg hfull] at h
      exact h

/-- Every entry of the cache stems from an establish event that was taken for
DNATed. -/
theorem Agent.get_of_events {a : Agent} {events : List Event}
    (hempty : ∀ k, a.intentCache.get k = none) {k : FlowKey} {d : IntentDst}
    (h : (events.foldl Agent.handle a).intentCache.get k = some d) :
    ∃ evt, .establish evt ∈ events ∧ evt.wasDNATed = true ∧ evt.intentKey = k := by
  induction events using List.reverseRecOn with
  | nil =>
    rw [List.foldl_nil, hempty] at h
    cases h
  | append_singleton events ev ih =>
    rw [List.foldl_append, List.foldl_cons, List.foldl_nil] at h
    have hold : (events.foldl Agent.handle a).intentCache.get k = some d →
        ∃ evt, .establish evt ∈ events ++ [ev] ∧ evt.wasDNATed = true ∧ evt.intentKey = k := by
      intro h
      obtain ⟨evt, hevt, hrest⟩ := ih h
      exact ⟨evt, List.mem_append_left _ hevt, hrest⟩
    cases ev with
    | connect evt => exact hold h
    | establish evt =>
      rw [Agent.handle, Agent.handleEstablish] at h
      split_ifs at h with hdnat
      · rcases IntentCache.get_put h with ⟨hk, -⟩ | h
        · exact ⟨evt, List.mem_append_right _ List.mem_cons_self, hdnat, hk.symm⟩
        · exact hold h
      · exact hold h
    | close evt =>
      rw [Agent.handle, Agent.handleClose, IntentCache.get_delete] at h
      split_ifs at h
      exact hold h

/-! ### The watch -/

/-- The establish events among the events. -/
def establishEvents (events : List Event) : List EstablishEvent :=
  events.filterMap fun
    | .establish evt => some evt
    | _ => none

/-- The capture, what each socket last dialed over IPv4 and has not been
established to since, and the establishments reported. -/
structure DnatWatch (n : ℕ) where
  capture : Capture n
  asked : UInt64 → Option (UInt32 × UInt16)
  reported : List (EstablishEvent × Option (UInt32 × UInt16))

namespace DnatWatch

variable (host : ByteOrder) {n : ℕ}

def new (cfg : AgentConfig) : DnatWatch n := ⟨.init cfg, fun _ => none, []⟩

/-- A connect asks for a destination, an outgoing establishment or a release
answers it. -/
def askedAfter (asked : UInt64 → Option (UInt32 × UInt16)) :
    CaptureStep n → UInt64 → Option (UInt32 × UInt16)
  | .hook _ (.connect4 ctx) => Function.update asked ctx.cookie (some (ctx.destination host))
  | .hook _ (.connect6 ctx) => Function.update asked ctx.cookie none
  | .hook _ (.sockops skops) =>
    if skops.op = .activeEstablished then Function.update asked skops.cookie none else asked
  | .hook _ (.sockRelease cookie _) => Function.update asked cookie none
  | _ => asked

/-- What an establishment was asked for: incoming and IPv6 connections are not
judged. -/
def askedFor (w : DnatWatch n) (skops : SockOps) : Option (UInt32 × UInt16) :=
  if skops.op = .activeEstablished ∧ skops.family = afInet then w.asked skops.cookie else none

def reportedAfter (w : DnatWatch n) :
    CaptureStep n → List (EstablishEvent × Option (UInt32 × UInt16))
  | .hook env (.sockops skops) =>
    match w.capture.kernel.establishes env skops with
    | some direction =>
      if env.reserveOk then
        w.reported ++ [(w.capture.kernel.establishedEvent host env skops direction,
          w.askedFor skops)]
      else w.reported
    | none => w.reported
  | _ => w.reported

def step (w : DnatWatch n) (e : CaptureStep n) : DnatWatch n :=
  ⟨w.capture.step host e, askedAfter host w.asked e, w.reportedAfter host e⟩

/-- The event of an outgoing IPv4 connection tells whether the kernel has
rewritten the destination its socket last asked for. -/
def Detects (w : DnatWatch n) : CaptureStep n → Prop
  | .hook env (.sockops skops) =>
    ∀ dst, w.askedFor skops = some dst → ∀ evt,
      (w.capture.step host (.hook env (.sockops skops))).kernel.events
          = w.capture.kernel.events ++ [.establish evt] →
        (evt.wasDNATed = true ↔ (evt.dstIP, evt.dstPort) ≠ dst)
  | _ => True

/-- An outgoing IPv4 connection that is reported has a correlation entry with an
address exactly if the kernel has rewritten its destination. -/
def StoredIffRewritten (w : DnatWatch n) : CaptureStep n → Prop
  | .hook env (.sockops skops) =>
    w.capture.kernel.establishes env skops ≠ none → env.reserveOk = true →
      ∀ dst, w.askedFor skops = some dst →
        ((∃ orig, w.capture.kernel.cookieToOriginalDst.lookup skops.cookie = some orig ∧
          orig.ip ≠ 0) ↔ skops.remote host ≠ dst)
  | _ => True

/-- An outgoing IPv4 connection dialed an address other than 0.0.0.0 exactly if the
kernel has rewritten its destination. -/
def DialedIffRewritten (w : DnatWatch n) : CaptureStep n → Prop
  | .hook _ (.sockops skops) =>
    ∀ dst, w.askedFor skops = some dst → (dst.1 ≠ 0 ↔ skops.remote host ≠ dst)
  | _ => True

/-- Capture is on without sampling, nothing is full, and the kernel reports one
protocol for each socket. -/
structure Captures (proto : UInt64 → UInt8) (w : DnatWatch n) (e : CaptureStep n) : Prop where
  enabled : w.capture.kernel.agentConfig.enabled = true
  sampleRate : w.capture.kernel.agentConfig.sampleRate ≤ 1
  unobstructed : e.Unobstructed
  reported : e.Reported proto

instance (proto : UInt64 → UInt8) (w : DnatWatch n) (e : CaptureStep n) :
    Decidable (w.Captures proto e) :=
  decidable_of_iff (w.capture.kernel.agentConfig.enabled = true ∧
      w.capture.kernel.agentConfig.sampleRate ≤ 1 ∧ e.Unobstructed ∧ e.Reported proto)
    ⟨fun ⟨h₁, h₂, h₃, h₄⟩ => ⟨h₁, h₂, h₃, h₄⟩, fun ⟨h₁, h₂, h₃, h₄⟩ => ⟨h₁, h₂, h₃, h₄⟩⟩

/-- The cache has entries of connections only that the kernel has rewritten, as
far as it is known what they asked for. -/
def RewrittenOnly (a : Agent) (reported : List (EstablishEvent × Option (UInt32 × UInt16))) :
    Prop :=
  ∀ k d, a.intentCache.get k = some d → ∃ p ∈ reported, p.1.intentKey = k ∧
    ∀ dst, p.2 = some dst → (p.1.dstIP, p.1.dstPort) ≠ dst

variable {host} {w : DnatWatch n}

/-! ### One establishment -/

theorem askedFor_eq_some {skops : SockOps} {dst : UInt32 × UInt16}
    (h : w.askedFor skops = some dst) :
    skops.op = .activeEstablished ∧ skops.family = afInet ∧ w.asked skops.cookie = some dst := by
  rw [askedFor] at h
  split_ifs at h with hout
  exact ⟨hout.1, hout.2, h⟩

/-- Exactly the outgoing establishments are recorded as such. -/
theorem direction_eq_zero_iff {k : Kernel n} {env : HookEnv n} {skops : SockOps}
    {direction : UInt8} (h : k.establishes env skops = some direction) :
    direction = 0 ↔ skops.op = .activeEstablished := by
  rcases (k.of_establishes env h).2 with ⟨hop, rfl⟩ | ⟨hop, rfl⟩
  · exact iff_of_true rfl hop
  · rw [hop]
    decide

/-- The event of an outgoing connection counts it as DNATed by its correlation
entry. -/
theorem wasDNATed_establishedEvent (host : ByteOrder) {k : Kernel n} (env : HookEnv n)
    {skops : SockOps} :
    (k.establishedEvent host env skops 0).wasDNATed = true ↔
      ∃ orig, k.cookieToOriginalDst.lookup skops.cookie = some orig ∧ orig.ip ≠ 0 := by
  rw [EstablishEvent.wasDNATed, bne_iff_ne]
  show ((k.cookieToOriginalDst.lookup skops.cookie).getD {}).ip ≠ 0 ↔ _
  rcases k.cookieToOriginalDst.lookup skops.cookie with _ | orig
  · simp
  · simp

theorem establishEvents_append (events events' : List Event) :
    establishEvents (events ++ events') = establishEvents events ++ establishEvents events' :=
  List.filterMap_append

theorem establishEvents_emit (t : SocketTables) (reserveOk : Bool) {evt : Event}
    (hother : establishEvents [evt] = []) :
    establishEvents (t.emit reserveOk evt).events = establishEvents t.events := by
  rw [SocketTables.emit]
  split_ifs
  · rw [establishEvents_append, hother, List.append_nil]
  · rfl

/-- Without an establishment no establish event is sent. -/
theorem establishEvents_of_none {k : Kernel n} {env : HookEnv n} {h : Hook} {t : SocketTables}
    (hnone : ∀ skops, h = .sockops skops → k.establishes env skops = none)
    (hstep : TablesStep host k env h t) : establishEvents t.events = establishEvents k.events := by
  cases hstep with
  | idle hidle => rfl
  | count hcnt hconn hflow hamount => rfl
  | connect4 ctx evt hproto => exact establishEvents_emit _ _ rfl
  | connect6 ctx evt => exact establishEvents_emit _ _ rfl
  | establish skops direction evt hopen =>
    rw [hnone skops rfl] at hopen
    cases hopen
  | close skops conn hends hopen hconn => exact establishEvents_emit k.tables _ rfl
  | release cookie protocol => rfl

/-- An establishment that is recorded is reported, if there is room. -/
theorem events_of_establishes (host : ByteOrder) {env : HookEnv n} {skops : SockOps}
    {direction : UInt8}
    (hopen : w.capture.kernel.establishes env skops = some direction) :
    (w.capture.step host (.hook env (.sockops skops))).kernel.events =
      if env.reserveOk then w.capture.kernel.events
        ++ [.establish (w.capture.kernel.establishedEvent host env skops direction)]
      else w.capture.kernel.events := by
  have htables := w.capture.kernel.tables_sockops host env skops
  rw [hopen] at htables
  exact (congrArg SocketTables.events htables).trans
    (w.capture.kernel.events_handleEstablished host env skops direction)

/-- **One establishment** is judged right exactly if it finds a correlation entry
with an address just when the kernel rewrote the destination. -/
theorem detects_step_iff (w : DnatWatch n) (e : CaptureStep n) :
    w.Detects host e ↔ w.StoredIffRewritten host e := by
  cases e with
  | hook env h =>
    cases h with
    | sockops skops =>
      constructor
      · intro h hopen hreserve dst hdst
        obtain ⟨direction, hdirection⟩ := Option.ne_none_iff_exists'.mp hopen
        obtain rfl := (direction_eq_zero_iff hdirection).mpr (askedFor_eq_some hdst).1
        rw [← wasDNATed_establishedEvent host env]
        refine h dst hdst _ ?_
        rw [events_of_establishes host hdirection, if_pos hreserve]
      · intro h dst hdst evt hevt
        rcases hopen : w.capture.kernel.establishes env skops with _ | direction
        · -- nothing is recorded, so the event is not there
          have hstep : TablesStep host w.capture.kernel env (.sockops skops) _ :=
            Hook.tablesStep w.capture.kernel env (.sockops skops)
          have hsame := establishEvents_of_none (fun skops' heq => Hook.sockops.inj heq ▸ hopen)
            hstep
          have hnew := congrArg establishEvents hevt
          rw [establishEvents_append] at hnew
          exact absurd (congrArg List.length (hsame.symm.trans hnew)) (by simp [establishEvents])
        · obtain rfl := (direction_eq_zero_iff hopen).mpr (askedFor_eq_some hdst).1
          rw [events_of_establishes host hopen] at hevt
          split_ifs at hevt with hreserve
          · obtain rfl := Event.establish.inj (List.singleton_inj.mp (List.append_cancel_left hevt))
            rw [wasDNATed_establishedEvent]
            exact h (by rw [hopen]; exact Option.some_ne_none 0) hreserve dst hdst
          · exact absurd (congrArg List.length hevt) (by simp)
    | _ => exact Iff.rfl
  | _ => exact Iff.rfl

/-! ### What was reported -/

/-- The establishments reported are the establish events sent. -/
theorem reported_step (h : w.reported.map Prod.fst = establishEvents w.capture.kernel.events)
    (e : CaptureStep n) :
    (w.step host e).reported.map Prod.fst
      = establishEvents (w.step host e).capture.kernel.events := by
  cases e with
  | hook env hk =>
    have hstep : TablesStep host w.capture.kernel env hk _ :=
      Hook.tablesStep w.capture.kernel env hk
    by_cases hopen : ∃ skops direction, hk = .sockops skops ∧
        w.capture.kernel.establishes env skops = some direction
    · obtain ⟨skops, direction, rfl, hopen⟩ := hopen
      have hevents := events_of_establishes host hopen
      show (w.reportedAfter host (.hook env (.sockops skops))).map Prod.fst
        = establishEvents (w.capture.step host (.hook env (.sockops skops))).kernel.events
      rw [hevents, reportedAfter, hopen]
      dsimp only
      split_ifs
      · rw [List.map_append, h, establishEvents_append]
        rfl
      · exact h
    · have hnone : ∀ skops, hk = .sockops skops →
          w.capture.kernel.establishes env skops = none := by
        intro skops heq
        by_contra hsome
        obtain ⟨direction, hdirection⟩ := Option.ne_none_iff_exists'.mp hsome
        exact hopen ⟨skops, direction, heq, hdirection⟩
      have hkeep : w.reportedAfter host (.hook env hk) = w.reported := by
        cases hk with
        | sockops skops =>
          rw [reportedAfter, hnone skops rfl]
        | _ => rfl
      show (w.reportedAfter host (.hook env hk)).map Prod.fst = _
      rw [hkeep, h]
      exact (establishEvents_of_none hnone hstep).symm
  | take key =>
    have htake := congrArg SocketTables.events (w.capture.tables_take key)
    exact h.trans (congrArg establishEvents htake).symm
  | _ => exact h

theorem reported_run (cfg : AgentConfig) (run : List (CaptureStep n)) :
    (run.foldl (step host) (new cfg)).reported.map Prod.fst
      = establishEvents (run.foldl (step host) (new cfg)).capture.kernel.events := by
  induction run using List.reverseRecOn with
  | nil => rfl
  | append_singleton run e ih =>
    rw [List.foldl_append, List.foldl_cons, List.foldl_nil]
    exact reported_step ih e

/-- A connection taken for DNATed was rewritten. -/
def Judged (p : EstablishEvent × Option (UInt32 × UInt16)) : Prop :=
  p.1.wasDNATed = true → ∀ dst, p.2 = some dst → (p.1.dstIP, p.1.dstPort) ≠ dst

theorem judged_step (h : ∀ p ∈ w.reported, Judged p) {e : CaptureStep n}
    (he : w.StoredIffRewritten host e) : ∀ p ∈ (w.step host e).reported, Judged p := by
  cases e with
  | hook env hk =>
    cases hk with
    | sockops skops =>
      show ∀ p ∈ w.reportedAfter host (.hook env (.sockops skops)), Judged p
      rcases hopen : w.capture.kernel.establishes env skops with _ | direction
      · rw [reportedAfter, hopen]
        exact h
      rw [reportedAfter, hopen]
      dsimp only
      split_ifs with hreserve
      · intro p hp
        rcases List.mem_append.mp hp with hp | hp
        · exact h p hp
        rw [List.mem_singleton.mp hp]
        intro hdnat dst hdst
        obtain rfl := (direction_eq_zero_iff hopen).mpr (askedFor_eq_some hdst).1
        rw [wasDNATed_establishedEvent] at hdnat
        exact (he (by rw [hopen]; exact Option.some_ne_none 0) hreserve dst hdst).mp hdnat
      · exact h
    | _ => exact h
  | _ => exact h

theorem judged_run {run : List (CaptureStep n)} {w : DnatWatch n} (h : ∀ p ∈ w.reported, Judged p)
    (hrun : History.Along (step host) (StoredIffRewritten host) w run) :
    ∀ p ∈ (run.foldl (step host) w).reported, Judged p := by
  induction run generalizing w with
  | nil => exact h
  | cons e run ih => exact ih (judged_step h hrun.1) hrun.2

/-- In runs that judge right the cache has rewritten connections only. -/
theorem rewrittenOnly_of_along {cfg : AgentConfig} {run : List (CaptureStep n)}
    (hrun : History.Along (step host) (StoredIffRewritten host) (new cfg) run) {a : Agent}
    (hempty : ∀ k, a.intentCache.get k = none) (m : ℕ) :
    RewrittenOnly
      (((run.foldl (step host) (new cfg)).capture.kernel.events.take m).foldl Agent.handle a)
      (run.foldl (step host) (new cfg)).reported := by
  intro k d hget
  obtain ⟨evt, hevt, hdnat, hkey⟩ := Agent.get_of_events hempty hget
  have hsent : evt ∈ establishEvents (run.foldl (step host) (new cfg)).capture.kernel.events :=
    List.mem_filterMap.mpr ⟨_, List.mem_of_mem_take hevt, rfl⟩
  rw [← reported_run, List.mem_map] at hsent
  obtain ⟨p, hp, rfl⟩ := hsent
  exact ⟨p, hp, hkey, judged_run (fun p hp => absurd hp List.not_mem_nil) hrun p hp hdnat⟩

/-! ### With everything captured -/

/-- The correlation entry of a socket has what it asked for. -/
def StoresDialed (proto : UInt64 → UInt8) (w : DnatWatch n) : Prop :=
  ∀ c dst, proto c = ipprotoTCP → w.asked c = some dst →
    ∃ orig, w.capture.kernel.cookieToOriginalDst.lookup c = some orig ∧ orig.ip = dst.1

/-- A captured connect stores what was asked for. -/
theorem cookieToOriginalDst_connect4 (host : ByteOrder) {k : Kernel n} (env : HookEnv n)
    (hon : k.agentConfig.enabled = true) (hrate : k.agentConfig.sampleRate ≤ 1) {ctx : SockAddr}
    (htcp : ctx.protocol = ipprotoTCP) :
    (k.connect4 host env ctx).cookieToOriginalDst
      = k.cookieToOriginalDst.insert ctx.cookie (Kernel.connectDst4 host env ctx) := by
  obtain ⟨evt, htables⟩ := k.tables_connect4_of_tracked host env hon (Or.inl htcp)
    (shouldSample_of_le_one hrate env.prandom)
  refine (congrArg SocketTables.cookieToOriginalDst htables).trans ?_
  rw [SocketTables.cookieToOriginalDst_emit]

/-- Between its connect and its establishment nothing takes the entry of a
socket. -/
theorem originalDst_of_untouched {k : Kernel n} {env : HookEnv n} {h : Hook} {t : SocketTables}
    {c : UInt64} (hconnect : h.connects c = false)
    (hopen : ∀ skops, h = .sockops skops → skops.op = .activeEstablished → skops.cookie ≠ c)
    (hrelease : ∀ protocol, h ≠ .sockRelease c protocol) (hstep : TablesStep host k env h t) :
    t.cookieToOriginalDst.lookup c = k.cookieToOriginalDst.lookup c := by
  cases hstep with
  | idle hidle => rfl
  | count hcnt hconn hflow hamount => rfl
  | connect4 ctx evt hproto =>
    rw [SocketTables.cookieToOriginalDst_emit]
    exact Finmap.lookup_insert_of_ne _ (Ne.symm (by simpa [Hook.connects] using hconnect))
  | connect6 ctx evt =>
    rw [SocketTables.cookieToOriginalDst_emit]
    exact Finmap.lookup_insert_of_ne _ (Ne.symm (by simpa [Hook.connects] using hconnect))
  | establish skops direction evt hestablished =>
    rw [SocketTables.cookieToOriginalDst_emit, SocketTables.establish]
    dsimp only
    split_ifs with hdirection
    · have hactive := (direction_eq_zero_iff hestablished).mp hdirection
      exact Finmap.lookup_erase_ne (Ne.symm (hopen skops rfl hactive))
    · rfl
  | close skops conn hends hestablished hconn =>
    show (SocketTables.emit _ _ _).cookieToOriginalDst.lookup c = _
    rw [SocketTables.cookieToOriginalDst_emit]
    rfl
  | release cookie protocol =>
    refine Finmap.lookup_erase_ne ?_
    rintro rfl
    exact hrelease protocol rfl

/-- What is asked for changes with a connect, an outgoing establishment and a
release of the socket only. -/
theorem asked_of_untouched {env : HookEnv n} {h : Hook} {c : UInt64}
    (hconnect : h.connects c = false)
    (hopen : ∀ skops, h = .sockops skops → skops.op = .activeEstablished → skops.cookie ≠ c)
    (hrelease : ∀ protocol, h ≠ .sockRelease c protocol)
    (asked : UInt64 → Option (UInt32 × UInt16)) :
    askedAfter host asked (.hook env h) c = asked c := by
  cases h with
  | connect4 ctx =>
    exact Function.update_of_ne (Ne.symm (by simpa [Hook.connects] using hconnect)) _ _
  | connect6 ctx =>
    exact Function.update_of_ne (Ne.symm (by simpa [Hook.connects] using hconnect)) _ _
  | sockops skops =>
    rw [askedAfter]
    split_ifs with hactive
    · exact Function.update_of_ne (Ne.symm (hopen skops rfl hactive)) _ _
    · rfl
  | sockRelease cookie protocol =>
    refine Function.update_of_ne ?_ _ _
    rintro rfl
    exact hrelease protocol rfl
  | _ => rfl

/-- **One step** keeps what was asked for in the entry. -/
theorem storesDialed_step {proto : UInt64 → UInt8} (h : w.StoresDialed proto) {e : CaptureStep n}
    (he : w.Captures proto e) : (w.step host e).StoresDialed proto := by
  have hfree := he.unobstructed
  have hreported := he.reported
  cases e with
  | hook env hk =>
    intro c dst htcp hdst
    have hdst' : askedAfter host w.asked (.hook env hk) c = some dst := hdst
    by_cases hconnect : hk.connects c = true
    · -- the connect that asks for it
      cases hk with
      | connect4 ctx =>
        obtain rfl : ctx.cookie = c := by simpa [Hook.connects] using hconnect
        rw [askedAfter, Function.update_self] at hdst'
        have hctx : ctx.protocol = ipprotoTCP :=
          (show ctx.protocol = proto ctx.cookie from hreported).trans htcp
        refine ⟨Kernel.connectDst4 host env ctx, ?_, congrArg Prod.fst (Option.some.inj hdst')⟩
        show (w.capture.kernel.connect4 host env ctx).cookieToOriginalDst.lookup ctx.cookie = _
        rw [cookieToOriginalDst_connect4 host env he.enabled he.sampleRate hctx,
          Finmap.lookup_insert]
      | connect6 ctx =>
        obtain rfl : ctx.cookie = c := by simpa [Hook.connects] using hconnect
        rw [askedAfter, Function.update_self] at hdst'
        cases hdst'
      | _ => cases hconnect
    have hconnect' : hk.connects c = false := by simpa using hconnect
    have hopen : ∀ skops, hk = .sockops skops → skops.op = .activeEstablished →
        skops.cookie ≠ c := by
      rintro skops rfl hactive rfl
      rw [askedAfter, if_pos hactive, Function.update_self] at hdst'
      cases hdst'
    have hrelease : ∀ protocol, hk ≠ .sockRelease c protocol := by
      rintro protocol rfl
      rw [askedAfter, Function.update_self] at hdst'
      cases hdst'
    rw [asked_of_untouched hconnect' hopen hrelease] at hdst'
    obtain ⟨orig, horig, hip⟩ := h c dst htcp hdst'
    have hstep : TablesStep host w.capture.kernel env hk _ :=
      Hook.tablesStep w.capture.kernel env hk
    exact ⟨orig, (originalDst_of_untouched hconnect' hopen hrelease hstep).trans horig, hip⟩
  | take key =>
    intro c dst htcp hdst
    obtain ⟨orig, horig, hip⟩ := h c dst htcp hdst
    have htake := congrArg SocketTables.cookieToOriginalDst (w.capture.tables_take key)
    exact ⟨orig, (congrArg (Finmap.lookup c) htake).trans horig, hip⟩
  | deliver => exact h
  | setConfig cfg => exact h
  | evictConnection c => exact hfree.elim
  | evictOriginalDst c => exact hfree.elim

/-- With everything captured, an outgoing connection is taken for DNATed whatever
the kernel did to it. -/
theorem stored_iff_dialed {proto : UInt64 → UInt8} (h : w.StoresDialed proto) {e : CaptureStep n}
    (he : w.Captures proto e) : w.StoredIffRewritten host e ↔ w.DialedIffRewritten host e := by
  have hreported := he.reported
  have hfree := he.unobstructed
  cases e with
  | hook env hk =>
    cases hk with
    | sockops skops =>
      have hentry : ∀ dst, w.askedFor skops = some dst →
          ((∃ orig, w.capture.kernel.cookieToOriginalDst.lookup skops.cookie = some orig ∧
            orig.ip ≠ 0) ↔ dst.1 ≠ 0) := by
        intro dst hdst
        obtain ⟨orig, horig, hip⟩ := h skops.cookie dst hreported.1 (askedFor_eq_some hdst).2.2
        rw [horig, ← hip]
        simp
      constructor
      · intro hstored dst hdst
        obtain ⟨hop, hfam, hasked⟩ := askedFor_eq_some hdst
        obtain ⟨orig, horig, -⟩ := h skops.cookie dst hreported.1 hasked
        have hopen : w.capture.kernel.establishes env skops ≠ none := by
          rw [Kernel.establishes, Kernel.getConfig, if_pos he.enabled, Option.bind_some, hop, hfam,
            horig]
          simp
        rw [← hentry dst hdst]
        exact hstored hopen hfree.2 dst hdst
      · intro hdialed _ _ dst hdst
        rw [hentry dst hdst]
        exact hdialed dst hdst
    | _ => exact Iff.rfl
  | _ => exact Iff.rfl

/-! ### Every run -/

/-- **When DNAT is detected.**  Along a run the establish events of outgoing IPv4
connections tell the rewritten ones, and the intent cache has only these, exactly
if each finds a correlation entry with an address just when it was rewritten.
With everything captured, that is exactly if each was rewritten, or dialed
0.0.0.0 and was not. -/
theorem detects_iff (host : ByteOrder) (proto : UInt64 → UInt8) (cfg : AgentConfig)
    (run : List (CaptureStep n)) :
    (History.Along (step host) (Detects host) (new cfg) run ∧
        (∀ (a : Agent), (∀ k, a.intentCache.get k = none) → ∀ m, RewrittenOnly
          (((run.foldl (step host) (new cfg)).capture.kernel.events.take m).foldl Agent.handle a)
          (run.foldl (step host) (new cfg)).reported) ↔
      History.Along (step host) (StoredIffRewritten host) (new cfg) run) ∧
    (History.Along (step host) (Captures proto) (new cfg) run →
      (History.Along (step host) (StoredIffRewritten host) (new cfg) run ↔
        History.Along (step host) (DialedIffRewritten host) (new cfg) run)) := by
  have htrue : ∀ (w : DnatWatch n) e, True → w.Detects host e → True := fun _ _ _ _ => trivial
  have hdetects : History.Along (step host) (Detects host) (new cfg) run ↔
      History.Along (step host) (StoredIffRewritten host) (new cfg) run :=
    History.along_iff htrue (fun w e _ => detects_step_iff w e) trivial run
  refine ⟨⟨fun h => hdetects.mp h.1, ?_⟩, ?_⟩
  · intro h
    refine ⟨hdetects.mpr h, ?_⟩
    intro a hempty m
    exact rewrittenOnly_of_along h hempty m
  · have hstep : ∀ (w : DnatWatch n) e, w.StoresDialed proto → w.Captures proto e →
        (w.step host e).StoresDialed proto := fun w e h he => storesDialed_step h he
    refine History.along_iff_of_domain hstep (fun w e h he => stored_iff_dialed h he) ?_
    intro c dst _ hdst
    cases hdst

/-- A TCP socket dials port 443 of an address. -/
def dialTCP (ip : UInt32) : CaptureStep 1 :=
  .hook Capture.onOneCPU
    (.connect4 { cookie := 9, protocol := ipprotoTCP, userIP4 := ip, userPort := 0xbb01 })

/-- It is established with port 443 of 10.0.0.2. -/
def reachPod : CaptureStep 1 :=
  .hook Capture.onOneCPU (.sockops
    { cookie := 9
      op := .activeEstablished
      family := afInet
      localIP4 := 0x0100000a
      remoteIP4 := 0x0200000a
      localPort := 40000
      remotePort := 0xbb010000 })

/-- A ClusterIP is dialed, and a pod is reached. -/
theorem detects_clusterIP :
    History.Along (step .little) (Detects .little) (new Capture.trackAll)
      [dialTCP 0x0100600a, reachPod] := by
  obtain ⟨hiff, hcaptured⟩ := detects_iff .little Capture.oneUDP Capture.trackAll
    [dialTCP 0x0100600a, reachPod]
  refine (hiff.mpr ((hcaptured (by decide)).mpr ⟨trivial, ?_, trivial⟩)).1
  intro dst hdst
  rw [← Option.some.inj hdst]
  decide

/-- **A connection to a pod counts as DNATed**: the pod itself is dialed, nothing
is rewritten, and its event says it was. -/
theorem unrewritten_is_dnated :
    History.Along (step .little) (Captures Capture.oneUDP) (new Capture.trackAll)
        [dialTCP 0x0200000a, reachPod] ∧
      ¬History.Along (step .little) (Detects .little) (new Capture.trackAll)
        [dialTCP 0x0200000a, reachPod] := by
  refine ⟨by decide, ?_⟩
  rintro ⟨-, hreached, -⟩
  exact (hreached (0x0200000a, 443) (by decide) _ rfl).mp (by decide) (by decide)

end DnatWatch
