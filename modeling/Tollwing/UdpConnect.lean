/-
The destination of a connected UDP socket (`pkg/ebpf/bpf/tollwing.bpf.c`).

A UDP socket may connect again, and what it sends then goes to the new peer.
`cgroup/connect4` makes the entry of the socket with `BPF_NOEXIST`, so the entry
keeps the destination of the first connect, while the correlation entry beside
it is overwritten by every one.

`UdpWatch` is a capture beside the destinations each UDP socket has connected to
since it was last released.  Any sockets may connect, send, receive and be
released in any order, with polls in between.

* `UdpWatch.Inv` — the entry of a UDP socket has the first of its destinations;
* `UdpWatch.followsConnect_iff` — sends are charged to the latest one exactly
  if it is the first one, too;
* `UdpWatch.reconnect_charges_first_peer` — a socket that connects twice.
-/
import Tollwing.TcpLifecycle

/-- The address and port a connect asks for. -/
def SockAddr.destination (host : ByteOrder) (ctx : SockAddr) : UInt32 × UInt16 :=
  (ctx.userIP4, (host.htonl ctx.userPort >>> 16).toUInt16)

/-- The capture and the destinations of the UDP sockets, the first connect
first. -/
structure UdpWatch (n : ℕ) where
  capture : Capture n
  dialed : UInt64 → List (UInt32 × UInt16)

/-- A UDP connect adds a destination, a release starts over. -/
def dialedAfter (host : ByteOrder) {n : ℕ} (dialed : UInt64 → List (UInt32 × UInt16)) :
    CaptureStep n → UInt64 → List (UInt32 × UInt16)
  | .hook _ (.connect4 ctx) =>
    if ctx.protocol = ipprotoUDP then
      Function.update dialed ctx.cookie (dialed ctx.cookie ++ [ctx.destination host])
    else dialed
  | .hook _ (.sockRelease cookie _) => Function.update dialed cookie []
  | _ => dialed

/-- What an entry says of a UDP peer. -/
def ConnInfo.peer (conn : ConnInfo) : UInt8 × UInt32 × UInt16 :=
  (conn.protocol, conn.dstIP, conn.dstPort)

theorem ConnInfo.peer_eq_of_flowKey {conn conn' : ConnInfo} (h : conn.flowKey = conn'.flowKey) :
    conn.peer = conn'.peer := by
  have hprotocol := congrArg FlowKey.protocol h
  have hip := congrArg FlowKey.dstIP h
  have hport := congrArg FlowKey.dstPort h
  rw [peer, peer]
  exact Prod.ext hprotocol (Prod.ext hip hport)

namespace UdpWatch

variable (host : ByteOrder) {n : ℕ}

def new (cfg : AgentConfig) : UdpWatch n := ⟨.init cfg, fun _ => []⟩

def step (w : UdpWatch n) (e : CaptureStep n) : UdpWatch n :=
  ⟨w.capture.step host e, dialedAfter host w.dialed e⟩

/-- UDP is tracked without sampling, no map is full, and the kernel reports one
protocol for each socket. -/
structure Tracks (proto : UInt64 → UInt8) (w : UdpWatch n) (e : CaptureStep n) : Prop where
  enabled : w.capture.kernel.agentConfig.enabled = true
  trackUDP : w.capture.kernel.agentConfig.trackUDP = true
  sampleRate : w.capture.kernel.agentConfig.sampleRate ≤ 1
  unobstructed : e.Unobstructed
  reported : e.Reported proto

instance (proto : UInt64 → UInt8) (w : UdpWatch n) (e : CaptureStep n) :
    Decidable (w.Tracks proto e) :=
  decidable_of_iff (w.capture.kernel.agentConfig.enabled = true ∧
      w.capture.kernel.agentConfig.trackUDP = true ∧
      w.capture.kernel.agentConfig.sampleRate ≤ 1 ∧ e.Unobstructed ∧ e.Reported proto)
    ⟨fun ⟨h₁, h₂, h₃, h₄, h₅⟩ => ⟨h₁, h₂, h₃, h₄, h₅⟩, fun ⟨h₁, h₂, h₃, h₄, h₅⟩ =>
      ⟨h₁, h₂, h₃, h₄, h₅⟩⟩

/-- A send of a connected UDP socket is charged to the destination of its latest
connect, and the charge is kept. -/
def FollowsConnect (w : UdpWatch n) : CaptureStep n → Prop
  | .hook env (.udpSendmsg cookie len) =>
    0 < len.toNat → len.toNat < 2 ^ 31 → ∀ dst, (w.dialed cookie).getLast? = some dst →
      ∀ i, ∃ key : FlowKey,
        w.capture.charge host i (.hook env (.udpSendmsg cookie len))
            = [⟨i, .udpSendmsg cookie len, key, .ofBytes len 0⟩] ∧
          (key.dstIP, key.dstPort) = dst ∧ w.capture.kernel.posting env key true = .kept
  | _ => True

/-- The first and the latest connect of a socket that sends went to the same
destination. -/
def SameDestination (w : UdpWatch n) : CaptureStep n → Prop
  | .hook _ (.udpSendmsg cookie len) =>
    0 < len.toNat → len.toNat < 2 ^ 31 → (w.dialed cookie).getLast? = (w.dialed cookie).head?
  | _ => True

/-- The entries of UDP sockets have the destination of the first connect. -/
structure Inv (proto : UInt64 → UInt8) (w : UdpWatch n) : Prop where
  entry : ∀ c, proto c = ipprotoUDP →
    (w.capture.kernel.connections.lookup c).map ConnInfo.peer
      = (w.dialed c).head?.map (Prod.mk ipprotoUDP)
  dialed : ∀ c, proto c ≠ ipprotoUDP → w.dialed c = []

variable {host} {proto : UInt64 → UInt8} {w : UdpWatch n}

/-! ### The entry of a UDP socket -/

/-- A hook that neither connects nor releases a UDP socket leaves its peer. -/
theorem peer_of_untouched {k : Kernel n} {env : HookEnv n} {h : Hook} {t : SocketTables}
    {c : UInt64} (hudp : proto c = ipprotoUDP) (hreported : h.Reported proto)
    (hconnect : ∀ ctx, h = .connect4 ctx → ctx.protocol = ipprotoUDP → ctx.cookie ≠ c)
    (hrelease : ∀ protocol, h ≠ .sockRelease c protocol) (hstep : TablesStep host k env h t) :
    (t.connections.lookup c).map ConnInfo.peer
      = (k.connections.lookup c).map ConnInfo.peer := by
  have hother : ∀ {skops : SockOps}, h = .sockops skops → c ≠ skops.cookie := by
    rintro skops rfl rfl
    rw [hreported.1] at hudp
    exact absurd hudp (by decide)
  cases hstep with
  | idle hidle => rfl
  | @count _ cnt conn conn' hcnt hconn hflow hamount =>
    by_cases hc : c = cnt.cookie
    · subst hc
      dsimp only
      rw [Finmap.lookup_insert, (k.of_tracked hconn).1]
      exact congrArg some (ConnInfo.peer_eq_of_flowKey hflow)
    · dsimp only
      rw [Finmap.lookup_insert_of_ne _ hc]
  | connect4 ctx evt hproto =>
    rw [SocketTables.connections_emit]
    dsimp only
    split_ifs with hnew
    · rw [Finmap.lookup_insert_of_ne _ (Ne.symm (hconnect ctx rfl hnew.1))]
    · rfl
  | connect6 ctx evt =>
    rw [SocketTables.connections_emit]
    rfl
  | establish skops direction evt hopen =>
    rw [SocketTables.connections_emit, SocketTables.establish]
    dsimp only
    rw [Finmap.lookup_insert_of_ne _ (hother rfl)]
    rfl
  | close skops conn hends hopen hconn =>
    dsimp only
    rw [Finmap.lookup_erase_ne (hother rfl)]
  | release cookie protocol =>
    have hc : c ≠ cookie := by
      rintro rfl
      exact hrelease protocol rfl
    dsimp only
    split_ifs
    · rw [Finmap.lookup_erase_ne hc]
    · rfl

/-- A tracked UDP connect makes the entry of a socket that has none. -/
theorem connections_connect4 (host : ByteOrder) {k : Kernel n} (env : HookEnv n)
    (hon : k.agentConfig.enabled = true) (htrack : k.agentConfig.trackUDP = true)
    (hrate : k.agentConfig.sampleRate ≤ 1) {ctx : SockAddr} (hudp : ctx.protocol = ipprotoUDP) :
    (k.connect4 host env ctx).connections =
      if k.connections.lookup ctx.cookie = none then
        k.connections.insert ctx.cookie (Kernel.connectConn4 host env ctx)
      else k.connections := by
  obtain ⟨evt, htables⟩ := k.tables_connect4_of_tracked host env hon (Or.inr ⟨hudp, htrack⟩)
    (shouldSample_of_le_one hrate env.prandom)
  refine (congrArg SocketTables.connections htables).trans ?_
  rw [SocketTables.connections_emit]
  simp only [hudp, true_and]

/-- A UDP connect adds a destination, and is the first one of a socket without an
entry. -/
theorem Inv.connect (h : w.Inv proto) {env : HookEnv n} {ctx : SockAddr}
    (he : w.Tracks proto (.hook env (.connect4 ctx))) (hudp : ctx.protocol = ipprotoUDP) :
    (w.step host (.hook env (.connect4 ctx))).Inv proto := by
  have hcookie : proto ctx.cookie = ipprotoUDP :=
    (show ctx.protocol = proto ctx.cookie from he.reported).symm.trans hudp
  have hrun := connections_connect4 host env he.enabled he.trackUDP he.sampleRate hudp
  have hdialed : (w.step host (.hook env (.connect4 ctx))).dialed
      = Function.update w.dialed ctx.cookie (w.dialed ctx.cookie ++ [ctx.destination host]) :=
    if_pos hudp
  constructor
  · intro c hc
    show ((w.capture.kernel.connect4 host env ctx).connections.lookup c).map _ = _
    rw [hrun, hdialed]
    have hentry := h.entry c hc
    by_cases hsame : c = ctx.cookie
    · subst hsame
      rw [Function.update_self]
      rcases hd : w.dialed ctx.cookie with _ | ⟨d, ds⟩
      · -- the first connect makes the entry
        rw [hd] at hentry
        rw [if_pos (Option.map_eq_none_iff.mp hentry), Finmap.lookup_insert]
        rfl
      · rw [hd] at hentry
        have hsome : w.capture.kernel.connections.lookup ctx.cookie ≠ none := by
          intro hnone
          rw [hnone] at hentry
          cases hentry
        rw [if_neg hsome]
        exact hentry
    · rw [Function.update_of_ne hsame]
      split_ifs
      · rw [Finmap.lookup_insert_of_ne _ hsame]
        exact hentry
      · exact hentry
  · intro c hc
    have hsame : c ≠ ctx.cookie := by
      rintro rfl
      exact hc hcookie
    rw [hdialed, Function.update_of_ne hsame]
    exact h.dialed c hc

/-- A release takes the entry of a UDP socket. -/
theorem Inv.release (h : w.Inv proto) {env : HookEnv n} {cookie : UInt64} {protocol : UInt8}
    (hreported : protocol = proto cookie) :
    (w.step host (.hook env (.sockRelease cookie protocol))).Inv proto := by
  have hrun : (w.capture.kernel.sockRelease cookie protocol).connections
      = if protocol ≠ ipprotoTCP then w.capture.kernel.connections.erase cookie
        else w.capture.kernel.connections :=
    congrArg SocketTables.connections (w.capture.kernel.tables_sockRelease cookie protocol)
  constructor
  · intro c hc
    show ((w.capture.kernel.sockRelease cookie protocol).connections.lookup c).map _
      = (Function.update w.dialed cookie [] c).head?.map _
    rw [hrun]
    by_cases hsame : c = cookie
    · subst hsame
      have hproto : protocol ≠ ipprotoTCP := by
        rw [hreported, hc]
        decide
      rw [if_pos hproto, Finmap.lookup_erase, Function.update_self]
      rfl
    · rw [Function.update_of_ne hsame]
      split_ifs
      · rw [Finmap.lookup_erase_ne hsame]
        exact h.entry c hc
      · exact h.entry c hc
  · intro c hc
    show Function.update w.dialed cookie [] c = []
    by_cases hsame : c = cookie
    · rw [hsame, Function.update_self]
    · rw [Function.update_of_ne hsame]
      exact h.dialed c hc

/-- **One step** keeps the first destination in the entry. -/
theorem Inv.step (h : w.Inv proto) {e : CaptureStep n} (he : w.Tracks proto e) :
    (w.step host e).Inv proto := by
  have hfree := he.unobstructed
  cases e with
  | hook env hk =>
    by_cases hconnect : ∃ ctx, hk = .connect4 ctx ∧ ctx.protocol = ipprotoUDP
    · obtain ⟨ctx, rfl, hudp⟩ := hconnect
      exact h.connect he hudp
    by_cases hrelease : ∃ cookie protocol, hk = .sockRelease cookie protocol
    · obtain ⟨cookie, protocol, rfl⟩ := hrelease
      exact h.release he.reported
    have hdialed : (w.step host (.hook env hk)).dialed = w.dialed := by
      cases hk with
      | connect4 ctx => exact if_neg fun hudp => hconnect ⟨ctx, rfl, hudp⟩
      | sockRelease cookie protocol => exact absurd ⟨cookie, protocol, rfl⟩ hrelease
      | _ => rfl
    constructor
    · intro c hc
      rw [hdialed, ← h.entry c hc]
      refine peer_of_untouched hc he.reported ?_ ?_
        (Hook.tablesStep w.capture.kernel env hk)
      · intro ctx heq hudp
        exact absurd ⟨ctx, heq, hudp⟩ hconnect
      · intro protocol heq
        exact hrelease ⟨c, protocol, heq⟩
    · rw [hdialed]
      exact h.dialed
  | take key =>
    refine ⟨?_, h.dialed⟩
    intro c hc
    have htake := congrArg SocketTables.connections (w.capture.tables_take key)
    exact (congrArg (fun m => (Finmap.lookup c m).map ConnInfo.peer) htake).trans (h.entry c hc)
  | deliver => exact ⟨h.entry, h.dialed⟩
  | setConfig cfg => exact ⟨h.entry, h.dialed⟩
  | evictConnection c => exact hfree.elim
  | evictOriginalDst c => exact hfree.elim

theorem inv_new (cfg : AgentConfig) : (new cfg : UdpWatch n).Inv proto :=
  ⟨fun _ _ => rfl, fun _ _ => rfl⟩

/-! ### Sends -/

/-- A socket that connected has an entry, with the first destination. -/
theorem Inv.entry_of_head (h : w.Inv proto) {cookie : UInt64} {dst : UInt32 × UInt16}
    (hfirst : (w.dialed cookie).head? = some dst) :
    ∃ conn, w.capture.kernel.connections.lookup cookie = some conn ∧
      conn.peer = (ipprotoUDP, dst) := by
  have hudp : proto cookie = ipprotoUDP := by
    by_contra hother
    rw [h.dialed cookie hother] at hfirst
    cases hfirst
  have hentry := h.entry cookie hudp
  rw [hfirst] at hentry
  exact Option.map_eq_some_iff.mp hentry

/-- A send of a socket with an entry is charged to the entry's flow and kept. -/
theorem charge_of_entry (host : ByteOrder) {env : HookEnv n} {cookie len : UInt64}
    (hon : w.capture.kernel.agentConfig.enabled = true) (hinsert : env.insertOk = true)
    (hpos : 0 < len.toNat) (hint : len.toNat < 2 ^ 31) {conn : ConnInfo}
    (hconn : w.capture.kernel.connections.lookup cookie = some conn)
    (hudp : conn.protocol = ipprotoUDP) (i : ℕ) :
    w.capture.charge host i (.hook env (.udpSendmsg cookie len))
        = [⟨i, .udpSendmsg cookie len, conn.flowKey, .ofBytes len 0⟩] ∧
      w.capture.kernel.posting env conn.flowKey true = .kept := by
  have hlen : ¬len.toUInt32.toInt32 ≤ 0 := by
    rw [toInt32_le_zero_iff hint]
    rintro rfl
    exact absurd hpos (lt_irrefl 0)
  have hcounting : (Hook.udpSendmsg cookie len).counting host
      = some ⟨cookie, fun conn => conn.protocol == ipprotoUDP, .ofBytes len 0, true⟩ :=
    if_neg hlen
  have htracked : w.capture.kernel.tracked
      ⟨cookie, fun conn => conn.protocol == ipprotoUDP, .ofBytes len 0, true⟩ = some conn := by
    rw [Kernel.tracked, Kernel.getConfig, if_pos hon]
    dsimp only
    rw [hconn, Option.filter_some, if_pos (beq_iff_eq.mpr hudp)]
  constructor
  · rw [Capture.charge, Kernel.charge, hcounting, Option.bind_some, htracked]
    rfl
  · rw [Kernel.posting, hinsert]
    simp

/-- **One send** is charged to the latest destination exactly if that is the
first one. -/
theorem followsConnect_step_iff (h : w.Inv proto) {e : CaptureStep n} (he : w.Tracks proto e) :
    w.FollowsConnect host e ↔ w.SameDestination e := by
  have hfree := he.unobstructed
  cases e with
  | hook env hk =>
    cases hk with
    | udpSendmsg cookie len =>
      constructor
      · intro hfollows hpos hint
        rcases hd : w.dialed cookie with _ | ⟨d, ds⟩
        · rfl
        obtain ⟨conn, hconn, hpeer⟩ := h.entry_of_head (congrArg List.head? hd)
        obtain ⟨latest, hlatest⟩ : ∃ latest, (d :: ds).getLast? = some latest :=
          ⟨_, List.getLast?_eq_some_getLast (List.cons_ne_nil d ds)⟩
        obtain ⟨hcharge, -⟩ := charge_of_entry host he.enabled hfree.1 hpos hint hconn
          (congrArg Prod.fst hpeer) 0
        obtain ⟨key, hkey, hdst, -⟩ := hfollows hpos hint latest (hd ▸ hlatest) 0
        -- the charge is of the entry's flow, and so to the first destination
        rw [hcharge] at hkey
        have hflow : conn.flowKey = key := congrArg Charge.key (List.singleton_inj.mp hkey)
        rw [hlatest, ← hdst, ← hflow]
        exact congrArg some (congrArg Prod.snd hpeer)
      · intro hsame hpos hint dst hdst i
        have hfirst : (w.dialed cookie).head? = some dst := (hsame hpos hint).symm.trans hdst
        obtain ⟨conn, hconn, hpeer⟩ := h.entry_of_head hfirst
        obtain ⟨hcharge, hkept⟩ := charge_of_entry host he.enabled hfree.1 hpos hint
          hconn (congrArg Prod.fst hpeer) i
        exact ⟨conn.flowKey, hcharge, congrArg Prod.snd hpeer, hkept⟩
    | _ => exact Iff.rfl
  | _ => exact Iff.rfl

/-- **Sends follow the latest connect** along a run exactly if every socket that
sends last connected to where it first connected. -/
theorem followsConnect_iff (host : ByteOrder) (proto : UInt64 → UInt8) (cfg : AgentConfig)
    {run : List (CaptureStep n)}
    (htracks : History.Along (step host) (Tracks proto) (new cfg) run) :
    History.Along (step host) (FollowsConnect host) (new cfg) run ↔
      History.Along (step host) SameDestination (new cfg) run := by
  have hstep : ∀ (w : UdpWatch n) e, w.Inv proto → w.Tracks proto e → (w.step host e).Inv proto :=
    fun w e h he => h.step he
  refine History.along_iff_of_domain hstep ?_ (inv_new cfg) htracks
  intro w e h he
  exact followsConnect_step_iff h he

/-- The socket sends 40 bytes. -/
def udpSend : CaptureStep 1 := .hook Capture.onOneCPU (.udpSendmsg 7 40)

/-- It connects to 10.0.0.2:53. -/
def udpReconnect : CaptureStep 1 :=
  .hook Capture.onOneCPU
    (.connect4 { cookie := 7, protocol := ipprotoUDP, userIP4 := 0x0200000a, userPort := 0x3500 })

theorem followsConnect_released :
    History.Along (step .little) (FollowsConnect .little) (new Capture.trackAll)
      [Capture.udpConnect, udpSend, Capture.udpConnect, udpSend,
        .hook Capture.onOneCPU (.sockRelease 7 ipprotoUDP)] :=
  (followsConnect_iff .little Capture.oneUDP Capture.trackAll (by decide)).mpr
    ⟨trivial, fun _ _ => rfl, trivial, fun _ _ => rfl, trivial, trivial⟩

/-- **A second connect is not followed**: what is sent to 10.0.0.2 is charged to
10.0.0.1. -/
theorem reconnect_charges_first_peer :
    History.Along (step .little) (Tracks Capture.oneUDP) (new Capture.trackAll)
        [Capture.udpConnect, udpReconnect, udpSend] ∧
      ¬History.Along (step .little) (FollowsConnect .little) (new Capture.trackAll)
        [Capture.udpConnect, udpReconnect, udpSend] := by
  refine ⟨by decide, ?_⟩
  rintro ⟨-, -, hsend, -⟩
  obtain ⟨key, hcharge, hdst, -⟩ := hsend (by decide) (by decide) (0x0200000a, 53) (by decide) 0
  have hkey : [key] = [Capture.udpFlow] := (congrArg (List.map Charge.key) hcharge).symm
  rw [List.singleton_inj.mp hkey] at hdst
  exact absurd hdst (by decide)

end UdpWatch
