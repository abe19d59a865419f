/-
The owner of the sent UDP bytes.

Two programs can count what an application sends over UDP: `fentry/udp_sendmsg`
into `flow_aggregates`, and the hook at the interface into `quic_flows`.  The
`udp_socket_tx` bit names the one that does.  The first reads no such bit: it
counts on UDP connections, and there are some only if UDP is tracked, which the
bit takes into account together with whether the program is attached.

* `Owned` — what the kernel holds agrees with what the loader decided;
  `NodeAgent.owned_exec` says that it does in every run;
* `Owned.socket_owns`, `Owned.interface_owns` — who counts is the owner;
* `NodeAgent.udp_send_counted_once` — no send is counted by both, and the poller,
  which merges the two maps as they are, delivers no send twice.
-/
import Tollwing.FlowConservation
import Tollwing.NodeBooks

/-- The socket path owns the sent UDP bytes. -/
def Loader.socketOwns (l : Loader) : Bool := udpSocketTX l.cfg.trackUDP l.udpSendmsgAttached

/-- The kernel goes by what the loader decided: the pushed bits, and no UDP
connection unless UDP is tracked. -/
structure Owned (l : Loader) {n : ℕ} (k : Kernel n) : Prop where
  trackUDP : k.agentConfig.trackUDP = l.cfg.trackUDP
  udpSocketTx : k.agentConfig.udpSocketTx = l.socketOwns
  connections : ∀ cookie conn, k.connections.lookup cookie = some conn →
    conn.protocol = ipprotoUDP → l.cfg.trackUDP = true

namespace Owned

variable {host : ByteOrder} {l : Loader} {n : ℕ} {k k' : Kernel n}

/-! ### It is kept -/

theorem init (l : Loader) : Owned l (Kernel.init l.agentConfig : Kernel n) :=
  ⟨rfl, rfl, fun _ _ h => absurd h (by simp [Kernel.init])⟩

/-- It depends on two bits of the configuration and on the connections. -/
theorem congr (h : Owned l k) (htrack : k'.agentConfig.trackUDP = k.agentConfig.trackUDP)
    (htx : k'.agentConfig.udpSocketTx = k.agentConfig.udpSocketTx)
    (hconn : k'.connections = k.connections) : Owned l k' :=
  ⟨htrack.trans h.trackUDP, htx.trans h.udpSocketTx, fun cookie conn hentry =>
    h.connections cookie conn (hconn ▸ hentry)⟩

/-- A hook makes a UDP connection only when UDP is tracked. -/
theorem hook (h : Owned l k) (env : HookEnv n) (hk : Hook) : Owned l (hk.run host env k) := by
  have hcfg := @Hook.agentConfig_run host n k env hk
  refine ⟨by rw [hcfg, h.trackUDP], by rw [hcfg, h.udpSocketTx], fun cookie conn hentry hudp => ?_⟩
  rcases (Hook.tablesStep k env hk).entry_cases hentry with
    ⟨old, hold, hflow⟩ | ⟨ctx, -, -, -, htrack, -⟩ | ⟨skops, direction, -, -, -, rfl⟩
  · -- an entry that was there has kept its flow
    have hproto : conn.protocol = old.protocol := congrArg FlowKey.protocol hflow
    exact h.connections cookie old hold (hproto.symm.trans hudp)
  · rw [← h.trackUDP]
    exact htrack
  · -- an established connection is a TCP one
    cases hudp

theorem evictConnection (h : Owned l k) (cookie : UInt64) : Owned l (k.evictConnection cookie) :=
  ⟨h.trackUDP, h.udpSocketTx, FinMap.forall_lookup_erase h.connections⟩

theorem quicEgress {p : QuicPlane n} (h : Owned l p.kernel) (env : HookEnv n)
    (frame : List UInt8) : Owned l (p.quicEgress host env frame).kernel := by
  rw [QuicPlane.quicEgress_eq]
  cases p.recorded host frame with
  | none => exact h
  | some pkt =>
    show Owned l (p.record env pkt).kernel
    rw [QuicPlane.record]
    cases p.quicFlows.lookup pkt.key with
    | some perCPU => exact h
    | none =>
      dsimp only
      split_ifs
      · exact h
      · exact h.congr rfl rfl rfl

/-! ### Who counts is the owner -/

/-- `udp_sendmsg` finds a connection to count on only if the socket path owns the
bytes. -/
theorem socket_owns (h : Owned l k) {hk : Hook} (hruns : l.runs hk = true)
    (hsend : hk.isUDPSend = true) {conn : ConnInfo}
    (hconn : (hk.counting host).bind k.tracked = some conn) : l.socketOwns = true := by
  cases hk with
  | udpSendmsg cookie len =>
    obtain ⟨cnt, hcnt, hconn⟩ := Option.bind_eq_some_iff.mp hconn
    obtain rfl := eq_of_guarded hcnt
    obtain ⟨hentry, hudp⟩ := k.of_tracked hconn
    have htrack : l.cfg.trackUDP = true := h.connections _ conn hentry (eq_of_beq hudp)
    have hattached : l.udpSendmsgAttached = true := hruns
    rw [Loader.socketOwns, Loader.udpSocketTX, htrack, hattached]
    rfl
  | _ => cases hsend

/-- The hook at the interface records a frame only if the socket path does not. -/
theorem interface_owns {p : QuicPlane n} (h : Owned l p.kernel) {frame : List UInt8}
    {pkt : QuicPacket} (hpkt : p.recorded host frame = some pkt) : l.socketOwns = false := by
  rw [← h.udpSocketTx]
  exact p.udpSocketTx_of_recorded host hpkt

end Owned

namespace NodeAgent

variable {host : ByteOrder} {l : Loader} {n : ℕ}

/-- No step of the agent changes the decision. -/
theorem owned_step {s : NodeAgent n} (h : Owned l s.plane.kernel) (e : NodeStep n) :
    Owned l (s.step host l e).plane.kernel := by
  cases e with
  | kernel e =>
    cases e with
    | hook env hk =>
      show Owned l (s.kernelStep host l (.hook env hk)).plane.kernel
      rw [kernelStep]
      split_ifs
      · exact h.hook env hk
      · exact h
    | egress env send frame =>
      show Owned l (s.kernelStep host l (.egress env send frame)).plane.kernel
      rw [kernelStep]
      split_ifs
      · exact h.quicEgress env frame
      · exact h
    | evictConnection cookie => exact h.evictConnection cookie
    | evictOriginalDst cookie => exact h.congr rfl rfl rfl
  | takeFlow key =>
    show Owned l (s.takeFlow key).plane.kernel
    rw [takeFlow]
    cases s.plane.kernel.flowAggregates.lookup key with
    | none => exact h
    | some perCPU => exact h.congr rfl rfl rfl
  | takeQuic key =>
    show Owned l (s.takeQuic key).plane.kernel
    rw [takeQuic]
    cases s.plane.quicFlows.lookup key <;> exact h
  | deliver => exact h
  | setEnabled enabled =>
    -- the toggle writes the other bits back as they are
    exact h.congr rfl rfl rfl

/-- **In every run the kernel goes by what the loader decided.** -/
theorem owned_exec (boot : List (KernelStep n)) (run : List (NodeStep n)) :
    Owned l (exec host l boot run).plane.kernel := by
  have hrun : ∀ s : NodeAgent n, Owned l s.plane.kernel →
      Owned l (run.foldl (step host l) s).plane.kernel := by
    induction run with
    | nil => exact fun s h => h
    | cons e run ih => exact fun s h => ih _ (owned_step h e)
  refine hrun _ ?_
  rw [start_eq]
  exact .init l

/-! ### The two counters exclude each other -/

variable (host) in
/-- A send that the socket path does not own leaves the flow aggregates alone. -/
theorem flowAggregates_send {s : NodeAgent n} (h : Owned l s.plane.kernel) (env : HookEnv n)
    {hk : Hook} (hsend : hk.isUDPSend = true) :
    (s.step host l (.kernel (.hook env hk))).plane.kernel.flowAggregates
      = s.plane.kernel.flowAggregates ∨ l.socketOwns = true := by
  show (s.kernelStep host l (.hook env hk)).plane.kernel.flowAggregates = _ ∨ _
  rw [kernelStep]
  by_cases hruns : l.runs hk = true
  · rw [if_pos hruns]
    have hbytes : hk.countsBytes = true := by
      cases hk with
      | udpSendmsg cookie len => rfl
      | _ => cases hsend
    cases hconn : (hk.counting host).bind s.plane.kernel.tracked with
    | none =>
      have hrun := Hook.run_of_untracked s.plane.kernel env hbytes hconn
      exact Or.inl (congrArg Kernel.flowAggregates hrun)
    | some conn => exact Or.inr (h.socket_owns hruns hsend hconn)
  · rw [if_neg hruns]
    exact Or.inl rfl

variable (host) in
/-- A frame leaves the QUIC flows alone if the socket path owns the sent bytes. -/
theorem quicFlows_egress {s : NodeAgent n} (h : Owned l s.plane.kernel) (env : HookEnv n)
    (send : Option ℕ) (frame : List UInt8) :
    (s.step host l (.kernel (.egress env send frame))).plane.quicFlows = s.plane.quicFlows ∨
      l.socketOwns = false := by
  show (s.kernelStep host l (.egress env send frame)).plane.quicFlows = _ ∨ _
  rw [kernelStep]
  split_ifs
  · rw [QuicPlane.quicEgress_eq]
    cases hpkt : s.plane.recorded host frame with
    | none => exact Or.inl rfl
    | some pkt => exact Or.inr (h.interface_owns hpkt)
  · exact Or.inl rfl

/-- A recorded charge of a UDP send is the owner's. -/
theorem socketOwns_of_mem_flowCharges {s : NodeAgent n} (h : Owned l s.plane.kernel) {i : ℕ}
    {e : NodeStep n} {c : Charge} (hc : c ∈ flowCharges host l s i e)
    (hsend : c.hook.isUDPSend = true) : l.socketOwns = true := by
  rw [flowCharges] at hc
  cases e with
  | kernel e =>
    cases e with
    | hook env hk =>
      rw [captureStep] at hc
      split_ifs at hc with hruns
      · have hcharge : s.plane.kernel.charge host i hk = some c := Option.mem_toList.mp hc
        rw [Kernel.charge, Option.bind_eq_some_iff] at hcharge
        obtain ⟨cnt, hcnt, hcharge⟩ := hcharge
        obtain ⟨conn, hconn, rfl⟩ := Option.map_eq_some_iff.mp hcharge
        have hbind : (hk.counting host).bind s.plane.kernel.tracked = some conn := by
          rw [hcnt, Option.bind_some]
          exact hconn
        exact h.socket_owns hruns hsend hbind
      · exact absurd hc List.not_mem_nil
    | _ => exact absurd hc List.not_mem_nil
  | _ => exact absurd hc List.not_mem_nil

/-- A recorded frame is the interface's. -/
theorem not_socketOwns_of_mem_quicCharges {s : NodeAgent n} (h : Owned l s.plane.kernel) {i : ℕ}
    {e : NodeStep n} {q : QuicCharge} (hq : q ∈ quicCharges host l s i e) :
    l.socketOwns = false := by
  obtain ⟨-, frame, pkt, hpkt⟩ := step_of_mem_quicCharges host l hq
  exact h.interface_owns hpkt

/-! ### Runs -/

variable (host l)

/-- The agent before step `i` of a run. -/
def before (boot : List (KernelStep n)) (run : List (NodeStep n)) (i : ℕ) : NodeAgent n :=
  exec host l boot (run.take i)

theorem before_succ (boot : List (KernelStep n)) {run : List (NodeStep n)} {i : ℕ}
    {e : NodeStep n} (he : run[i]? = some e) :
    before host l boot run (i + 1) = (before host l boot run i).step host l e := by
  rw [before, before, exec, exec, List.take_add_one, he, List.foldl_append]
  rfl

/-- The ledgers of a run: they hold what the two counters recorded, each charge
once and under its own flow, and their statements are the snapshots that the
poller took and merged. -/
structure IsLedgers (boot : List (KernelStep n)) (run : List (NodeStep n))
    (L : Ledger FlowKey Charge) (Q : Ledger QuicFlowKey QuicCharge) : Prop where
  flows : L.all = (flowBooks host l).chargesFrom (start host l boot) 0 run
  quic : Q.all = (quicBooks host l).chargesFrom (start host l boot) 0 run
  nodup_flows : L.all.Nodup
  nodup_quic : Q.all.Nodup
  filed_flows : L.Filed Charge.key
  filed_quic : Q.Filed QuicCharge.key
  book_flows : L.book Charge.amount = (exec host l boot run).capture.book
  book_quic : Q.book QuicCharge.bytes = (exec host l boot run).quicBook
  merged : ((exec host l boot run).snapshots : Multiset FlowSnapshot)
    = (exec host l boot run).capture.snapshots + (exec host l boot run).quicSnapshots

/-- Two ledgers that explain the books of a run are its ledgers. -/
theorem IsLedgers.of_books {boot : List (KernelStep n)} {run : List (NodeStep n)}
    {L : Ledger FlowKey Charge} {Q : Ledger QuicFlowKey QuicCharge}
    (hL : L.book Charge.amount = (exec host l boot run).capture.book) (hLfiled : L.Filed Charge.key)
    (hLall : L.all = (flowBooks host l).chargesFrom (start host l boot) 0 run)
    (hQ : Q.book QuicCharge.bytes = (exec host l boot run).quicBook)
    (hQfiled : Q.Filed QuicCharge.key)
    (hQall : Q.all = (quicBooks host l).chargesFrom (start host l boot) 0 run) :
    IsLedgers host l boot run L Q := by
  refine ⟨hLall, hQall, ?_, ?_, hLfiled, hQfiled, hL, hQ, coe_snapshots _⟩
  · rw [hLall]
    exact Multiset.coe_nodup.mpr ((flowBooks host l).nodup_chargesFrom run _ 0)
  · rw [hQall]
    exact Multiset.coe_nodup.mpr ((quicBooks host l).nodup_chargesFrom run _ 0)

theorem exists_isLedgers (boot : List (KernelStep n)) (run : List (NodeStep n)) :
    ∃ L Q, IsLedgers host l boot run L Q := by
  obtain ⟨L, hL, hLfiled, hLall, -⟩ :=
    (flowBooks host l).exists_ledger (book_flows_start host l boot) run
  obtain ⟨Q, hQ, hQfiled, hQall, -⟩ :=
    (quicBooks host l).exists_ledger (book_quic_start host l boot) run
  exact ⟨L, Q, .of_books host l hL hLfiled hLall hQ hQfiled hQall⟩

/-- Whatever the two counters recorded in a run, one of them recorded no send. -/
theorem IsLedgers.socketOwns {boot : List (KernelStep n)} {run : List (NodeStep n)}
    {L : Ledger FlowKey Charge} {Q : Ledger QuicFlowKey QuicCharge}
    (h : IsLedgers host l boot run L Q) :
    (∀ c ∈ L.all, c.hook.isUDPSend = true → l.socketOwns = true) ∧
      ∀ q ∈ Q.all, l.socketOwns = false := by
  have hstart : Owned l (start host l boot : NodeAgent n).plane.kernel := by
    rw [start_eq]
    exact .init l
  constructor
  · intro c hc
    rw [h.flows] at hc
    exact (flowBooks host l).charges_of_inv (fun s => Owned l s.plane.kernel)
      (fun s e hs => owned_step hs e)
      (fun s i e hs c hc => socketOwns_of_mem_flowCharges hs hc) hstart 0 run c hc
  · intro q hq
    rw [h.quic] at hq
    exact (quicBooks host l).charges_of_inv (fun s => Owned l s.plane.kernel)
      (fun s e hs => owned_step hs e)
      (fun s i e hs q hq => not_socketOwns_of_mem_quicCharges hs hq) hstart 0 run q hq

/-- **A UDP send has at most one home.**  Whatever is configured, attaches and is
toggled, in every run: a send that changes the flow aggregates and a frame of
the same send that changes the QUIC flows do not both occur.  So of the two
ledgers, each of which holds every charge once, no send has charges in both, and
their statements, which are all the snapshots the poller hands on, count no send
twice. -/
theorem udp_send_counted_once (host : ByteOrder) (cfg : LoaderConfig) (support : KernelSupport)
    (boot : List (KernelStep n)) (run : List (NodeStep n)) :
    (∀ i j env hk env' frame,
      run[i]? = some (.kernel (.hook env hk)) → hk.isUDPSend = true →
      run[j]? = some (.kernel (.egress env' (some i) frame)) →
      (before host (.attach cfg support) boot run (i + 1)).plane.kernel.flowAggregates
          = (before host (.attach cfg support) boot run i).plane.kernel.flowAggregates ∨
        (before host (.attach cfg support) boot run (j + 1)).plane.quicFlows
          = (before host (.attach cfg support) boot run j).plane.quicFlows) ∧
    ∃ L Q, IsLedgers host (.attach cfg support) boot run L Q ∧
      ∀ c ∈ L.all, c.hook.isUDPSend = true → ∀ q ∈ Q.all, q.send ≠ some c.step := by
  constructor
  · intro i j env hk env' frame hi hsend hj
    rw [before_succ _ _ boot hi, before_succ _ _ boot hj]
    rcases flowAggregates_send host (owned_exec boot (run.take i)) env hsend with
      hflow | hsocket
    · exact Or.inl hflow
    · rcases quicFlows_egress host (owned_exec boot (run.take j)) env' (some i) frame with
        hquic | hinterface
      · exact Or.inr hquic
      · rw [hsocket] at hinterface
        cases hinterface
  · obtain ⟨L, Q, h⟩ := exists_isLedgers host (.attach cfg support) boot run
    refine ⟨L, Q, h, fun c hc hsend q hq => ?_⟩
    obtain ⟨hflows, hquic⟩ := h.socketOwns
    rw [hflows c hc hsend] at hquic
    cases hquic q hq

/-- A QUIC packet with one byte of payload, from 10.0.0.2:4096 to 10.0.0.1:443. -/
def quicFrame : List UInt8 :=
  List.replicate 12 0 ++ [0x08, 0x00, 0x45] ++ List.replicate 8 0 ++ [17, 0, 0]
    ++ [10, 0, 0, 2, 10, 0, 0, 1, 0x10, 0x00, 0x01, 0xbb, 0, 9, 0, 0, 0x40]

/-- A UDP socket connects and sends one byte, which leaves the interface. -/
def quicSend : List (NodeStep 1) :=
  [.kernel (.hook Capture.onOneCPU (.connect4
      { cookie := 7, protocol := ipprotoUDP, userIP4 := 0x0100000a, userPort := 0xbb01 })),
    .kernel (.hook Capture.onOneCPU (.udpSendmsg 7 1)),
    .kernel (.egress Capture.onOneCPU (some 1) quicFrame)]

/-- A host on which everything attaches if `fentry` is there. -/
def hostWith (haveFentry : Bool) : KernelSupport :=
  { haveFentry := haveFentry, udpSendmsgLoaded := true, udpSendmsgLink := true, quicLoaded := true,
    interfaceFound := true, haveTCX := true, quicLink := true }

-- with `fentry` the socket path counts the byte, without it the interface counts the frame
example : [true, false].map (fun haveFentry =>
      let l := Loader.attach ⟨true, true, 1⟩ (hostWith haveFentry)
      (((flowBooks .little l).chargesFrom (start .little l []) 0 quicSend).map
          fun c => (c.step, c.amount .tx),
        ((quicBooks .little l).chargesFrom (start .little l []) 0 quicSend).map
          fun q => (q.send, q.bytes)))
    = [([(1, 1)], []), ([], [(some 1, 43)])] := by
  decide

end NodeAgent
