/-
The books of the node agent.

The agent keeps one book of the flow aggregates, which is the book of the data
path, and one of the QUIC flows.

* `Hook.quicDrops_run` — no socket hook counts a drop of the QUIC map;
* `NodeAgent.flowBooks`, `NodeAgent.quicBooks` — every step of the agent is one
  move of either book;
* `NodeAgent.coe_snapshots` — the poller hands on the statements of both books
  and nothing else.
-/
import Tollwing.NodeAgent

/-! ### Drops of the QUIC map -/

section
variable {host : ByteOrder} {n : ℕ} (k : Kernel n) (env : HookEnv n)

namespace Kernel

/-- The drop counter of the QUIC map, CPU by CPU. -/
def quicDrops : Fin n → UInt64 := k.dropCounters .quicFlows

theorem quicDrops_countDrop {slot : DropSlot} (h : DropSlot.quicFlows ≠ slot) :
    (k.countDrop env slot).quicDrops = k.quicDrops :=
  Function.update_of_ne h _ _

@[simp] theorem quicDrops_submit (evt : Event) : (k.submit env evt).quicDrops = k.quicDrops := by
  rw [submit]
  split_ifs
  · rfl
  · exact k.quicDrops_countDrop env (by decide)

@[simp] theorem quicDrops_insertFlow (key : FlowKey) (val : FlowMetrics) :
    (k.insertFlow env key val).quicDrops = k.quicDrops := by
  rw [insertFlow]
  split_ifs
  · rfl
  · exact k.quicDrops_countDrop env (by decide)

@[simp] theorem quicDrops_seedFlow (key : FlowKey) :
    (k.seedFlow env key).quicDrops = k.quicDrops := by
  rw [seedFlow]
  cases k.flowAggregates.lookup key with
  | some perCPU => rfl
  | none => exact k.quicDrops_insertFlow env key _

@[simp] theorem quicDrops_updateFlowAggregate (conn : ConnInfo) (tx rx : UInt64) :
    (k.updateFlowAggregate env conn tx rx).quicDrops = k.quicDrops := by
  rw [updateFlowAggregate]
  cases k.flowAggregates.lookup conn.flowKey with
  | some perCPU => rfl
  | none => exact k.quicDrops_insertFlow env _ _

@[simp] theorem quicDrops_touchFlowAggregate (conn : ConnInfo) (f : FlowMetrics → FlowMetrics) :
    (k.touchFlowAggregate env conn f).quicDrops = k.quicDrops := by
  rw [touchFlowAggregate]
  cases k.flowAggregates.lookup conn.flowKey <;> rfl

theorem quicDrops_countOn (cookie : UInt64) (counted : ConnInfo → Bool)
    (touch : ConnInfo → ConnInfo) {aggregate : Kernel n → ConnInfo → Kernel n}
    (haggregate : ∀ k conn, (aggregate k conn).quicDrops = k.quicDrops) :
    (k.countOn cookie counted touch aggregate).quicDrops = k.quicDrops := by
  rw [countOn]
  cases k.getConfig with
  | none => rfl
  | some _ =>
    cases k.connections.lookup cookie with
    | none => rfl
    | some conn =>
      dsimp only
      split_ifs
      · exact haggregate _ conn
      · rfl

theorem quicDrops_handleEstablished (skops : SockOps) (direction : UInt8) :
    (k.handleEstablished host env skops direction).quicDrops = k.quicDrops := by
  rw [handleEstablished, quicDrops_submit, quicDrops_seedFlow]
  rfl

theorem quicDrops_handleStateChange (skops : SockOps) :
    (k.handleStateChange env skops).quicDrops = k.quicDrops := by
  rw [handleStateChange]
  by_cases hstate : skops.newState ≠ tcpClose
  · rw [if_pos hstate]
  rw [if_neg hstate]
  cases k.connections.lookup skops.cookie with
  | none => rfl
  | some conn => exact k.quicDrops_submit env _

theorem quicDrops_connect4 (ctx : SockAddr) :
    (k.connect4 host env ctx).quicDrops = k.quicDrops := by
  rw [connect4]
  cases k.getConfig with
  | none => rfl
  | some cfg =>
    dsimp only
    split_ifs
    · rfl
    · rfl
    · exact quicDrops_submit _ env _
    · exact quicDrops_submit _ env _

theorem quicDrops_connect6 (ctx : SockAddr) :
    (k.connect6 host env ctx).quicDrops = k.quicDrops := by
  rw [connect6]
  cases k.getConfig with
  | none => rfl
  | some cfg =>
    dsimp only
    split_ifs
    · rfl
    · rfl
    · exact quicDrops_submit _ env _

theorem quicDrops_sockops (skops : SockOps) :
    (k.sockops host env skops).quicDrops = k.quicDrops := by
  rw [sockops]
  cases k.getConfig with
  | none => rfl
  | some cfg =>
    dsimp only
    by_cases hfam : skops.family ≠ afInet ∧ skops.family ≠ afInet6
    · rw [if_pos hfam]
    rw [if_neg hfam]
    cases skops.op with
    | activeEstablished =>
      dsimp only
      split_ifs
      · rfl
      · exact k.quicDrops_handleEstablished env skops 0
    | passiveEstablished =>
      dsimp only
      split_ifs
      · rfl
      · exact k.quicDrops_handleEstablished env skops 1
    | stateChange => exact k.quicDrops_handleStateChange env skops
    | other => rfl

end Kernel

theorem Hook.quicDrops_run (h : Hook) : (h.run host env k).quicDrops = k.quicDrops := by
  have hguard : ∀ {c : Prop} [Decidable c] {k' : Kernel n}, k'.quicDrops = k.quicDrops →
      (if c then k else k').quicDrops = k.quicDrops := by
    intro c _ k' h
    split_ifs
    · rfl
    · exact h
  have hupdate : ∀ tx rx (k : Kernel n) conn,
      (k.updateFlowAggregate env conn tx rx).quicDrops = k.quicDrops :=
    fun tx rx k conn => k.quicDrops_updateFlowAggregate env conn tx rx
  have htouch : ∀ f (k : Kernel n) conn,
      (k.touchFlowAggregate env conn f).quicDrops = k.quicDrops :=
    fun f k conn => k.quicDrops_touchFlowAggregate env conn f
  cases h with
  | connect4 ctx => exact k.quicDrops_connect4 env ctx
  | connect6 ctx => exact k.quicDrops_connect6 env ctx
  | sockops skops => exact k.quicDrops_sockops env skops
  | tcpSendmsg cookie parm3 => exact hguard (k.quicDrops_countOn _ _ _ (hupdate _ _))
  | tcpCleanupRbuf cookie parm2 => exact hguard (k.quicDrops_countOn _ _ _ (hupdate _ _))
  | tcpSendmsgFentry cookie size => exact hguard (k.quicDrops_countOn _ _ _ (hupdate _ _))
  | tcpCleanupRbufFentry cookie copied => exact hguard (k.quicDrops_countOn _ _ _ (hupdate _ _))
  | udpSendmsg cookie len => exact hguard (k.quicDrops_countOn _ _ _ (hupdate _ _))
  | udpRecvmsgExit cookie ret => exact hguard (k.quicDrops_countOn _ _ _ (htouch _))
  | tcpRetransmit cookie skbLen => exact hguard (k.quicDrops_countOn _ _ _ (htouch _))
  | tcpLossProbe cookie mssCache => exact k.quicDrops_countOn _ _ _ (htouch _)
  | sockRelease cookie protocol =>
    show (k.sockRelease cookie protocol).quicDrops = _
    rw [Kernel.sockRelease]
    split_ifs <;> rfl

end

/-! ### The book of flows -/

namespace NodeAgent

variable (host : ByteOrder) (l : Loader) {n : ℕ}

/-- The flow half of the agent. -/
def capture (s : NodeAgent n) : Capture n :=
  ⟨s.plane.kernel, s.flows, s.polls.flatMap Prod.fst⟩

/-- The step of the data path that a step of the agent is, if it is one. -/
def captureStep (l : Loader) : NodeStep n → Option (CaptureStep n)
  | .kernel (.hook env h) => if l.runs h then some (.hook env h) else none
  | .kernel (.egress _ _ _) => none
  | .kernel (.evictConnection cookie) => some (.evictConnection cookie)
  | .kernel (.evictOriginalDst cookie) => some (.evictOriginalDst cookie)
  | .takeFlow key => some (.take key)
  | .takeQuic _ => none
  | .deliver => some .deliver
  | .setEnabled _ => none

/-- The flow charges of a step. -/
def flowCharges (s : NodeAgent n) (i : ℕ) (e : NodeStep n) : List Charge :=
  (captureStep l e).elim [] (s.capture.charge host i)

theorem capture_takeFlow (s : NodeAgent n) (key : FlowKey) :
    (s.takeFlow key).capture = s.capture.take key := by
  have hsame : s.capture.kernel.flowAggregates = s.plane.kernel.flowAggregates := rfl
  rw [takeFlow, Capture.take, hsame]
  cases s.plane.kernel.flowAggregates.lookup key <;> rfl

/-- The hook at the interface leaves the book of flows alone: it counts its
drops in another slot. -/
theorem book_quicEgress (p : QuicPlane n) (env : HookEnv n) (frame : List UInt8)
    (st : List (FlowKey × Amount)) :
    (p.quicEgress host env frame).kernel.book st = p.kernel.book st := by
  rw [QuicPlane.quicEgress_eq]
  cases p.recorded host frame with
  | none => rfl
  | some pkt =>
    show (p.record env pkt).kernel.book st = _
    rw [QuicPlane.record]
    cases p.quicFlows.lookup pkt.key with
    | some perCPU => rfl
    | none =>
      dsimp only
      split_ifs
      · rfl
      · exact Kernel.book_congr st rfl (by simp [Kernel.countDrop])

/-- Towards the book of flows, a step is the step of the data path or nothing. -/
theorem book_capture_step (s : NodeAgent n) (e : NodeStep n) :
    (s.step host l e).capture.book
      = ((captureStep l e).elim s.capture (s.capture.step host)).book := by
  cases e with
  | kernel e =>
    cases e with
    | hook env h =>
      show (s.kernelStep host l (.hook env h)).capture.book = _
      rw [kernelStep, captureStep]
      split_ifs <;> rfl
    | egress env send frame =>
      show (s.kernelStep host l (.egress env send frame)).capture.book = _
      rw [kernelStep]
      split_ifs
      · exact book_quicEgress host s.plane env frame _
      · rfl
    | evictConnection cookie => rfl
    | evictOriginalDst cookie => rfl
  | takeFlow key => exact congrArg Capture.book (s.capture_takeFlow key)
  | takeQuic key =>
    show (s.takeQuic key).capture.book = _
    rw [takeQuic]
    cases s.plane.quicFlows.lookup key <;> rfl
  | deliver =>
    have hpolls : (s.polls ++ [(s.flows, s.quic)]).flatMap Prod.fst
        = s.polls.flatMap Prod.fst ++ s.flows := by
      rw [List.flatMap_append, List.flatMap_singleton]
    show Capture.book ⟨s.plane.kernel, [], (s.polls ++ [(s.flows, s.quic)]).flatMap Prod.fst⟩ = _
    rw [hpolls]
    rfl
  | setEnabled enabled => rfl

/-- **The book of flows** is kept as the data path keeps it. -/
def flowBooks : Bookkeeping (NodeAgent n) (NodeStep n) FlowKey Charge Amount UInt64 where
  step := step host l
  book s := s.capture.book
  charges := flowCharges host l
  amount := Charge.amount
  keyOf := Charge.key
  number := Charge.step
  late c := c.hook.creates host = false
  prompt s e := ∀ e' ∈ captureStep l e, s.capture.entryPresent host e' = true
  number_charges s i e c hc := by
    rw [flowCharges] at hc
    cases he : captureStep l e with
    | none =>
      rw [he] at hc
      exact absurd hc List.not_mem_nil
    | some e' =>
      rw [he] at hc
      exact (Capture.bookkeeping host).number_charges s.capture i e' c hc
  nodup_charges s i e := by
    rw [flowCharges]
    cases captureStep l e with
    | none => exact List.nodup_nil
    | some e' => exact (Capture.bookkeeping host).nodup_charges s.capture i e'
  exists_move s i e := by
    rw [book_capture_step, flowCharges]
    cases captureStep l e with
    | none =>
      exact ⟨.idle, rfl, rfl, trivial, fun c hc => absurd hc (Multiset.notMem_zero c),
        fun _ => rfl⟩
    | some e' =>
      obtain ⟨mv, hbook, hcharge, hfiled, hlate, hprompt⟩ :=
        (Capture.bookkeeping host).exists_move s.capture i e'
      exact ⟨mv, hbook, hcharge, hfiled, hlate, fun h => hprompt (h e' rfl)⟩

end NodeAgent

/-! ### The book of QUIC flows -/

/-- A recorded packet: the step of the run, the send its frame belongs to, the
flow and the bytes. -/
structure QuicCharge where
  step : ℕ
  send : Option ℕ
  key : QuicFlowKey
  bytes : UInt64

/-- The QUIC flow a snapshot is about. -/
def FlowSnapshot.quicKey (snap : FlowSnapshot) : QuicFlowKey :=
  { srcIP := snap.srcIP
    dstIP := snap.dstIP
    srcPort := snap.srcPort
    dstPort := snap.dstPort }

/-- The bytes of an entry of `quic_flows`, over all CPUs. -/
def quicBytes {n : ℕ} (perCPU : Fin n → QuicFlowMetrics) : UInt64 := ∑ i, (perCPU i).txBytes

theorem quicBytes_update {n : ℕ} (perCPU : Fin n → QuicFlowMetrics) (cpu : Fin n)
    (m : QuicFlowMetrics) (a : UInt64) (h : m.txBytes = a + (perCPU cpu).txBytes) :
    quicBytes (Function.update perCPU cpu m) = a + quicBytes perCPU :=
  sum_update_cpu QuicFlowMetrics.txBytes perCPU cpu h

theorem quicBytes_empty {n : ℕ} : quicBytes (fun _ : Fin n => ({} : QuicFlowMetrics)) = 0 :=
  Finset.sum_eq_zero fun _ _ => rfl

section
variable {n : ℕ} (key : QuicFlowKey) (perCPU : Fin n → QuicFlowMetrics)

theorem foldl_quicSnapshot (is : List (Fin n)) (snap : FlowSnapshot) :
    (is.foldl
      (fun snap i =>
        { snap with
          txBytes := snap.txBytes + (perCPU i).txBytes
          packetCount := snap.packetCount + (perCPU i).pktCount })
      snap).flowKey = snap.flowKey ∧
    (is.foldl
      (fun snap i =>
        { snap with
          txBytes := snap.txBytes + (perCPU i).txBytes
          packetCount := snap.packetCount + (perCPU i).pktCount })
      snap).txBytes = snap.txBytes + (is.map fun i => (perCPU i).txBytes).sum := by
  induction is generalizing snap with
  | nil => exact ⟨rfl, (add_zero _).symm⟩
  | cons i is ih =>
    obtain ⟨hkey, hbytes⟩ := ih
      { snap with
        txBytes := snap.txBytes + (perCPU i).txBytes
        packetCount := snap.packetCount + (perCPU i).pktCount }
    rw [List.foldl_cons]
    refine ⟨hkey, hbytes.trans ?_⟩
    rw [List.map_cons, List.sum_cons, add_assoc]

/-- A QUIC snapshot is about the entry's flow: UDP, outgoing, of no process. -/
theorem quicSnapshot_flowKey :
    (quicSnapshot key perCPU).flowKey = (FlowSnapshot.ofQuicKey key).flowKey :=
  (foldl_quicSnapshot perCPU _ _).1

theorem quicSnapshot_quicKey : (quicSnapshot key perCPU).quicKey = key := by
  have hkey := quicSnapshot_flowKey key perCPU
  show QuicFlowKey.mk (quicSnapshot key perCPU).flowKey.srcIP
    (quicSnapshot key perCPU).flowKey.dstIP (quicSnapshot key perCPU).flowKey.srcPort
    (quicSnapshot key perCPU).flowKey.dstPort = key
  rw [hkey]
  rfl

/-- It carries the entry's bytes, summed over the CPUs. -/
theorem quicSnapshot_txBytes : (quicSnapshot key perCPU).txBytes = quicBytes perCPU := by
  rw [quicSnapshot, (foldl_quicSnapshot perCPU _ _).2, quicBytes, ← List.sum_ofFn,
    List.ofFn_eq_map]
  exact zero_add _

end

namespace QuicPlane

variable {n : ℕ} (p : QuicPlane n) (env : HookEnv n)

/-- The balances of the QUIC entries and the count of failed insertions, beside
the statements `st`. -/
def book (st : List (QuicFlowKey × UInt64)) : Book QuicFlowKey UInt64 UInt64 :=
  { balance := fun key => (p.quicFlows.lookup key).map quicBytes
    statements := st
    refusals := p.kernel.dropTotal .quicFlows }

/-- What becomes of a packet of a flow. -/
def posting (key : QuicFlowKey) : Posting :=
  if (p.quicFlows.lookup key).isSome ∨ env.insertOk = true then .kept else .refused

variable (st : List (QuicFlowKey × UInt64))

/-- The book reads the QUIC flows and one drop counter. -/
theorem book_congr {p p' : QuicPlane n} (hquic : p.quicFlows = p'.quicFlows)
    (hdrop : p.kernel.quicDrops = p'.kernel.quicDrops) : p.book st = p'.book st := by
  have htotal : p.kernel.dropTotal .quicFlows = p'.kernel.dropTotal .quicFlows :=
    congrArg (fun drops : Fin n → UInt64 => ∑ i, drops i) hdrop
  rw [book, book, hquic, htotal]

theorem balance_insert (key : QuicFlowKey) (perCPU : Fin n → QuicFlowMetrics) :
    (fun key' => ((p.quicFlows.insert key perCPU).lookup key').map quicBytes)
      = Function.update (p.book st).balance key (some (quicBytes perCPU)) :=
  FinMap.map_lookup_insert p.quicFlows key perCPU quicBytes

/-- A packet is posted to its flow, or counted as a drop. -/
theorem book_record (pkt : QuicPacket) :
    (p.record env pkt).book st
      = (p.book st).step (.post pkt.key pkt.pktBytes (p.posting env pkt.key)) := by
  have hbal : (p.book st).balance pkt.key = (p.quicFlows.lookup pkt.key).map quicBytes := rfl
  cases h : p.quicFlows.lookup pkt.key with
  | some perCPU =>
    have hposting : p.posting env pkt.key = .kept := if_pos (Or.inl (by rw [h]; rfl))
    rw [h] at hbal
    rw [hposting, Book.step, hbal, record, h]
    dsimp only
    rw [book, balance_insert p st, quicBytes_update _ _ _ pkt.pktBytes (add_comm _ _)]
    rfl
  | none =>
    rw [h] at hbal
    rw [record, h]
    dsimp only
    by_cases hok : env.insertOk
    · have hposting : p.posting env pkt.key = .kept := if_pos (Or.inr hok)
      have hbytes : pkt.pktBytes = pkt.pktBytes + ({} : QuicFlowMetrics).txBytes :=
        (add_zero _).symm
      rw [if_pos hok, hposting, Book.step, hbal, book, balance_insert p st,
        quicBytes_update _ _ _ pkt.pktBytes hbytes, quicBytes_empty]
      rfl
    · have hposting : p.posting env pkt.key = .refused := if_neg (by simp [h, hok])
      rw [if_neg hok, hposting, book, Kernel.dropTotal_countDrop]
      rfl

end QuicPlane

namespace NodeAgent

variable (host : ByteOrder) (l : Loader) {n : ℕ}

/-- The QUIC snapshots taken so far. -/
def quicSnapshots (s : NodeAgent n) : List FlowSnapshot := s.polls.flatMap Prod.snd ++ s.quic

/-- The statements of the QUIC flows. -/
def quicStatements (s : NodeAgent n) : List (QuicFlowKey × UInt64) :=
  s.quicSnapshots.map fun snap => (snap.quicKey, snap.txBytes)

def quicBook (s : NodeAgent n) : Book QuicFlowKey UInt64 UInt64 := s.plane.book s.quicStatements

/-- The charge of a frame that is recorded. -/
def quicCharges (s : NodeAgent n) (i : ℕ) : NodeStep n → List QuicCharge
  | .kernel (.egress _ send frame) =>
    if l.quicEgress = .attached then
      ((s.plane.recorded host frame).map fun pkt => ⟨i, send, pkt.key, pkt.pktBytes⟩).toList
    else []
  | _ => []

theorem step_of_mem_quicCharges {s : NodeAgent n} {i : ℕ} {e : NodeStep n} {c : QuicCharge}
    (hc : c ∈ quicCharges host l s i e) :
    c.step = i ∧ ∃ frame pkt, s.plane.recorded host frame = some pkt := by
  cases e with
  | kernel e =>
    cases e with
    | egress env send frame =>
      rw [quicCharges] at hc
      split_ifs at hc
      · obtain ⟨pkt, hpkt, rfl⟩ := Option.map_eq_some_iff.mp (Option.mem_toList.mp hc)
        exact ⟨rfl, frame, pkt, hpkt⟩
      · exact absurd hc List.not_mem_nil
    | _ => exact absurd hc List.not_mem_nil
  | _ => exact absurd hc List.not_mem_nil

theorem nodup_quicCharges (s : NodeAgent n) (i : ℕ) (e : NodeStep n) :
    (quicCharges host l s i e).Nodup := by
  cases e with
  | kernel e =>
    cases e with
    | egress env send frame =>
      rw [quicCharges]
      split_ifs
      · cases s.plane.recorded host frame with
        | none => exact List.nodup_nil
        | some pkt => exact List.nodup_singleton _
      · exact List.nodup_nil
    | _ => exact List.nodup_nil
  | _ => exact List.nodup_nil

/-- What the kernel does on a socket, and what the poller takes of the flows,
leaves the book of QUIC flows alone. -/
theorem quicBook_mapKernel (s : NodeAgent n) {f : Kernel n → Kernel n}
    (hf : (f s.plane.kernel).quicDrops = s.plane.kernel.quicDrops) :
    (s.mapKernel f).quicBook = s.quicBook :=
  QuicPlane.book_congr _ rfl hf

theorem quicBook_takeFlow (s : NodeAgent n) (key : FlowKey) :
    (s.takeFlow key).quicBook = s.quicBook := by
  rw [takeFlow]
  cases s.plane.kernel.flowAggregates.lookup key <;> rfl

/-- Taking an entry closes its account. -/
theorem quicBook_takeQuic (s : NodeAgent n) (key : QuicFlowKey) :
    (s.takeQuic key).quicBook = s.quicBook.step (.close key) := by
  rw [takeQuic, Book.step]
  have hbal : s.quicBook.balance key = (s.plane.quicFlows.lookup key).map quicBytes := rfl
  rw [hbal]
  cases h : s.plane.quicFlows.lookup key with
  | none => rfl
  | some perCPU =>
    have herase : (fun key' => ((s.plane.quicFlows.erase key).lookup key').map quicBytes)
        = Function.update s.quicBook.balance key none :=
      FinMap.map_lookup_erase s.plane.quicFlows key quicBytes
    simp only [quicBook, QuicPlane.book, quicStatements, quicSnapshots, herase,
      ← List.append_assoc, List.map_append, List.map_cons, List.map_nil, quicSnapshot_quicKey,
      quicSnapshot_txBytes, Option.map_some]

theorem quicBook_deliver (s : NodeAgent n) : (s.step host l .deliver).quicBook = s.quicBook := by
  have hpolls : (s.polls ++ [(s.flows, s.quic)]).flatMap Prod.snd ++ ([] : List FlowSnapshot)
      = s.polls.flatMap Prod.snd ++ s.quic := by
    rw [List.append_nil, List.flatMap_append, List.flatMap_singleton]
  exact congrArg (fun snaps : List FlowSnapshot =>
    s.plane.book (snaps.map fun snap => (snap.quicKey, snap.txBytes))) hpolls

/-- The move of the QUIC ledger that a step is: it brings in the charge the step
records and misses none. -/
structure IsQuicMove (s : NodeAgent n) (i : ℕ) (e : NodeStep n)
    (mv : Move QuicFlowKey QuicCharge) : Prop where
  book : (s.step host l e).quicBook = s.quicBook.step (mv.map QuicCharge.bytes)
  charge : mv.charge = (quicCharges host l s i e : Multiset QuicCharge)
  filed : mv.Filed QuicCharge.key
  miss : mv.miss = 0

section
variable {s : NodeAgent n} {i : ℕ}

theorem IsQuicMove.idle {e : NodeStep n} (hbook : (s.step host l e).quicBook = s.quicBook)
    (hcharges : quicCharges host l s i e = []) : IsQuicMove host l s i e .idle := by
  refine ⟨hbook, ?_, trivial, rfl⟩
  rw [hcharges]
  rfl

/-- A frame is passed over, or posted to its flow. -/
theorem exists_isQuicMove_egress (env : HookEnv n) (send : Option ℕ) (frame : List UInt8) :
    ∃ mv, IsQuicMove host l s i (.kernel (.egress env send frame)) mv := by
  by_cases hattached : l.quicEgress = .attached
  · have hstep : s.step host l (.kernel (.egress env send frame))
        = { s with plane := s.plane.quicEgress host env frame } := if_pos hattached
    rw [QuicPlane.quicEgress_eq] at hstep
    cases hpkt : s.plane.recorded host frame with
    | none =>
      rw [hpkt] at hstep
      refine ⟨.idle, .idle host l (congrArg quicBook hstep) ?_⟩
      rw [quicCharges, if_pos hattached, hpkt]
      rfl
    | some pkt =>
      rw [hpkt] at hstep
      refine ⟨.post pkt.key ⟨i, send, pkt.key, pkt.pktBytes⟩ (s.plane.posting env pkt.key),
        ?_, ?_, rfl, Move.miss_post_of_ne ?_⟩
      · rw [hstep]
        exact s.plane.book_record env s.quicStatements pkt
      · rw [quicCharges, if_pos hattached, hpkt]
        rfl
      · rw [QuicPlane.posting]
        split_ifs <;> decide
  · refine ⟨.idle, .idle host l (congrArg quicBook (if_neg hattached)) ?_⟩
    rw [quicCharges, if_neg hattached]

end

/-- One step is one move of the book of QUIC flows. -/
theorem exists_isQuicMove (s : NodeAgent n) (i : ℕ) (e : NodeStep n) :
    ∃ mv, IsQuicMove host l s i e mv := by
  cases e with
  | kernel e =>
    cases e with
    | hook env h =>
      refine ⟨.idle, .idle host l ?_ rfl⟩
      show (s.kernelStep host l (.hook env h)).quicBook = _
      rw [kernelStep]
      split_ifs
      · exact s.quicBook_mapKernel (h.quicDrops_run s.plane.kernel env)
      · rfl
    | egress env send frame => exact exists_isQuicMove_egress host l env send frame
    | evictConnection cookie => exact ⟨.idle, .idle host l (s.quicBook_mapKernel rfl) rfl⟩
    | evictOriginalDst cookie => exact ⟨.idle, .idle host l (s.quicBook_mapKernel rfl) rfl⟩
  | takeFlow key => exact ⟨.idle, .idle host l (s.quicBook_takeFlow key) rfl⟩
  | takeQuic key => exact ⟨.close key, s.quicBook_takeQuic key, rfl, trivial, rfl⟩
  | deliver => exact ⟨.idle, .idle host l (s.quicBook_deliver host l) rfl⟩
  | setEnabled enabled => exact ⟨.idle, .idle host l (s.quicBook_mapKernel rfl) rfl⟩

/-- **The book of QUIC flows.** -/
def quicBooks : Bookkeeping (NodeAgent n) (NodeStep n) QuicFlowKey QuicCharge UInt64 UInt64 where
  step := step host l
  book := quicBook
  charges := quicCharges host l
  amount := QuicCharge.bytes
  keyOf := QuicCharge.key
  number := QuicCharge.step
  late _ := False
  prompt _ _ := True
  number_charges _ _ _ _ hc := (step_of_mem_quicCharges host l hc).1
  nodup_charges := nodup_quicCharges host l
  exists_move s i e := by
    obtain ⟨mv, hmv⟩ := s.exists_isQuicMove host l i e
    refine ⟨mv, hmv.book, hmv.charge, hmv.filed, fun c hc => ?_, fun _ => hmv.miss⟩
    rw [hmv.miss] at hc
    exact absurd hc (Multiset.notMem_zero c)

/-! ### The books at the start -/

/-- Both books are empty when the programs are configured. -/
theorem book_flows_start (boot : List (KernelStep n)) :
    (Ledger.empty.book Charge.amount : Book FlowKey Amount UInt64)
      = (start host l boot).capture.book := by
  rw [start_eq]
  exact Capture.book_init l.agentConfig

theorem book_quic_start (boot : List (KernelStep n)) :
    (Ledger.empty.book QuicCharge.bytes : Book QuicFlowKey UInt64 UInt64)
      = (start host l boot).quicBook := by
  have hdrop : (Kernel.init l.agentConfig : Kernel n).dropTotal .quicFlows = 0 :=
    Finset.sum_eq_zero fun _ _ => rfl
  rw [start_eq, quicBook, QuicPlane.book, NodeAgent.init, hdrop]
  rfl

/-! ### What the poller hands on -/

theorem coe_flatMap_append (polls : List (List FlowSnapshot × List FlowSnapshot)) :
    ((polls.flatMap fun poll => appendQuicFlows poll.1 poll.2 : List FlowSnapshot) :
        Multiset FlowSnapshot)
      = (polls.flatMap Prod.fst : List FlowSnapshot) + (polls.flatMap Prod.snd : List _) := by
  induction polls with
  | nil => rfl
  | cons poll polls ih =>
    rw [List.flatMap_cons, List.flatMap_cons, List.flatMap_cons, ← Multiset.coe_add,
      ← Multiset.coe_add, ← Multiset.coe_add, ih, appendQuicFlows, ← Multiset.coe_add]
    ac_rfl

/-- **The poller merges the two kinds of snapshots** and leaves none out. -/
theorem coe_snapshots (s : NodeAgent n) :
    (s.snapshots : Multiset FlowSnapshot)
      = (s.capture.snapshots : Multiset FlowSnapshot) + s.quicSnapshots := by
  show _ = ((s.polls.flatMap Prod.fst ++ s.flows : List FlowSnapshot) : Multiset FlowSnapshot)
    + (s.polls.flatMap Prod.snd ++ s.quic : List FlowSnapshot)
  rw [snapshots, handed, appendQuicFlows, ← Multiset.coe_add, coe_flatMap_append,
    ← Multiset.coe_add, ← Multiset.coe_add, ← Multiset.coe_add]
  ac_rfl

end NodeAgent
