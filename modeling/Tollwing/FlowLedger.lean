/-
The books of the data path.

Every byte hook charges an amount to the flow of a tracked connection: it adds
it to the connection's own counters and, if all goes well, to the flow's
aggregate entry, which a poll later closes into a snapshot.  Here the
capture is shown to keep the book (`Book`) of a ledger of these charges.

* `Hook.counting` — what each byte hook counts, and whether it creates a missing
  entry; `connections_counting` reads the amounts off the connection's own
  counters;
* `Capture.step_book` — one step of the capture is one move of the book, so the
  capture is a `Bookkeeping`;
* `Capture.exists_ledger` — after any run there is a ledger of the recorded
  charges whose book is the capture's.
-/
import Tollwing.Bookkeeping
import Tollwing.Poller

/-! ### What a hook counts -/

namespace Amount

def ofBytes (tx rx : UInt64) : Amount
  | .tx => tx
  | .rx => rx
  | .retransmitBytes | .retransmitCount => 0

def ofRetransmit (len : UInt32) : Amount
  | .retransmitBytes => len.toUInt64
  | .retransmitCount => 1
  | .tx | .rx => 0

end Amount

/-- What a byte hook counts: on which socket, for which connections, how much,
and whether it creates an aggregate entry that is missing. -/
structure Counting where
  cookie : UInt64
  counted : ConnInfo → Bool
  amount : Amount
  creates : Bool

/-- The counting a hook does; lifecycle hooks do none. -/
def Hook.counting (host : ByteOrder) : Hook → Option Counting
  | .tcpSendmsg cookie parm3 =>
    let size := parm3.toUInt32.toInt32
    if size ≤ 0 then none
    else some ⟨cookie, fun conn => !isSidecarSocketCookie host conn, .ofBytes size.toU64 0, true⟩
  | .tcpCleanupRbuf cookie parm2 =>
    let copied := parm2.toUInt32.toInt32
    if copied ≤ 0 then none
    else some ⟨cookie, fun conn => !isSidecarSocketCookie host conn, .ofBytes 0 copied.toU64, true⟩
  | .tcpSendmsgFentry cookie size =>
    if size.toUInt32.toInt32 ≤ 0 then none
    else some ⟨cookie, fun conn => !isSidecarSocketCookie host conn, .ofBytes size 0, true⟩
  | .tcpCleanupRbufFentry cookie copied =>
    if copied ≤ 0 then none
    else some ⟨cookie, fun conn => !isSidecarSocketCookie host conn, .ofBytes 0 copied.toU64, true⟩
  | .udpSendmsg cookie len =>
    if len.toUInt32.toInt32 ≤ 0 then none
    else some ⟨cookie, fun conn => conn.protocol == ipprotoUDP, .ofBytes len 0, true⟩
  | .udpRecvmsgExit cookie ret =>
    if ret ≤ 0 then none
    else some ⟨cookie, fun conn => conn.protocol == ipprotoUDP, .ofBytes 0 ret.toU64, false⟩
  | .tcpRetransmit cookie skbLen =>
    if skbLen = 0 then none else some ⟨cookie, fun _ => true, .ofRetransmit skbLen, false⟩
  | .tcpLossProbe cookie mssCache =>
    some ⟨cookie, fun _ => true, .ofRetransmit (if mssCache = 0 then 1460 else mssCache), false⟩
  | .connect4 _ | .connect6 _ | .sockops _ | .sockRelease _ _ => none

/-- What a hook counts once its size test lets it. -/
theorem eq_of_guarded {c : Prop} [Decidable c] {cnt cnt' : Counting}
    (h : (if c then none else some cnt) = some cnt') : cnt' = cnt := by
  split_ifs at h
  exact (Option.some.inj h).symm

/-- The connection a counting applies to: capture is on, the socket is tracked
and its connection counts. -/
def Kernel.tracked {n : ℕ} (k : Kernel n) (cnt : Counting) : Option ConnInfo :=
  match k.getConfig with
  | none => none
  | some _ => (k.connections.lookup cnt.cookie).filter cnt.counted

/-- A recorded charge: the step of the run, its hook, the flow and the amount. -/
structure Charge where
  step : ℕ
  hook : Hook
  key : FlowKey
  amount : Amount

namespace Kernel

variable (host : ByteOrder) {n : ℕ} (k : Kernel n) (env : HookEnv n)

/-- The charge hook `h` records when it runs as step `i`. -/
def charge (i : ℕ) (h : Hook) : Option Charge :=
  (h.counting host).bind fun cnt =>
    (k.tracked cnt).map fun conn => ⟨i, h, conn.flowKey, cnt.amount⟩

/-- What becomes of a charge to `key`. -/
def posting (key : FlowKey) (creates : Bool) : Posting :=
  if (k.flowAggregates.lookup key).isSome then .kept
  else if creates = false then .missed
  else if env.insertOk then .kept
  else .refused

theorem posting_eq_missed {key : FlowKey} {creates : Bool}
    (h : k.posting env key creates = .missed) : creates = false ∧ key ∉ k.flowAggregates := by
  rw [posting] at h
  split_ifs at h with hkey hcreates
  exact ⟨hcreates, fun hmem => hkey (Finmap.lookup_isSome.mpr hmem)⟩

/-! ### The book of the kernel -/

/-- A drop counter, summed over the CPUs. -/
def dropTotal (slot : DropSlot) : UInt64 := ∑ i, k.dropCounters slot i

/-- The balances of the aggregate entries and the count of failed insertions,
beside the statements `st`. -/
def book (st : List (FlowKey × Amount)) : Book FlowKey Amount UInt64 :=
  { balance := fun key => (k.flowAggregates.lookup key).map perCPUAmount
    statements := st
    refusals := k.dropTotal .flowAggregates }

variable (st : List (FlowKey × Amount))

/-- The book reads the aggregates and one drop counter, nothing else. -/
theorem book_congr {k k' : Kernel n} (hflow : k.flowAggregates = k'.flowAggregates)
    (hdrop : k.dropCounters .flowAggregates = k'.dropCounters .flowAggregates) :
    k.book st = k'.book st := by
  rw [book, book, hflow, dropTotal, dropTotal, hdrop]

/-- A drop is counted on one CPU. -/
theorem dropTotal_countDrop (slot : DropSlot) :
    (k.countDrop env slot).dropTotal slot = k.dropTotal slot + 1 := by
  have hsum := sum_update_cpu id (k.dropCounters slot) env.cpu (add_comm _ (1 : UInt64))
  rw [dropTotal, dropTotal, countDrop, add_comm (Finset.sum _ _)]
  simp only [Function.update_self]
  exact hsum

theorem book_countDrop_flow :
    (k.countDrop env .flowAggregates).book st = (k.book st).step .reject := by
  rw [book, dropTotal_countDrop]
  rfl

theorem book_submit (evt : Event) : (k.submit env evt).book st = k.book st := by
  rw [submit]
  by_cases hok : env.reserveOk
  · rw [if_pos hok]
    rfl
  · rw [if_neg hok]
    exact book_congr st rfl (by simp [countDrop])

theorem balance_insert (key : FlowKey) (perCPU : Fin n → FlowMetrics) :
    (fun key' => ((k.flowAggregates.insert key perCPU).lookup key').map perCPUAmount)
      = Function.update (k.book st).balance key (some (perCPUAmount perCPU)) :=
  FinMap.map_lookup_insert k.flowAggregates key perCPU perCPUAmount

/-- Changing an entry in place by `a` posts `a`. -/
theorem book_modifyFlow {key : FlowKey} {perCPU : Fin n → FlowMetrics}
    {f : FlowMetrics → FlowMetrics} {a : Amount} (h : k.flowAggregates.lookup key = some perCPU)
    (hf : ∀ m, (f m).amount = a + m.amount) :
    (k.modifyFlow env key perCPU f).book st = (k.book st).step (.post key a .kept) := by
  have hbal : (k.book st).balance key = some (perCPUAmount perCPU) := by
    show (k.flowAggregates.lookup key).map perCPUAmount = _
    rw [h]
    rfl
  rw [Book.step, hbal, modifyFlow, book, balance_insert k st,
    perCPUAmount_update _ _ _ a (hf _)]
  rfl

/-- Inserting a missing entry posts its value, or is counted as a drop. -/
theorem book_insertFlow {key : FlowKey} {val : FlowMetrics}
    (h : k.flowAggregates.lookup key = none) :
    (k.insertFlow env key val).book st
      = (k.book st).step (.post key val.amount (if env.insertOk then .kept else .refused)) := by
  rw [insertFlow]
  by_cases hok : env.insertOk
  · have hbal : (k.book st).balance key = none := by
      show (k.flowAggregates.lookup key).map perCPUAmount = _
      rw [h]
      rfl
    rw [if_pos hok, if_pos hok, Book.step, hbal, book, balance_insert k st,
      perCPUAmount_update _ _ _ val.amount (by
        funext c
        cases c <;> exact (UInt64.add_zero _).symm), perCPUAmount_empty]
    rfl
  · rw [if_neg hok, if_neg hok, book_countDrop_flow]
    rfl

theorem book_updateFlowAggregate (conn : ConnInfo) (tx rx : UInt64) :
    (k.updateFlowAggregate env conn tx rx).book st
      = (k.book st).step
          (.post conn.flowKey (.ofBytes tx rx) (k.posting env conn.flowKey true)) := by
  rw [updateFlowAggregate, posting]
  cases h : k.flowAggregates.lookup conn.flowKey with
  | some perCPU =>
    rw [Option.isSome_some, if_pos rfl]
    refine k.book_modifyFlow env st h fun m => ?_
    funext c
    cases c
    · exact UInt64.add_comm _ _
    · exact UInt64.add_comm _ _
    · exact (UInt64.zero_add _).symm
    · exact (UInt64.zero_add _).symm
  | none =>
    rw [Option.isSome_none, if_neg (by decide), if_neg (by decide)]
    have hval : FlowMetrics.amount
        { txBytes := tx, rxBytes := rx, connCount := 1, lastUpdatedNs := env.now }
          = .ofBytes tx rx := by
      funext c
      cases c <;> rfl
    rw [← hval]
    exact k.book_insertFlow env st h

theorem book_touchFlowAggregate (conn : ConnInfo) {f : FlowMetrics → FlowMetrics} {a : Amount}
    (hf : ∀ m, (f m).amount = a + m.amount) :
    (k.touchFlowAggregate env conn f).book st
      = (k.book st).step (.post conn.flowKey a (k.posting env conn.flowKey false)) := by
  rw [touchFlowAggregate, posting]
  cases h : k.flowAggregates.lookup conn.flowKey with
  | some perCPU =>
    rw [Option.isSome_some, if_pos rfl]
    exact k.book_modifyFlow env st h hf
  | none =>
    rw [Option.isSome_none, if_neg (by decide), if_pos rfl]
    rfl

/-- Seeding a flow opens its account, or is counted as a drop. -/
theorem book_seedFlow (key : FlowKey) :
    ∃ mv : Move FlowKey Amount, mv.charge = 0 ∧
      (k.seedFlow env key).book st = (k.book st).step mv := by
  have hseed : (k.book st).step (.post key 0 .kept) = (k.book st).step (.seed key) := by
    simp only [Book.step, zero_add]
  rw [seedFlow]
  cases h : k.flowAggregates.lookup key with
  | some perCPU =>
    refine ⟨.seed key, rfl, (k.book_modifyFlow env st h fun m => ?_).trans hseed⟩
    funext c
    cases c <;> exact (UInt64.zero_add _).symm
  | none =>
    let val : FlowMetrics := { connCount := 1, lastUpdatedNs := env.now }
    have hval : val.amount = 0 := by
      funext c
      cases c <;> rfl
    have hins : (k.insertFlow env key val).book st
        = (k.book st).step (.post key val.amount (if env.insertOk then .kept else .refused)) :=
      k.book_insertFlow env st h
    rw [hval] at hins
    by_cases hok : env.insertOk
    · rw [if_pos hok] at hins
      exact ⟨.seed key, rfl, hins.trans hseed⟩
    · rw [if_neg hok] at hins
      exact ⟨.reject, rfl, hins⟩

/-! ### One hook -/

theorem book_handleEstablished (skops : SockOps) (direction : UInt8) :
    ∃ mv : Move FlowKey Amount, mv.charge = 0 ∧
      (k.handleEstablished host env skops direction).book st = (k.book st).step mv := by
  rw [handleEstablished, book_submit]
  exact book_seedFlow _ env st _

theorem book_handleStateChange (skops : SockOps) :
    (k.handleStateChange env skops).book st = k.book st := by
  rw [handleStateChange]
  by_cases hstate : skops.newState ≠ tcpClose
  · rw [if_pos hstate]
  rw [if_neg hstate]
  cases k.connections.lookup skops.cookie with
  | none => rfl
  | some conn => exact k.book_submit env st _

theorem book_connect4 (ctx : SockAddr) : (k.connect4 host env ctx).book st = k.book st := by
  rw [connect4]
  cases k.getConfig with
  | none => rfl
  | some cfg =>
    dsimp only
    split_ifs
    · rfl
    · rfl
    · exact book_submit _ env st _
    · exact book_submit _ env st _

theorem book_connect6 (ctx : SockAddr) : (k.connect6 host env ctx).book st = k.book st := by
  rw [connect6]
  cases k.getConfig with
  | none => rfl
  | some cfg =>
    dsimp only
    split_ifs
    · rfl
    · rfl
    · exact book_submit _ env st _

theorem book_sockops (skops : SockOps) :
    ∃ mv : Move FlowKey Amount, mv.charge = 0 ∧
      (k.sockops host env skops).book st = (k.book st).step mv := by
  have hidle : ∃ mv : Move FlowKey Amount, mv.charge = 0 ∧ k.book st = (k.book st).step mv :=
    ⟨.idle, rfl, rfl⟩
  rw [sockops]
  cases k.getConfig with
  | none => exact hidle
  | some cfg =>
    dsimp only
    by_cases hfam : skops.family ≠ afInet ∧ skops.family ≠ afInet6
    · rw [if_pos hfam]
      exact hidle
    rw [if_neg hfam]
    cases skops.op with
    | activeEstablished =>
      dsimp only
      split_ifs
      · exact hidle
      · exact k.book_handleEstablished host env st skops 0
    | passiveEstablished =>
      dsimp only
      split_ifs
      · exact hidle
      · exact k.book_handleEstablished host env st skops 1
    | stateChange => exact ⟨.idle, rfl, k.book_handleStateChange env st skops⟩
    | other => exact hidle

end Kernel

/-! ### A byte hook -/

/-- A connection's own counters. -/
def ConnInfo.amount (conn : ConnInfo) : Amount
  | .tx => conn.txBytes
  | .rx => conn.rxBytes
  | .retransmitBytes => conn.retransmitBytes
  | .retransmitCount => conn.retransmitCount.toUInt64

/-- The two updates of a byte hook, on the connection's own counters and on the
aggregates, with what they amount to. -/
structure CountingBody {n : ℕ} (env : HookEnv n) (cnt : Counting) where
  touch : ConnInfo → ConnInfo
  aggregate : Kernel n → ConnInfo → Kernel n
  touch_flowKey : ∀ conn, (touch conn).flowKey = conn.flowKey
  touch_amount : ∀ conn c, c ≠ .retransmitCount →
    (touch conn).amount c = conn.amount c + cnt.amount c
  aggregate_connections : ∀ k conn, (aggregate k conn).connections = k.connections
  aggregate_book : ∀ k conn st, (aggregate k conn).book st = (k.book st).step
    (.post conn.flowKey cnt.amount (k.posting env conn.flowKey cnt.creates))

section
variable {host : ByteOrder} {n : ℕ} (k : Kernel n) (env : HookEnv n)

theorem Kernel.connections_updateFlowAggregate (conn : ConnInfo) (tx rx : UInt64) :
    (k.updateFlowAggregate env conn tx rx).connections = k.connections := by
  rw [Kernel.updateFlowAggregate]
  cases k.flowAggregates.lookup conn.flowKey with
  | some perCPU => rfl
  | none =>
    dsimp only
    rw [Kernel.insertFlow]
    split_ifs <;> rfl

theorem Kernel.connections_touchFlowAggregate (conn : ConnInfo) (f : FlowMetrics → FlowMetrics) :
    (k.touchFlowAggregate env conn f).connections = k.connections := by
  rw [Kernel.touchFlowAggregate]
  cases k.flowAggregates.lookup conn.flowKey <;> rfl

/-- The body of the TCP hooks and of `udp_sendmsg`. -/
def CountingBody.update (cookie : UInt64) (counted : ConnInfo → Bool) (tx rx : UInt64) :
    CountingBody env ⟨cookie, counted, .ofBytes tx rx, true⟩ where
  touch conn := { conn with txBytes := conn.txBytes + tx, rxBytes := conn.rxBytes + rx }
  aggregate k conn := k.updateFlowAggregate env conn tx rx
  touch_flowKey _ := rfl
  touch_amount conn c hc := by
    cases c
    · rfl
    · rfl
    · exact (UInt64.add_zero _).symm
    · exact absurd rfl hc
  aggregate_connections k conn := k.connections_updateFlowAggregate env conn tx rx
  aggregate_book k conn st := k.book_updateFlowAggregate env st conn tx rx

/-- The body of `udp_recvmsg_exit`. -/
def CountingBody.receive (cookie : UInt64) (counted : ConnInfo → Bool) (rx : UInt64) :
    CountingBody env ⟨cookie, counted, .ofBytes 0 rx, false⟩ where
  touch conn := { conn with rxBytes := conn.rxBytes + rx }
  aggregate k conn := k.touchFlowAggregate env conn fun m =>
    { m with rxBytes := m.rxBytes + rx, lastUpdatedNs := env.now }
  touch_flowKey _ := rfl
  touch_amount conn c hc := by
    cases c
    · exact (UInt64.add_zero _).symm
    · rfl
    · exact (UInt64.add_zero _).symm
    · exact absurd rfl hc
  aggregate_connections k conn := k.connections_touchFlowAggregate env conn _
  aggregate_book k conn st := k.book_touchFlowAggregate env st conn fun m => by
    funext c
    cases c
    · exact (UInt64.zero_add _).symm
    · exact UInt64.add_comm _ _
    · exact (UInt64.zero_add _).symm
    · exact (UInt64.zero_add _).symm

/-- The body of the two retransmission hooks. -/
def CountingBody.retransmit (cookie : UInt64) (len : UInt32) :
    CountingBody env ⟨cookie, fun _ => true, .ofRetransmit len, false⟩ where
  touch conn :=
    { conn with
      retransmitBytes := conn.retransmitBytes + len.toUInt64
      retransmitCount := conn.retransmitCount + 1 }
  aggregate k conn := k.touchFlowAggregate env conn fun m =>
    { m with
      retransmitBytes := m.retransmitBytes + len.toUInt64
      retransmitCount := m.retransmitCount + 1
      lastUpdatedNs := env.now }
  touch_flowKey _ := rfl
  touch_amount conn c hc := by
    cases c
    · exact (UInt64.add_zero _).symm
    · exact (UInt64.add_zero _).symm
    · rfl
    · exact absurd rfl hc
  aggregate_connections k conn := k.connections_touchFlowAggregate env conn _
  aggregate_book k conn st := k.book_touchFlowAggregate env st conn fun m => by
    funext c
    cases c
    · exact (UInt64.zero_add _).symm
    · exact (UInt64.zero_add _).symm
    · exact UInt64.add_comm _ _
    · exact UInt64.add_comm _ _

/-- The TCP send hooks have the shared body; adding nothing to the other
direction changes nothing. -/
theorem Kernel.countTCPTx_eq (cookie delta : UInt64) :
    k.countTCPTx host env cookie delta
      = k.countOn cookie (fun conn => !isSidecarSocketCookie host conn)
          (CountingBody.update env cookie (fun conn => !isSidecarSocketCookie host conn)
            delta 0).touch
          fun k conn => k.updateFlowAggregate env conn delta 0 := by
  simp only [Kernel.countTCPTx, CountingBody.update, UInt64.add_zero]

theorem Kernel.countTCPRx_eq (cookie delta : UInt64) :
    k.countTCPRx host env cookie delta
      = k.countOn cookie (fun conn => !isSidecarSocketCookie host conn)
          (CountingBody.update env cookie (fun conn => !isSidecarSocketCookie host conn)
            0 delta).touch
          fun k conn => k.updateFlowAggregate env conn 0 delta := by
  simp only [Kernel.countTCPRx, CountingBody.update, UInt64.add_zero]

/-- The map changes of a hook that counts as `o` says: none, or those of the
counting with a sound body. -/
def Kernel.CountsAs (o : Option Counting) (k' : Kernel n) : Prop :=
  match o with
  | none => k' = k
  | some cnt => ∃ body : CountingBody env cnt,
      k' = k.countOn cnt.cookie cnt.counted body.touch body.aggregate

/-- The hooks test the size first and then count. -/
theorem Kernel.CountsAs.guarded {c : Prop} [Decidable c] {cnt : Counting} {k' : Kernel n}
    (body : CountingBody env cnt)
    (h : k' = k.countOn cnt.cookie cnt.counted body.touch body.aggregate) :
    k.CountsAs env (if c then none else some cnt) (if c then k else k') := by
  by_cases hc : c
  · rw [if_pos hc, if_pos hc]
    rfl
  · rw [if_neg hc, if_neg hc]
    exact ⟨body, h⟩

/-- The hooks that count bytes; the others follow the life of a socket. -/
def Hook.countsBytes : Hook → Bool
  | .connect4 _ | .connect6 _ | .sockops _ | .sockRelease _ _ => false
  | _ => true

/-- Every byte hook is its counting. -/
theorem Hook.run_countsAs {h : Hook} (hbytes : h.countsBytes = true) :
    k.CountsAs env (h.counting host) (h.run host env k) := by
  cases h with
  | tcpSendmsg cookie parm3 =>
    exact .guarded k env (.update env cookie _ _ 0) (k.countTCPTx_eq env ..)
  | tcpCleanupRbuf cookie parm2 =>
    exact .guarded k env (.update env cookie _ 0 _) (k.countTCPRx_eq env ..)
  | tcpSendmsgFentry cookie size =>
    exact .guarded k env (.update env cookie _ _ 0) (k.countTCPTx_eq env ..)
  | tcpCleanupRbufFentry cookie copied =>
    exact .guarded k env (.update env cookie _ 0 _) (k.countTCPRx_eq env ..)
  | udpSendmsg cookie len =>
    refine .guarded k env (.update env cookie _ len 0) ?_
    simp only [CountingBody.update, UInt64.add_zero]
  | udpRecvmsgExit cookie ret => exact .guarded k env (.receive env cookie _ _) rfl
  | tcpRetransmit cookie skbLen => exact .guarded k env (.retransmit env cookie _) rfl
  | tcpLossProbe cookie mssCache => exact ⟨.retransmit env cookie _, rfl⟩
  | connect4 ctx => cases hbytes
  | connect6 ctx => cases hbytes
  | sockops skops => cases hbytes
  | sockRelease cookie protocol => cases hbytes

theorem Hook.run_eq_countOn {h : Hook} {cnt : Counting} (hcnt : h.counting host = some cnt) :
    ∃ body : CountingBody env cnt,
      h.run host env k = k.countOn cnt.cookie cnt.counted body.touch body.aggregate := by
  have hbytes : h.countsBytes = true := by
    cases h with
    | connect4 ctx => cases hcnt
    | connect6 ctx => cases hcnt
    | sockops skops => cases hcnt
    | sockRelease cookie protocol => cases hcnt
    | _ => rfl
  have hrun : k.CountsAs env (h.counting host) (h.run host env k) :=
    Hook.run_countsAs k env hbytes
  rwa [hcnt] at hrun

theorem Kernel.countOn_of_untracked {cnt : Counting} (h : k.tracked cnt = none)
    (touch : ConnInfo → ConnInfo) (aggregate : Kernel n → ConnInfo → Kernel n) :
    k.countOn cnt.cookie cnt.counted touch aggregate = k := by
  rw [Kernel.tracked] at h
  rw [Kernel.countOn]
  cases hcfg : k.getConfig with
  | none => rfl
  | some _ =>
    rw [hcfg] at h
    cases hconn : k.connections.lookup cnt.cookie with
    | none => rfl
    | some conn =>
      rw [hconn] at h
      have hc : ¬cnt.counted conn = true := fun hc => by
        rw [Option.filter_some, if_pos hc] at h
        cases h
      exact if_neg hc

theorem Kernel.countOn_of_tracked {cnt : Counting} {conn : ConnInfo}
    (h : k.tracked cnt = some conn)
    (touch : ConnInfo → ConnInfo) (aggregate : Kernel n → ConnInfo → Kernel n) :
    k.countOn cnt.cookie cnt.counted touch aggregate
      = aggregate { k with connections := k.connections.insert cnt.cookie (touch conn) } conn := by
  rw [Kernel.tracked] at h
  rw [Kernel.countOn]
  cases hcfg : k.getConfig with
  | none =>
    rw [hcfg] at h
    cases h
  | some _ =>
    rw [hcfg] at h
    obtain ⟨hconn, hc⟩ := Option.filter_eq_some_iff.mp h
    rw [hconn]
    exact if_pos hc

/-- A byte hook on a tracked connection adds its amount to the connection's own
counters. -/
theorem connections_counting {h : Hook} {cnt : Counting} {conn : ConnInfo}
    (hcnt : h.counting host = some cnt) (hconn : k.tracked cnt = some conn) :
    ∃ conn', (h.run host env k).connections = k.connections.insert cnt.cookie conn' ∧
      conn'.flowKey = conn.flowKey ∧
      ∀ c, c ≠ .retransmitCount → conn'.amount c = conn.amount c + cnt.amount c := by
  obtain ⟨body, hrun⟩ := Hook.run_eq_countOn k env hcnt
  refine ⟨body.touch conn, ?_, body.touch_flowKey conn, body.touch_amount conn⟩
  rw [hrun, k.countOn_of_tracked hconn, body.aggregate_connections]

/-- A byte hook on a tracked connection posts its amount to the flow. -/
theorem book_counting {h : Hook} {cnt : Counting} {conn : ConnInfo}
    (hcnt : h.counting host = some cnt) (hconn : k.tracked cnt = some conn)
    (st : List (FlowKey × Amount)) :
    (h.run host env k).book st = (k.book st).step
      (.post conn.flowKey cnt.amount (k.posting env conn.flowKey cnt.creates)) := by
  obtain ⟨body, hrun⟩ := Hook.run_eq_countOn k env hcnt
  rw [hrun, k.countOn_of_tracked hconn, body.aggregate_book]
  rfl

end

/-! ### One step of the capture -/

section
variable {host : ByteOrder} {n : ℕ} (k : Kernel n) (env : HookEnv n)

/-- A byte hook that counts nothing does nothing; a lifecycle hook charges
nothing. -/
theorem book_of_counting_none {h : Hook} (hcnt : h.counting host = none)
    (st : List (FlowKey × Amount)) :
    ∃ mv : Move FlowKey Amount, mv.charge = 0 ∧
      (h.run host env k).book st = (k.book st).step mv := by
  by_cases hbytes : h.countsBytes = true
  · have hrun : k.CountsAs env (h.counting host) (h.run host env k) :=
      Hook.run_countsAs k env hbytes
    rw [hcnt] at hrun
    exact ⟨.idle, rfl, congrArg (fun k => k.book st) hrun⟩
  · cases h with
    | connect4 ctx => exact ⟨.idle, rfl, k.book_connect4 host env st ctx⟩
    | connect6 ctx => exact ⟨.idle, rfl, k.book_connect6 host env st ctx⟩
    | sockops skops => exact k.book_sockops host env st skops
    | sockRelease cookie protocol =>
      -- a release drops connections, and the book does not read those
      refine ⟨.idle, rfl, ?_⟩
      rw [Hook.run, Kernel.sockRelease]
      split_ifs <;> rfl
    | _ => exact absurd rfl hbytes

end

/-- A charge as its hook records it: the hook's own counting, on a connection
of the flow that counts. -/
def Charge.Sound (host : ByteOrder) (c : Charge) : Prop :=
  ∃ cnt conn, c.hook.counting host = some cnt ∧ c.amount = cnt.amount ∧
    cnt.counted conn = true ∧ c.key = conn.flowKey

/-- Whether the charge's hook creates a missing aggregate entry. -/
def Hook.creates (host : ByteOrder) (h : Hook) : Bool :=
  ((h.counting host).map Counting.creates).getD true

theorem Kernel.sound_of_charge {host : ByteOrder} {n : ℕ} {k : Kernel n} {i : ℕ} {h : Hook}
    {c : Charge} (hc : k.charge host i h = some c) : c.Sound host ∧ c.step = i := by
  rw [Kernel.charge, Option.bind_eq_some_iff] at hc
  obtain ⟨cnt, hcnt, hc⟩ := hc
  obtain ⟨conn, hconn, rfl⟩ := Option.map_eq_some_iff.mp hc
  rw [Kernel.tracked] at hconn
  cases hcfg : k.getConfig with
  | none =>
    rw [hcfg] at hconn
    cases hconn
  | some _ =>
    rw [hcfg] at hconn
    exact ⟨⟨cnt, conn, hcnt, rfl, (Option.filter_eq_some_iff.mp hconn).2, rfl⟩, rfl⟩

namespace Capture

variable (host : ByteOrder) {n : ℕ}

/-- The book of a capture: the aggregate entries, the snapshots taken so far
and the failed insertions. -/
def book (s : Capture n) : Book FlowKey Amount UInt64 :=
  s.kernel.book (s.snapshots.map fun snap => (snap.flowKey, snap.amount))

/-- The charge recorded by step `i`, if it is a byte hook on a tracked
connection. -/
def charge (s : Capture n) (i : ℕ) : CaptureStep n → List Charge
  | .hook _ h => (s.kernel.charge host i h).toList
  | _ => []

/-- The charges recorded along a run whose first step has number `i`. -/
def recordedFrom : Capture n → ℕ → List (CaptureStep n) → List Charge
  | _, _, [] => []
  | s, i, e :: run => s.charge host i e ++ recordedFrom (s.step host e) (i + 1) run

/-- The charges recorded along a run from empty maps. -/
def recorded (cfg : AgentConfig) (run : List (CaptureStep n)) : List Charge :=
  recordedFrom host (init cfg) 0 run

/-- The condition under which the receive and retransmission hooks lose
nothing: on a tracked connection they find the flow's aggregate entry. -/
def entryPresent (s : Capture n) : CaptureStep n → Bool
  | .hook _ h =>
    match h.counting host with
    | none => true
    | some cnt =>
      cnt.creates || (s.kernel.tracked cnt).all fun conn =>
        (s.kernel.flowAggregates.lookup conn.flowKey).isSome
  | _ => true

theorem take_book (s : Capture n) (key : FlowKey) :
    (s.take key).book = s.book.step (.close key) := by
  rw [take, Book.step]
  have hbal : s.book.balance key = (s.kernel.flowAggregates.lookup key).map perCPUAmount := rfl
  rw [hbal]
  cases h : s.kernel.flowAggregates.lookup key with
  | none => rfl
  | some perCPU =>
    have herase : (fun key' => ((s.kernel.flowAggregates.erase key).lookup key').map perCPUAmount)
        = Function.update s.book.balance key none :=
      FinMap.map_lookup_erase s.kernel.flowAggregates key perCPUAmount
    simp only [book, Kernel.book, snapshots, herase, ← List.append_assoc, List.map_append,
      List.map_cons, List.map_nil, sumPerCPU_flowKey, sumPerCPU_amount, Option.map_some]
    rfl

/-- The move of the ledger that step `e`, from `s` to `s'`, is: it brings in the
charge the step records, and misses it only if the step's hook leaves missing
entries alone and found none. -/
structure IsMove (s : Capture n) (i : ℕ) (e : CaptureStep n) (s' : Capture n)
    (mv : Move FlowKey Charge) : Prop where
  book : s'.book = s.book.step (mv.map Charge.amount)
  charge : mv.charge = s.charge host i e
  filed : mv.Filed Charge.key
  updateOnly : ∀ c ∈ mv.miss, c.hook.creates host = false
  absent : s.entryPresent host e = true → mv.miss = 0

section
variable {s : Capture n} {i : ℕ} {e : CaptureStep n}

/-- A move that misses nothing. -/
theorem IsMove.of_miss_eq_zero {s' : Capture n} {mv : Move FlowKey Charge} (hmiss : mv.miss = 0)
    (hbook : s'.book = s.book.step (mv.map Charge.amount)) (hcharge : mv.charge = s.charge host i e)
    (hfiled : mv.Filed Charge.key) : IsMove host s i e s' mv := by
  refine ⟨hbook, hcharge, hfiled, ?_, fun _ => hmiss⟩
  rw [hmiss]
  exact fun c hc => absurd hc (Multiset.notMem_zero c)

theorem IsMove.idle {s' : Capture n} (hbook : s'.book = s.book)
    (hcharge : s.charge host i e = []) : IsMove host s i e s' .idle := by
  refine .of_miss_eq_zero host rfl hbook ?_ trivial
  rw [hcharge]
  rfl

variable {env : HookEnv n} {h : Hook}

/-- A hook that counts nothing may still open an account or be refused. -/
theorem exists_isMove_of_counting_none (hcnt : h.counting host = none) :
    ∃ mv, IsMove host s i (.hook env h) (s.step host (.hook env h)) mv := by
  obtain ⟨mv, hmv, hbook⟩ := book_of_counting_none s.kernel env hcnt
    (s.snapshots.map fun snap => (snap.flowKey, snap.amount))
  obtain ⟨mv', hmap, hcharge, hmiss, hfiled⟩ :=
    Move.exists_map_of_charge_eq_zero Charge.amount Charge.key hmv
  refine ⟨mv', .of_miss_eq_zero host hmiss ?_ ?_ hfiled⟩
  · rw [hmap]
    exact hbook
  · rw [hcharge, Capture.charge, Kernel.charge, hcnt]
    rfl

theorem isMove_of_untracked {cnt : Counting} (hcnt : h.counting host = some cnt)
    (hconn : s.kernel.tracked cnt = none) :
    IsMove host s i (.hook env h) (s.step host (.hook env h)) .idle := by
  obtain ⟨body, hrun⟩ := Hook.run_eq_countOn s.kernel env hcnt
  refine .idle host ?_ ?_
  · show (h.run host env s.kernel).book _ = _
    rw [hrun, s.kernel.countOn_of_untracked hconn]
    rfl
  · rw [Capture.charge, Kernel.charge, hcnt, Option.bind_some, hconn]
    rfl

/-- A byte hook on a tracked connection posts its charge to the flow. -/
theorem isMove_of_tracked {cnt : Counting} {conn : ConnInfo} (hcnt : h.counting host = some cnt)
    (hconn : s.kernel.tracked cnt = some conn) :
    IsMove host s i (.hook env h) (s.step host (.hook env h))
      (.post conn.flowKey ⟨i, h, conn.flowKey, cnt.amount⟩
        (s.kernel.posting env conn.flowKey cnt.creates)) where
  book := by
    show (h.run host env s.kernel).book _ = _
    rw [book_counting s.kernel env hcnt hconn]
    rfl
  charge := by
    rw [Capture.charge, Kernel.charge, hcnt, Option.bind_some, hconn]
    rfl
  filed := rfl
  updateOnly := by
    intro c hc
    obtain ⟨hmissed, rfl⟩ := Move.mem_miss_post hc
    rw [Hook.creates, hcnt]
    exact (s.kernel.posting_eq_missed env hmissed).1
  absent := by
    -- a missed charge found no entry, and the condition says there was one
    intro hpresent
    refine Move.miss_post_of_ne fun hmissed => ?_
    obtain ⟨hcreates, habsent⟩ := s.kernel.posting_eq_missed env hmissed
    simp only [entryPresent, hcnt, hcreates, hconn, Bool.false_or, Option.all_some] at hpresent
    exact habsent (Finmap.lookup_isSome.mp hpresent)

end

/-- **One step is one move.** -/
theorem step_book (s : Capture n) (i : ℕ) (e : CaptureStep n) :
    ∃ mv, IsMove host s i e (s.step host e) mv := by
  cases e with
  | hook env h =>
    cases hcnt : h.counting host with
    | none => exact exists_isMove_of_counting_none host hcnt
    | some cnt =>
      cases hconn : s.kernel.tracked cnt with
      | none => exact ⟨_, isMove_of_untracked host hcnt hconn⟩
      | some conn => exact ⟨_, isMove_of_tracked host hcnt hconn⟩
  | take key => exact ⟨.close key, .of_miss_eq_zero host rfl (s.take_book key) rfl trivial⟩
  | deliver =>
    -- delivery moves snapshots from the poll's batch to the delivered ones
    refine ⟨.idle, .idle host ?_ rfl⟩
    simp [step, book, snapshots]
  | setConfig cfg => exact ⟨.idle, .idle host rfl rfl⟩
  | evictConnection cookie => exact ⟨.idle, .idle host rfl rfl⟩
  | evictOriginalDst cookie => exact ⟨.idle, .idle host rfl rfl⟩

/-- **The capture keeps books.**  A step may miss only the charge of a hook that
leaves missing entries alone, and only when the entry is absent. -/
def bookkeeping : Bookkeeping (Capture n) (CaptureStep n) FlowKey Charge Amount UInt64 where
  step := step host
  book := book
  charges := charge host
  amount := Charge.amount
  keyOf := Charge.key
  number := Charge.step
  late c := c.hook.creates host = false
  prompt s e := s.entryPresent host e = true
  number_charges s i e c hc := by
    cases e with
    | hook env h => exact (Kernel.sound_of_charge (Option.mem_toList.mp hc)).2
    | _ => exact absurd hc List.not_mem_nil
  nodup_charges s i e := by
    cases e with
    | hook env h =>
      show (s.kernel.charge host i h).toList.Nodup
      cases s.kernel.charge host i h with
      | none => exact List.nodup_nil
      | some c => exact List.nodup_singleton c
    | _ => exact List.nodup_nil
  exists_move s i e := by
    obtain ⟨mv, hmv⟩ := s.step_book host i e
    exact ⟨mv, hmv.book, hmv.charge, hmv.filed, hmv.updateOnly, hmv.absent⟩

theorem recordedFrom_eq (run : List (CaptureStep n)) (s : Capture n) (i : ℕ) :
    recordedFrom host s i run = (bookkeeping host).chargesFrom s i run := by
  induction run generalizing s i with
  | nil => rfl
  | cons e run ih => exact congrArg (s.charge host i e ++ ·) (ih _ _)

/-- A ledger of a run: it holds the recorded charges, each with an account or
statement of its own flow, and its totals are the aggregate entries, the
snapshots and the drop count. -/
structure IsLedger (cfg : AgentConfig) (run : List (CaptureStep n))
    (L : Ledger FlowKey Charge) : Prop where
  all : L.all = recorded host cfg run
  filed : L.Filed Charge.key
  book : L.book Charge.amount = (exec host cfg run).book

theorem book_init (cfg : AgentConfig) :
    (Ledger.empty.book Charge.amount : Book FlowKey Amount UInt64)
      = (init cfg : Capture n).book := by
  have hdrop : (Kernel.init cfg : Kernel n).dropTotal .flowAggregates = 0 :=
    Finset.sum_eq_zero fun _ _ => rfl
  rw [book, Kernel.book, init, hdrop]
  rfl

/-- Every receive and retransmission hook of the run that meets a tracked
connection finds the flow's aggregate entry. -/
def EntriesPresent (cfg : AgentConfig) (run : List (CaptureStep n)) : Prop :=
  History.Along (step host) (fun s e => s.entryPresent host e = true) (init cfg) run

instance (cfg : AgentConfig) (run : List (CaptureStep n)) :
    Decidable (EntriesPresent host cfg run) :=
  inferInstanceAs (Decidable (History.Along _ _ _ _))

/-- Every run has a ledger. -/
theorem exists_ledger (cfg : AgentConfig) (run : List (CaptureStep n)) :
    ∃ L : Ledger FlowKey Charge, IsLedger host cfg run L ∧
      (∀ c ∈ L.missed, c.hook.creates host = false) ∧
      (EntriesPresent host cfg run → L.missed = 0) := by
  obtain ⟨L, hbook, hfiled, hall, hmissed, halong⟩ :=
    (bookkeeping host).exists_ledger (book_init cfg) run
  refine ⟨L, ⟨?_, hfiled, hbook⟩, hmissed, halong⟩
  rw [hall, recorded, recordedFrom_eq]

/-! ### The recorded charges -/

theorem sound_of_mem_recorded {cfg : AgentConfig} {run : List (CaptureStep n)} {c : Charge}
    (hc : c ∈ recorded host cfg run) : c.Sound host := by
  rw [recorded, recordedFrom_eq] at hc
  refine (bookkeeping host).charges_of_inv (fun _ => True) (fun _ _ _ => trivial)
    (fun s i e _ c hc => ?_) trivial 0 run c hc
  cases e with
  | hook env h => exact (Kernel.sound_of_charge (Option.mem_toList.mp hc)).1
  | _ => exact absurd hc List.not_mem_nil

/-- No two recorded charges are the same: a step records at most one. -/
theorem nodup_recorded (cfg : AgentConfig) (run : List (CaptureStep n)) :
    (recorded host cfg run).Nodup := by
  rw [recorded, recordedFrom_eq]
  exact (bookkeeping host).nodup_chargesFrom run (init cfg) 0

end Capture
