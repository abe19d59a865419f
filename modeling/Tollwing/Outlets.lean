/-
Where the hooks may find no room (`pkg/ebpf/bpf/tollwing.bpf.c`, `quic.bpf.c`, `maps.h`).

A hook reports at most one event and makes at most one new entry of `flow_aggregates`; a
frame makes at most one entry of `quic_flows`.  Where there is no room the drop counter of
the CPU goes up, and that is all.

* `Hook.exists_offer` — what a hook does to the ring, to the keys and to the counters;
* `NodeAgent.outlets_exact` — over any run of the agent the ring holds the events for which
  there was room, in their order, and the counters have exactly the others.
-/
import Tollwing.FlowConservation
import Tollwing.NodeBooks
import Tollwing.WireEvents

/-! ### Outlets -/

/-- The events ring buffer, the keys of `flow_aggregates` and the drop counters. -/
structure Outlets (n : ℕ) where
  events : List Event
  keys : Finset FlowKey
  drops : DropSlot → Fin n → UInt64

namespace Outlets

variable {n : ℕ} (o : Outlets n) (env : HookEnv n)

/-- Nothing is put out, but the drop is counted. -/
def drop (slot : DropSlot) : Outlets n :=
  { o with
    drops := Function.update o.drops slot
      (Function.update (o.drops slot) env.cpu (o.drops slot env.cpu + 1)) }

/-- An event is reported, or there is none. -/
def report : Option Event → Outlets n
  | none => o
  | some evt =>
    if env.reserveOk then { o with events := o.events ++ [evt] } else o.drop env .eventsRingbuf

/-- An entry is made, or there is none to make. -/
def make : Option FlowKey → Outlets n
  | none => o
  | some key =>
    if env.insertOk then { o with keys := insert key o.keys } else o.drop env .flowAggregates

/-- The entry that a flow needs. -/
def missing (key : FlowKey) : Option FlowKey := if key ∈ o.keys then none else some key

theorem not_mem_of_mem_missing {key key' : FlowKey} (h : key' ∈ o.missing key) :
    key' ∉ o.keys := by
  rw [missing] at h
  split_ifs at h with hkey
  · cases h
  · cases h
    exact hkey

/-! What becomes of the parts. -/

def dropTotal (slot : DropSlot) : UInt64 := ∑ i, o.drops slot i

theorem dropTotal_drop (slot slot' : DropSlot) : (o.drop env slot).dropTotal slot'
    = o.dropTotal slot' + if slot' = slot then 1 else 0 := by
  by_cases hslot : slot' = slot
  · subst hslot
    have hsum := sum_update_cpu id (o.drops slot') env.cpu (add_comm _ (1 : UInt64))
    rw [if_pos rfl, dropTotal, dropTotal, drop, add_comm (Finset.sum _ _)]
    simpa using hsum
  · rw [if_neg hslot, add_zero, dropTotal, drop, dropTotal]
    simp only [Function.update_of_ne hslot]

theorem dropTotal_report (evt : Option Event) (slot : DropSlot) :
    (o.report env evt).dropTotal slot = o.dropTotal slot
      + if slot = .eventsRingbuf ∧ env.reserveOk = false ∧ evt.isSome = true then 1 else 0 := by
  cases evt with
  | none => simp [report]
  | some evt =>
    cases hroom : env.reserveOk with
    | true => simp [report, hroom, dropTotal]
    | false => simp [report, hroom, dropTotal_drop]

theorem dropTotal_make (key : Option FlowKey) (slot : DropSlot) :
    (o.make env key).dropTotal slot = o.dropTotal slot
      + if slot = .flowAggregates ∧ env.insertOk = false ∧ key.isSome = true then 1 else 0 := by
  cases key with
  | none => simp [make]
  | some key =>
    cases hroom : env.insertOk with
    | true => simp [make, hroom, dropTotal]
    | false => simp [make, hroom, dropTotal_drop]

theorem report_events (evt : Option Event) : (o.report env evt).events
    = o.events ++ if env.reserveOk then evt.toList else [] := by
  cases evt <;> cases hroom : env.reserveOk <;> simp [report, drop, hroom]

theorem make_events (key : Option FlowKey) : (o.make env key).events = o.events := by
  cases key <;> cases hroom : env.insertOk <;> simp [make, drop, hroom]

theorem report_keys (evt : Option Event) : (o.report env evt).keys = o.keys := by
  cases evt <;> cases hroom : env.reserveOk <;> simp [report, drop, hroom]

theorem subset_make_keys (key : Option FlowKey) : o.keys ⊆ (o.make env key).keys := by
  cases key <;> cases hroom : env.insertOk <;> simp [make, drop, hroom]

end Outlets

namespace Kernel

variable {n : ℕ} (k : Kernel n) (env : HookEnv n)

def outlets : Outlets n := ⟨k.events, k.flowAggregates.keys, k.dropCounters⟩

theorem outlets_submit (evt : Event) :
    (k.submit env evt).outlets = k.outlets.report env (some evt) := by
  rw [submit, Outlets.report]
  split_ifs <;> rfl

/-- An entry that is there is changed in place. -/
theorem outlets_modifyFlow {key : FlowKey} {perCPU : Fin n → FlowMetrics}
    (h : k.flowAggregates.lookup key = some perCPU) (f : FlowMetrics → FlowMetrics) :
    (k.modifyFlow env key perCPU f).outlets = k.outlets := by
  have hkey : key ∈ k.flowAggregates.keys := FinMap.mem_keys_iff_lookup.mpr (by simp [h])
  rw [modifyFlow, outlets, FinMap.keys_insert, Finset.insert_eq_of_mem hkey]
  rfl

theorem outlets_insertFlow (key : FlowKey) (val : FlowMetrics) :
    (k.insertFlow env key val).outlets = k.outlets.make env (some key) := by
  rw [insertFlow, Outlets.make]
  split_ifs
  · rw [outlets, FinMap.keys_insert]
    rfl
  · rfl

theorem missing_of_lookup {key : FlowKey} {perCPU : Fin n → FlowMetrics}
    (h : k.flowAggregates.lookup key = some perCPU) : k.outlets.missing key = none :=
  if_pos (FinMap.mem_keys_iff_lookup.mpr (by simp [h]))

theorem missing_of_lookup_none {key : FlowKey} (h : k.flowAggregates.lookup key = none) :
    k.outlets.missing key = some key :=
  if_neg fun hkey => FinMap.mem_keys_iff_lookup.mp hkey h

theorem outlets_seedFlow (key : FlowKey) :
    (k.seedFlow env key).outlets = k.outlets.make env (k.outlets.missing key) := by
  rw [seedFlow]
  cases h : k.flowAggregates.lookup key with
  | some perCPU =>
    rw [k.missing_of_lookup h]
    exact k.outlets_modifyFlow env h _
  | none =>
    rw [k.missing_of_lookup_none h]
    exact k.outlets_insertFlow env key _

theorem outlets_updateFlowAggregate (conn : ConnInfo) (tx rx : UInt64) :
    (k.updateFlowAggregate env conn tx rx).outlets
      = k.outlets.make env (k.outlets.missing conn.flowKey) := by
  rw [updateFlowAggregate]
  cases h : k.flowAggregates.lookup conn.flowKey with
  | some perCPU =>
    rw [k.missing_of_lookup h]
    exact k.outlets_modifyFlow env h _
  | none =>
    rw [k.missing_of_lookup_none h]
    exact k.outlets_insertFlow env conn.flowKey _

theorem outlets_touchFlowAggregate (conn : ConnInfo) (f : FlowMetrics → FlowMetrics) :
    (k.touchFlowAggregate env conn f).outlets = k.outlets := by
  rw [touchFlowAggregate]
  cases h : k.flowAggregates.lookup conn.flowKey with
  | some perCPU => exact k.outlets_modifyFlow env h f
  | none => rfl

end Kernel

/-! ### What a hook offers -/

/-- The environment of a hook but for the room there is. -/
def HookEnv.withRoom {n : ℕ} (env : HookEnv n) (insertOk reserveOk : Bool) : HookEnv n :=
  { env with insertOk := insertOk, reserveOk := reserveOk }

section
variable {host : ByteOrder} {n : ℕ} (k : Kernel n) (env : HookEnv n)

/-- The hook reports at most one event and makes at most one new entry, and which ones does
not depend on the room there is. -/
def Offers (run : HookEnv n → Kernel n) : Prop :=
  ∃ (key : Option FlowKey) (evt : Option Event), (∀ key' ∈ key, key' ∉ k.outlets.keys) ∧
    ∀ insertOk reserveOk, (run (env.withRoom insertOk reserveOk)).outlets
      = (k.outlets.make (env.withRoom insertOk reserveOk) key).report
          (env.withRoom insertOk reserveOk) evt

namespace Offers

variable {k env} {run : HookEnv n → Kernel n}

theorem nothing (h : ∀ insertOk reserveOk,
    (run (env.withRoom insertOk reserveOk)).outlets = k.outlets) : Offers k env run :=
  ⟨none, none, fun _ hkey => absurd hkey (by simp), h⟩

theorem event (evt : Event)
    (h : ∀ insertOk reserveOk, (run (env.withRoom insertOk reserveOk)).outlets
      = k.outlets.report (env.withRoom insertOk reserveOk) (some evt)) : Offers k env run :=
  ⟨none, some evt, fun _ hkey => absurd hkey (by simp), h⟩

theorem entry {key : FlowKey}
    (h : ∀ env, (run env).outlets = k.outlets.make env (k.outlets.missing key)) :
    Offers k env run :=
  ⟨_, none, fun _ => k.outlets.not_mem_of_mem_missing, fun _ _ => h _⟩

end Offers

namespace Kernel

theorem offers_connect4 (ctx : SockAddr) : Offers k env fun env => k.connect4 host env ctx := by
  cases hcfg : k.getConfig with
  | none =>
    refine .nothing fun _ _ => ?_
    simp only [connect4, hcfg]
  | some cfg =>
    by_cases hproto : ctx.protocol ≠ ipprotoTCP ∧ ¬(ctx.protocol = ipprotoUDP ∧ cfg.trackUDP)
    · refine .nothing fun _ _ => ?_
      simp only [connect4, hcfg, if_pos hproto]
    by_cases hsample : shouldSample cfg.sampleRate env.prandom = false
    · refine .nothing fun _ _ => ?_
      simp only [connect4, hcfg, if_neg hproto, HookEnv.withRoom, hsample, if_true]
    · refine .event ?_ fun _ _ => ?_
      swap
      simp only [connect4, hcfg, if_neg hproto, HookEnv.withRoom, hsample, connectDst4]
      exact outlets_submit _ _ _

theorem offers_connect6 (ctx : SockAddr) : Offers k env fun env => k.connect6 host env ctx := by
  cases hcfg : k.getConfig with
  | none =>
    refine .nothing fun _ _ => ?_
    simp only [connect6, hcfg]
  | some cfg =>
    by_cases hproto : ctx.protocol ≠ ipprotoTCP ∧ ¬(ctx.protocol = ipprotoUDP ∧ cfg.trackUDP)
    · refine .nothing fun _ _ => ?_
      simp only [connect6, hcfg, if_pos hproto]
    by_cases hsample : shouldSample cfg.sampleRate env.prandom = false
    · refine .nothing fun _ _ => ?_
      simp only [connect6, hcfg, if_neg hproto, HookEnv.withRoom, hsample, if_true]
    · refine .event ?_ fun _ _ => ?_
      swap
      simp only [connect6, hcfg, if_neg hproto, HookEnv.withRoom, hsample, connectDst6]
      exact outlets_submit _ _ _

theorem establishedConn_withRoom (insertOk reserveOk : Bool) (skops : SockOps)
    (direction : UInt8) : k.establishedConn host (env.withRoom insertOk reserveOk) skops direction
      = k.establishedConn host env skops direction := rfl

/-- An established connection makes its flow's entry and is reported. -/
theorem offers_handleEstablished (skops : SockOps) (direction : UInt8) :
    Offers k env fun env => k.handleEstablished host env skops direction := by
  refine ⟨k.outlets.missing (k.establishedConn host env skops direction).flowKey, some ?_,
    fun _ => k.outlets.not_mem_of_mem_missing, fun _ _ => ?_⟩
  swap
  simp only [handleEstablished, outlets_submit, outlets_seedFlow, establishedConn_withRoom]
  simp only [HookEnv.withRoom]
  rfl

theorem offers_handleStateChange (skops : SockOps) :
    Offers k env fun env => k.handleStateChange env skops := by
  by_cases hstate : skops.newState ≠ tcpClose
  · refine .nothing fun _ _ => ?_
    rw [handleStateChange, if_pos hstate]
  cases hconn : k.connections.lookup skops.cookie with
  | none =>
    refine .nothing fun _ _ => ?_
    rw [handleStateChange, if_neg hstate, hconn]
  | some conn =>
    refine .event ?_ fun _ _ => ?_
    swap
    simp only [handleStateChange, if_neg hstate, hconn, HookEnv.withRoom]
    exact k.outlets_submit _ _

theorem offers_sockops (skops : SockOps) : Offers k env fun env => k.sockops host env skops := by
  cases hcfg : k.getConfig with
  | none =>
    refine .nothing fun _ _ => ?_
    rw [sockops, hcfg]
  | some cfg =>
    by_cases hfam : skops.family ≠ afInet ∧ skops.family ≠ afInet6
    · refine .nothing fun _ _ => ?_
      simp only [sockops, hcfg, if_pos hfam]
    cases hop : skops.op with
    | activeEstablished =>
      by_cases hskip : k.cookieToOriginalDst.lookup skops.cookie = none ∧ 1 < cfg.sampleRate
      · refine .nothing fun _ _ => ?_
        simp only [sockops, hcfg, if_neg hfam, hop, if_pos hskip]
      · simp only [sockops, hcfg, if_neg hfam, hop, if_neg hskip]
        exact k.offers_handleEstablished env skops 0
    | passiveEstablished =>
      by_cases hsample : shouldSample cfg.sampleRate env.prandom = false
      · refine .nothing fun _ _ => ?_
        simp only [sockops, hcfg, if_neg hfam, hop, HookEnv.withRoom, hsample, if_true]
      · obtain ⟨key, evt, hkey, hoffer⟩ :
            Offers k env fun env => k.handleEstablished host env skops 1 :=
          k.offers_handleEstablished env skops 1
        refine ⟨key, evt, hkey, fun insertOk reserveOk => ?_⟩
        simp only [sockops, hcfg, if_neg hfam, hop, HookEnv.withRoom, hsample]
        exact hoffer insertOk reserveOk
    | stateChange =>
      simp only [sockops, hcfg, if_neg hfam, hop]
      exact k.offers_handleStateChange env skops
    | other =>
      refine .nothing fun _ _ => ?_
      simp only [sockops, hcfg, if_neg hfam, hop]

/-- A counting hook offers what it does with the aggregates. -/
theorem offers_countOn (cookie : UInt64) (counted : ConnInfo → Bool) (touch : ConnInfo → ConnInfo)
    {aggregate : HookEnv n → Kernel n → ConnInfo → Kernel n}
    (h : ∀ k conn, Offers k env fun env => aggregate env k conn) :
    Offers k env fun env => k.countOn cookie counted touch (aggregate env) := by
  cases hcfg : k.getConfig with
  | none =>
    refine .nothing fun _ _ => ?_
    rw [countOn, hcfg]
  | some _ =>
    cases hconn : k.connections.lookup cookie with
    | none =>
      refine .nothing fun _ _ => ?_
      rw [countOn, hcfg]
      dsimp only
      rw [hconn]
    | some conn =>
      by_cases hcounted : counted conn = true
      · simp only [countOn, hcfg, hconn, if_pos hcounted]
        exact h { k with connections := k.connections.insert cookie (touch conn) } conn
      · refine .nothing fun _ _ => ?_
        simp only [countOn, hcfg, hconn, if_neg hcounted]

end Kernel

/-- A guard in front of a hook. -/
theorem Offers.guard {c : Prop} [Decidable c] {run : HookEnv n → Kernel n}
    (h : Offers k env run) : Offers k env fun env => if c then k else run env := by
  by_cases hc : c
  · refine .nothing fun _ _ => ?_
    rw [if_pos hc]
  · simp only [if_neg hc]
    exact h

theorem Hook.exists_offer (h : Hook) : Offers k env fun env => h.run host env k := by
  have hupdate : ∀ (tx rx : UInt64) (k : Kernel n) (conn : ConnInfo),
      Offers k env fun env => k.updateFlowAggregate env conn tx rx :=
    fun tx rx k conn => .entry fun env => k.outlets_updateFlowAggregate env conn tx rx
  have htouch : ∀ (f : HookEnv n → FlowMetrics → FlowMetrics) (k : Kernel n) (conn : ConnInfo),
      Offers k env fun env => k.touchFlowAggregate env conn (f env) :=
    fun f k conn => .nothing fun _ _ => k.outlets_touchFlowAggregate _ conn (f _)
  cases h with
  | connect4 ctx => exact k.offers_connect4 env ctx
  | connect6 ctx => exact k.offers_connect6 env ctx
  | sockops skops => exact k.offers_sockops env skops
  | tcpSendmsg cookie parm3 => exact .guard k env (k.offers_countOn env _ _ _ (hupdate _ _))
  | tcpCleanupRbuf cookie parm2 => exact .guard k env (k.offers_countOn env _ _ _ (hupdate _ _))
  | tcpSendmsgFentry cookie size => exact .guard k env (k.offers_countOn env _ _ _ (hupdate _ _))
  | tcpCleanupRbufFentry cookie copied =>
    exact .guard k env (k.offers_countOn env _ _ _ (hupdate _ _))
  | udpSendmsg cookie len => exact .guard k env (k.offers_countOn env _ _ _ (hupdate _ _))
  | udpRecvmsgExit cookie ret => exact .guard k env (k.offers_countOn env _ _ _ (htouch _))
  | tcpRetransmit cookie skbLen => exact .guard k env (k.offers_countOn env _ _ _ (htouch _))
  | tcpLossProbe cookie mssCache => exact k.offers_countOn env _ _ _ (htouch _)
  | sockRelease cookie protocol =>
    refine .nothing fun _ _ => ?_
    show (k.sockRelease cookie protocol).outlets = _
    rw [Kernel.sockRelease]
    split_ifs <;> rfl

end

/-! ### One hook -/

namespace Hook

variable (host : ByteOrder) {n : ℕ} (k : Kernel n) (env : HookEnv n) (h : Hook)

/-- The event that a hook has to report, whether or not there is room for it. -/
def reported : Option Event :=
  ((h.run host (env.withRoom true true) k).events.drop k.events.length).head?

/-- The entry of `flow_aggregates` that it has to make. -/
def entries : Finset FlowKey :=
  (h.run host (env.withRoom true true) k).flowAggregates.keys \ k.flowAggregates.keys

/-- **What a hook puts out**, with the room there is. -/
theorem outlets_run : ∃ key : Option FlowKey, h.entries host k env = key.toFinset ∧
    (h.run host env k).outlets
      = (k.outlets.make env key).report env (h.reported host k env) := by
  obtain ⟨key, evt, hkey, hoffer⟩ : Offers k env fun env => h.run host env k :=
    h.exists_offer k env
  have hroom := hoffer true true
  have hkeys : (h.run host (env.withRoom true true) k).flowAggregates.keys
      = k.flowAggregates.keys ∪ key.toFinset := by
    refine (congrArg Outlets.keys hroom).trans ?_
    cases key <;> cases evt <;>
      simp [Outlets.make, Outlets.report, HookEnv.withRoom, Kernel.outlets, Finset.union_comm]
  have hevents : (h.run host (env.withRoom true true) k).events = k.events ++ evt.toList := by
    refine (congrArg Outlets.events hroom).trans ?_
    cases key <;> cases evt <;>
      simp [Outlets.make, Outlets.report, HookEnv.withRoom, Kernel.outlets]
  refine ⟨key, ?_, ?_⟩
  · rw [entries, hkeys, Finset.union_sdiff_cancel_left]
    cases key with
    | none => simp
    | some key => simpa [Kernel.outlets] using hkey key rfl
  · rw [reported, hevents, List.drop_left]
    have hevt : evt.toList.head? = evt := by cases evt <;> rfl
    rw [hevt]
    exact hoffer env.insertOk env.reserveOk

/-- It has something to put out for which there is no room; the slot says which drop
counter that is for. -/
def loses (slot : DropSlot) : Bool :=
  match slot with
  | .eventsRingbuf => !env.reserveOk && (h.reported host k env).isSome
  | .flowAggregates => !env.insertOk && decide (h.entries host k env ≠ ∅)
  | .dnsRingbuf | .quicFlows => false

theorem events_run : (h.run host env k).events
    = k.events ++ if env.reserveOk then (h.reported host k env).toList else [] := by
  obtain ⟨key, -, hrun⟩ := h.outlets_run host k env
  refine (congrArg Outlets.events hrun).trans ?_
  rw [Outlets.report_events, Outlets.make_events]
  rfl

/-- A hook removes no entry. -/
theorem keys_run : k.flowAggregates.keys ⊆ (h.run host env k).flowAggregates.keys := by
  obtain ⟨key, -, hrun⟩ := h.outlets_run host k env
  have hkeys : (h.run host env k).flowAggregates.keys = (k.outlets.make env key).keys :=
    (congrArg Outlets.keys hrun).trans (Outlets.report_keys _ env _)
  rw [hkeys]
  exact k.outlets.subset_make_keys env key

/-- **A drop counter counts what is lost.** -/
theorem dropTotal_run (slot : DropSlot) : (h.run host env k).dropTotal slot
    = k.dropTotal slot + if h.loses host k env slot then 1 else 0 := by
  obtain ⟨key, hentries, hrun⟩ := h.outlets_run host k env
  have htotal : (h.run host env k).dropTotal slot
      = ((k.outlets.make env key).report env (h.reported host k env)).dropTotal slot :=
    congrArg (fun o : Outlets n => o.dropTotal slot) hrun
  have hbefore : k.outlets.dropTotal slot = k.dropTotal slot := rfl
  rw [htotal, Outlets.dropTotal_report, Outlets.dropTotal_make, hbefore]
  cases slot with
  | eventsRingbuf => simp [loses]
  | flowAggregates => cases key <;> simp [loses, hentries]
  | dnsRingbuf => simp [loses]
  | quicFlows => simp [loses]

end Hook

/-! ### One frame -/

namespace QuicPlane

variable (host : ByteOrder) {n : ℕ} (p : QuicPlane n) (env : HookEnv n) (frame : List UInt8)

/-- The entry of `quic_flows` that a frame has to make. -/
def entries : Finset QuicFlowKey :=
  (p.quicEgress host { env with insertOk := true } frame).quicFlows.keys \ p.quicFlows.keys

def loses (slot : DropSlot) : Bool :=
  slot = .quicFlows && !env.insertOk && decide (p.entries host env frame ≠ ∅)

/-- A frame leaves the tables of sockets alone. -/
theorem tables_quicEgress :
    (p.quicEgress host env frame).kernel.tables = p.kernel.tables := by
  rw [quicEgress_eq]
  cases p.recorded host frame with
  | none => rfl
  | some pkt =>
    show (p.record env pkt).kernel.tables = _
    rw [record]
    cases p.quicFlows.lookup pkt.key with
    | some perCPU => rfl
    | none =>
      dsimp only
      split_ifs <;> rfl

theorem events_quicEgress :
    (p.quicEgress host env frame).kernel.events = p.kernel.events :=
  congrArg SocketTables.events (p.tables_quicEgress host env frame)

/-- A frame leaves the flow aggregates alone and removes no entry of `quic_flows`. -/
theorem keys_quicEgress :
    (p.quicEgress host env frame).kernel.flowAggregates = p.kernel.flowAggregates ∧
      p.quicFlows.keys ⊆ (p.quicEgress host env frame).quicFlows.keys := by
  rw [quicEgress_eq]
  cases p.recorded host frame with
  | none => exact ⟨rfl, subset_rfl⟩
  | some pkt =>
    show (p.record env pkt).kernel.flowAggregates = _ ∧ _ ⊆ (p.record env pkt).quicFlows.keys
    rw [record]
    cases p.quicFlows.lookup pkt.key with
    | some perCPU =>
      dsimp only
      rw [FinMap.keys_insert]
      exact ⟨rfl, Finset.subset_insert _ _⟩
    | none =>
      dsimp only
      split_ifs
      · rw [FinMap.keys_insert]
        exact ⟨rfl, Finset.subset_insert _ _⟩
      · exact ⟨rfl, subset_rfl⟩

theorem dropTotal_quicEgress (slot : DropSlot) : (p.quicEgress host env frame).kernel.dropTotal slot
    = p.kernel.dropTotal slot + if p.loses host env frame slot then 1 else 0 := by
  have hentries : p.entries host env frame
      = ((p.recorded host frame).elim p (p.record { env with insertOk := true })).quicFlows.keys
        \ p.quicFlows.keys := by
    rw [entries, quicEgress_eq]
  rw [quicEgress_eq, loses, hentries]
  cases p.recorded host frame with
  | none => simp
  | some pkt =>
    show (p.record env pkt).kernel.dropTotal slot = _
    rw [Option.elim_some, record, record]
    cases hkey : p.quicFlows.lookup pkt.key with
    | some perCPU =>
      have hmem : pkt.key ∈ p.quicFlows.keys := FinMap.mem_keys_iff_lookup.mpr (by simp [hkey])
      simp [FinMap.keys_insert, Finset.insert_eq_of_mem hmem]
    | none =>
      have hmem : pkt.key ∉ p.quicFlows.keys := fun h => FinMap.mem_keys_iff_lookup.mp h hkey
      have hdrop : ∀ slot, (p.kernel.countDrop env .quicFlows).dropTotal slot
          = p.kernel.dropTotal slot + if slot = .quicFlows then 1 else 0 :=
        p.kernel.outlets.dropTotal_drop env .quicFlows
      cases hroom : env.insertOk with
      | true => simp
      | false => simp [hdrop, FinMap.keys_insert, hmem]

end QuicPlane

/-! ### The agent -/

namespace NodeAgent

variable (host : ByteOrder) (l : Loader) {n : ℕ}

/-- The events that a step puts into the ring. -/
def kept (s : NodeAgent n) : NodeStep n → List Event
  | .kernel (.hook env h) =>
    if l.runs h ∧ env.reserveOk = true then (h.reported host s.plane.kernel env).toList else []
  | _ => []

/-- A step has something to put out for which there is no room. -/
def loses (slot : DropSlot) (s : NodeAgent n) : NodeStep n → Bool
  | .kernel (.hook env h) => l.runs h && h.loses host s.plane.kernel env slot
  | .kernel (.egress env _ frame) =>
    l.quicEgress = .attached && s.plane.loses host env frame slot
  | _ => false

/-- The kernel's events and drop counters are left alone by what the poller does. -/
theorem kernel_takeFlow (s : NodeAgent n) (key : FlowKey) (slot : DropSlot) :
    (s.takeFlow key).plane.kernel.events = s.plane.kernel.events ∧
      (s.takeFlow key).plane.kernel.dropTotal slot = s.plane.kernel.dropTotal slot := by
  rw [takeFlow]
  cases s.plane.kernel.flowAggregates.lookup key <;> exact ⟨rfl, rfl⟩

theorem kernel_takeQuic (s : NodeAgent n) (key : QuicFlowKey) :
    (s.takeQuic key).plane.kernel = s.plane.kernel := by
  rw [takeQuic]
  cases s.plane.quicFlows.lookup key <;> rfl

theorem events_step (s : NodeAgent n) (e : NodeStep n) :
    (s.step host l e).plane.kernel.events = s.plane.kernel.events ++ s.kept host l e := by
  have hnone : ∀ {s' : NodeAgent n}, s'.plane.kernel.events = s.plane.kernel.events →
      s'.plane.kernel.events = s.plane.kernel.events ++ [] :=
    fun h => h.trans (List.append_nil _).symm
  cases e with
  | kernel e =>
    cases e with
    | hook env h =>
      show (s.kernelStep host l (.hook env h)).plane.kernel.events = _
      rw [kernelStep, kept]
      by_cases hruns : l.runs h = true
      · simp only [hruns, true_and]
        exact h.events_run host s.plane.kernel env
      · simp [hruns]
    | egress env send frame =>
      refine hnone ?_
      show (s.kernelStep host l (.egress env send frame)).plane.kernel.events = _
      rw [kernelStep]
      split_ifs
      · exact s.plane.events_quicEgress host env frame
      · rfl
    | evictConnection cookie => exact hnone rfl
    | evictOriginalDst cookie => exact hnone rfl
  | takeFlow key => exact hnone (s.kernel_takeFlow key .eventsRingbuf).1
  | takeQuic key => exact hnone (congrArg Kernel.events (s.kernel_takeQuic key))
  | deliver => exact hnone rfl
  | setEnabled enabled => exact hnone rfl

theorem dropTotal_step (slot : DropSlot) (s : NodeAgent n) (e : NodeStep n) :
    (s.step host l e).plane.kernel.dropTotal slot
      = s.plane.kernel.dropTotal slot + if s.loses host l slot e then 1 else 0 := by
  have hnone : ∀ {s' : NodeAgent n},
      s'.plane.kernel.dropTotal slot = s.plane.kernel.dropTotal slot →
      s'.plane.kernel.dropTotal slot = s.plane.kernel.dropTotal slot + if false then 1 else 0 :=
    fun h => h.trans (add_zero _).symm
  cases e with
  | kernel e =>
    cases e with
    | hook env h =>
      show (s.kernelStep host l (.hook env h)).plane.kernel.dropTotal slot = _
      rw [kernelStep, loses]
      by_cases hruns : l.runs h = true
      · simp only [hruns, Bool.true_and]
        exact h.dropTotal_run host s.plane.kernel env slot
      · simp [hruns]
    | egress env send frame =>
      show (s.kernelStep host l (.egress env send frame)).plane.kernel.dropTotal slot = _
      rw [kernelStep, loses]
      by_cases hattached : l.quicEgress = .attached
      · simp only [hattached, decide_true, Bool.true_and]
        exact s.plane.dropTotal_quicEgress host env frame slot
      · simp [hattached]
    | evictConnection cookie => exact hnone rfl
    | evictOriginalDst cookie => exact hnone rfl
  | takeFlow key => exact hnone (s.kernel_takeFlow key slot).2
  | takeQuic key => exact hnone (congrArg (fun k => k.dropTotal slot) (s.kernel_takeQuic key))
  | deliver => exact hnone rfl
  | setEnabled enabled => exact hnone rfl

/-- A drop counter after a run. -/
theorem dropTotal_foldl (slot : DropSlot) (s : NodeAgent n) (run : List (NodeStep n)) :
    (run.foldl (step host l) s).plane.kernel.dropTotal slot = s.plane.kernel.dropTotal slot
      + .ofNat (History.countAlong (step host l) (loses host l slot) s run) := by
  have hcount := History.foldl_countAlong (fun s => s.plane.kernel.dropTotal slot)
    (dropTotal_step host l slot) s run
  rwa [Capture.nsmul_one_eq_ofNat] at hcount

theorem dropTotal_exec (slot : DropSlot) (boot : List (KernelStep n)) (run : List (NodeStep n)) :
    (exec host l boot run).plane.kernel.dropTotal slot
      = .ofNat (History.countAlong (step host l) (loses host l slot) (start host l boot) run) := by
  have hstart : (start host l boot : NodeAgent n).plane.kernel.dropTotal slot = 0 := by
    rw [start_eq]
    exact Finset.sum_const_zero
  refine (dropTotal_foldl host l slot (start host l boot) run).trans ?_
  rw [hstart, zero_add]

/-- **No event is lost without a count, and no count is without a loss.**  After any run
of the agent the ring holds the events that were reported while there was room, in their
order, and whatever struct each is stored as, its handler is called with it.  Each drop
counter has the number of steps that had something to put out and found no room: an event,
a flow's entry or a QUIC flow's entry. -/
theorem outlets_exact (boot : List (KernelStep n)) (run : List (NodeStep n)) :
    let k := (exec host l boot run).plane.kernel
    let events := History.collect (step host l) (kept host l) (start host l boot) run
    k.events = events ∧
      (∀ (text : Text) (raws : List (List UInt8)),
        List.Forall₂ (Event.StoredIn host text) k.events raws →
          readEvents host text raws = events) ∧
      ∀ slot, k.dropTotal slot = .ofNat
        (History.countAlong (step host l) (loses host l slot) (start host l boot) run) := by
  intro k events
  have hevents : k.events = events := by
    have hstart : (start host l boot : NodeAgent n).plane.kernel.events = [] := by
      rw [start_eq]
      rfl
    refine (History.foldl_collect (fun s => s.plane.kernel.events)
      (events_step host l) (start host l boot) run).trans ?_
    rw [hstart, List.nil_append]
  refine ⟨hevents, fun text raws hraws => ?_, fun slot => dropTotal_exec host l slot boot run⟩
  rw [readEvents_eq hraws, hevents]

end NodeAgent
