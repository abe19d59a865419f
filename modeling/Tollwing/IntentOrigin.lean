/-
Where a joined intent comes from (`pkg/ebpf/bpf/tollwing.bpf.c`, `pkg/ebpf/loader.go`,
`pkg/agent/agent.go`, `pkg/intent/cache.go`).

The destination that a poll joins to a flow has come a long way.  `cgroup/connect4` keeps
what a process dials, the establishment picks it up for its event, `readEvents` hands the
event to the agent when it gets to it, and `handlePoll` finds it in the cache under the
flow's key.  Hooks, evictions, toggles, the takes of polls and the reader of the ring go on
side by side.

`IntentNode` is the node with the reader beside it.

* `IntentNode.exists_dial` — an entry of `cookie_to_original_dst` with an address is what
  the socket dialed;
* `IntentNode.exists_report` — an event in the ring that counts as DNATed is of an outgoing
  establishment;
* `IntentNode.intent_origin` — what is joined to a flow was dialed so, by its process, and
  nothing read since speaks of the flow; with room in the cache all such is joined.
-/
import Tollwing.DnatEvents
import Tollwing.Outlets

/-! ### The cache as a list of what was said -/

/-- What an event says of a key: the destination to keep, or that there is none. -/
def Event.tells (key : FlowKey) : Event → Option (Option IntentDst)
  | .connect _ => none
  | .establish evt =>
    if evt.wasDNATed = true ∧ evt.intentKey = key then some (some evt.originalDst) else none
  | .close evt => if evt.intentKey = key then some none else none

/-- What the events say of a key, after all of them. -/
def told (events : List Event) (key : FlowKey) : Option IntentDst :=
  History.lastValue (Event.tells key) none events

theorem told_concat (events : List Event) (ev : Event) (key : FlowKey) :
    told (events ++ [ev]) key = (ev.tells key).getD (told events key) :=
  History.lastValue_concat none events ev

namespace Agent

/-- An entry of the cache is what was last said of its key. -/
theorem told_of_get {a : Agent} (hempty : ∀ k, a.intentCache.get k = none) {events : List Event}
    {key : FlowKey} {d : IntentDst}
    (h : (events.foldl Agent.handle a).intentCache.get key = some d) :
    told events key = some d := by
  induction events using List.reverseRecOn generalizing d with
  | nil =>
    rw [List.foldl_nil, hempty] at h
    cases h
  | append_singleton events ev ih =>
    rw [List.foldl_append, List.foldl_cons, List.foldl_nil] at h
    rw [told_concat]
    cases ev with
    | connect evt => exact ih h
    | establish evt =>
      rw [Agent.handle, Agent.handleEstablish] at h
      by_cases hdnat : evt.wasDNATed = true
      · rw [if_pos hdnat] at h
        dsimp only at h
        by_cases hkey : evt.intentKey = key
        · have htells : Event.tells key (.establish evt) = some (some evt.originalDst) :=
            if_pos ⟨hdnat, hkey⟩
          rw [hkey, IntentCache.get_put_self] at h
          rw [htells]
          exact h
        · have htells : Event.tells key (.establish evt) = none := if_neg fun hboth => hkey hboth.2
          rw [htells]
          exact ih ((IntentCache.get_put h).resolve_left fun hself => hkey hself.1.symm)
      · have htells : Event.tells key (.establish evt) = none := if_neg fun hboth => hdnat hboth.1
        rw [if_neg hdnat] at h
        rw [htells]
        exact ih h
    | close evt =>
      rw [Agent.handle, Agent.handleClose, IntentCache.get_delete] at h
      by_cases hkey : key = evt.intentKey
      · rw [if_pos hkey] at h
        cases h
      · have htells : Event.tells key (.close evt) = none := if_neg fun heq => hkey heq.symm
        rw [if_neg hkey] at h
        rw [htells]
        exact ih h

/-- **While a generation has room** the cache is what was last said of each key. -/
theorem get_eq_told {a : Agent} (hempty : ∀ k, a.intentCache.get k = none)
    (hnone : IntentCache.size a.intentCache.cur = 0) {events : List Event}
    (hroom : (establishEvents events).length < a.intentCache.max) :
    let a' := events.foldl Agent.handle a
    IntentCache.size a'.intentCache.cur ≤ (establishEvents events).length ∧
      a'.intentCache.max = a.intentCache.max ∧
      ∀ key, a'.intentCache.get key = told events key := by
  induction events using List.reverseRecOn with
  | nil => exact ⟨hnone.le, rfl, hempty⟩
  | append_singleton events ev ih =>
    rw [DnatWatch.establishEvents_append, List.length_append] at hroom ⊢
    obtain ⟨hsize, hmax, hget⟩ := ih (by omega)
    dsimp only at hsize hmax hget ⊢
    rw [List.foldl_append, List.foldl_cons, List.foldl_nil]
    simp only [told_concat]
    cases ev with
    | connect evt => exact ⟨hsize, hmax, hget⟩
    | establish evt =>
      have hone : (establishEvents [.establish evt]).length = 1 := rfl
      rw [hone] at hroom ⊢
      have hcur : IntentCache.size (events.foldl Agent.handle a).intentCache.cur
          < (events.foldl Agent.handle a).intentCache.max := by omega
      rw [Agent.handle]
      refine ⟨?_, ?_, fun key => ?_⟩
      · rw [Agent.handleEstablish]
        split_ifs
        · have := IntentCache.size_put_of_room hcur evt.intentKey evt.originalDst
          dsimp only
          omega
        · omega
      · rw [Agent.handleEstablish]
        split_ifs
        · exact (IntentCache.max_put _ _ _).trans hmax
        · exact hmax
      · rw [JoinWatch.get_handleEstablish hcur, hget, Event.tells]
        by_cases hkey : key = evt.intentKey
        · cases hdnat : evt.wasDNATed with
          | true => simp [hkey]
          | false => simp
        · simp [hkey, Ne.symm hkey]
    | close evt =>
      rw [Agent.handle, Agent.handleClose]
      refine ⟨?_, hmax, fun key => ?_⟩
      · have := IntentCache.size_delete (events.foldl Agent.handle a).intentCache evt.intentKey
        dsimp only
        omega
      · dsimp only
        rw [IntentCache.get_delete, hget, Event.tells]
        by_cases hkey : key = evt.intentKey
        · simp [hkey]
        · simp [hkey, Ne.symm hkey]

end Agent

/-! ### The node and the reader of its ring -/

/-- The node, the number of events `readEvents` has handed to the agent, and the agent. -/
structure IntentNode (n : ℕ) where
  node : NodeAgent n
  handled : ℕ
  agent : Agent

inductive IntentStep (n : ℕ)
  | node (e : NodeStep n)
  | readEvent

def IntentStep.hook {n : ℕ} (env : HookEnv n) (h : Hook) : IntentStep n :=
  .node (.kernel (.hook env h))

/-- The key of an outgoing TCP connection that process `pid` has dialed. -/
def SockOps.flowKey (host : ByteOrder) (skops : SockOps) (pid : UInt32) : FlowKey :=
  { srcIP := skops.localIP4
    dstIP := skops.remoteIP4
    srcPort := skops.localPort.toUInt16
    dstPort := (host.htonl skops.remotePort).toUInt16
    pid := pid
    protocol := ipprotoTCP
    direction := 0 }

namespace IntentNode

variable (host : ByteOrder) (l : Loader) {n : ℕ}

def kernel (s : IntentNode n) : Kernel n := s.node.plane.kernel

/-- One step of the node, or `readEvents` hands over the next event, if there is one. -/
def step (s : IntentNode n) : IntentStep n → IntentNode n
  | .node e => { s with node := s.node.step host l e }
  | .readEvent =>
    match s.kernel.events[s.handled]? with
    | none => s
    | some evt => { s with handled := s.handled + 1, agent := s.agent.handle evt }

/-- The agent with an empty cache, when the loader's `Start` is done. -/
def start (boot : List (KernelStep n)) (max : ℤ) (hasInformer : Bool) : IntentNode n :=
  ⟨.start host l boot, 0, ⟨.new max, hasInformer, host⟩⟩

/-- The events that a step puts into the ring. -/
def kept (s : IntentNode n) : IntentStep n → List Event
  | .node e => s.node.kept host l e
  | .readEvent => []

/-- What `readEvents` has handed over. -/
def read (s : IntentNode n) : List Event := s.kernel.events.take s.handled

/-- A process dials `d`, what is kept of it stays until the socket is established under
`key`, and event number `i` of the ring reports that. -/
inductive Dialed (s : IntentNode n) (key : FlowKey) (d : IntentDst) (i : ℕ) :
    List (IntentStep n) → Prop
  | intro {before between after : List (IntentStep n)} {env env' : HookEnv n} {ctx : SockAddr}
      {skops : SockOps} {evt : EstablishEvent} (hsocket : skops.cookie = ctx.cookie)
      (hactive : skops.op = .activeEstablished) (hdst : ctx.destination host = (d.ip, d.port))
      (hkey : skops.flowKey host env.pid = key)
      (hstays : ∀ p, p <+: between →
        ((before ++ .hook env (.connect4 ctx) :: p).foldl (step host l)
            s).kernel.cookieToOriginalDst.lookup ctx.cookie
          = some (Kernel.connectDst4 host env ctx))
      (hnumber : ((before ++ .hook env (.connect4 ctx) :: between).foldl (step host l)
        s).kernel.events.length = i)
      (hreport : ((before ++ .hook env (.connect4 ctx) :: between).foldl (step host l) s).kept
        host l (.hook env' (.sockops skops)) = [.establish evt]) :
      Dialed s key d i ((before ++ .hook env (.connect4 ctx) :: between)
        ++ .hook env' (.sockops skops) :: after)

/-- The last that was read of a key is that `d` was dialed. -/
def LastDialed (s : IntentNode n) (run : List (IntentStep n)) (key : FlowKey) (d : IntentDst) :
    Prop :=
  let s' := run.foldl (step host l) s
  ∃ i < s'.handled, Dialed host l s key d i run ∧
    ∀ ev ∈ s'.read.drop (i + 1), ev.tells key = none

variable {host l}

/-! ### The ring and its reader -/

theorem events_step (s : IntentNode n) (e : IntentStep n) :
    (s.step host l e).kernel.events = s.kernel.events ++ s.kept host l e := by
  cases e with
  | node e => exact s.node.events_step host l e
  | readEvent =>
    rw [step, kept, List.append_nil]
    cases s.kernel.events[s.handled]? <;> rfl

theorem events_run (s : IntentNode n) (run : List (IntentStep n)) :
    (run.foldl (step host l) s).kernel.events
      = s.kernel.events ++ History.collect (step host l) (kept host l) s run :=
  History.foldl_collect (fun s => s.kernel.events) events_step s run

theorem length_kept_le (s : IntentNode n) (e : IntentStep n) : (s.kept host l e).length ≤ 1 := by
  cases e with
  | node e =>
    show (s.node.kept host l e).length ≤ 1
    rw [NodeAgent.kept.eq_def]
    split
    · split_ifs
      · exact Option.length_toList_le
      · exact Nat.zero_le 1
    · exact Nat.zero_le 1
  | readEvent => exact Nat.zero_le 1

theorem kernel_hook (s : IntentNode n) (env : HookEnv n) (h : Hook) :
    (s.step host l (.hook env h)).kernel
      = if l.runs h then h.run host env s.kernel else s.kernel := by
  show (s.node.kernelStep host l (.hook env h)).plane.kernel = _
  rw [NodeAgent.kernelStep]
  split_ifs <;> rfl

/-- The reader is within the ring, and the agent has handled what was read. -/
structure Reads (a : Agent) (s : IntentNode n) : Prop where
  handled_le : s.handled ≤ s.kernel.events.length
  agent : s.agent = s.read.foldl Agent.handle a

theorem Reads.step {a : Agent} {s : IntentNode n} (h : s.Reads a) (e : IntentStep n) :
    (s.step host l e).Reads a := by
  cases e with
  | node e =>
    have hevents : (s.step host l (.node e)).kernel.events
        = s.kernel.events ++ s.kept host l (.node e) := events_step s (.node e)
    refine ⟨?_, ?_⟩
    · rw [hevents, List.length_append]
      exact Nat.le_add_right_of_le h.handled_le
    · rw [read, hevents]
      show s.agent = ((s.kernel.events ++ _).take s.handled).foldl Agent.handle a
      rw [List.take_append_of_le_length h.handled_le]
      exact h.agent
  | readEvent =>
    rw [IntentNode.step]
    cases hnext : s.kernel.events[s.handled]? with
    | none => exact h
    | some evt =>
      obtain ⟨hlt, -⟩ := List.getElem?_eq_some_iff.mp hnext
      refine ⟨hlt, ?_⟩
      show s.agent.handle evt = (s.kernel.events.take (s.handled + 1)).foldl Agent.handle a
      rw [List.take_add_one, hnext, Option.toList_some, List.foldl_append, h.agent]
      rfl

theorem reads_run {a : Agent} {s : IntentNode n} (h : s.Reads a) (run : List (IntentStep n)) :
    (run.foldl (step host l) s).Reads a := by
  induction run generalizing s with
  | nil => exact h
  | cons e run ih => exact ih (h.step e)

theorem reads_start (boot : List (KernelStep n)) (max : ℤ) (hasInformer : Bool) :
    (start host l boot max hasInformer).Reads ⟨.new max, hasInformer, host⟩ :=
  ⟨Nat.zero_le _, rfl⟩

/-! ### What was dialed -/

/-- An entry of `cookie_to_original_dst` with an IPv4 address was there, or `connect4` has
just made it. -/
theorem originalDst_run {k : Kernel n} {env : HookEnv n} {h : Hook} {cookie : UInt64}
    {orig : OriginalDst} (hip : orig.ip ≠ 0)
    (hentry : (h.run host env k).cookieToOriginalDst.lookup cookie = some orig) :
    k.cookieToOriginalDst.lookup cookie = some orig ∨
      ∃ ctx, h = .connect4 ctx ∧ ctx.cookie = cookie ∧ orig = Kernel.connectDst4 host env ctx := by
  have hstep : TablesStep host k env h (h.run host env k).tables := Hook.tablesStep k env h
  have hlookup : (h.run host env k).tables.cookieToOriginalDst.lookup cookie = some orig := hentry
  revert hlookup
  generalize (h.run host env k).tables = t at hstep
  intro hlookup
  cases hstep with
  | idle hidle => exact Or.inl hlookup
  | count hcnt hconn hflow hamount => exact Or.inl hlookup
  | connect4 ctx evt hproto =>
    rw [SocketTables.cookieToOriginalDst_emit] at hlookup
    rcases FinMap.lookup_insert_eq_some.mp hlookup with ⟨hcookie, hdst⟩ | ⟨-, hlookup⟩
    · exact Or.inr ⟨ctx, rfl, hcookie.symm, hdst.symm⟩
    · exact Or.inl hlookup
  | connect6 ctx evt =>
    rw [SocketTables.cookieToOriginalDst_emit] at hlookup
    rcases FinMap.lookup_insert_eq_some.mp hlookup with ⟨-, hdst⟩ | ⟨-, hlookup⟩
    · -- an IPv6 destination has no IPv4 address
      rw [← hdst] at hip
      exact absurd rfl hip
    · exact Or.inl hlookup
  | establish skops direction evt hopen =>
    rw [SocketTables.cookieToOriginalDst_emit, SocketTables.establish] at hlookup
    dsimp only at hlookup
    split_ifs at hlookup
    · exact Or.inl (FinMap.lookup_erase_eq_some.mp hlookup).2
    · exact Or.inl hlookup
  | close skops conn hends hopen hconn =>
    dsimp only at hlookup
    rw [SocketTables.cookieToOriginalDst_emit] at hlookup
    exact Or.inl hlookup
  | release cookie' protocol => exact Or.inl (FinMap.lookup_erase_eq_some.mp hlookup).2

/-- The same of a step of the node. -/
theorem originalDst_step {s : IntentNode n} {e : IntentStep n} {cookie : UInt64}
    {orig : OriginalDst} (hip : orig.ip ≠ 0)
    (hentry : (s.step host l e).kernel.cookieToOriginalDst.lookup cookie = some orig) :
    s.kernel.cookieToOriginalDst.lookup cookie = some orig ∨
      ∃ env ctx, e = .hook env (.connect4 ctx) ∧ ctx.cookie = cookie ∧
        orig = Kernel.connectDst4 host env ctx := by
  cases e with
  | node e =>
    cases e with
    | kernel e =>
      cases e with
      | hook env h =>
        have hrun : (s.step host l (.node (.kernel (.hook env h)))).kernel
            = if l.runs h then h.run host env s.kernel else s.kernel := s.kernel_hook env h
        rw [hrun] at hentry
        split_ifs at hentry
        · rcases originalDst_run hip hentry with hentry | ⟨ctx, rfl, hctx⟩
          · exact Or.inl hentry
          · exact Or.inr ⟨env, ctx, rfl, hctx⟩
        · exact Or.inl hentry
      | egress env send frame =>
        have hframe : (s.step host l (.node (.kernel (.egress env send frame)))).kernel.tables
            = s.kernel.tables := by
          show (s.node.kernelStep host l (.egress env send frame)).plane.kernel.tables = _
          rw [NodeAgent.kernelStep]
          split_ifs
          · exact s.node.plane.tables_quicEgress host env frame
          · rfl
        have horig := congrArg SocketTables.cookieToOriginalDst hframe
        exact Or.inl ((congrArg (fun m => m.lookup cookie) horig).symm.trans hentry)
      | evictConnection cookie' => exact Or.inl hentry
      | evictOriginalDst cookie' => exact Or.inl (FinMap.lookup_erase_eq_some.mp hentry).2
    | takeFlow key =>
      have htake : (s.step host l (.node (.takeFlow key))).kernel.cookieToOriginalDst
          = s.kernel.cookieToOriginalDst := by
        show (s.node.takeFlow key).plane.kernel.cookieToOriginalDst = _
        rw [NodeAgent.takeFlow]
        cases s.node.plane.kernel.flowAggregates.lookup key <;> rfl
      exact Or.inl (htake ▸ hentry)
    | takeQuic key =>
      have htake : (s.step host l (.node (.takeQuic key))).kernel = s.kernel :=
        s.node.kernel_takeQuic key
      exact Or.inl (htake ▸ hentry)
    | deliver => exact Or.inl hentry
    | setEnabled enabled => exact Or.inl hentry
  | readEvent =>
    rw [step] at hentry
    cases hnext : s.kernel.events[s.handled]? with
    | none =>
      rw [hnext] at hentry
      exact Or.inl hentry
    | some evt =>
      rw [hnext] at hentry
      exact Or.inl hentry

/-- **An entry of `cookie_to_original_dst`** that a run has made, with an IPv4 address, is
what a process dialed, and has stayed since. -/
theorem exists_dial {s : IntentNode n} {run : List (IntentStep n)} {cookie : UInt64}
    {orig : OriginalDst} (hip : orig.ip ≠ 0)
    (hstart : s.kernel.cookieToOriginalDst.lookup cookie = none)
    (hentry : (run.foldl (step host l) s).kernel.cookieToOriginalDst.lookup cookie = some orig) :
    ∃ before env ctx between, run = before ++ .hook env (.connect4 ctx) :: between ∧
      ctx.cookie = cookie ∧ orig = Kernel.connectDst4 host env ctx ∧
      ∀ p, p <+: between →
        ((before ++ .hook env (.connect4 ctx) :: p).foldl (step host l)
          s).kernel.cookieToOriginalDst.lookup cookie = some orig := by
  let P : IntentNode n → Prop := fun s => s.kernel.cookieToOriginalDst.lookup cookie = some orig
  have hnot : ¬P s := fun h => Option.some_ne_none orig (h.symm.trans hstart)
  obtain ⟨before, e, between, rfl, hnew, hstays⟩ := History.exists_since hnot hentry
  have hmade : P ((before.foldl (step host l) s).step host l e) := by
    have := hstays [] (List.nil_prefix)
    rwa [List.foldl_append] at this
  obtain ⟨env, ctx, rfl, hcookie, hdst⟩ := (originalDst_step hip hmade).resolve_left hnew
  exact ⟨before, env, ctx, between, rfl, hcookie, hdst, hstays⟩

/-! ### What was reported -/

/-- An establish event that a hook sends is of the establishment it is called for. -/
theorem establish_of_events {k : Kernel n} {env : HookEnv n} {h : Hook} {evt : EstablishEvent}
    (hevents : (h.run host env k).events = k.events ++ [.establish evt]) :
    ∃ skops direction, h = .sockops skops ∧ k.establishes env skops = some direction ∧
      evt = k.establishedEvent host env skops direction := by
  by_cases hopen : ∃ skops direction, h = .sockops skops ∧
      k.establishes env skops = some direction
  · obtain ⟨skops, direction, rfl, hopen⟩ := hopen
    have htables := k.tables_sockops host env skops
    rw [hopen] at htables
    have hsent := (congrArg SocketTables.events htables).trans
      (k.events_handleEstablished host env skops direction)
    have heq := hevents.symm.trans hsent
    split_ifs at heq
    · exact ⟨skops, direction, rfl, hopen,
        Event.establish.inj (List.singleton_inj.mp (List.append_cancel_left heq))⟩
    · exact absurd (congrArg List.length heq) (by simp)
  · -- no other hook sends an establish event
    have hnone : ∀ skops, h = .sockops skops → k.establishes env skops = none := by
      intro skops heq
      by_contra hsome
      obtain ⟨direction, hdirection⟩ := Option.ne_none_iff_exists'.mp hsome
      exact hopen ⟨skops, direction, heq, hdirection⟩
    have hstep : TablesStep host k env h (h.run host env k).tables := Hook.tablesStep k env h
    have hsame := DnatWatch.establishEvents_of_none hnone hstep
    have hnew := congrArg establishEvents hevents
    rw [DnatWatch.establishEvents_append] at hnew
    exact absurd (congrArg List.length (hsame.symm.trans hnew)) (by simp [establishEvents])

/-- A step that reports an establishment is the hook that is called for it. -/
theorem establish_of_kept {s : IntentNode n} {e : IntentStep n} {evt : EstablishEvent}
    (h : s.kept host l e = [.establish evt]) :
    ∃ env skops direction, e = .hook env (.sockops skops) ∧
      s.kernel.establishes env skops = some direction ∧
      evt = s.kernel.establishedEvent host env skops direction := by
  cases e with
  | readEvent => cases h
  | node e =>
    cases e with
    | kernel e =>
      cases e with
      | hook env hk =>
        have hevents : (s.step host l (.hook env hk)).kernel.events
            = s.kernel.events ++ [.establish evt] :=
          (s.events_step _).trans (congrArg (s.kernel.events ++ ·) h)
        rw [kernel_hook] at hevents
        split_ifs at hevents
        · obtain ⟨skops, direction, rfl, hopen⟩ := establish_of_events hevents
          exact ⟨env, skops, direction, rfl, hopen⟩
        · exact absurd (congrArg List.length hevents) (by simp)
      | _ => cases h
    | _ => cases h

/-- The event of an outgoing establishment, in terms of the entry it picks up. -/
theorem establishedEvent_of_entry (host : ByteOrder) (env : HookEnv n) {k : Kernel n}
    {skops : SockOps} {orig : OriginalDst}
    (horig : k.cookieToOriginalDst.lookup skops.cookie = some orig) :
    (k.establishedEvent host env skops 0).originalDst = ⟨orig.ip, orig.port⟩ ∧
      (k.establishedEvent host env skops 0).intentKey = skops.flowKey host orig.pid := by
  have hof : k.originalDstOf skops.cookie 0 = orig := by
    rw [Kernel.originalDstOf, if_pos rfl, horig, Option.getD_some]
  constructor
  · rw [EstablishEvent.originalDst]
    show IntentDst.mk (k.originalDstOf skops.cookie 0).ip (k.originalDstOf skops.cookie 0).port = _
    rw [hof]
  · rw [EstablishEvent.intentKey, SockOps.flowKey]
    show FlowKey.mk _ _ _ _ (k.originalDstOf skops.cookie 0).pid _ _ = _
    rw [hof]
    rfl

/-- **An event in the ring** that counts as DNATed is of a socket whose process dialed the
address that it carries. -/
theorem exists_report {s : IntentNode n} {run : List (IntentStep n)} {evt : EstablishEvent}
    {l₁ l₂ : List Event}
    (hempty : ∀ cookie, s.kernel.cookieToOriginalDst.lookup cookie = none)
    (hnone : s.kernel.events = [])
    (hevents : (run.foldl (step host l) s).kernel.events = l₁ ++ .establish evt :: l₂)
    (hdnat : evt.wasDNATed = true) :
    Dialed host l s evt.intentKey evt.originalDst l₁.length run := by
  have hring : ∀ run, (run.foldl (step host l) s).kernel.events
      = History.collect (step host l) (kept host l) s run := by
    intro run
    rw [events_run, hnone, List.nil_append]
  rw [hring] at hevents
  obtain ⟨upto, e, after, rfl, hbefore, hkept⟩ := History.exists_of_collect length_kept_le hevents
  rw [← hring] at hbefore
  obtain ⟨env', skops, direction, rfl, hopen, rfl⟩ := establish_of_kept hkept
  rcases ((upto.foldl (step host l) s).kernel.of_establishes env' hopen).2 with
    ⟨hactive, rfl⟩ | ⟨-, rfl⟩
  · -- an outgoing connection has an entry, with the address that its process dialed
    obtain ⟨orig, horig, hip⟩ := (DnatWatch.wasDNATed_establishedEvent host env').mp hdnat
    obtain ⟨before, env, ctx, between, rfl, hcookie, rfl, hstays⟩ :=
      exists_dial hip (hempty skops.cookie) horig
    obtain ⟨hdst, hkey⟩ := establishedEvent_of_entry host env' horig
    rw [hdst, hkey]
    exact .intro hcookie.symm hactive rfl rfl (hcookie ▸ hstays) (congrArg List.length hbefore)
      hkept
  · -- an accepted connection carries none
    exact absurd hdnat (by simp [EstablishEvent.wasDNATed, Kernel.establishedEvent,
      Kernel.originalDstOf])

/-- What is reported as dialed is in the ring as an event that tells so. -/
theorem Dialed.tells {s : IntentNode n} {run : List (IntentStep n)} {key : FlowKey}
    {d : IntentDst} {i : ℕ} (hd : d.ip ≠ 0) (h : Dialed host l s key d i run) :
    ∃ l₁ ev l₂, (run.foldl (step host l) s).kernel.events = l₁ ++ ev :: l₂ ∧ l₁.length = i ∧
      ev.tells key = some (some d) := by
  obtain ⟨hsocket, hactive, hdst, hkey, hstays, hnumber, hreport⟩ := h
  rename_i before between after env env' ctx skops evt
  obtain ⟨env'', skops', direction, hhook, hopen, rfl⟩ := establish_of_kept hreport
  cases hhook
  -- the establishment finds what the process dialed
  rcases (Kernel.of_establishes _ env' hopen).2 with ⟨-, rfl⟩ | ⟨hpassive, -⟩
  · have horig := hsocket ▸ hstays between (List.prefix_refl between)
    obtain ⟨horiginal, hintent⟩ := establishedEvent_of_entry host env' horig
    set s₁ := List.foldl (step host l) s (before ++ .hook env (.connect4 ctx) :: between)
    have hto : (s₁.kernel.establishedEvent host env' skops 0).originalDst = d :=
      horiginal.trans (congrArg (fun dst : UInt32 × UInt16 => IntentDst.mk dst.1 dst.2) hdst)
    have hdnat : (s₁.kernel.establishedEvent host env' skops 0).wasDNATed = true := by
      refine bne_iff_ne.mpr ?_
      show (s₁.kernel.establishedEvent host env' skops 0).originalDst.ip ≠ 0
      rw [hto]
      exact hd
    refine ⟨s₁.kernel.events, .establish (s₁.kernel.establishedEvent host env' skops 0),
      History.collect (step host l) (kept host l)
        (s₁.step host l (.hook env' (.sockops skops))) after, ?_, hnumber, ?_⟩
    · rw [List.foldl_append, List.foldl_cons, events_run, events_step, hreport,
        List.append_assoc, List.singleton_append]
    · refine (if_pos ⟨hdnat, hintent.trans hkey⟩).trans ?_
      rw [hto]
  · rw [hactive] at hpassive
    cases hpassive

/-! ### The join -/

theorem joinIntent_eq_some {a : Agent} {f : FlowSnapshot} {sidecarProcess : Bool}
    {d : IntentDst} : a.joinIntent f sidecarProcess = some d ↔
      a.enriches f sidecarProcess = true ∧ a.intentCache.get f.flowKey = some d ∧ d.ip ≠ 0 := by
  rw [Agent.joinIntent]
  by_cases henriches : a.enriches f sidecarProcess = true
  · rw [if_pos henriches]
    cases hget : a.intentCache.get f.flowKey with
    | none => simp
    | some d' =>
      dsimp only
      by_cases hd' : d'.ip ≠ 0
      · rw [if_pos hd', Option.some_inj]
        exact ⟨fun h => ⟨henriches, h, h ▸ hd'⟩, fun h => h.2.1⟩
      · rw [if_neg hd']
        constructor
        · intro h
          cases h
        · intro h
          rw [Option.some.inj h.2.1] at hd'
          exact absurd h.2.2 hd'
  · rw [if_neg henriches]
    constructor
    · intro h
      cases h
    · intro h
      exact absurd h.1 henriches

/-- What was last said of a key is what was last dialed. -/
theorem told_read_iff {boot : List (KernelStep n)} {max : ℤ} {hasInformer : Bool}
    {run : List (IntentStep n)} {key : FlowKey} {d : IntentDst} (hd : d.ip ≠ 0) :
    told (run.foldl (step host l) (start host l boot max hasInformer)).read key = some d ↔
      LastDialed host l (start host l boot max hasInformer) run key d := by
  set s := start host l boot max hasInformer with hs
  have hreads : (run.foldl (step host l) s).Reads ⟨.new max, hasInformer, host⟩ :=
    reads_run (reads_start boot max hasInformer) run
  set s' := run.foldl (step host l) s with hs'
  have hstart : s.kernel = .init l.agentConfig :=
    congrArg (fun node : NodeAgent n => node.plane.kernel) (NodeAgent.start_eq boot)
  constructor
  · intro htold
    obtain ⟨l₁, ev, l₂, hread, htells, hlater⟩ :=
      History.exists_last_setting htold (Option.some_ne_none d)
    have hlength : l₁.length + (l₂.length + 1) = s'.handled := by
      have := congrArg List.length hread
      rw [read, List.length_take, min_eq_left hreads.handled_le, List.length_append,
        List.length_cons] at this
      exact this.symm
    refine ⟨l₁.length, show l₁.length < s'.handled by omega, ?_, ?_⟩
    · -- such an event is an establish event that counts as DNATed
      have hevents : s'.kernel.events = l₁ ++ ev :: (l₂ ++ s'.kernel.events.drop s'.handled) := by
        conv_lhs => rw [← List.take_append_drop s'.handled s'.kernel.events]
        rw [show s'.kernel.events.take s'.handled = l₁ ++ ev :: l₂ from hread, List.append_assoc,
          List.cons_append]
      cases ev with
      | connect evt => cases htells
      | close evt =>
        rw [Event.tells] at htells
        split_ifs at htells
        cases htells
      | establish evt =>
        rw [Event.tells] at htells
        split_ifs at htells with hboth
        obtain ⟨hdnat, rfl⟩ := hboth
        obtain rfl := Option.some.inj (Option.some.inj htells)
        refine exists_report ?_ ?_ hevents hdnat
        · intro cookie
          rw [hstart]
          rfl
        · rw [hstart]
          rfl
    · intro ev' hev'
      rw [← hs', hread, List.drop_length_add_append] at hev'
      exact hlater ev' hev'
  · rintro ⟨i, hi, hdialed, hlater⟩
    obtain ⟨l₁, ev, l₂, hevents, rfl, htells⟩ := hdialed.tells hd
    rw [← hs'] at hi hevents hlater
    obtain ⟨m, hm⟩ : ∃ m, s'.handled = l₁.length + (m + 1) := ⟨s'.handled - l₁.length - 1, by omega⟩
    have hread : s'.read = l₁ ++ ev :: l₂.take m := by
      rw [read, hevents, hm, List.take_length_add_append, List.take_succ_cons]
    rw [hread, List.drop_length_add_append] at hlater
    rw [hread]
    exact History.lastValue_of_last htells hlater

theorem agent_run (boot : List (KernelStep n)) (max : ℤ) (hasInformer : Bool)
    (run : List (IntentStep n)) :
    let s := run.foldl (step host l) (start host l boot max hasInformer)
    s.agent = s.read.foldl Agent.handle ⟨.new max, hasInformer, host⟩ :=
  (reads_run (reads_start boot max hasInformer) run).agent

/-- **A joined intent was dialed.**  In every run of the node with its reader, what
`handlePoll` joins to a flow is an address that the flow's process dialed; the socket was
then established with the flow's addresses and ports while the entry stayed, the ring's
event of that has been read, and nothing read after it speaks of the flow.  As long as a
generation of the cache has room for the establish events that were read, whatever was last
dialed so is joined. -/
theorem intent_origin (boot : List (KernelStep n)) (max : ℤ) (hasInformer : Bool)
    (run : List (IntentStep n)) (f : FlowSnapshot) (sidecarProcess : Bool) (d : IntentDst) :
    let start := start host l boot max hasInformer
    let s := run.foldl (step host l) start
    (s.agent.joinIntent f sidecarProcess = some d →
      s.agent.enriches f sidecarProcess = true ∧ d.ip ≠ 0 ∧
        LastDialed host l start run f.flowKey d) ∧
    ((establishEvents s.read).length < (IntentCache.new max).max →
      s.agent.enriches f sidecarProcess = true → d.ip ≠ 0 →
        LastDialed host l start run f.flowKey d →
          s.agent.joinIntent f sidecarProcess = some d) := by
  intro start s
  let a : Agent := ⟨.new max, hasInformer, host⟩
  have hagent : s.agent = s.read.foldl Agent.handle a := agent_run boot max hasInformer run
  have hempty : ∀ key, a.intentCache.get key = none := fun _ => rfl
  constructor
  · intro hjoin
    obtain ⟨henriches, hget, hd⟩ := joinIntent_eq_some.mp hjoin
    rw [hagent] at hget
    exact ⟨henriches, hd, (told_read_iff hd).mp (Agent.told_of_get hempty hget)⟩
  · intro hroom henriches hd hlast
    obtain ⟨-, -, hget⟩ := Agent.get_eq_told hempty rfl hroom
    refine joinIntent_eq_some.mpr ⟨henriches, ?_, hd⟩
    rw [hagent, hget]
    exact (told_read_iff hd).mpr hlast

/-- A host on which connections are captured. -/
def dialHost : Loader :=
  .attach ⟨true, true, 1⟩ ⟨true, true, true, true, true, true, true⟩

/-- The connection that a process makes to 10.0.0.2 when it dials 10.96.0.1. -/
def dialedKey : FlowKey := ⟨0x0100000a, 0x0200000a, 40000, 443, 0, ipprotoTCP, 0⟩

/-- It dials, the connection is established, and the events of both are read. -/
def dialedRun : List (IntentStep 1) :=
  [.hook Capture.onOneCPU (.connect4
      { cookie := 9, protocol := ipprotoTCP, userIP4 := 0x0100600a, userPort := 0xbb01 }),
    .hook Capture.onOneCPU (.sockops
      { cookie := 9
        op := .activeEstablished
        family := afInet
        localIP4 := 0x0100000a
        remoteIP4 := 0x0200000a
        localPort := 40000
        remotePort := 0xbb010000 }),
    .readEvent, .readEvent]

/-- The dialed address is joined. -/
theorem intent_origin_dial :
    let s := dialedRun.foldl (step .little dialHost) (start .little dialHost [] 0 true)
    s.agent.joinIntent (.ofKey dialedKey) false = some ⟨0x0100600a, 443⟩ ∧
      LastDialed .little dialHost (start .little dialHost [] 0 true) dialedRun dialedKey
        ⟨0x0100600a, 443⟩ := by
  intro s
  have hjoin : s.agent.joinIntent (.ofKey dialedKey) false = some ⟨0x0100600a, 443⟩ := by decide
  have horigin := (intent_origin [] 0 true dialedRun (.ofKey dialedKey) false
    ⟨0x0100600a, 443⟩).1 hjoin
  exact ⟨hjoin, horigin.2.2⟩

end IntentNode
