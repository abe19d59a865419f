/-
The service-intent join (`pkg/agent/agent.go`).

The agent puts the pre-DNAT destination of an established connection into the
intent cache, deletes it when the connection closes, and looks it up for every
flow snapshot a poll delivers.  The three streams of events are independent.
A poll batch is a run of snapshots: the cache locks one lookup at a time, so
other events may come between two snapshots of a batch.

`JoinWatch` keeps, beside the agent, which connections it was told of.  What the
network promises of them is `Exclusive`: the connections of one key follow one
another, each with all of its events.

* `JoinWatch.Inv` — an open connection's entry is its destination, a closed one
  has none;
* `JoinWatch.join_correct_iff` — every snapshot of a known connection is joined
  exactly when none comes after the connection's close event;
* `JoinWatch.close_before_poll` — a run where one does.
-/
import Tollwing.History
import Tollwing.IntentCache
import Tollwing.NetAddr
import Tollwing.Poller

/-! ### The agent -/

namespace Enricher

/-- `KnownSidecarPorts`. -/
def knownSidecarPorts : List UInt16 := [15001, 15006, 15090, 15021, 4143, 4191]

/-- `IsSidecarPort`. -/
def isSidecarPort (port : UInt16) : Bool := knownSidecarPorts.contains port

/-- `IsLoopback`: both endpoints are loopback addresses. -/
def isLoopback (host : ByteOrder) (srcIP dstIP : UInt32) : Bool :=
  (Addr.v4 (host.putUint32 srcIP)).isLoopback && (Addr.v4 (host.putUint32 dstIP)).isLoopback

end Enricher

/-- `WasDNATed`. -/
def EstablishEvent.wasDNATed (evt : EstablishEvent) : Bool := evt.originalDstIP != 0

/-- The pre-DNAT destination of an establish event. -/
def EstablishEvent.originalDst (evt : EstablishEvent) : IntentDst :=
  ⟨evt.originalDstIP, evt.originalDstPort⟩

/-- The key of an establish event, as `handleEstablish` builds it. -/
def EstablishEvent.intentKey (evt : EstablishEvent) : FlowKey :=
  { srcIP := evt.srcIP
    dstIP := evt.dstIP
    srcPort := evt.srcPort
    dstPort := evt.dstPort
    pid := evt.pid
    protocol := evt.protocol
    direction := evt.direction }

/-- The key of a close event, as `handleClose` builds it. -/
def CloseEvent.intentKey (evt : CloseEvent) : FlowKey :=
  { srcIP := evt.srcIP
    dstIP := evt.dstIP
    srcPort := evt.srcPort
    dstPort := evt.dstPort
    pid := evt.pid
    protocol := evt.protocol
    direction := evt.direction }

/-- What the join reads of the agent. -/
structure Agent where
  intentCache : IntentCache
  hasInformer : Bool
  host : ByteOrder

namespace Agent

/-- The cache part of `handleEstablish`. -/
def handleEstablish (a : Agent) (evt : EstablishEvent) : Agent :=
  if evt.wasDNATed then
    { a with intentCache := a.intentCache.put evt.intentKey evt.originalDst }
  else a

/-- The cache part of `handleClose`. -/
def handleClose (a : Agent) (evt : CloseEvent) : Agent :=
  { a with intentCache := a.intentCache.delete evt.intentKey }

/-- The sidecar test of `handlePoll`, given what the detector says of the process. -/
def isSidecar (a : Agent) (f : FlowSnapshot) (sidecarProcess : Bool) : Bool :=
  Enricher.isLoopback a.host f.srcIP f.dstIP || Enricher.isSidecarPort f.srcPort
    || Enricher.isSidecarPort f.dstPort || sidecarProcess

/-- Whether `handlePoll` enriches a flow with service identities at all. -/
def enriches (a : Agent) (f : FlowSnapshot) (sidecarProcess : Bool) : Bool :=
  a.hasInformer && !a.isSidecar f sidecarProcess

/-- The intent join of `handlePoll`: the pre-DNAT destination found for a flow. -/
def joinIntent (a : Agent) (f : FlowSnapshot) (sidecarProcess : Bool) : Option IntentDst :=
  if a.enriches f sidecarProcess then
    match a.intentCache.get f.flowKey with
    | some d => if d.ip ≠ 0 then some d else none
    | none => none
  else none

end Agent

/-! ### Connections and their events -/

/-- A connection: its socket and the key its events carry. -/
structure ConnID where
  cookie : UInt64
  key : FlowKey
  deriving DecidableEq

/-- An event the agent handles.  The cookie of a snapshot's connection is not in
the snapshot; the agent does not see it. -/
inductive AgentEvent
  | establish (evt : EstablishEvent)
  | close (evt : CloseEvent)
  | snapshot (cookie : UInt64) (f : FlowSnapshot) (sidecarProcess : Bool)

namespace AgentEvent

/-- The connection an event is about. -/
def conn : AgentEvent → ConnID
  | .establish evt => ⟨evt.cookie, evt.intentKey⟩
  | .close evt => ⟨evt.cookie, evt.intentKey⟩
  | .snapshot cookie f _ => ⟨cookie, f.flowKey⟩

def isEstablish : AgentEvent → Bool
  | .establish _ => true
  | _ => false

end AgentEvent

/-- The agent beside what it was told: what the connections with a handled
establish event dialed, which of them have closed since, all that appeared in
an event, and the last of each key. -/
structure JoinWatch where
  agent : Agent
  dialed : FinMap ConnID IntentDst
  closed : Finset ConnID
  seen : Finset ConnID
  holder : FinMap FlowKey ConnID

namespace JoinWatch

/-- An agent with an empty cache of `max` entries a generation. -/
def new (max : ℤ) (hasInformer : Bool) (host : ByteOrder) : JoinWatch :=
  ⟨⟨IntentCache.new max, hasInformer, host⟩, ∅, ∅, ∅, ∅⟩

/-- The connection of an event has appeared. -/
def appear (s : JoinWatch) (ev : AgentEvent) : JoinWatch :=
  { s with
    seen := insert ev.conn s.seen
    holder := s.holder.insert ev.conn.key ev.conn }

/-- One event. -/
def step (s : JoinWatch) (ev : AgentEvent) : JoinWatch :=
  match ev with
  | .establish evt =>
    { s.appear ev with
      agent := s.agent.handleEstablish evt
      dialed := s.dialed.insert ev.conn evt.originalDst
      closed := s.closed.erase ev.conn }
  | .close evt =>
    { s.appear ev with
      agent := s.agent.handleClose evt
      closed := insert ev.conn s.closed }
  | .snapshot _ _ _ => s.appear ev

/-- No two connections of one key are alive or undrained at once: an event is
about the connection that its key saw last, or about a new one. -/
def Exclusive (s : JoinWatch) (ev : AgentEvent) : Prop :=
  s.holder.lookup ev.conn.key = some ev.conn ∨ ev.conn ∉ s.seen

/-- A snapshot whose connection has dialed a destination before DNAT is joined
with that destination. -/
def JoinedCorrectly (s : JoinWatch) : AgentEvent → Prop
  | .snapshot cookie f sidecarProcess =>
    s.agent.enriches f sidecarProcess = true →
      ∀ d, s.dialed.lookup ⟨cookie, f.flowKey⟩ = some d → d.ip ≠ 0 →
        s.agent.joinIntent f sidecarProcess = some d
  | _ => True

/-- The close event of such a connection is handled after its last snapshot. -/
def NotClosed (s : JoinWatch) : AgentEvent → Prop
  | .snapshot cookie f sidecarProcess =>
    s.agent.enriches f sidecarProcess = true →
      ∀ d, s.dialed.lookup ⟨cookie, f.flowKey⟩ = some d → d.ip ≠ 0 →
        ⟨cookie, f.flowKey⟩ ∉ s.closed
  | _ => True

/-- The current generation has room for another entry. -/
def Room (s : JoinWatch) (_ : AgentEvent) : Prop :=
  IntentCache.size s.agent.intentCache.cur < s.agent.intentCache.max

/-! ### The cache and the connections -/

/-- What the cache has for the last connection of a key. -/
structure Inv (s : JoinWatch) : Prop where
  entry : ∀ id d, s.holder.lookup id.key = some id → s.dialed.lookup id = some d → d.ip ≠ 0 →
    s.agent.intentCache.get id.key = if id ∈ s.closed then none else some d
  dialed_seen : ∀ id, s.dialed.lookup id ≠ none → id ∈ s.seen

theorem inv_new (max : ℤ) (hasInformer : Bool) (host : ByteOrder) :
    (new max hasInformer host).Inv where
  entry _ _ hholder := nomatch hholder
  dialed_seen _ hdialed := absurd rfl hdialed

/-- An establish event leaves the entries of the other keys. -/
theorem get_handleEstablish {a : Agent}
    (hroom : IntentCache.size a.intentCache.cur < a.intentCache.max) (evt : EstablishEvent)
    (k : FlowKey) :
    (a.handleEstablish evt).intentCache.get k
      = if k = evt.intentKey ∧ evt.wasDNATed = true then some evt.originalDst
        else a.intentCache.get k := by
  rw [Agent.handleEstablish]
  by_cases hdnat : evt.wasDNATed = true
  · rw [if_pos hdnat]
    dsimp only
    rw [IntentCache.get_put_of_room hroom]
    simp only [hdnat, and_true]
  · rw [if_neg hdnat, if_neg fun h => hdnat h.2]

/-- The last connection of a key is the one that has just appeared, or the key is
another. -/
theorem holder_appear {s : JoinWatch} {ev : AgentEvent} {id : ConnID}
    (h : (s.appear ev).holder.lookup id.key = some id) :
    id = ev.conn ∨ (id ≠ ev.conn ∧ id.key ≠ ev.conn.key ∧ s.holder.lookup id.key = some id) := by
  have hlookup : (s.holder.insert ev.conn.key ev.conn).lookup id.key = some id := h
  rcases FinMap.lookup_insert_eq_some.mp hlookup with ⟨-, heq⟩ | ⟨hkey, hlookup⟩
  · exact Or.inl heq.symm
  · exact Or.inr ⟨fun heq => hkey (congrArg ConnID.key heq), hkey, hlookup⟩

/-- A connection the agent knows holds its key when it appears again. -/
theorem Inv.holder_of_dialed {s : JoinWatch} (h : s.Inv) {ev : AgentEvent} (hex : s.Exclusive ev)
    {d : IntentDst} (hdialed : s.dialed.lookup ev.conn = some d) :
    s.holder.lookup ev.conn.key = some ev.conn :=
  hex.resolve_right fun hunseen => hunseen (h.dialed_seen _ (by rw [hdialed]; nofun))

theorem Inv.step_establish {s : JoinWatch} (h : s.Inv) {evt : EstablishEvent}
    (hroom : s.Room (.establish evt)) : (s.step (.establish evt)).Inv where
  entry id d hholder hdialed hd := by
    show (s.agent.handleEstablish evt).intentCache.get id.key
      = if id ∈ s.closed.erase (AgentEvent.establish evt).conn then none else some d
    have hdialed : (s.dialed.insert (AgentEvent.establish evt).conn evt.originalDst).lookup id
        = some d := hdialed
    rw [get_handleEstablish hroom]
    rcases holder_appear hholder with rfl | ⟨hne, hkey, hold⟩
    · -- the established connection
      rw [Finmap.lookup_insert] at hdialed
      obtain rfl := Option.some.inj hdialed
      have hdnat : evt.wasDNATed = true := bne_iff_ne.mpr hd
      rw [if_pos ⟨rfl, hdnat⟩, if_neg (Finset.notMem_erase _ _)]
    · -- a connection of another key
      rw [Finmap.lookup_insert_of_ne _ hne] at hdialed
      rw [if_neg fun hboth => hkey hboth.1, h.entry id d hold hdialed hd]
      simp only [Finset.mem_erase, hne, ne_eq, not_false_eq_true, true_and]
  dialed_seen id hdialed := by
    have hdialed : (s.dialed.insert (AgentEvent.establish evt).conn evt.originalDst).lookup id
        ≠ none := hdialed
    refine Finset.mem_insert.mpr ?_
    by_cases hid : id = (AgentEvent.establish evt).conn
    · exact Or.inl hid
    · rw [Finmap.lookup_insert_of_ne _ hid] at hdialed
      exact Or.inr (h.dialed_seen id hdialed)

theorem Inv.step_close {s : JoinWatch} (h : s.Inv) (evt : CloseEvent) :
    (s.step (.close evt)).Inv where
  entry id d hholder hdialed hd := by
    show (s.agent.intentCache.delete evt.intentKey).get id.key
      = if id ∈ insert (AgentEvent.close evt).conn s.closed then none else some d
    rw [IntentCache.get_delete]
    rcases holder_appear hholder with rfl | ⟨hne, hkey, hold⟩
    · -- the closed connection loses its entry
      rw [if_pos (Finset.mem_insert_self _ _)]
      exact if_pos rfl
    · have hkey : id.key ≠ evt.intentKey := hkey
      rw [if_neg hkey, h.entry id d hold hdialed hd]
      simp only [Finset.mem_insert, hne, false_or]
  dialed_seen id hdialed := Finset.mem_insert_of_mem (h.dialed_seen id hdialed)

theorem Inv.step_snapshot {s : JoinWatch} (h : s.Inv) {cookie : UInt64} {f : FlowSnapshot}
    {sidecarProcess : Bool} (hex : s.Exclusive (.snapshot cookie f sidecarProcess)) :
    (s.step (.snapshot cookie f sidecarProcess)).Inv where
  entry id d hholder hdialed hd := by
    rcases holder_appear hholder with rfl | ⟨-, -, hold⟩
    · exact h.entry _ d (h.holder_of_dialed hex hdialed) hdialed hd
    · exact h.entry id d hold hdialed hd
  dialed_seen id hdialed := Finset.mem_insert_of_mem (h.dialed_seen id hdialed)

theorem Inv.step {s : JoinWatch} (h : s.Inv) {ev : AgentEvent} (hex : s.Exclusive ev)
    (hroom : s.Room ev) : (s.step ev).Inv := by
  cases ev with
  | establish evt => exact h.step_establish hroom
  | close evt => exact h.step_close evt
  | snapshot cookie f sidecarProcess => exact h.step_snapshot hex

/-- **One snapshot**: the join finds the destination exactly when the connection's
close event was not handled. -/
theorem Inv.joinedCorrectly_iff {s : JoinWatch} (h : s.Inv) {ev : AgentEvent}
    (hex : s.Exclusive ev) : s.JoinedCorrectly ev ↔ s.NotClosed ev := by
  cases ev with
  | establish evt => exact Iff.rfl
  | close evt => exact Iff.rfl
  | snapshot cookie f sidecarProcess =>
    refine forall_congr' fun henriches => forall_congr' fun d => forall_congr' fun hdialed =>
      forall_congr' fun hd => ?_
    have hentry := h.entry _ d (h.holder_of_dialed hex hdialed) hdialed hd
    have hget : s.agent.intentCache.get f.flowKey
        = if ⟨cookie, f.flowKey⟩ ∈ s.closed then none else some d := hentry
    rw [Agent.joinIntent, if_pos henriches, hget]
    split_ifs with hclosed
    · exact ⟨nofun, fun hopen => absurd hclosed hopen⟩
    · exact ⟨fun _ => hclosed, fun _ => if_pos hd⟩

/-! ### Every run -/

/-- With fewer establish events than entries in a generation there is always
room. -/
theorem along_room {events : List AgentEvent} {s : JoinWatch}
    (h : IntentCache.size s.agent.intentCache.cur + events.countP AgentEvent.isEstablish
      < s.agent.intentCache.max) : History.Along step Room s events := by
  induction events generalizing s with
  | nil => trivial
  | cons ev events ih =>
    have hroom : s.Room ev := Nat.lt_of_le_of_lt (Nat.le_add_right _ _) h
    refine ⟨hroom, ih ?_⟩
    cases ev with
    | establish evt =>
      -- it takes at most one entry and was counted
      rw [List.countP_cons_of_pos rfl] at h
      show IntentCache.size (s.agent.handleEstablish evt).intentCache.cur + _
        < (s.agent.handleEstablish evt).intentCache.max
      rw [Agent.handleEstablish]
      split_ifs
      · dsimp only
        rw [IntentCache.max_put]
        have := IntentCache.size_put_of_room hroom evt.intentKey evt.originalDst
        omega
      · omega
    | close evt =>
      rw [List.countP_cons_of_neg (by simp [AgentEvent.isEstablish])] at h
      have := IntentCache.size_delete s.agent.intentCache evt.intentKey
      show IntentCache.size (s.agent.intentCache.delete evt.intentKey).cur + _
        < s.agent.intentCache.max
      omega
    | snapshot cookie f sidecarProcess =>
      rw [List.countP_cons_of_neg (by simp [AgentEvent.isEstablish])] at h
      exact h

/-- **The join is correct exactly while connections are open.**  In every run
with fewer establish events than the cache's generations hold, and with the
connections of a key one after another, every snapshot of a connection whose
establish event was handled is joined with the destination it dialed, if and
only if no snapshot comes after its connection's close event. -/
theorem join_correct_iff {max : ℤ} (hasInformer : Bool) (host : ByteOrder)
    {events : List AgentEvent}
    (hcap : events.countP AgentEvent.isEstablish < (IntentCache.new max).max)
    (hex : History.Along step Exclusive (new max hasInformer host) events) :
    History.Along step JoinedCorrectly (new max hasInformer host) events ↔
      History.Along step NotClosed (new max hasInformer host) events := by
  have hroom : History.Along step Room (new max hasInformer host) events := by
    refine along_room ?_
    show 0 + _ < _
    rw [zero_add]
    exact hcap
  have hdomain : History.Along step (fun s ev => s.Exclusive ev ∧ s.Room ev)
      (new max hasInformer host) events := History.along_and hex hroom
  have hstep : ∀ s ev, Inv s → s.Exclusive ev ∧ s.Room ev → Inv (s.step ev) :=
    fun _ _ h hd => h.step hd.1 hd.2
  have hsnapshot : ∀ s ev, Inv s → s.Exclusive ev ∧ s.Room ev →
      (s.JoinedCorrectly ev ↔ s.NotClosed ev) := fun _ _ h hd => h.joinedCorrectly_iff hd.1
  exact History.along_iff_of_domain hstep hsnapshot (inv_new max hasInformer host) hdomain

/-- A connection to a cluster IP that was rewritten to a pod. -/
def dialedEvent : EstablishEvent :=
  { direction := 0
    protocol := 6
    pid := 42
    cookie := 7
    cgroupid := 1
    srcIP := 0x0a000001
    dstIP := 0x0a000002
    srcPort := 40000
    dstPort := 8080
    originalDstIP := 0x0a600001
    originalDstPort := 443
    timestampNs := 1
    comm := "curl" }

/-- Its close event. -/
def closedEvent : CloseEvent :=
  { direction := 0
    protocol := 6
    pid := 42
    cookie := 7
    srcIP := 0x0a000001
    dstIP := 0x0a000002
    srcPort := 40000
    dstPort := 8080
    originalDstIP := 0x0a600001
    originalDstPort := 443
    txBytes := 100
    rxBytes := 100
    retransmitBytes := 0
    retransmitCount := 0
    durationNs := 5
    timestampNs := 6 }

/-- Its snapshot. -/
def dialedSnapshot : FlowSnapshot :=
  { FlowSnapshot.ofKey dialedEvent.intentKey with
    txBytes := 100
    rxBytes := 100 }

instance (s : JoinWatch) (ev : AgentEvent) : Decidable (s.Exclusive ev) :=
  inferInstanceAs (Decidable (_ ∨ _))

/-- A connection that is polled twice before it closes. -/
theorem join_correct_open :
    History.Along step JoinedCorrectly (new 0 true .little)
      [.establish dialedEvent, .snapshot 7 dialedSnapshot false, .snapshot 7 dialedSnapshot false,
        .close closedEvent] := by
  refine (join_correct_iff true .little (by decide) (by decide)).mpr ?_
  refine ⟨trivial, fun _ d _ _ => ?_, fun _ d _ _ => ?_, trivial, trivial⟩
  · decide
  · decide

/-- A connection that closes between two polls: its only snapshot is joined with
nothing. -/
theorem close_before_poll :
    let events := [.establish dialedEvent, .close closedEvent, .snapshot 7 dialedSnapshot false]
    events.countP AgentEvent.isEstablish < (IntentCache.new 0).max ∧
      History.Along step Exclusive (new 0 true .little) events ∧
      ¬History.Along step JoinedCorrectly (new 0 true .little) events := by
  refine ⟨by decide, by decide, ?_⟩
  rintro ⟨-, -, hjoin, -⟩
  exact absurd (hjoin (by decide) ⟨0x0a600001, 443⟩ (by decide) (by decide)) (by decide)

end JoinWatch
