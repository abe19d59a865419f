/-
What a poll hands on (`pkg/poller/poller.go`).

A poll runs beside the hooks, which go on charging while it does.  If it comes to every
entry that is there when it starts, then nothing that was charged before the poll is left
in the maps after it; what remains was charged meanwhile.

* `Poller.Covers` — what the kernel's iteration has to come to;
* `Poller.poll_hands_on` — the poll does not panic, it is a run of the agent, and what was
  charged before it is in a snapshot that was handed on, counted as a drop, or missed.
-/
import Tollwing.PollLoops
import Tollwing.UdpOwner

namespace NodeAgent

variable (host : ByteOrder) (l : Loader) {n : ℕ}

/-! ### Taken entries -/

/-- Once an entry is taken its account is closed. -/
theorem balance_takeFlow (s : NodeAgent n) (key : FlowKey) :
    (s.step host l (.takeFlow key)).capture.book.balance key = none := by
  show (s.takeFlow key).capture.book.balance key = none
  rw [takeFlow]
  cases h : s.plane.kernel.flowAggregates.lookup key with
  | none =>
    show (s.plane.kernel.flowAggregates.lookup key).map perCPUAmount = none
    rw [h]
    rfl
  | some perCPU =>
    show ((s.plane.kernel.flowAggregates.erase key).lookup key).map perCPUAmount = none
    rw [Finmap.lookup_erase]
    rfl

theorem balance_takeQuic (s : NodeAgent n) (key : QuicFlowKey) :
    (s.step host l (.takeQuic key)).quicBook.balance key = none := by
  show (s.takeQuic key).quicBook.balance key = none
  rw [takeQuic]
  cases h : s.plane.quicFlows.lookup key with
  | none =>
    show (s.plane.quicFlows.lookup key).map quicBytes = none
    rw [h]
    rfl
  | some perCPU =>
    show ((s.plane.quicFlows.erase key).lookup key).map quicBytes = none
    rw [Finmap.lookup_erase]
    rfl

/-- **What was charged before a drain** is in a snapshot afterwards, was refused or was
missed, if the drain takes every entry that there was. -/
theorem exists_ledgers_after (boot : List (KernelStep n)) (run later : List (NodeStep n)) :
    ∃ L Q, IsLedgers host l boot (run ++ later) L Q ∧ Q.missed = 0 ∧
      (∀ c ∈ L.missed, c.hook.creates host = false) ∧
      ((∀ key, (exec host l boot run).capture.book.balance key ≠ none → .takeFlow key ∈ later) →
        ∀ c ∈ L.all, c.step < run.length →
          (∃ st ∈ L.statements, c ∈ st.2) ∨ c ∈ L.refused ∨ c ∈ L.missed) ∧
      ((∀ key, (exec host l boot run).quicBook.balance key ≠ none → .takeQuic key ∈ later) →
        ∀ q ∈ Q.all, q.step < run.length → (∃ st ∈ Q.statements, q ∈ st.2) ∨ q ∈ Q.refused) := by
  obtain ⟨L, hL, hLfiled, hLall, hLlate, hLclosed⟩ :=
    (flowBooks host l).exists_ledger_after (book_flows_start host l boot) run later
  obtain ⟨Q, hQ, hQfiled, hQall, hQmissed, hQclosed⟩ :=
    (quicBooks host l).exists_ledger_after (book_quic_start host l boot) run later
  have hmissed : Q.missed = 0 := Multiset.eq_zero_of_forall_notMem fun q hq => hQmissed q hq
  refine ⟨L, Q, .of_books host l hL hLfiled hLall hQ hQfiled hQall, hmissed, hLlate,
    fun hcovers c hc hbefore => ?_, fun hcovers q hq hbefore => ?_⟩
  · refine (Ledger.mem_all.mp hc).resolve_left ?_
    rintro ⟨key, cs, hcs, hmem⟩
    -- the account of an old charge was closed by a take
    have hclosed := (flowBooks host l).exists_closed (fun s => balance_takeFlow host l s key)
      (hcovers key)
    exact absurd hbefore (Nat.not_lt.mpr (hLclosed key hclosed cs hcs c hmem))
  · rcases Ledger.mem_all.mp hq with ⟨key, qs, hqs, hmem⟩ | hstatement | hrefused | hmiss
    · have hclosed := (quicBooks host l).exists_closed (fun s => balance_takeQuic host l s key)
        (hcovers key)
      exact absurd hbefore (Nat.not_lt.mpr (hQclosed key hclosed qs hqs q hmem))
    · exact Or.inl hstatement
    · exact Or.inr hrefused
    · rw [hmissed] at hmiss
      exact absurd hmiss (Multiset.notMem_zero q)

end NodeAgent

namespace Poller

open NodeAgent

variable (host : ByteOrder) (l : Loader) {n : ℕ}

/-- The poll comes to every entry that is there when it starts. -/
structure Covers (p : Poller) (s : NodeAgent n) (script : PollScript n) : Prop where
  flows : ∀ key ∈ s.plane.kernel.flowAggregates, .take key ∈ p.flowSteps host l s script
  quic : ∀ key ∈ s.plane.quicFlows, .take key ∈ p.quicSteps script

/-- The run of a poll and of the handler's call at its end. -/
def handover (p : Poller) (s : NodeAgent n) (script : PollScript n) : List (NodeStep n) :=
  p.steps host l s script ++ [.deliver]

variable {host l} {p : Poller} {s : NodeAgent n} {script : PollScript n}

theorem Covers.takeFlow_mem (h : p.Covers host l s script) {key : FlowKey}
    (hkey : s.capture.book.balance key ≠ none) : .takeFlow key ∈ p.handover host l s script := by
  have hmem : key ∈ s.plane.kernel.flowAggregates := by
    by_contra hnot
    refine hkey ?_
    show (s.plane.kernel.flowAggregates.lookup key).map perCPUAmount = none
    rw [Finmap.lookup_eq_none.mpr hnot]
    rfl
  exact List.mem_append_left _ (List.mem_append_left _
    (List.mem_map.mpr ⟨.take key, h.flows key hmem, rfl⟩))

theorem Covers.takeQuic_mem (h : p.Covers host l s script) {key : QuicFlowKey}
    (hkey : s.quicBook.balance key ≠ none) : .takeQuic key ∈ p.handover host l s script := by
  have hmem : key ∈ s.plane.quicFlows := by
    by_contra hnot
    refine hkey ?_
    show (s.plane.quicFlows.lookup key).map quicBytes = none
    rw [Finmap.lookup_eq_none.mpr hnot]
    rfl
  exact List.mem_append_left _ (List.mem_append_right _
    (List.mem_map.mpr ⟨.take key, h.quic key hmem, rfl⟩))

variable (host l)

/-- **What a poll hands on.**  Whatever the hooks and the kernel do meanwhile, a poll of
atomic calls does not panic, and with the handler's call at its end it is a run of the
agent.  If it comes to every entry that is there when it starts, then every charge from
before the poll, and each is one charge of the run's ledgers, sits in a snapshot that was
handed on, was counted as a drop, or, for a flow alone, was missed; no later charge is
lost either: it is handed on, dropped, missed, or still in the maps. -/
theorem poll_hands_on (boot : List (KernelStep n)) (run : List (NodeStep n)) {p : Poller}
    (hp : p.Sized n) (hidle : (exec host l boot run).Idle) {script : PollScript n}
    (hatomic : p.Atomic script) :
    let s := exec host l boot run
    let later := p.handover host l s script
    ∃ p' s' flows quic L Q,
      p.poll host l s script = some (p', s', appendQuicFlows flows quic) ∧ SameShape n p p' ∧
      s'.Idle ∧ exec host l boot (run ++ later) = { s' with polls := s'.polls ++ [(flows, quic)] } ∧
      IsLedgers host l boot (run ++ later) L Q ∧ Q.missed = 0 ∧
      (p.Covers host l s script →
        (∀ c ∈ L.all, c.step < run.length →
          (∃ st ∈ L.statements, c ∈ st.2) ∨ c ∈ L.refused ∨ c ∈ L.missed) ∧
        ∀ q ∈ Q.all, q.step < run.length → (∃ st ∈ Q.statements, q ∈ st.2) ∨ q ∈ Q.refused) := by
  intro s later
  obtain ⟨p', s', flows, quic, hpoll, hshape, hidle', -, hrun⟩ :=
    poll_refines host l hp hidle hatomic
  obtain ⟨L, Q, hledgers, hmissed, -, hflows, hquic⟩ := exists_ledgers_after host l boot run later
  refine ⟨p', s', flows, quic, L, Q, hpoll, hshape, hidle', ?_, hledgers, hmissed,
    fun hcovers => ⟨hflows fun key => hcovers.takeFlow_mem, hquic fun key => hcovers.takeQuic_mem⟩⟩
  rw [exec, List.foldl_append]
  exact hrun

/-- A host where the socket path counts. -/
def socketHost : Loader := .attach ⟨true, true, 1⟩ (hostWith true)

/-- The flow of the socket of `quicSend`. -/
def sendKey : FlowKey := ⟨0, 0x0100000a, 0, 443, 0, ipprotoUDP, 0⟩

/-- A byte is sent on that socket. -/
def sendByte : Background 1 := .kernel (.hook Capture.onOneCPU (.udpSendmsg 7 1))

/-- A poll with one batched call that comes to that flow; a byte is sent before it gets
there and one after. -/
def sendScript : PollScript 1 := ⟨[⟨[⟨[sendByte], sendKey⟩], [sendByte], .keyNotExist⟩], [], []⟩

/-- The poll hands on the byte that was sent before it and the one that was sent in time;
the third byte is left. -/
theorem poll_hands_on_send :
    ∃ p' s' snap L Q, (new 1 1 .ok true).poll .little socketHost
        (exec .little socketHost [] quicSend) sendScript = some (p', s', [snap]) ∧
      snap.txBytes = 2 ∧
      IsLedgers .little socketHost [] (quicSend ++ (new 1 1 .ok true).handover .little socketHost
        (exec .little socketHost [] quicSend) sendScript) L Q ∧
      ∀ c ∈ L.all, c.step < 3 →
        (∃ st ∈ L.statements, c ∈ st.2) ∨ c ∈ L.refused ∨ c ∈ L.missed := by
  have hatomic : (new 1 1 .ok true).Atomic sendScript :=
    ⟨fun h => absurd h (by decide), fun _ _ ht => absurd ht List.not_mem_nil⟩
  have hcovers : (new 1 1 .ok true).Covers .little socketHost
      (exec .little socketHost [] quicSend) sendScript := by
    constructor
    · intro key hkey
      have hkeys : ∀ key ∈ (exec .little socketHost [] quicSend).plane.kernel.flowAggregates.keys,
          key = sendKey := by decide
      rw [hkeys key (Finmap.mem_keys.mpr hkey)]
      exact .tail _ (.head _)
    · intro key hkey
      have hkeys : (exec .little socketHost [] quicSend).plane.quicFlows.keys = ∅ := by decide
      have hnone := Finmap.mem_keys.mpr hkey
      rw [hkeys] at hnone
      exact absurd hnone (Finset.notMem_empty key)
  obtain ⟨p', s', flows, quic, L, Q, hpoll, -, -, -, hledgers, -, hbefore⟩ :=
    poll_hands_on .little socketHost [] quicSend (sized_new 1 1 .ok true) rfl hatomic
  have hflows : ((new 1 1 .ok true).poll .little socketHost
      (exec .little socketHost [] quicSend) sendScript).map (fun r => r.2.2)
        = some [⟨0, 0x0100000a, 0, 443, 0, 17, 0, 2, 0, 1, 0, 0, 0⟩] := by decide
  rw [hpoll, Option.map_some, Option.some_inj] at hflows
  dsimp only at hflows
  rw [hflows] at hpoll
  exact ⟨p', s', _, L, Q, hpoll, rfl, hledgers, (hbefore hcovers).1⟩

end Poller

/-! ### The two paths -/

namespace NodeAgent

variable (host : ByteOrder) (l : Loader) {n : ℕ}

/-- A drain of the flows changes `flow_aggregates` alone. -/
theorem stored_flowTable : (flowTable (n := n) host l).Stored fun s m =>
    s.mapKernel fun k => { k with flowAggregates := m } :=
  ⟨fun _ _ => rfl, fun _ _ _ => rfl, fun _ => rfl⟩

theorem stored_quicTable : (quicTable (n := n) host l).Stored fun s m =>
    { s with plane := { s.plane with quicFlows := m } } :=
  ⟨fun _ _ => rfl, fun _ _ _ => rfl, fun _ => rfl⟩

/-- The snapshots of the entries that the maps hold. -/
def resident (s : NodeAgent n) : Multiset FlowSnapshot :=
  (FinMap.sum s.plane.kernel.flowAggregates fun key perCPU => {sumPerCPU key perCPU})
    + FinMap.sum s.plane.quicFlows fun key perCPU => {quicSnapshot key perCPU}

/-- The agent with both maps emptied. -/
def drained (s : NodeAgent n) : NodeAgent n :=
  { s with
    plane := { kernel := { s.plane.kernel with flowAggregates := ∅ }, quicFlows := ∅ } }

/-- Every entry of a map, made into a snapshot. -/
theorem map_sum_entries {κ ν : Type} [DecidableEq κ] (m : FinMap κ ν)
    (snapshot : κ × ν → FlowSnapshot) :
    (FinMap.sum m fun k v => ({(k, v)} : Multiset (κ × ν))).map snapshot
      = FinMap.sum m fun k v => {snapshot (k, v)} := by
  have hmap := FinMap.map_sum (Multiset.mapAddMonoidHom snapshot) m
    fun k v => ({(k, v)} : Multiset (κ × ν))
  exact hmap

end NodeAgent

/-- Nothing happens beside the poll. -/
structure PollScript.Quiet {n : ℕ} (script : PollScript n) : Prop where
  calls : ∀ c ∈ script.calls, (∀ v ∈ c.visits, v.before = []) ∧ c.after = []
  tries : ∀ t ∈ script.tries, t.before = [] ∧ t.between = []
  quicTries : ∀ t ∈ script.quicTries, t.before = [] ∧ t.between = []

/-- The script without failing calls. -/
def PollScript.atomically {n : ℕ} (script : PollScript n) : PollScript n :=
  { script with
    tries := script.tries.map fun t => { t with fails := false }
    quicTries := script.quicTries.map fun t => { t with fails := false } }

namespace Poller

open NodeAgent

variable (host : ByteOrder) (l : Loader) {n : ℕ} (p : Poller) {script : PollScript n}

theorem atomic_atomically (script : PollScript n) : p.Atomic script.atomically := by
  constructor
  · intro _ t ht
    obtain ⟨t', -, rfl⟩ := List.mem_map.mp ht
    rfl
  · intro _ t ht
    obtain ⟨t', -, rfl⟩ := List.mem_map.mp ht
    rfl

/-- The steps do not tell failing calls from others. -/
theorem flowSteps_atomically (s : NodeAgent n) :
    p.flowSteps host l s script.atomically = p.flowSteps host l s script := by
  rw [flowSteps, flowSteps]
  split_ifs
  · rfl
  · exact List.flatMap_map _ _ _

theorem quicSteps_atomically : p.quicSteps script.atomically = p.quicSteps script := by
  rw [quicSteps, quicSteps]
  split_ifs
  · exact List.flatMap_map _ _ _
  · rfl

/-- While nothing happens beside the poll, a failing call does as well as another. -/
theorem tryKeys_atomically {S E κ ν : Type} [DecidableEq κ] {T : SharedTable S E κ ν}
    {put : S → FinMap κ ν → S} (hT : T.Stored put) (s : S) {tries : List (KeyTry E κ)}
    (h : ∀ t ∈ tries, t.before = [] ∧ t.between = []) :
    T.tryKeys s (tries.map fun t => { t with fails := false }) = T.tryKeys s tries := by
  have h' : ∀ t ∈ tries.map fun t => { t with fails := false },
      t.before = [] ∧ t.between = [] := by
    intro t ht
    obtain ⟨t', ht', rfl⟩ := List.mem_map.mp ht
    exact h t' ht'
  have hkeys : (tries.map fun t => { t with fails := false }).map (fun t => t.key)
      = tries.map fun t => t.key := List.map_map
  rw [hT.tryKeys s h, hT.tryKeys s h', hkeys]

theorem poll_atomically (hquiet : script.Quiet) (s : NodeAgent n) :
    p.poll host l s script.atomically = p.poll host l s script := by
  have hflows : p.pollFlows host l s script.atomically = p.pollFlows host l s script := by
    rw [pollFlows, pollFlows, pollIterate, pollIterate, PollScript.atomically,
      tryKeys_atomically (stored_flowTable host l) s hquiet.tries]
  have hquic : ∀ s, pollQuic host l s script.atomically.quicTries
      = pollQuic host l s script.quicTries := by
    intro s
    rw [pollQuic, pollQuic, PollScript.atomically,
      tryKeys_atomically (stored_quicTable host l) s hquiet.quicTries]
  rw [poll, poll, hflows]
  simp only [hquic]

/-- A quiet drain is a list of takes. -/
theorem flatMap_steps_quiet {E κ : Type} {tries : List (KeyTry E κ)}
    (h : ∀ t ∈ tries, t.before = [] ∧ t.between = []) :
    tries.flatMap KeyTry.steps = (tries.map fun t => t.key).map .take := by
  induction tries with
  | nil => rfl
  | cons t tries ih =>
    rw [List.flatMap_cons, ih fun t' ht' => h t' (List.mem_cons_of_mem t ht'), KeyTry.steps,
      (h t List.mem_cons_self).1]
    rfl

theorem batchSteps_quiet (size : ℕ) {calls : List (BatchCall n)}
    (h : ∀ c ∈ calls, (∀ v ∈ c.visits, v.before = []) ∧ c.after = []) (s : NodeAgent n) :
    ∃ ks : List FlowKey, batchSteps host l size s calls = ks.map .take := by
  induction calls generalizing s with
  | nil => exact ⟨[], rfl⟩
  | cons c calls ih =>
    obtain ⟨hvisits, hafter⟩ := h c List.mem_cons_self
    obtain ⟨ks, hks⟩ := (flowTable host l).fillSteps_quiet size s hvisits
    rw [batchSteps_cons, hks, hafter, List.map_nil, List.append_nil]
    split_ifs
    · obtain ⟨ks', hks'⟩ := ih (fun c' hc' => h c' (List.mem_cons_of_mem c hc')) _
      rw [hks', ← List.map_append]
      exact ⟨ks ++ ks', rfl⟩
    · exact ⟨ks, List.append_nil _⟩

theorem flowSteps_quiet (hquiet : script.Quiet) (s : NodeAgent n) :
    ∃ ks : List FlowKey, p.flowSteps host l s script = ks.map .take := by
  rw [flowSteps]
  split_ifs
  · exact batchSteps_quiet host l p.batchSize hquiet.calls s
  · exact ⟨_, flatMap_steps_quiet hquiet.tries⟩

theorem quicSteps_quiet (hquiet : script.Quiet) :
    ∃ ks : List QuicFlowKey, p.quicSteps script = ks.map .take := by
  rw [quicSteps]
  split_ifs
  · exact ⟨_, flatMap_steps_quiet hquiet.quicTries⟩
  · exact ⟨[], rfl⟩

variable {p}

/-- What a quiet poll does that comes to every entry. -/
theorem poll_quiet (hp : p.Sized n) {s : NodeAgent n} (hquiet : script.Quiet)
    (hcovers : p.Covers host l s script) :
    ∃ p' flows, p.poll host l s script = some (p', s.drained, flows) ∧
      (flows : Multiset FlowSnapshot) = s.resident := by
  obtain ⟨p', hpoll, -⟩ := poll_eq host l hp s (p.atomic_atomically script)
  rw [poll_atomically host l p hquiet, flowSteps_atomically, quicSteps_atomically] at hpoll
  obtain ⟨ks, hks⟩ := p.flowSteps_quiet host l hquiet s
  obtain ⟨ks', hks'⟩ := p.quicSteps_quiet hquiet
  rw [hks, hks'] at hpoll
  have hmem : ∀ {κ E : Type} {k : κ} {ks : List κ},
      (DrainStep.take k : DrainStep E κ) ∈ ks.map .take → k ∈ ks := by
    intro κ E k ks h
    obtain ⟨k', hk', htake⟩ := List.mem_map.mp h
    cases htake
    exact hk'
  -- the flows first
  obtain ⟨htaken, hempty⟩ := (flowTable host l).drain_of_covers s ks
    fun key hkey => hmem (hks ▸ hcovers.flows key hkey)
  have hstate := (stored_flowTable host l).drain s ks
  rw [hempty] at hstate
  -- and then the QUIC flows, which the first drain left alone
  generalize hflows : (flowTable host l).drain s (ks.map .take) = flows at hpoll htaken hstate
  obtain ⟨htaken', hempty'⟩ := (quicTable host l).drain_of_covers flows.1 ks' (by
    rw [hstate]
    exact fun key hkey => hmem (hks' ▸ hcovers.quic key hkey))
  have hstate' : ((quicTable host l).drain flows.1 (ks'.map .take)).1 = s.drained := by
    rw [(stored_quicTable host l).drain flows.1 ks', hempty', hstate]
    rfl
  rw [hstate'] at hpoll
  refine ⟨p', _, hpoll, ?_⟩
  rw [appendQuicFlows, ← Multiset.coe_add, ← Multiset.map_coe, ← Multiset.map_coe, htaken, htaken',
    map_sum_entries, map_sum_entries, hstate]
  rfl

/-- **Both paths hand on the same.**  While nothing happens beside them, a poll in batches
of any size and a poll key by key, be it by calls that fail and are made up for, hand on
the same snapshots up to their order, one for every entry, and leave the agent in the
same state, with both maps empty. -/
theorem poll_paths_agree {q : Poller} (hp : p.Sized n) (hq : q.Sized n) {s : NodeAgent n}
    {script' : PollScript n} (hquiet : script.Quiet) (hquiet' : script'.Quiet)
    (hcovers : p.Covers host l s script) (hcovers' : q.Covers host l s script') :
    ∃ p' q' flows flows', p.poll host l s script = some (p', s.drained, flows) ∧
      q.poll host l s script' = some (q', s.drained, flows') ∧ flows.Perm flows' ∧
      (flows : Multiset FlowSnapshot) = s.resident := by
  obtain ⟨p', flows, hpoll, hflows⟩ := poll_quiet host l hp hquiet hcovers
  obtain ⟨q', flows', hpoll', hflows'⟩ := poll_quiet host l hq hquiet' hcovers'
  exact ⟨p', q', flows, flows', hpoll, hpoll',
    Multiset.coe_eq_coe.mp (hflows.trans hflows'.symm), hflows⟩

/-- A batched call, and a single call that fails, for the flow of `quicSend`. -/
def sendBatch : PollScript 1 := ⟨[⟨[⟨[], sendKey⟩], [], .keyNotExist⟩], [], []⟩

def sendFallback : PollScript 1 := ⟨[], [⟨⟨[], sendKey⟩, true, []⟩], []⟩

/-- Both hand on the byte that was sent. -/
theorem poll_paths_agree_send :
    let s := exec .little socketHost [] quicSend
    ∃ p' q' flows flows',
      (new 1 2 .ok true).poll .little socketHost s sendBatch = some (p', s.drained, flows) ∧
      (new 1 2 .notSupported true).poll .little socketHost s sendFallback
        = some (q', s.drained, flows') ∧
      flows.Perm flows' ∧ flows.map FlowSnapshot.txBytes = [1] := by
  intro s
  have hflowKeys : ∀ key ∈ s.plane.kernel.flowAggregates.keys, key = sendKey := by decide
  have hquicKeys : ∀ key ∈ s.plane.quicFlows.keys, False := by decide
  have hquiet : sendBatch.Quiet := ⟨by simp [sendBatch], by simp [sendBatch], by simp [sendBatch]⟩
  have hquiet' : sendFallback.Quiet :=
    ⟨by simp [sendFallback], by simp [sendFallback], by simp [sendFallback]⟩
  have hcovers : (new 1 2 .ok true).Covers .little socketHost s sendBatch :=
    ⟨fun key hkey => hflowKeys key (Finmap.mem_keys.mpr hkey) ▸ .head _,
      fun key hkey => (hquicKeys key (Finmap.mem_keys.mpr hkey)).elim⟩
  have hcovers' : (new 1 2 .notSupported true).Covers .little socketHost s sendFallback :=
    ⟨fun key hkey => hflowKeys key (Finmap.mem_keys.mpr hkey) ▸ .head _,
      fun key hkey => (hquicKeys key (Finmap.mem_keys.mpr hkey)).elim⟩
  obtain ⟨p', q', flows, flows', hpoll, hpoll', hperm, hflows⟩ :=
    poll_paths_agree .little socketHost (sized_new 1 2 .ok true) (sized_new 1 2 .notSupported true)
      hquiet hquiet' hcovers hcovers'
  have hbytes : (flows : Multiset FlowSnapshot).map FlowSnapshot.txBytes = {1} := by
    rw [hflows]
    decide
  exact ⟨p', q', flows, flows', hpoll, hpoll', hperm,
    List.perm_singleton.mp (Multiset.coe_eq_coe.mp hbytes)⟩

end Poller
