/-
What a poll without atomic calls loses (`pkg/poller/poller.go`).

Where the kernel cannot read and delete an entry in one call, the poller reads the entry and
deletes it afterwards, and what the hooks add in between goes with it.

* `NodeAgent.flowReader`, `NodeAgent.quicReader` — the two drains read accounts and close them
  later;
* `Poller.poll_fallback` — whichever calls fail, the poll does not panic, and what the hooks
  charge is all in its ledgers but for charges of a key between the key's read and its
  deletion.
-/
import Tollwing.Handover
import Tollwing.Outlets
import Tollwing.TornReads

namespace NodeAgent

variable (host : ByteOrder) (l : Loader) {n : ℕ}

/-! ### What depends on the maps alone -/

/-- The kernel's state after a step depends on what it was before. -/
theorem plane_step {s s' : NodeAgent n} (h : s.plane = s'.plane) (e : NodeStep n) :
    (s.step host l e).plane = (s'.step host l e).plane := by
  cases e with
  | kernel e =>
    show (s.kernelStep host l e).plane = (s'.kernelStep host l e).plane
    cases e with
    | hook env hk =>
      rw [kernelStep, kernelStep, mapKernel, mapKernel]
      split_ifs
      · simp only [h]
      · exact h
    | egress env send frame =>
      rw [kernelStep, kernelStep]
      split_ifs
      · simp only [h]
      · exact h
    | evictConnection cookie => simp only [kernelStep, mapKernel, h]
    | evictOriginalDst cookie => simp only [kernelStep, mapKernel, h]
  | takeFlow key =>
    show (s.takeFlow key).plane = (s'.takeFlow key).plane
    rw [takeFlow, takeFlow, h]
    cases s'.plane.kernel.flowAggregates.lookup key with
    | none => exact h
    | some perCPU => simp only [mapKernel, h]
  | takeQuic key =>
    show (s.takeQuic key).plane = (s'.takeQuic key).plane
    rw [takeQuic, takeQuic, h]
    cases s'.plane.quicFlows.lookup key with
    | none => exact h
    | some perCPU => rfl
  | deliver => exact h
  | setEnabled enabled => simp only [step, mapKernel, h]

theorem plane_foldl (run : List (NodeStep n)) {s s' : NodeAgent n} (h : s.plane = s'.plane) :
    (run.foldl (step host l) s).plane = (run.foldl (step host l) s').plane := by
  induction run generalizing s s' with
  | nil => exact h
  | cons e run ih => exact ih (plane_step host l h e)

theorem flowCharges_congr {s s' : NodeAgent n} (h : s.plane = s'.plane) (i : ℕ)
    (e : NodeStep n) : flowCharges host l s i e = flowCharges host l s' i e := by
  have hkernel : s.capture.kernel = s'.capture.kernel := congrArg QuicPlane.kernel h
  rw [flowCharges, flowCharges]
  cases captureStep l e with
  | none => rfl
  | some e' =>
    show s.capture.charge host i e' = s'.capture.charge host i e'
    cases e' <;> simp only [Capture.charge, hkernel]

theorem quicCharges_congr {s s' : NodeAgent n} (h : s.plane = s'.plane) (i : ℕ)
    (e : NodeStep n) : quicCharges host l s i e = quicCharges host l s' i e := by
  cases e with
  | kernel e => cases e <;> simp only [quicCharges, h]
  | _ => rfl

/-- The charges of a run depend on the maps at its start. -/
theorem chargesFrom_congr (run : List (NodeStep n)) {s s' : NodeAgent n} (h : s.plane = s'.plane)
    (i : ℕ) : (flowBooks host l).chargesFrom s i run = (flowBooks host l).chargesFrom s' i run ∧
      (quicBooks host l).chargesFrom s i run = (quicBooks host l).chargesFrom s' i run := by
  induction run generalizing s s' i with
  | nil => exact ⟨rfl, rfl⟩
  | cons e run ih =>
    obtain ⟨hflows, hquic⟩ := ih (plane_step host l h e) (i + 1)
    exact ⟨congrArg₂ (· ++ ·) (flowCharges_congr host l h i e) hflows,
      congrArg₂ (· ++ ·) (quicCharges_congr host l h i e) hquic⟩

/-! ### Entries stay until the poller takes them -/

/-- What the others do removes no entry of either map. -/
theorem keys_background (s : NodeAgent n) (b : Background n) :
    s.plane.kernel.flowAggregates.keys
        ⊆ (s.step host l b.nodeStep).plane.kernel.flowAggregates.keys ∧
      s.plane.quicFlows.keys ⊆ (s.step host l b.nodeStep).plane.quicFlows.keys := by
  cases b with
  | setEnabled enabled => exact ⟨subset_rfl, subset_rfl⟩
  | kernel e =>
    show _ ⊆ (s.kernelStep host l e).plane.kernel.flowAggregates.keys ∧
      _ ⊆ (s.kernelStep host l e).plane.quicFlows.keys
    cases e with
    | hook env hk =>
      rw [kernelStep]
      split_ifs
      · exact ⟨hk.keys_run host s.plane.kernel env, subset_rfl⟩
      · exact ⟨subset_rfl, subset_rfl⟩
    | egress env send frame =>
      rw [kernelStep]
      split_ifs
      · obtain ⟨hflows, hquic⟩ := s.plane.keys_quicEgress host env frame
        exact ⟨(congrArg Finmap.keys hflows).ge, hquic⟩
      · exact ⟨subset_rfl, subset_rfl⟩
    | evictConnection cookie => exact ⟨subset_rfl, subset_rfl⟩
    | evictOriginalDst cookie => exact ⟨subset_rfl, subset_rfl⟩

/-- An account is open as long as its key is there. -/
theorem open_of_subset {κ ν M : Type} [DecidableEq κ] {m m' : FinMap κ ν} {f : ν → M}
    (h : m.keys ⊆ m'.keys) {k : κ} (hk : (m.lookup k).map f ≠ none) :
    (m'.lookup k).map f ≠ none := by
  rw [Ne, Option.map_eq_none_iff] at hk ⊢
  exact FinMap.mem_keys_iff_lookup.mp (h (FinMap.mem_keys_iff_lookup.mpr hk))

/-- A background step keeps what the running poll took. -/
theorem background_taken (s : NodeAgent n) (b : Background n) :
    (s.step host l b.nodeStep).flows = s.flows ∧ (s.step host l b.nodeStep).quic = s.quic := by
  have hstep : s.step host l b.nodeStep = (s.background host l b).withPoll s.flows s.quic :=
    background_withPoll host l s s.flows s.quic b
  rw [hstep]
  exact ⟨rfl, rfl⟩

/-! ### The readers -/

/-- Delete an entry of `flow_aggregates`, and take what was read of it. -/
def closeFlow (s : NodeAgent n) (key : FlowKey) (read : Option (Fin n → FlowMetrics)) :
    NodeAgent n :=
  { s.mapKernel (fun k => { k with flowAggregates := k.flowAggregates.erase key }) with
    flows := s.flows ++ (read.map (sumPerCPU key)).toList }

def closeQuic (s : NodeAgent n) (key : QuicFlowKey) (read : Option (Fin n → QuicFlowMetrics)) :
    NodeAgent n :=
  { s with
    plane := { s.plane with quicFlows := s.plane.quicFlows.erase key }
    quic := s.quic ++ (read.map (quicSnapshot key)).toList }

theorem book_closeFlow (s : NodeAgent n) (key : FlowKey) (read : Option (Fin n → FlowMetrics)) :
    (s.closeFlow key read).capture.book
      = s.capture.book.closeAs key (read.map perCPUAmount) := by
  have herase : (fun key' =>
        ((s.plane.kernel.flowAggregates.erase key).lookup key').map perCPUAmount)
      = Function.update s.capture.book.balance key none :=
    FinMap.map_lookup_erase s.plane.kernel.flowAggregates key perCPUAmount
  have hread : (read.map (sumPerCPU key)).toList.map (fun snap => (snap.flowKey, snap.amount))
      = ((read.map perCPUAmount).map fun a => (key, a)).toList := by
    cases read with
    | none => rfl
    | some perCPU =>
      show [((sumPerCPU key perCPU).flowKey, (sumPerCPU key perCPU).amount)] = _
      rw [sumPerCPU_flowKey, sumPerCPU_amount]
      rfl
  rw [Book.closeAs, ← herase, ← hread]
  simp only [Capture.book, capture, closeFlow, Capture.snapshots, Kernel.book, mapKernel,
    ← List.append_assoc, List.map_append]
  rfl

theorem book_closeQuic (s : NodeAgent n) (key : QuicFlowKey)
    (read : Option (Fin n → QuicFlowMetrics)) :
    (s.closeQuic key read).quicBook = s.quicBook.closeAs key (read.map quicBytes) := by
  have herase : (fun key' => ((s.plane.quicFlows.erase key).lookup key').map quicBytes)
      = Function.update s.quicBook.balance key none :=
    FinMap.map_lookup_erase s.plane.quicFlows key quicBytes
  have hread : (read.map (quicSnapshot key)).toList.map (fun snap => (snap.quicKey, snap.txBytes))
      = ((read.map quicBytes).map fun bytes => (key, bytes)).toList := by
    cases read with
    | none => rfl
    | some perCPU =>
      show [((quicSnapshot key perCPU).quicKey, (quicSnapshot key perCPU).txBytes)] = _
      rw [quicSnapshot_quicKey, quicSnapshot_txBytes]
      rfl
  rw [Book.closeAs, ← herase, ← hread]
  simp only [quicBook, QuicPlane.book, quicStatements, quicSnapshots, closeQuic,
    ← List.append_assoc, List.map_append]

/-! The state without the snapshots of flows, and without those of QUIC flows. -/

def exceptFlows (s : NodeAgent n) : NodeAgent n := s.withPoll [] s.quic

def exceptQuic (s : NodeAgent n) : NodeAgent n := s.withPoll s.flows []

theorem exceptFlows_background (s : NodeAgent n) (b : Background n) :
    (s.step host l b.nodeStep).exceptFlows = s.exceptFlows.step host l b.nodeStep := by
  rw [exceptFlows, exceptFlows, background_withPoll, (background_taken host l s b).2]
  rfl

theorem exceptQuic_background (s : NodeAgent n) (b : Background n) :
    (s.step host l b.nodeStep).exceptQuic = s.exceptQuic.step host l b.nodeStep := by
  rw [exceptQuic, exceptQuic, background_withPoll, (background_taken host l s b).1]
  rfl

theorem exceptFlows_takeFlow (s : NodeAgent n) (key : FlowKey) :
    (s.takeFlow key).exceptFlows = (s.exceptFlows.takeFlow key).exceptFlows := by
  have hsame : s.exceptFlows.plane = s.plane := rfl
  rw [takeFlow, takeFlow, hsame]
  cases s.plane.kernel.flowAggregates.lookup key <;> rfl

theorem exceptQuic_takeQuic (s : NodeAgent n) (key : QuicFlowKey) :
    (s.takeQuic key).exceptQuic = (s.exceptQuic.takeQuic key).exceptQuic := by
  have hsame : s.exceptQuic.plane = s.plane := rfl
  rw [takeQuic, takeQuic, hsame]
  cases s.plane.quicFlows.lookup key <;> rfl

/-- A closing is a take, but for what is taken. -/
theorem exceptFlows_closeFlow (s : NodeAgent n) (key : FlowKey)
    (read : Option (Fin n → FlowMetrics)) :
    (s.closeFlow key read).exceptFlows = (s.takeFlow key).exceptFlows := by
  rw [takeFlow]
  cases hkey : s.plane.kernel.flowAggregates.lookup key with
  | none =>
    simp only [closeFlow, mapKernel, FinMap.erase_of_lookup_none hkey]
    rfl
  | some perCPU => rfl

theorem exceptQuic_closeQuic (s : NodeAgent n) (key : QuicFlowKey)
    (read : Option (Fin n → QuicFlowMetrics)) :
    (s.closeQuic key read).exceptQuic = (s.takeQuic key).exceptQuic := by
  rw [takeQuic]
  cases hkey : s.plane.quicFlows.lookup key with
  | none =>
    simp only [closeQuic, FinMap.erase_of_lookup_none hkey]
    rfl
  | some perCPU => rfl

/-- The drain of `flow_aggregates`. -/
def flowReader : TornReader (flowBooks (n := n) host l) (Background n) (Fin n → FlowMetrics)
    (NodeAgent n) where
  other := Background.nodeStep
  take := .takeFlow
  read s key := s.plane.kernel.flowAggregates.lookup key
  value := perCPUAmount
  closeAs := closeFlow
  view := exceptFlows
  balance _ _ := rfl
  book_closeAs := book_closeFlow
  keep s b _ := open_of_subset (keys_background host l s b).1
  view_closeAs := exceptFlows_closeFlow
  view_other s s' b h :=
    ((exceptFlows_background host l s b).trans (congrArg (step host l · b.nodeStep) h)).trans
      (exceptFlows_background host l s' b).symm
  view_take s s' key h :=
    ((exceptFlows_takeFlow s key).trans
      (congrArg (fun s : NodeAgent n => (s.takeFlow key).exceptFlows) h)).trans
      (exceptFlows_takeFlow s' key).symm
  charges_other _ _ i b h := flowCharges_congr host l (congrArg plane h) i b.nodeStep
  charges_take _ _ _ := rfl

/-- The drain of `quic_flows`. -/
def quicReader : TornReader (quicBooks (n := n) host l) (Background n) (Fin n → QuicFlowMetrics)
    (NodeAgent n) where
  other := Background.nodeStep
  take := .takeQuic
  read s key := s.plane.quicFlows.lookup key
  value := quicBytes
  closeAs := closeQuic
  view := exceptQuic
  balance _ _ := rfl
  book_closeAs := book_closeQuic
  keep s b _ := open_of_subset (keys_background host l s b).2
  view_closeAs := exceptQuic_closeQuic
  view_other s s' b h :=
    ((exceptQuic_background host l s b).trans (congrArg (step host l · b.nodeStep) h)).trans
      (exceptQuic_background host l s' b).symm
  view_take s s' key h :=
    ((exceptQuic_takeQuic s key).trans
      (congrArg (fun s : NodeAgent n => (s.takeQuic key).exceptQuic) h)).trans
      (exceptQuic_takeQuic s' key).symm
  charges_other _ _ i b h := quicCharges_congr host l (congrArg plane h) i b.nodeStep
  charges_take _ _ _ := rfl

/-! The poller's tries are the readers'. -/

theorem drains_flows (quic : List FlowSnapshot) :
    (flowReader (n := n) host l).Drains (flowTable host l) (fun s flows => s.withPoll flows quic)
      sumPerCPU :=
  ⟨fun s flows b => background_withPoll host l s flows quic b, fun _ _ _ => rfl,
    fun _ _ _ _ => rfl⟩

theorem drains_quic (flows : List FlowSnapshot) :
    (quicReader (n := n) host l).Drains (quicTable host l) (fun s quic => s.withPoll flows quic)
      quicSnapshot :=
  ⟨fun s quic b => background_withPoll host l s flows quic b, fun _ _ _ => rfl,
    fun _ _ _ _ => rfl⟩

/-! ### Ledgers with losses -/

/-- Ledgers that explain the books of an agent, and what was charged along a run and is in
neither of them. -/
structure AccountsFor (boot : List (KernelStep n)) (run : List (NodeStep n)) (s : NodeAgent n)
    (L : Ledger FlowKey Charge) (Q : Ledger QuicFlowKey QuicCharge) (lostFlows : Multiset Charge)
    (lostQuic : Multiset QuicCharge) : Prop where
  plane : s.plane = (exec host l boot run).plane
  book_flows : L.book Charge.amount = s.capture.book
  book_quic : Q.book QuicCharge.bytes = s.quicBook
  filed_flows : L.Filed Charge.key
  filed_quic : Q.Filed QuicCharge.key
  flows : L.all + lostFlows = (flowBooks host l).chargesFrom (start host l boot) 0 run
  quic : Q.all + lostQuic = (quicBooks host l).chargesFrom (start host l boot) 0 run
  late : ∀ c ∈ L.missed, c.hook.creates host = false
  missed_quic : Q.missed = 0

/-- A run of atomic steps loses nothing. -/
theorem exists_accountsFor (boot : List (KernelStep n)) (run : List (NodeStep n)) :
    ∃ L Q, AccountsFor host l boot run (exec host l boot run) L Q 0 0 := by
  obtain ⟨L, hL, hLfiled, hLall, hLlate, -⟩ :=
    (flowBooks host l).exists_ledger (book_flows_start host l boot) run
  obtain ⟨Q, hQ, hQfiled, hQall, hQmissed, -⟩ :=
    (quicBooks host l).exists_ledger (book_quic_start host l boot) run
  exact ⟨L, Q, rfl, hL, hQ, hLfiled, hQfiled, (add_zero _).trans hLall, (add_zero _).trans hQall,
    hLlate, Multiset.eq_zero_of_forall_notMem fun q hq => hQmissed q hq⟩

namespace AccountsFor

variable {boot : List (KernelStep n)} {run : List (NodeStep n)} {s : NodeAgent n}
  {L : Ledger FlowKey Charge} {Q : Ledger QuicFlowKey QuicCharge} {lostFlows : Multiset Charge}
  {lostQuic : Multiset QuicCharge}

variable {host l}

/-- The charges of a longer run. -/
theorem charges_append (h : AccountsFor host l boot run s L Q lostFlows lostQuic)
    (later : List (NodeStep n)) :
    ((flowBooks host l).chargesFrom s run.length later : Multiset Charge) + (L.all + lostFlows)
        = (flowBooks host l).chargesFrom (start host l boot) 0 (run ++ later) ∧
      ((quicBooks host l).chargesFrom s run.length later : Multiset QuicCharge)
          + (Q.all + lostQuic)
        = (quicBooks host l).chargesFrom (start host l boot) 0 (run ++ later) := by
  obtain ⟨hflows, hquic⟩ := chargesFrom_congr host l later h.plane run.length
  constructor
  · rw [h.flows, hflows, Bookkeeping.chargesFrom_append, Nat.zero_add, ← Multiset.coe_add,
      add_comm]
    rfl
  · rw [h.quic, hquic, Bookkeeping.chargesFrom_append, Nat.zero_add, ← Multiset.coe_add,
      add_comm]
    rfl

theorem plane_append (h : AccountsFor host l boot run s L Q lostFlows lostQuic)
    (later : List (NodeStep n)) :
    (later.foldl (step host l) s).plane = (exec host l boot (run ++ later)).plane := by
  rw [exec, List.foldl_append]
  exact plane_foldl host l later h.plane

theorem missed_later (h : AccountsFor host l boot run s L Q lostFlows lostQuic)
    {Q' : Ledger QuicFlowKey QuicCharge} (hmissed : ∀ q ∈ Q'.missed, q ∈ Q.missed ∨ False) :
    Q'.missed = 0 := by
  refine Multiset.eq_zero_of_forall_notMem fun q hq => ?_
  have hbefore := (hmissed q hq).resolve_right id
  rw [h.missed_quic] at hbefore
  exact Multiset.notMem_zero q hbefore

/-- Atomic steps of the agent. -/
theorem steps (h : AccountsFor host l boot run s L Q lostFlows lostQuic)
    (later : List (NodeStep n)) :
    ∃ L' Q', AccountsFor host l boot (run ++ later) (later.foldl (step host l) s) L' Q' lostFlows
      lostQuic := by
  obtain ⟨L', hL, hLfiled, hLall, hLmissed, -⟩ :=
    (flowBooks host l).exists_ledger_from later s run.length L h.book_flows h.filed_flows
  obtain ⟨Q', hQ, hQfiled, hQall, hQmissed, -⟩ :=
    (quicBooks host l).exists_ledger_from later s run.length Q h.book_quic h.filed_quic
  obtain ⟨hflows, hquic⟩ := h.charges_append later
  refine ⟨L', Q', h.plane_append later, hL, hQ, hLfiled, hQfiled, ?_, ?_, fun c hc => ?_, ?_⟩
  · rw [hLall, add_assoc, hflows]
  · rw [hQall, add_assoc, hquic]
  · exact (hLmissed c hc).elim (h.late c) id
  · exact h.missed_later hQmissed

/-- Tries of the flows. -/
theorem flowTries (h : AccountsFor host l boot run s L Q lostFlows lostQuic)
    (tries : List (KeyTry (Background n) FlowKey)) :
    ∃ L' Q' lost,
      AccountsFor host l boot (run ++ tries.flatMap (flowReader host l).steps)
        (tries.foldl (flowReader host l).tryKey s) L' Q' (lost + lostFlows) lostQuic ∧
      ∀ c ∈ lost, ∃ pre t post, tries = pre ++ t :: post ∧
        t.Loses Charge.key Charge.step
          (run.length + (pre.flatMap (flowReader host l).steps).length) c := by
  obtain ⟨L', lost, hL, hLfiled, hLall, hLmissed, hlost⟩ :=
    (flowReader host l).exists_ledger tries s run.length L h.book_flows h.filed_flows
  -- the other book is kept as along the steps
  obtain ⟨L₂, Q', h'⟩ := h.steps (tries.flatMap (flowReader host l).steps)
  have hview : (tries.foldl (flowReader host l).tryKey s).exceptFlows
      = ((tries.flatMap (flowReader host l).steps).foldl (step host l) s).exceptFlows :=
    (flowReader host l).view_tries tries rfl
  obtain ⟨hflows, -⟩ := h.charges_append (tries.flatMap (flowReader host l).steps)
  refine ⟨L', Q', lost, ⟨?_, hL, ?_, hLfiled, h'.filed_quic, ?_, h'.quic,
    fun c hc => (hLmissed c hc).elim (h.late c) id, h'.missed_quic⟩, hlost⟩
  · exact (congrArg NodeAgent.plane hview).trans h'.plane
  · exact h'.book_quic.trans (congrArg quicBook hview).symm
  · rw [← add_assoc, hLall, add_assoc, hflows]

/-- Tries of the QUIC flows. -/
theorem quicTries (h : AccountsFor host l boot run s L Q lostFlows lostQuic)
    (tries : List (KeyTry (Background n) QuicFlowKey)) :
    ∃ L' Q' lost,
      AccountsFor host l boot (run ++ tries.flatMap (quicReader host l).steps)
        (tries.foldl (quicReader host l).tryKey s) L' Q' lostFlows (lost + lostQuic) ∧
      ∀ q ∈ lost, ∃ pre t post, tries = pre ++ t :: post ∧
        t.Loses QuicCharge.key QuicCharge.step
          (run.length + (pre.flatMap (quicReader host l).steps).length) q := by
  obtain ⟨Q', lost, hQ, hQfiled, hQall, hQmissed, hlost⟩ :=
    (quicReader host l).exists_ledger tries s run.length Q h.book_quic h.filed_quic
  obtain ⟨L', Q₂, h'⟩ := h.steps (tries.flatMap (quicReader host l).steps)
  have hview : (tries.foldl (quicReader host l).tryKey s).exceptQuic
      = ((tries.flatMap (quicReader host l).steps).foldl (step host l) s).exceptQuic :=
    (quicReader host l).view_tries tries rfl
  obtain ⟨-, hquic⟩ := h.charges_append (tries.flatMap (quicReader host l).steps)
  refine ⟨L', Q', lost, ⟨?_, ?_, hQ, h'.filed_flows, hQfiled, h'.flows, ?_, h'.late, ?_⟩, hlost⟩
  · exact (congrArg NodeAgent.plane hview).trans h'.plane
  · exact h'.book_flows.trans
      (congrArg (fun s : NodeAgent n => s.capture.book) hview).symm
  · rw [← add_assoc, hQall, add_assoc, hquic]
  · exact h.missed_later hQmissed

end AccountsFor

end NodeAgent

/-! ### The poll -/

namespace Poller

open NodeAgent

variable (host : ByteOrder) (l : Loader) {n : ℕ}

/-- The steps of the drain of `flow_aggregates`, where an entry is taken when it is deleted. -/
def flowDeletions (p : Poller) (s : NodeAgent n) (script : PollScript n) : List (NodeStep n) :=
  if p.useBatch then (batchSteps host l p.batchSize s script.calls).map ofFlowStep
  else script.tries.flatMap (flowReader host l).steps

def quicDeletions (p : Poller) (script : PollScript n) : List (NodeStep n) :=
  if p.quicMap then script.quicTries.flatMap (quicReader host l).steps else []

/-- The run of a poll and of the handler's call at its end. -/
def deletions (p : Poller) (s : NodeAgent n) (script : PollScript n) : List (NodeStep n) :=
  p.flowDeletions host l s script ++ p.quicDeletions host l script ++ [.deliver]

variable {host l} {boot : List (KernelStep n)} {run : List (NodeStep n)} {s : NodeAgent n}

/-- The drain of `flow_aggregates`. -/
theorem exists_pollFlows {p : Poller} (hp : p.Sized n) (hidle : s.Idle)
    {L : Ledger FlowKey Charge} {Q : Ledger QuicFlowKey QuicCharge}
    (h : AccountsFor host l boot run s L Q 0 0) (script : PollScript n) :
    ∃ p' s' flows L' Q' lost,
      p.pollFlows host l s script = some (p', s', flows) ∧ SameShape n p p' ∧ s'.Idle ∧
      AccountsFor host l boot (run ++ p.flowDeletions host l s script) (s'.withPoll flows []) L' Q'
        lost 0 ∧
      ∀ c ∈ lost, p.useBatch = false ∧ ∃ pre t post, script.tries = pre ++ t :: post ∧
        t.Loses Charge.key Charge.step
          (run.length + (pre.flatMap (flowReader host l).steps).length) c := by
  rw [flowDeletions, pollFlows]
  cases hbatch : p.useBatch with
  | true =>
    rw [if_pos rfl, if_pos rfl]
    obtain ⟨p', hpoll, hshape⟩ := pollBatch_eq host l script.calls hp s
    obtain ⟨L', Q', h'⟩ :=
      h.steps ((batchSteps host l p.batchSize s script.calls).map ofFlowStep)
    have hdrain := foldl_ofFlowStep host l (batchSteps host l p.batchSize s script.calls) s [] []
    rw [hidle] at hdrain
    rw [hdrain] at h'
    exact ⟨p', _, _, L', Q', 0, hpoll, hshape, (hidle.drain_flows host l _).1, h',
      fun c hc => absurd hc (Multiset.notMem_zero c)⟩
  | false =>
    rw [if_neg Bool.false_ne_true, if_neg Bool.false_ne_true]
    obtain ⟨L', Q', lost, h', hlost⟩ := h.flowTries script.tries
    have htries := (drains_flows host l []).tryKeys (stored_flowTable host l) script.tries s []
    rw [hidle] at htries
    rw [htries, add_zero] at h'
    have hidle' := (stored_flowTable host l).tryKeys_inv NodeAgent.Idle
      (fun s b hs => hs.background host l b)
      (fun s key hs => congrArg (fun s => (flowTable host l).erase s key) hs) hidle script.tries
    exact ⟨p, _, _, L', Q', lost, rfl, ⟨hp, rfl, rfl, rfl⟩, hidle', h',
      fun c hc => ⟨rfl, hlost c hc⟩⟩

/-- The drain of `quic_flows` after it. -/
theorem exists_pollQuic (p : Poller) (hidle : s.Idle) {flows : List FlowSnapshot}
    {L : Ledger FlowKey Charge} {Q : Ledger QuicFlowKey QuicCharge} {lostFlows : Multiset Charge}
    (h : AccountsFor host l boot run (s.withPoll flows []) L Q lostFlows 0)
    (script : PollScript n) :
    ∃ s' quic L' Q' lost,
      (if p.quicMap then pollQuic host l s script.quicTries else (s, [])) = (s', quic) ∧
      s'.Idle ∧
      AccountsFor host l boot (run ++ p.quicDeletions host l script) (s'.withPoll flows quic) L' Q'
        lostFlows lost ∧
      ∀ q ∈ lost, p.quicMap = true ∧ ∃ pre t post, script.quicTries = pre ++ t :: post ∧
        t.Loses QuicCharge.key QuicCharge.step
          (run.length + (pre.flatMap (quicReader host l).steps).length) q := by
  rw [quicDeletions]
  cases hquic : p.quicMap with
  | true =>
    rw [if_pos rfl, if_pos rfl]
    obtain ⟨L', Q', lost, h', hlost⟩ := h.quicTries script.quicTries
    rw [(drains_quic host l flows).tryKeys (stored_quicTable host l) script.quicTries s [],
      add_zero] at h'
    have hidle' := (stored_quicTable host l).tryKeys_inv NodeAgent.Idle
      (fun s b hs => hs.background host l b)
      (fun s key hs => congrArg (fun s => (quicTable host l).erase s key) hs) hidle
      script.quicTries
    exact ⟨_, _, L', Q', lost, rfl, hidle', h', fun q hq => ⟨rfl, hlost q hq⟩⟩
  | false =>
    rw [if_neg Bool.false_ne_true, if_neg Bool.false_ne_true, List.append_nil]
    exact ⟨s, [], L, Q, 0, rfl, hidle, h, fun q hq => absurd hq (Multiset.notMem_zero q)⟩

variable (host l)

/-- **What a poll loses.**  Whatever the hooks and the kernel do meanwhile and whichever calls
fail, a poll does not panic.  After the handler's call, ledgers explain the books of the
agent, whose maps are those of a run that takes an entry when it is deleted; they hold every
charge of this run once, but for charges that were lost, and each of these is of a key whose
call failed, from between the key's read and its deletion.  Batched calls lose none. -/
theorem poll_fallback (boot : List (KernelStep n)) (run : List (NodeStep n)) {p : Poller}
    (hp : p.Sized n) (hidle : (exec host l boot run).Idle) (script : PollScript n) :
    let flowSteps := p.flowDeletions host l (exec host l boot run) script
    let later := p.deletions host l (exec host l boot run) script
    ∃ p' s' flows quic L Q lostFlows lostQuic,
      p.poll host l (exec host l boot run) script = some (p', s', appendQuicFlows flows quic) ∧
      SameShape n p p' ∧ s'.Idle ∧
      AccountsFor host l boot (run ++ later) { s' with polls := s'.polls ++ [(flows, quic)] } L Q
        lostFlows lostQuic ∧
      (∀ c ∈ lostFlows, p.useBatch = false ∧ ∃ pre t post, script.tries = pre ++ t :: post ∧
        t.fails = true ∧ t.Loses Charge.key Charge.step
          (run.length + (pre.flatMap (flowReader host l).steps).length) c) ∧
      ∀ q ∈ lostQuic, p.quicMap = true ∧ ∃ pre t post, script.quicTries = pre ++ t :: post ∧
        t.fails = true ∧ t.Loses QuicCharge.key QuicCharge.step
          (run.length + flowSteps.length + (pre.flatMap (quicReader host l).steps).length) q := by
  intro flowSteps later
  obtain ⟨L, Q, h⟩ := exists_accountsFor host l boot run
  obtain ⟨p', s₁, flows, L₁, Q₁, lostFlows, hflows, hshape, hidle₁, h₁, hlostFlows⟩ :=
    exists_pollFlows hp hidle h script
  obtain ⟨s', quic, L₂, Q₂, lostQuic, hquic, hidle', h₂, hlostQuic⟩ :=
    exists_pollQuic p hidle₁ h₁ script
  obtain ⟨L', Q', h'⟩ := h₂.steps [.deliver]
  have hdeliver : [NodeStep.deliver].foldl (NodeAgent.step host l) (s'.withPoll flows quic)
      = { s' with polls := s'.polls ++ [(flows, quic)] } := hidle'.deliver host l flows quic
  rw [hdeliver, List.append_assoc, List.append_assoc,
    ← List.append_assoc (p.flowDeletions ..)] at h'
  refine ⟨p', s', flows, quic, L', Q', lostFlows, lostQuic, ?_, hshape, hidle', h',
    fun c hc => ?_, fun q hq => ?_⟩
  · rw [poll]
    show ((p.pollFlows host l _ script).bind fun r => _) = _
    rw [hflows, Option.bind_some]
    dsimp only
    rw [hshape.quicMap]
    cases hmap : p.quicMap with
    | true =>
      rw [hmap, if_pos rfl] at hquic
      rw [if_pos rfl, hquic]
      rfl
    | false =>
      rw [hmap, if_neg Bool.false_ne_true] at hquic
      obtain ⟨rfl, rfl⟩ := Prod.mk.inj hquic
      rw [if_neg Bool.false_ne_true]
      exact congrArg (fun flows => some (p', s₁, flows)) (List.append_nil flows).symm
  · obtain ⟨hbatch, pre, t, post, htries, hloses⟩ := hlostFlows c hc
    exact ⟨hbatch, pre, t, post, htries, hloses.fails, hloses⟩
  · obtain ⟨hmap, pre, t, post, htries, hloses⟩ := hlostQuic q hq
    rw [List.length_append] at hloses
    exact ⟨hmap, pre, t, post, htries, hloses.fails, hloses⟩

/-- A poll that cannot read and delete at once; a byte is sent in between. -/
def sendTorn : PollScript 1 := ⟨[], [⟨⟨[], sendKey⟩, true, [sendByte]⟩], []⟩

/-- The poll hands on the byte that was sent before it.  Nothing is left of the flow, and what
is lost was sent in the fourth step, in between. -/
theorem poll_fallback_send :
    ∃ p' s' snap, (new 1 1 .notSupported true).poll .little socketHost
        (exec .little socketHost [] quicSend) sendTorn = some (p', s', [snap]) ∧
      snap.txBytes = 1 ∧
      ∃ s'' L Q lostFlows lostQuic,
        AccountsFor .little socketHost [] (quicSend ++ (new 1 1 .notSupported true).deletions
          .little socketHost (exec .little socketHost [] quicSend) sendTorn) s'' L Q lostFlows
          lostQuic ∧
        ∀ c ∈ lostFlows, c.key = sendKey ∧ c.step = 3 := by
  obtain ⟨p', s', flows, quic, L, Q, lostFlows, lostQuic, hpoll, -, -, haccounts, hlost, -⟩ :=
    poll_fallback .little socketHost [] quicSend (sized_new 1 1 .notSupported true) rfl sendTorn
  have hflows : ((new 1 1 .notSupported true).poll .little socketHost
      (exec .little socketHost [] quicSend) sendTorn).map (fun r => r.2.2)
        = some [⟨0, 0x0100000a, 0, 443, 0, 17, 0, 1, 0, 1, 0, 0, 0⟩] := by decide
  rw [hpoll, Option.map_some, Option.some_inj] at hflows
  dsimp only at hflows
  rw [hflows] at hpoll
  refine ⟨p', s', _, hpoll, rfl, _, L, Q, lostFlows, lostQuic, haccounts, fun c hc => ?_⟩
  obtain ⟨-, pre, t, post, htries, -, hkey, hlo, hhi⟩ := hlost c hc
  have hone : pre = [] ∧ t = ⟨⟨[], sendKey⟩, true, [sendByte]⟩ := by
    cases pre with
    | nil => exact ⟨rfl, (List.cons_eq_cons.mp htries).1.symm⟩
    | cons t' pre =>
      have hlength := congrArg List.length htries
      simp [sendTorn] at hlength
  obtain ⟨rfl, rfl⟩ := hone
  have hlo : 3 ≤ c.step := hlo
  have hhi : c.step < 3 + 0 + 1 := hhi
  exact ⟨hkey, by omega⟩

end Poller
