/-
Sidecar processes (`pkg/enricher/sidecar_linux.go`, `pkg/agent/agent.go`).

The detector answers for a process ID from what it read the first time it was asked.
Processes start and exit and their IDs are used again; the agent handles connection
events and asks for the flows of each poll.  A close event makes the enricher forget a
process; `InvalidatePID`, with which the detector would, is not called.

* `isSidecar_eq` — a poll decides as it would by the verdict that the detector gives;
* `lookup_run` — the detector's verdict is on what the first poll that asked found;
* `tablesLive_step_iff` — one event;
* `follows_process_iff` — over a run the decisions are right exactly when the process that
  has an ID is always of the kind found first, and with that the tables hold running
  processes only exactly when polls ask for those only and none asked for exits;
* `tablesLive_invalidatePID` — an exit keeps them so with that call;
* `reused_pid_dropped` — the flow of an application that is taken for a sidecar's.
-/
import Tollwing.EnricherCache
import Tollwing.IntentJoin

/-! ### The detector -/

/-- The processes that run: the name of each, as its file has it. -/
abbrev ProcessTable := FinMap UInt32 (List Char)

structure SidecarDetector where
  pidToComm : FinMap UInt32 (List Char)
  sidecarPIDs : FinMap UInt32 Bool

namespace SidecarDetector

/-- `KnownSidecarProxies`. -/
def knownSidecarProxies : List (List Char) :=
  ["envoy".toList, "linkerd-proxy".toList, "linkerd2-proxy".toList, "istio-proxy".toList]

/-- `readProcComm`: an ID without a process has the empty name. -/
def readProcComm (found : Option (List Char)) : List Char := found.elim [] Enricher.trimSpace

/-- Whether what was found under an ID is a sidecar. -/
def isSidecarName (found : Option (List Char)) : Bool :=
  knownSidecarProxies.contains (readProcComm found)

def isSidecarProcess (sd : SidecarDetector) (procs : ProcessTable) (pid : UInt32) :
    Bool × SidecarDetector :=
  match sd.sidecarPIDs.lookup pid with
  | some known => (known, sd)
  | none =>
    let isSidecar := isSidecarName (procs.lookup pid)
    (isSidecar,
      { pidToComm := sd.pidToComm.insert pid (readProcComm (procs.lookup pid))
        sidecarPIDs := sd.sidecarPIDs.insert pid isSidecar })

/-- `InvalidatePID`. -/
def invalidatePID (sd : SidecarDetector) (pid : UInt32) : SidecarDetector where
  pidToComm := sd.pidToComm.erase pid
  sidecarPIDs := sd.sidecarPIDs.erase pid

/-- The detector has nothing on a process ID. -/
def Forgot (sd : SidecarDetector) (pid : UInt32) : Prop :=
  pid ∉ sd.pidToComm ∧ pid ∉ sd.sidecarPIDs

variable (sd : SidecarDetector) (procs : ProcessTable) (pid : UInt32)

theorem isSidecarProcess_fst :
    (sd.isSidecarProcess procs pid).1
      = (sd.sidecarPIDs.lookup pid).getD (isSidecarName (procs.lookup pid)) := by
  rw [isSidecarProcess]
  cases sd.sidecarPIDs.lookup pid <;> rfl

theorem isSidecarProcess_of_mem (h : pid ∈ sd.sidecarPIDs) :
    (sd.isSidecarProcess procs pid).2 = sd := by
  obtain ⟨known, hknown⟩ := Finmap.mem_iff.mp h
  rw [isSidecarProcess, hknown]

theorem isSidecarProcess_of_notMem (h : pid ∉ sd.sidecarPIDs) :
    (sd.isSidecarProcess procs pid).2
      = { pidToComm := sd.pidToComm.insert pid (readProcComm (procs.lookup pid))
          sidecarPIDs := sd.sidecarPIDs.insert pid (isSidecarName (procs.lookup pid)) } := by
  rw [isSidecarProcess, Finmap.lookup_eq_none.mpr h]

/-- What was answered once is kept. -/
theorem lookup_isSidecarProcess (pid' : UInt32) :
    (sd.isSidecarProcess procs pid).2.sidecarPIDs.lookup pid'
      = (sd.sidecarPIDs.lookup pid').or
          (if pid = pid' then some (isSidecarName (procs.lookup pid')) else none) := by
  by_cases hmem : pid ∈ sd.sidecarPIDs
  · rw [isSidecarProcess_of_mem sd procs pid hmem]
    by_cases heq : pid = pid'
    · obtain ⟨known, hknown⟩ := Finmap.mem_iff.mp hmem
      rw [← heq, hknown]
      rfl
    · rw [if_neg heq, Option.or_none]
  · rw [isSidecarProcess_of_notMem sd procs pid hmem, FinMap.lookup_insert_ite]
    by_cases heq : pid = pid'
    · have hnone : sd.sidecarPIDs.lookup pid' = none := Finmap.lookup_eq_none.mpr (heq ▸ hmem)
      rw [if_pos heq.symm, if_pos heq, heq, hnone, Option.none_or]
    · rw [if_neg (Ne.symm heq), if_neg heq, Option.or_none]

end SidecarDetector

/-! ### The agent and the processes -/

/-- What the handlers ask of processes. -/
structure SidecarAgent where
  host : ByteOrder
  sidecarDetector : SidecarDetector
  enricher : Enricher

/-- What happens on a node: processes start and exit, the agent handles connection events
and the snapshots of a poll one by one. -/
inductive ProcessEvent
  | start (pid : UInt32) (comm : List Char)
  | exit (pid : UInt32)
  | connect (evt : ConnectEvent) (t : Enricher.Clock) (fs : Enricher.ProcFS)
  | establish (evt : EstablishEvent) (t : Enricher.Clock) (fs : Enricher.ProcFS)
  | close (evt : CloseEvent)
  | snapshot (f : FlowSnapshot) (t : Enricher.Clock) (fs : Enricher.ProcFS)

namespace SidecarAgent

variable (order : RangeOrder UInt32) (a : SidecarAgent)

def handleConnect (evt : ConnectEvent) (t : Enricher.Clock) (fs : Enricher.ProcFS) :
    SidecarAgent :=
  { a with enricher := (Enricher.enrichComm order a.enricher evt.pid evt.comm.toList t fs).2 }

def handleEstablish (evt : EstablishEvent) (t : Enricher.Clock) (fs : Enricher.ProcFS) :
    SidecarAgent :=
  { a with enricher := (Enricher.enrichComm order a.enricher evt.pid evt.comm.toList t fs).2 }

def handleClose (evt : CloseEvent) : SidecarAgent :=
  { a with enricher := a.enricher.evict evt.pid }

/-- Whether the detector is asked for a flow: its addresses and ports do not say. -/
def asks (host : ByteOrder) (f : FlowSnapshot) : Bool :=
  !(Enricher.isLoopback host f.srcIP f.dstIP || Enricher.isSidecarPort f.srcPort
    || Enricher.isSidecarPort f.dstPort)

/-- The decision of `handlePoll` on a flow, with the detector after it. -/
def isSidecar (procs : ProcessTable) (f : FlowSnapshot) : Bool × SidecarDetector :=
  if asks a.host f then a.sidecarDetector.isSidecarProcess procs f.pid
  else (true, a.sidecarDetector)

/-- One round of the loop of `handlePoll`. -/
def handleSnapshot (procs : ProcessTable) (f : FlowSnapshot) (t : Enricher.Clock)
    (fs : Enricher.ProcFS) : SidecarAgent :=
  { a with
    sidecarDetector := (a.isSidecar procs f).2
    enricher := (Enricher.lookup order a.enricher f.pid t fs).2 }

/-- It is the decision with the detector's answer as the verdict on the process. -/
theorem isSidecar_eq (procs : ProcessTable) (f : FlowSnapshot) (b : Agent) (h : b.host = a.host) :
    (a.isSidecar procs f).1
      = b.isSidecar f (a.sidecarDetector.isSidecarProcess procs f.pid).1 := by
  rw [isSidecar, asks, Agent.isSidecar, h]
  cases Enricher.isLoopback a.host f.srcIP f.dstIP || Enricher.isSidecarPort f.srcPort
      || Enricher.isSidecarPort f.dstPort <;> rfl

end SidecarAgent

/-- A start under an ID that is in use does not happen. -/
def ProcessTable.step (procs : ProcessTable) : ProcessEvent → ProcessTable
  | .start pid comm => if pid ∈ procs then procs else procs.insert pid comm
  | .exit pid => procs.erase pid
  | _ => procs

/-- The processes beside the agent. -/
structure ProcessWatch where
  procs : ProcessTable
  agent : SidecarAgent

namespace ProcessWatch

/-- An agent that has just started. -/
def new (host : ByteOrder) (cfg : Enricher.Config) : ProcessWatch :=
  ⟨∅, ⟨host, ⟨∅, ∅⟩, Enricher.new cfg⟩⟩

section
variable (order : RangeOrder UInt32)

def handle (s : ProcessWatch) : ProcessEvent → SidecarAgent
  | .connect evt t fs => s.agent.handleConnect order evt t fs
  | .establish evt t fs => s.agent.handleEstablish order evt t fs
  | .close evt => s.agent.handleClose evt
  | .snapshot f t fs => s.agent.handleSnapshot order s.procs f t fs
  | _ => s.agent

def step (s : ProcessWatch) (ev : ProcessEvent) : ProcessWatch :=
  ⟨ProcessTable.step s.procs ev, handle order s ev⟩

def run (host : ByteOrder) (cfg : Enricher.Config) (h : List ProcessEvent) : ProcessWatch :=
  h.foldl (step order) (new host cfg)

end

/-- The detector's tables have running processes only. -/
def TablesLive (s : ProcessWatch) : Prop :=
  s.agent.sidecarDetector.pidToComm.keys ⊆ s.procs.keys ∧
    s.agent.sidecarDetector.sidecarPIDs.keys ⊆ s.procs.keys

/-- No process exits that the detector has an entry of, and a poll asks for running
processes only. -/
def Steady (s : ProcessWatch) : ProcessEvent → Prop
  | .exit pid => s.agent.sidecarDetector.Forgot pid
  | .snapshot f _ _ => SidecarAgent.asks s.agent.host f = true → f.pid ∈ s.procs
  | _ => True

/-! ### What the detector knows -/

end ProcessWatch

namespace ProcessEvent

/-- The event is the snapshot of a flow of this process, for which the detector is asked. -/
def asksFor (host : ByteOrder) (pid : UInt32) : ProcessEvent → Bool
  | .snapshot f _ _ => SidecarAgent.asks host f && f.pid == pid
  | _ => false

/-- What the first poll that asks for a process ID finds under it, if one does. -/
def firstFound (host : ByteOrder) (pid : UInt32) :
    ProcessTable → List ProcessEvent → Option (Option (List Char))
  | _, [] => none
  | procs, ev :: h =>
    if ev.asksFor host pid then some (procs.lookup pid)
    else firstFound host pid (ProcessTable.step procs ev) h

end ProcessEvent

namespace ProcessWatch

open SidecarDetector ProcessEvent

variable {order : RangeOrder UInt32} {s : ProcessWatch}

theorem host_step (s : ProcessWatch) (ev : ProcessEvent) :
    (step order s ev).agent.host = s.agent.host := by
  cases ev <;> rfl

theorem sidecarDetector_step (s : ProcessWatch) (ev : ProcessEvent) :
    (step order s ev).agent.sidecarDetector = match ev with
      | .snapshot f _ _ => (s.agent.isSidecar s.procs f).2
      | _ => s.agent.sidecarDetector := by
  cases ev <;> rfl

theorem isSidecar_of_asks {a : SidecarAgent} {f : FlowSnapshot} (procs : ProcessTable)
    (h : SidecarAgent.asks a.host f = true) :
    a.isSidecar procs f = a.sidecarDetector.isSidecarProcess procs f.pid := if_pos h

theorem isSidecar_of_not_asks {a : SidecarAgent} {f : FlowSnapshot} (procs : ProcessTable)
    (h : ¬ SidecarAgent.asks a.host f = true) :
    a.isSidecar procs f = (true, a.sidecarDetector) := if_neg h

/-- One event leaves the verdicts there are, and adds one if a poll asks for it. -/
theorem lookup_step (s : ProcessWatch) (ev : ProcessEvent) (pid : UInt32) :
    (step order s ev).agent.sidecarDetector.sidecarPIDs.lookup pid
      = (s.agent.sidecarDetector.sidecarPIDs.lookup pid).or
          (if ev.asksFor s.agent.host pid then some (isSidecarName (s.procs.lookup pid))
            else none) := by
  rw [sidecarDetector_step]
  cases ev with
  | snapshot f t fs =>
    show (s.agent.isSidecar s.procs f).2.sidecarPIDs.lookup pid = _
    by_cases hasks : SidecarAgent.asks s.agent.host f = true
    · rw [isSidecar_of_asks s.procs hasks, lookup_isSidecarProcess, asksFor, hasks, Bool.true_and]
      simp only [beq_iff_eq]
    · rw [isSidecar_of_not_asks s.procs hasks, asksFor, Bool.eq_false_of_not_eq_true hasks,
        Bool.false_and, if_neg Bool.false_ne_true, Option.or_none]
  | _ => exact (Option.or_none).symm

/-- **The verdict** is on what the first poll that asked for the process ID found. -/
theorem lookup_foldl (s : ProcessWatch) (h : List ProcessEvent) (pid : UInt32) :
    (h.foldl (step order) s).agent.sidecarDetector.sidecarPIDs.lookup pid
      = (s.agent.sidecarDetector.sidecarPIDs.lookup pid).or
          ((firstFound s.agent.host pid s.procs h).map isSidecarName) := by
  induction h generalizing s with
  | nil => exact (Option.or_none).symm
  | cons ev h ih =>
    rw [List.foldl_cons, ih, lookup_step, host_step, firstFound]
    by_cases hasks : ev.asksFor s.agent.host pid = true
    · rw [if_pos hasks, if_pos hasks, Option.or_assoc]
      rfl
    · rw [if_neg hasks, if_neg hasks, Option.or_none]
      rfl

theorem procs_foldl (s : ProcessWatch) (h : List ProcessEvent) :
    (h.foldl (step order) s).procs = h.foldl ProcessTable.step s.procs := by
  induction h generalizing s with
  | nil => rfl
  | cons ev h ih => exact ih _

theorem host_foldl (s : ProcessWatch) (h : List ProcessEvent) :
    (h.foldl (step order) s).agent.host = s.agent.host := by
  induction h generalizing s with
  | nil => rfl
  | cons ev h ih => exact (ih _).trans (host_step s ev)

/-- The processes after some events. -/
def processes (h : List ProcessEvent) : ProcessTable := h.foldl ProcessTable.step ∅

variable {host : ByteOrder} {cfg : Enricher.Config}

theorem procs_run (h : List ProcessEvent) : (run order host cfg h).procs = processes h :=
  procs_foldl _ h

theorem host_run (h : List ProcessEvent) : (run order host cfg h).agent.host = host :=
  host_foldl _ h

theorem lookup_run (h : List ProcessEvent) (pid : UInt32) :
    (run order host cfg h).agent.sidecarDetector.sidecarPIDs.lookup pid
      = (firstFound host pid ∅ h).map isSidecarName := by
  have hnew : (new host cfg).agent.sidecarDetector.sidecarPIDs.lookup pid = none :=
    Finmap.lookup_empty pid
  rw [run, lookup_foldl, hnew, Option.none_or]
  rfl

/-! ### The decisions -/

/-- The decision on a flow whose process runs is the one on that process. -/
def DecidesRight (order : RangeOrder UInt32) (host : ByteOrder) (cfg : Enricher.Config)
    (h : List ProcessEvent) (f : FlowSnapshot) : Prop :=
  ∀ comm, (processes h).lookup f.pid = some comm →
    ((run order host cfg h).agent.isSidecar (processes h) f).1
      = (!SidecarAgent.asks host f || isSidecarName (some comm))

/-- If the detector is asked, and was asked for the process ID before, then what was found
under it the first time, a process or none, was a sidecar just if its process now is. -/
def SameKind (host : ByteOrder) (h : List ProcessEvent) (f : FlowSnapshot) : Prop :=
  SidecarAgent.asks host f = true → ∀ comm, (processes h).lookup f.pid = some comm →
    ∀ found, firstFound host f.pid ∅ h = some found →
      isSidecarName found = isSidecarName (some comm)

theorem decidesRight_iff (h : List ProcessEvent) (f : FlowSnapshot) :
    DecidesRight order host cfg h f ↔ SameKind host h f := by
  by_cases hasks : SidecarAgent.asks host f = true
  · have hdecision : ∀ procs, ((run order host cfg h).agent.isSidecar procs f).1
        = ((firstFound host f.pid ∅ h).map isSidecarName).getD
            (isSidecarName (procs.lookup f.pid)) := fun procs => by
      rw [isSidecar_of_asks procs (by rw [host_run]; exact hasks), isSidecarProcess_fst, lookup_run]
    have himp : SameKind host h f ↔ ∀ comm, (processes h).lookup f.pid = some comm →
        ∀ found, firstFound host f.pid ∅ h = some found →
          isSidecarName found = isSidecarName (some comm) :=
      ⟨fun hkind => hkind hasks, fun hkind _ => hkind⟩
    rw [himp]
    refine forall₂_congr fun comm hcomm => ?_
    rw [hdecision, hcomm, hasks, Bool.not_true, Bool.false_or]
    cases firstFound host f.pid ∅ h with
    | none => exact iff_of_true rfl fun found hfound => absurd hfound.symm (Option.some_ne_none _)
    | some found =>
      constructor
      · intro hsame found' hfound'
        rw [← Option.some.inj hfound']
        exact hsame
      · exact fun hkind => hkind found rfl
  · refine iff_of_true (fun comm _ => ?_) fun hyes => absurd hyes hasks
    rw [isSidecar_of_not_asks _ (by rw [host_run]; exact hasks),
      Bool.eq_false_of_not_eq_true hasks]
    rfl

/-! ### The tables -/

theorem keys_subset_start (procs : ProcessTable) (pid : UInt32) (comm : List Char) :
    procs.keys ⊆ (ProcessTable.step procs (.start pid comm)).keys := by
  rw [ProcessTable.step]
  split_ifs with hmem
  · exact Finset.Subset.refl _
  · rw [FinMap.keys_insert]
    exact Finset.subset_insert pid procs.keys

theorem keys_insert_subset_iff {ν : Type*} {m : FinMap UInt32 ν} {procs : ProcessTable}
    (h : m.keys ⊆ procs.keys) (pid : UInt32) (v : ν) :
    (m.insert pid v).keys ⊆ procs.keys ↔ pid ∈ procs := by
  rw [FinMap.keys_insert, Finset.insert_subset_iff, Finmap.mem_keys]
  exact and_iff_left h

theorem keys_subset_exit_iff {ν : Type*} {m : FinMap UInt32 ν} {procs : ProcessTable}
    (h : m.keys ⊆ procs.keys) (pid : UInt32) :
    m.keys ⊆ (ProcessTable.step procs (.exit pid)).keys ↔ pid ∉ m := by
  rw [ProcessTable.step, FinMap.keys_erase, Finset.subset_erase, Finmap.mem_keys]
  exact and_iff_right h

/-- **One event** keeps running processes only in the tables exactly when it is steady. -/
theorem tablesLive_step_iff (h : s.TablesLive) (ev : ProcessEvent) :
    (step order s ev).TablesLive ↔ s.Steady ev := by
  cases ev with
  | start pid comm =>
    have hkeys := keys_subset_start s.procs pid comm
    exact iff_of_true ⟨h.1.trans hkeys, h.2.trans hkeys⟩ trivial
  | exit pid =>
    exact and_congr (keys_subset_exit_iff h.1 pid) (keys_subset_exit_iff h.2 pid)
  | snapshot f t fs =>
    show (s.agent.isSidecar s.procs f).2.pidToComm.keys ⊆ s.procs.keys ∧
      (s.agent.isSidecar s.procs f).2.sidecarPIDs.keys ⊆ s.procs.keys ↔ _
    by_cases hasks : SidecarAgent.asks s.agent.host f = true
    · have hsteady : s.Steady (.snapshot f t fs) ↔ f.pid ∈ s.procs :=
        ⟨fun hs => hs hasks, fun hmem _ => hmem⟩
      rw [isSidecar_of_asks s.procs hasks, hsteady]
      by_cases hmem : f.pid ∈ s.agent.sidecarDetector.sidecarPIDs
      · rw [isSidecarProcess_of_mem _ _ _ hmem]
        exact iff_of_true h (Finmap.mem_keys.mp (h.2 (Finmap.mem_keys.mpr hmem)))
      · rw [isSidecarProcess_of_notMem _ _ _ hmem, keys_insert_subset_iff h.1,
          keys_insert_subset_iff h.2, and_self_iff]
    · rw [isSidecar_of_not_asks s.procs hasks]
      exact iff_of_true h fun hyes => absurd hyes hasks
  | _ => exact iff_of_true h trivial

/-- What `InvalidatePID` would keep, called for a process that exits. -/
theorem tablesLive_invalidatePID (h : s.TablesLive) (pid : UInt32) :
    TablesLive
      { procs := ProcessTable.step s.procs (.exit pid)
        agent := { s.agent with
          sidecarDetector := s.agent.sidecarDetector.invalidatePID pid } } := by
  constructor
  · refine (keys_subset_exit_iff ?_ pid).mpr Finmap.notMem_erase_self
    rw [invalidatePID, FinMap.keys_erase]
    exact (Finset.erase_subset pid _).trans h.1
  · refine (keys_subset_exit_iff ?_ pid).mpr Finmap.notMem_erase_self
    rw [invalidatePID, FinMap.keys_erase]
    exact (Finset.erase_subset pid _).trans h.2

/-- The verdicts are on the processes that run. -/
def Current (s : ProcessWatch) : Prop :=
  ∀ pid known, s.agent.sidecarDetector.sidecarPIDs.lookup pid = some known →
    known = isSidecarName (s.procs.lookup pid)

theorem current_step {ev : ProcessEvent} (hlive : s.TablesLive) (hsteady : s.Steady ev)
    (h : s.Current) : (step order s ev).Current := by
  intro pid known hknown
  rw [lookup_step, Option.or_eq_some_iff] at hknown
  -- the process under a cached ID, and under one asked for, stays
  have hstay : (step order s ev).procs.lookup pid = s.procs.lookup pid ∨
      s.agent.sidecarDetector.sidecarPIDs.lookup pid = none ∧
        ev.asksFor s.agent.host pid = false := by
    cases ev with
    | start pid' comm =>
      by_cases hcached : pid ∈ s.agent.sidecarDetector.sidecarPIDs
      · have hmem : pid ∈ s.procs := Finmap.mem_keys.mp (hlive.2 (Finmap.mem_keys.mpr hcached))
        left
        show (ProcessTable.step s.procs (.start pid' comm)).lookup pid = _
        rw [ProcessTable.step]
        split_ifs with hin
        · rfl
        · exact Finmap.lookup_insert_of_ne _ fun heq => hin (heq ▸ hmem)
      · exact Or.inr ⟨Finmap.lookup_eq_none.mpr hcached, rfl⟩
    | exit pid' =>
      by_cases heq : pid = pid'
      · exact Or.inr ⟨Finmap.lookup_eq_none.mpr (heq ▸ hsteady.2), rfl⟩
      · exact Or.inl (Finmap.lookup_erase_ne heq)
    | _ => exact Or.inl rfl
  rcases hstay with hstay | ⟨hnone, hno⟩
  · rw [hstay]
    rcases hknown with hold | ⟨-, hnew⟩
    · exact h pid known hold
    · split_ifs at hnew
      exact (Option.some.inj hnew).symm
  · rw [hnone, hno] at hknown
    rcases hknown with hold | ⟨-, hnew⟩
    · exact absurd hold.symm (Option.some_ne_none known)
    · exact absurd hnew.symm (Option.some_ne_none known)

/-! ### Every run -/

/-- What holds of the flow of each snapshot of a run, with the events before it. -/
def AtSnapshots (P : List ProcessEvent → FlowSnapshot → Prop) (h : List ProcessEvent) : Prop :=
  ∀ before f t fs rest, h = before ++ .snapshot f t fs :: rest → P before f

theorem tablesLive_new : (new host cfg).TablesLive :=
  ⟨Finset.empty_subset _, Finset.empty_subset _⟩

theorem steady_iff (h : List ProcessEvent) :
    (∀ m, (run order host cfg (h.take m)).TablesLive) ↔
      History.Along (step order) Steady (new host cfg) h := by
  have hstep : ∀ s ev, TablesLive s → ((step order s ev).TablesLive ↔ s.Steady ev) :=
    fun _ ev hlive => tablesLive_step_iff hlive ev
  exact History.forall_take_iff_of_state hstep tablesLive_new h

theorem current_of_steady {h : List ProcessEvent}
    (hsteady : History.Along (step order) Steady (new host cfg) h) (m : ℕ) :
    (run order host cfg (h.take m)).Current := by
  have hstep : ∀ s ev, TablesLive s ∧ Current s →
      ((step order s ev).TablesLive ∧ (step order s ev).Current ↔ s.Steady ev) := by
    rintro s ev ⟨hlive, hcurrent⟩
    rw [tablesLive_step_iff hlive]
    exact and_iff_left_of_imp fun hs => current_step hlive hs hcurrent
  have hnew : (new host cfg).TablesLive ∧ (new host cfg).Current := by
    refine ⟨tablesLive_new, fun pid known hknown => ?_⟩
    exact absurd ((Finmap.lookup_empty pid).symm.trans hknown) (Option.some_ne_none known).symm
  exact ((History.forall_take_iff_of_state hstep hnew h).mpr hsteady m).2

theorem decidesRight_of_current {h : List ProcessEvent} {f : FlowSnapshot}
    (hcurrent : (run order host cfg h).Current) : DecidesRight order host cfg h f := by
  rw [decidesRight_iff]
  intro _ comm hcomm found hfound
  have hknown := (@lookup_run order host cfg h f.pid).trans
    (congrArg (Option.map isSidecarName) hfound)
  rw [hcurrent f.pid _ hknown, procs_run, hcomm]

/-- **Over a run** the decisions are right exactly when a process for which the detector is
asked is always of the kind that was found first under its ID; and they are, with tables
of running processes only, exactly when no process exits that was asked for and none is
asked for that does not run. -/
theorem follows_process_iff (order : RangeOrder UInt32) (host : ByteOrder)
    (cfg : Enricher.Config) (h : List ProcessEvent) :
    (AtSnapshots (DecidesRight order host cfg) h ↔ AtSnapshots (SameKind host) h) ∧
    (AtSnapshots (DecidesRight order host cfg) h ∧
        (∀ m, (run order host cfg (h.take m)).TablesLive) ↔
      History.Along (step order) Steady (new host cfg) h) := by
  constructor
  · constructor
    · intro hright before f t fs rest heq
      exact (decidesRight_iff before f).mp (hright before f t fs rest heq)
    · intro hkind before f t fs rest heq
      exact (decidesRight_iff before f).mpr (hkind before f t fs rest heq)
  · rw [steady_iff]
    refine and_iff_right_of_imp fun hsteady before f t fs rest heq => ?_
    have hcurrent := current_of_steady hsteady before.length
    rw [heq, List.take_left] at hcurrent
    exact decidesRight_of_current hcurrent

/-- The flow of an application that has the process ID of an Envoy that has exited, and
whose connections are closed: it is taken for a sidecar's. -/
theorem reused_pid_dropped :
    let f : FlowSnapshot :=
      { srcIP := 1, dstIP := 2, srcPort := 40000, dstPort := 443, pid := 7, protocol := 6,
        direction := 0 }
    let closed : CloseEvent :=
      { direction := 0, protocol := 6, pid := 7, cookie := 1, srcIP := 1, dstIP := 2,
        srcPort := 40000, dstPort := 443, originalDstIP := 0, originalDstPort := 0,
        txBytes := 0, rxBytes := 0, retransmitBytes := 0, retransmitCount := 0,
        durationNs := 0, timestampNs := 0 }
    ¬ DecidesRight Enricher.ascendingPIDs .little ⟨0, 0, []⟩
        [.start 7 "envoy\n".toList, .snapshot f ⟨0, 0, 0, 0⟩ (fun _ => none), .exit 7,
          .close closed, .start 7 "nginx\n".toList] f := by
  intro f closed hright
  exact absurd (hright "nginx\n".toList (by decide +kernel)) (by decide +kernel)

end ProcessWatch
