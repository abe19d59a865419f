/-
The ClusterIP index (`pkg/k8s/informer.go`).

`onService` writes the ClusterIPs of the object it is given and `onServiceDelete`
erases those of the deleted one, whoever has the entry.  The slices keep a record
of what each of them added; services do not.  What the index is for is stated
beside it: `ServiceWatch` keeps the live services and, for every IP, those that
have it, the last to acquire it first.

* `ServiceWatch.Inv.eventCorrect_iff` — one event;
* `ServiceWatch.clusterIP_index_iff` — a run keeps the index correct exactly when no
  event comes at the wrong moment;
* `ServiceWatch.delete_after_reuse` — a run in which one is.
-/
import Tollwing.ClusterInformer
import Tollwing.History

/-- The informer beside the services it is told of: the live ones, and the live
services that have an IP, the last to acquire it first. -/
structure ServiceWatch where
  inf : ClusterInformer
  live : FinMap ObjectID Service
  holders : String → List ObjectID

namespace ServiceWatch

def new : ServiceWatch := ⟨.new, ∅, fun _ => []⟩

/-- One event.  A service acquires an IP when it begins to have it. -/
def step (s : ServiceWatch) : ServiceEvent → ServiceWatch
  | .upsert svc =>
    { inf := s.inf.onService svc
      live := s.live.insert svc.id svc
      holders := fun ip =>
        if ip ∈ clusterIPsOf svc then
          if svc.id ∈ s.holders ip then s.holders ip else svc.id :: s.holders ip
        else (s.holders ip).erase svc.id }
  | .delete obj =>
    match obj.get? with
    | none => { s with inf := s.inf.onServiceDelete obj }
    | some svc =>
      { inf := s.inf.onServiceDelete obj
        live := s.live.erase svc.id
        holders := fun ip => (s.holders ip).erase svc.id }

/-- The index has exactly the ClusterIPs of the live services, each with the service
that acquired it last. -/
def IndexCorrect (s : ServiceWatch) : Prop :=
  ∀ ip, s.inf.lookupClusterIP ip = (s.holders ip).head?

/-- What an event has to do. -/
def EventCorrect (s : ServiceWatch) (ev : ServiceEvent) : Prop := (s.step ev).IndexCorrect

/-- A service that is delivered is the last to have acquired the IPs it keeps and not
the last to have acquired one that it drops; one that is deleted holds the IPs of
the object alone and is not the last to have acquired another. -/
def Orderly (s : ServiceWatch) : ServiceEvent → Prop
  | .upsert svc =>
    (∀ ip ∈ clusterIPsOf svc, svc.id ∈ s.holders ip → (s.holders ip).head? = some svc.id) ∧
      ∀ ip ∉ clusterIPsOf svc, (s.holders ip).head? ≠ some svc.id
  | .delete obj =>
    ∀ svc, obj.get? = some svc →
      (∀ ip ∈ clusterIPsOf svc, ∀ id ∈ s.holders ip, id = svc.id) ∧
        ∀ ip ∉ clusterIPsOf svc, (s.holders ip).head? ≠ some svc.id

/-! ### The index -/

variable {s : ServiceWatch}

theorem lookup_upsert (s : ServiceWatch) (svc : Service) (ip : String) :
    (s.step (.upsert svc)).inf.lookupClusterIP ip
      = if ip ∈ clusterIPsOf svc then some svc.id else s.inf.lookupClusterIP ip :=
  FinMap.lookup_foldl_insert _ _ _ _

theorem lookup_delete {obj : DeletedObject Service} {svc : Service} (hobj : obj.get? = some svc)
    (ip : String) :
    (s.step (.delete obj)).inf.lookupClusterIP ip
      = if ip ∈ clusterIPsOf svc then none else s.inf.lookupClusterIP ip := by
  have hinf : (s.step (.delete obj)).inf.clusterIPToSvc
      = (clusterIPsOf svc).foldl (fun m ip => m.erase ip) s.inf.clusterIPToSvc := by
    rw [step]
    simp only [hobj, ClusterInformer.onServiceDelete]
  rw [ClusterInformer.lookupClusterIP, hinf]
  exact FinMap.lookup_foldl_erase _ _ _

theorem holders_delete {obj : DeletedObject Service} {svc : Service}
    (hobj : obj.get? = some svc) (ip : String) :
    (s.step (.delete obj)).holders ip = (s.holders ip).erase svc.id := by
  rw [step]
  simp only [hobj]

/-- A delete event without an object changes nothing. -/
theorem step_delete_none {obj : DeletedObject Service} (hobj : obj.get? = none) :
    s.step (.delete obj) = s := by
  rw [step]
  simp only [hobj, ClusterInformer.onServiceDelete]

/-! ### The holders -/

/-- What the argument keeps: the index is correct, and the holders of an IP are the
live services with it, each once. -/
structure Inv (s : ServiceWatch) : Prop where
  correct : s.IndexCorrect
  nodup : ∀ ip, (s.holders ip).Nodup
  mem_holders : ∀ ip id, id ∈ s.holders ip ↔
    ∃ svc, s.live.lookup id = some svc ∧ ip ∈ clusterIPsOf svc

theorem inv_new : new.Inv where
  correct _ := rfl
  nodup _ := List.nodup_nil
  mem_holders _ _ := iff_of_false List.not_mem_nil fun ⟨_, hlive, _⟩ => absurd hlive nofun

/-- A list without its head starts with another element. -/
theorem head_erase_ne {α : Type*} [DecidableEq α] {l : List α} (h : l.Nodup) (a : α) :
    (l.erase a).head? ≠ some a := fun hhead =>
  h.not_mem_erase (List.mem_of_mem_head? hhead)

theorem head_erase_eq_iff {α : Type*} [DecidableEq α] {l : List α} (h : l.Nodup) (a : α) :
    l.head? = (l.erase a).head? ↔ l.head? ≠ some a := by
  constructor
  · intro heq hhead
    exact head_erase_ne h a (heq.symm.trans hhead)
  · intro hne
    cases l with
    | nil => rfl
    | cons b l =>
      have hba : b ≠ a := fun heq => hne (congrArg some heq)
      rw [List.erase_cons_tail (by simpa using hba)]
      rfl

theorem Inv.holders_step (h : s.Inv) (ev : ServiceEvent) :
    (∀ ip, ((s.step ev).holders ip).Nodup) ∧
      ∀ ip id, id ∈ (s.step ev).holders ip ↔
        ∃ svc, (s.step ev).live.lookup id = some svc ∧ ip ∈ clusterIPsOf svc := by
  cases ev with
  | upsert svc =>
    have hholders : ∀ ip, (s.step (.upsert svc)).holders ip
        = if ip ∈ clusterIPsOf svc then
            if svc.id ∈ s.holders ip then s.holders ip else svc.id :: s.holders ip
          else (s.holders ip).erase svc.id := fun _ => rfl
    have hlive : (s.step (.upsert svc)).live = s.live.insert svc.id svc := rfl
    refine ⟨fun ip => ?_, fun ip id => ?_⟩
    · rw [hholders]
      split_ifs with _ hmem
      · exact h.nodup ip
      · exact List.nodup_cons.mpr ⟨hmem, h.nodup ip⟩
      · exact (h.nodup ip).erase _
    · rw [hholders, hlive, FinMap.lookup_insert_ite]
      by_cases hid : id = svc.id
      · -- the service itself: it has what it lists now
        rw [if_pos hid, hid]
        constructor
        · intro hmem
          refine ⟨svc, rfl, ?_⟩
          by_contra hip
          rw [if_neg hip] at hmem
          exact (h.nodup ip).not_mem_erase hmem
        · rintro ⟨svc', hsvc, hip⟩
          obtain rfl := Option.some.inj hsvc
          rw [if_pos hip]
          split_ifs with hmem
          · exact hmem
          · exact List.mem_cons_self
      · rw [if_neg hid, ← h.mem_holders]
        split_ifs
        · rfl
        · rw [List.mem_cons, or_iff_right hid]
        · exact List.mem_erase_of_ne hid
  | delete obj =>
    cases hobj : obj.get? with
    | none =>
      rw [step_delete_none hobj]
      exact ⟨h.nodup, h.mem_holders⟩
    | some svc =>
      have hlive : (s.step (.delete obj)).live = s.live.erase svc.id := by
        rw [step]
        simp only [hobj]
      refine ⟨fun ip => ?_, fun ip id => ?_⟩
      · rw [holders_delete hobj]
        exact (h.nodup ip).erase _
      · rw [holders_delete hobj, hlive, FinMap.lookup_erase_ite]
        by_cases hid : id = svc.id
        · -- an IP is held once, so nothing is left of the service
          rw [if_pos hid, hid]
          exact iff_of_false (h.nodup ip).not_mem_erase fun ⟨_, hsvc, _⟩ => absurd hsvc nofun
        · rw [if_neg hid, List.mem_erase_of_ne hid, h.mem_holders]

/-! ### One event -/

/-- What a delivered service has to be to one IP. -/
theorem Inv.lookup_upsert_iff (h : s.Inv) (svc : Service) (ip : String) :
    (s.step (.upsert svc)).inf.lookupClusterIP ip = ((s.step (.upsert svc)).holders ip).head? ↔
      if ip ∈ clusterIPsOf svc then
        (svc.id ∈ s.holders ip → (s.holders ip).head? = some svc.id)
      else (s.holders ip).head? ≠ some svc.id := by
  rw [lookup_upsert]
  show _ = List.head? (if ip ∈ clusterIPsOf svc then
    if svc.id ∈ s.holders ip then s.holders ip else svc.id :: s.holders ip
    else (s.holders ip).erase svc.id) ↔ _
  by_cases hip : ip ∈ clusterIPsOf svc
  · -- the service has the entry now, so it has to be the last to have acquired the IP
    rw [if_pos hip, if_pos hip, if_pos hip]
    by_cases hmem : svc.id ∈ s.holders ip
    · rw [if_pos hmem]
      exact ⟨fun heq _ => heq.symm, fun hhead => (hhead hmem).symm⟩
    · rw [if_neg hmem]
      exact iff_of_true rfl fun hin => absurd hin hmem
  · -- the entry stays, and must not have been the service's
    rw [if_neg hip, if_neg hip, if_neg hip, h.correct]
    exact head_erase_eq_iff (h.nodup ip) svc.id

/-- What a deleted service has to be to one IP. -/
theorem Inv.lookup_delete_iff (h : s.Inv) {obj : DeletedObject Service} {svc : Service}
    (hobj : obj.get? = some svc) (ip : String) :
    (s.step (.delete obj)).inf.lookupClusterIP ip = ((s.step (.delete obj)).holders ip).head? ↔
      if ip ∈ clusterIPsOf svc then ∀ id ∈ s.holders ip, id = svc.id
      else (s.holders ip).head? ≠ some svc.id := by
  rw [lookup_delete hobj, holders_delete hobj]
  by_cases hip : ip ∈ clusterIPsOf svc
  · -- the entry is gone, so nobody else may have the IP
    rw [if_pos hip, if_pos hip, eq_comm, List.head?_eq_none_iff]
    constructor
    · intro hnil id hid
      by_contra hne
      have hmem : id ∈ (s.holders ip).erase svc.id := (List.mem_erase_of_ne hne).mpr hid
      rw [hnil] at hmem
      exact List.not_mem_nil hmem
    · intro hall
      refine List.eq_nil_iff_forall_not_mem.mpr fun id hid => ?_
      obtain rfl := hall id (List.mem_of_mem_erase hid)
      exact (h.nodup ip).not_mem_erase hid
  · rw [if_neg hip, if_neg hip, h.correct]
    exact head_erase_eq_iff (h.nodup ip) svc.id

/-- A condition on each IP is one on those of a service and one on the others. -/
theorem forall_ite_mem_iff {svc : Service} {p q : String → Prop} :
    (∀ ip, if ip ∈ clusterIPsOf svc then p ip else q ip) ↔
      (∀ ip ∈ clusterIPsOf svc, p ip) ∧ ∀ ip ∉ clusterIPsOf svc, q ip := by
  constructor
  · intro h
    refine ⟨fun ip hip => ?_, fun ip hip => ?_⟩
    · have hone := h ip
      rwa [if_pos hip] at hone
    · have hone := h ip
      rwa [if_neg hip] at hone
  · rintro ⟨hp, hq⟩ ip
    split_ifs with hip
    · exact hp ip hip
    · exact hq ip hip

/-- **One event** leaves the index correct exactly when it comes at the right
moment. -/
theorem Inv.eventCorrect_iff (h : s.Inv) (ev : ServiceEvent) :
    s.EventCorrect ev ↔ s.Orderly ev := by
  cases ev with
  | upsert svc => exact (forall_congr' (h.lookup_upsert_iff svc)).trans forall_ite_mem_iff
  | delete obj =>
    cases hobj : obj.get? with
    | none =>
      refine iff_of_true ?_ fun svc hsvc => ?_
      · rw [EventCorrect, step_delete_none hobj]
        exact h.correct
      · rw [hobj] at hsvc
        exact absurd hsvc nofun
    | some svc =>
      have hcorrect := (forall_congr' (h.lookup_delete_iff hobj)).trans forall_ite_mem_iff
      refine hcorrect.trans ⟨fun hord svc' hsvc => ?_, fun hord => hord svc hobj⟩
      obtain rfl := Option.some.inj (hobj.symm.trans hsvc)
      exact hord

theorem Inv.step (h : s.Inv) {ev : ServiceEvent} (hcorrect : s.EventCorrect ev) :
    (s.step ev).Inv :=
  ⟨hcorrect, (h.holders_step ev).1, (h.holders_step ev).2⟩

/-! ### Runs -/

/-- **The ClusterIP index** has, after every event of a run, exactly the ClusterIPs of
the live services, each with the service that acquired it last, if and only if every
event of the run is orderly. -/
theorem clusterIP_index_iff (events : List ServiceEvent) :
    History.Along step EventCorrect new events ↔ History.Along step Orderly new events :=
  History.along_iff (fun _ _ h hcorrect => h.step hcorrect) (fun _ ev h => h.eventCorrect_iff ev)
    inv_new events

/-- The service of an IP in a namespace of its own. -/
def oneService (ns : KubeName) (ips : List String) : Service :=
  ⟨⟨ns, ⟨"api", by decide⟩⟩, ips.headD "", ips⟩

/-- The delete of a service whose IP has been given to another takes the other's
entry. -/
theorem delete_after_reuse :
    let old := oneService ⟨"a", by decide⟩ ["10.96.0.10"]
    let next := oneService ⟨"b", by decide⟩ ["10.96.0.10"]
    let events : List ServiceEvent := [.upsert old, .upsert next, .delete (.object old)]
    let s := events.foldl step new
    (s.holders "10.96.0.10" = [next.id] ∧ s.inf.lookupClusterIP "10.96.0.10" = none) ∧
      ¬ History.Along step EventCorrect new events := by
  intro old next events s
  have hs : s.holders "10.96.0.10" = [next.id] ∧ s.inf.lookupClusterIP "10.96.0.10" = none := by
    decide +kernel
  refine ⟨hs, fun ⟨_, _, hcorrect, _⟩ => ?_⟩
  have heq : s.inf.lookupClusterIP "10.96.0.10" = (s.holders "10.96.0.10").head? :=
    hcorrect "10.96.0.10"
  rw [hs.1, hs.2] at heq
  exact absurd heq nofun

end ServiceWatch
