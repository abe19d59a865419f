/-
The pod indexes (`pkg/k8s/informer.go`).

`onPod` writes a pod into the container, IP and name indexes and `onPodDelete`
takes it out again.  Both go by the fields of the object they are given, so the
entry of an IP that two pods have reported can be lost or handed back.  What
the IP index is for is stated beside it: `PodWatch` keeps what every live pod
reports and which pod was the last to acquire an IP.

* `PodWatch.Inv.eventCorrect_of_orderly`, `PodWatch.Inv.orderly_of_eventCorrect` —
  one event;
* `PodWatch.index_correct_iff` — a run keeps the index correct exactly when no
  delete and no re-delivery meets another pod's entry;
* `PodWatch.delete_after_takeover` — a run that does not.
-/
import Tollwing.History
import Tollwing.Informer

/-- The resource requests of a container: milli-CPUs and bytes of memory. -/
structure Container where
  cpuRequest : Option Int64
  memoryRequest : Option Int64

/-- What the handlers read of a pod.  Container IDs carry their runtime prefix. -/
structure Pod where
  id : ObjectID
  nodeName : String
  labels : FinMap String String
  podIP : String
  hostIP : String
  createdAt : ℤ
  containers : List Container
  containerStatuses : List String

/-- What follows the first `://`. -/
def afterScheme : List Char → Option (List Char)
  | [] => none
  | ':' :: '/' :: '/' :: rest => some rest
  | _ :: rest => afterScheme rest

/-- `extractContainerID`. -/
def extractContainerID (raw : String) : String :=
  match afterScheme raw.toList with
  | some rest => String.ofList rest
  | none => raw

/-- The container IDs a pod reports. -/
def Pod.containerIDs (pod : Pod) : List String :=
  (pod.containerStatuses.map extractContainerID).filter fun cid => cid ≠ ""

namespace Informer

/-- The record that `onPod` builds. -/
def podMeta (inf : Informer) (pod : Pod) : PodMeta :=
  { name := pod.id.name
    ns := pod.id.ns
    nodeName := pod.nodeName
    labels := pod.labels
    podIP := pod.podIP
    hostIP := pod.hostIP
    containers := pod.containerIDs
    cpuRequestMilli := pod.containers.foldl (fun sum c => sum + c.cpuRequest.getD 0) 0
    memoryRequestMB :=
      pod.containers.foldl (fun sum c => sum + c.memoryRequest.getD 0 / (1024 * 1024)) 0
    instanceType := (inf.nodeInstanceTypes.lookup pod.nodeName).getD ""
    createdAt := pod.createdAt }

/-- `onPod`. -/
def onPod (inf : Informer) (pod : Pod) : Informer :=
  let m := inf.podMeta pod
  { inf with
    containerToPod := pod.containerIDs.foldl (fun c cid => c.insert cid m) inf.containerToPod
    -- whoever has the entry: the handler does not look
    podIPToMeta := if pod.podIP ≠ "" then inf.podIPToMeta.insert pod.podIP m else inf.podIPToMeta
    podNameToMeta := inf.podNameToMeta.insert pod.id.key m }

/-- `onPodDelete`. -/
def onPodDelete (inf : Informer) (obj : DeletedObject Pod) : Informer :=
  match obj.get? with
  | none => inf
  | some pod =>
    { inf with
      containerToPod := pod.containerIDs.foldl (fun c cid => c.erase cid) inf.containerToPod
      -- again by the object's IP, even if the entry is another pod's by now
      podIPToMeta := inf.podIPToMeta.erase pod.podIP
      podNameToMeta := inf.podNameToMeta.erase pod.id.key }

end Informer

/-- An event of the pod informer; updates and resyncs are upserts. -/
inductive PodEvent
  | upsert (pod : Pod)
  | delete (obj : DeletedObject Pod)

/-! ### What the index is for -/

/-- The informer beside what it is told: the IP that every live pod reports,
empty if none, and the pod that was the last to acquire an IP. -/
structure PodWatch where
  inf : Informer
  reported : FinMap ObjectID String
  acquirer : FinMap String ObjectID

namespace PodWatch

def new : PodWatch := ⟨Informer.new, ∅, ∅⟩

/-- One event.  A pod acquires an IP when it begins to report it. -/
def step (s : PodWatch) : PodEvent → PodWatch
  | .upsert pod =>
    { inf := s.inf.onPod pod
      reported := s.reported.insert pod.id pod.podIP
      acquirer :=
        if pod.podIP = "" ∨ s.reported.lookup pod.id = some pod.podIP then s.acquirer
        else s.acquirer.insert pod.podIP pod.id }
  | .delete obj =>
    match obj.get? with
    | none => { s with inf := s.inf.onPodDelete obj }
    | some pod =>
      { s with
        inf := s.inf.onPodDelete obj
        reported := s.reported.erase pod.id }

/-- The pod that the index has for an IP. -/
def indexed (s : PodWatch) (ip : String) : Option ObjectID :=
  (s.inf.podIPToMeta.lookup ip).map PodMeta.id

/-- Every IP is mapped to the pod that acquired it last, if that pod is live and
still reports it. -/
def IndexCorrect (s : PodWatch) : Prop :=
  ∀ ip id, s.acquirer.lookup ip = some id → s.reported.lookup id = some ip → s.indexed ip = some id

/-- The delete of a pod leaves the entries of the other live pods. -/
def DeleteKeeps (s : PodWatch) : PodEvent → Prop
  | .upsert _ => True
  | .delete obj =>
    ∀ pod, obj.get? = some pod → ∀ ip id, s.indexed ip = some id → id ≠ pod.id →
      id ∈ s.reported → (s.step (.delete obj)).indexed ip = some id

/-- What an event has to do. -/
def EventCorrect (s : PodWatch) (ev : PodEvent) : Prop :=
  (s.step ev).IndexCorrect ∧ s.DeleteKeeps ev

/-- The event meets no entry of another pod: a delete finds none of a live pod
at the deleted object's IP, and a pod delivered again with the IP it reported
before finds no later acquirer that is live and reports the IP. -/
def Orderly (s : PodWatch) : PodEvent → Prop
  | .upsert pod =>
    s.reported.lookup pod.id = some pod.podIP →
      ∀ id, s.acquirer.lookup pod.podIP = some id → s.reported.lookup id = some pod.podIP →
        id = pod.id
  | .delete obj =>
    ∀ pod, obj.get? = some pod → ∀ id, s.indexed pod.podIP = some id → id ≠ pod.id →
      id ∉ s.reported

/-! ### One event -/

theorem indexed_upsert (s : PodWatch) (pod : Pod) (ip : String) :
    (s.step (.upsert pod)).indexed ip
      = if ip = pod.podIP ∧ ip ≠ "" then some pod.id else s.indexed ip := by
  show ((if pod.podIP ≠ "" then s.inf.podIPToMeta.insert pod.podIP _ else _).lookup ip).map _ = _
  by_cases hip : pod.podIP = ""
  · rw [if_neg (not_not_intro hip), if_neg fun h => h.2 (h.1.trans hip)]
    rfl
  · rw [if_pos hip, FinMap.lookup_insert_ite]
    by_cases heq : ip = pod.podIP
    · rw [if_pos heq, if_pos ⟨heq, heq ▸ hip⟩]
      rfl
    · rw [if_neg heq, if_neg fun h => heq h.1]
      rfl

theorem reported_upsert (s : PodWatch) (pod : Pod) :
    (s.step (.upsert pod)).reported = s.reported.insert pod.id pod.podIP := rfl

/-- A pod acquires the IP it reports unless it reported it before. -/
theorem acquirer_upsert (s : PodWatch) (pod : Pod) :
    (s.step (.upsert pod)).acquirer
      = if pod.podIP = "" ∨ s.reported.lookup pod.id = some pod.podIP then s.acquirer
        else s.acquirer.insert pod.podIP pod.id := rfl

theorem indexed_delete {s : PodWatch} {obj : DeletedObject Pod} {pod : Pod}
    (hobj : obj.get? = some pod) (ip : String) :
    (s.step (.delete obj)).indexed ip = if ip = pod.podIP then none else s.indexed ip := by
  have hinf : (s.step (.delete obj)).inf.podIPToMeta = s.inf.podIPToMeta.erase pod.podIP := by
    rw [step]
    simp only [hobj, Informer.onPodDelete]
  rw [indexed, hinf, FinMap.lookup_erase_ite]
  split_ifs <;> rfl

theorem reported_delete {s : PodWatch} {obj : DeletedObject Pod} {pod : Pod}
    (hobj : obj.get? = some pod) :
    (s.step (.delete obj)).reported = s.reported.erase pod.id := by
  rw [step]
  simp only [hobj]

/-- A delete event without an object changes nothing. -/
theorem step_delete_none {s : PodWatch} {obj : DeletedObject Pod} (hobj : obj.get? = none) :
    s.step (.delete obj) = s := by
  rw [step]
  simp only [hobj, Informer.onPodDelete]

/-- What the argument keeps: the index is correct, and no pod acquires the empty
IP. -/
structure Inv (s : PodWatch) : Prop where
  correct : s.IndexCorrect
  acquirer_empty : s.acquirer.lookup "" = none

theorem Inv.acquirer_empty_step {s : PodWatch} (h : s.Inv) (ev : PodEvent) :
    (s.step ev).acquirer.lookup "" = none := by
  cases ev with
  | upsert pod =>
    rw [acquirer_upsert]
    split_ifs with hkeep
    · exact h.acquirer_empty
    · rw [FinMap.lookup_insert_ite, if_neg fun heq => hkeep (Or.inl heq.symm)]
      exact h.acquirer_empty
  | delete obj =>
    rw [step]
    split <;> exact h.acquirer_empty

/-- An upsert leaves the index correct if it does not hand an IP back. -/
theorem Inv.indexCorrect_upsert {s : PodWatch} (h : s.Inv) {pod : Pod}
    (hord : s.Orderly (.upsert pod)) : (s.step (.upsert pod)).IndexCorrect := by
  intro ip id hacq hrep
  have hne : ip ≠ "" := by
    rintro rfl
    exact absurd ((h.acquirer_empty_step (.upsert pod)).symm.trans hacq) nofun
  rw [acquirer_upsert] at hacq
  rw [reported_upsert] at hrep
  rw [indexed_upsert]
  by_cases heq : ip = pod.podIP
  · rw [if_pos ⟨heq, hne⟩]
    by_cases hid : id = pod.id
    · rw [hid]
    · rw [Finmap.lookup_insert_of_ne _ hid] at hrep
      split_ifs at hacq with hkeep
      · -- delivered again: nobody else holds the IP
        have hsame := hkeep.resolve_left fun hempty => hne (heq.trans hempty)
        rw [heq] at hacq hrep
        rw [hord hsame id hacq hrep]
      · rw [heq, Finmap.lookup_insert] at hacq
        exact hacq
  · -- the entries of the other IPs stay
    have hold : s.acquirer.lookup ip = some id := by
      split_ifs at hacq
      · exact hacq
      · rwa [Finmap.lookup_insert_of_ne _ heq] at hacq
    have hid : id ≠ pod.id := by
      rintro rfl
      exact heq (Option.some.inj (hrep.symm.trans (Finmap.lookup_insert _)))
    rw [Finmap.lookup_insert_of_ne _ hid] at hrep
    rw [if_neg fun hboth => heq hboth.1]
    exact h.correct ip id hold hrep

/-- A delete leaves the index correct if it meets no entry of a live pod. -/
theorem Inv.indexCorrect_delete {s : PodWatch} (h : s.Inv) {obj : DeletedObject Pod}
    (hord : s.Orderly (.delete obj)) : (s.step (.delete obj)).IndexCorrect := by
  cases hobj : obj.get? with
  | none =>
    rw [step_delete_none hobj]
    exact h.correct
  | some pod =>
    intro ip id hacq hrep
    have hacq : s.acquirer.lookup ip = some id := by
      rw [step] at hacq
      simpa only [hobj] using hacq
    rw [reported_delete hobj] at hrep
    obtain ⟨hid, hrep⟩ := FinMap.lookup_erase_eq_some.mp hrep
    have hindexed := h.correct ip id hacq hrep
    rw [indexed_delete hobj]
    split_ifs with hip
    · -- an entry that goes is of a pod that is no longer live
      rw [hip] at hindexed
      exact absurd (Finmap.mem_of_lookup_eq_some hrep) (hord pod hobj id hindexed hid)
    · exact hindexed

/-- **An orderly event is handled correctly.** -/
theorem Inv.eventCorrect_of_orderly {s : PodWatch} (h : s.Inv) {ev : PodEvent}
    (hord : s.Orderly ev) : s.EventCorrect ev := by
  cases ev with
  | upsert pod => exact ⟨h.indexCorrect_upsert hord, trivial⟩
  | delete obj =>
    refine ⟨h.indexCorrect_delete hord, fun pod hobj ip id hindexed hid hlive => ?_⟩
    rw [indexed_delete hobj]
    split_ifs with hip
    · rw [hip] at hindexed
      exact absurd hlive (hord pod hobj id hindexed hid)
    · exact hindexed

/-- An event that meets another pod's entry breaks it. -/
theorem Inv.orderly_of_eventCorrect {s : PodWatch} (h : s.Inv) {ev : PodEvent}
    (hev : s.EventCorrect ev) : s.Orderly ev := by
  cases ev with
  | upsert pod =>
    intro hsame id hacq hrep
    by_contra hid
    have hne : pod.podIP ≠ "" := by
      intro hempty
      rw [hempty] at hacq
      exact absurd (h.acquirer_empty.symm.trans hacq) nofun
    -- the pod delivered again takes the entry
    have hindexed : (s.step (.upsert pod)).indexed pod.podIP = some pod.id := by
      rw [indexed_upsert, if_pos ⟨rfl, hne⟩]
    have hcorrect := hev.1 pod.podIP id ?_ ?_
    · exact hid (Option.some.inj (hcorrect.symm.trans hindexed))
    · rw [acquirer_upsert, if_pos (Or.inr hsame), hacq]
    · rw [reported_upsert, Finmap.lookup_insert_of_ne _ hid, hrep]
  | delete obj =>
    intro pod hobj id hindexed hid hlive
    have hkept := hev.2 pod hobj pod.podIP id hindexed hid hlive
    rw [indexed_delete hobj, if_pos rfl] at hkept
    exact absurd hkept nofun

/-! ### Every run -/

theorem inv_new : new.Inv where
  correct _ _ hacq := nomatch hacq
  acquirer_empty := rfl

/-- **The pod IP index is correct in exactly the orderly runs**: the last pod to
acquire an IP has its entry after every event, and no delete removes the entry
of another live pod, as long as no event meets another pod's entry, and no
longer. -/
theorem index_correct_iff (events : List PodEvent) :
    History.Along step EventCorrect new events ↔ History.Along step Orderly new events :=
  History.along_iff (fun _ ev h hev => ⟨hev.1, h.acquirer_empty_step ev⟩)
    (fun _ _ h => ⟨h.orderly_of_eventCorrect, h.eventCorrect_of_orderly⟩) inv_new events

/-- A pod of one container at an IP. -/
def podAt (name : KubeName) (ip : String) : Pod :=
  { id := ⟨⟨"prod", by decide⟩, name⟩
    nodeName := "node-1"
    labels := ∅
    podIP := ip
    hostIP := "10.0.0.1"
    createdAt := 0
    containers := [⟨some 100, none⟩]
    containerStatuses := [] }

/-- The replacement takes over the IP before the old pod's delete is delivered,
and the delete removes the replacement's entry. -/
theorem delete_after_takeover :
    ¬History.Along step EventCorrect new
      [.upsert (podAt ⟨"web-old", by decide⟩ "10.1.0.7"),
        .upsert (podAt ⟨"web-new", by decide⟩ "10.1.0.7"),
        .delete (.object (podAt ⟨"web-old", by decide⟩ "10.1.0.7"))] := by
  rintro ⟨-, -, ⟨hcorrect, -⟩, -⟩
  have hentry := hcorrect "10.1.0.7" ⟨⟨"prod", by decide⟩, ⟨"web-new", by decide⟩⟩ (by decide)
    (by decide)
  exact absurd hentry (by decide)

end PodWatch
