/-
One record a pod (`pkg/k8s/informer.go`).

`onPod` puts a new record into the three indexes and a node's instance type is
copied into the records that are already there.  Both put a record in at every
place of its pod (`Informer.putRecord`), so as long as no two pods share an IP or
a container ID, a live pod has one record, and its instance type is what its
node said last.

* `Informer.Holds` — which record the indexes have for the live pods;
* `Informer.Holds.putRecord` — putting one in changes that pod's only;
* `Informer.Holds.setInstanceType` — the backfill, in any order;
* `ClusterInformer.pods_coherent` — every interleaving of pod and node events.
-/
import Tollwing.ClusterInformer
import Tollwing.History
import Tollwing.KeyedFold

namespace Informer

/-! ### Putting a record in -/

/-- A record in the place of every index that its pod has. -/
def putRecord (inf : Informer) (key : String) (m : PodMeta) : Informer :=
  { inf with
    containerToPod := m.containers.foldl (fun c cid => c.insert cid m) inf.containerToPod
    podIPToMeta := if m.podIP ≠ "" then inf.podIPToMeta.insert m.podIP m else inf.podIPToMeta
    podNameToMeta := inf.podNameToMeta.insert key m }

/-- A round of the backfill leaves the maps or puts the updated record in. -/
theorem backfillPod_eq (nodeName instanceType : String) (inf : Informer) (key : String) :
    backfillPod nodeName instanceType inf key
      = match inf.podNameToMeta.lookup key with
        | none => inf
        | some m =>
          if m.nodeName ≠ nodeName ∨ m.instanceType = instanceType then inf
          else inf.putRecord key { m with instanceType := instanceType } := rfl

variable (inf : Informer) (key : String) (m : PodMeta)

theorem lookup_name_putRecord (k : String) :
    (inf.putRecord key m).podNameToMeta.lookup k
      = if k = key then some m else inf.podNameToMeta.lookup k :=
  FinMap.lookup_insert_ite _ _ _ _

theorem lookup_ip_putRecord {ip : String} (hip : ip ≠ "") :
    (inf.putRecord key m).podIPToMeta.lookup ip
      = if ip = m.podIP then some m else inf.podIPToMeta.lookup ip := by
  show Finmap.lookup ip (if m.podIP ≠ "" then _ else _) = _
  by_cases hm : m.podIP = ""
  · rw [if_neg (not_not_intro hm), if_neg fun heq => hip (heq.trans hm)]
  · rw [if_pos hm, FinMap.lookup_insert_ite]

theorem lookup_container_putRecord (cid : String) :
    (inf.putRecord key m).containerToPod.lookup cid
      = if cid ∈ m.containers then some m else inf.containerToPod.lookup cid :=
  FinMap.lookup_foldl_insert _ _ _ _

end Informer

/-- Two pods that share no IP and no container ID. -/
def Pod.Apart (p q : Pod) : Prop :=
  (p.podIP = q.podIP → p.podIP = "") ∧ ∀ cid ∈ p.containerIDs, cid ∉ q.containerIDs

theorem Pod.Apart.symm {p q : Pod} (h : p.Apart q) : q.Apart p :=
  ⟨fun heq => heq.trans (h.1 heq.symm), fun cid hq hp => h.2 cid hp hq⟩

namespace Informer

/-! ### The records of the live pods -/

/-- The record of a live pod is at its name, at its IP if it has one, and at its
container IDs; the name index has no other record. -/
structure Holds (inf : Informer) (live : FinMap ObjectID Pod) (record : Pod → PodMeta) : Prop where
  id_eq : ∀ id pod, live.lookup id = some pod → pod.id = id
  ip_eq : ∀ pod, (record pod).podIP = pod.podIP
  containers_eq : ∀ pod, (record pod).containers = pod.containerIDs
  name : ∀ id pod, live.lookup id = some pod →
    inf.podNameToMeta.lookup id.key = some (record pod)
  ip : ∀ id pod, live.lookup id = some pod → pod.podIP ≠ "" →
    inf.podIPToMeta.lookup pod.podIP = some (record pod)
  container : ∀ id pod, live.lookup id = some pod → ∀ cid ∈ pod.containerIDs,
    inf.containerToPod.lookup cid = some (record pod)
  exists_pod : ∀ key m, inf.podNameToMeta.lookup key = some m →
    ∃ id pod, live.lookup id = some pod ∧ ObjectID.key id = key

variable {inf : Informer} {live : FinMap ObjectID Pod} {record : Pod → PodMeta} {pod : Pod}

theorem holds_new (record : Pod → PodMeta) (hip : ∀ pod, (record pod).podIP = pod.podIP)
    (hcontainers : ∀ pod, (record pod).containers = pod.containerIDs) :
    new.Holds ∅ record where
  id_eq _ _ h := absurd h nofun
  ip_eq := hip
  containers_eq := hcontainers
  name _ _ h := absurd h nofun
  ip _ _ h := absurd h nofun
  container _ _ h := absurd h nofun
  exists_pod _ _ h := absurd h nofun

/-- **Putting a record in** changes the record of its pod and of no other. -/
theorem Holds.putRecord (h : inf.Holds live record) {record' : Pod → PodMeta} (pod : Pod)
    (hip : ∀ q, (record' q).podIP = q.podIP)
    (hcontainers : ∀ q, (record' q).containers = q.containerIDs)
    (hother : ∀ id q, live.lookup id = some q → id ≠ pod.id → record' q = record q)
    (hapart : ∀ id q, live.lookup id = some q → id ≠ pod.id → pod.Apart q) :
    (inf.putRecord pod.id.key (record' pod)).Holds (live.insert pod.id pod) record' := by
  refine ⟨FinMap.forall_lookup_insert h.id_eq rfl, hip, hcontainers, fun id q hq => ?_,
    fun id q hq hne => ?_, fun id q hq cid hcid => ?_, fun key m hm => ?_⟩
  · rw [lookup_name_putRecord]
    rcases FinMap.lookup_insert_eq_some.mp hq with ⟨hid, rfl⟩ | ⟨hid, hq⟩
    · rw [if_pos (congrArg ObjectID.key hid)]
    · -- another pod has another key
      rw [if_neg fun hkey => hid (objectKey_injective hkey), hother id q hq hid]
      exact h.name id q hq
  · rw [lookup_ip_putRecord _ _ _ hne, hip]
    rcases FinMap.lookup_insert_eq_some.mp hq with ⟨-, rfl⟩ | ⟨hid, hq⟩
    · rw [if_pos rfl]
    · -- pods that are apart share no IP but the empty one
      have hip' : q.podIP ≠ pod.podIP := fun heq =>
        hne (heq.trans ((hapart id q hq hid).1 heq.symm))
      rw [if_neg hip', hother id q hq hid]
      exact h.ip id q hq hne
  · rw [lookup_container_putRecord, hcontainers]
    rcases FinMap.lookup_insert_eq_some.mp hq with ⟨-, rfl⟩ | ⟨hid, hq⟩
    · rw [if_pos hcid]
    · rw [if_neg fun hmem => (hapart id q hq hid).2 cid hmem hcid, hother id q hq hid]
      exact h.container id q hq cid hcid
  · rw [lookup_name_putRecord] at hm
    by_cases hkey : key = pod.id.key
    · exact ⟨pod.id, pod, Finmap.lookup_insert _, hkey.symm⟩
    · rw [if_neg hkey] at hm
      obtain ⟨id, q, hq, rfl⟩ := h.exists_pod key m hm
      have hid : id ≠ pod.id := fun heq => hkey (congrArg ObjectID.key heq)
      exact ⟨id, q, (Finmap.lookup_insert_of_ne _ hid).trans hq, rfl⟩

/-- Records that agree on the live pods. -/
theorem Holds.congr (h : inf.Holds live record) {record' : Pod → PodMeta}
    (hip : ∀ q, (record' q).podIP = q.podIP)
    (hcontainers : ∀ q, (record' q).containers = q.containerIDs)
    (heq : ∀ id q, live.lookup id = some q → record' q = record q) : inf.Holds live record' where
  id_eq := h.id_eq
  ip_eq := hip
  containers_eq := hcontainers
  name id q hq := by rw [heq id q hq]; exact h.name id q hq
  ip id q hq := by rw [heq id q hq]; exact h.ip id q hq
  container id q hq := by rw [heq id q hq]; exact h.container id q hq
  exists_pod := h.exists_pod

/-- A deleted pod leaves the others their records. -/
theorem Holds.onPodDelete (h : inf.Holds live record) {obj : DeletedObject Pod}
    (hobj : obj.get? = some pod)
    (hapart : ∀ id q, live.lookup id = some q → id ≠ pod.id → pod.Apart q) :
    (inf.onPodDelete obj).Holds (live.erase pod.id) record := by
  have hinf : inf.onPodDelete obj =
      { inf with
        containerToPod := pod.containerIDs.foldl (fun c cid => c.erase cid) inf.containerToPod
        podIPToMeta := inf.podIPToMeta.erase pod.podIP
        podNameToMeta := inf.podNameToMeta.erase pod.id.key } := by
    rw [Informer.onPodDelete, hobj]
  rw [hinf]
  -- none of the places erased is one of the pods that are left
  refine ⟨FinMap.forall_lookup_erase h.id_eq, h.ip_eq, h.containers_eq, fun id q hq => ?_,
    fun id q hq hne => ?_, fun id q hq cid hcid => ?_, fun key m hm => ?_⟩
  · obtain ⟨hid, hq⟩ := FinMap.lookup_erase_eq_some.mp hq
    have hkey : id.key ≠ pod.id.key := fun heq => hid (objectKey_injective heq)
    exact (Finmap.lookup_erase_ne hkey).trans (h.name id q hq)
  · obtain ⟨hid, hq⟩ := FinMap.lookup_erase_eq_some.mp hq
    have hip : q.podIP ≠ pod.podIP := fun heq => hne (heq.trans ((hapart id q hq hid).1 heq.symm))
    exact (Finmap.lookup_erase_ne hip).trans (h.ip id q hq hne)
  · obtain ⟨hid, hq⟩ := FinMap.lookup_erase_eq_some.mp hq
    refine (FinMap.lookup_foldl_erase _ _ _).trans ?_
    rw [if_neg fun hmem => (hapart id q hq hid).2 cid hmem hcid]
    exact h.container id q hq cid hcid
  · obtain ⟨hkey, hm⟩ := FinMap.lookup_erase_eq_some.mp hm
    obtain ⟨id, q, hq, rfl⟩ := h.exists_pod key m hm
    have hid : id ≠ pod.id := fun heq => hkey (congrArg ObjectID.key heq)
    exact ⟨id, q, (Finmap.lookup_erase_ne hid).trans hq, rfl⟩

/-! ### The backfill -/

/-- The record of a pod once the rounds of some keys are done. -/
def backfilled (nodeName instanceType : String) (record : Pod → PodMeta) (done : List String)
    (pod : Pod) : PodMeta :=
  if (record pod).nodeName = nodeName ∧ pod.id.key ∈ done then
    { record pod with instanceType := instanceType }
  else record pod

theorem ip_backfilled (h : ∀ q, (record q).podIP = q.podIP) (nodeName it : String)
    (done : List String) (q : Pod) : (backfilled nodeName it record done q).podIP = q.podIP := by
  rw [backfilled]
  split_ifs <;> exact h q

theorem containers_backfilled (h : ∀ q, (record q).containers = q.containerIDs)
    (nodeName it : String) (done : List String) (q : Pod) :
    (backfilled nodeName it record done q).containers = q.containerIDs := by
  rw [backfilled]
  split_ifs <;> exact h q

theorem nodeName_backfilled (nodeName it : String) (done : List String) (q : Pod) :
    (backfilled nodeName it record done q).nodeName = (record q).nodeName := by
  rw [backfilled]
  split_ifs <;> rfl

/-- One more round. -/
theorem backfilled_concat (nodeName it : String) (done : List String) (key : String) (q : Pod) :
    backfilled nodeName it record (done ++ [key]) q
      = if (record q).nodeName = nodeName ∧ q.id.key = key then
          { record q with instanceType := it }
        else backfilled nodeName it record done q := by
  rw [backfilled, backfilled]
  simp only [List.mem_append, List.mem_singleton]
  by_cases hnode : (record q).nodeName = nodeName
  · by_cases hkey : q.id.key = key
    · rw [if_pos ⟨hnode, Or.inr hkey⟩, if_pos ⟨hnode, hkey⟩]
    · simp only [hnode, hkey, or_false, and_false, if_false]
  · simp only [hnode, false_and, if_false]

/-- **One round of the backfill.** -/
theorem Holds.backfillPod {nodeName it : String} {done : List String}
    (h : inf.Holds live (backfilled nodeName it record done))
    (hrec : (∀ q, (record q).podIP = q.podIP) ∧ ∀ q, (record q).containers = q.containerIDs)
    (hapart : ∀ id q id' q', live.lookup id = some q → live.lookup id' = some q' → id ≠ id' →
      q.Apart q') (key : String) :
    (Informer.backfillPod nodeName it inf key).Holds live
      (backfilled nodeName it record (done ++ [key])) := by
  have hip : ∀ q, (backfilled nodeName it record (done ++ [key]) q).podIP = q.podIP := fun q =>
    ip_backfilled hrec.1 _ _ _ q
  have hcontainers : ∀ q,
      (backfilled nodeName it record (done ++ [key]) q).containers = q.containerIDs := fun q =>
    containers_backfilled hrec.2 _ _ _ q
  rw [backfillPod_eq]
  cases hlookup : inf.podNameToMeta.lookup key with
  | none =>
    refine h.congr hip hcontainers fun id q hq => ?_
    rw [backfilled_concat, if_neg]
    rintro ⟨-, rfl⟩
    rw [h.id_eq id q hq, h.name id q hq] at hlookup
    exact absurd hlookup nofun
  | some m =>
    obtain ⟨id, q, hq, rfl⟩ := h.exists_pod key m hlookup
    obtain rfl := h.id_eq id q hq
    have hm : backfilled nodeName it record done q = m :=
      Option.some.inj ((h.name _ q hq).symm.trans hlookup)
    have hnode : (record q).nodeName = m.nodeName := by rw [← hm, nodeName_backfilled]
    -- the pod of the key is the only one with it
    have hsame : ∀ id' q', live.lookup id' = some q' → q'.id.key = q.id.key → q' = q := by
      intro id' q' hq' hkey
      have hid : q'.id = q.id := objectKey_injective hkey
      rw [← h.id_eq id' q' hq', hid, hq] at hq'
      exact (Option.some.inj hq').symm
    dsimp only
    split_ifs with hskip
    · refine h.congr hip hcontainers fun id' q' hq' => ?_
      rw [backfilled_concat]
      split_ifs with hboth
      · obtain rfl := hsame id' q' hq' hboth.2
        have hit := hskip.resolve_left (not_not_intro (hnode.symm.trans hboth.1))
        -- the record has the instance type already
        rw [← hm, backfilled] at hit
        rw [backfilled]
        split_ifs at hit ⊢
        · rfl
        · rw [← hit]
      · rfl
    · rw [not_or, not_not] at hskip
      have hnew : backfilled nodeName it record (done ++ [q.id.key]) q
          = { m with instanceType := it } := by
        rw [backfilled_concat, if_pos ⟨hnode.trans hskip.1, rfl⟩, ← hm, backfilled]
        split_ifs <;> rfl
      have hput := h.putRecord q hip hcontainers (fun id' q' hq' hne => ?_)
        (fun id' q' hq' hne => hapart _ q id' q' hq hq' hne.symm)
      · rwa [hnew, FinMap.insert_of_lookup hq] at hput
      · rw [backfilled_concat, if_neg fun hboth => ?_]
        exact hne ((h.id_eq id' q' hq').symm.trans (congrArg Pod.id (hsame id' q' hq' hboth.2)))

theorem Holds.foldl_backfillPod {nodeName it : String} {done : List String}
    (h : inf.Holds live (backfilled nodeName it record done))
    (hrec : (∀ q, (record q).podIP = q.podIP) ∧ ∀ q, (record q).containers = q.containerIDs)
    (hapart : ∀ id q id' q', live.lookup id = some q → live.lookup id' = some q' → id ≠ id' →
      q.Apart q') (keys : List String) :
    (keys.foldl (Informer.backfillPod nodeName it) inf).Holds live
      (backfilled nodeName it record (done ++ keys)) := by
  induction keys generalizing inf done with
  | nil => rwa [List.append_nil]
  | cons key keys ih =>
    have hnext := ih (h.backfillPod hrec hapart key)
    rwa [List.append_assoc] at hnext

/-- The backfill changes the records only. -/
theorem nodeInstanceTypes_backfillPod (nodeName it : String) (inf : Informer) (key : String) :
    (Informer.backfillPod nodeName it inf key).nodeInstanceTypes = inf.nodeInstanceTypes := by
  rw [backfillPod_eq]
  split
  · rfl
  · split_ifs <;> rfl

theorem nodeInstanceTypes_setInstanceType (inf : Informer) (nodeName it : String)
    (order : RangeOrder String) :
    (inf.setInstanceType nodeName it order).nodeInstanceTypes
      = inf.nodeInstanceTypes.insert nodeName it :=
  KeyedFold.const_foldl (π := Informer.nodeInstanceTypes)
    (nodeInstanceTypes_backfillPod nodeName it) _ _

/-- What `onPod` builds depends on the node cache alone. -/
theorem podMeta_congr {inf inf' : Informer} (h : inf.nodeInstanceTypes = inf'.nodeInstanceTypes) :
    inf.podMeta = inf'.podMeta := by
  funext pod
  rw [Informer.podMeta, Informer.podMeta, h]

/-- **The backfill**, in any order, leaves every live pod the record that `onPod`
would build now. -/
theorem Holds.setInstanceType (h : inf.Holds live inf.podMeta)
    (hapart : ∀ id q id' q', live.lookup id = some q → live.lookup id' = some q' → id ≠ id' →
      q.Apart q') (nodeName it : String) (order : RangeOrder String) :
    (inf.setInstanceType nodeName it order).Holds live
      (inf.setInstanceType nodeName it order).podMeta := by
  have hrec : (∀ q, (inf.podMeta q).podIP = q.podIP) ∧
      ∀ q, (inf.podMeta q).containers = q.containerIDs := ⟨fun _ => rfl, fun _ => rfl⟩
  have hnone : inf.Holds live (backfilled nodeName it inf.podMeta []) :=
    h.congr (ip_backfilled hrec.1 _ _ _) (containers_backfilled hrec.2 _ _ _)
      fun _ _ _ => if_neg fun hboth => absurd hboth.2 List.not_mem_nil
  have hstart : Holds { inf with nodeInstanceTypes := inf.nodeInstanceTypes.insert nodeName it }
      live (backfilled nodeName it inf.podMeta []) :=
    ⟨hnone.id_eq, hnone.ip_eq, hnone.containers_eq, hnone.name, hnone.ip, hnone.container,
      hnone.exists_pod⟩
  -- the loop ranges over the names in the maps, and every live pod has its own
  have hall := hstart.foldl_backfillPod hrec hapart (order.keys inf.podNameToMeta.keys)
  refine Holds.congr hall (fun _ => rfl) (fun _ => rfl) fun id q hq => ?_
  have hdone : q.id.key ∈ [] ++ order.keys inf.podNameToMeta.keys := by
    rw [List.nil_append, order.mem_keys, FinMap.mem_keys_iff_lookup, h.id_eq id q hq,
      h.name id q hq]
    exact Option.some_ne_none _
  have htypes : (inf.setInstanceType nodeName it order).nodeInstanceTypes
      = ({ inf with nodeInstanceTypes := inf.nodeInstanceTypes.insert nodeName it } :
          Informer).nodeInstanceTypes :=
    nodeInstanceTypes_setInstanceType inf nodeName it order
  rw [podMeta_congr htypes, backfilled]
  show { inf.podMeta q with instanceType :=
      ((inf.nodeInstanceTypes.insert nodeName it).lookup q.nodeName).getD "" } = _
  rw [FinMap.lookup_insert_ite]
  by_cases hnode : q.nodeName = nodeName
  · rw [if_pos hnode, if_pos ⟨hnode, hdone⟩]
    rfl
  · rw [if_neg hnode, if_neg fun hboth => hnode hboth.1]
    rfl

end Informer

/-! ### Runs -/

namespace FeedEvent

/-- The pod object of an event. -/
def pod? : FeedEvent → Option Pod
  | .pod (.upsert p) => some p
  | .pod (.delete obj) => obj.get?
  | .node _ _ _ => none

/-- What an event says of the instance type of a node. -/
def instanceType? (nodeName : String) : FeedEvent → Option String
  | .pod _ => none
  | .node n _ _ => if n.name = nodeName ∧ n.instanceType ≠ "" then some n.instanceType else none

end FeedEvent

/-- The live pods after an event. -/
def livePodsStep (live : FinMap ObjectID Pod) : FeedEvent → FinMap ObjectID Pod
  | .pod (.upsert pod) => live.insert pod.id pod
  | .pod (.delete obj) =>
    match obj.get? with
    | none => live
    | some pod => live.erase pod.id
  | .node _ _ _ => live

def livePods (events : List FeedEvent) : FinMap ObjectID Pod := events.foldl livePodsStep ∅

/-- No two pods ever share an IP or a container ID. -/
def NothingShared (events : List FeedEvent) : Prop :=
  ∀ p ∈ events.filterMap FeedEvent.pod?, ∀ q ∈ events.filterMap FeedEvent.pod?, p.id ≠ q.id →
    p.Apart q

namespace ClusterInformer

/-- The informer after an event. -/
def step (inf : ClusterInformer) (ev : FeedEvent) : ClusterInformer := (inf.handle ev).1

def run (events : List FeedEvent) : ClusterInformer := events.foldl step new

/-- Of a node only its instance type comes to the pods. -/
theorem toInformer_step_node (inf : ClusterInformer) (node : KubeNode)
    (byName byIP : RangeOrder String) :
    (inf.step (.node node byName byIP)).toInformer
      = if node.instanceType ≠ "" then
          inf.toInformer.setInstanceType node.name node.instanceType byName
        else inf.toInformer := rfl

/-- The live pods are among those of the events. -/
theorem mem_of_live {events : List FeedEvent} {id : ObjectID} {pod : Pod}
    (h : (livePods events).lookup id = some pod) : pod ∈ events.filterMap FeedEvent.pod? := by
  induction events using List.reverseRecOn with
  | nil => exact absurd h nofun
  | append_singleton events ev ih =>
    rw [livePods, List.foldl_append, List.foldl_cons, List.foldl_nil] at h
    rw [List.filterMap_append, List.mem_append]
    have hkeep : ∀ {id'}, ((livePods events).erase id').lookup id = some pod →
        pod ∈ events.filterMap FeedEvent.pod? := by
      intro id' herase
      exact ih (FinMap.lookup_erase_eq_some.mp herase).2
    match ev, h with
    | .pod (.upsert p), h =>
      rcases FinMap.lookup_insert_eq_some.mp h with ⟨-, rfl⟩ | ⟨-, hold⟩
      · exact Or.inr (List.mem_singleton.mpr rfl)
      · exact Or.inl (ih hold)
    | .pod (.delete obj), h =>
      rw [livePodsStep] at h
      cases hobj : obj.get? with
      | none =>
        rw [hobj] at h
        exact Or.inl (ih h)
      | some p =>
        rw [hobj] at h
        exact Or.inl (hkeep h)
    | .node _ _ _, h => exact Or.inl (ih h)

/-- One event keeps the records. -/
theorem holds_step {inf : ClusterInformer} {live : FinMap ObjectID Pod}
    (h : inf.toInformer.Holds live inf.toInformer.podMeta) (ev : FeedEvent)
    (hapart : ∀ id q id' q', live.lookup id = some q → live.lookup id' = some q' → id ≠ id' →
      q.Apart q')
    (hnew : ∀ pod, ev.pod? = some pod → ∀ id q, live.lookup id = some q → id ≠ pod.id →
      pod.Apart q) :
    (inf.step ev).toInformer.Holds (livePodsStep live ev) (inf.step ev).toInformer.podMeta := by
  match ev with
  | .pod (.upsert pod) =>
    exact h.putRecord pod (fun _ => rfl) (fun _ => rfl) (fun _ _ _ _ => rfl) (hnew pod rfl)
  | .pod (.delete obj) =>
    show (inf.toInformer.onPodDelete obj).Holds _ (inf.toInformer.onPodDelete obj).podMeta
    rw [livePodsStep]
    cases hobj : obj.get? with
    | none =>
      rw [Informer.onPodDelete, hobj]
      exact h
    | some pod =>
      have htypes : (inf.toInformer.onPodDelete obj).nodeInstanceTypes
          = inf.nodeInstanceTypes := by
        rw [Informer.onPodDelete, hobj]
      rw [Informer.podMeta_congr htypes]
      exact h.onPodDelete hobj (hnew pod hobj)
  | .node node byName byIP =>
    rw [toInformer_step_node]
    show Informer.Holds _ live _
    by_cases hit : node.instanceType = ""
    · rw [if_neg (not_not_intro hit)]
      exact h
    · rw [if_pos hit]
      exact h.setInstanceType hapart _ _ _

/-- The node cache has what a node said last. -/
theorem nodeInstanceTypes_run (events : List FeedEvent) (nodeName : String) :
    ((run events).nodeInstanceTypes.lookup nodeName).getD ""
      = History.lastValue (FeedEvent.instanceType? nodeName) "" events := by
  have hstep : ∀ (inf : ClusterInformer) (ev : FeedEvent),
      ((inf.step ev).nodeInstanceTypes.lookup nodeName).getD ""
        = (FeedEvent.instanceType? nodeName ev).elim
            ((inf.nodeInstanceTypes.lookup nodeName).getD "") fun it => it := by
    intro inf ev
    match ev with
    | .pod (.upsert pod) => rfl
    | .pod (.delete obj) =>
      show ((inf.toInformer.onPodDelete obj).nodeInstanceTypes.lookup nodeName).getD "" = _
      rw [Informer.onPodDelete]
      cases obj.get? <;> rfl
    | .node node byName byIP =>
      rw [toInformer_step_node, FeedEvent.instanceType?]
      by_cases hit : node.instanceType = ""
      · rw [if_neg (not_not_intro hit), if_neg fun hboth => hboth.2 hit]
        rfl
      · rw [if_pos hit, Informer.nodeInstanceTypes_setInstanceType, FinMap.lookup_insert_ite]
        by_cases hname : node.name = nodeName
        · rw [if_pos hname.symm, if_pos ⟨hname, hit⟩]
          rfl
        · rw [if_neg (Ne.symm hname), if_neg fun hboth => hname hboth.1]
          rfl
  exact History.foldl_lastValue
    (fun inf : ClusterInformer => (inf.nodeInstanceTypes.lookup nodeName).getD "") (fun it => it)
    hstep rfl events

theorem holds_run {events : List FeedEvent} (h : NothingShared events) :
    (run events).toInformer.Holds (livePods events) (run events).toInformer.podMeta := by
  induction events using List.reverseRecOn with
  | nil => exact Informer.holds_new _ (fun _ => rfl) fun _ => rfl
  | append_singleton events ev ih =>
    have hbefore : ∀ {p}, p ∈ events.filterMap FeedEvent.pod? →
        p ∈ (events ++ [ev]).filterMap FeedEvent.pod? := by
      intro p hp
      rw [List.filterMap_append]
      exact List.mem_append_left _ hp
    have hholds := ih fun p hp q hq => h p (hbefore hp) q (hbefore hq)
    rw [run, livePods, List.foldl_append, List.foldl_append, List.foldl_cons, List.foldl_nil,
      List.foldl_cons, List.foldl_nil]
    -- the live pods and the new one are pods of the events, which share nothing
    refine holds_step hholds ev (fun id q id' q' hq hq' hne => ?_) fun pod hpod id q hq hne => ?_
    · refine h q (hbefore (mem_of_live hq)) q' (hbefore (mem_of_live hq')) ?_
      rwa [hholds.id_eq id q hq, hholds.id_eq id' q' hq']
    · refine h pod ?_ q (hbefore (mem_of_live hq)) ?_
      · rw [List.filterMap_append, List.mem_append]
        exact Or.inr (by simp [hpod])
      · rw [hholds.id_eq id q hq]
        exact hne.symm

/-- **One record a pod.**  After every interleaving of pod and node events in which
no two pods share an IP or a container ID, a live pod has one record, in the name
index, in the IP index at its IP and in the container index at its container IDs,
and the record's instance type is the last one that was seen of its node. -/
theorem pods_coherent (events : List FeedEvent) (h : NothingShared events) (id : ObjectID)
    (pod : Pod) (hlive : (livePods events).lookup id = some pod) :
    ∃ m, (run events).podNameToMeta.lookup id.key = some m ∧
      (pod.podIP ≠ "" → (run events).podIPToMeta.lookup pod.podIP = some m) ∧
      (∀ cid ∈ pod.containerIDs, (run events).containerToPod.lookup cid = some m) ∧
      m.id = id ∧
      m.instanceType = History.lastValue (FeedEvent.instanceType? pod.nodeName) "" events := by
  have hholds := holds_run h
  refine ⟨(run events).toInformer.podMeta pod, hholds.name id pod hlive, hholds.ip id pod hlive,
    hholds.container id pod hlive, ?_, nodeInstanceTypes_run events pod.nodeName⟩
  exact hholds.id_eq id pod hlive

/-- Two pods that are delivered before the node of one of them. -/
theorem pods_coherent_late_node :
    let pod (name : KubeName) (ip cid nodeName : String) : Pod :=
      { id := ⟨⟨"shop", by decide⟩, name⟩
        nodeName := nodeName
        labels := ∅
        podIP := ip
        hostIP := "192.168.0.1"
        createdAt := 0
        containers := []
        containerStatuses := ["containerd://" ++ cid] }
    let web := pod ⟨"web", by decide⟩ "10.0.0.7" "c1" "node-1"
    let api := pod ⟨"api", by decide⟩ "10.0.0.8" "c2" "node-2"
    let node : KubeNode :=
      ⟨"node-1", (∅ : FinMap String String).insert "node.kubernetes.io/instance-type" "m5.large",
        "", []⟩
    let events : List FeedEvent :=
      [.pod (.upsert web), .pod (.upsert api), .node node .ascending .ascending]
    NothingShared events ∧
      (∃ m, (run events).podNameToMeta.lookup web.id.key = some m ∧
        (run events).containerToPod.lookup "c1" = some m ∧ m.instanceType = "m5.large") ∧
      ∃ m, (run events).podIPToMeta.lookup "10.0.0.8" = some m ∧
        (run events).containerToPod.lookup "c2" = some m ∧ m.instanceType = "" := by
  intro pod web api node events
  have hshared : NothingShared events := by
    have hapart : web.Apart api := ⟨by decide +kernel, by decide +kernel⟩
    intro p hp q hq hne
    have hp : p ∈ [web, api] := hp
    have hq : q ∈ [web, api] := hq
    simp only [List.mem_cons, List.not_mem_nil, or_false] at hp hq
    rcases hp with rfl | rfl
    · rcases hq with rfl | rfl
      · exact absurd rfl hne
      · exact hapart
    · rcases hq with rfl | rfl
      · exact hapart.symm
      · exact absurd rfl hne
  obtain ⟨m, hname, -, hcontainer, -, htype⟩ :=
    pods_coherent events hshared web.id web
      ((Finmap.lookup_insert_of_ne _ (by decide)).trans (Finmap.lookup_insert _))
  obtain ⟨m', -, hip, hcontainer', -, htype'⟩ :=
    pods_coherent events hshared api.id api (Finmap.lookup_insert _)
  refine ⟨hshared, ⟨m, hname, hcontainer "c1" (by decide +kernel), ?_⟩,
    m', hip (by decide), hcontainer' "c2" (by decide +kernel), ?_⟩
  · rw [htype]
    decide +kernel
  · rw [htype']
    decide +kernel

end ClusterInformer
