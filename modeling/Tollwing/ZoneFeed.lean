/-
The zone feed (`pkg/k8s/informer.go`, `pkg/classifier/zone.go`).

The informer tells the zone resolver the zone of a pod's address when the pod is
delivered, if its node's zone is known, and the zone of every address on a node
when the node is delivered.  Nothing is ever taken back: a pod that is deleted, or
moves to another address, leaves its zone there, and a pod on a node of unknown
zone inherits what it finds.

* `ZoneWatch.mem_zoneCalls` — the addresses a node event tells of;
* `ZoneWatch.Inv.eventCorrect_iff` — one event;
* `ZoneWatch.zones_correct_iff` — a run keeps the answers right exactly when no event
  leaves one behind;
* `ZoneWatch.deleted_pod_resolves` — a run in which a delete does.
-/
import Tollwing.PodRecords

/-- The address a pod reports, if it reports one. -/
def Pod.addr (pod : Pod) : Option Addr := parseAddr pod.podIP

/-- The informer and the classifier it feeds, beside the live pods. -/
structure ZoneWatch where
  inf : ClusterInformer
  classifier : Classifier
  live : FinMap ObjectID Pod

namespace ZoneWatch

def new : ZoneWatch := ⟨.new, .new .new, ∅⟩

/-- One event. -/
def step (s : ZoneWatch) (ev : FeedEvent) : ZoneWatch :=
  { inf := (s.inf.handle ev).1
    classifier := (s.inf.handle ev).2.foldl Classifier.call s.classifier
    live := livePodsStep s.live ev }

/-- The resolver's direct answer for an address. -/
def directZone (s : ZoneWatch) (a : Addr) : Option String :=
  s.classifier.resolver.ipToZone.lookup a

/-- The zone that a node has said it is in. -/
def knownZone (s : ZoneWatch) (nodeName : String) : Option String :=
  s.inf.nodeZones.lookup nodeName

/-- The answer for the address of a live pod is the known zone of its node, and there
is no answer for an address that no live pod has. -/
def ZonesCorrect (s : ZoneWatch) : Prop :=
  (∀ id q a, s.live.lookup id = some q → q.addr = some a →
      s.directZone a = s.knownZone q.nodeName) ∧
    ∀ a zone, s.directZone a = some zone → ∃ id q, s.live.lookup id = some q ∧ q.addr = some a

/-- What an event has to do. -/
def EventCorrect (s : ZoneWatch) (ev : FeedEvent) : Prop := (s.step ev).ZonesCorrect

/-- The address of a pod, if it is not one of the kept ones, is another live pod's or
has no answer. -/
def Releases (s : ZoneWatch) (id : ObjectID) (kept : Option Addr) : Prop :=
  ∀ old a, s.live.lookup id = some old → old.addr = some a → kept ≠ some a →
    (∃ id' q, id' ≠ id ∧ s.live.lookup id' = some q ∧ q.addr = some a) ∨
      s.knownZone old.nodeName = none

/-- The live pods at the address of a pod have its zone.  What the pod itself was
counts only if its node's zone is not known. -/
def AgreesAt (s : ZoneWatch) (pod : Pod) : Prop :=
  ∀ a id q, pod.addr = some a → s.live.lookup id = some q → q.addr = some a →
    (id = pod.id → s.knownZone pod.nodeName = none) →
    s.knownZone q.nodeName = s.knownZone pod.nodeName

/-- A record of the node is at the IP, or comes there with the node's instance
type. -/
def Reaches (s : ZoneWatch) (node : KubeNode) (a : Addr) : Prop :=
  ∃ ip, parseAddr ip = some a ∧
    ((∃ m, s.inf.podIPToMeta.lookup ip = some m ∧ m.nodeName = node.name) ∨
      (node.instanceType ≠ "" ∧ ∃ key m, s.inf.podNameToMeta.lookup key = some m ∧
        m.nodeName = node.name ∧ m.instanceType ≠ node.instanceType ∧ m.podIP = ip))

/-- A pod is delivered to an address of its zone and leaves no answer behind; a pod is
deleted whose address has no answer or another holder; a node reaches the addresses
of its live pods, unless its zone is not new, and reaches only addresses of its
zone's live pods. -/
def Orderly (s : ZoneWatch) : FeedEvent → Prop
  | .pod (.upsert pod) => s.AgreesAt pod ∧ s.Releases pod.id pod.addr
  | .pod (.delete obj) => ∀ pod, obj.get? = some pod → s.Releases pod.id none
  | .node node _ _ =>
    node.zone ≠ "" →
      (∀ id q a, s.live.lookup id = some q → q.nodeName = node.name → q.addr = some a →
        s.Reaches node a ∨ s.knownZone node.name = some node.zone) ∧
      ∀ a, s.Reaches node a →
        (∃ id q, s.live.lookup id = some q ∧ q.addr = some a) ∧
          ∀ id q, s.live.lookup id = some q → q.addr = some a → q.nodeName ≠ node.name →
            s.knownZone q.nodeName = some node.zone

/-! ### The calls -/

/-- Calls that tell of one zone only. -/
theorem lookup_foldl_call {z : String} {calls : List ConfigCall}
    (h : ∀ call ∈ calls, (∃ p, call = .addClusterCIDR p) ∨ ∃ a, call = .setIPZone a z)
    (c : Classifier) (a : Addr) :
    (calls.foldl Classifier.call c).resolver.ipToZone.lookup a
      = if .setIPZone a z ∈ calls then some z else c.resolver.ipToZone.lookup a := by
  induction calls generalizing c with
  | nil => rfl
  | cons call calls ih =>
    rw [List.foldl_cons, ih fun call' hcall' => h call' (List.mem_cons_of_mem call hcall')]
    rcases h call List.mem_cons_self with ⟨p, rfl⟩ | ⟨a', rfl⟩
    · have hresolver : (c.call (.addClusterCIDR p)).resolver = c.resolver := by
        show (c.addClusterCIDR p).resolver = _
        rw [Classifier.addClusterCIDR]
        split_ifs <;> rfl
      simp only [hresolver, List.mem_cons, reduceCtorEq, false_or]
    · show (if _ then some z else (c.resolver.ipToZone.insert a' z).lookup a) = _
      rw [FinMap.lookup_insert_ite]
      simp only [List.mem_cons, ConfigCall.setIPZone.injEq, and_true]
      by_cases ha : a = a'
      · rw [if_pos ha, ite_self, if_pos (Or.inl ha)]
      · simp only [ha, false_or, if_false]

theorem mem_zoneCalls {node : KubeNode} {order : RangeOrder String}
    {podIPToMeta : FinMap String PodMeta} {a : Addr} :
    .setIPZone a node.zone ∈ ClusterInformer.zoneCalls node order podIPToMeta ↔
      ∃ ip m, podIPToMeta.lookup ip = some m ∧ m.nodeName = node.name ∧ m.podIP ≠ "" ∧
        parseAddr m.podIP = some a := by
  rw [ClusterInformer.zoneCalls, List.mem_filterMap]
  constructor
  · rintro ⟨ip, -, hcall⟩
    obtain ⟨m, hm, hcall⟩ := Option.bind_eq_some_iff.mp hcall
    split_ifs at hcall with hnode
    obtain ⟨a', ha', heq⟩ := Option.map_eq_some_iff.mp hcall
    obtain ⟨rfl, -⟩ := ConfigCall.setIPZone.inj heq
    exact ⟨ip, m, hm, hnode.1, hnode.2, ha'⟩
  · rintro ⟨ip, m, hm, hname, hip, ha⟩
    have hkey := Finmap.mem_keys.mpr (Finmap.mem_of_lookup_eq_some hm)
    refine ⟨ip, (order.mem_keys _ _).mpr hkey, ?_⟩
    rw [hm, Option.bind_some, if_pos ⟨hname, hip⟩, ClusterInformer.zoneCall, ha]
    rfl

/-- A node's calls are of its zone. -/
theorem zoneCalls_zone {node : KubeNode} {order : RangeOrder String}
    {podIPToMeta : FinMap String PodMeta} {call : ConfigCall}
    (h : call ∈ ClusterInformer.zoneCalls node order podIPToMeta) :
    ∃ a, call = .setIPZone a node.zone := by
  rw [ClusterInformer.zoneCalls, List.mem_filterMap] at h
  obtain ⟨ip, -, hcall⟩ := h
  obtain ⟨m, -, hcall⟩ := Option.bind_eq_some_iff.mp hcall
  split_ifs at hcall
  obtain ⟨a, -, rfl⟩ := Option.map_eq_some_iff.mp hcall
  exact ⟨a, rfl⟩

end ZoneWatch

/-! ### The IP index under a backfill -/

namespace Informer

/-- A record in the IP index is at its own IP. -/
def Placed (inf : Informer) : Prop :=
  ∀ ip m, inf.podIPToMeta.lookup ip = some m → m.podIP = ip ∧ ip ≠ ""

/-- The IP index has a record of the node at the IP. -/
def OnNode (inf : Informer) (nodeName ip : String) : Prop :=
  ∃ m, inf.podIPToMeta.lookup ip = some m ∧ m.nodeName = nodeName

/-- The backfill has a record of the node to put at the IP, from these keys. -/
def Backfills (inf : Informer) (nodeName it : String) (keys : List String) (ip : String) : Prop :=
  ∃ key ∈ keys, ∃ m, inf.podNameToMeta.lookup key = some m ∧ m.nodeName = nodeName ∧
    m.instanceType ≠ it ∧ m.podIP = ip

variable {inf : Informer}

theorem Placed.putRecord (h : inf.Placed) (key : String) (m : PodMeta) :
    (inf.putRecord key m).Placed := by
  intro ip m' hm'
  by_cases hip : ip = ""
  · subst hip
    have hm' : (if m.podIP ≠ "" then inf.podIPToMeta.insert m.podIP m
        else inf.podIPToMeta : FinMap String PodMeta).lookup "" = some m' := hm'
    split_ifs at hm' with hne
    · rw [Finmap.lookup_insert_of_ne _ (Ne.symm hne)] at hm'
      exact absurd rfl (h _ _ hm').2
    · exact absurd rfl (h _ _ hm').2
  · rw [lookup_ip_putRecord _ _ _ hip] at hm'
    split_ifs at hm' with heq
    · rw [← Option.some.inj hm']
      exact ⟨heq.symm, hip⟩
    · exact h ip m' hm'

theorem Placed.backfillPod (h : inf.Placed) (nodeName it key : String) :
    (Informer.backfillPod nodeName it inf key).Placed := by
  rw [backfillPod_eq]
  split
  · exact h
  · split_ifs
    · exact h
    · exact h.putRecord _ _

/-- One round adds the IP of its record, if it has one to put in. -/
theorem onNode_backfillPod {nodeName it key ip : String} (hip : ip ≠ "") :
    (Informer.backfillPod nodeName it inf key).OnNode nodeName ip ↔
      inf.OnNode nodeName ip ∨ inf.Backfills nodeName it [key] ip := by
  rw [backfillPod_eq]
  simp only [Backfills, List.mem_singleton, exists_eq_left]
  cases hlookup : inf.podNameToMeta.lookup key with
  | none =>
    refine (or_iff_left ?_).symm
    rintro ⟨m, hm, -⟩
    exact absurd hm nofun
  | some m =>
    dsimp only
    split_ifs with hskip
    · refine (or_iff_left ?_).symm
      rintro ⟨m', hm', hnode, hit, -⟩
      obtain rfl := Option.some.inj hm'
      exact hskip.elim (fun hne => hne hnode) hit
    · -- the record of this key is put in, at its IP alone
      rw [not_or, not_not] at hskip
      rw [OnNode, lookup_ip_putRecord _ _ _ hip]
      split_ifs with heq
      · exact iff_of_true ⟨_, rfl, hskip.1⟩ (Or.inr ⟨m, rfl, hskip.1, hskip.2, heq.symm⟩)
      · refine (or_iff_left ?_).symm
        rintro ⟨m', hm', -, -, hm'ip⟩
        obtain rfl := Option.some.inj hm'
        exact heq hm'ip.symm

theorem lookup_name_backfillPod (nodeName it : String) {key k : String} (hk : k ≠ key) :
    (Informer.backfillPod nodeName it inf key).podNameToMeta.lookup k
      = inf.podNameToMeta.lookup k := by
  rw [backfillPod_eq]
  split
  · rfl
  · split_ifs
    · rfl
    · rw [lookup_name_putRecord, if_neg hk]

theorem placed_foldl_backfillPod (nodeName it : String) (keys : List String) (h : inf.Placed) :
    (keys.foldl (Informer.backfillPod nodeName it) inf).Placed :=
  List.foldlRecOn (motive := Placed) keys _ h fun _ h key _ => h.backfillPod _ _ key

/-- **All rounds**, in any order. -/
theorem onNode_foldl_backfillPod {nodeName it ip : String} (hip : ip ≠ "") {keys : List String}
    (hkeys : keys.Nodup) :
    (keys.foldl (Informer.backfillPod nodeName it) inf).OnNode nodeName ip ↔
      inf.OnNode nodeName ip ∨ inf.Backfills nodeName it keys ip := by
  induction keys generalizing inf with
  | nil => exact (or_iff_left fun ⟨key, hkey, _⟩ => absurd hkey List.not_mem_nil).symm
  | cons key keys ih =>
    obtain ⟨hkey, hkeys⟩ := List.nodup_cons.mp hkeys
    rw [List.foldl_cons, ih hkeys, onNode_backfillPod hip, or_assoc]
    -- a round changes the record of its own key, which does not come again
    refine or_congr_right ⟨?_, ?_⟩
    · rintro (⟨k, hk, hm⟩ | ⟨k, hk, m, hm, hrest⟩)
      · exact ⟨k, List.mem_cons.mpr (Or.inl (List.mem_singleton.mp hk)), hm⟩
      · have hne : k ≠ key := fun heq => hkey (heq ▸ hk)
        rw [lookup_name_backfillPod nodeName it hne] at hm
        exact ⟨k, List.mem_cons_of_mem key hk, m, hm, hrest⟩
    · rintro ⟨k, hk, m, hm, hrest⟩
      rcases List.mem_cons.mp hk with rfl | hk
      · exact Or.inl ⟨k, List.mem_singleton_self k, m, hm, hrest⟩
      · have hne : k ≠ key := fun heq => hkey (heq ▸ hk)
        refine Or.inr ⟨k, hk, m, ?_, hrest⟩
        rwa [lookup_name_backfillPod nodeName it hne]

theorem placed_setInstanceType (nodeName it : String) (order : RangeOrder String)
    (h : inf.Placed) : (inf.setInstanceType nodeName it order).Placed := by
  refine placed_foldl_backfillPod _ _ _ ?_
  exact h

/-- No event of the feed moves a record from its IP. -/
theorem Placed.step {inf : ClusterInformer} (h : inf.toInformer.Placed) (ev : FeedEvent) :
    (inf.step ev).toInformer.Placed := by
  match ev with
  | .pod (.upsert pod) => exact h.putRecord _ _
  | .pod (.delete obj) =>
    show (inf.toInformer.onPodDelete obj).Placed
    rw [Informer.onPodDelete]
    cases obj.get? with
    | none => exact h
    | some pod => exact FinMap.forall_lookup_erase h
  | .node node byName byIP =>
    rw [ClusterInformer.toInformer_step_node]
    split_ifs
    · exact placed_setInstanceType _ _ _ h
    · exact h

theorem onNode_setInstanceType {nodeName it ip : String} (hip : ip ≠ "")
    {order : RangeOrder String} :
    (inf.setInstanceType nodeName it order).OnNode nodeName ip ↔
      inf.OnNode nodeName ip ∨
        inf.Backfills nodeName it (order.keys inf.podNameToMeta.keys) ip := by
  rw [setInstanceType]
  exact onNode_foldl_backfillPod hip (order.nodup _)

end Informer

namespace ZoneWatch

/-! ### One event -/

/-- What the argument keeps. -/
structure Inv (s : ZoneWatch) : Prop where
  correct : s.ZonesCorrect
  placed : s.inf.toInformer.Placed

theorem inv_new : new.Inv where
  correct := ⟨fun _ _ _ h => absurd h nofun, fun _ _ h => absurd h nofun⟩
  placed _ _ h := absurd h nofun

variable {s : ZoneWatch}

/-- No address is the empty text. -/
theorem ne_empty_of_addr {pod : Pod} {a : Addr} (h : pod.addr = some a) : pod.podIP ≠ "" := by
  intro hip
  rw [Pod.addr, hip] at h
  exact absurd h nofun

theorem directZone_upsert (s : ZoneWatch) (pod : Pod) (a : Addr) :
    (s.step (.pod (.upsert pod))).directZone a
      = if pod.addr = some a ∧ s.knownZone pod.nodeName ≠ none then s.knownZone pod.nodeName
        else s.directZone a := by
  have hcalls : (s.inf.handle (.pod (.upsert pod))).2 = if pod.podIP = "" then [] else
      (s.knownZone pod.nodeName).elim [] fun zone =>
        (ClusterInformer.zoneCall pod.podIP zone).toList := s.inf.onPod_calls pod
  show ((s.inf.handle (.pod (.upsert pod))).2.foldl Classifier.call
    s.classifier).resolver.ipToZone.lookup a = _
  rw [hcalls]
  by_cases hip : pod.podIP = ""
  · rw [if_pos hip, if_neg fun hboth => ne_empty_of_addr hboth.1 hip]
    rfl
  rw [if_neg hip]
  cases hknown : s.knownZone pod.nodeName with
  | none =>
    rw [if_neg fun hboth => hboth.2 rfl]
    rfl
  | some zone =>
    -- one call at most, for the address that the pod's IP is read as
    rw [Option.elim_some, lookup_foldl_call (z := zone)]
    · refine if_congr ?_ rfl rfl
      rw [ClusterInformer.zoneCall, Pod.addr, Option.mem_toList, Option.map_eq_some_iff]
      constructor
      · rintro ⟨a', ha', heq⟩
        obtain ⟨rfl, -⟩ := ConfigCall.setIPZone.inj heq
        exact ⟨ha', Option.some_ne_none _⟩
      · exact fun hboth => ⟨a, hboth.1, rfl⟩
    · intro call hcall
      obtain ⟨a', -, rfl⟩ := Option.map_eq_some_iff.mp (Option.mem_toList.mp hcall)
      exact Or.inr ⟨a', rfl⟩

/-- With one pod's record replaced or gone, the addresses with an answer are still held
exactly if what the pod leaves is released. -/
theorem Inv.releases_iff (h : s.Inv) (id : ObjectID) (kept : Option Addr)
    (live : FinMap ObjectID Pod) (hother : ∀ id' ≠ id, live.lookup id' = s.live.lookup id')
    (hself : ∀ q, live.lookup id = some q → q.addr = kept) :
    s.Releases id kept ↔ ∀ a zone, kept ≠ some a → s.directZone a = some zone →
      ∃ id' q, live.lookup id' = some q ∧ q.addr = some a := by
  obtain ⟨hright, hheld⟩ := h.correct
  constructor
  · intro hreleases a zone hkept hzone
    obtain ⟨id', q, hq, ha⟩ := hheld a zone hzone
    by_cases hid : id' = id
    · rw [hid] at hq
      rcases hreleases q a hq ha hkept with ⟨id'', q', hne, hq', ha'⟩ | hnone
      · exact ⟨id'', q', (hother id'' hne).trans hq', ha'⟩
      · rw [hright _ q a hq ha, hnone] at hzone
        exact absurd hzone.symm (Option.some_ne_none zone)
    · exact ⟨id', q, (hother id' hid).trans hq, ha⟩
  · intro hheld' old a hold ha hkept
    by_contra hleft
    rw [not_or] at hleft
    -- the answer that the old record left needs a holder, and only the pod itself is one
    obtain ⟨zone, hzone⟩ := Option.ne_none_iff_exists'.mp hleft.2
    obtain ⟨id', q, hq, hqa⟩ := hheld' a zone hkept (by rw [hright _ old a hold ha, hzone])
    by_cases hid : id' = id
    · rw [hid] at hq
      exact hkept ((hself q hq).symm.trans hqa)
    · exact hleft.1 ⟨id', q, hid, (hother id' hid).symm.trans hq, hqa⟩

theorem Inv.eventCorrect_upsert_iff (h : s.Inv) (pod : Pod) :
    s.EventCorrect (.pod (.upsert pod)) ↔ s.Orderly (.pod (.upsert pod)) := by
  obtain ⟨hright, hheld⟩ := h.correct
  have hlive : (s.step (.pod (.upsert pod))).live = s.live.insert pod.id pod := rfl
  have hknown : (s.step (.pod (.upsert pod))).knownZone = s.knownZone := rfl
  have hreleases := h.releases_iff pod.id pod.addr (s.live.insert pod.id pod)
    (fun _ hid => Finmap.lookup_insert_of_ne _ hid)
    fun q hq => congrArg Pod.addr (Option.some.inj (hq.symm.trans (Finmap.lookup_insert _)))
  rw [EventCorrect, ZonesCorrect, hlive, hknown]
  simp only [directZone_upsert]
  constructor
  · rintro ⟨hright', hheld'⟩
    refine ⟨fun a id q hpod hq ha hsame => ?_,
      hreleases.mpr fun a zone hkept hzone => hheld' a zone ?_⟩
    · have hnew := hright' pod.id pod a (Finmap.lookup_insert _) hpod
      by_cases hid : id = pod.id
      · rw [if_neg fun hboth => hboth.2 (hsame hid)] at hnew
        rw [← hright id q a hq ha, hnew]
      · have hother := hright' id q a ((Finmap.lookup_insert_of_ne _ hid).trans hq) ha
        exact hother.symm.trans hnew
    · rw [if_neg fun hboth => hkept hboth.1]
      exact hzone
  · rintro ⟨hagrees, hleaves⟩
    refine ⟨fun id q a hq ha => ?_, fun a zone hzone => ?_⟩
    · rw [FinMap.lookup_insert_ite] at hq
      by_cases hset : pod.addr = some a ∧ s.knownZone pod.nodeName ≠ none
      · rw [if_pos hset]
        split_ifs at hq with hid
        · rw [← Option.some.inj hq]
        · exact (hagrees a id q hset.1 hq ha fun heq => absurd heq hid).symm
      · rw [if_neg hset]
        split_ifs at hq with hid
        · -- the node's zone is not known, so nothing may be there
          obtain rfl := Option.some.inj hq
          have hnone : s.knownZone pod.nodeName = none := not_not.mp fun hne => hset ⟨ha, hne⟩
          rw [hnone]
          cases hdirect : s.directZone a with
          | none => rfl
          | some zone =>
            obtain ⟨id', q', hq', ha'⟩ := hheld a zone hdirect
            have hq'none := hagrees a id' q' ha hq' ha' fun _ => hnone
            rw [← hright id' q' a hq' ha', hdirect, hnone] at hq'none
            exact absurd hq'none (Option.some_ne_none zone)
        · exact hright id q a hq ha
    · by_cases hpod : pod.addr = some a
      · exact ⟨pod.id, pod, Finmap.lookup_insert _, hpod⟩
      · rw [if_neg fun hboth => hpod hboth.1] at hzone
        exact hreleases.mp hleaves a zone hpod hzone

theorem Inv.eventCorrect_delete_iff (h : s.Inv) (obj : DeletedObject Pod) :
    s.EventCorrect (.pod (.delete obj)) ↔ s.Orderly (.pod (.delete obj)) := by
  have hdirect : (s.step (.pod (.delete obj))).directZone = s.directZone := rfl
  have hknown : (s.step (.pod (.delete obj))).knownZone = s.knownZone := rfl
  have hlive : (s.step (.pod (.delete obj))).live = livePodsStep s.live (.pod (.delete obj)) := rfl
  rw [EventCorrect, ZonesCorrect, hlive, hknown, hdirect, livePodsStep]
  cases hobj : obj.get? with
  | none =>
    refine iff_of_true h.correct fun pod hpod => ?_
    exact absurd (hobj.symm.trans hpod).symm (Option.some_ne_none pod)
  | some pod =>
    have hord : s.Orderly (.pod (.delete obj)) ↔ s.Releases pod.id none :=
      ⟨fun hall => hall pod hobj, fun hrel pod' hpod' => by
        rwa [← Option.some.inj (hobj.symm.trans hpod')]⟩
    have hreleases := h.releases_iff pod.id none (s.live.erase pod.id)
      (fun _ hid => Finmap.lookup_erase_ne hid)
      fun q hq => absurd (hq.symm.trans (Finmap.lookup_erase _ _)) (Option.some_ne_none q)
    rw [hord, hreleases]
    constructor
    · rintro ⟨-, hheld'⟩ a zone -
      exact hheld' a zone
    · intro hheld'
      refine ⟨fun id q a hq ha => ?_, fun a zone => hheld' a zone (Option.some_ne_none a).symm⟩
      exact h.correct.1 id q a (FinMap.lookup_erase_eq_some.mp hq).2 ha

/-! ### A node event -/

/-- The maps of the pods after a node event. -/
def afterNode (inf : ClusterInformer) (node : KubeNode) (byName : RangeOrder String) : Informer :=
  if node.instanceType ≠ "" then inf.toInformer.setInstanceType node.name node.instanceType byName
  else inf.toInformer

theorem Inv.placed_afterNode (h : s.Inv) (node : KubeNode) (byName : RangeOrder String) :
    (afterNode s.inf node byName).Placed :=
  h.placed.step (.node node byName .ascending)

theorem reaches_iff (s : ZoneWatch) (node : KubeNode) (byName : RangeOrder String) (a : Addr) :
    s.Reaches node a ↔
      ∃ ip, parseAddr ip = some a ∧ (afterNode s.inf node byName).OnNode node.name ip := by
  refine exists_congr fun ip => and_congr_right fun ha => ?_
  have hip : ip ≠ "" := by
    rintro rfl
    exact absurd ha nofun
  rw [afterNode]
  by_cases hit : node.instanceType = ""
  · rw [if_neg (not_not_intro hit)]
    exact or_iff_left fun hboth => hboth.1 hit
  · rw [if_pos hit]
    refine Iff.trans (or_congr_right ?_) (Informer.onNode_setInstanceType hip).symm
    refine (and_iff_right hit).trans ?_
    constructor
    · rintro ⟨key, m, hm, hrest⟩
      exact ⟨key, (byName.mem_keys _ _).mpr (Finmap.mem_keys.mpr
        (Finmap.mem_of_lookup_eq_some hm)), m, hm, hrest⟩
    · rintro ⟨key, -, m, hm, hrest⟩
      exact ⟨key, m, hm, hrest⟩

/-- The calls of a node event: some cluster CIDRs, and the zone for the IPs of its
records. -/
theorem calls_node (s : ZoneWatch) (node : KubeNode) (byName byIP : RangeOrder String) :
    ∃ cidrs : List Prefix, (s.inf.handle (.node node byName byIP)).2
      = cidrs.map .addClusterCIDR ++ if node.zone = "" then [] else
          ClusterInformer.zoneCalls node byIP (afterNode s.inf node byName).podIPToMeta :=
  ⟨_, rfl⟩

/-- What a node event with a zone leaves in the resolver. -/
theorem Inv.directZone_node (h : s.Inv) {node : KubeNode} (hzone : node.zone ≠ "")
    (byName byIP : RangeOrder String) (a : Addr) [Decidable (s.Reaches node a)] :
    (s.step (.node node byName byIP)).directZone a
      = if s.Reaches node a then some node.zone else s.directZone a := by
  obtain ⟨cidrs, hcalls⟩ := calls_node s node byName byIP
  show ((s.inf.handle (.node node byName byIP)).2.foldl Classifier.call
    s.classifier).resolver.ipToZone.lookup a = _
  rw [hcalls, if_neg hzone, lookup_foldl_call (z := node.zone)]
  · refine if_congr ?_ rfl rfl
    -- a cluster CIDR is no zone
    rw [List.mem_append, or_iff_right fun hmem => ?_, mem_zoneCalls, reaches_iff s node byName]
    · constructor
      · rintro ⟨ip, m, hm, hname, -, ha⟩
        obtain ⟨rfl, -⟩ := h.placed_afterNode node byName ip m hm
        exact ⟨_, ha, m, hm, hname⟩
      · rintro ⟨ip, ha, m, hm, hname⟩
        obtain ⟨rfl, hne⟩ := h.placed_afterNode node byName ip m hm
        exact ⟨_, m, hm, hname, hne, ha⟩
    · obtain ⟨p, -, heq⟩ := List.mem_map.mp hmem
      exact absurd heq nofun
  · intro call hcall
    rcases List.mem_append.mp hcall with hcall | hcall
    · obtain ⟨p, -, rfl⟩ := List.mem_map.mp hcall
      exact Or.inl ⟨p, rfl⟩
    · exact Or.inr (zoneCalls_zone hcall)

/-- A node without a zone tells of none. -/
theorem directZone_node_without {node : KubeNode} (hzone : node.zone = "")
    (byName byIP : RangeOrder String) (a : Addr) :
    (s.step (.node node byName byIP)).directZone a = s.directZone a := by
  obtain ⟨cidrs, hcalls⟩ := calls_node s node byName byIP
  show ((s.inf.handle (.node node byName byIP)).2.foldl Classifier.call
    s.classifier).resolver.ipToZone.lookup a = _
  rw [hcalls, if_pos hzone, List.append_nil, lookup_foldl_call (z := ""), if_neg]
  · rfl
  · intro hmem
    obtain ⟨p, -, heq⟩ := List.mem_map.mp hmem
    exact absurd heq nofun
  · intro call hcall
    obtain ⟨p, -, rfl⟩ := List.mem_map.mp hcall
    exact Or.inl ⟨p, rfl⟩

theorem Inv.eventCorrect_node_iff (h : s.Inv) (node : KubeNode) (byName byIP : RangeOrder String) :
    s.EventCorrect (.node node byName byIP) ↔ s.Orderly (.node node byName byIP) := by
  classical
  obtain ⟨hright, hheld⟩ := h.correct
  have hlive : (s.step (.node node byName byIP)).live = s.live := rfl
  have hknown : ∀ name, (s.step (.node node byName byIP)).knownZone name
      = (if node.zone ≠ "" then s.inf.nodeZones.insert node.name node.zone
          else s.inf.nodeZones).lookup name := fun _ => rfl
  rw [EventCorrect, Orderly, ZonesCorrect, hlive]
  by_cases hzone : node.zone = ""
  · -- nothing is told and nothing is known
    refine iff_of_true ?_ fun hne => absurd hzone hne
    rw [if_neg (not_not_intro hzone)] at hknown
    have hdirect : ∀ a, (s.step (.node node byName byIP)).directZone a = s.directZone a :=
      directZone_node_without hzone byName byIP
    simp only [hdirect, hknown]
    exact h.correct
  rw [if_pos hzone] at hknown
  have hother : ∀ {name}, name ≠ node.name →
      (s.step (.node node byName byIP)).knownZone name = s.knownZone name := fun hne =>
    (hknown _).trans (Finmap.lookup_insert_of_ne _ hne)
  have hself : (s.step (.node node byName byIP)).knownZone node.name = some node.zone :=
    (hknown _).trans (Finmap.lookup_insert _)
  simp only [h.directZone_node hzone byName byIP]
  constructor
  · rintro ⟨hright', hheld'⟩ -
    refine ⟨fun id q a hq hnode ha => ?_, fun a hreach => ⟨?_, fun id q hq ha hnode => ?_⟩⟩
    · by_contra hleft
      rw [not_or] at hleft
      have hnew := hright' id q a hq ha
      rw [if_neg hleft.1, hright id q a hq ha, hnode, hself] at hnew
      exact hleft.2 hnew
    · exact hheld' a node.zone (if_pos hreach)
    · have hnew := hright' id q a hq ha
      rw [if_pos hreach, hother hnode] at hnew
      exact hnew.symm
  · intro hord
    obtain ⟨hown, hreached⟩ := hord hzone
    refine ⟨fun id q a hq ha => ?_, fun a zone hdirect => ?_⟩
    -- a pod of the node is reached or had its zone already
    · by_cases hnode : q.nodeName = node.name
      · rw [hnode, hself]
        rcases hown id q a hq hnode ha with hreach | hsame
        · exact if_pos hreach
        · rw [hright id q a hq ha, hnode, hsame, ite_self]
      · rw [hother hnode]
        split_ifs with hreach
        · exact ((hreached a hreach).2 id q hq ha hnode).symm
        · exact hright id q a hq ha
    · by_cases hreach : s.Reaches node a
      · exact (hreached a hreach).1
      · rw [if_neg hreach] at hdirect
        exact hheld a zone hdirect

/-- **One event** leaves the answers right exactly when it leaves no wrong one
behind. -/
theorem Inv.eventCorrect_iff (h : s.Inv) (ev : FeedEvent) : s.EventCorrect ev ↔ s.Orderly ev := by
  match ev with
  | .pod (.upsert pod) => exact h.eventCorrect_upsert_iff pod
  | .pod (.delete obj) => exact h.eventCorrect_delete_iff obj
  | .node node byName byIP => exact h.eventCorrect_node_iff node byName byIP

/-! ### Runs -/

/-- The zone an event tells of a node, if it does. -/
def zone? (nodeName : String) : FeedEvent → Option (Option String)
  | .pod _ => none
  | .node node _ _ =>
    if node.name = nodeName ∧ node.zone ≠ "" then some (some node.zone) else none

/-- An event changes the known zone of the node it tells of. -/
theorem knownZone_step (s : ZoneWatch) (ev : FeedEvent) (nodeName : String) :
    (s.step ev).knownZone nodeName
      = (zone? nodeName ev).elim (s.knownZone nodeName) fun zone => zone := by
  match ev with
  | .pod (.upsert pod) => rfl
  | .pod (.delete obj) => rfl
  | .node node byName byIP =>
    show (if node.zone ≠ "" then s.inf.nodeZones.insert node.name node.zone
      else s.inf.nodeZones).lookup nodeName = _
    rw [zone?]
    by_cases hzone : node.zone = ""
    · rw [if_neg (not_not_intro hzone), if_neg fun hboth => hboth.2 hzone]
      rfl
    · rw [if_pos hzone, FinMap.lookup_insert_ite]
      by_cases hname : node.name = nodeName
      · rw [if_pos hname.symm, if_pos ⟨hname, hzone⟩]
        rfl
      · rw [if_neg (Ne.symm hname), if_neg fun hboth => hname hboth.1]
        rfl

/-- The known zone of a node is the last one it said. -/
theorem knownZone_run (events : List FeedEvent) (nodeName : String) :
    (events.foldl step new).knownZone nodeName
      = History.lastValue (zone? nodeName) none events :=
  History.foldl_lastValue (fun s : ZoneWatch => s.knownZone nodeName) (fun zone => zone)
    (fun s ev => knownZone_step s ev nodeName) rfl events

/-- **The zone feed.**  After every event of a run the resolver's direct answer for the
address of a live pod is the known zone of its node, and there is none for an
address that no live pod has, if and only if every event of the run is orderly.  The
known zone of a node is the last one it said. -/
theorem zones_correct_iff (events : List FeedEvent) :
    (History.Along step EventCorrect new events ↔ History.Along step Orderly new events) ∧
      ∀ nodeName, (events.foldl step new).knownZone nodeName
        = History.lastValue (zone? nodeName) none events := by
  constructor
  · exact History.along_iff (fun _ ev h hcorrect => ⟨hcorrect, h.placed.step ev⟩)
      (fun _ ev h => h.eventCorrect_iff ev) inv_new events
  · exact knownZone_run events

/-- A pod on a node whose zone is known is deleted: its address keeps the zone. -/
theorem deleted_pod_resolves :
    let node : KubeNode :=
      ⟨"node-1", (∅ : FinMap String String).insert "topology.kubernetes.io/zone" "us-east-1a",
        "", []⟩
    let pod : Pod :=
      { id := ⟨⟨"shop", by decide⟩, ⟨"web", by decide⟩⟩
        nodeName := "node-1"
        labels := ∅
        podIP := "10.0.0.7"
        hostIP := "192.168.0.1"
        createdAt := 0
        containers := []
        containerStatuses := [] }
    let events : List FeedEvent := [.node node .ascending .ascending, .pod (.upsert pod),
      .pod (.delete (.object pod))]
    let s := events.foldl step new
    (s.directZone (.v4 0x0a000007#32) = some "us-east-1a" ∧ s.live.keys = ∅) ∧
      ¬ History.Along step EventCorrect new events := by
  intro node pod events s
  have hstill : s.directZone (.v4 0x0a000007#32) = some "us-east-1a" := by
    decide +kernel
  have hgone : s.live.keys = ∅ := by
    decide +kernel
  refine ⟨⟨hstill, hgone⟩, fun ⟨_, _, hcorrect, _⟩ => ?_⟩
  obtain ⟨id, q, hq, -⟩ := hcorrect.2 _ _ hstill
  have hlive : id ∈ s.live.keys := Finmap.mem_keys.mpr (Finmap.mem_of_lookup_eq_some hq)
  rw [hgone] at hlive
  exact absurd hlive (Finset.notMem_empty id)

end ZoneWatch
