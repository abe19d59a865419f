/-
What a pod leaves behind (`pkg/k8s/informer.go`).

An index has a pod's record at the places the pod reports: its container IDs, its
IP, its name.  The places change during a pod's life, and neither handler looks
at the record of the object it replaces: `onPod` adds the new places only and
`onPodDelete` erases those of the last object only.  The slices keep a record of
what each of them added; the pods do not.

* `IndexWatch.clean_insert_iff`, `IndexWatch.clean_erase_iff` — one index;
* `IndexWatch.no_leftover_iff` — a run leaves nothing behind exactly when every
  place that is not the object's is another live pod's;
* `IndexWatch.restart_leaves_container` — a run with a container restart.
-/
import Tollwing.History
import Tollwing.PodIndex

/-- The informer beside the live pods, as they were delivered last. -/
structure IndexWatch where
  inf : Informer
  live : FinMap ObjectID Pod

/-- The place of a pod in the IP index. -/
def Pod.ips (pod : Pod) : List String := if pod.podIP ≠ "" then [pod.podIP] else []

/-- The place of a pod in the name index. -/
def Pod.names (pod : Pod) : List String := [pod.id.key]

namespace IndexWatch

def new : IndexWatch := ⟨.new, ∅⟩

/-- One event. -/
def step (s : IndexWatch) : PodEvent → IndexWatch
  | .upsert pod => ⟨s.inf.onPod pod, s.live.insert pod.id pod⟩
  | .delete obj =>
    match obj.get? with
    | none => { s with inf := s.inf.onPodDelete obj }
    | some pod => ⟨s.inf.onPodDelete obj, s.live.erase pod.id⟩

/-- An index whose entries are all of live pods, and at places that live pods
report. -/
def Clean (places : Pod → List String) (index : FinMap String PodMeta)
    (live : FinMap ObjectID Pod) : Prop :=
  ∀ k m, index.lookup k = some m →
    m.id ∈ live ∧ ∃ id pod, live.lookup id = some pod ∧ k ∈ places pod

/-- Nothing refers to a pod that is gone, and the indexes have no more places than
the live pods report. -/
def NoLeftover (s : IndexWatch) : Prop :=
  Clean Pod.containerIDs s.inf.containerToPod s.live ∧ Clean Pod.ips s.inf.podIPToMeta s.live ∧
    Clean Pod.names s.inf.podNameToMeta s.live

/-- What an event has to do. -/
def EventCorrect (s : IndexWatch) (ev : PodEvent) : Prop := (s.step ev).NoLeftover

/-- The places of an index that are not the object's are other live pods'. -/
def OthersReport (places : Pod → List String) (index : FinMap String PodMeta)
    (live : FinMap ObjectID Pod) (pod : Pod) : Prop :=
  ∀ k ∈ index, k ∉ places pod → ∃ id q, id ≠ pod.id ∧ live.lookup id = some q ∧ k ∈ places q

/-- The entries at these places are of other pods. -/
def OthersHold (places : Pod → List String) (index : FinMap String PodMeta) (pod : Pod) : Prop :=
  ∀ k m, index.lookup k = some m → k ∉ places pod → m.id ≠ pod.id

/-- Every container ID and every IP in the indexes that the delivered object does not
list is reported by another live pod; if the pod is deleted, it has no entry
there. -/
def Orderly (s : IndexWatch) : PodEvent → Prop
  | .upsert pod =>
    OthersReport Pod.containerIDs s.inf.containerToPod s.live pod ∧
      OthersReport Pod.ips s.inf.podIPToMeta s.live pod
  | .delete obj =>
    ∀ pod, obj.get? = some pod →
      (OthersReport Pod.containerIDs s.inf.containerToPod s.live pod ∧
        OthersHold Pod.containerIDs s.inf.containerToPod pod) ∧
      OthersReport Pod.ips s.inf.podIPToMeta s.live pod ∧ OthersHold Pod.ips s.inf.podIPToMeta pod

/-! ### One index -/

variable {places : Pod → List String} {index index' : FinMap String PodMeta}
  {live : FinMap ObjectID Pod} {pod : Pod}

theorem mem_of_lookup {m : PodMeta} {k : String} (h : index.lookup k = some m) : k ∈ index :=
  Finmap.mem_of_lookup_eq_some h

/-- **A record is written at the pod's places.** -/
theorem clean_insert_iff (h : Clean places index live) {m : PodMeta} (hm : m.id = pod.id)
    (hindex : ∀ k, index'.lookup k = if k ∈ places pod then some m else index.lookup k) :
    Clean places index' (live.insert pod.id pod) ↔ OthersReport places index live pod := by
  constructor
  · -- a place that is not the pod's keeps its record, which is clean
    intro hclean k hk hother
    obtain ⟨m', hm'⟩ := Option.isSome_iff_exists.mp (Finmap.lookup_isSome.mpr hk)
    obtain ⟨-, id, q, hq, hplace⟩ := hclean k m' (by rw [hindex, if_neg hother, hm'])
    rcases FinMap.lookup_insert_eq_some.mp hq with ⟨-, rfl⟩ | ⟨hid, hq⟩
    · exact absurd hplace hother
    · exact ⟨id, q, hid, hq, hplace⟩
  · intro hothers k m' hm'
    rw [hindex] at hm'
    by_cases hk : k ∈ places pod
    · rw [if_pos hk] at hm'
      rw [← Option.some.inj hm', hm]
      exact ⟨Finmap.mem_insert.mpr (Or.inl rfl), pod.id, pod, Finmap.lookup_insert _, hk⟩
    · rw [if_neg hk] at hm'
      obtain ⟨id, q, hid, hq, hplace⟩ := hothers k (mem_of_lookup hm') hk
      exact ⟨Finmap.mem_insert.mpr (Or.inr (h k m' hm').1), id, q,
        (Finmap.lookup_insert_of_ne _ hid).trans hq, hplace⟩

/-- **The pod's places are erased.** -/
theorem clean_erase_iff (h : Clean places index live)
    (hindex : ∀ k, index'.lookup k = if k ∈ places pod then none else index.lookup k) :
    Clean places index' (live.erase pod.id) ↔
      OthersReport places index live pod ∧ OthersHold places index pod := by
  constructor
  · intro hclean
    -- a place that is not erased keeps its record, which cannot be the pod's any more
    refine ⟨fun k hk hother => ?_, fun k m hm hother hid => ?_⟩
    · obtain ⟨m, hm⟩ := Option.isSome_iff_exists.mp (Finmap.lookup_isSome.mpr hk)
      obtain ⟨-, id, q, hq, hplace⟩ := hclean k m (by rw [hindex, if_neg hother, hm])
      obtain ⟨hid, hq⟩ := FinMap.lookup_erase_eq_some.mp hq
      exact ⟨id, q, hid, hq, hplace⟩
    · have hlive := (hclean k m (by rw [hindex, if_neg hother, hm])).1
      exact (Finmap.mem_erase.mp hlive).1 hid
  · rintro ⟨hothers, hhold⟩ k m hm
    rw [hindex] at hm
    split_ifs at hm with hk
    obtain ⟨id, q, hid, hq, hplace⟩ := hothers k (mem_of_lookup hm) hk
    exact ⟨Finmap.mem_erase.mpr ⟨hhold k m hm hk, (h k m hm).1⟩, id, q,
      (Finmap.lookup_erase_ne hid).trans hq, hplace⟩

/-! ### One event -/

/-- What the argument keeps: nothing is left over, and a record is at its pod's
name. -/
structure Inv (s : IndexWatch) : Prop where
  noLeftover : s.NoLeftover
  named : ∀ key m, s.inf.podNameToMeta.lookup key = some m → m.id.key = key
  id_eq : ∀ id q, s.live.lookup id = some q → q.id = id

theorem inv_new : new.Inv where
  noLeftover := ⟨fun _ _ h => absurd h nofun, fun _ _ h => absurd h nofun,
    fun _ _ h => absurd h nofun⟩
  named _ _ h := absurd h nofun
  id_eq _ _ h := absurd h nofun

variable {s : IndexWatch}

/-- The name index asks for nothing. -/
theorem Inv.others_name (h : s.Inv) (pod : Pod) :
    OthersReport Pod.names s.inf.podNameToMeta s.live pod ∧
      OthersHold Pod.names s.inf.podNameToMeta pod := by
  constructor
  · intro k hk hother
    obtain ⟨m, hm⟩ := Option.isSome_iff_exists.mp (Finmap.lookup_isSome.mpr hk)
    obtain ⟨-, id, q, hq, hplace⟩ := h.noLeftover.2.2 k m hm
    refine ⟨id, q, ?_, hq, hplace⟩
    rintro rfl
    rw [Pod.names, ← h.id_eq _ q hq] at hother
    exact hother hplace
  · intro k m hm hother hid
    rw [Pod.names, ← h.named k m hm, hid] at hother
    exact hother (List.mem_singleton_self _)

theorem lookup_ips_onPod (inf : Informer) (pod : Pod) (k : String) :
    (inf.onPod pod).podIPToMeta.lookup k
      = if k ∈ pod.ips then some (inf.podMeta pod) else inf.podIPToMeta.lookup k := by
  show Finmap.lookup k (if pod.podIP ≠ "" then _ else _) = _
  rw [Pod.ips]
  split_ifs with hip hk hk
  · rw [List.mem_singleton.mp hk, Finmap.lookup_insert]
  · exact Finmap.lookup_insert_of_ne _ fun heq => hk (List.mem_singleton.mpr heq)
  · exact absurd hk List.not_mem_nil
  · rfl

/-- No pod without an IP is in the IP index. -/
theorem lookup_ips_erase (h : Clean Pod.ips index live) (pod : Pod) (k : String) :
    (index.erase pod.podIP).lookup k = if k ∈ pod.ips then none else index.lookup k := by
  rw [FinMap.lookup_erase_ite, Pod.ips]
  by_cases hip : pod.podIP = ""
  · rw [if_neg (not_not_intro hip), if_neg List.not_mem_nil]
    split_ifs with hk
    · cases hlookup : index.lookup k with
      | none => rfl
      | some m =>
        obtain ⟨-, id, q, -, hplace⟩ := h k m hlookup
        rw [Pod.ips] at hplace
        split_ifs at hplace with hq
        · exact absurd ((List.mem_singleton.mp hplace).symm.trans (hk.trans hip)) hq
        · exact absurd hplace List.not_mem_nil
    · rfl
  · simp only [ne_eq, hip, not_false_eq_true, if_true, List.mem_singleton]

/-- **One event** leaves nothing behind exactly when the places that are not the
object's are other live pods'. -/
theorem Inv.eventCorrect_iff (h : s.Inv) (ev : PodEvent) : s.EventCorrect ev ↔ s.Orderly ev := by
  obtain ⟨hcontainers, hips, hnames⟩ := h.noLeftover
  cases ev with
  | upsert pod =>
    have hid : (s.inf.podMeta pod).id = pod.id := rfl
    refine and_congr (clean_insert_iff hcontainers hid fun k => ?_)
      ((and_congr (clean_insert_iff hips hid (lookup_ips_onPod s.inf pod))
        (clean_insert_iff hnames hid fun k => ?_)).trans
          (and_iff_left (h.others_name pod).1))
    · exact FinMap.lookup_foldl_insert _ _ _ _
    · simp only [Pod.names, List.mem_singleton]
      exact FinMap.lookup_insert_ite _ _ _ _
  | delete obj =>
    cases hobj : obj.get? with
    | none =>
      refine iff_of_true ?_ fun pod hpod => absurd (hobj.symm.trans hpod) nofun
      rw [EventCorrect, step, hobj]
      dsimp only
      rw [Informer.onPodDelete, hobj]
      exact h.noLeftover
    | some pod =>
      have hstep : s.step (.delete obj) = ⟨s.inf.onPodDelete obj, s.live.erase pod.id⟩ := by
        rw [step, hobj]
      have hord : s.Orderly (.delete obj) ↔
          (OthersReport Pod.containerIDs s.inf.containerToPod s.live pod ∧
            OthersHold Pod.containerIDs s.inf.containerToPod pod) ∧
          OthersReport Pod.ips s.inf.podIPToMeta s.live pod ∧
            OthersHold Pod.ips s.inf.podIPToMeta pod :=
        ⟨fun hall => hall pod hobj, fun hboth pod' hpod' => by
          rwa [← Option.some.inj (hobj.symm.trans hpod')]⟩
      rw [EventCorrect, hstep, hord, NoLeftover, Informer.onPodDelete, hobj]
      -- the condition on names is always met
      refine and_congr (clean_erase_iff hcontainers fun k => FinMap.lookup_foldl_erase _ _ _)
        ((and_congr (clean_erase_iff hips (lookup_ips_erase hips pod))
          (clean_erase_iff hnames fun k => ?_)).trans (and_iff_left (h.others_name pod)))
      simp only [Pod.names, List.mem_singleton]
      exact FinMap.lookup_erase_ite _ _ _

theorem Inv.step (h : s.Inv) {ev : PodEvent} (hcorrect : s.EventCorrect ev) : (s.step ev).Inv := by
  refine ⟨hcorrect, ?_, ?_⟩
  · cases ev with
    | upsert pod => exact FinMap.forall_lookup_insert h.named rfl
    | delete obj =>
      rw [IndexWatch.step, Informer.onPodDelete]
      cases obj.get? with
      | none => exact h.named
      | some pod => exact FinMap.forall_lookup_erase h.named
  · cases ev with
    | upsert pod => exact FinMap.forall_lookup_insert h.id_eq rfl
    | delete obj =>
      rw [IndexWatch.step]
      cases obj.get? with
      | none => exact h.id_eq
      | some pod => exact FinMap.forall_lookup_erase h.id_eq

/-! ### Runs -/

/-- **No leftover** of a pod is in the indexes after any event of a run, if and only if
every event of the run is orderly. -/
theorem no_leftover_iff (events : List PodEvent) :
    History.Along step EventCorrect new events ↔ History.Along step Orderly new events :=
  History.along_iff (fun _ _ h hcorrect => h.step hcorrect) (fun _ ev h => h.eventCorrect_iff ev)
    inv_new events

/-- A pod whose only container has an ID. -/
def oneContainer (cid : String) : Pod :=
  { id := ⟨⟨"shop", by decide⟩, ⟨"web", by decide⟩⟩
    nodeName := "node-1"
    labels := ∅
    podIP := "10.0.0.7"
    hostIP := "192.168.0.1"
    createdAt := 0
    containers := []
    containerStatuses := ["containerd://" ++ cid] }

/-- A container restarts and the pod is deleted: the first container ID still refers
to it. -/
theorem restart_leaves_container :
    let events : List PodEvent := [.upsert (oneContainer "c1"), .upsert (oneContainer "c2"),
      .delete (.object (oneContainer "c2"))]
    let s := events.foldl step new
    ((s.inf.containerToPod.lookup "c1").map PodMeta.id = some (oneContainer "c2").id ∧
        (oneContainer "c2").id ∉ s.live) ∧
      ¬ History.Along step EventCorrect new events := by
  intro events s
  have hleft : (s.inf.containerToPod.lookup "c1").map PodMeta.id = some (oneContainer "c2").id := by
    decide +kernel
  have hgone : (oneContainer "c2").id ∉ s.live := by
    decide +kernel
  refine ⟨⟨hleft, hgone⟩, fun ⟨_, _, hcorrect, _⟩ => ?_⟩
  obtain ⟨m, hm, hid⟩ := Option.map_eq_some_iff.mp hleft
  exact hgone (hid ▸ (hcorrect.1 "c1" m hm).1)

end IndexWatch
