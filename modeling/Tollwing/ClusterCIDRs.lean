/-
The cluster CIDRs, from the nodes to the classifier (`pkg/k8s/informer.go`,
`pkg/classifier/traffic.go`).

The informer announces the pod CIDRs of the nodes, telling strings apart, and the
classifier keeps the announced prefixes, telling prefixes apart.  A node handler announces
after it has released its lock, so that other callers of the classifier come in between.

* `ClusterFeed.step` — a node or pod event, one call told to the classifier, or a call of
  another caller;
* `Announces` — which strings have been announced, kept by every event;
* `clusterCIDRs_run` — the announcements and the list of the classifier after any run.
-/
import Tollwing.ClassifierSpec
import Tollwing.ClusterInformer

/-! ### The classifier's list -/

namespace Classifier

theorem nodup_dedupValid (cidrs : List Prefix) :
    ∀ seen : Finset Prefix, (dedupValid cidrs seen).Nodup := by
  induction cidrs with
  | nil => exact fun _ => List.nodup_nil
  | cons q cidrs ih =>
    intro seen
    rw [dedupValid]
    split_ifs
    · exact ih seen
    · exact ih seen
    · refine List.nodup_cons.mpr ⟨fun hq => ?_, ih _⟩
      exact (mem_dedupValid.mp hq).2.2 (Finset.mem_insert_self q seen)

theorem nodup_clusterPrefixes_call {c : Classifier} (h : c.clusterPrefixes.Nodup)
    (x : ConfigCall) : (c.call x).clusterPrefixes.Nodup := by
  cases x with
  | setClusterCIDRs cidrs => exact nodup_dedupValid cidrs ∅
  | addClusterCIDR cidr =>
    rw [call, addClusterCIDR]
    split_ifs with hvalid hmem
    · exact h
    · exact h
    · exact List.nodup_append_comm.mp (List.nodup_cons.mpr ⟨hmem, h⟩)
  | _ => exact h

theorem nodup_clusterPrefixes (calls : List ConfigCall) :
    (configure calls).clusterPrefixes.Nodup := by
  induction calls using List.reverseRecOn with
  | nil => exact List.nodup_nil
  | append_singleton calls x ih =>
    rw [configure, List.foldl_append, List.foldl_cons, List.foldl_nil]
    exact nodup_clusterPrefixes_call ih x

end Classifier

/-! ### The informer's announcements -/

namespace ClusterInformer

/-- The strings seen so far that are prefixes have been announced, each once. -/
structure Announces (seen : List String) (podCIDRs : Finset String) (announced : List Prefix)
    (raws : List String) : Prop where
  nodup : raws.Nodup
  mem_iff : ∀ raw, raw ∈ raws ↔ raw ∈ seen ∧ parsePrefix raw ≠ none
  known : ∀ raw, raw ∈ podCIDRs ↔ raw ∈ raws
  prefixes : announced.map some = raws.map parsePrefix

variable {seen : List String} {s : Finset String × List Prefix} {raws : List String}

/-- A string that is no prefix, or announced before, is passed over. -/
theorem Announces.skip (h : Announces seen s.1 s.2 raws) {raw : String}
    (hraw : parsePrefix raw ≠ none → raw ∈ raws) : Announces (seen ++ [raw]) s.1 s.2 raws where
  nodup := h.nodup
  known := h.known
  prefixes := h.prefixes
  mem_iff raw' := by
    rw [h.mem_iff, List.mem_append, List.mem_singleton]
    constructor
    · rintro ⟨hseen, hparse⟩
      exact ⟨Or.inl hseen, hparse⟩
    · rintro ⟨hseen | rfl, hparse⟩
      · exact ⟨hseen, hparse⟩
      · exact (h.mem_iff raw').mp (hraw hparse)

theorem Announces.announce (h : Announces seen s.1 s.2 raws) {raw : String} {p : Prefix}
    (hparse : parsePrefix raw = some p) (hnew : raw ∉ raws) :
    Announces (seen ++ [raw]) (insert raw s.1) (s.2 ++ [p]) (raws ++ [raw]) where
  nodup := List.nodup_append_comm.mp (List.nodup_cons.mpr ⟨hnew, h.nodup⟩)
  known raw' := by
    rw [Finset.mem_insert, h.known, List.mem_append, List.mem_singleton, or_comm]
  prefixes := by
    rw [List.map_append, List.map_append, h.prefixes, List.map_singleton, List.map_singleton,
      hparse]
  mem_iff raw' := by
    rw [List.mem_append, List.mem_append, h.mem_iff, List.mem_singleton]
    constructor
    · rintro (⟨hseen, hparse'⟩ | rfl)
      · exact ⟨Or.inl hseen, hparse'⟩
      · exact ⟨Or.inr rfl, hparse ▸ Option.some_ne_none p⟩
    · rintro ⟨hseen | rfl, hparse'⟩
      · exact Or.inl ⟨hseen, hparse'⟩
      · exact Or.inr rfl

/-- One round of the loop. -/
theorem Announces.addPodCIDR (h : Announces seen s.1 s.2 raws) (raw : String) :
    ∃ raws', Announces (seen ++ [raw]) (addPodCIDR s raw).1 (addPodCIDR s raw).2 raws' := by
  rw [ClusterInformer.addPodCIDR]
  by_cases hempty : raw = ""
  · rw [if_pos hempty]
    -- the source skips the empty string before it parses; it is no prefix anyway
    exact ⟨raws, h.skip fun hparse => absurd (hempty ▸ parsePrefix_empty) hparse⟩
  rw [if_neg hempty]
  by_cases hknown : raw ∈ s.1
  · rw [if_pos hknown]
    exact ⟨raws, h.skip fun _ => (h.known raw).mp hknown⟩
  rw [if_neg hknown]
  cases hparse : parsePrefix raw with
  | none => exact ⟨raws, h.skip fun hsome => absurd hparse hsome⟩
  | some p => exact ⟨_, h.announce hparse (mt (h.known raw).mpr hknown)⟩

theorem Announces.foldl (cands : List String) :
    ∀ {seen s raws}, Announces seen s.1 s.2 raws →
      ∃ raws', Announces (seen ++ cands) (cands.foldl ClusterInformer.addPodCIDR s).1
        (cands.foldl ClusterInformer.addPodCIDR s).2 raws' := by
  induction cands with
  | nil =>
    intro seen s raws h
    rw [List.append_nil]
    exact ⟨raws, h⟩
  | cons raw cands ih =>
    intro seen s raws h
    obtain ⟨raws', h'⟩ := h.addPodCIDR raw
    have hrest := ih h'
    rwa [List.append_assoc] at hrest

/-- The loop only adds to what was announced before. -/
theorem foldl_addPodCIDR_append (cands : List String) (podCIDRs : Finset String) :
    ∀ ps qs : List Prefix, cands.foldl addPodCIDR (podCIDRs, ps ++ qs)
      = ((cands.foldl addPodCIDR (podCIDRs, qs)).1,
          ps ++ (cands.foldl addPodCIDR (podCIDRs, qs)).2) := by
  induction cands generalizing podCIDRs with
  | nil => exact fun _ _ => rfl
  | cons raw cands ih =>
    intro ps qs
    rw [List.foldl_cons, List.foldl_cons, addPodCIDR, addPodCIDR]
    dsimp only
    split_ifs
    · exact ih podCIDRs ps qs
    · exact ih podCIDRs ps qs
    · cases parsePrefix raw with
      | none => exact ih podCIDRs ps qs
      | some p =>
        dsimp only
        rw [List.append_assoc]
        exact ih _ ps (qs ++ [p])

end ClusterInformer

/-! ### The two together -/

/-- The informer and the classifier, with the calls that handlers have yet to make, and
for the statements the calls the informer wanted made and all calls that were made. -/
structure ClusterFeed where
  informer : ClusterInformer
  classifier : Classifier
  pending : List ConfigCall
  told : List ConfigCall
  calls : List ConfigCall

inductive ClusterEvent
  | feed (ev : FeedEvent)
  | deliver
  | call (x : ConfigCall)

/-- The CIDR strings of a node. -/
def ClusterEvent.candidates : ClusterEvent → List String
  | .feed (.node node _ _) => node.cidrCandidates
  | _ => []

/-- The prefixes of the calls that announce one. -/
def announced (calls : List ConfigCall) : List Prefix := calls.flatMap ConfigCall.clusterAdded

namespace ClusterFeed

/-- A call reaches the classifier. -/
def make (s : ClusterFeed) (x : ConfigCall) : ClusterFeed :=
  { s with classifier := s.classifier.call x, calls := s.calls ++ [x] }

def step (s : ClusterFeed) : ClusterEvent → ClusterFeed
  | .feed ev =>
    let (informer, calls) := s.informer.handle ev
    { s with informer := informer, pending := s.pending ++ calls, told := s.told ++ calls }
  | .deliver =>
    match s.pending with
    | [] => s
    | x :: rest => { s with pending := rest }.make x
  | .call x => s.make x

def new : ClusterFeed := ⟨.new, .configure [], [], [], []⟩

def run (events : List ClusterEvent) : ClusterFeed := events.foldl step new

theorem run_concat (events : List ClusterEvent) (e : ClusterEvent) :
    run (events ++ [e]) = (run events).step e :=
  List.foldl_append

/-- The classifier is the one that the calls configure. -/
theorem classifier_run (events : List ClusterEvent) :
    (run events).classifier = .configure (run events).calls := by
  have hmake (s : ClusterFeed) (x : ConfigCall) (h : s.classifier = .configure s.calls) :
      (s.make x).classifier = .configure (s.make x).calls := by
    rw [make, Classifier.configure, List.foldl_append, List.foldl_cons, List.foldl_nil,
      ← Classifier.configure, h]
  induction events using List.reverseRecOn with
  | nil => rfl
  | append_singleton events e ih =>
    rw [run_concat]
    cases e with
    | feed ev => exact ih
    | call x => exact hmake _ x ih
    | deliver =>
      rw [step]
      cases (run events).pending with
      | nil => exact ih
      | cons x rest => exact hmake { run events with pending := rest } x ih

/-- Nothing that was told is lost: it was made, or is yet to be. -/
theorem told_run (events : List ClusterEvent) :
    ∃ made, made.Sublist (run events).calls ∧ (run events).told = made ++ (run events).pending := by
  induction events using List.reverseRecOn with
  | nil => exact ⟨[], List.nil_sublist _, rfl⟩
  | append_singleton events e ih =>
    rw [run_concat]
    obtain ⟨made, hmade, htold⟩ := ih
    cases e with
    | feed ev =>
      refine ⟨made, hmade, ?_⟩
      rw [step]
      dsimp only
      rw [htold, List.append_assoc]
    | call x => exact ⟨made, hmade.trans (List.sublist_append_left _ [x]), htold⟩
    | deliver =>
      rw [step]
      cases hpending : (run events).pending with
      | nil => exact ⟨made, hmade, htold.trans (by rw [hpending])⟩
      | cons x rest =>
        -- the call in front moves from the pending ones to those made
        refine ⟨made ++ [x], hmade.append (List.Sublist.refl [x]), ?_⟩
        rw [hpending] at htold
        exact htold.trans (List.append_cons made x rest)

theorem announced_append (calls calls' : List ConfigCall) :
    announced (calls ++ calls') = announced calls ++ announced calls' :=
  List.flatMap_append

/-- Zone calls announce nothing. -/
theorem announced_zoneCall (ip zone : String) :
    announced (ClusterInformer.zoneCall ip zone).toList = [] := by
  rw [ClusterInformer.zoneCall]
  cases parseAddr ip with
  | none => rfl
  | some addr => rfl

theorem announced_onPod (inf : ClusterInformer) (pod : Pod) :
    announced (inf.onPod pod).2 = [] := by
  rw [ClusterInformer.onPod_calls]
  split_ifs
  · rfl
  · cases inf.nodeZones.lookup pod.nodeName with
    | none => rfl
    | some zone => exact announced_zoneCall pod.podIP zone

theorem announced_zoneCalls (node : KubeNode) (order : RangeOrder String)
    (pods : FinMap String PodMeta) :
    announced (ClusterInformer.zoneCalls node order pods) = [] := by
  rw [announced, List.flatMap_eq_nil_iff]
  intro x hx
  obtain ⟨ip, -, hx⟩ := List.mem_filterMap.mp hx
  obtain ⟨m, -, hx⟩ := Option.bind_eq_some_iff.mp hx
  split_ifs at hx
  rw [ClusterInformer.zoneCall, Option.map_eq_some_iff] at hx
  obtain ⟨addr, -, rfl⟩ := hx
  rfl

/-- A node event announces what its loop collects. -/
theorem announced_onNode (inf : ClusterInformer) (node : KubeNode)
    (byName byIP : RangeOrder String) :
    announced (inf.onNode node byName byIP).2
      = (node.cidrCandidates.foldl ClusterInformer.addPodCIDR (inf.podCIDRs, [])).2 := by
  rw [ClusterInformer.onNode]
  dsimp only
  rw [announced_append]
  have hzones : ∀ pods, announced
      (if node.zone = "" then [] else ClusterInformer.zoneCalls node byIP pods) = [] := by
    intro pods
    split_ifs
    · rfl
    · exact announced_zoneCalls node byIP pods
  rw [hzones, List.append_nil, announced, List.flatMap_map]
  exact List.flatMap_singleton' _

/-- Every event announces the strings it brings that are new prefixes. -/
theorem announces_run (events : List ClusterEvent) :
    ∃ raws, ClusterInformer.Announces (events.flatMap ClusterEvent.candidates)
      (run events).informer.podCIDRs (announced (run events).told) raws := by
  induction events using List.reverseRecOn with
  | nil =>
    refine ⟨[], List.nodup_nil, fun raw => ?_, fun raw => ?_, rfl⟩
    · exact ⟨nofun, fun h => absurd h.1 List.not_mem_nil⟩
    · exact ⟨fun h => absurd h (Finset.notMem_empty raw), nofun⟩
  | append_singleton events e ih =>
    rw [run_concat, List.flatMap_append, List.flatMap_singleton]
    obtain ⟨raws, h⟩ := ih
    -- an event that brings no strings and tells no prefix
    have hquiet : ∀ s : ClusterFeed, s.informer.podCIDRs = (run events).informer.podCIDRs →
        announced s.told = announced (run events).told → ClusterEvent.candidates e = [] →
        ∃ raws, ClusterInformer.Announces
          (events.flatMap ClusterEvent.candidates ++ ClusterEvent.candidates e)
          s.informer.podCIDRs (announced s.told) raws := by
      intro s hknown htold hnone
      rw [hknown, htold, hnone, List.append_nil]
      exact ⟨raws, h⟩
    cases e with
    | call x => exact hquiet _ rfl rfl rfl
    | deliver =>
      rw [step]
      cases (run events).pending with
      | nil => exact hquiet _ rfl rfl rfl
      | cons x rest => exact hquiet _ rfl rfl rfl
    | feed ev =>
      cases ev with
      | pod ev =>
        refine hquiet _ ?_ ?_ rfl
        · cases ev <;> rfl
        · rw [step]
          dsimp only
          rw [announced_append]
          cases ev with
          | upsert pod => exact (congrArg _ (announced_onPod _ pod)).trans (List.append_nil _)
          | delete obj => exact List.append_nil _
      | node node byName byIP =>
        rw [step]
        dsimp only [ClusterInformer.handle]
        -- the loop goes on from what was announced before
        rw [announced_append, announced_onNode]
        have hloop := h.foldl (s := ((run events).informer.podCIDRs,
          announced (run events).told)) node.cidrCandidates
        rw [← List.append_nil (announced (run events).told),
          ClusterInformer.foldl_addPodCIDR_append] at hloop
        exact hloop

end ClusterFeed
