/-
The pod tables are bounded (`pkg/exporter/prometheus.go`).

The ring lists the tracked pods in the order in which they came into the table,
each once, so the pod in the oldest slot of a full table is always tracked and
its eviction makes room.  A pod that is evicted takes its bytes and dollars with
it, so the pods together never have more than the types.  Dollars in floats are
followed by exact ones, from which each total differs by its additions only.

* `PodTables.Tracked` — the invariant;
* `PodTables.Tracked.updateFlow_cases` — what a flow does to the tables;
* `PodTables.Tracked.updateFlow` — and to the list of the tracked pods;
* `PodTables.Follows` — tables with floats beside those with exact dollars;
* `MetricsState.pods_bounded` — the tables after any sequence of polls.
-/
import Mathlib.Algebra.BigOperators.Fin
import Mathlib.Algebra.Order.BigOperators.Group.List
import Mathlib.Algebra.Order.Group.Nat
import Tollwing.Exporter
import Tollwing.FloatSum

namespace PodTables

variable {κ : Type*}

/-- The ring lists the tracked pods, the first to be evicted first. -/
structure Tracked (t : PodTables κ) (pods : List PodKey) : Prop where
  lists : t.ring.Lists ⟨"", ""⟩ pods
  size : t.ring.size = maxPodMetrics
  mem_iff : ∀ k, k ∈ t.metrics ↔ k ∈ pods
  cost_mem : ∀ k, k ∈ t.cost → k ∈ pods
  named : ∀ k ∈ pods, k.ns ≠ ""

theorem tracked_new : (new : PodTables κ).Tracked [] where
  lists := SlotRing.lists_new _ _ (by decide)
  size := SlotRing.size_new _ _ (by decide)
  mem_iff _ := iff_of_false Finmap.notMem_empty List.not_mem_nil
  cost_mem _ h := absurd h Finmap.notMem_empty
  named _ h := absurd h List.not_mem_nil

/-- A pod that comes into the table with room. -/
def enter (t : PodTables κ) (pk : PodKey) : PodTables κ :=
  { t with
    metrics := t.metrics.insert pk {}
    ring := t.ring.push pk }

/-- The table without a pod. -/
def drop (t : PodTables κ) (pk : PodKey) : PodTables κ :=
  { t with
    metrics := t.metrics.erase pk
    cost := t.cost.erase pk }

variable {t : PodTables κ} {pods : List PodKey}

theorem Tracked.card_eq (h : t.Tracked pods) : FinMap.card t.metrics = pods.length := by
  rw [FinMap.card, ← List.toFinset_card_of_nodup h.lists.nodup]
  refine congrArg Finset.card (Finset.ext fun k => ?_)
  rw [Finmap.mem_keys, List.mem_toFinset, h.mem_iff]

theorem Tracked.length_le (h : t.Tracked pods) : pods.length ≤ maxPodMetrics :=
  h.lists.length_le.trans_eq h.size

theorem podKey_ns {f : ClassifiedFlow κ} {pk : PodKey} (h : f.podKey = some pk) : pk.ns ≠ "" := by
  rw [ClassifiedFlow.podKey] at h
  split_ifs at h with hpod
  rw [← Option.some.inj h]
  exact hpod.2.1

section
variable [AddZero κ] [LT κ] [DecidableLT κ]

/-- **One flow**: it has no pod, its pod is tracked, its pod finds room, or the pod
that came first goes. -/
theorem Tracked.updateFlow_cases (h : t.Tracked pods) (f : ClassifiedFlow κ) :
    (f.podKey = none ∧ t.updateFlow f = t) ∨
    (∃ pk, f.podKey = some pk ∧ pk ∈ pods ∧ t.updateFlow f = t.add f pk) ∨
    (∃ pk, f.podKey = some pk ∧ pk ∉ pods ∧ pods.length < maxPodMetrics ∧
      t.updateFlow f = (t.enter pk).add f pk) ∨
    (∃ pk first rest, f.podKey = some pk ∧ pk ∉ pods ∧ pods = first :: rest ∧
      pods.length = maxPodMetrics ∧ t.ring.oldest = first ∧
      t.updateFlow f = ((t.drop first).enter pk).add f pk) := by
  rw [updateFlow]
  cases hpod : f.podKey with
  | none => exact Or.inl ⟨rfl, rfl⟩
  | some pk =>
    refine Or.inr ?_
    dsimp only
    by_cases hmem : pk ∈ pods
    · refine Or.inl ⟨pk, rfl, hmem, ?_⟩
      rw [track, if_pos ((h.mem_iff pk).mpr hmem)]
    refine Or.inr ?_
    rw [track, if_neg (mt (h.mem_iff pk).mp hmem), evict, h.card_eq]
    rcases h.length_le.eq_or_lt with hfull | hroom
    · cases pods with
      | nil => exact absurd hfull (by decide)
      | cons first rest =>
        -- the slot read has a key with a namespace, so its pod goes
        have hold := h.lists.oldest_of_full (hfull.trans h.size.symm)
        refine Or.inr ⟨pk, first, rest, rfl, hmem, rfl, hfull, hold, ?_⟩
        rw [if_pos ⟨hfull.ge, hold ▸ h.named first List.mem_cons_self⟩, hold]
        rfl
    · refine Or.inl ⟨pk, rfl, hmem, hroom, ?_⟩
      rw [if_neg fun hboth => absurd hboth.1 (not_le.mpr hroom)]
      rfl

/-! ### The invariant -/

theorem Tracked.add (h : t.Tracked pods) (f : ClassifiedFlow κ) {pk : PodKey} (hpk : pk ∈ pods) :
    (t.add f pk).Tracked pods where
  lists := h.lists
  size := h.size
  mem_iff k := FinMap.mem_modify.trans (h.mem_iff k)
  cost_mem k hk := by
    have hk : k ∈ if 0 < f.costUSD then t.cost.insert pk ((t.cost.lookup pk).getD 0 + f.costUSD)
        else t.cost := hk
    split_ifs at hk
    · rcases Finmap.mem_insert.mp hk with rfl | hk
      · exact hpk
      · exact h.cost_mem k hk
    · exact h.cost_mem k hk
  named := h.named

omit [AddZero κ] [LT κ] [DecidableLT κ] in
theorem Tracked.enter (h : t.Tracked pods) (hroom : pods.length < maxPodMetrics) {pk : PodKey}
    (hpk : pk ∉ pods) (hns : pk.ns ≠ "") : (t.enter pk).Tracked (pods ++ [pk]) where
  lists := h.lists.push_of_room (hroom.trans_eq h.size.symm) hpk
  size := (SlotRing.size_push _ _).trans h.size
  mem_iff k := by
    refine Finmap.mem_insert.trans ?_
    rw [h.mem_iff, List.mem_append, List.mem_singleton]
    exact Or.comm
  cost_mem k hk := List.mem_append_left _ (h.cost_mem k hk)
  named k hk := by
    rcases List.mem_append.mp hk with hk | hk
    · exact h.named k hk
    · rwa [List.mem_singleton.mp hk]

omit [AddZero κ] [LT κ] [DecidableLT κ] in
/-- Pushing a new pod over the one that came first. -/
theorem Tracked.replace {first : PodKey} {rest : List PodKey} (h : t.Tracked (first :: rest))
    (hfull : (first :: rest).length = maxPodMetrics) {pk : PodKey} (hpk : pk ∉ first :: rest)
    (hns : pk.ns ≠ "") : ((t.drop first).enter pk).Tracked (rest ++ [pk]) where
  lists := h.lists.push_of_full (hfull.trans h.size.symm) fun hmem =>
    hpk (List.mem_cons_of_mem _ hmem)
  size := (SlotRing.size_push _ _).trans h.size
  mem_iff k := by
    have hfirst : first ∉ rest := (List.nodup_cons.mp h.lists.nodup).1
    refine Finmap.mem_insert.trans ?_
    rw [List.mem_append, List.mem_singleton]
    refine Or.comm.trans (or_congr_left ?_)
    refine Finmap.mem_erase.trans ?_
    rw [h.mem_iff, List.mem_cons]
    exact ⟨fun hk => hk.2.resolve_left hk.1, fun hk => ⟨fun heq => hfirst (heq ▸ hk), Or.inr hk⟩⟩
  cost_mem k hk := by
    obtain ⟨hne, hk⟩ := Finmap.mem_erase.mp hk
    exact List.mem_append_left _ ((List.mem_cons.mp (h.cost_mem k hk)).resolve_left hne)
  named k hk := by
    rcases List.mem_append.mp hk with hk | hk
    · exact h.named k (List.mem_cons_of_mem _ hk)
    · rwa [List.mem_singleton.mp hk]

/-- The tracked pods after an update of `pk`: a new one comes last, in a full table
for the first. -/
def arrive (pods : List PodKey) (pk : PodKey) : List PodKey :=
  if pk ∈ pods then pods
  else if pods.length < maxPodMetrics then pods ++ [pk]
  else pods.tail ++ [pk]

theorem Tracked.updateFlow (h : t.Tracked pods) (f : ClassifiedFlow κ) :
    (t.updateFlow f).Tracked (f.podKey.elim pods (arrive pods)) := by
  rcases h.updateFlow_cases f with ⟨hpod, heq⟩ | ⟨pk, hpod, hpk, heq⟩ |
    ⟨pk, hpod, hpk, hroom, heq⟩ | ⟨pk, first, rest, hpod, hpk, rfl, hfull, -, heq⟩
  · rwa [heq, hpod]
  · rw [heq, hpod, Option.elim_some, arrive, if_pos hpk]
    exact h.add f hpk
  · rw [heq, hpod, Option.elim_some, arrive, if_neg hpk, if_pos hroom]
    exact (h.enter hroom hpk (podKey_ns hpod)).add f (List.mem_append_right _
      (List.mem_singleton_self pk))
  · rw [heq, hpod, Option.elim_some, arrive, if_neg hpk, if_neg hfull.not_lt]
    exact (h.replace hfull hpk (podKey_ns hpod)).add f (List.mem_append_right _
      (List.mem_singleton_self pk))

/-- The tables after any flows. -/
theorem tracked_foldl (flows : List (ClassifiedFlow κ)) :
    ∃ pods, (flows.foldl PodTables.updateFlow new).Tracked pods := by
  induction flows using List.reverseRecOn with
  | nil => exact ⟨[], tracked_new⟩
  | append_singleton flows f ih =>
    obtain ⟨pods, h⟩ := ih
    rw [List.foldl_append, List.foldl_cons, List.foldl_nil]
    exact ⟨_, h.updateFlow f⟩

/-! ### What the retained pods add up to -/

/-- A measure of a pod's counters that grows at most by what is added. -/
theorem sum_metrics_add_le {μ : PodMetrics → ℕ} {a : ClassifiedFlow κ → ℕ}
    (hadd : ∀ (pm : PodMetrics) (f : ClassifiedFlow κ),
      μ ⟨pm.txBytes + f.txBytes, pm.rxBytes + f.rxBytes⟩ ≤ μ pm + a f)
    (t : PodTables κ) (f : ClassifiedFlow κ) (pk : PodKey) :
    (t.add f pk).metrics.sum (fun _ pm => μ pm) ≤ t.metrics.sum (fun _ pm => μ pm) + a f := by
  show FinMap.sum (FinMap.modify t.metrics pk _) _ ≤ _
  rw [FinMap.modify]
  cases hlookup : t.metrics.lookup pk with
  | none => exact Nat.le_add_right _ _
  | some pm =>
    dsimp only
    have := hadd pm f
    rw [FinMap.sum_insert, FinMap.sum_eq_add_erase hlookup]
    omega

omit [AddZero κ] [LT κ] [DecidableLT κ] in
/-- A pod enters with nothing. -/
theorem sum_metrics_enter {μ : PodMetrics → ℕ} (hzero : μ {} = 0) (t : PodTables κ) {pk : PodKey}
    (hpk : pk ∉ t.metrics) :
    (t.enter pk).metrics.sum (fun _ pm => μ pm) = t.metrics.sum fun _ pm => μ pm := by
  show FinMap.sum (t.metrics.insert pk {}) _ = _
  rw [FinMap.sum_insert_of_notMem hpk, hzero, Nat.zero_add]

omit [AddZero κ] [LT κ] [DecidableLT κ] in
/-- A pod that leaves takes what it had with it. -/
theorem sum_metrics_drop_le (μ : PodMetrics → ℕ) (t : PodTables κ) (pk : PodKey) :
    (t.drop pk).metrics.sum (fun _ pm => μ pm) ≤ t.metrics.sum fun _ pm => μ pm := by
  show FinMap.sum (t.metrics.erase pk) _ ≤ _
  cases hlookup : t.metrics.lookup pk with
  | none => rw [FinMap.erase_of_lookup_none hlookup]
  | some pm =>
    rw [FinMap.sum_eq_add_erase hlookup]
    exact Nat.le_add_left _ _

/-- **One flow adds at most what it has**, and nothing without a pod. -/
theorem Tracked.sum_metrics_updateFlow_le {μ : PodMetrics → ℕ} {a : ClassifiedFlow κ → ℕ}
    (hzero : μ {} = 0)
    (hadd : ∀ (pm : PodMetrics) (f : ClassifiedFlow κ),
      μ ⟨pm.txBytes + f.txBytes, pm.rxBytes + f.rxBytes⟩ ≤ μ pm + a f)
    (h : t.Tracked pods) (f : ClassifiedFlow κ) :
    (t.updateFlow f).metrics.sum (fun _ pm => μ pm)
      ≤ t.metrics.sum (fun _ pm => μ pm) + if f.podKey.isSome then a f else 0 := by
  rcases h.updateFlow_cases f with ⟨hpod, heq⟩ | ⟨pk, hpod, -, heq⟩ | ⟨pk, hpod, hpk, -, heq⟩ |
    ⟨pk, first, rest, hpod, hpk, -, -, -, heq⟩
  · rw [heq]
    exact Nat.le_add_right _ _
  · rw [heq, hpod, if_pos Option.isSome_some]
    exact sum_metrics_add_le hadd t f pk
  · rw [heq, hpod, if_pos Option.isSome_some,
      ← sum_metrics_enter hzero t (mt (h.mem_iff pk).mp hpk)]
    exact sum_metrics_add_le hadd _ f pk
  · have hnew : pk ∉ (t.drop first).metrics := fun hmem =>
      hpk ((h.mem_iff pk).mp (Finmap.mem_erase.mp hmem).2)
    have hdrop := sum_metrics_drop_le μ t first
    rw [← sum_metrics_enter hzero _ hnew] at hdrop
    rw [heq, hpod, if_pos Option.isSome_some]
    exact (sum_metrics_add_le hadd _ f pk).trans (Nat.add_le_add_right hdrop _)

/-- A measure of the tables that a flow raises by at most what is counted of it. -/
theorem measure_foldl_le {M : Type*} [AddCommMonoid M] [PartialOrder M] [IsOrderedAddMonoid M]
    (inv : PodTables κ → Prop) (π : PodTables κ → M) {g : ClassifiedFlow κ → M}
    (hinv : inv new) (hkeeps : ∀ (t : PodTables κ) pods f, t.Tracked pods → inv t →
      inv (t.updateFlow f))
    (hnew : π new = 0)
    (hstep : ∀ (t : PodTables κ) pods f, t.Tracked pods → inv t →
      π (t.updateFlow f) ≤ π t + if f.podKey.isSome then g f else 0)
    (flows : List (ClassifiedFlow κ)) :
    π (flows.foldl PodTables.updateFlow new)
      ≤ ((flows.filter fun f => f.podKey.isSome).map g).sum := by
  suffices h : inv (flows.foldl PodTables.updateFlow new) ∧
      π (flows.foldl PodTables.updateFlow new)
        ≤ ((flows.filter fun f => f.podKey.isSome).map g).sum from h.2
  induction flows using List.reverseRecOn with
  | nil => exact ⟨hinv, hnew.le⟩
  | append_singleton flows f ih =>
    obtain ⟨hbefore, hle⟩ := ih
    obtain ⟨pods, htracked⟩ := tracked_foldl flows
    rw [List.foldl_append, List.foldl_cons, List.foldl_nil]
    refine ⟨hkeeps _ pods f htracked hbefore, (hstep _ pods f htracked hbefore).trans ?_⟩
    rw [KeyedFold.sum_filter_eq] at hle ⊢
    rw [List.map_append, List.sum_append, List.map_singleton, List.sum_singleton]
    exact add_le_add_left hle _

end

/-! ### Exact dollars -/

section
variable {t : PodTables ℚ}

/-- No pod has negative dollars. -/
def CostNonneg (t : PodTables ℚ) : Prop := ∀ pk usd, t.cost.lookup pk = some usd → 0 ≤ usd

theorem CostNonneg.drop (h : t.CostNonneg) (pk : PodKey) : (t.drop pk).CostNonneg :=
  FinMap.forall_lookup_erase h

theorem CostNonneg.add (h : t.CostNonneg) (f : ClassifiedFlow ℚ) (pk : PodKey) :
    (t.add f pk).CostNonneg := by
  have hold : 0 ≤ (t.cost.lookup pk).getD 0 := by
    cases hlookup : t.cost.lookup pk with
    | none => exact le_rfl
    | some v => exact h pk v hlookup
  show ∀ k usd, (if 0 < f.costUSD then t.cost.insert pk ((t.cost.lookup pk).getD 0 + f.costUSD)
      else t.cost).lookup k = some usd → 0 ≤ usd
  split_ifs with hcost
  · exact FinMap.forall_lookup_insert h (add_nonneg hold hcost.le)
  · exact h

/-- A flow adds its dollars to its pod. -/
theorem sum_cost_add (t : PodTables ℚ) (f : ClassifiedFlow ℚ) (pk : PodKey) :
    (t.add f pk).cost.sum (fun _ usd => usd)
      = t.cost.sum (fun _ usd => usd) + MetricsState.addedUSD f := by
  show FinMap.sum (if 0 < f.costUSD then t.cost.insert pk ((t.cost.lookup pk).getD 0 + f.costUSD)
    else t.cost) _ = _
  by_cases hcost : 0 < f.costUSD
  · rw [if_pos hcost, MetricsState.addedUSD, max_eq_left hcost.le, FinMap.sum_insert]
    cases hlookup : t.cost.lookup pk with
    | none =>
      rw [FinMap.erase_of_lookup_none hlookup, Option.getD_none, zero_add, add_comm]
    | some v =>
      rw [FinMap.sum_eq_add_erase hlookup, Option.getD_some]
      exact add_right_comm v _ _
  · rw [if_neg hcost, MetricsState.addedUSD, max_eq_right (not_lt.mp hcost), add_zero]

theorem CostNonneg.sum_cost_drop_le (h : t.CostNonneg) (pk : PodKey) :
    (t.drop pk).cost.sum (fun _ usd => usd) ≤ t.cost.sum fun _ usd => usd := by
  show FinMap.sum (t.cost.erase pk) _ ≤ _
  cases hlookup : t.cost.lookup pk with
  | none => rw [FinMap.erase_of_lookup_none hlookup]
  | some v =>
    rw [FinMap.sum_eq_add_erase hlookup]
    exact le_add_of_nonneg_left (h pk v hlookup)

theorem Tracked.costNonneg_updateFlow (h : t.Tracked pods) (hcost : t.CostNonneg)
    (f : ClassifiedFlow ℚ) : (t.updateFlow f).CostNonneg := by
  rcases h.updateFlow_cases f with ⟨-, heq⟩ | ⟨pk, -, -, heq⟩ | ⟨pk, -, -, -, heq⟩ |
    ⟨pk, first, rest, -, -, -, -, -, heq⟩
  · rwa [heq]
  · rw [heq]
    exact hcost.add f pk
  · rw [heq]
    exact CostNonneg.add (t := t.enter pk) hcost f pk
  · rw [heq]
    exact CostNonneg.add (t := (t.drop first).enter pk) (hcost.drop first) f pk

theorem Tracked.sum_cost_updateFlow_le (h : t.Tracked pods) (hcost : t.CostNonneg)
    (f : ClassifiedFlow ℚ) :
    (t.updateFlow f).cost.sum (fun _ usd => usd) ≤ t.cost.sum (fun _ usd => usd)
      + if f.podKey.isSome then MetricsState.addedUSD f else 0 := by
  rcases h.updateFlow_cases f with ⟨hpod, heq⟩ | ⟨pk, hpod, -, heq⟩ | ⟨pk, hpod, -, -, heq⟩ |
    ⟨pk, first, rest, hpod, -, -, -, -, heq⟩
  · rw [heq, hpod]
    exact (add_zero _).ge
  · rw [heq, hpod, if_pos Option.isSome_some, sum_cost_add]
  · rw [heq, hpod, if_pos Option.isSome_some, sum_cost_add]
    rfl
  · rw [heq, hpod, if_pos Option.isSome_some, sum_cost_add]
    exact add_le_add_left (hcost.sum_cost_drop_le first) _

/-- The retained pods have at most what was added to any pod. -/
theorem sum_cost_foldl_le (flows : List (ClassifiedFlow ℚ)) :
    (flows.foldl PodTables.updateFlow new).cost.sum (fun _ usd => usd)
      ≤ ((flows.filter fun f => f.podKey.isSome).map MetricsState.addedUSD).sum :=
  measure_foldl_le CostNonneg (fun t => t.cost.sum fun _ usd => usd)
    (fun _ _ h => absurd h nofun) (fun _ _ f h hcost => h.costNonneg_updateFlow hcost f) rfl
    (fun _ _ f h hcost => h.sum_cost_updateFlow_le hcost f) flows

end

/-! ### A crowd of pods -/

/-- The flows of a crowd: pod `i` has a name of `i + 1` letters. -/
def crowdFlow (i : ℕ) : ClassifiedFlow Float64 :=
  { trafficType := 0
    txBytes := 1
    rxBytes := 1
    costUSD := 1
    ns := "crowd"
    pod := String.ofList (List.replicate (i + 1) 'p') }

def crowdPod (i : ℕ) : PodKey := ⟨"crowd", String.ofList (List.replicate (i + 1) 'p')⟩

theorem podKey_crowdFlow (i : ℕ) : (crowdFlow i).podKey = some (crowdPod i) := by
  have hns : (crowdFlow i).ns ≠ "" := by
    show "crowd" ≠ ""
    decide
  refine if_pos ⟨rfl, hns, fun heq => ?_⟩
  exact absurd (congrArg String.toList heq) (by simp [crowdFlow, List.replicate_succ])

theorem crowdPod_injective : Function.Injective crowdPod := by
  intro i j h
  have hlist := congrArg (fun pk : PodKey => pk.pod.toList.length) h
  simpa [crowdPod] using hlist

theorem crowdPod_notMem (n : ℕ) : crowdPod n ∉ (List.range n).map crowdPod := fun hmem => by
  obtain ⟨i, hi, heq⟩ := List.mem_map.mp hmem
  rw [crowdPod_injective heq] at hi
  exact List.not_mem_range_self hi

/-- The first pods of a crowd fill the table in their order. -/
theorem tracked_crowd {n : ℕ} (hn : n ≤ maxPodMetrics) :
    (((List.range n).map crowdFlow).foldl PodTables.updateFlow new).Tracked
      ((List.range n).map crowdPod) := by
  induction n with
  | zero => exact tracked_new
  | succ n ih =>
    have hroom : ((List.range n).map crowdPod).length < maxPodMetrics := by
      rw [List.length_map, List.length_range]
      omega
    have h := (ih (by omega)).updateFlow (crowdFlow n)
    rw [podKey_crowdFlow, Option.elim_some, arrive, if_neg (crowdPod_notMem n),
      if_pos hroom] at h
    rw [List.range_succ, List.map_append, List.map_append, List.foldl_append]
    exact h

/-- The next one takes the place of the first. -/
theorem tracked_crowd_full {n : ℕ} (hn : n = maxPodMetrics) :
    (((List.range (n + 1)).map crowdFlow).foldl PodTables.updateFlow new).Tracked
      ((List.range n).map (crowdPod ∘ Nat.succ)) := by
  have hfull : ¬((List.range n).map crowdPod).length < maxPodMetrics := by
    rw [List.length_map, List.length_range]
    omega
  have h := (tracked_crowd hn.le).updateFlow (crowdFlow n)
  rw [podKey_crowdFlow, Option.elim_some, arrive, if_neg (crowdPod_notMem _), if_neg hfull] at h
  rw [List.range_succ, List.map_append, List.foldl_append]
  have hpods : ((List.range n).map crowdPod).tail ++ [crowdPod n]
      = (List.range n).map (crowdPod ∘ Nat.succ) := by
    cases n with
    | zero => exact absurd hn (by decide)
    | succ n =>
      rw [List.range_succ_eq_map, List.map_cons, List.tail_cons, List.map_map,
        ← List.range_succ_eq_map, List.range_succ, List.map_append]
      rfl
  exact hpods ▸ h

/-! ### Floats beside exact dollars -/

end PodTables

/-- The flow with its dollars taken as exact. -/
def ClassifiedFlow.exact (f : ClassifiedFlow Float64) : ClassifiedFlow ℚ :=
  { f with costUSD := f.costUSD.toRat }

namespace PodTables

open FloatSum Nearest

/-- After `n` flows, tables with floats and the tables of the same flows with exact dollars:
a pod's float is off by what `n` additions may be. -/
structure Follows (n : ℕ) (t : PodTables Float64) (t' : PodTables ℚ) : Prop where
  metrics : t.metrics = t'.metrics
  ring : t.ring = t'.ring
  nonneg : t'.CostNonneg
  missing : ∀ pk, t.cost.lookup pk = none → t'.cost.lookup pk = none
  near : ∀ pk usd, t.cost.lookup pk = some usd → usd.IsFinite →
    ∃ q, t'.cost.lookup pk = some q ∧ |usd.toRat - q| ≤ growth n * q

theorem follows_new : Follows 0 new new where
  metrics := rfl
  ring := rfl
  nonneg _ _ h := absurd h nofun
  missing _ _ := rfl
  near _ _ h := absurd h nofun

variable {n : ℕ} {t : PodTables Float64} {t' : PodTables ℚ}

theorem Follows.mono (h : Follows n t t') : Follows (n + 1) t t' := by
  refine ⟨h.metrics, h.ring, h.nonneg, h.missing, fun pk usd husd hfin => ?_⟩
  obtain ⟨q, hq, hnear⟩ := h.near pk usd husd hfin
  exact ⟨q, hq, hnear.trans (mul_le_mul_of_nonneg_right (growth_mono n.le_succ)
    (h.nonneg pk q hq))⟩

theorem Follows.evict (h : Follows n t t') : Follows n t.evict t'.evict := by
  rw [PodTables.evict, PodTables.evict, h.metrics, h.ring]
  split_ifs with hfull
  · refine ⟨rfl, rfl, h.nonneg.drop _, fun pk hpk => ?_, fun pk usd husd hfin => ?_⟩
    · by_cases hold : pk = t'.ring.oldest
      · rw [hold]
        exact Finmap.lookup_erase _ _
      · exact (Finmap.lookup_erase_ne hold).trans
          (h.missing pk ((Finmap.lookup_erase_ne hold).symm.trans hpk))
    · by_cases hold : pk = t'.ring.oldest
      · rw [hold] at husd
        exact absurd ((Finmap.lookup_erase _ _).symm.trans husd) nofun
      · obtain ⟨q, hq, hnear⟩ := h.near pk usd ((Finmap.lookup_erase_ne hold).symm.trans husd) hfin
        exact ⟨q, (Finmap.lookup_erase_ne hold).trans hq, hnear⟩
  · exact ⟨h.metrics, h.ring, h.nonneg, h.missing, h.near⟩

theorem Follows.track (h : Follows n t t') (pk : PodKey) : Follows n (t.track pk) (t'.track pk) := by
  rw [PodTables.track, PodTables.track, h.metrics]
  split_ifs
  · exact h
  · have hevict := h.evict
    refine ⟨?_, ?_, hevict.nonneg, hevict.missing, hevict.near⟩
    · dsimp only
      rw [hevict.metrics]
    · dsimp only
      rw [h.ring]

/-- **One flow** is one more addition. -/
theorem Follows.add (h : Follows n t t') (f : ClassifiedFlow Float64) (pk : PodKey) :
    Follows (n + 1) (t.add f pk) (t'.add f.exact pk) := by
  have hmetrics : (t.add f pk).metrics = (t'.add f.exact pk).metrics := by
    rw [PodTables.add, PodTables.add, h.metrics]
    rfl
  by_cases hcost : 0 < f.costUSD
  · have hadded : (t.add f pk).cost
        = t.cost.insert pk ((t.cost.lookup pk).getD 0 + f.costUSD) := if_pos hcost
    refine ⟨hmetrics, h.ring, h.nonneg.add f.exact pk, fun k hk => ?_, fun k usd husd hfin => ?_⟩
    · rw [hadded, FinMap.lookup_insert_ite] at hk
      split_ifs at hk with hkpk
      refine Eq.trans ?_ (h.missing k hk)
      show (if 0 < f.exact.costUSD then _ else _ : FinMap PodKey ℚ).lookup k = _
      split_ifs
      · exact Finmap.lookup_insert_of_ne _ hkpk
      · rfl
    · rw [hadded, FinMap.lookup_insert_ite] at husd
      split_ifs at husd with hkpk
      · obtain rfl := Option.some_inj.mp husd
        obtain ⟨hold, hnew⟩ := Float64.isFinite_of_add hfin
        have hpos : 0 < f.exact.costUSD := Float64.toRat_pos_iff.mpr ⟨hcost, hnew⟩
        -- what the pod had before
        obtain ⟨q, hq, hnear⟩ : ∃ q, 0 ≤ q ∧ (t'.cost.lookup pk).getD 0 = q ∧
            |((t.cost.lookup pk).getD 0).toRat - q| ≤ growth n * q := by
          cases hlookup : t.cost.lookup pk with
          | none =>
            refine ⟨0, le_rfl, by rw [h.missing pk hlookup, Option.getD_none], ?_⟩
            rw [Option.getD_none, Float64.toRat_zero, sub_zero, abs_zero, mul_zero]
          | some usd =>
            rw [hlookup] at hold
            obtain ⟨q, hq, hnear⟩ := h.near pk usd hlookup hold
            exact ⟨q, h.nonneg pk q hq, by rw [hq, Option.getD_some], hnear⟩
        refine ⟨q + f.costUSD.toRat, ?_, abs_toRat_add_sub_le_growth hq hnear.2 hpos.le hfin⟩
        show (if 0 < f.exact.costUSD then _ else _ : FinMap PodKey ℚ).lookup k = _
        rw [if_pos hpos, hkpk, Finmap.lookup_insert, hnear.1]
        rfl
      · obtain ⟨q, hq, hnear⟩ := h.mono.near k usd husd hfin
        refine ⟨q, ?_, hnear⟩
        show (if 0 < f.exact.costUSD then _ else _ : FinMap PodKey ℚ).lookup k = _
        split_ifs
        · exact (Finmap.lookup_insert_of_ne _ hkpk).trans hq
        · exact hq
  · have hsame : (t.add f pk).cost = t.cost := if_neg hcost
    have hsame' : (t'.add f.exact pk).cost = t'.cost :=
      if_neg fun hpos => hcost (Float64.toRat_pos_iff.mp hpos).1
    have hmono := h.mono
    refine ⟨hmetrics, h.ring, h.nonneg.add f.exact pk, ?_, ?_⟩
    · rw [hsame, hsame']
      exact hmono.missing
    · rw [hsame, hsame']
      exact hmono.near

theorem Follows.updateFlow (h : Follows n t t') (f : ClassifiedFlow Float64) :
    Follows (n + 1) (t.updateFlow f) (t'.updateFlow f.exact) := by
  have hpod : f.exact.podKey = f.podKey := rfl
  rw [PodTables.updateFlow, PodTables.updateFlow, hpod]
  cases f.podKey with
  | none => exact h.mono
  | some pk => exact (h.track pk).add f pk

/-- **Any flows**, in floats and exactly. -/
theorem follows_foldl (flows : List (ClassifiedFlow Float64)) :
    Follows flows.length (flows.foldl PodTables.updateFlow new)
      ((flows.map ClassifiedFlow.exact).foldl PodTables.updateFlow new) := by
  induction flows using List.reverseRecOn with
  | nil => exact follows_new
  | append_singleton flows f ih =>
    rw [List.map_append, List.foldl_append, List.foldl_append, List.length_append]
    exact ih.updateFlow f

/-- What the pods have in floats, against what they have exactly. -/
theorem Follows.sum_cost_le (h : Follows n t t')
    (hfin : ∀ pk usd, t.cost.lookup pk = some usd → usd.IsFinite) :
    t.cost.sum (fun _ usd => usd.toRat) ≤ (1 + growth n) * t'.cost.sum fun _ q => q := by
  have hgrowth := growth_nonneg n
  have hsub : t.cost.keys ⊆ t'.cost.keys := fun pk hpk => by
    obtain ⟨usd, husd⟩ := Option.ne_none_iff_exists'.mp (FinMap.mem_keys_iff_lookup.mp hpk)
    obtain ⟨q, hq, -⟩ := h.near pk usd husd (hfin pk usd husd)
    exact FinMap.mem_keys_iff_lookup.mpr (hq ▸ Option.some_ne_none q)
  rw [FinMap.sum_eq_sum_keys, FinMap.sum_eq_sum_keys, Finset.mul_sum]
  calc ∑ pk ∈ t.cost.keys, (t.cost.lookup pk).elim 0 (fun usd => usd.toRat)
      ≤ ∑ pk ∈ t.cost.keys, (1 + growth n) * (t'.cost.lookup pk).elim 0 fun q => q := by
        refine Finset.sum_le_sum fun pk hpk => ?_
        obtain ⟨usd, husd⟩ := Option.ne_none_iff_exists'.mp (FinMap.mem_keys_iff_lookup.mp hpk)
        obtain ⟨q, hq, hnear⟩ := h.near pk usd husd (hfin pk usd husd)
        rw [husd, hq, Option.elim_some, Option.elim_some]
        linarith [(abs_le.mp hnear).2]
    _ ≤ ∑ pk ∈ t'.cost.keys, (1 + growth n) * (t'.cost.lookup pk).elim 0 fun q => q := by
        refine Finset.sum_le_sum_of_subset_of_nonneg hsub fun pk hpk _ => ?_
        obtain ⟨q, hq⟩ := Option.ne_none_iff_exists'.mp (FinMap.mem_keys_iff_lookup.mp hpk)
        rw [hq]
        exact mul_nonneg (by linarith) (h.nonneg pk q hq)

end PodTables

namespace MetricsState

variable {κ : Type*}

/-- Every counter of a type has room for what is counted of it. -/
def NoWrap (flows : List (ClassifiedFlow κ)) : Prop :=
  ∀ i, ((flows.filter (counts i)).map fun f => f.txBytes.toNat).sum < 2 ^ 64 ∧
    ((flows.filter (counts i)).map fun f => f.rxBytes.toNat).sum < 2 ^ 64

instance decidableNoWrap (flows : List (ClassifiedFlow κ)) : Decidable (NoWrap flows) :=
  inferInstanceAs (Decidable (∀ _ : Fin numTrafficTypes, _ ∧ _))

/-- Over the types, everything is counted that is not a sidecar's. -/
theorem sum_counts {M : Type*} [AddCommMonoid M] (g : ClassifiedFlow κ → M)
    (flows : List (ClassifiedFlow κ)) :
    ∑ i, ((flows.filter (counts i)).map g).sum
      = ((flows.filter fun f => !f.isSidecar).map g).sum := by
  have hfiber := KeyedFold.sum_fibers Finset.univ ClassifiedFlow.typeIndex g
    (flows.filter fun f => !f.isSidecar)
  simp only [Finset.mem_univ, decide_true, List.filter_filter, Bool.true_and] at hfiber
  rw [← hfiber]
  refine Finset.sum_congr rfl fun i _ => ?_
  refine congrArg (fun p => ((flows.filter p).map g).sum) (funext fun f => ?_)
  rw [counts, Bool.and_comm]
  rfl

/-- A flow with a pod is not a sidecar's. -/
theorem not_sidecar_of_podKey {f : ClassifiedFlow κ} (h : f.podKey.isSome) : !f.isSidecar := by
  rw [ClassifiedFlow.podKey] at h
  split_ifs at h with hpod
  · rw [hpod.1]
    rfl
  · exact absurd h Bool.false_ne_true

/-- So the flows with a pod have at most what all types have. -/
theorem sum_podKey_le {M : Type*} [AddCommMonoid M] [PartialOrder M] [IsOrderedAddMonoid M]
    {g : ClassifiedFlow κ → M} (hg : ∀ f, 0 ≤ g f) (flows : List (ClassifiedFlow κ)) :
    ((flows.filter fun f => f.podKey.isSome).map g).sum
      ≤ ∑ i, ((flows.filter (counts i)).map g).sum := by
  rw [sum_counts, KeyedFold.sum_filter_eq, KeyedFold.sum_filter_eq]
  refine List.sum_le_sum fun f _ => ?_
  by_cases hpod : f.podKey.isSome
  · rw [if_pos hpod, if_pos (not_sidecar_of_podKey hpod)]
  · rw [if_neg hpod]
    split_ifs
    · exact hg f
    · exact le_rfl

/-- A type's counter without a wrap. -/
theorem toNat_counter {p : ClassifiedFlow κ → Bool} {g : ClassifiedFlow κ → UInt64}
    {flows : List (ClassifiedFlow κ)}
    (h : ((flows.filter p).map fun f => (g f).toNat).sum < 2 ^ 64) :
    ((flows.filter p).map g).sum.toNat = ((flows.filter p).map fun f => (g f).toNat).sum := by
  have hmap : ((flows.filter p).map g).map UInt64.toNat
      = (flows.filter p).map fun f => (g f).toNat := List.map_map
  rw [KeyedFold.toNat_sum _ (by rwa [hmap]), hmap]

/-- The retained pods have at most the bytes of all types. -/
theorem sum_bytes_le [AddZero κ] [LT κ] [DecidableLT κ] {π : PodMetrics → UInt64}
    {g : ClassifiedFlow κ → UInt64} (hzero : π {} = 0)
    (hadd : ∀ (pm : PodMetrics) (f : ClassifiedFlow κ),
      π ⟨pm.txBytes + f.txBytes, pm.rxBytes + f.rxBytes⟩ = π pm + g f)
    (flows : List (ClassifiedFlow κ))
    (hwrap : ∀ i, ((flows.filter (counts i)).map fun f => (g f).toNat).sum < 2 ^ 64) :
    (flows.foldl PodTables.updateFlow .new).metrics.sum (fun _ pm => (π pm).toNat)
      ≤ ∑ i, ((flows.filter (counts i)).map g).sum.toNat := by
  rw [Finset.sum_congr rfl fun i _ => toNat_counter (hwrap i)]
  refine le_trans ?_ (sum_podKey_le (fun _ => Nat.zero_le _) flows)
  refine PodTables.measure_foldl_le (fun _ => True)
    (fun t => t.metrics.sum fun _ pm => (π pm).toNat) trivial (fun _ _ _ _ _ => trivial) rfl
    (fun t pods f h _ => ?_) flows
  refine h.sum_metrics_updateFlow_le (μ := fun pm => (π pm).toNat) (a := fun f => (g f).toNat)
    (congrArg UInt64.toNat hzero) (fun pm f => ?_) f
  rw [hadd, UInt64.toNat_add]
  exact Nat.mod_le _ _

/-! ### Dollars of the types -/

open FloatSum

/-- What flows add to a total, one after the other. -/
theorem foldl_addUSD_eq (flows : List (ClassifiedFlow Float64)) (usd : Float64) :
    flows.foldl (fun usd f => f.addUSD usd) usd
      = (((flows.filter fun f => 0 < f.costUSD).map ClassifiedFlow.costUSD)).foldl (· + ·) usd := by
  refine KeyedFold.proj_foldl_filter (π := id) _ (fun usd f => ?_) usd flows
  rw [ClassifiedFlow.addUSD]
  simp only [id, decide_eq_true_eq]

/-- The dollars that flows add, exactly. -/
def exactUSD (flows : List (ClassifiedFlow Float64)) : ℚ :=
  ((flows.map ClassifiedFlow.exact).map addedUSD).sum

/-- Positive floats and the others, as numbers. -/
theorem addedUSD_exact (f : ClassifiedFlow Float64) :
    addedUSD f.exact = if 0 < f.costUSD then |f.costUSD.toRat| else 0 := by
  rw [addedUSD]
  show max f.costUSD.toRat 0 = _
  split_ifs with hcost
  · have hnonneg := Float64.toRat_nonneg hcost
    rw [max_eq_left hnonneg, abs_of_nonneg hnonneg]
  · exact max_eq_right (not_lt.mp fun hpos => hcost (Float64.toRat_pos_iff.mp hpos).1)

/-- **A type's total** in floats is off by what its additions may be. -/
theorem abs_foldl_addUSD_sub_le {flows : List (ClassifiedFlow Float64)}
    (h : (flows.foldl (fun usd f => f.addUSD usd) (0 : Float64)).IsFinite) :
    |(flows.foldl (fun usd f => f.addUSD usd) (0 : Float64)).toRat - exactUSD flows|
      ≤ growth flows.length * exactUSD flows := by
  set costs := (flows.filter fun f => 0 < f.costUSD).map ClassifiedFlow.costUSD with hcosts
  have hadd : flows.foldl (fun usd f => f.addUSD usd) (0 : Float64) = KeyedFold.addUp costs :=
    foldl_addUSD_eq flows 0
  have hmass : mass costs = exactUSD flows := by
    rw [hcosts, mass_map, exactUSD, List.map_map, KeyedFold.sum_filter_eq]
    refine congrArg List.sum (List.map_congr_left fun f _ => ?_)
    rw [Function.comp_apply, addedUSD_exact]
    simp only [decide_eq_true_eq]
  have hexact : exact costs = mass costs := by
    rw [exact, mass]
    refine congrArg List.sum (List.map_congr_left fun c hc => (abs_of_nonneg ?_).symm)
    obtain ⟨f, hf, rfl⟩ := List.mem_map.mp hc
    exact Float64.toRat_nonneg (of_decide_eq_true (List.mem_filter.mp hf).2)
  have hlength : costs.length ≤ flows.length := by
    rw [hcosts, List.length_map]
    exact List.length_filter_le _ _
  rw [hadd] at h ⊢
  have hsum := abs_toRat_addUp_sub_le h
  rw [hexact, hmass] at hsum
  exact hsum.trans (mul_le_mul_of_nonneg_right (growth_mono hlength)
    (hmass ▸ mass_nonneg costs))

/-- The exact dollars of the retained pods are no more than what the types got. -/
theorem sum_cost_exact_le (flows : List (ClassifiedFlow Float64)) :
    ((flows.map ClassifiedFlow.exact).foldl PodTables.updateFlow .new).cost.sum (fun _ q => q)
      ≤ ∑ i, exactUSD (flows.filter (counts i)) := by
  have hfilter : ∀ i, ((flows.map ClassifiedFlow.exact).filter (counts i)).map addedUSD
      = ((flows.filter (counts i)).map ClassifiedFlow.exact).map addedUSD := fun i => by
    rw [List.filter_map]
    rfl
  have hle := (PodTables.sum_cost_foldl_le (flows.map ClassifiedFlow.exact)).trans
    (sum_podKey_le (g := addedUSD) (fun f => le_max_right f.costUSD 0) _)
  simp only [hfilter] at hle
  exact hle

/-- **The pod tables** after any polls: at most `maxPodMetrics` pods, a cost only for
a pod with bytes, a slot for each of them, and never more bytes in all than the types have.
Neither have they more dollars, up to what the additions of the floats may be off by. -/
theorem pods_bounded (polls : List (List (ClassifiedFlow Float64)))
    (hwrap : NoWrap polls.flatten) :
    let s := polls.foldl updateFromPoll new
    FinMap.card s.pods.metrics ≤ maxPodMetrics ∧
      (∀ pk ∈ s.pods.cost, pk ∈ s.pods.metrics) ∧
      (∀ pk ∈ s.pods.metrics, s.pods.ring.slots.count pk = 1) ∧
      s.pods.metrics.sum (fun _ pm => pm.txBytes.toNat) ≤ ∑ i, (s.txByType i).toNat ∧
      s.pods.metrics.sum (fun _ pm => pm.rxBytes.toNat) ≤ ∑ i, (s.rxByType i).toNat ∧
      ((∀ i, (s.costByType i).IsFinite) →
        (∀ pk usd, s.pods.cost.lookup pk = some usd → usd.IsFinite) →
        s.pods.cost.sum (fun _ usd => usd.toRat) ≤ ∑ i, (s.costByType i).toRat
          + 2 * growth polls.flatten.length * ∑ i, exactUSD (polls.flatten.filter (counts i))) := by
  intro s
  have hpods : s.pods = polls.flatten.foldl PodTables.updateFlow .new :=
    pods_foldl_updateFromPoll _ polls
  have htx : ∀ i, s.txByType i
      = ((polls.flatten.filter (counts i)).map ClassifiedFlow.txBytes).sum := fun i =>
    (txByType_foldl_updateFromPoll _ polls i).trans (zero_add _)
  have hrx : ∀ i, s.rxByType i
      = ((polls.flatten.filter (counts i)).map ClassifiedFlow.rxBytes).sum := fun i =>
    (rxByType_foldl_updateFromPoll _ polls i).trans (zero_add _)
  have hcost : ∀ i, s.costByType i
      = (polls.flatten.filter (counts i)).foldl (fun usd f => f.addUSD usd) (0 : Float64) :=
    costByType_foldl_updateFromPoll _ polls
  obtain ⟨pods, h⟩ := PodTables.tracked_foldl polls.flatten
  rw [← hpods] at h
  refine ⟨h.card_eq.trans_le h.length_le, fun pk hpk => (h.mem_iff pk).mpr (h.cost_mem pk hpk),
    fun pk hpk => ?_, ?_, ?_, fun htypes hfin => ?_⟩
  · have hmem := (h.mem_iff pk).mp hpk
    exact h.lists.count_slots_eq_one hmem fun heq => h.named pk hmem (heq ▸ rfl)
  · simp only [hpods, htx]
    exact sum_bytes_le rfl (fun _ _ => rfl) polls.flatten fun i => (hwrap i).1
  · simp only [hpods, hrx]
    exact sum_bytes_le rfl (fun _ _ => rfl) polls.flatten fun i => (hwrap i).2
  · set g := growth polls.flatten.length with hg
    have hgrowth : 0 ≤ g := growth_nonneg _
    -- the pods have little more than exactly, and the types little less
    have hle : s.pods.cost.sum (fun _ usd => usd.toRat)
        ≤ (1 + g) * ∑ i, exactUSD (polls.flatten.filter (counts i)) := by
      have hfollows := (PodTables.follows_foldl polls.flatten).sum_cost_le
        (by rw [← hpods]; exact hfin)
      rw [← hpods] at hfollows
      exact hfollows.trans
        (mul_le_mul_of_nonneg_left (sum_cost_exact_le polls.flatten) (by linarith))
    have hge : (1 - g) * ∑ i, exactUSD (polls.flatten.filter (counts i))
        ≤ ∑ i, (s.costByType i).toRat := by
      rw [Finset.mul_sum]
      refine Finset.sum_le_sum fun i _ => ?_
      have hnonneg : 0 ≤ exactUSD (polls.flatten.filter (counts i)) := by
        refine List.sum_nonneg fun q hq => ?_
        obtain ⟨f, -, rfl⟩ := List.mem_map.mp hq
        exact le_max_right _ _
      have hnear := abs_foldl_addUSD_sub_le (hcost i ▸ htypes i)
      have hmono := mul_le_mul_of_nonneg_right
        (growth_mono (List.length_filter_le (counts i) polls.flatten)) hnonneg
      rw [hcost i]
      linarith [(abs_le.mp hnear).1]
    linarith

theorem noWrap_crowd {n : ℕ} (hn : n < 2 ^ 64) :
    NoWrap ((List.range n).map PodTables.crowdFlow) := by
  have hsum : ∀ (i : Fin numTrafficTypes) (bytes : ClassifiedFlow Float64 → ℕ),
      (∀ k, bytes (PodTables.crowdFlow k) ≤ 1) →
        ((((List.range n).map PodTables.crowdFlow).filter (counts i)).map bytes).sum < 2 ^ 64 := by
    intro i bytes hbytes
    have hle : ∀ b ∈ (((List.range n).map PodTables.crowdFlow).filter (counts i)).map bytes,
        b ≤ 1 := by
      intro b hb
      obtain ⟨f, hf, rfl⟩ := List.mem_map.mp hb
      obtain ⟨k, -, rfl⟩ := List.mem_map.mp (List.mem_filter.mp hf).1
      exact hbytes k
    have hsum := List.sum_le_card_nsmul _ 1 hle
    have hlength := List.length_filter_le (counts i) ((List.range n).map PodTables.crowdFlow)
    rw [List.length_map, List.length_range] at hlength
    rw [List.length_map, smul_eq_mul, mul_one] at hsum
    omega
  exact fun i => ⟨hsum i _ fun _ => le_rfl, hsum i _ fun _ => le_rfl⟩

/-- A thousand pods and one more, which takes the place of the first. -/
theorem pods_bounded_crowd :
    let s := [(List.range (maxPodMetrics + 1)).map PodTables.crowdFlow].foldl updateFromPoll new
    PodTables.crowdPod 0 ∉ s.pods.metrics ∧ FinMap.card s.pods.metrics ≤ maxPodMetrics ∧
      s.pods.metrics.sum (fun _ pm => pm.txBytes.toNat) ≤ ∑ i, (s.txByType i).toNat := by
  intro s
  have hwrap : NoWrap [(List.range (maxPodMetrics + 1)).map PodTables.crowdFlow].flatten := by
    rw [List.flatten_singleton]
    exact noWrap_crowd (by norm_num [maxPodMetrics])
  have hpods := pods_foldl_updateFromPoll (new : MetricsState Float64)
    [(List.range (maxPodMetrics + 1)).map PodTables.crowdFlow]
  rw [List.flatten_singleton] at hpods
  have hbounded := pods_bounded [(List.range (maxPodMetrics + 1)).map PodTables.crowdFlow] hwrap
  refine ⟨?_, hbounded.1, hbounded.2.2.2.1⟩
  have htracked := PodTables.tracked_crowd_full (n := maxPodMetrics) rfl
  rw [hpods, show (new : MetricsState Float64).pods = .new from rfl, htracked.mem_iff, List.mem_map]
  rintro ⟨i, -, heq⟩
  exact absurd (PodTables.crowdPod_injective heq) (Nat.succ_ne_zero i)

/-- Two flows of a pod around one of another, all of one type. -/
def threeFlows : List (ClassifiedFlow Float64) :=
  [{ trafficType := 4, txBytes := 1, rxBytes := 1, costUSD := 0.3, ns := "a", pod := "a" },
    { trafficType := 4, txBytes := 1, rxBytes := 1, costUSD := 0.2, ns := "a", pod := "b" },
    { trafficType := 4, txBytes := 1, rxBytes := 1, costUSD := 0.1, ns := "a", pod := "a" }]

/-- The pods have `0.4` and `0.2` dollars, and the type has the float below `0.6`. -/
theorem pods_exceed_types :
    let s := [threeFlows].foldl updateFromPoll new
    NoWrap [threeFlows].flatten ∧
      ∑ i, (s.costByType i).toRat < s.pods.cost.sum fun _ usd => usd.toRat := by
  decide +kernel

end MetricsState
