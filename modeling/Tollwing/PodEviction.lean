/-
Which pod a full table loses (`pkg/exporter/prometheus.go`).

The eviction is said to be of the least recently used pod, but the ring is written
when a pod comes into the table and not when it is updated: the pod that goes is
the one that came first.  A pod that has just been updated can be it.  And a pod that
waits for as many others as the table holds has to go, whichever goes first.

* `EvictionWatch.evictsLRU_iff` — what makes one eviction right;
* `EvictionWatch.latest` — then the table has the pods that were updated last;
* `EvictionWatch.lru_iff` — the polls over which every evicted pod is a least recently
  used one and no pod in use loses its counters;
* `EvictionWatch.evicts_updated_pod` — polls that take the counters of a pod that was
  updated just before.
-/
import Tollwing.History
import Tollwing.PodCardinality
import Tollwing.Recency

namespace PodTables

variable {κ : Type*} [AddZero κ]

/-- The dollars of a pod. -/
def usd (t : PodTables κ) (pk : PodKey) : κ := (t.cost.lookup pk).getD 0

variable [LT κ] [DecidableLT κ] {t : PodTables κ} {pods : List PodKey} {f : ClassifiedFlow κ}
  {pk : PodKey}

/-! ### What a flow leaves of another pod -/

theorem lookup_metrics_add (t : PodTables κ) (f : ClassifiedFlow κ) (pk k : PodKey) :
    (t.add f pk).metrics.lookup k = if k = pk
      then (t.metrics.lookup k).map fun pm => ⟨pm.txBytes + f.txBytes, pm.rxBytes + f.rxBytes⟩
      else t.metrics.lookup k :=
  FinMap.lookup_modify_ite _ _ _ _

theorem usd_add (t : PodTables κ) (f : ClassifiedFlow κ) (pk k : PodKey) :
    (t.add f pk).usd k = if k = pk then f.addUSD (t.usd k) else t.usd k := by
  rw [usd, usd, add, ClassifiedFlow.addUSD]
  dsimp only
  by_cases hcost : 0 < f.costUSD
  · rw [if_pos hcost, if_pos hcost, FinMap.lookup_insert_ite]
    split_ifs with hk
    · rw [hk, Option.getD_some]
    · rfl
  · rw [if_neg hcost, if_neg hcost, ite_self]

/-- **Another pod** keeps its counters if it is not removed. -/
theorem Tracked.lookup_of_kept (h : t.Tracked pods) (hpk : f.podKey ≠ some pk)
    (hkept : pk ∈ t.metrics → pk ∈ (t.updateFlow f).metrics) :
    (t.updateFlow f).metrics.lookup pk = t.metrics.lookup pk ∧
      (t.updateFlow f).usd pk = t.usd pk := by
  rcases h.updateFlow_cases f with ⟨-, heq⟩ | ⟨pk', hpod, -, heq⟩ | ⟨pk', hpod, -, -, heq⟩ |
    ⟨pk', first, rest, hpod, hnew, rfl, -, -, heq⟩
  · rw [heq]
    exact ⟨rfl, rfl⟩
  · have hne : pk ≠ pk' := fun heq => hpk (heq ▸ hpod)
    rw [heq, lookup_metrics_add, if_neg hne, usd_add, if_neg hne]
    exact ⟨rfl, rfl⟩
  · have hne : pk ≠ pk' := fun heq => hpk (heq ▸ hpod)
    rw [heq, lookup_metrics_add, if_neg hne, usd_add, if_neg hne]
    exact ⟨Finmap.lookup_insert_of_ne _ hne, rfl⟩
  · have hne : pk ≠ pk' := fun heq => hpk (heq ▸ hpod)
    -- the pod that goes is in the tables only before
    have hfirst : pk ≠ first := by
      rintro rfl
      have hgone := hkept ((h.mem_iff pk).mpr List.mem_cons_self)
      rw [heq] at hgone
      have hgone := FinMap.mem_modify.mp hgone
      rcases Finmap.mem_insert.mp hgone with heq | hgone
      · exact hne heq
      · exact (Finmap.mem_erase.mp hgone).1 rfl
    rw [heq, lookup_metrics_add, if_neg hne, usd_add, if_neg hne]
    refine ⟨(Finmap.lookup_insert_of_ne _ hne).trans (Finmap.lookup_erase_ne hfirst), ?_⟩
    exact congrArg (fun usd => Option.getD usd 0) (Finmap.lookup_erase_ne hfirst)

/-- A pod in the table gets what its flow adds. -/
theorem lookup_of_podKey (hpk : f.podKey = some pk) {pm : PodMetrics}
    (hlookup : t.metrics.lookup pk = some pm) :
    (t.updateFlow f).metrics.lookup pk
        = some ⟨pm.txBytes + f.txBytes, pm.rxBytes + f.rxBytes⟩ ∧
      (t.updateFlow f).usd pk = f.addUSD (t.usd pk) := by
  have hmem : pk ∈ t.metrics := Finmap.mem_of_lookup_eq_some hlookup
  have heq : t.updateFlow f = t.add f pk := by
    rw [PodTables.updateFlow, hpk]
    dsimp only
    rw [track, if_pos hmem]
  rw [heq, lookup_metrics_add, if_pos rfl, hlookup, usd_add, if_pos rfl]
  exact ⟨rfl, rfl⟩

/-- The pod of a flow is in the table afterwards. -/
theorem Tracked.mem_updateFlow (h : t.Tracked pods) (hpk : f.podKey = some pk) :
    pk ∈ (t.updateFlow f).metrics := by
  have h' := h.updateFlow f
  rw [hpk, Option.elim_some] at h'
  rw [h'.mem_iff, arrive]
  split_ifs with hmem
  · exact hmem
  · exact List.mem_append_right _ (List.mem_singleton_self pk)
  · exact List.mem_append_right _ (List.mem_singleton_self pk)

/-- The one pod that a flow can remove. -/
theorem Tracked.removed_iff (h : t.Tracked pods) (f : ClassifiedFlow κ) (victim : PodKey) :
    (victim ∈ t.metrics ∧ victim ∉ (t.updateFlow f).metrics) ↔
      ∃ pk, f.podKey = some pk ∧ pk ∉ t.metrics ∧ maxPodMetrics ≤ FinMap.card t.metrics ∧
        victim = t.ring.oldest := by
  rw [h.mem_iff, (h.updateFlow f).mem_iff, h.card_eq]
  cases hpod : f.podKey with
  | none =>
    refine iff_of_false (fun hv => hv.2 hv.1) ?_
    rintro ⟨pk, hpk, -⟩
    exact absurd hpk nofun
  | some pk =>
    rw [Option.elim_some, arrive]
    by_cases hmem : pk ∈ pods
    · -- the pod is tracked, so none goes
      rw [if_pos hmem]
      refine iff_of_false (fun hv => hv.2 hv.1) ?_
      rintro ⟨pk', hpk', hnew, -⟩
      exact hnew ((h.mem_iff _).mpr (Option.some.inj hpk' ▸ hmem))
    rw [if_neg hmem]
    rcases h.length_le.eq_or_lt with hfull | hroom
    · rw [if_neg hfull.not_lt]
      cases pods with
      | nil => exact absurd hfull (by decide)
      | cons first rest =>
        -- the oldest slot is that of the pod that came first
        have hold := h.lists.oldest_of_full (hfull.trans h.size.symm)
        have hfirst : first ∉ rest := (List.nodup_cons.mp h.lists.nodup).1
        rw [List.tail_cons, hold]
        constructor
        · rintro ⟨hv, hgone⟩
          refine ⟨pk, rfl, mt (h.mem_iff pk).mp hmem, hfull.ge, ?_⟩
          refine (List.mem_cons.mp hv).resolve_right fun hrest => ?_
          exact hgone (List.mem_append_left _ hrest)
        · rintro ⟨pk', -, -, -, rfl⟩
          refine ⟨List.mem_cons_self, fun hstill => ?_⟩
          rcases List.mem_append.mp hstill with hrest | hpk
          · exact hfirst hrest
          · exact hmem (List.mem_singleton.mp hpk ▸ List.mem_cons_self)
    · rw [if_pos hroom]
      refine iff_of_false (fun hv => hv.2 (List.mem_append_left _ hv.1)) ?_
      rintro ⟨pk', -, -, hfull, -⟩
      omega

end PodTables

/-- The tables beside the pods of the flows so far, the latest first. -/
structure EvictionWatch where
  tables : PodTables Float64
  updates : List PodKey

namespace EvictionWatch

def new : EvictionWatch := ⟨.new, []⟩

/-- One flow. -/
def step (w : EvictionWatch) (f : ClassifiedFlow Float64) : EvictionWatch :=
  ⟨w.tables.updateFlow f, f.podKey.elim w.updates (· :: w.updates)⟩

/-- What a flow removes is a pod whose last update is oldest of those in the
table. -/
def EvictsLRU (w : EvictionWatch) (f : ClassifiedFlow Float64) : Prop :=
  ∀ victim ∈ w.tables.metrics, victim ∉ (w.tables.updateFlow f).metrics →
    Recency.Oldest w.updates w.tables.metrics.keys victim

/-- The tables after some flows. -/
def tablesAfter (flows : List (ClassifiedFlow Float64)) : PodTables Float64 :=
  flows.foldl PodTables.updateFlow .new

/-- Between two updates of a pod, with at most `maxPodMetrics` others updated meanwhile, its
counters stay as they are, and the second adds to them. -/
def NeverReset (flows : List (ClassifiedFlow Float64)) : Prop :=
  ∀ pre f mid g post pk, flows = pre ++ f :: (mid ++ g :: post) →
    f.podKey = some pk → g.podKey = some pk → (∀ h ∈ mid, h.podKey ≠ some pk) →
    (mid.filterMap ClassifiedFlow.podKey).toFinset.card ≤ maxPodMetrics →
    let start := (tablesAfter (pre ++ [f])).usd pk
    let next := (tablesAfter (pre ++ f :: (mid ++ [g]))).usd pk
    ∃ pm, (∀ part, part <+: mid →
        (tablesAfter (pre ++ f :: part)).metrics.lookup pk = some pm ∧
        (tablesAfter (pre ++ f :: part)).usd pk = start) ∧
      (tablesAfter (pre ++ f :: (mid ++ [g]))).metrics.lookup pk
        = some ⟨pm.txBytes + g.txBytes, pm.rxBytes + g.rxBytes⟩ ∧
      next = g.addUSD start ∧ ¬next < start

/-- The pods by their arrival, of a full table without the first. -/
def arrivals (updates : List PodKey) : List PodKey :=
  updates.foldr (fun pk pods => PodTables.arrive pods pk) []

/-- When a new pod finds a full table, the one that came first is the one that was not
updated since all the others were. -/
def FirstIsLast (w : EvictionWatch) (f : ClassifiedFlow Float64) : Prop :=
  ∀ pk first rest, f.podKey = some pk → arrivals w.updates = first :: rest →
    pk ∉ first :: rest → rest.length + 1 = maxPodMetrics →
    ∀ q ∈ rest, w.updates.idxOf q < w.updates.idxOf first

/-- A pod is not updated after exactly as many others as the table holds. -/
def NotAfterAll (w : EvictionWatch) (f : ClassifiedFlow Float64) : Prop :=
  ∀ pk since before, f.podKey = some pk → w.updates = since ++ pk :: before → pk ∉ since →
    since.toFinset.card ≠ maxPodMetrics

variable {w : EvictionWatch} {pods : List PodKey}

/-! ### One eviction -/

/-- The table has the pods that arrived. -/
def Watched (w : EvictionWatch) : Prop := w.tables.Tracked (arrivals w.updates)

theorem watched_new : new.Watched := PodTables.tracked_new

theorem Watched.step (h : w.Watched) (f : ClassifiedFlow Float64) : (w.step f).Watched := by
  have h' := h.updateFlow f
  rw [Watched, EvictionWatch.step]
  cases hpod : f.podKey with
  | none => rwa [hpod] at h'
  | some pk => rwa [hpod] at h'

theorem mem_of_mem_arrivals {updates : List PodKey} {q : PodKey} (hq : q ∈ arrivals updates) :
    q ∈ updates := by
  induction updates with
  | nil => exact hq
  | cons pk updates ih =>
    rw [arrivals, List.foldr_cons, PodTables.arrive] at hq
    split_ifs at hq with hmem hroom
    · exact List.mem_cons_of_mem pk (ih hq)
    · rcases List.mem_append.mp hq with hq | hq
      · exact List.mem_cons_of_mem pk (ih hq)
      · exact List.mem_cons.mpr (Or.inl (List.mem_singleton.mp hq))
    · rcases List.mem_append.mp hq with hq | hq
      · exact List.mem_cons_of_mem pk (ih (List.mem_of_mem_tail hq))
      · exact List.mem_cons.mpr (Or.inl (List.mem_singleton.mp hq))

/-- **One eviction** is of a least recently used pod exactly when the pod that came first
is one. -/
theorem evictsLRU_iff (h : w.Watched) (f : ClassifiedFlow Float64) :
    w.EvictsLRU f ↔ w.FirstIsLast f := by
  have hcard : FinMap.card w.tables.metrics = (arrivals w.updates).length := h.card_eq
  constructor
  · intro hlru pk first rest hpk harr hnew hfull q hq
    rw [Watched, harr] at h
    rw [harr, List.length_cons, hfull] at hcard
    have hold := h.lists.oldest_of_full (hfull.trans h.size.symm)
    obtain ⟨hmem, hgone⟩ := (h.removed_iff f first).mpr
      ⟨pk, hpk, mt (h.mem_iff pk).mp hnew, hcard.ge, hold.symm⟩
    have hqmem : q ∈ w.tables.metrics := (h.mem_iff q).mpr (List.mem_cons_of_mem first hq)
    have hle := hlru first hmem hgone q (Finmap.mem_keys.mpr hqmem)
    -- another pod was updated at another place
    have hused : q ∈ w.updates :=
      mem_of_mem_arrivals (harr ▸ List.mem_cons_of_mem first hq)
    refine lt_of_le_of_ne hle fun heq => ?_
    have hfirst : first ∉ rest := (List.nodup_cons.mp h.lists.nodup).1
    exact hfirst ((List.idxOf_inj hused).mp heq ▸ hq)
  · intro hfirst victim hmem hgone
    obtain ⟨pk, hpk, hnew, hfull, rfl⟩ := (h.removed_iff f victim).mp ⟨hmem, hgone⟩
    intro q hq
    have hq := (h.mem_iff q).mp (Finmap.mem_keys.mp hq)
    cases harr : arrivals w.updates with
    | nil =>
      rw [harr] at hq
      exact absurd hq List.not_mem_nil
    | cons first rest =>
      rw [Watched, harr] at h
      rw [harr] at hq hcard
      have hlength : rest.length + 1 = maxPodMetrics := le_antisymm h.length_le (hfull.trans_eq hcard)
      rw [h.lists.oldest_of_full (hlength.trans h.size.symm)]
      rcases List.mem_cons.mp hq with rfl | hrest
      · exact le_rfl
      · exact (hfirst pk first rest hpk harr (mt (h.mem_iff pk).mpr hnew) hlength q hrest).le

/-- Then the flow is a use of a least-recently-used table. -/
theorem leastRecent (h : w.tables.Tracked pods) {f : ClassifiedFlow Float64}
    (hlru : w.EvictsLRU f) {pk : PodKey} (hpk : f.podKey = some pk) :
    Recency.LeastRecent maxPodMetrics w.updates w.tables.metrics.keys pk
      (w.tables.updateFlow f).metrics.keys := by
  intro victim hmem hgone
  rw [Finmap.mem_keys] at hmem hgone ⊢
  obtain ⟨pk', hpk', hnew, hfull, -⟩ := (h.removed_iff f victim).mp ⟨hmem, hgone⟩
  obtain rfl := Option.some.inj (hpk.symm.trans hpk')
  exact ⟨hnew, hfull, hlru victim hmem hgone⟩

/-! ### The pods updated last -/

/-- The table has pods that were updated, and they were updated last. -/
structure HasLatest (w : EvictionWatch) : Prop where
  watched : w.Watched
  latest : Recency.Latest w.updates w.tables.metrics.keys

theorem keys_subset (h : w.Watched) : w.tables.metrics.keys ⊆ w.updates.toFinset := fun k hk =>
  List.mem_toFinset.mpr (mem_of_mem_arrivals ((h.mem_iff k).mp (Finmap.mem_keys.mp hk)))

theorem HasLatest.step (h : w.HasLatest) {f : ClassifiedFlow Float64} (hlru : w.EvictsLRU f) :
    (w.step f).HasLatest := by
  refine ⟨h.watched.step f, ?_⟩
  cases hpod : f.podKey with
  | none =>
    rw [EvictionWatch.step, PodTables.updateFlow, hpod]
    exact h.latest
  | some pk =>
    have huse := leastRecent h.watched hlru hpod
    have hmem : pk ∈ (w.tables.updateFlow f).metrics := h.watched.mem_updateFlow hpod
    have hnext := h.latest.use huse (keys_subset h.watched) (Finmap.mem_keys.mpr hmem) ?_
    · rw [EvictionWatch.step, hpod]
      exact hnext
    · intro k hk
      rw [Finset.mem_insert, Finmap.mem_keys]
      have hk := ((h.watched.updateFlow f).mem_iff k).mp (Finmap.mem_keys.mp hk)
      rw [hpod, Option.elim_some, PodTables.arrive] at hk
      have hold : ∀ {k}, k ∈ arrivals w.updates → k ∈ w.tables.metrics := fun hk =>
        (h.watched.mem_iff _).mpr hk
      split_ifs at hk with htracked hroom
      · exact Or.inr (hold hk)
      · exact (List.mem_append.mp hk).elim (fun hk => Or.inr (hold hk))
          fun hk => Or.inl (List.mem_singleton.mp hk)
      · exact (List.mem_append.mp hk).elim (fun hk => Or.inr (hold (List.mem_of_mem_tail hk)))
          fun hk => Or.inl (List.mem_singleton.mp hk)

/-- **While only least recently used pods go**, the table has the pods updated last. -/
theorem latest {flows : List (ClassifiedFlow Float64)}
    (hlru : History.Along step EvictsLRU new flows) : (flows.foldl step new).HasLatest :=
  hlru.foldl (fun _ _ h hone => h.step hone) ⟨watched_new, fun _ hq => absurd hq List.not_mem_nil⟩

theorem HasLatest.notMem (h : w.HasLatest) {since before : List PodKey} {pk : PodKey}
    (hupdates : w.updates = since ++ pk :: before) (hpk : pk ∉ since)
    (hmany : maxPodMetrics ≤ since.toFinset.card) : pk ∉ w.tables.metrics := by
  have hlatest := h.latest
  rw [hupdates] at hlatest
  have hcard : w.tables.metrics.keys.card ≤ since.toFinset.card :=
    (h.watched.card_eq.trans_le h.watched.length_le).trans hmany
  exact fun hmem => hlatest.notMem hpk hcard (Finmap.mem_keys.mpr hmem)

/-! ### A pod in use -/

theorem tables_foldl_step (w : EvictionWatch) (flows : List (ClassifiedFlow Float64)) :
    (flows.foldl step w).tables = flows.foldl PodTables.updateFlow w.tables :=
  (List.foldl_hom EvictionWatch.tables fun _ _ => rfl).symm

theorem updates_foldl_step (w : EvictionWatch) (flows : List (ClassifiedFlow Float64)) :
    (flows.foldl step w).updates
      = (flows.filterMap ClassifiedFlow.podKey).reverse ++ w.updates := by
  induction flows generalizing w with
  | nil => rfl
  | cons f flows ih =>
    rw [List.foldl_cons, ih, step]
    cases hpod : f.podKey with
    | none => rw [List.filterMap_cons_none hpod, Option.elim_none]
    | some pk =>
      rw [List.filterMap_cons_some hpod, List.reverse_cons, List.append_assoc, Option.elim_some,
        List.singleton_append]

/-- The pod was updated with these counters, and then `since` were. -/
structure InUse (w : EvictionWatch) (pk : PodKey) (since : List PodKey) (pm : PodMetrics)
    (usd : Float64) : Prop where
  updates : ∃ before, w.updates = since ++ pk :: before
  notMem : pk ∉ since
  lookup : w.tables.metrics.lookup pk = some pm
  usd : w.tables.usd pk = usd

variable {pk : PodKey} {since : List PodKey} {pm : PodMetrics} {usd : Float64}

/-- **A flow of another pod** leaves its counters as they are. -/
theorem InUse.step (hw : w.InUse pk since pm usd) (h : w.tables.Tracked pods)
    {f : ClassifiedFlow Float64} (hlru : w.EvictsLRU f) (hpk : f.podKey ≠ some pk)
    (hfew : (f.podKey.toList ++ pk :: since).toFinset.card ≤ maxPodMetrics) :
    (w.step f).InUse pk (f.podKey.toList ++ since) pm usd := by
  obtain ⟨before, hupdates⟩ := hw.updates
  have hmem : pk ∈ w.tables.metrics := Finmap.mem_of_lookup_eq_some hw.lookup
  -- a victim is the pod updated least recently, and too few were updated since this one
  have hkept : pk ∈ (w.tables.updateFlow f).metrics := by
    by_contra hgone
    obtain ⟨pk', hpk', -⟩ := (h.removed_iff f pk).mp ⟨hmem, hgone⟩
    have huse := leastRecent h hlru hpk'
    rw [hupdates] at huse
    rw [hpk', Option.toList_some, List.singleton_append, List.toFinset_cons] at hfew
    exact hgone (Finmap.mem_keys.mp
      (huse.keeps hw.notMem (Finmap.mem_keys.mpr hmem) hfew))
  obtain ⟨hlookup, husd⟩ := h.lookup_of_kept hpk fun _ => hkept
  refine ⟨⟨before, ?_⟩, fun hsince => ?_, hlookup.trans hw.lookup, husd.trans hw.usd⟩
  · show f.podKey.elim w.updates (· :: w.updates) = _
    rw [hupdates]
    cases f.podKey <;> rfl
  · rcases List.mem_append.mp hsince with hpod | hsince
    · exact hpk (Option.mem_toList.mp hpod)
    · exact hw.notMem hsince

/-- **Flows of other pods**, few enough, leave its counters as they are. -/
theorem InUse.foldl (hw : w.InUse pk since pm usd) (h : w.tables.Tracked pods)
    {mid : List (ClassifiedFlow Float64)}
    (hlru : History.Along EvictionWatch.step EvictsLRU w mid)
    (hpk : ∀ f ∈ mid, f.podKey ≠ some pk)
    (hfew : (mid.filterMap ClassifiedFlow.podKey ++ pk :: since).toFinset.card
      ≤ maxPodMetrics) :
    ∃ since', (mid.foldl EvictionWatch.step w).InUse pk since' pm usd := by
  induction mid generalizing w pods since with
  | nil => exact ⟨since, hw⟩
  | cons f mid ih =>
    have hnext := hw.step h hlru.1 (hpk f List.mem_cons_self) ?_
    · -- the pod of this flow moves from those to come to those since
      refine ih hnext (h.updateFlow f) hlru.2 (fun g hg => hpk g (List.mem_cons_of_mem f hg)) ?_
      refine le_trans (Finset.card_le_card fun k hk => ?_) hfew
      simp only [List.mem_toFinset, List.mem_append, List.mem_cons, List.mem_filterMap,
        Option.mem_toList] at hk ⊢
      rcases hk with ⟨g, hg, hk⟩ | hk | hk | hk
      · exact Or.inl ⟨g, Or.inr hg, hk⟩
      · exact Or.inr (Or.inl hk)
      · exact Or.inl ⟨f, Or.inl rfl, hk⟩
      · exact Or.inr (Or.inr hk)
    · refine le_trans (Finset.card_le_card fun k hk => ?_) hfew
      simp only [List.mem_toFinset, List.mem_append, List.mem_cons, List.mem_filterMap,
        Option.mem_toList] at hk ⊢
      rcases hk with hk | hk
      · exact Or.inl ⟨f, Or.inl rfl, hk⟩
      · exact Or.inr hk

theorem tables_new_foldl (flows : List (ClassifiedFlow Float64)) :
    (flows.foldl step new).tables = tablesAfter flows :=
  tables_foldl_step new flows

theorem tablesAfter_append_cons (pre : List (ClassifiedFlow Float64)) (f : ClassifiedFlow Float64)
    (part : List (ClassifiedFlow Float64)) :
    tablesAfter (pre ++ f :: part) = (part.foldl step ((pre.foldl step new).step f)).tables := by
  rw [← tables_new_foldl, List.foldl_append, List.foldl_cons]

theorem updates_step (w : EvictionWatch) {f : ClassifiedFlow Float64} (hpk : f.podKey = some pk) :
    (w.step f).updates = pk :: w.updates := by
  rw [step, hpk, Option.elim_some]

/-- Dollars that a flow is added to are no less for it. -/
theorem not_addUSD_lt (f : ClassifiedFlow Float64) (usd : Float64) : ¬f.addUSD usd < usd := by
  rw [ClassifiedFlow.addUSD]
  split_ifs with hcost
  · exact Float64.not_add_lt hcost
  · exact Float64.not_lt_self usd

theorem watched_foldl (flows : List (ClassifiedFlow Float64)) :
    (flows.foldl step new).Watched :=
  List.foldlRecOn flows step watched_new fun _ h f _ => h.step f

/-- **A pod in use** keeps its counters while only least recently used pods go and none waits
for as many others as the table holds. -/
theorem neverReset {flows : List (ClassifiedFlow Float64)}
    (hlru : History.Along step EvictsLRU new flows)
    (hwaits : History.Along step NotAfterAll new flows) : NeverReset flows := by
  rintro pre f mid g post pk rfl hf hg hmid hcard start next
  obtain ⟨-, hrest⟩ := History.along_append.mp hlru
  obtain ⟨-, hrest⟩ := hrest
  have h := watched_foldl pre
  set w := (pre.foldl step new).step f with hw
  have hafter : ∀ part, tablesAfter (pre ++ f :: part) = (part.foldl step w).tables :=
    tablesAfter_append_cons pre f
  have hstart : tablesAfter (pre ++ [f]) = w.tables := hafter []
  have hnotMem : pk ∉ mid.filterMap ClassifiedFlow.podKey := fun hmem => by
    obtain ⟨k, hk, hpod⟩ := List.mem_filterMap.mp hmem
    exact hmid k hk hpod
  -- with the pod itself no more were updated than the table holds
  have hfew : (pk :: mid.filterMap ClassifiedFlow.podKey).toFinset.card ≤ maxPodMetrics := by
    have hone := History.along_iff_split.mp hwaits (pre ++ f :: mid) g post (by simp) pk
      (mid.filterMap ClassifiedFlow.podKey).reverse (pre.foldl step new).updates hg
      (by
        rw [List.foldl_append, List.foldl_cons, updates_foldl_step, updates_step _ hf])
      (mt List.mem_reverse.mp hnotMem)
    rw [List.toFinset_reverse] at hone
    rw [List.toFinset_cons,
      Finset.card_insert_of_notMem (mt List.mem_toFinset.mp hnotMem)]
    omega
  -- the first update
  obtain ⟨pm, hpm⟩ := Option.isSome_iff_exists.mp (Finmap.lookup_isSome.mpr (h.mem_updateFlow hf))
  have huse : w.InUse pk [] pm (w.tables.usd pk) :=
    ⟨⟨_, updates_step _ hf⟩, List.not_mem_nil, hpm, rfl⟩
  have hpart : ∀ part, part <+: mid → ∃ since, (part.foldl step w).InUse pk since pm
      (w.tables.usd pk) := by
    rintro part ⟨rest, rfl⟩
    rw [List.append_assoc] at hrest
    refine huse.foldl (h.updateFlow f) (History.along_append.mp hrest).1
      (fun k hk => hmid k (List.mem_append_left _ hk)) ?_
    refine le_trans (Finset.card_le_card fun k hk => ?_) hfew
    simp only [List.mem_toFinset, List.mem_append, List.mem_cons, List.filterMap_append,
      List.not_mem_nil, or_false] at hk ⊢
    exact hk.elim (fun hk => Or.inr (Or.inl hk)) Or.inl
  -- the second update
  have hnext : (tablesAfter (pre ++ f :: (mid ++ [g]))).metrics.lookup pk
      = some ⟨pm.txBytes + g.txBytes, pm.rxBytes + g.rxBytes⟩ ∧ next = g.addUSD start := by
    obtain ⟨since, hin⟩ := hpart mid (List.prefix_refl mid)
    obtain ⟨hlookup, husd⟩ := PodTables.lookup_of_podKey hg hin.lookup
    have hlast : tablesAfter (pre ++ f :: (mid ++ [g]))
        = (mid.foldl step w).tables.updateFlow g := by
      rw [hafter, List.foldl_append]
      rfl
    refine ⟨hlast ▸ hlookup, ?_⟩
    show (tablesAfter _).usd pk = g.addUSD ((tablesAfter _).usd pk)
    rw [hlast, hstart, husd, hin.usd]
  refine ⟨pm, fun part hbegins => ?_, hnext.1, hnext.2, ?_⟩
  · obtain ⟨since, hin⟩ := hpart part hbegins
    refine ⟨?_, ?_⟩
    · rw [hafter]
      exact hin.lookup
    · show (tablesAfter _).usd pk = (tablesAfter _).usd pk
      rw [hafter, hstart]
      exact hin.usd
  · rw [hnext.2]
    exact not_addUSD_lt g start

/-- A pod that waited for as many others as the table holds has been reset. -/
theorem notAfterAll {flows : List (ClassifiedFlow Float64)}
    (hlru : History.Along step EvictsLRU new flows) (hreset : NeverReset flows) :
    History.Along step NotAfterAll new flows := by
  refine History.along_iff_split.mpr ?_
  rintro pre g post rfl pk since before hg hupdates hpk hcard
  -- the last update of the pod
  have hpods : pre.filterMap ClassifiedFlow.podKey = before.reverse ++ pk :: since.reverse := by
    rw [updates_foldl_step, show new.updates = [] from rfl, List.append_nil] at hupdates
    have hreverse := congrArg List.reverse hupdates
    rwa [List.reverse_reverse, List.reverse_append, List.reverse_cons, List.append_assoc,
      List.singleton_append] at hreverse
  obtain ⟨early, late, rfl, -, hlate⟩ := List.filterMap_eq_append_iff.mp hpods
  obtain ⟨none, f, mid, rfl, -, hf, hmid⟩ := List.filterMap_eq_cons_iff.mp hlate
  have hnotMem : ∀ h ∈ mid, h.podKey ≠ some pk := fun h hh hpod => by
    have hmem : pk ∈ mid.filterMap ClassifiedFlow.podKey := List.mem_filterMap.mpr ⟨h, hh, hpod⟩
    rw [hmid] at hmem
    exact hpk (List.mem_reverse.mp hmem)
  have hmany : (mid.filterMap ClassifiedFlow.podKey).toFinset.card = maxPodMetrics := by
    rw [hmid, List.toFinset_reverse, hcard]
  obtain ⟨pm, hkept, -⟩ := hreset (early ++ none) f mid g post pk (by simp) hf hg hnotMem hmany.le
  have hlookup := (hkept mid (List.prefix_refl mid)).1
  -- it is not in the table any more
  have hlatest := latest (History.along_append.mp hlru).1
  refine hlatest.notMem hupdates hpk hcard.ge ?_
  rw [tables_new_foldl, ← List.append_assoc]
  exact Finmap.mem_of_lookup_eq_some hlookup

/-- **Eviction over polls.**  Every evicted pod is a least recently used one, and no pod
loses its counters between two updates with at most `maxPodMetrics` others meanwhile, exactly
when a new pod that finds a full table finds the pod that came first to be the one updated
last before the others, and no pod waits for as many others as the table holds. -/
theorem lru_iff (polls : List (List (ClassifiedFlow Float64))) :
    (polls.foldl MetricsState.updateFromPoll .new).pods = tablesAfter polls.flatten ∧
      ((History.Along step EvictsLRU new polls.flatten ∧ NeverReset polls.flatten) ↔
        History.Along step (fun w f => w.FirstIsLast f ∧ w.NotAfterAll f) new polls.flatten) := by
  refine ⟨MetricsState.pods_foldl_updateFromPoll _ polls, ?_⟩
  have hiff : History.Along step EvictsLRU new polls.flatten ↔
      History.Along step FirstIsLast new polls.flatten :=
    @History.along_iff _ _ step Watched _ _ (fun _ f h _ => h.step f)
      (fun _ f h => evictsLRU_iff h f) _ watched_new polls.flatten
  constructor
  · rintro ⟨hlru, hreset⟩
    exact History.along_and (hiff.mp hlru) (notAfterAll hlru hreset)
  · intro hboth
    have hlru := hiff.mpr (hboth.imp fun _ _ h => h.1)
    exact ⟨hlru, neverReset hlru (hboth.imp fun _ _ h => h.2)⟩

/-! ### A pod that was updated just before -/

open PodTables (crowdFlow crowdPod podKey_crowdFlow crowdPod_injective crowdPod_notMem)

/-- In a table that the pods of a crowd have filled, the first is the one to go, even
after another update. -/
theorem removes_first {n : ℕ} (hn : n + 1 = maxPodMetrics) :
    let w := (((List.range (n + 1)).map crowdFlow).foldl step new).step (crowdFlow 0)
    (∀ i < n + 1, crowdPod i ∈ w.tables.metrics) ∧
      crowdPod 0 ∉ (w.tables.updateFlow (crowdFlow (n + 1))).metrics := by
  intro w
  have hcons : (List.range (n + 1)).map crowdPod
      = crowdPod 0 :: (List.range n).map (crowdPod ∘ Nat.succ) := by
    rw [List.range_succ_eq_map, List.map_cons, List.map_map]
  have h : w.tables.Tracked ((List.range (n + 1)).map crowdPod) := by
    have hfull : (tablesAfter ((List.range (n + 1)).map crowdFlow)).Tracked
        ((List.range (n + 1)).map crowdPod) := PodTables.tracked_crowd hn.le
    rw [← tables_new_foldl] at hfull
    have h := hfull.updateFlow (crowdFlow 0)
    rwa [podKey_crowdFlow, Option.elim_some, PodTables.arrive, hcons, if_pos List.mem_cons_self,
      ← hcons] at h
  have hlen : ((List.range (n + 1)).map crowdPod).length = maxPodMetrics := by
    rw [List.length_map, List.length_range, hn]
  have hold : w.tables.ring.oldest = crowdPod 0 := by
    have hlists := h.lists
    rw [hcons] at hlists hlen
    exact hlists.oldest_of_full (hlen.trans h.size.symm)
  have hmem : ∀ i < n + 1, crowdPod i ∈ w.tables.metrics := fun i hi =>
    (h.mem_iff _).mpr (List.mem_map.mpr ⟨i, List.mem_range.mpr hi, rfl⟩)
  refine ⟨hmem, ((h.removed_iff _ _).mpr ⟨_, podKey_crowdFlow _, ?_, ?_, hold.symm⟩).2⟩
  · exact mt (h.mem_iff _).mp (crowdPod_notMem _)
  · rw [h.card_eq, hlen]

/-- A full table, then its first pod again, another pod, and the first once more. -/
def crowd (n : ℕ) : List (ClassifiedFlow Float64) :=
  (List.range n).map crowdFlow ++ crowdFlow 0 :: ([crowdFlow n] ++ [crowdFlow 0])

theorem crowd_evicts {n : ℕ} (hn : n + 2 = maxPodMetrics) :
    ¬ History.Along step EvictsLRU new (crowd (n + 2)) ∧ ¬ NeverReset (crowd (n + 2)) := by
  obtain ⟨hmem, hgone⟩ := removes_first hn
  have hdist : ∀ i, crowdPod 0 ≠ crowdPod (i + 1) := fun i heq =>
    absurd (crowdPod_injective heq) (Nat.succ_ne_zero i).symm
  constructor
  · intro hlru
    obtain ⟨-, -, hstep, -⟩ := History.along_append.mp hlru
    have hone := hstep _ (hmem 0 (Nat.succ_pos _)) hgone (crowdPod 1)
      (Finmap.mem_keys.mpr (hmem 1 (by omega)))
    rw [updates_step _ (podKey_crowdFlow 0), List.idxOf_cons_self,
      List.idxOf_cons_ne _ (hdist 0)] at hone
    omega
  · intro hreset
    obtain ⟨pm, hpart, -⟩ := hreset _ (crowdFlow 0) [crowdFlow (n + 2)] (crowdFlow 0) []
      (crowdPod 0) rfl (podKey_crowdFlow 0) (podKey_crowdFlow 0)
      (fun f hf => by
        rw [List.mem_singleton.mp hf, podKey_crowdFlow]
        exact fun heq => hdist _ (Option.some.inj heq).symm)
      (by
        rw [List.filterMap_cons_some (podKey_crowdFlow _), List.filterMap_nil]
        exact (List.toFinset_card_le _).trans (hn ▸ Nat.le_add_left 1 (n + 1)))
    obtain ⟨hlookup, -⟩ := hpart _ (List.prefix_refl _)
    rw [tablesAfter_append_cons] at hlookup
    exact hgone (Finmap.mem_of_lookup_eq_some hlookup)

/-- The new pod takes the place of the pod that was updated just before, and its
counters with it. -/
theorem evicts_updated_pod :
    ¬ History.Along step EvictsLRU new (crowd maxPodMetrics) ∧
      ¬ NeverReset (crowd maxPodMetrics) :=
  crowd_evicts (n := 998) rfl

end EvictionWatch
