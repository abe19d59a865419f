/-
The query counters of the DNS tracker (`pkg/dns/tracker.go`).

A domain is counted with every insert of one of its addresses.  When there are more
domains than the limit, the one with the lowest count goes; the empty name stands for
"no victim" in that search.

* `DNSTracker.cacheInsert_counters` — one insert;
* `DNSTracker.counters_keep_heavy` — inserts and resets in any order.
-/
import Tollwing.DNSCacheBound

/-- The least value along a list, with the key it was found at. -/
theorem foldl_least {κ : Type*} (f : κ → UInt64) (keys : List κ) (key : κ) (v : UInt64)
    {least : κ × UInt64}
    (h : keys.foldl (fun least k => if f k < least.2 then (k, f k) else least) (key, v) = least) :
    (least = (key, v) ∨ least.1 ∈ keys ∧ least.2 = f least.1) ∧ least.2 ≤ v ∧
      ∀ k ∈ keys, least.2 ≤ f k := by
  induction keys generalizing key v with
  | nil =>
    obtain rfl := h
    exact ⟨Or.inl rfl, UInt64.le_refl _, fun k hk => absurd hk List.not_mem_nil⟩
  | cons k keys ih =>
    rw [List.foldl_cons] at h
    by_cases hk : f k < v
    · rw [if_pos hk] at h
      obtain ⟨hfound, hle, hleast⟩ := ih k (f k) h
      refine ⟨Or.inr ?_, UInt64.le_trans hle (UInt64.le_of_lt hk), ?_⟩
      · rcases hfound with rfl | ⟨hmem, hval⟩
        · exact ⟨List.mem_cons_self, rfl⟩
        · exact ⟨List.mem_cons_of_mem _ hmem, hval⟩
      · exact List.forall_mem_cons.mpr ⟨hle, hleast⟩
    · rw [if_neg hk] at h
      obtain ⟨hfound, hle, hleast⟩ := ih key v h
      refine ⟨hfound.imp_right fun ⟨hmem, hval⟩ => ⟨List.mem_cons_of_mem _ hmem, hval⟩, hle, ?_⟩
      exact List.forall_mem_cons.mpr ⟨UInt64.le_trans hle (UInt64.not_lt.mp hk), hleast⟩

namespace DNSTracker

/-- One domain has gone, and no domain that stays is counted less. -/
def Evicted (counts counts' : FinMap String UInt64) : Prop :=
  ∃ victim least, counts.lookup victim = some least ∧ counts' = counts.erase victim ∧
    ∀ d n, counts'.lookup d = some n → least ≤ n

/-- **`evictLowestCountLocked`** finds a victim if a domain is counted less than the
largest word, none of them nameless. -/
theorem evictLowestCount_spec {counts : FinMap String UInt64} (order : RangeOrder String)
    (hempty : "" ∉ counts) {d : String} {n : UInt64} (hd : counts.lookup d = some n)
    (hn : n < ~~~0) : Evicted counts (evictLowestCount counts order) := by
  generalize hleast : (order.keys counts.keys).foldl
    (fun (victim : String × UInt64) k =>
      let v := (counts.lookup k).getD 0
      if v < victim.2 then (k, v) else victim) ("", ~~~0) = least
  obtain ⟨hfound, -, hle⟩ := foldl_least (fun k => (counts.lookup k).getD 0) _ _ _ hleast
  have hall : ∀ k v, counts.lookup k = some v → least.2 ≤ v := by
    intro k v hk
    have hkeys : k ∈ order.keys counts.keys :=
      (order.mem_keys _ _).mpr (Finmap.mem_keys.mpr (Finmap.mem_of_lookup_eq_some hk))
    have hkle := hle k hkeys
    rwa [hk] at hkle
  rcases hfound with rfl | ⟨hmem, hval⟩
  · -- the search does not end where it starts
    exact absurd hn (UInt64.not_lt.mpr (hall d n hd))
  have hcounted : least.1 ∈ counts := Finmap.mem_keys.mp ((order.mem_keys _ _).mp hmem)
  obtain ⟨v, hv⟩ := Finmap.mem_iff.mp hcounted
  rw [hv, Option.getD_some] at hval
  have hne : least.1 ≠ "" := fun heq => hempty (heq ▸ hcounted)
  refine ⟨least.1, v, hv, ?_, fun k w hk => ?_⟩
  · rw [evictLowestCount, hleast]
    exact if_pos hne
  · rw [evictLowestCount, hleast, if_pos hne] at hk
    exact hval ▸ hall k w (FinMap.lookup_erase_eq_some.mp hk).2

/-- The counters with an insert, before one goes. -/
def counted (t : DNSTracker) (x : DNSInsert) : FinMap String UInt64 :=
  if x.isValid then
    t.queryCounts.insert x.domain ((t.queryCounts.lookup x.domain).getD 0 + 1)
  else t.queryCounts

/-- What an insert does to the counters. -/
structure Counters (t : DNSTracker) (x : DNSInsert) : Prop where
  bounded : FinMap.card (t.cacheInsert x).queryCounts ≤ maxQueryCounters
  kept : FinMap.card (t.counted x) ≤ maxQueryCounters →
    (t.cacheInsert x).queryCounts = t.counted x
  evicts : maxQueryCounters < FinMap.card (t.counted x) →
    Evicted (t.counted x) (t.cacheInsert x).queryCounts
  /-- A domain that is counted more often than some other stays. -/
  heavy : ∀ d e n m, (t.counted x).lookup d = some n → (t.counted x).lookup e = some m → m < n →
    (t.cacheInsert x).queryCounts.lookup d = some n

/-- No more counters than the limit, and none without a name. -/
structure CountersInv (t : DNSTracker) : Prop where
  card_le : FinMap.card t.queryCounts ≤ maxQueryCounters
  noEmpty : "" ∉ t.queryCounts

theorem cacheInsert_queryCounts (t : DNSTracker) {x : DNSInsert} (hx : x.isValid = true) :
    (t.cacheInsert x).queryCounts =
      if maxQueryCounters < FinMap.card (t.counted x) then
        evictLowestCount (t.counted x) x.order
      else t.counted x := by
  rw [cacheInsert, if_neg (by simp [hx]), counted, if_pos hx]
  rfl

/-- Within the limit nothing goes. -/
theorem cacheInsert_kept {t : DNSTracker} {x : DNSInsert}
    (h : FinMap.card (t.counted x) ≤ maxQueryCounters) :
    (t.cacheInsert x).queryCounts = t.counted x := by
  by_cases hx : x.isValid = true
  · rw [cacheInsert_queryCounts t hx, if_neg (not_lt.mpr h)]
  · rw [cacheInsert_of_not_isValid hx, counted, if_neg hx]

theorem isValid_domain {x : DNSInsert} (hx : x.isValid = true) : x.domain ≠ "" := by
  rw [DNSInsert.isValid, Bool.and_eq_true, bne_iff_ne] at hx
  exact hx.2

theorem CountersInv.counted_noEmpty {t : DNSTracker} (h : t.CountersInv) (x : DNSInsert) :
    "" ∉ t.counted x := by
  rw [counted]
  by_cases hx : x.isValid = true
  · rw [if_pos hx, Finmap.mem_insert]
    exact not_or.mpr ⟨Ne.symm (isValid_domain hx), h.noEmpty⟩
  · rw [if_neg hx]
    exact h.noEmpty

/-- Above the limit there is one domain too many, the one inserted, which is counted
once. -/
theorem CountersInv.counted_over {t : DNSTracker} (h : t.CountersInv) {x : DNSInsert}
    (hover : maxQueryCounters < FinMap.card (t.counted x)) :
    x.isValid = true ∧ (t.counted x).lookup x.domain = some 1 ∧
      FinMap.card (t.counted x) = maxQueryCounters + 1 := by
  have hle := h.card_le
  have hcounted := hover
  rw [counted] at hcounted
  by_cases hx : x.isValid = true
  swap
  · rw [if_neg hx] at hcounted
    omega
  rw [if_pos hx] at hcounted
  by_cases hmem : x.domain ∈ t.queryCounts
  · rw [FinMap.card_insert_of_mem hmem] at hcounted
    omega
  · rw [FinMap.card_insert_of_notMem hmem] at hcounted
    rw [counted, if_pos hx, Finmap.lookup_insert, Finmap.lookup_eq_none.mpr hmem,
      FinMap.card_insert_of_notMem hmem]
    exact ⟨hx, rfl, by omega⟩

/-- **One insert** keeps the counters within the limit, and drops the domain counted least
if it has to drop one. -/
theorem CountersInv.cacheInsert_counters {t : DNSTracker} (h : t.CountersInv) (x : DNSInsert) :
    t.Counters x := by
  have hkept := cacheInsert_kept (t := t) (x := x)
  have hevicts : maxQueryCounters < FinMap.card (t.counted x) →
      Evicted (t.counted x) (t.cacheInsert x).queryCounts := by
    intro hover
    obtain ⟨hx, hone, -⟩ := h.counted_over hover
    rw [cacheInsert_queryCounts t hx, if_pos hover]
    exact evictLowestCount_spec x.order (h.counted_noEmpty x) hone (by decide)
  refine ⟨?_, hkept, hevicts, fun d e n m hd he hlt => ?_⟩
  · by_cases hover : maxQueryCounters < FinMap.card (t.counted x)
    · obtain ⟨victim, least, hvictim, heq, -⟩ := hevicts hover
      obtain ⟨-, -, hcard⟩ := h.counted_over hover
      have herase := FinMap.card_erase_of_mem (Finmap.mem_of_lookup_eq_some hvictim)
      rw [heq]
      omega
    · rw [hkept (not_lt.mp hover)]
      exact not_lt.mp hover
  · by_cases hover : maxQueryCounters < FinMap.card (t.counted x)
    · obtain ⟨victim, least, hvictim, heq, hleast⟩ := hevicts hover
      rw [heq]
      refine FinMap.lookup_erase_eq_some.mpr ⟨?_, hd⟩
      -- were it the victim, the other domain would have stayed with a lower count
      rintro rfl
      have hne : e ≠ d := by
        rintro rfl
        rw [hd] at he
        exact absurd hlt (Option.some_inj.mp he ▸ UInt64.lt_irrefl _)
      have hle := hleast e m (heq ▸ FinMap.lookup_erase_eq_some.mpr ⟨hne, he⟩)
      rw [hd] at hvictim
      exact absurd hlt (UInt64.not_lt.mpr (Option.some_inj.mp hvictim ▸ hle))
    · rw [hkept (not_lt.mp hover)]
      exact hd

/-! ### Runs -/

/-- What is done to a tracker: an address is inserted, or the counters are reset. -/
inductive CounterOp
  | insert (x : DNSInsert)
  | reset

/-- One operation. -/
def perform (t : DNSTracker) : CounterOp → DNSTracker
  | .insert x => t.cacheInsert x
  | .reset => t.resetQueryCounts

/-- A run. -/
def run (t : DNSTracker) (ops : List CounterOp) : DNSTracker := ops.foldl perform t

/-- Whether an operation counts a domain. -/
def CounterOp.asks (d : String) : CounterOp → Bool
  | .insert x => x.isValid && x.domain == d
  | .reset => false

/-- One operation, beside how often each domain was counted since it was last without a
counter. -/
def observe (s : DNSTracker × (String → ℕ)) (op : CounterOp) : DNSTracker × (String → ℕ) :=
  let t := s.1.perform op
  (t, fun d => if d ∈ t.queryCounts then s.2 d + (op.asks d).toNat else 0)

theorem observe_snd (t : DNSTracker) (q : String → ℕ) (op : CounterOp) (d : String) :
    (observe (t, q) op).2 d =
      if d ∈ (t.perform op).queryCounts then q d + (op.asks d).toNat else 0 := rfl

/-- How often each domain was counted in a run. -/
def observed (t : DNSTracker) (ops : List CounterOp) : String → ℕ :=
  (ops.foldl observe (t, fun _ => 0)).2

/-- The counters are the numbers counted, as words. -/
def CountersAre (t : DNSTracker) (q : String → ℕ) : Prop :=
  ∀ d, (d ∉ t.queryCounts → q d = 0) ∧
    ∀ n, t.queryCounts.lookup d = some n → n = UInt64.ofNat (q d)

theorem lookup_counted (t : DNSTracker) (x : DNSInsert) (d : String) :
    (t.counted x).lookup d =
      if CounterOp.asks d (.insert x) = true then some ((t.queryCounts.lookup d).getD 0 + 1)
      else t.queryCounts.lookup d := by
  rw [counted, CounterOp.asks]
  by_cases hx : x.isValid = true
  · rw [if_pos hx, hx, Bool.true_and, FinMap.lookup_insert_ite]
    by_cases hd : d = x.domain
    · rw [if_pos hd, if_pos (by rw [hd, beq_self_eq_true]), hd]
    · rw [if_neg hd, if_neg (by rw [beq_iff_eq]; exact Ne.symm hd)]
  · rw [if_neg hx, Bool.eq_false_of_not_eq_true hx, Bool.false_and, if_neg Bool.false_ne_true]

/-- What stays has the counter it had with the insert. -/
theorem Counters.lookup {t : DNSTracker} {x : DNSInsert} (h : t.Counters x) {d : String}
    {n : UInt64} (hd : (t.cacheInsert x).queryCounts.lookup d = some n) :
    (t.counted x).lookup d = some n := by
  by_cases hover : maxQueryCounters < FinMap.card (t.counted x)
  · obtain ⟨victim, least, -, heq, -⟩ := h.evicts hover
    rw [heq] at hd
    exact (FinMap.lookup_erase_eq_some.mp hd).2
  · rwa [h.kept (not_lt.mp hover)] at hd

theorem CountersInv.perform {t : DNSTracker} (h : t.CountersInv) (op : CounterOp) :
    (t.perform op).CountersInv := by
  cases op with
  | insert x =>
    have hstep := h.cacheInsert_counters x
    refine ⟨hstep.bounded, fun hmem => h.counted_noEmpty x ?_⟩
    obtain ⟨n, hn⟩ := Finmap.mem_iff.mp hmem
    exact Finmap.mem_of_lookup_eq_some (hstep.lookup hn)
  | reset => exact ⟨Nat.zero_le _, Finmap.notMem_empty⟩

theorem CountersAre.perform {t : DNSTracker} {q : String → ℕ} (h : t.CountersInv)
    (hq : t.CountersAre q) (op : CounterOp) :
    (t.perform op).CountersAre (observe (t, q) op).2 := by
  intro d
  refine ⟨fun hd => if_neg hd, fun n hn => ?_⟩
  rw [observe_snd, if_pos (Finmap.mem_of_lookup_eq_some hn)]
  cases op with
  | reset => exact absurd (Finmap.mem_of_lookup_eq_some hn) Finmap.notMem_empty
  | insert x =>
    have hcounted := (h.cacheInsert_counters x).lookup hn
    rw [lookup_counted] at hcounted
    by_cases hasks : CounterOp.asks d (.insert x) = true
    · rw [if_pos hasks] at hcounted
      rw [hasks, Bool.toNat_true, UInt64.ofNat_add, ← Option.some_inj.mp hcounted]
      cases hold : t.queryCounts.lookup d with
      | none => rw [(hq d).1 (Finmap.lookup_eq_none.mp hold)]; rfl
      | some m => rw [← (hq d).2 m hold]; rfl
    · rw [if_neg hasks] at hcounted
      rw [Bool.eq_false_of_not_eq_true hasks]
      exact (hq d).2 n hcounted

/-- What every run keeps. -/
theorem run_counters {t : DNSTracker} {q : String → ℕ} (h : t.CountersInv) (hq : t.CountersAre q)
    (ops : List CounterOp) :
    (t.run ops).CountersInv ∧ (t.run ops).CountersAre (ops.foldl observe (t, q)).2 := by
  induction ops generalizing t q with
  | nil => exact ⟨h, hq⟩
  | cons op ops ih => exact ih (h.perform op) (hq.perform h op)

/-- **The counters keep heavy hitters**: after any inserts and resets there are no more
than the limit, each is the number of times its domain was counted since it was last
without one, and the next insert drops a domain counted least, or none. -/
theorem counters_keep_heavy (cfg : DNSConfig) (mapper : ServiceMapper) {n : ℕ} (hn : 0 < n)
    (ops : List CounterOp) :
    FinMap.card ((new cfg mapper n hn).run ops).queryCounts ≤ maxQueryCounters ∧
      ((new cfg mapper n hn).run ops).CountersAre ((new cfg mapper n hn).observed ops) ∧
      ∀ x, ((new cfg mapper n hn).run ops).Counters x := by
  have hinv : (new cfg mapper n hn).CountersInv := ⟨Nat.zero_le _, Finmap.notMem_empty⟩
  have hzero : (new cfg mapper n hn).CountersAre fun _ => 0 :=
    fun d => ⟨fun _ => rfl, fun v hv =>
      absurd (Finmap.mem_of_lookup_eq_some hv) Finmap.notMem_empty⟩
  obtain ⟨hrun, hare⟩ := run_counters hinv hzero ops
  exact ⟨hrun.card_le, hare, fun x => hrun.cacheInsert_counters x⟩

/-- Three answers around a reset. -/
theorem counters_keep_heavy_reset :
    FinMap.card ((new ⟨0, 0⟩ ⟨[]⟩ 1 Nat.one_pos).run
      [.insert (answerFor 1), .reset, .insert (answerFor 1), .insert (answerFor 2)]).queryCounts
        ≤ maxQueryCounters :=
  (counters_keep_heavy ⟨0, 0⟩ ⟨[]⟩ Nat.one_pos _).1

end DNSTracker
