/-
What the DNS cache retains (`pkg/dns/tracker.go`).

An insert should be found directly after it, and only the address that was
inserted longest ago should have to go for it.  The ring has a slot for every
insert, refreshes included, so an address refreshed before the ring wraps has
two, and the older one may go first.

* `DNSTracker.Window` — the ring has the addresses of the last inserts;
* `DNSTracker.retains_iff` — in every reachable state, the slots for which an
  insert retains what it should;
* `DNSTracker.refresh_not_retained` — a run in which it does not.
-/
import Mathlib.Tactic.Linarith
import Tollwing.DNSCacheBound
import Tollwing.Recency

namespace DNSTracker

/-- The addresses inserted, the last one first. -/
def inserted (inserts : List DNSInsert) : List Addr :=
  ((inserts.filter DNSInsert.isValid).map DNSInsert.addr).reverse

/-- The insert is found, and it removes another address only from a cache at
capacity, and only the one that was inserted longest ago. -/
structure Retains (t : DNSTracker) (used : List Addr) (x : DNSInsert) : Prop where
  found : ((t.cacheInsert x).lookup x.now x.addr).domain = x.domain
  evicts : ∀ a ∈ t.cache, a ≠ x.addr → a ∉ (t.cacheInsert x).cache →
    t.ring.size ≤ FinMap.card t.cache ∧ Recency.Oldest used (t.cache.keys.erase x.addr) a

/-- With the address there are more entries than slots. -/
def Overfull (t : DNSTracker) (a : Addr) : Prop :=
  t.ring.size < (insert a t.cache.keys).card

/-- The oldest slot may be evicted for the address: it is of another, and if that
one is cached, all other addresses have a younger slot. -/
def EvictsOldest (t : DNSTracker) (a : Addr) : Prop :=
  t.ring.oldest ≠ a ∧
    (t.ring.oldest ∈ t.cache → ∀ b ∈ t.cache, b ≠ t.ring.oldest → b ≠ a → b ∈ t.ring.aged.tail)

instance (t : DNSTracker) (a : Addr) : Decidable (t.Overfull a) :=
  inferInstanceAs (Decidable (_ < _))

instance (t : DNSTracker) (a : Addr) : Decidable (t.EvictsOldest a) :=
  decidable_of_iff (t.ring.oldest ≠ a ∧ (t.ring.oldest ∈ t.cache →
    ∀ b ∈ t.cache.keys, b ≠ t.ring.oldest → b ≠ a → b ∈ t.ring.aged.tail))
    (by simp only [EvictsOldest, Finmap.mem_keys])

/-! ### The window -/

/-- The slots are those of the last inserts, and what is cached was inserted. -/
structure Window (t : DNSTracker) (used : List Addr) : Prop where
  noZero : .zero ∉ t.cache
  slots : t.ring.aged.reverse <+: used ++ List.replicate t.ring.size .zero

theorem inserted_concat (inserts : List DNSInsert) (x : DNSInsert) :
    inserted (inserts ++ [x])
      = if x.isValid then x.addr :: inserted inserts else inserted inserts := by
  rw [inserted, List.filter_append]
  by_cases hx : x.isValid
  · simp [hx, inserted]
  · simp [hx, inserted]

variable {t : DNSTracker} {used : List Addr} {x : DNSInsert}

theorem window_new (cfg : DNSConfig) (mapper : ServiceMapper) {n : ℕ} (hn : 0 < n) :
    (new cfg mapper n hn).Window [] where
  noZero := Finmap.notMem_empty
  slots := by
    show (SlotRing.new Addr.zero n hn).aged.reverse
      <+: [] ++ List.replicate (SlotRing.new Addr.zero n hn).size Addr.zero
    rw [SlotRing.aged_new, SlotRing.size_new, List.reverse_replicate, List.nil_append]

/-- An insert takes the oldest slot, and is the last one. -/
theorem Window.cacheInsert (h : t.Window used) (hx : x.isValid = true) :
    (t.cacheInsert x).Window (x.addr :: used) where
  noZero := notMem_cacheInsert h.noZero x
  slots := by
    rw [size_cacheInsert, cacheInsert_ring hx, SlotRing.aged_push, List.reverse_append,
      List.cons_append]
    refine List.cons_prefix_cons.mpr ⟨rfl, List.IsPrefix.trans ?_ h.slots⟩
    rw [t.ring.aged_eq_cons, List.tail_cons, List.reverse_cons]
    exact List.prefix_append _ _

theorem window_run (cfg : DNSConfig) (mapper : ServiceMapper) {n : ℕ} (hn : 0 < n)
    (inserts : List DNSInsert) :
    (inserts.foldl cacheInsert (new cfg mapper n hn)).Window (inserted inserts) := by
  induction inserts using List.reverseRecOn with
  | nil => exact window_new cfg mapper hn
  | append_singleton inserts x ih =>
    rw [List.foldl_append, List.foldl_cons, List.foldl_nil, inserted_concat]
    by_cases hx : x.isValid = true
    · rw [if_pos hx]
      exact ih.cacheInsert hx
    · rw [if_neg hx, cacheInsert_of_not_isValid hx]
      exact ih

/-- An address in the oldest slot was inserted before those of the other slots. -/
theorem Window.used_eq (h : t.Window used) (hold : t.ring.oldest ≠ .zero) :
    ∃ before, used = t.ring.aged.tail.reverse ++ t.ring.oldest :: before := by
  obtain ⟨rest, hrest⟩ := h.slots
  rw [t.ring.aged_eq_cons, List.reverse_cons] at hrest
  rcases List.append_eq_append_iff.mp hrest with ⟨c, hused, -⟩ | ⟨c, hslots, hzero⟩
  · refine ⟨c, ?_⟩
    rw [hused, List.append_assoc, List.singleton_append]
  · rcases List.eq_nil_or_concat c with rfl | ⟨c, z, rfl⟩
    · refine ⟨[], ?_⟩
      rw [List.append_nil] at hslots
      exact hslots.symm
    · -- the oldest slot would be an empty one
      rw [List.concat_eq_append, ← List.append_assoc] at hslots
      have hlast := (List.append_inj' hslots rfl).2
      have hmem : z ∈ List.replicate t.ring.size Addr.zero := by
        rw [hzero]
        simp
      rw [List.singleton_inj.mp hlast] at hold
      exact absurd (List.eq_of_mem_replicate hmem) hold

/-! ### One insert -/

/-- What the cache has with the entry written and nothing evicted. -/
theorem card_insert (t : DNSTracker) (a : Addr) (entry : DNSEntry) :
    FinMap.card (t.cache.insert a entry) = (insert a t.cache.keys).card := by
  rw [FinMap.card, FinMap.keys_insert]

/-- An entry that is in the cache directly after it was written is found. -/
theorem found_iff (hx : x.isValid = true) {entry : DNSEntry}
    (hcache : (t.cacheInsert x).cache.lookup x.addr = some entry)
    (hentry : entry.domain = x.domain ∧ entry.expiresAt = x.now + t.clampTTL x.ttl) :
    ((t.cacheInsert x).lookup x.now x.addr).domain = x.domain ↔ 0 ≤ t.clampTTL x.ttl := by
  have hdomain : x.domain ≠ "" := by
    rw [DNSInsert.isValid, Bool.and_eq_true, bne_iff_ne] at hx
    exact hx.2
  rw [lookup, hcache]
  dsimp only
  by_cases hexpired : entry.expiresAt < x.now
  · rw [if_pos hexpired]
    refine iff_of_false (Ne.symm hdomain) ?_
    omega
  · rw [if_neg hexpired]
    refine iff_of_true hentry.1 ?_
    omega

/-- With room for the address nothing is evicted. -/
theorem retains_of_room (hx : x.isValid = true) (hroom : ¬t.Overfull x.addr) :
    t.Retains used x ↔ 0 ≤ t.clampTTL x.ttl := by
  have hcache : (t.cacheInsert x).cache
      = t.cache.insert x.addr
          ⟨x.domain, t.serviceMapper.lookup x.domain, x.now + t.clampTTL x.ttl⟩ := by
    rw [cacheInsert, if_neg (by simp [hx])]
    refine cacheWith_of_le ?_
    rw [card_insert]
    exact not_lt.mp hroom
  have hfound := found_iff hx (hcache ▸ Finmap.lookup_insert _) ⟨rfl, rfl⟩
  constructor
  · intro h
    exact hfound.mp h.found
  · intro h
    refine ⟨hfound.mpr h, ?_⟩
    intro a ha _ hgone
    rw [hcache] at hgone
    exact absurd (Finmap.mem_insert.mpr (Or.inr ha)) hgone

/-- What is evicted is oldest if all others have a younger slot. -/
theorem Window.oldest_iff (h : t.Window used) {a : Addr} (hfull : t.Overfull a)
    (hcached : t.ring.oldest ∈ t.cache) (hne : t.ring.oldest ≠ a) :
    Recency.Oldest used (t.cache.keys.erase a) t.ring.oldest ↔
      ∀ b ∈ t.cache, b ≠ t.ring.oldest → b ≠ a → b ∈ t.ring.aged.tail := by
  obtain ⟨before, hused⟩ := h.used_eq (fun heq => h.noZero (heq ▸ hcached))
  constructor
  · intro hold b hb hbold hba
    rw [hused] at hold
    exact List.mem_reverse.mp
      (hold.mem_since (Finset.mem_erase.mpr ⟨hba, Finmap.mem_keys.mpr hb⟩) hbold)
  · intro hslots
    rw [hused]
    refine Recency.oldest_of_mem_since ?_ ?_
    · -- the other slots are all taken by other addresses
      rw [List.mem_reverse]
      intro htwice
      have hsub : (t.cache.keys.erase a).erase t.ring.oldest
          ⊆ t.ring.aged.tail.toFinset.erase t.ring.oldest := by
        intro b hb
        obtain ⟨hbold, hb⟩ := Finset.mem_erase.mp hb
        obtain ⟨hba, hb⟩ := Finset.mem_erase.mp hb
        exact Finset.mem_erase.mpr
          ⟨hbold, List.mem_toFinset.mpr (hslots b (Finmap.mem_keys.mp hb) hbold hba)⟩
      have hcard := Finset.card_le_card hsub
      rw [Finset.card_erase_of_mem (List.mem_toFinset.mpr htwice),
        Finset.card_erase_of_mem (Finset.mem_erase.mpr ⟨hne, Finmap.mem_keys.mpr hcached⟩)] at hcard
      have htail := List.toFinset_card_le t.ring.aged.tail
      have hlen : t.ring.aged.tail.length + 1 = t.ring.size := by
        rw [← t.ring.length_aged, t.ring.aged_eq_cons, List.tail_cons, List.length_cons]
      have hpos : 0 < t.ring.aged.tail.length := List.length_pos_of_mem htwice
      have hothers := Finset.pred_card_le_card_erase (s := insert a t.cache.keys) (a := a)
      rw [Finset.erase_insert_eq_erase] at hothers
      rw [Overfull] at hfull
      omega
    · intro b hb hbold
      obtain ⟨hba, hb⟩ := Finset.mem_erase.mp hb
      exact List.mem_reverse.mpr (hslots b (Finmap.mem_keys.mp hb) hbold hba)

/-- Without room the oldest slot decides. -/
theorem Window.retains_of_overfull (h : t.Window used) (hx : x.isValid = true)
    (hfull : t.Overfull x.addr) :
    t.Retains used x ↔ 0 ≤ t.clampTTL x.ttl ∧ t.EvictsOldest x.addr := by
  have haddr := isValid_addr hx
  have hcache : (t.cacheInsert x).cache
      = (t.cache.insert x.addr
          ⟨x.domain, t.serviceMapper.lookup x.domain, x.now + t.clampTTL x.ttl⟩).erase
            t.ring.oldest := by
    rw [DNSTracker.cacheInsert, if_neg (by simp [hx])]
    refine cacheWith_of_lt h.noZero haddr ?_
    rw [card_insert]
    exact hfull
  by_cases hself : t.ring.oldest = x.addr
  · -- the insert evicts itself
    refine iff_of_false ?_ fun hevicts => hevicts.2.1 hself
    intro hretains
    have hfound : "" = x.domain := by
      rw [← hretains.found, lookup, hcache, hself, Finmap.lookup_erase]
    rw [DNSInsert.isValid, ← hfound] at hx
    exact absurd hx (by simp)
  have hlookup : (t.cacheInsert x).cache.lookup x.addr
      = some ⟨x.domain, t.serviceMapper.lookup x.domain, x.now + t.clampTTL x.ttl⟩ := by
    rw [hcache, Finmap.lookup_erase_ne (Ne.symm hself), Finmap.lookup_insert]
  have hfound := found_iff hx hlookup ⟨rfl, rfl⟩
  constructor
  · intro hretains
    refine ⟨hfound.mp hretains.found, hself, ?_⟩
    intro hcached
    have hgone : t.ring.oldest ∉ (t.cacheInsert x).cache := by
      rw [hcache]
      exact Finmap.notMem_erase_self
    exact (h.oldest_iff hfull hcached hself).mp (hretains.evicts _ hcached hself hgone).2
  · rintro ⟨httl, -, hslots⟩
    refine ⟨hfound.mpr httl, ?_⟩
    intro a ha hne hgone
    -- only the address of the oldest slot has gone
    have hold : a = t.ring.oldest := by
      by_contra hother
      rw [hcache] at hgone
      exact hgone (Finmap.mem_erase.mpr ⟨hother, Finmap.mem_insert.mpr (Or.inr ha)⟩)
    subst hold
    refine ⟨?_, (h.oldest_iff hfull ha hself).mpr (hslots ha)⟩
    have hcard := Finset.card_insert_le x.addr t.cache.keys
    rw [Overfull] at hfull
    rw [FinMap.card]
    omega

/-- **What an insert retains**, in every reachable state: itself and all but the
address inserted longest ago, exactly if it is cached for a time that is not
negative and, where an entry has to go, the oldest slot is that of another
address and all cached addresses but these two have a younger slot. -/
theorem retains_iff (cfg : DNSConfig) (mapper : ServiceMapper) {n : ℕ} (hn : 0 < n)
    (inserts : List DNSInsert) {x : DNSInsert} (hx : x.isValid = true) :
    let t := inserts.foldl cacheInsert (new cfg mapper n hn)
    t.Retains (inserted inserts) x ↔
      0 ≤ t.clampTTL x.ttl ∧ (t.Overfull x.addr → t.EvictsOldest x.addr) := by
  intro t
  by_cases hfull : t.Overfull x.addr
  · rw [(window_run cfg mapper hn inserts).retains_of_overfull hx hfull]
    exact and_congr_right' ⟨fun h _ => h, fun h => h hfull⟩
  · rw [retains_of_room hx hfull]
    exact ⟨fun h => ⟨h, fun hover => absurd hover hfull⟩, fun h => h.1⟩

theorem retains_after_refresh :
    ((List.foldl cacheInsert (new ⟨0, 0⟩ ⟨[]⟩ 2 Nat.two_pos)
      [answerFor 1, answerFor 2, answerFor 1]).Retains
        (inserted [answerFor 1, answerFor 2, answerFor 1]) (answerFor 3)) :=
  (retains_iff ⟨0, 0⟩ ⟨[]⟩ Nat.two_pos _ (by decide)).mpr (by decide +kernel)

/-- The second address was refreshed and has both slots.  The next insert evicts
it rather than the first one, and by its younger slot it evicts itself the moment
it is inserted again. -/
theorem refresh_not_retained :
    let t := List.foldl cacheInsert (new ⟨0, 0⟩ ⟨[]⟩ 2 Nat.two_pos)
      [answerFor 1, answerFor 2, answerFor 2]
    ¬t.Retains (inserted [answerFor 1, answerFor 2, answerFor 2]) (answerFor 3) ∧
      ¬(t.cacheInsert (answerFor 3)).Retains
        (inserted [answerFor 1, answerFor 2, answerFor 2, answerFor 3]) (answerFor 2) := by
  refine ⟨?_, ?_⟩
  · intro h
    have hevicted := h.evicts (.v4 2) (by decide +kernel) (by decide) (by decide +kernel)
    exact absurd hevicted.2 (by decide +kernel)
  · intro h
    exact absurd h.found (by decide +kernel)

end DNSTracker
