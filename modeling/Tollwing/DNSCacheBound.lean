/-
How far the DNS cache is bounded.

The ring has the addresses of the last inserts, a slot each, and a refresh takes
a slot as well: the cached address whose slot it overwrites keeps its entry, and
the address refreshed has two slots, the second of which evicts nothing.

* `DNSTracker.cacheWith_card_le_iff` — one insert;
* `DNSTracker.cache_bounded_iff` — a run keeps the cache within the ring exactly
  when a new address at a full cache always finds a cached one in the oldest slot;
* `DNSTracker.bounded_of_fresh` — which it does in runs without a refresh;
* `DNSTracker.card_lt_two_mul` — every run keeps it under twice the ring;
* `DNSTracker.refresh_exceeds` — a run that leaves it over the ring.
-/
import Mathlib.Data.String.Basic
import Tollwing.DNSTracker
import Tollwing.History
import Tollwing.KeyedFold

namespace DNSTracker

/-- After the insert there are no more addresses cached than the ring has
slots. -/
def Bounded (t : DNSTracker) (x : DNSInsert) : Prop :=
  FinMap.card (t.cacheInsert x).cache ≤ (t.cacheInsert x).ring.size

/-- An address that is not cached yet finds room, or an address in the oldest slot
that is cached or is itself. -/
def OldestCached (t : DNSTracker) (x : DNSInsert) : Prop :=
  x.isValid = true → x.addr ∉ t.cache → FinMap.card t.cache = t.ring.size →
    t.ring.oldest ∈ t.cache ∨ t.ring.oldest = x.addr

instance (t : DNSTracker) (x : DNSInsert) : Decidable (t.OldestCached x) :=
  inferInstanceAs (Decidable (x.isValid = true → x.addr ∉ t.cache →
    FinMap.card t.cache = t.ring.size → t.ring.oldest ∈ t.cache ∨ t.ring.oldest = x.addr))

instance (t : DNSTracker) (x : DNSInsert) : Decidable (t.Bounded x) :=
  inferInstanceAs (Decidable (_ ≤ _))

/-! ### One insert -/

variable {t : DNSTracker} {x : DNSInsert}

theorem isValid_addr (hx : x.isValid = true) : x.addr ≠ .zero := by
  rintro h
  rw [DNSInsert.isValid, h] at hx
  exact absurd hx (by simp [Addr.isValid])

theorem cacheInsert_of_not_isValid (hx : ¬x.isValid = true) : t.cacheInsert x = t := by
  rw [cacheInsert, if_pos (by simpa using hx)]

theorem cacheInsert_cache (hx : x.isValid = true) :
    ∃ entry, (t.cacheInsert x).cache = t.cacheWith x.addr entry := by
  rw [cacheInsert, if_neg (by simp [hx])]
  exact ⟨_, rfl⟩

theorem cacheInsert_ring (hx : x.isValid = true) :
    (t.cacheInsert x).ring = t.ring.push x.addr := by
  rw [cacheInsert, if_neg (by simp [hx])]

theorem size_cacheInsert (t : DNSTracker) (x : DNSInsert) :
    (t.cacheInsert x).ring.size = t.ring.size := by
  by_cases hx : x.isValid = true
  · rw [cacheInsert_ring hx, SlotRing.size_push]
  · rw [cacheInsert_of_not_isValid hx]

theorem cacheWith_of_le {addr : Addr} {entry : DNSEntry}
    (h : FinMap.card (t.cache.insert addr entry) ≤ t.ring.size) :
    t.cacheWith addr entry = t.cache.insert addr entry := by
  rw [cacheWith]
  exact if_neg (not_lt.mpr h)

/-- With more entries than slots, the address in the oldest slot goes, if it is
there. -/
theorem cacheWith_of_lt (hzero : .zero ∉ t.cache) {addr : Addr} (haddr : addr ≠ .zero)
    {entry : DNSEntry} (h : t.ring.size < FinMap.card (t.cache.insert addr entry)) :
    t.cacheWith addr entry = (t.cache.insert addr entry).erase t.ring.oldest := by
  rw [cacheWith]
  refine (if_pos h).trans ?_
  by_cases hold : t.ring.oldest = .zero
  · -- an empty slot evicts nothing
    have hnot : .zero ∉ t.cache.insert addr entry := fun hmem =>
      (Finmap.mem_insert.mp hmem).elim (fun heq => haddr heq.symm) hzero
    rw [if_neg (by simp [hold, Addr.isValid]), hold,
      FinMap.erase_of_lookup_none (Finmap.lookup_eq_none.mpr hnot)]
  · refine if_pos ?_
    cases h : t.ring.oldest with
    | zero => exact absurd h hold
    | v4 bits => rfl
    | v6 bits zone => rfl

theorem mem_cacheWith (hzero : .zero ∉ t.cache) {addr : Addr} (haddr : addr ≠ .zero)
    {entry : DNSEntry} {a : Addr} (ha : a ∈ t.cacheWith addr entry) : a = addr ∨ a ∈ t.cache := by
  have hmem : a ∈ t.cache.insert addr entry := by
    by_cases h : FinMap.card (t.cache.insert addr entry) ≤ t.ring.size
    · rwa [cacheWith_of_le h] at ha
    · rw [cacheWith_of_lt hzero haddr (not_le.mp h)] at ha
      exact (Finmap.mem_erase.mp ha).2
  exact Finmap.mem_insert.mp hmem

/-- **One insert** keeps the bound unless a new address at a full cache finds an
address in the oldest slot that has no entry. -/
theorem cacheWith_card_le_iff (hzero : .zero ∉ t.cache) (hle : FinMap.card t.cache ≤ t.ring.size)
    {addr : Addr} (haddr : addr ≠ .zero) (entry : DNSEntry) :
    FinMap.card (t.cacheWith addr entry) ≤ t.ring.size ↔
      (addr ∉ t.cache → FinMap.card t.cache = t.ring.size →
        t.ring.oldest ∈ t.cache ∨ t.ring.oldest = addr) := by
  by_cases hmem : addr ∈ t.cache
  · -- a refresh leaves the number of addresses
    have hcard := FinMap.card_insert_of_mem hmem entry
    rw [cacheWith_of_le (hcard.trans_le hle), hcard]
    exact ⟨fun _ hnot => absurd hmem hnot, fun _ => hle⟩
  have hcard := FinMap.card_insert_of_notMem hmem entry
  by_cases hfull : FinMap.card t.cache = t.ring.size
  · rw [cacheWith_of_lt hzero haddr (by omega)]
    by_cases hold : t.ring.oldest ∈ t.cache.insert addr entry
    · have herase := FinMap.card_erase_of_mem hold
      have hor := (Finmap.mem_insert.mp hold).symm
      exact ⟨fun _ _ _ => hor, fun _ => by omega⟩
    · -- a slot that is empty or stale
      rw [FinMap.erase_of_lookup_none (Finmap.lookup_eq_none.mpr hold)]
      constructor
      · intro h
        omega
      · intro h
        exact absurd (Finmap.mem_insert.mpr (h hmem hfull).symm) hold
  · rw [cacheWith_of_le (by omega)]
    exact ⟨fun _ _ h => absurd h hfull, fun _ => by omega⟩

/-! ### Every run -/

/-- What the argument keeps: no cached address is the zero value, and the cache is
within the ring. -/
structure Inv (t : DNSTracker) : Prop where
  noZero : .zero ∉ t.cache
  card_le : FinMap.card t.cache ≤ t.ring.size

theorem notMem_cacheInsert (h : .zero ∉ t.cache) (x : DNSInsert) :
    .zero ∉ (t.cacheInsert x).cache := by
  by_cases hx : x.isValid = true
  · obtain ⟨entry, hcache⟩ := cacheInsert_cache (t := t) hx
    rw [hcache]
    intro hmem
    exact (mem_cacheWith h (isValid_addr hx) hmem).elim (fun heq => isValid_addr hx heq.symm) h
  · rwa [cacheInsert_of_not_isValid hx]

theorem inv_new (cfg : DNSConfig) (mapper : ServiceMapper) {n : ℕ} (hn : 0 < n) :
    (new cfg mapper n hn).Inv where
  noZero := Finmap.notMem_empty
  card_le := Nat.zero_le _

theorem Inv.bounded_iff (h : t.Inv) (x : DNSInsert) : t.Bounded x ↔ t.OldestCached x := by
  rw [Bounded, OldestCached, size_cacheInsert]
  by_cases hx : x.isValid = true
  · obtain ⟨entry, hcache⟩ := cacheInsert_cache (t := t) hx
    rw [hcache, cacheWith_card_le_iff h.noZero h.card_le (isValid_addr hx)]
    exact ⟨fun h _ => h, fun h => h hx⟩
  · rw [cacheInsert_of_not_isValid hx]
    exact ⟨fun _ hvalid => absurd hvalid hx, fun _ => h.card_le⟩

/-- **The cache is bounded by the ring in exactly these runs**: whenever an address
that is not cached is inserted with as many addresses cached as there are slots,
the oldest slot has a cached address, or the one inserted. -/
theorem cache_bounded_iff (cfg : DNSConfig) (mapper : ServiceMapper) {n : ℕ} (hn : 0 < n)
    (inserts : List DNSInsert) :
    History.Along cacheInsert Bounded (new cfg mapper n hn) inserts ↔
      History.Along cacheInsert OldestCached (new cfg mapper n hn) inserts :=
  History.along_iff (fun _ x h hx => ⟨notMem_cacheInsert h.noZero x, hx⟩)
    (fun _ x h => h.bounded_iff x) (inv_new cfg mapper hn) inserts

/-- An answer for an IPv4 address. -/
def answerFor (ip : BitVec 32) : DNSInsert :=
  ⟨.v4 ip, "cdn.example.com", 60 * 10 ^ 9, 0, .ascending⟩

/-- A run with a refresh that the ring does bound. -/
theorem cache_bounded_refreshed :
    History.Along cacheInsert Bounded (new ⟨0, 0⟩ ⟨[]⟩ 2 Nat.two_pos)
      [answerFor 1, answerFor 2, answerFor 1, answerFor 3, answerFor 4] :=
  (cache_bounded_iff ⟨0, 0⟩ ⟨[]⟩ Nat.two_pos _).mpr (by decide +kernel)

/-- The second address is refreshed: the first one loses its slot and keeps its
entry, and the slot that was taken twice evicts only once. -/
theorem refresh_exceeds :
    ¬History.Along cacheInsert Bounded (new ⟨0, 0⟩ ⟨[]⟩ 2 Nat.two_pos)
      [answerFor 1, answerFor 2, answerFor 2, answerFor 3, answerFor 4] := by
  decide +kernel

/-! ### Runs without a refresh -/

/-- The address is not cached. -/
def Fresh (t : DNSTracker) (x : DNSInsert) : Prop := x.isValid = true → x.addr ∉ t.cache

/-- The ring lists the cached addresses, each once. -/
structure Listed (t : DNSTracker) (addrs : List Addr) : Prop where
  lists : t.ring.Lists .zero addrs
  mem_iff : ∀ a, a ∈ t.cache ↔ a ∈ addrs
  noZero : .zero ∉ addrs

theorem Listed.card_eq {addrs : List Addr} (h : t.Listed addrs) :
    FinMap.card t.cache = addrs.length := by
  rw [FinMap.card, ← List.toFinset_card_of_nodup h.lists.nodup]
  refine congrArg Finset.card (Finset.ext fun a => ?_)
  rw [Finmap.mem_keys, List.mem_toFinset, h.mem_iff]

/-- A new address takes an empty slot, or the slot of the address inserted first,
which goes. -/
theorem Listed.cacheInsert {addrs : List Addr} (h : t.Listed addrs) (hfresh : t.Fresh x) :
    ∃ addrs', (t.cacheInsert x).Listed addrs' := by
  by_cases hx : x.isValid = true
  swap
  · exact ⟨addrs, by rwa [cacheInsert_of_not_isValid hx]⟩
  obtain ⟨entry, hcache⟩ := cacheInsert_cache (t := t) hx
  have haddr := isValid_addr hx
  have hzero : .zero ∉ t.cache := mt (h.mem_iff _).mp h.noZero
  have hnew : x.addr ∉ addrs := mt (h.mem_iff _).mpr (hfresh hx)
  have hcard := FinMap.card_insert_of_notMem (hfresh hx) entry
  rw [h.card_eq] at hcard
  rcases h.lists.length_le.eq_or_lt with hfull | hroom
  · cases addrs with
    | nil => exact absurd t.ring.size_pos (by rw [← hfull]; exact Nat.lt_irrefl 0)
    | cons first addrs =>
      -- the slot written is that of the first address, and its entry goes
      have hold := h.lists.oldest_of_full hfull
      obtain ⟨hfirst, -⟩ := List.nodup_cons.mp h.lists.nodup
      refine ⟨addrs ++ [x.addr], ?_, fun a => ?_, ?_⟩
      · rw [cacheInsert_ring hx]
        exact h.lists.push_of_full hfull fun hmem => hnew (List.mem_cons_of_mem _ hmem)
      · rw [hcache, cacheWith_of_lt hzero haddr (by omega), hold, Finmap.mem_erase,
          Finmap.mem_insert, h.mem_iff, List.mem_cons, List.mem_append, List.mem_singleton]
        constructor
        · rintro ⟨hne, rfl | rfl | ha⟩
          · exact Or.inr rfl
          · exact absurd rfl hne
          · exact Or.inl ha
        · rintro (ha | rfl)
          · exact ⟨fun heq => hfirst (heq ▸ ha), Or.inr (Or.inr ha)⟩
          · exact ⟨fun heq => hnew (heq ▸ List.mem_cons_self), Or.inl rfl⟩
      · rw [List.mem_append, List.mem_singleton]
        rintro (hmem | heq)
        · exact h.noZero (List.mem_cons_of_mem _ hmem)
        · exact haddr heq.symm
  · -- an empty slot is written, and no entry goes
    refine ⟨addrs ++ [x.addr], ?_, fun a => ?_, ?_⟩
    · rw [cacheInsert_ring hx]
      exact h.lists.push_of_room hroom hnew
    · rw [hcache, cacheWith_of_le (by omega), Finmap.mem_insert, h.mem_iff, List.mem_append,
        List.mem_singleton]
      exact Or.comm
    · rw [List.mem_append, List.mem_singleton]
      rintro (hmem | heq)
      · exact h.noZero hmem
      · exact haddr heq.symm

/-- At a full cache the oldest slot has a cached address. -/
theorem Listed.oldestCached {addrs : List Addr} (h : t.Listed addrs) (x : DNSInsert) :
    t.OldestCached x := by
  intro _ _ hfull
  rw [h.card_eq] at hfull
  cases addrs with
  | nil => exact absurd t.ring.size_pos (by rw [← hfull]; exact Nat.lt_irrefl 0)
  | cons first addrs =>
    rw [h.lists.oldest_of_full hfull, h.mem_iff]
    exact Or.inl List.mem_cons_self

/-- **Without a refresh the ring bounds the cache.** -/
theorem bounded_of_fresh (cfg : DNSConfig) (mapper : ServiceMapper) {n : ℕ} (hn : 0 < n)
    {inserts : List DNSInsert}
    (hfresh : History.Along cacheInsert Fresh (new cfg mapper n hn) inserts) :
    History.Along cacheInsert Bounded (new cfg mapper n hn) inserts := by
  rw [cache_bounded_iff]
  have hlisted : (new cfg mapper n hn).Listed [] :=
    ⟨SlotRing.lists_new Addr.zero n hn, fun a => iff_of_false Finmap.notMem_empty List.not_mem_nil,
      List.not_mem_nil⟩
  revert hfresh
  generalize new cfg mapper n hn = t at hlisted
  generalize ([] : List Addr) = addrs at hlisted
  induction inserts generalizing t addrs with
  | nil => exact fun _ => trivial
  | cons x inserts ih =>
    rintro ⟨hx, hrest⟩
    obtain ⟨addrs', hnext⟩ := hlisted.cacheInsert hx
    exact ⟨hlisted.oldestCached x, ih _ _ hnext hrest⟩

/-! ### What every run keeps -/

/-- The cached addresses without a slot. -/
def orphans (t : DNSTracker) : Finset Addr := t.cache.keys \ t.ring.slots.toFinset

/-- There are fewer of them than slots. -/
structure FewOrphans (t : DNSTracker) : Prop where
  noZero : .zero ∉ t.cache
  card_lt : t.orphans.card < t.ring.size

/-- An insert over the bound makes no orphan, and one within it leaves no more
than the other entries. -/
theorem FewOrphans.cacheInsert (h : t.FewOrphans) (x : DNSInsert) :
    (t.cacheInsert x).FewOrphans := by
  refine ⟨notMem_cacheInsert h.noZero x, ?_⟩
  by_cases hx : x.isValid = true
  swap
  · rw [cacheInsert_of_not_isValid hx]
    exact h.card_lt
  obtain ⟨entry, hcache⟩ := cacheInsert_cache (t := t) hx
  have haddr := isValid_addr hx
  rw [size_cacheInsert, orphans, hcache, cacheInsert_ring hx]
  by_cases hle : FinMap.card (t.cache.insert x.addr entry) ≤ t.ring.size
  · -- the address inserted has a slot
    have hself : x.addr ∈ (t.cache.insert x.addr entry).keys :=
      Finmap.mem_keys.mpr (Finmap.mem_insert.mpr (Or.inl rfl))
    have hsub : (t.cache.insert x.addr entry).keys \ (t.ring.push x.addr).slots.toFinset
        ⊆ (t.cache.insert x.addr entry).keys.erase x.addr := by
      intro a ha
      obtain ⟨hmem, hslot⟩ := Finset.mem_sdiff.mp ha
      refine Finset.mem_erase.mpr ⟨fun heq => hslot ?_, hmem⟩
      rw [List.mem_toFinset, SlotRing.mem_slots_push]
      exact Or.inr heq
    have hcard := Finset.card_le_card hsub
    rw [Finset.card_erase_of_mem hself] at hcard
    rw [cacheWith_of_le hle]
    rw [FinMap.card] at hle
    have := t.ring.size_pos
    omega
  · -- the slot that is lost is the oldest, whose entry goes
    refine lt_of_le_of_lt (Finset.card_le_card fun a ha => ?_) h.card_lt
    rw [cacheWith_of_lt h.noZero haddr (not_le.mp hle)] at ha
    obtain ⟨hmem, hslot⟩ := Finset.mem_sdiff.mp ha
    rw [List.mem_toFinset, SlotRing.mem_slots_push, not_or] at hslot
    obtain ⟨hold, hmem⟩ := Finmap.mem_erase.mp (Finmap.mem_keys.mp hmem)
    refine Finset.mem_sdiff.mpr ⟨Finmap.mem_keys.mpr ?_, ?_⟩
    · exact (Finmap.mem_insert.mp hmem).resolve_left hslot.2
    · rw [List.mem_toFinset, SlotRing.mem_slots_iff_oldest, not_or]
      exact ⟨hold, hslot.1⟩

/-- **The cache stays under twice the ring.** -/
theorem card_lt_two_mul (cfg : DNSConfig) (mapper : ServiceMapper) {n : ℕ} (hn : 0 < n)
    (inserts : List DNSInsert) :
    FinMap.card (inserts.foldl cacheInsert (new cfg mapper n hn)).cache < 2 * n := by
  have hnew : (new cfg mapper n hn).FewOrphans := by
    refine ⟨Finmap.notMem_empty, ?_⟩
    rw [orphans, show (new cfg mapper n hn).cache.keys = ∅ from rfl, Finset.empty_sdiff]
    exact (new cfg mapper n hn).ring.size_pos
  have hend : (inserts.foldl cacheInsert (new cfg mapper n hn)).FewOrphans :=
    List.foldlRecOn inserts _ hnew fun _ h x _ => h.cacheInsert x
  have hsize : (inserts.foldl cacheInsert (new cfg mapper n hn)).ring.size = n :=
    (KeyedFold.const_foldl (π := fun t : DNSTracker => t.ring.size) size_cacheInsert _
      inserts).trans (SlotRing.size_new Addr.zero n hn)
  set t := inserts.foldl cacheInsert (new cfg mapper n hn)
  have hslots : t.ring.slots.toFinset.card ≤ t.ring.size := List.toFinset_card_le _
  have hcard : FinMap.card t.cache ≤ t.orphans.card + t.ring.slots.toFinset.card := by
    rw [FinMap.card, orphans]
    exact Finset.card_le_card_sdiff_add_card
  have := hend.card_lt
  omega

end DNSTracker
