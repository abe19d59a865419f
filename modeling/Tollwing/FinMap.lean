/-
Finite maps.

Hash maps whose iteration order is not observable, as Mathlib's `Finmap` with a
constant value type.  Added here: the keys of an insertion and sums over the
entries (`FinMap.sum`), with the two rules that carry every accounting argument
over a map:

* `FinMap.sum_insert` — writing a key replaces its summand;
* `FinMap.sum_eq_add_erase` — a present key contributes one summand.

A `RangeOrder` is an order in which a map may be ranged over.
-/
import Mathlib.Data.Finmap
import Mathlib.Data.Finset.Sort
import Mathlib.Algebra.BigOperators.Group.Finset.Basic
import Mathlib.Algebra.Order.BigOperators.Group.Multiset

/-- A finite map from `κ` to `ν`. -/
abbrev FinMap (κ ν : Type*) := Finmap (fun _ : κ => ν)

namespace FinMap

variable {κ ν M : Type*}

/-- The sum of `f` over the entries of the map. -/
def sum [AddCommMonoid M] (m : FinMap κ ν) (f : κ → ν → M) : M :=
  (m.entries.map fun e => f e.1 e.2).sum

theorem map_sum {N : Type*} [AddCommMonoid M] [AddCommMonoid N] (φ : M →+ N) (m : FinMap κ ν)
    (f : κ → ν → M) : φ (sum m f) = sum m fun k v => φ (f k v) := by
  rw [sum, map_multiset_sum, Multiset.map_map]
  rfl

theorem sum_add [AddCommMonoid M] (m : FinMap κ ν) (f g : κ → ν → M) :
    (sum m fun k v => f k v + g k v) = sum m f + sum m g :=
  Multiset.sum_map_add

/-- Sums over a finite set and over the entries commute. -/
theorem finset_sum_sum [AddCommMonoid M] {ι : Type*} (s : Finset ι) (m : FinMap κ ν)
    (f : ι → κ → ν → M) : ∑ i ∈ s, sum m (f i) = sum m fun k v => ∑ i ∈ s, f i k v :=
  Multiset.sum_map_sum_map s.val m.entries

variable [DecidableEq κ]

/-- The map with the listed entries; an earlier entry hides a later one of the
same key. -/
def ofList (l : List (κ × ν)) : FinMap κ ν :=
  l.foldr (fun e m => m.insert e.1 e.2) ∅

theorem lookup_insert_ite (m : FinMap κ ν) (k k' : κ) (v : ν) :
    (m.insert k v).lookup k' = if k' = k then some v else m.lookup k' := by
  by_cases h : k' = k
  · rw [if_pos h, h, Finmap.lookup_insert]
  · rw [if_neg h, Finmap.lookup_insert_of_ne _ h]

theorem lookup_erase_ite (m : FinMap κ ν) (k k' : κ) :
    (m.erase k).lookup k' = if k' = k then none else m.lookup k' := by
  by_cases h : k' = k
  · rw [if_pos h, h, Finmap.lookup_erase]
  · rw [if_neg h, Finmap.lookup_erase_ne h]

/-- The entries seen through `f`, after an insertion and after a deletion. -/
theorem map_lookup_insert (m : FinMap κ ν) (k : κ) (v : ν) (f : ν → M) :
    (fun k' => ((m.insert k v).lookup k').map f)
      = Function.update (fun k' => (m.lookup k').map f) k (some (f v)) := by
  funext k'
  rw [lookup_insert_ite, Function.update_apply]
  split_ifs <;> rfl

theorem map_lookup_erase (m : FinMap κ ν) (k : κ) (f : ν → M) :
    (fun k' => ((m.erase k).lookup k').map f)
      = Function.update (fun k' => (m.lookup k').map f) k none := by
  funext k'
  rw [lookup_erase_ite, Function.update_apply]
  split_ifs <;> rfl

theorem lookup_insert_eq_some {m : FinMap κ ν} {k k' : κ} {v v' : ν} :
    (m.insert k v).lookup k' = some v' ↔ k' = k ∧ v = v' ∨ k' ≠ k ∧ m.lookup k' = some v' := by
  rw [lookup_insert_ite]
  by_cases h : k' = k
  · rw [if_pos h, Option.some_inj]
    exact ⟨fun hv => Or.inl ⟨h, hv⟩,
      fun hor => hor.elim And.right fun hold => absurd h hold.1⟩
  · rw [if_neg h]
    exact ⟨fun hold => Or.inr ⟨h, hold⟩,
      fun hor => hor.elim (fun hnew => absurd hnew.1 h) And.right⟩

theorem lookup_erase_eq_some {m : FinMap κ ν} {k k' : κ} {v : ν} :
    (m.erase k).lookup k' = some v ↔ k' ≠ k ∧ m.lookup k' = some v := by
  rw [lookup_erase_ite]
  by_cases h : k' = k
  · rw [if_pos h]
    exact iff_of_false (Option.some_ne_none v).symm fun hold => hold.1 h
  · rw [if_neg h, and_iff_right h]

/-- What holds of every entry, and of a new one. -/
theorem forall_lookup_insert {P : κ → ν → Prop} {m : FinMap κ ν} {k : κ} {v : ν}
    (hm : ∀ k' v', m.lookup k' = some v' → P k' v') (hv : P k v) :
    ∀ k' v', (m.insert k v).lookup k' = some v' → P k' v' := by
  intro k' v' h
  rcases lookup_insert_eq_some.mp h with ⟨rfl, rfl⟩ | ⟨-, hold⟩
  · exact hv
  · exact hm k' v' hold

theorem forall_lookup_erase {P : κ → ν → Prop} {m : FinMap κ ν} {k : κ}
    (hm : ∀ k' v', m.lookup k' = some v' → P k' v') :
    ∀ k' v', (m.erase k).lookup k' = some v' → P k' v' :=
  fun k' v' h => hm k' v' (lookup_erase_eq_some.mp h).2

/-- The map with the value of `k`, if there is one, changed by `f`. -/
def modify (m : FinMap κ ν) (k : κ) (f : ν → ν) : FinMap κ ν :=
  match m.lookup k with
  | none => m
  | some v => m.insert k (f v)

theorem mem_keys_iff_lookup {m : FinMap κ ν} {k : κ} : k ∈ m.keys ↔ m.lookup k ≠ none := by
  rw [Finmap.mem_keys, Ne, Finmap.lookup_eq_none, not_not]

theorem keys_insert (m : FinMap κ ν) (k : κ) (v : ν) :
    (m.insert k v).keys = insert k m.keys := by
  ext k'
  rw [Finmap.mem_keys, Finmap.mem_insert, Finset.mem_insert, Finmap.mem_keys]

/-- Overwriting a key adds no key. -/
theorem mem_insert_of_lookup {m : FinMap κ ν} {k : κ} {v : ν} (h : m.lookup k = some v) (v' : ν)
    {k' : κ} : k' ∈ m.insert k v' ↔ k' ∈ m := by
  rw [Finmap.mem_insert]
  constructor
  · rintro (rfl | hk)
    · exact Finmap.mem_of_lookup_eq_some h
    · exact hk
  · exact Or.inr

@[simp] theorem mem_modify {m : FinMap κ ν} {k k' : κ} {f : ν → ν} :
    k' ∈ m.modify k f ↔ k' ∈ m := by
  rw [modify]
  cases h : m.lookup k with
  | none => rfl
  | some v => exact mem_insert_of_lookup h _

theorem lookup_modify_ite (m : FinMap κ ν) (k k' : κ) (f : ν → ν) :
    (m.modify k f).lookup k' = if k' = k then (m.lookup k').map f else m.lookup k' := by
  rw [modify]
  cases h : m.lookup k with
  | none =>
    split_ifs with hk
    · rw [hk, h]
      rfl
    · rfl
  | some v =>
    show (m.insert k (f v)).lookup k' = _
    rw [lookup_insert_ite]
    split_ifs with hk
    · rw [hk, h]
      rfl
    · rfl

theorem insert_erase_eq (m : FinMap κ ν) (k : κ) (v : ν) :
    (m.erase k).insert k v = m.insert k v := by
  refine Finmap.ext_lookup fun k' => ?_
  rw [lookup_insert_ite, lookup_insert_ite, lookup_erase_ite]
  by_cases h : k' = k <;> simp [h]

theorem insert_lookup_erase {m : FinMap κ ν} {k : κ} {v : ν} (h : m.lookup k = some v) :
    (m.erase k).insert k v = m := by
  refine Finmap.ext_lookup fun k' => ?_
  rw [lookup_insert_ite, lookup_erase_ite]
  by_cases hk : k' = k
  · rw [if_pos hk, hk, h]
  · rw [if_neg hk, if_neg hk]

/-- Writing what is there. -/
theorem insert_of_lookup {m : FinMap κ ν} {k : κ} {v : ν} (h : m.lookup k = some v) :
    m.insert k v = m := by
  rw [← insert_erase_eq, insert_lookup_erase h]

theorem erase_of_lookup_none {m : FinMap κ ν} {k : κ} (h : m.lookup k = none) :
    m.erase k = m := by
  refine Finmap.ext_lookup fun k' => ?_
  rw [lookup_erase_ite]
  by_cases hk : k' = k
  · rw [if_pos hk, hk, h]
  · rw [if_neg hk]

theorem erase_empty (k : κ) : (∅ : FinMap κ ν).erase k = ∅ :=
  erase_of_lookup_none (Finmap.lookup_empty k)

/-- The same value written at some keys. -/
theorem lookup_foldl_insert (ks : List κ) (v : ν) (m : FinMap κ ν) (k : κ) :
    (ks.foldl (fun m k => m.insert k v) m).lookup k
      = if k ∈ ks then some v else m.lookup k := by
  induction ks generalizing m with
  | nil => rfl
  | cons k' ks ih =>
    rw [List.foldl_cons, ih, lookup_insert_ite]
    by_cases h : k = k'
    · rw [if_pos h, if_pos (List.mem_cons.mpr (Or.inl h)), ite_self]
    · simp only [List.mem_cons, h, false_or, if_false]

/-- Some keys erased. -/
theorem lookup_foldl_erase (ks : List κ) (m : FinMap κ ν) (k : κ) :
    (ks.foldl (fun m k => m.erase k) m).lookup k = if k ∈ ks then none else m.lookup k := by
  induction ks generalizing m with
  | nil => rfl
  | cons k' ks ih =>
    rw [List.foldl_cons, ih, lookup_erase_ite]
    by_cases h : k = k'
    · rw [if_pos h, if_pos (List.mem_cons.mpr (Or.inl h)), ite_self]
    · simp only [List.mem_cons, h, false_or, if_false]

theorem keys_erase (m : FinMap κ ν) (k : κ) : (m.erase k).keys = m.keys.erase k := by
  ext k'
  rw [Finmap.mem_keys, Finmap.mem_erase, Finset.mem_erase, Finmap.mem_keys]

/-! ### The number of entries -/

/-- `len`. -/
def card (m : FinMap κ ν) : ℕ := m.keys.card

theorem card_insert_of_mem {m : FinMap κ ν} {k : κ} (h : k ∈ m) (v : ν) :
    card (m.insert k v) = card m := by
  rw [card, keys_insert, Finset.insert_eq_of_mem (Finmap.mem_keys.mpr h), card]

theorem card_insert_of_notMem {m : FinMap κ ν} {k : κ} (h : k ∉ m) (v : ν) :
    card (m.insert k v) = card m + 1 := by
  rw [card, keys_insert, Finset.card_insert_of_notMem (mt Finmap.mem_keys.mp h), card]

theorem card_erase_of_mem {m : FinMap κ ν} {k : κ} (h : k ∈ m) :
    card (m.erase k) + 1 = card m := by
  rw [card, keys_erase, Finset.card_erase_add_one (Finmap.mem_keys.mpr h), card]

theorem card_erase_le (m : FinMap κ ν) (k : κ) : card (m.erase k) ≤ card m := by
  rw [card, keys_erase]
  exact Finset.card_erase_le

/-! ### Sums over the entries -/

variable [AddCommMonoid M]

theorem sum_insert_of_notMem {m : FinMap κ ν} {k : κ} (h : k ∉ m) (v : ν) (f : κ → ν → M) :
    sum (m.insert k v) f = f k v + sum m f := by
  rw [sum, Finmap.entries_insert_of_notMem h, Multiset.map_cons, Multiset.sum_cons, sum]

theorem sum_insert (m : FinMap κ ν) (k : κ) (v : ν) (f : κ → ν → M) :
    sum (m.insert k v) f = f k v + sum (m.erase k) f := by
  rw [← insert_erase_eq, sum_insert_of_notMem Finmap.notMem_erase_self]

theorem sum_eq_add_erase {m : FinMap κ ν} {k : κ} {v : ν} (h : m.lookup k = some v)
    (f : κ → ν → M) : sum m f = f k v + sum (m.erase k) f := by
  conv_lhs => rw [← insert_lookup_erase h]
  exact sum_insert_of_notMem Finmap.notMem_erase_self v f

/-- A sum over the entries is a sum over the keys. -/
theorem sum_eq_sum_keys (m : FinMap κ ν) (f : κ → ν → M) :
    sum m f = ∑ k ∈ m.keys, (m.lookup k).elim 0 (f k) := by
  show _ = ((m.entries.map Sigma.fst).map fun k => (m.lookup k).elim 0 (f k)).sum
  rw [sum, Multiset.map_map]
  refine congrArg Multiset.sum (Multiset.map_congr rfl fun e he => ?_)
  have hlookup : m.lookup e.1 = some e.2 := Finmap.mem_lookup_iff.mpr he
  rw [Function.comp_apply, hlookup]
  rfl

/-- Maps that read alike have equal sums of what is read. -/
theorem sum_eq_of_lookup_map {ν' A : Type*} {m : FinMap κ ν} {m' : FinMap κ ν'} {f : ν → A}
    {g : ν' → A} (h : ∀ k, (m.lookup k).map f = (m'.lookup k).map g) (F : κ → A → M) :
    sum m (fun k v => F k (f v)) = sum m' fun k v => F k (g v) := by
  have hkeys : m.keys = m'.keys := by
    ext k
    rw [mem_keys_iff_lookup, mem_keys_iff_lookup, Ne, Ne, ← Option.map_eq_none_iff (f := f), h k,
      Option.map_eq_none_iff]
  rw [sum_eq_sum_keys, sum_eq_sum_keys, hkeys]
  refine Finset.sum_congr rfl fun k _ => ?_
  have hk := h k
  cases hm : m.lookup k with
  | none =>
    rw [hm] at hk
    rw [Option.map_eq_none_iff.mp hk.symm]
    rfl
  | some v =>
    rw [hm] at hk
    obtain ⟨v', hv', hvv'⟩ := Option.map_eq_some_iff.mp hk.symm
    rw [hv']
    show F k (f v) = F k (g v')
    rw [hvv']

/-- A sum depends on the entries only. -/
theorem sum_congr {m : FinMap κ ν} {f g : κ → ν → M}
    (h : ∀ k v, m.lookup k = some v → f k v = g k v) : sum m f = sum m g := by
  rw [sum, sum]
  refine congrArg Multiset.sum (Multiset.map_congr rfl fun e he => ?_)
  exact h e.1 e.2 (Finmap.mem_lookup_iff.mpr he)

theorem sum_le_sum [PartialOrder M] [IsOrderedAddMonoid M] {m : FinMap κ ν} {f g : κ → ν → M}
    (h : ∀ k v, m.lookup k = some v → f k v ≤ g k v) : sum m f ≤ sum m g :=
  Multiset.sum_map_le_sum_map _ _ fun e he => h e.1 e.2 (Finmap.mem_lookup_iff.mpr he)

/-- Maps that are indexed differently have equal sums if what they have at
corresponding keys is equal. -/
theorem sum_reindex {κ' ν' : Type*} [DecidableEq κ'] {m : FinMap κ ν} {m' : FinMap κ' ν'}
    {f : κ → κ'} (hf : Function.Injective f) (hrange : ∀ k' ∈ m'.keys, ∃ k, f k = k')
    {F : κ → ν → M} {G : κ' → ν' → M}
    (h : ∀ k, (m'.lookup (f k)).elim 0 (G (f k)) = (m.lookup k).elim 0 (F k)) :
    sum m' G = sum m F := by
  rw [sum_eq_sum_keys, sum_eq_sum_keys]
  -- both sums run over the images of the keys that either map has
  have hleft : ∑ k' ∈ m'.keys, (m'.lookup k').elim 0 (G k')
      = ∑ k' ∈ m'.keys ∪ m.keys.image f, (m'.lookup k').elim 0 (G k') := by
    refine Finset.sum_subset Finset.subset_union_left fun k' _ hk' => ?_
    rw [not_not.mp (mt mem_keys_iff_lookup.mpr hk')]
    rfl
  have hright : ∑ k' ∈ m.keys.image f, (m'.lookup k').elim 0 (G k')
      = ∑ k' ∈ m'.keys ∪ m.keys.image f, (m'.lookup k').elim 0 (G k') := by
    refine Finset.sum_subset Finset.subset_union_right fun k' hk' hnot => ?_
    have hmem : k' ∈ m'.keys := (Finset.mem_union.mp hk').resolve_right hnot
    obtain ⟨k, rfl⟩ := hrange k' hmem
    have hk : k ∉ m.keys := fun hk => hnot (Finset.mem_image_of_mem f hk)
    rw [h k, not_not.mp (mt mem_keys_iff_lookup.mpr hk)]
    rfl
  rw [hleft, ← hright, Finset.sum_image hf.injOn]
  exact Finset.sum_congr rfl fun k _ => h k

/-- A summand is at most the sum. -/
theorem le_sum {m : FinMap κ ν} {k : κ} {v : ν} (h : m.lookup k = some v) (f : κ → ν → ℕ) :
    f k v ≤ sum m f := by
  rw [sum_eq_add_erase h]
  exact Nat.le_add_right _ _

end FinMap

/-- An order in which the keys of a map may be ranged over: a list of them, each
once. -/
structure RangeOrder (κ : Type*) where
  keys : Finset κ → List κ
  nodup : ∀ s, (keys s).Nodup
  mem_keys : ∀ s k, k ∈ keys s ↔ k ∈ s

/-- Ascending order. -/
def RangeOrder.ascending {κ : Type*} [LinearOrder κ] : RangeOrder κ :=
  ⟨fun s => s.sort, fun s => s.sort_nodup _, fun s _ => s.mem_sort _⟩

namespace RangeOrder

variable {κ : Type*}

theorem nonempty : Nonempty (RangeOrder κ) :=
  ⟨⟨fun s => s.toList, fun s => s.nodup_toList, fun _ _ => Finset.mem_toList⟩⟩

/-- Every list of the keys is an order. -/
theorem exists_keys [DecidableEq κ] {s : Finset κ} {l : List κ} (hnodup : l.Nodup)
    (hmem : ∀ k, k ∈ l ↔ k ∈ s) : ∃ order : RangeOrder κ, order.keys s = l := by
  refine ⟨⟨fun t => if t = s then l else t.toList, fun t => ?_, fun t k => ?_⟩, if_pos rfl⟩
  · split_ifs
    · exact hnodup
    · exact t.nodup_toList
  · split_ifs with ht
    · rw [ht, hmem]
    · exact Finset.mem_toList

/-- Any key may come first. -/
theorem exists_first [DecidableEq κ] {s : Finset κ} {k : κ} (hk : k ∈ s) :
    ∃ order : RangeOrder κ, ∃ rest, order.keys s = k :: rest := by
  obtain ⟨order, horder⟩ := exists_keys (s := s) (l := k :: (s.erase k).toList)
    (List.nodup_cons.mpr
      ⟨fun h => Finset.notMem_erase k s (Finset.mem_toList.mp h), Finset.nodup_toList _⟩)
    fun k' => by
      rw [List.mem_cons, Finset.mem_toList, ← Finset.mem_insert, Finset.insert_erase hk]
  exact ⟨order, _, horder⟩

end RangeOrder

namespace FinMap

variable {κ ν : Type*} [DecidableEq κ] {m : FinMap κ ν} {order : RangeOrder κ}

/-- The entries of the map, as they are ranged over. -/
def listed (m : FinMap κ ν) (order : RangeOrder κ) : List (κ × ν) :=
  (order.keys m.keys).filterMap fun k => (m.lookup k).map fun v => (k, v)

theorem mem_listed {k : κ} {v : ν} : (k, v) ∈ m.listed order ↔ m.lookup k = some v := by
  rw [listed, List.mem_filterMap]
  constructor
  · rintro ⟨k', -, h⟩
    obtain ⟨v', hv', heq⟩ := Option.map_eq_some_iff.mp h
    cases heq
    exact hv'
  · intro h
    have hkey : k ∈ m.keys := mem_keys_iff_lookup.mpr (h ▸ Option.some_ne_none v)
    exact ⟨k, (order.mem_keys _ _).mpr hkey, by rw [h]; rfl⟩

theorem nodup_listed (m : FinMap κ ν) (order : RangeOrder κ) : (m.listed order).Nodup := by
  refine (order.nodup m.keys).filterMap fun k k' e he he' => ?_
  obtain ⟨v, -, hv⟩ := Option.map_eq_some_iff.mp he
  obtain ⟨v', -, hv'⟩ := Option.map_eq_some_iff.mp he'
  exact congrArg Prod.fst (hv.trans hv'.symm)

theorem coe_listed (m : FinMap κ ν) (order : RangeOrder κ) :
    (m.listed order : Multiset (κ × ν)) = m.entries.map fun e => (e.1, e.2) := by
  have hentries : (m.entries.map fun e => (e.1, e.2)).Nodup := by
    refine m.nodup_entries.map fun e e' heq => ?_
    exact Sigma.ext (congrArg Prod.fst heq) (heq_of_eq (congrArg Prod.snd heq))
  refine (Multiset.Nodup.ext (Multiset.coe_nodup.mpr (m.nodup_listed order)) hentries).mpr fun ⟨k, v⟩ => ?_
  rw [Multiset.mem_coe, mem_listed, Multiset.mem_map]
  constructor
  · exact fun h => ⟨⟨k, v⟩, Finmap.mem_lookup_iff.mp h, rfl⟩
  · rintro ⟨e, he, heq⟩
    cases heq
    exact Finmap.mem_lookup_iff.mpr he

/-- Any two orders list the same entries. -/
theorem listed_perm (m : FinMap κ ν) (order order' : RangeOrder κ) :
    (m.listed order).Perm (m.listed order') :=
  Multiset.coe_eq_coe.mp ((m.coe_listed order).trans (m.coe_listed order').symm)

/-- A sum that is taken in some order. -/
theorem sum_listed {M : Type*} [AddCommMonoid M] (m : FinMap κ ν) (order : RangeOrder κ)
    (F : κ → ν → M) : ((m.listed order).map fun e => F e.1 e.2).sum = m.sum F := by
  rw [← Multiset.sum_coe, ← Multiset.map_coe, coe_listed, Multiset.map_map]
  rfl

@[simp] theorem listed_empty : (∅ : FinMap κ ν).listed order = [] := by
  refine List.eq_nil_iff_forall_not_mem.mpr fun e he => ?_
  exact Option.some_ne_none _ ((mem_listed.mp he).symm.trans (Finmap.lookup_empty e.1))

/-- Any entry may come first. -/
theorem exists_listed_cons {k : κ} {v : ν} (h : m.lookup k = some v) :
    ∃ order : RangeOrder κ, ∃ rest, m.listed order = (k, v) :: rest := by
  have hkey : k ∈ m.keys := mem_keys_iff_lookup.mpr (h ▸ Option.some_ne_none v)
  obtain ⟨order, rest, hfirst⟩ := RangeOrder.exists_first hkey
  refine ⟨order, rest.filterMap fun k => (m.lookup k).map fun v => (k, v), ?_⟩
  rw [listed, hfirst, List.filterMap_cons, h]
  rfl

end FinMap
