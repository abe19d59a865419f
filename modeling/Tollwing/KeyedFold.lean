/-
Totals by key.

A program that totals a list of records keeps a value per key: created at the
first record of the key, updated by each one.  Read at one key, the whole fold
is the fold of that key's records.

* `view_foldl` — what the fold leaves at a key;
* `addUp` — a part of the value that the records add to, from left to right;
* `sum_fibers` — totals over a set of keys add up to the total of the records
  with a key in it;
* `sum_totals`, `sum_listed` — the same over a map of totals, and over a list of
  its keys;
* `toNat_sum` — machine words add up without wrapping if their numbers do;
* `SameTotals` — two lists that add up to the same at every key, and so at every set of
  keys and at every coarser key.
-/
import Mathlib.Algebra.BigOperators.Group.Finset.Basic
import Mathlib.Algebra.BigOperators.Group.Finset.Piecewise
import Mathlib.Data.List.Induction
import Mathlib.Data.UInt
import Tollwing.FinMap

namespace KeyedFold

variable {α κ ρ σ M : Type*}

/-- **The fold, read at one key**: a record either updates what is read there or
leaves it. -/
theorem view_foldl {v : σ → Option α} {step : σ → ρ → σ} {p : ρ → Bool} {init : α}
    {f : α → ρ → α}
    (h : ∀ s r, v (step s r) = if p r then some (f ((v s).getD init) r) else v s)
    {s : σ} (hs : v s = none) (rows : List ρ) :
    v (rows.foldl step s)
      = if rows.filter p = [] then none else some ((rows.filter p).foldl f init) := by
  induction rows using List.reverseRecOn with
  | nil => exact hs
  | append_singleton rows r ih =>
    rw [List.foldl_append, List.foldl_cons, List.foldl_nil, h, ih, List.filter_append]
    by_cases hr : p r
    · rw [if_pos hr, List.filter_cons_of_pos hr, List.filter_nil,
        if_neg (List.append_ne_nil_of_right_ne_nil _ (List.cons_ne_nil r [])), List.foldl_append,
        List.foldl_cons, List.foldl_nil]
      split_ifs with hnil
      · rw [hnil]
        rfl
      · rfl
    · rw [if_neg hr, List.filter_cons_of_neg hr, List.filter_nil, List.append_nil]

/-- A map written by records that carry their key. -/
theorem lookup_foldl_insert {β : Type*} [DecidableEq κ] (init : α) (f : α → β → α)
    (l : List (κ × β)) (k : κ) :
    (l.foldl (fun (m : FinMap κ α) b => m.insert b.1 (f ((m.lookup b.1).getD init) b.2))
        ∅).lookup k
      = if l.filter (fun b => b.1 = k) = [] then none
        else some ((l.filter fun b => b.1 = k).foldl (fun a b => f a b.2) init) := by
  refine view_foldl (v := fun m : FinMap κ α => m.lookup k) (fun m b => ?_) rfl l
  rw [FinMap.lookup_insert_ite]
  by_cases hb : b.1 = k
  · rw [if_pos hb.symm, if_pos (decide_eq_true hb), hb]
  · rw [if_neg (Ne.symm hb), if_neg (by simpa using hb)]

/-- The amounts, added up from left to right: in an arithmetic that rounds, the order
counts. -/
def addUp [AddZero M] (l : List M) : M := l.foldl (· + ·) 0

theorem addUp_eq_sum [AddMonoid M] (l : List M) : addUp l = l.sum := List.sum_eq_foldl.symm

/-- A part of the value that some of the records add to. -/
theorem proj_foldl_filter [Add M] {f : α → ρ → α} {π : α → M} {g : ρ → M} (p : ρ → Bool)
    (h : ∀ a r, π (f a r) = if p r then π a + g r else π a) (a : α) (rows : List ρ) :
    π (rows.foldl f a) = ((rows.filter p).map g).foldl (· + ·) (π a) := by
  induction rows generalizing a with
  | nil => rfl
  | cons r rows ih =>
    rw [List.foldl_cons, ih, h, List.filter_cons]
    split_ifs <;> rfl

/-- A part of the value that every record adds to is a sum in the end. -/
theorem proj_foldl [AddMonoid M] {f : α → ρ → α} {π : α → M} {g : ρ → M}
    (h : ∀ a r, π (f a r) = π a + g r) (a : α) (rows : List ρ) :
    π (rows.foldl f a) = π a + (rows.map g).sum := by
  induction rows generalizing a with
  | nil => exact (add_zero _).symm
  | cons r rows ih => rw [List.foldl_cons, ih, h, add_assoc, List.map_cons, List.sum_cons]

/-- A part of the value that no record changes stays what it was. -/
theorem const_foldl {β : Type*} {f : α → ρ → α} {π : α → β} (h : ∀ a r, π (f a r) = π a) (a : α)
    (rows : List ρ) : π (rows.foldl f a) = π a := by
  induction rows generalizing a with
  | nil => rfl
  | cons r rows ih => rw [List.foldl_cons, ih, h]

/-! ### Sums over some of the records -/

section
variable [AddCommMonoid M]

theorem sum_filter_cons (p : ρ → Bool) (g : ρ → M) (r : ρ) (rows : List ρ) :
    (((r :: rows).filter p).map g).sum
      = (if p r then g r else 0) + ((rows.filter p).map g).sum := by
  rw [List.filter_cons]
  split_ifs
  · rw [List.map_cons, List.sum_cons]
  · rw [zero_add]

/-- Records that count for nothing may be left in. -/
theorem sum_filter_ite {p q : ρ → Bool} (h : ∀ r, q r → p r) (g : ρ → M) (rows : List ρ) :
    ((rows.filter p).map fun r => if q r then g r else 0).sum
      = ((rows.filter q).map g).sum := by
  induction rows with
  | nil => rfl
  | cons r rows ih =>
    rw [sum_filter_cons, sum_filter_cons, ih]
    by_cases hq : q r
    · rw [if_pos (h r hq)]
    · rw [if_neg hq, ite_self]

/-- So all of them may. -/
theorem sum_filter_eq (q : ρ → Bool) (g : ρ → M) (rows : List ρ) :
    ((rows.filter q).map g).sum = (rows.map fun r => if q r then g r else 0).sum := by
  rw [← sum_filter_ite (p := fun _ => true) (fun _ _ => rfl), List.filter_true]

/-- **Totals by key add up.** -/
theorem sum_fibers [DecidableEq κ] (S : Finset κ) (key : ρ → κ) (g : ρ → M) (rows : List ρ) :
    ∑ k ∈ S, ((rows.filter fun r => key r = k).map g).sum
      = ((rows.filter fun r => key r ∈ S).map g).sum := by
  induction rows with
  | nil => exact Finset.sum_const_zero
  | cons r rows ih =>
    simp only [sum_filter_cons, decide_eq_true_eq]
    rw [Finset.sum_add_distrib, ih, Finset.sum_ite_eq]

variable [DecidableEq κ] {m : FinMap κ α} {μ : α → M} {key : ρ → κ} {g : ρ → M} {rows : List ρ}

/-- A map that holds the total of every key adds up to the total. -/
theorem sum_totals
    (h : ∀ k v, m.lookup k = some v → μ v = ((rows.filter fun r => key r = k).map g).sum)
    (hkeys : ∀ r ∈ rows, key r ∈ m.keys) : m.sum (fun _ v => μ v) = (rows.map g).sum := by
  have htotal : ∀ k ∈ m.keys, (m.lookup k).elim 0 μ
      = ((rows.filter fun r => key r = k).map g).sum := by
    intro k hk
    obtain ⟨v, hv⟩ := Option.ne_none_iff_exists'.mp (FinMap.mem_keys_iff_lookup.mp hk)
    rw [hv]
    exact h k v hv
  rw [FinMap.sum_eq_sum_keys, Finset.sum_congr rfl htotal, sum_fibers,
    List.filter_eq_self.mpr fun r hr => decide_eq_true (hkeys r hr)]

/-- So do its values at some of the keys, listed once each. -/
theorem sum_listed
    (h : ∀ k v, m.lookup k = some v → μ v = ((rows.filter fun r => key r = k).map g).sum)
    {ks : List κ} (hks : ks.Nodup) (hmem : ∀ k ∈ ks, k ∈ m.keys) :
    ((ks.filterMap fun k => m.lookup k).map μ).sum
      = ((rows.filter fun r => key r ∈ ks).map g).sum := by
  have hlist : ((ks.filterMap fun k => m.lookup k).map μ).sum
      = (ks.map fun k => ((rows.filter fun r => key r = k).map g).sum).sum := by
    clear hks
    induction ks with
    | nil => rfl
    | cons k ks ih =>
      obtain ⟨v, hv⟩ := Option.ne_none_iff_exists'.mp
        (FinMap.mem_keys_iff_lookup.mp (hmem k List.mem_cons_self))
      rw [List.filterMap_cons_some (f := fun k => m.lookup k) hv, List.map_cons, List.sum_cons,
        List.map_cons, List.sum_cons, h k v hv,
        ih fun k hk => hmem k (List.mem_cons_of_mem _ hk)]
  rw [hlist, ← List.sum_toFinset _ hks, sum_fibers]
  simp only [List.mem_toFinset]

end

/-- An amount kept per key, read at one key. -/
theorem getD_lookup_foldl_add [AddZero M] [DecidableEq κ] (key : ρ → κ) (g : ρ → M)
    (rows : List ρ) (k : κ) :
    ((rows.foldl (fun (m : FinMap κ M) r =>
        m.insert (key r) ((m.lookup (key r)).getD 0 + g r)) ∅).lookup k).getD 0
      = addUp ((rows.filter fun r => key r = k).map g) := by
  have hfold := lookup_foldl_insert (0 : M) (· + ·) (rows.map fun r => (key r, g r)) k
  rw [List.foldl_map, List.filter_map, List.foldl_map] at hfold
  rw [hfold, addUp, List.foldl_map]
  split_ifs with hnil
  · rw [List.map_eq_nil_iff] at hnil
    exact (congrArg (List.foldl (fun a r => a + g r) 0) hnil).symm
  · rfl

/-- The keys of the amounts are those of the records. -/
theorem mem_keys_foldl_add [AddZero M] [DecidableEq κ] {key : ρ → κ} {g : ρ → M}
    {rows : List ρ} {k : κ} :
    k ∈ (rows.foldl (fun (m : FinMap κ M) r =>
        m.insert (key r) ((m.lookup (key r)).getD 0 + g r)) ∅).keys ↔ ∃ r ∈ rows, key r = k := by
  induction rows using List.reverseRecOn with
  | nil => simp
  | append_singleton rows r ih =>
    rw [List.foldl_append, List.foldl_cons, List.foldl_nil, FinMap.keys_insert, Finset.mem_insert,
      ih]
    constructor
    · rintro (rfl | ⟨r', hr', hk⟩)
      · exact ⟨r, by simp, rfl⟩
      · exact ⟨r', by simp [hr'], hk⟩
    · rintro ⟨r', hr', hk⟩
      rcases List.mem_append.mp hr' with hold | hnew
      · exact Or.inr ⟨r', hold, hk⟩
      · rw [List.mem_singleton.mp hnew] at hk
        exact Or.inl hk.symm

/-- Machine words add up without wrapping if their numbers do. -/
theorem toNat_sum (words : List UInt64) (h : (words.map UInt64.toNat).sum < 2 ^ 64) :
    words.sum.toNat = (words.map UInt64.toNat).sum := by
  induction words with
  | nil => rfl
  | cons w words ih =>
    rw [List.map_cons, List.sum_cons] at h
    rw [List.sum_cons, UInt64.toNat_add, ih (by omega), List.map_cons, List.sum_cons,
      Nat.mod_eq_of_lt h]

/-- The total of some of the records is at most that of all. -/
theorem sum_filter_le (p : ρ → Bool) (g : ρ → ℕ) (rows : List ρ) :
    ((rows.filter p).map g).sum ≤ (rows.map g).sum := by
  induction rows with
  | nil => exact le_rfl
  | cons r rows ih =>
    rw [sum_filter_cons, List.map_cons, List.sum_cons]
    split_ifs <;> omega

/-! ### The same totals -/

/-- Two lists of keyed amounts name the same keys and have the same total of every key. -/
structure SameTotals [DecidableEq κ] [AddCommMonoid M] (l l' : List (κ × M)) : Prop where
  mem : ∀ k, (∃ e ∈ l, e.1 = k) ↔ ∃ e ∈ l', e.1 = k
  sum : ∀ k, ((l.filter fun e => e.1 = k).map Prod.snd).sum
    = ((l'.filter fun e => e.1 = k).map Prod.snd).sum

namespace SameTotals

variable [DecidableEq κ] [AddCommMonoid M] {l l' : List (κ × M)}

/-- So they have the same total of the keys with a property. -/
theorem sum_filter (h : SameTotals l l') (p : κ → Bool) :
    ((l.filter fun e => p e.1).map Prod.snd).sum
      = ((l'.filter fun e => p e.1).map Prod.snd).sum := by
  have hfibers : ∀ l₁ : List (κ × M), (∀ e ∈ l₁, e.1 ∈ (l ++ l').map Prod.fst) →
      ((l₁.filter fun e => p e.1).map Prod.snd).sum
        = ∑ k ∈ ((l ++ l').map Prod.fst).toFinset.filter fun k => p k,
            ((l₁.filter fun e => e.1 = k).map Prod.snd).sum := by
    intro l₁ hl₁
    rw [sum_fibers]
    congr 2
    refine List.filter_congr fun e he => ?_
    have hmem := hl₁ e he
    rw [← List.mem_toFinset] at hmem
    simp only [Finset.mem_filter, hmem, true_and, Bool.decide_eq_true]
  rw [hfibers l fun e he => List.mem_map_of_mem (List.mem_append_left _ he),
    hfibers l' fun e he => List.mem_map_of_mem (List.mem_append_right _ he)]
  exact Finset.sum_congr rfl fun k _ => h.sum k

/-- And one has a key with the property if the other does. -/
theorem filter_eq_nil_iff (h : SameTotals l l') (p : κ → Bool) :
    (l.filter fun e => p e.1) = [] ↔ (l'.filter fun e => p e.1) = [] := by
  have hnil : ∀ l₁ : List (κ × M),
      (l₁.filter fun e => p e.1) = [] ↔ ∀ k, p k = true → ¬∃ e ∈ l₁, e.1 = k := by
    intro l₁
    rw [List.filter_eq_nil_iff]
    constructor
    · rintro hall k hk ⟨e, he, rfl⟩
      exact hall e he hk
    · intro hall e he hp
      exact hall e.1 hp ⟨e, he, rfl⟩
  rw [hnil, hnil]
  exact forall_congr' fun k => imp_congr_right fun _ => not_congr (h.mem k)

/-- The totals of coarser keys are the same, too. -/
theorem map {κ' : Type*} [DecidableEq κ'] (h : SameTotals l l') (f : κ → κ') :
    SameTotals (l.map fun e => (f e.1, e.2)) (l'.map fun e => (f e.1, e.2)) := by
  have hfilter : ∀ (l₁ : List (κ × M)) (k : κ'),
      (((l₁.map fun e => (f e.1, e.2)).filter fun e => e.1 = k).map Prod.snd)
        = (l₁.filter fun e => f e.1 = k).map Prod.snd := by
    intro l₁ k
    rw [List.filter_map, List.map_map]
    rfl
  constructor
  · intro k
    have hkeys : ∀ l₁ : List (κ × M), (∃ e ∈ l₁.map fun e => (f e.1, e.2), e.1 = k)
        ↔ ∃ k', f k' = k ∧ ∃ e ∈ l₁, e.1 = k' := by
      intro l₁
      constructor
      · rintro ⟨e, he, rfl⟩
        obtain ⟨e', he', rfl⟩ := List.mem_map.mp he
        exact ⟨e'.1, rfl, e', he', rfl⟩
      · rintro ⟨k', rfl, e, he, rfl⟩
        exact ⟨_, List.mem_map_of_mem he, rfl⟩
    rw [hkeys, hkeys]
    exact exists_congr fun k' => and_congr_right fun _ => h.mem k'
  · intro k
    rw [hfilter, hfilter]
    exact h.sum_filter fun k' => f k' = k

end SameTotals

end KeyedFold
