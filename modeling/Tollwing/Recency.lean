/-
Recency.

The uses of a bounded table's keys, as a list with the latest first.  A key is as
old as its last use is deep in the list.

* `Recency.Oldest` — no key of a table was last used before this one;
* `Recency.LeastRecent` — what a use of a key may remove from a table of `cap`
  keys: an oldest one, and only to make room;
* `Recency.Oldest.mem_since`, `Recency.oldest_of_mem_since` — a key is oldest when
  all others were used since;
* `Recency.LeastRecent.keeps` — so a key stays as long as the keys used since its
  last use are, with it, at most `cap`;
* `Recency.Latest.use`, `Recency.Latest.notMem` — the table has the keys used last, and
  not one that as many others were used after as the table has room for.
-/
import Mathlib.Data.Finset.Card
import Mathlib.Data.List.Basic

namespace Recency

variable {κ : Type*} [DecidableEq κ]

/-- No key of `T` was last used before `v`. -/
def Oldest (used : List κ) (T : Finset κ) (v : κ) : Prop :=
  ∀ q ∈ T, used.idxOf q ≤ used.idxOf v

instance decidableOldest (used : List κ) (T : Finset κ) (v : κ) : Decidable (Oldest used T v) :=
  inferInstanceAs (Decidable (∀ _ ∈ _, _))

/-- A use of `k` takes the table from `T` to `T'` and removes oldest keys only, for a
new key in a full table. -/
def LeastRecent (cap : ℕ) (used : List κ) (T : Finset κ) (k : κ) (T' : Finset κ) : Prop :=
  ∀ v ∈ T, v ∉ T' → k ∉ T ∧ cap ≤ T.card ∧ Oldest used T v

/-- The keys of a table were used after all others. -/
def Latest (used : List κ) (T : Finset κ) : Prop :=
  ∀ q ∈ used, q ∉ T → ∀ k ∈ T, used.idxOf k < used.idxOf q

variable {used since before : List κ} {T : Finset κ} {p q : κ}

theorem idxOf_append_cons (hp : p ∉ since) : (since ++ p :: before).idxOf p = since.length := by
  rw [List.idxOf_append_of_notMem hp, List.idxOf_cons_self, Nat.add_zero]

/-- What is no older than `p` is `p` or was used since. -/
theorem mem_of_idxOf_le (hp : p ∉ since)
    (hle : (since ++ p :: before).idxOf q ≤ (since ++ p :: before).idxOf p) :
    q ∈ p :: since := by
  by_contra hq
  rw [List.mem_cons, not_or] at hq
  rw [idxOf_append_cons hp, List.idxOf_append_of_notMem hq.2,
    List.idxOf_cons_ne _ (Ne.symm hq.1)] at hle
  omega

/-- If `p` is oldest, all of the table was used since. -/
theorem Oldest.subset (h : Oldest (since ++ p :: before) T p) (hp : p ∉ since) :
    T ⊆ (p :: since).toFinset := fun q hq =>
  List.mem_toFinset.mpr (mem_of_idxOf_le hp (h q hq))

/-- Nor can it have been used since, if others of the table were not. -/
theorem Oldest.mem_since (h : Oldest (since ++ p :: before) T p) (hq : q ∈ T) (hne : q ≠ p) :
    q ∈ since := by
  by_cases hp : p ∈ since
  · -- the last use of `p` is within `since`
    obtain ⟨later, earlier, rfl, hlater⟩ := List.eq_append_cons_of_mem hp
    rw [List.append_assoc, List.cons_append] at h
    have hmem := List.mem_toFinset.mp (h.subset hlater hq)
    exact List.mem_append.mpr (Or.inl ((List.mem_cons.mp hmem).resolve_left hne))
  · have hmem := List.mem_toFinset.mp (h.subset hp hq)
    exact (List.mem_cons.mp hmem).resolve_left hne

/-- What was last used before all the others of the table is oldest. -/
theorem oldest_of_mem_since (hp : p ∉ since) (h : ∀ q ∈ T, q ≠ p → q ∈ since) :
    Oldest (since ++ p :: before) T p := by
  intro q hq
  by_cases hne : q = p
  · rw [hne]
  · have hlt := List.idxOf_lt_length_iff.mpr (h q hq hne)
    rw [idxOf_append_cons hp, List.idxOf_append_of_mem (h q hq hne)]
    exact hlt.le

/-- **A key stays** as long as no more than `cap` keys have been used, from its last
use to now. -/
theorem LeastRecent.keeps {cap : ℕ} {k : κ} {T' : Finset κ}
    (h : LeastRecent cap (since ++ p :: before) T k T') (hp : p ∉ since) (hmem : p ∈ T)
    (hfew : (insert k (p :: since).toFinset).card ≤ cap) : p ∈ T' := by
  by_contra hgone
  obtain ⟨hk, hfull, hold⟩ := h p hmem hgone
  -- the table and the new key are more than `cap` keys used since
  have hsub : insert k T ⊆ insert k (p :: since).toFinset :=
    Finset.insert_subset_insert k (hold.subset hp)
  have hcard := Finset.card_le_card hsub
  rw [Finset.card_insert_of_notMem hk] at hcard
  omega

/-- **A use keeps** the keys that were used last. -/
theorem Latest.use {cap : ℕ} {k : κ} {T' : Finset κ} (h : Latest used T)
    (huse : LeastRecent cap used T k T') (hT : T ⊆ used.toFinset) (hk : k ∈ T')
    (hT' : T' ⊆ insert k T) : Latest (k :: used) T' := by
  intro q hq hgone p hp
  have hqk : q ≠ k := fun heq => hgone (heq ▸ hk)
  have hqused : q ∈ used := (List.mem_cons.mp hq).resolve_left hqk
  rw [List.idxOf_cons_ne _ hqk.symm]
  by_cases hpk : p = k
  · rw [hpk, List.idxOf_cons_self]
    omega
  · have hpT : p ∈ T := (Finset.mem_insert.mp (hT' hp)).resolve_left hpk
    rw [List.idxOf_cons_ne _ (Ne.symm hpk)]
    by_cases hqT : q ∈ T
    · -- `q` is the key that went
      have hle := (huse q hqT hgone).2.2 p hpT
      have hne : used.idxOf p ≠ used.idxOf q := fun heq =>
        hgone ((List.idxOf_inj (List.mem_toFinset.mp (hT hpT))).mp heq ▸ hp)
      omega
    · have hlt := h q hqused hqT p hpT
      omega

/-- **A key is gone** when as many others were used since as the table has keys. -/
theorem Latest.notMem (h : Latest (since ++ p :: before) T) (hp : p ∉ since)
    (hmany : T.card ≤ since.toFinset.card) : p ∉ T := by
  intro hmem
  have hsub : insert p since.toFinset ⊆ T := by
    intro q hq
    rcases Finset.mem_insert.mp hq with rfl | hq
    · exact hmem
    · by_contra hgone
      have hq := List.mem_toFinset.mp hq
      have hlt := h q (List.mem_append_left _ hq) hgone p hmem
      rw [idxOf_append_cons hp, List.idxOf_append_of_mem hq] at hlt
      have hlength := List.idxOf_lt_length_iff.mpr hq
      omega
  have hcard := Finset.card_le_card hsub
  rw [Finset.card_insert_of_notMem (mt List.mem_toFinset.mp hp)] at hcard
  omega

end Recency
