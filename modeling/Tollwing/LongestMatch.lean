/-
Longest match by first match.

A table whose entries are sorted by decreasing key can be searched for an entry
of largest key with a scan that stops at the first match.  This file has the
table builder and the law of that scan, for any entry type and any linearly
ordered key:

* `siftLeft`, `sortDesc` — insertion sort by swaps of neighbours, largest key
  first, for keys with any comparison;
* `sortDesc_perm` — the sort rearranges;
* `sortDesc_pairwise`, `sortDesc_eq_of_perm` — keys that can be compared end up in
  order and need no more than a transitive comparison, and have one sorted order;
* `best` — the running best match of an unsorted list: a later entry replaces
  the current one only when its key is strictly larger;
* `find?_sortDesc` — the first match of the sorted table is the running best of
  the list it was built from, so ties go to the entry added first;
* `rank_best`, `best_append` — its key is the largest matching key, and of two
  blocks of entries the second wins only with a strictly larger one.
-/
import Mathlib.Order.Basic
import Mathlib.Data.List.MinMax
import Mathlib.Data.List.TakeWhile
import Mathlib.Tactic.Common

namespace LongestMatch

variable {α : Type*} {β : Type*}

/-! ### Insertion sort by swaps -/

section
variable [LT β] [DecidableLT β] (key : α → β)

/-- Swap `e` to the left past every neighbour of smaller key.  `left` is what
stands before `e`, nearest first, and `right` what `e` has already passed. -/
def siftLeft : List α → α → List α → List α
  | [], e, right => e :: right
  | x :: left, e, right =>
    if key x < key e then siftLeft left e (x :: right)
    else left.reverse ++ x :: e :: right

/-- The outer loop: `sorted` is the prefix already in order, the head of the
other list is sifted into it next. -/
def sortLoop : List α → List α → List α
  | sorted, [] => sorted
  | sorted, e :: rest => sortLoop (siftLeft key sorted.reverse e []) rest

/-- Insertion sort, largest key first. -/
def sortDesc (l : List α) : List α := sortLoop key [] l

/-- What the inner loop leaves: the neighbours of smaller key end up behind
`e`, in the order they had. -/
theorem siftLeft_eq (e : α) : ∀ left right : List α,
    siftLeft key left e right
      = (left.dropWhile (fun x => decide (key x < key e))).reverse
          ++ e :: ((left.takeWhile (fun x => decide (key x < key e))).reverse ++ right) := by
  intro left
  induction left with
  | nil =>
    intro right
    simp [siftLeft]
  | cons x left ih =>
    intro right
    by_cases hx : key x < key e
    · rw [siftLeft, if_pos hx, ih]
      simp [hx]
    · rw [siftLeft, if_neg hx]
      simp [hx]

theorem siftLeft_perm (e : α) (sorted : List α) :
    (siftLeft key sorted.reverse e []).Perm (e :: sorted) := by
  rw [siftLeft_eq, List.append_nil]
  refine List.perm_middle.trans (List.Perm.cons e ?_)
  rw [← List.reverse_append, List.takeWhile_append_dropWhile, List.reverse_reverse]

theorem sortLoop_perm : ∀ rest sorted : List α,
    (sortLoop key sorted rest).Perm (sorted ++ rest) := by
  intro rest
  induction rest with
  | nil =>
    intro sorted
    simp [sortLoop]
  | cons e rest ih =>
    intro sorted
    rw [sortLoop]
    refine (ih _).trans (((siftLeft_perm key e sorted).append_right rest).trans ?_)
    exact List.perm_middle.symm

theorem sortDesc_perm (l : List α) : (sortDesc key l).Perm l := by
  simpa [sortDesc] using sortLoop_perm key l []

/-! ### Keys that can be compared -/

/-- What stands before an entry that can be compared with all of it. -/
theorem key_lt_of_mem_dropWhile [IsTrans β (· < ·)] {e x : α} {left : List α}
    (h : left.Pairwise (fun a b => key a < key b))
    (hcomparable : ∀ a ∈ left, key a < key e ∨ key e < key a)
    (hx : x ∈ left.dropWhile (fun a => decide (key a < key e))) : key e < key x := by
  induction left with
  | nil => exact absurd hx List.not_mem_nil
  | cons a left ih =>
    obtain ⟨ha, hleft⟩ := List.pairwise_cons.mp h
    by_cases hae : key a < key e
    · rw [List.dropWhile_cons_of_pos (by simpa using hae)] at hx
      exact ih hleft (fun b hb => hcomparable b (List.mem_cons_of_mem a hb)) hx
    · rw [List.dropWhile_cons_of_neg (by simpa using hae)] at hx
      have hea : key e < key a := (hcomparable a List.mem_cons_self).resolve_left hae
      rcases List.mem_cons.mp hx with rfl | hx
      · exact hea
      · exact IsTrans.trans _ _ _ hea (ha x hx)

theorem siftLeft_pairwise [IsTrans β (· < ·)] {e : α} {sorted : List α}
    (h : sorted.Pairwise (fun a b => key b < key a))
    (hcomparable : ∀ a ∈ sorted, key a < key e ∨ key e < key a) :
    (siftLeft key sorted.reverse e []).Pairwise (fun a b => key b < key a) := by
  set p : α → Bool := fun x => decide (key x < key e) with hp
  have hleft : sorted.reverse.Pairwise (fun a b => key a < key b) := List.pairwise_reverse.mpr h
  have hsplit : sorted = (sorted.reverse.dropWhile p).reverse
      ++ (sorted.reverse.takeWhile p).reverse := by
    rw [← List.reverse_append, List.takeWhile_append_dropWhile, List.reverse_reverse]
  rw [hsplit, List.pairwise_append] at h
  obtain ⟨hkept, hpassed, hcross⟩ := h
  rw [siftLeft_eq, List.append_nil, List.pairwise_append, List.pairwise_cons]
  refine ⟨hkept, ⟨fun x hx => ?_, hpassed⟩, fun x hx y hy => ?_⟩
  · simpa using List.mem_takeWhile_imp (List.mem_reverse.mp hx)
  · rcases List.mem_cons.mp hy with rfl | hy
    · refine key_lt_of_mem_dropWhile key hleft (fun a ha => ?_) (List.mem_reverse.mp hx)
      exact hcomparable a (List.mem_reverse.mp ha)
    · exact hcross x hx y hy

theorem sortLoop_pairwise [IsTrans β (· < ·)] : ∀ {rest sorted : List α},
    sorted.Pairwise (fun a b => key b < key a) →
      (sorted ++ rest).Pairwise (fun a b => key a < key b ∨ key b < key a) →
        (sortLoop key sorted rest).Pairwise (fun a b => key b < key a) := by
  intro rest
  induction rest with
  | nil => exact fun h _ => h
  | cons e rest ih =>
    intro sorted h hcomparable
    have hcross := (List.pairwise_append.mp hcomparable).2.2
    refine ih (siftLeft_pairwise key h fun a ha => hcross a ha e List.mem_cons_self) ?_
    have hperm : (siftLeft key sorted.reverse e [] ++ rest).Perm (sorted ++ e :: rest) :=
      ((siftLeft_perm key e sorted).append_right rest).trans List.perm_middle.symm
    exact (hperm.pairwise_iff fun h => h.symm).mpr hcomparable

/-- **Keys that can be compared** are in strictly decreasing order once sorted. -/
theorem sortDesc_pairwise [IsTrans β (· < ·)] {l : List α}
    (h : l.Pairwise (fun a b => key a < key b ∨ key b < key a)) :
    (sortDesc key l).Pairwise (fun a b => key b < key a) :=
  sortLoop_pairwise key List.Pairwise.nil h

/-- They have one sorted order. -/
theorem sortDesc_eq_of_perm [IsTrans β (· < ·)] (hasymm : ∀ a b : β, a < b → ¬b < a)
    {l l' : List α} (hperm : l.Perm l')
    (h : l.Pairwise (fun a b => key a < key b ∨ key b < key a)) :
    sortDesc key l = sortDesc key l' := by
  refine List.Perm.eq_of_pairwise (fun a b _ _ hlt hlt' => absurd hlt' (hasymm _ _ hlt))
    (sortDesc_pairwise key h)
    (sortDesc_pairwise key ((hperm.pairwise_iff fun h => h.symm).mp h)) ?_
  exact (sortDesc_perm key l).trans (hperm.trans (sortDesc_perm key l').symm)

end

/-! ### Keys in a linear order -/

variable [LinearOrder β] (key : α → β)

/-- Every entry the sift does not pass has a key at least that of `e`, when the
entries to the left are in increasing order towards the front. -/
theorem le_key_of_mem_dropWhile {e x : α} {left : List α}
    (h : left.Pairwise (fun a b => key a ≤ key b))
    (hx : x ∈ left.dropWhile (fun a => decide (key a < key e))) : key e ≤ key x := by
  induction left with
  | nil => simp at hx
  | cons a left ih =>
    obtain ⟨ha, hleft⟩ := List.pairwise_cons.mp h
    by_cases hae : key a < key e
    · rw [List.dropWhile_cons_of_pos (by simpa using hae)] at hx
      exact ih hleft hx
    · rw [List.dropWhile_cons_of_neg (by simpa using hae)] at hx
      have hea : key e ≤ key a := not_lt.mp hae
      rcases List.mem_cons.mp hx with rfl | hx
      · exact hea
      · exact hea.trans (ha x hx)

theorem lt_key_of_mem_takeWhile {e x : α} {left : List α}
    (hx : x ∈ left.takeWhile (fun a => decide (key a < key e))) : key x < key e := by
  simpa using List.mem_takeWhile_imp hx

/-- What a sift keeps in front, and what it passes. -/
theorem split_sorted (p : α → Bool) (sorted : List α) :
    sorted = (sorted.reverse.dropWhile p).reverse ++ (sorted.reverse.takeWhile p).reverse := by
  rw [← List.reverse_append, List.takeWhile_append_dropWhile, List.reverse_reverse]

theorem siftLeft_sorted {e : α} {sorted : List α}
    (h : sorted.Pairwise (fun a b => key b ≤ key a)) :
    (siftLeft key sorted.reverse e []).Pairwise (fun a b => key b ≤ key a) := by
  set p : α → Bool := fun x => decide (key x < key e) with hp
  have hleft : sorted.reverse.Pairwise (fun a b => key a ≤ key b) :=
    List.pairwise_reverse.mpr h
  have hsplit := split_sorted p sorted
  rw [hsplit, List.pairwise_append] at h
  obtain ⟨hkept, hpassed, hcross⟩ := h
  rw [siftLeft_eq, List.append_nil, List.pairwise_append, List.pairwise_cons]
  refine ⟨hkept, ⟨fun x hx => ?_, hpassed⟩, fun x hx y hy => ?_⟩
  · exact (lt_key_of_mem_takeWhile key (List.mem_reverse.mp hx)).le
  · rcases List.mem_cons.mp hy with rfl | hy
    · exact le_key_of_mem_dropWhile key hleft (List.mem_reverse.mp hx)
    · exact hcross x hx y hy

/-! ### The running best match -/

/-- Take `e` into account: it replaces the best match so far only when it
matches with a strictly larger key. -/
def improve (m : α → Bool) (acc : Option α) (e : α) : Option α :=
  if m e then
    some (acc.elim e fun x => if key x < key e then e else x)
  else acc

/-- The running best match of a list, in list order. -/
def best (m : α → Bool) (l : List α) : Option α := l.foldl (improve key m) none

/-- One round of the sort moves the first match to the running best. -/
theorem find?_siftLeft (m : α → Bool) {e : α} {sorted : List α}
    (h : sorted.Pairwise (fun a b => key b ≤ key a)) :
    (siftLeft key sorted.reverse e []).find? m = improve key m (sorted.find? m) e := by
  set p : α → Bool := fun x => decide (key x < key e) with hp
  have hleft : sorted.reverse.Pairwise (fun a b => key a ≤ key b) :=
    List.pairwise_reverse.mpr h
  have hfind : sorted.find? m = ((sorted.reverse.dropWhile p).reverse.find? m).or
      ((sorted.reverse.takeWhile p).reverse.find? m) := by
    conv_lhs => rw [split_sorted p sorted]
    exact List.find?_append
  rw [siftLeft_eq, List.append_nil, List.find?_append, hfind]
  rcases hkept : (sorted.reverse.dropWhile p).reverse.find? m with _ | x
  · -- nothing of larger key matches: `e` wins if it matches
    by_cases hme : m e
    · rw [Option.none_or, Option.none_or, List.find?_cons_of_pos hme, improve, if_pos hme]
      rcases hpassed : (sorted.reverse.takeWhile p).reverse.find? m with _ | y
      · rfl
      · have hy := List.mem_reverse.mp (List.mem_of_find?_eq_some hpassed)
        simp [lt_key_of_mem_takeWhile key hy]
    · rw [Option.none_or, Option.none_or, List.find?_cons_of_neg hme, improve, if_neg hme]
  · -- a match of larger or equal key stays in front of `e`
    have hx := List.mem_reverse.mp (List.mem_of_find?_eq_some hkept)
    have hle : ¬ key x < key e := not_lt.mpr (le_key_of_mem_dropWhile key hleft hx)
    simp [improve, hle]

theorem find?_sortLoop (m : α → Bool) : ∀ {rest sorted : List α},
    sorted.Pairwise (fun a b => key b ≤ key a) →
      (sortLoop key sorted rest).find? m = rest.foldl (improve key m) (sorted.find? m) := by
  intro rest
  induction rest with
  | nil => exact fun _ => rfl
  | cons e rest ih =>
    intro sorted h
    rw [sortLoop, ih (siftLeft_sorted key h), find?_siftLeft key m h, List.foldl_cons]

/-- The first match of the sorted table is the running best match of the list
the table was built from. -/
theorem find?_sortDesc (m : α → Bool) (l : List α) :
    (sortDesc key l).find? m = best key m l :=
  find?_sortLoop key m List.Pairwise.nil

/-! ### Blocks of entries -/

/-- The largest key among the matching entries, `⊥` when none matches. -/
def maxKey (m : α → Bool) (l : List α) : WithBot β := ((l.filter m).map key).maximum

@[simp] theorem maxKey_nil (m : α → Bool) : maxKey key m [] = ⊥ := rfl

theorem maxKey_concat (m : α → Bool) (l : List α) (e : α) :
    maxKey key m (l ++ [e])
      = if m e then max (maxKey key m l) (key e) else maxKey key m l := by
  by_cases hm : m e
  · rw [if_pos hm, maxKey, List.filter_append, List.filter_cons_of_pos hm, List.filter_nil,
      List.map_append, List.map_singleton, List.maximum_concat, maxKey]
  · rw [if_neg hm, maxKey, List.filter_append, List.filter_cons_of_neg hm, List.filter_nil,
      List.append_nil, maxKey]

theorem maxKey_append (m : α → Bool) (l₁ l₂ : List α) :
    maxKey key m (l₁ ++ l₂) = max (maxKey key m l₁) (maxKey key m l₂) := by
  rw [maxKey, List.filter_append, List.map_append, List.maximum_append, maxKey, maxKey]

theorem best_concat (m : α → Bool) (l : List α) (e : α) :
    best key m (l ++ [e]) = improve key m (best key m l) e := by
  rw [best, List.foldl_append, List.foldl_cons, List.foldl_nil, best]

theorem mem_of_best_eq_some {m : α → Bool} {l : List α} {e : α}
    (h : best key m l = some e) : e ∈ l := by
  rw [← find?_sortDesc] at h
  exact (sortDesc_perm key l).mem_iff.mp (List.mem_of_find?_eq_some h)

/-- The key of a running match, `⊥` before the first. -/
def rank (acc : Option α) : WithBot β := acc.elim ⊥ fun e => (key e : WithBot β)

theorem improve_of_lt {m : α → Bool} {acc : Option α} {e : α} (hm : m e = true)
    (h : rank key acc < key e) : improve key m acc e = some e := by
  cases acc with
  | none => simp [improve, hm]
  | some x =>
    have hx : key x < key e := WithBot.coe_lt_coe.mp h
    simp [improve, hm, hx]

theorem improve_of_le {m : α → Bool} {acc : Option α} {e : α}
    (h : (key e : WithBot β) ≤ rank key acc) : improve key m acc e = acc := by
  cases acc with
  | none => exact absurd h (by simp [rank])
  | some x =>
    have hx : ¬ key x < key e := not_lt.mpr (WithBot.coe_le_coe.mp h)
    simp [improve, hx]

/-- The best match has the largest matching key. -/
theorem rank_best (m : α → Bool) (l : List α) : rank key (best key m l) = maxKey key m l := by
  induction l using List.reverseRecOn with
  | nil => rfl
  | append_singleton l e ih =>
    rw [best_concat, maxKey_concat]
    by_cases hm : m e
    · rw [if_pos hm, ← ih]
      rcases lt_or_ge (rank key (best key m l)) (key e) with h | h
      · rw [improve_of_lt key hm h, max_eq_right h.le]
        rfl
      · rw [improve_of_le key h, max_eq_left h]
    · rw [if_neg hm, improve, if_neg hm, ih]

/-- Of two blocks of entries the second wins only with a strictly larger key. -/
theorem best_append (m : α → Bool) (l₁ l₂ : List α) :
    best key m (l₁ ++ l₂)
      = if maxKey key m l₂ ≤ maxKey key m l₁ then best key m l₁ else best key m l₂ := by
  induction l₂ using List.reverseRecOn with
  | nil => simp
  | append_singleton l₂ e ih =>
    rw [← List.append_assoc, best_concat, ih, maxKey_concat, best_concat]
    by_cases hm : m e
    · rw [if_pos hm]
      by_cases h : maxKey key m l₂ ≤ maxKey key m l₁
      · rw [if_pos h]
        rcases lt_or_ge (maxKey key m l₁) (key e) with he | he
        · -- `e` beats both blocks
          rw [if_neg (by simp [he]), improve_of_lt key hm (by rwa [rank_best]),
            improve_of_lt key hm (by rw [rank_best]; exact h.trans_lt he)]
        · rw [if_pos (max_le h he), improve_of_le key (by rwa [rank_best])]
      · rw [if_neg h, if_neg fun hle => h ((le_max_left _ _).trans hle)]
    · rw [if_neg hm, improve, if_neg hm, improve, if_neg hm]

end LongestMatch
