/-
Sorting that need not be stable, and cutting the result.

A `SliceSort less` turns every list into a permutation, which is sorted if `less` is a
weak order of the elements; what it does with elements that `less` does not separate is
its own choice, and so is all it does where `less` is none, as among NaN and other floats.

* `SliceSort.sort_eq` — an order that separates the elements leaves no choice;
* `settled_iff` — lists of the same elements, sorted by a float key and cut, are the same
  if and only if no two elements that the keys do not separate compete for a place before
  the cut;
* `FinMap.found` — what is gathered from the entries of a map, in any order.
-/
import Mathlib.Data.List.Sort
import Mathlib.Data.Multiset.Count
import Mathlib.Data.Multiset.Filter
import Mathlib.Order.Basic
import Tollwing.FinMap
import Tollwing.Float64

/-- What a sorting function asks of `less`. -/
structure WeakOrderOn {α : Type*} (less : α → α → Prop) (l : List α) : Prop where
  asymm : ∀ a ∈ l, ∀ b ∈ l, less a b → ¬less b a
  trans : ∀ a ∈ l, ∀ b ∈ l, ∀ c ∈ l, ¬less a b → ¬less b c → ¬less a c

/-- A sorting function for `less`. -/
structure SliceSort {α : Type*} (less : α → α → Prop) where
  sort : List α → List α
  perm : ∀ l, (sort l).Perm l
  sorted : ∀ l, WeakOrderOn less l → (sort l).Pairwise fun a b => ¬less b a

/-- An order that separates the elements leaves a sorting function no choice. -/
theorem SliceSort.sort_eq {α : Type*} {less : α → α → Prop} (s s' : SliceSort less)
    {l l' : List α} (hweak : ∀ l, WeakOrderOn less l)
    (hless : ∀ a ∈ l, ∀ b ∈ l, ¬less a b → ¬less b a → a = b) (h : l.Perm l') :
    s.sort l = s'.sort l' := by
  refine List.Perm.eq_of_pairwise (fun a b ha hb hab hba => ?_) (s.sorted l (hweak l))
    (s'.sorted l' (hweak l')) ((s.perm l).trans (h.trans (s'.perm l').symm))
  exact hless a ((s.perm l).mem_iff.mp ha) b (h.mem_iff.mpr ((s'.perm l').mem_iff.mp hb)) hba hab

/-- The first `n` elements, all of them for `n ≤ 0`. -/
def cut {α : Type*} (n : ℤ) (l : List α) : List α :=
  if 0 < n ∧ n < l.length then l.take n.toNat else l

theorem cut_zero {α : Type*} (l : List α) : cut 0 l = l := if_neg fun h => lt_irrefl _ h.1

/-- What is cut off: nothing, or what follows the first `n` elements. -/
theorem exists_cut_append {α : Type*} (n : ℤ) (l : List α) :
    ∃ rest, l = cut n l ++ rest ∧ (rest ≠ [] → 0 < n ∧ (cut n l).length = n) := by
  rw [cut]
  split_ifs with h
  · refine ⟨l.drop n.toNat, (List.take_append_drop _ _).symm, fun _ => ⟨h.1, ?_⟩⟩
    rw [List.length_take]
    omega
  · exact ⟨[], (List.append_nil l).symm, fun hne => absurd rfl hne⟩

/-- A cut leaves the first element. -/
theorem head?_cut {α : Type*} (n : ℤ) (l : List α) : (cut n l).head? = l.head? := by
  rw [cut]
  split_ifs with h
  · rw [List.head?_take, if_neg (by omega)]
  · rfl

/-- Places before the cut are kept. -/
theorem getElem?_cut {α : Type*} {n : ℤ} {c : ℕ} (h : ¬(0 < n ∧ n ≤ c)) (l : List α) :
    (cut n l)[c]? = l[c]? := by
  rw [cut]
  split_ifs with hn
  · rw [List.getElem?_take, if_pos (by omega)]
  · rfl

/-! ### Keys of a linear order -/

section Keyed

variable {α β : Type*} [LinearOrder β]

/-- Keys make a weak order. -/
theorem WeakOrderOn.of_key {less : α → α → Prop} (key : α → β) {l : List α}
    (hless : ∀ a ∈ l, ∀ b ∈ l, less a b ↔ key a < key b) : WeakOrderOn less l where
  asymm a ha b hb hab hba :=
    lt_asymm ((hless a ha b hb).mp hab) ((hless b hb a ha).mp hba)
  trans a ha b hb c hc hab hbc hac := by
    rw [hless a ha b hb, not_lt] at hab
    rw [hless b hb c hc, not_lt] at hbc
    exact absurd ((hless a ha c hc).mp hac) (not_lt.mpr (hbc.trans hab))

/-- The list in ascending order of the keys, stably sorted. -/
def sortByKey (key : α → β) (l : List α) : List α :=
  l.mergeSort fun a b => decide (key a ≤ key b)

theorem pairwise_sortByKey (key : α → β) (l : List α) :
    (sortByKey key l).Pairwise fun a b => ¬key b < key a := by
  have htrans : ∀ a b c, decide (key a ≤ key b) = true → decide (key b ≤ key c) = true →
      decide (key a ≤ key c) = true := by
    simp only [decide_eq_true_eq]
    exact fun a b c hab hbc => hab.trans hbc
  have htotal : ∀ a b, (decide (key a ≤ key b) || decide (key b ≤ key a)) = true := by
    simp only [Bool.or_eq_true, decide_eq_true_eq]
    exact fun a b => le_total (key a) (key b)
  exact (List.pairwise_mergeSort htrans htotal l).imp fun hab => not_lt.mpr (of_decide_eq_true hab)

/-- A stable sorting function for an order that compares keys. -/
def SliceSort.byKey {less : α → α → Prop} (key : α → β) (hless : ∀ a b, less a b ↔ key a < key b) :
    SliceSort less where
  sort := sortByKey key
  perm l := List.mergeSort_perm l _
  sorted l _ := (pairwise_sortByKey key l).imp fun hab h => hab ((hless _ _).mp h)

/-- Highest keys first. -/
def Descending (key : α → β) (l : List α) : Prop := l.Pairwise fun a b => ¬key a < key b

/-- Of two sorted lists, places that no equal keys compete for are the same. -/
theorem take_eq_take {key : α → β} (n : ℕ) {l l' : List α} (hl : Descending key l)
    (hl' : Descending key l') (hperm : l.Perm l')
    (hties : ∀ a ∈ l, ∀ b ∈ l, a ≠ b → key a = key b →
      n ≤ l.countP fun c => decide (key a < key c)) :
    l.take n = l'.take n := by
  induction n generalizing l l' with
  | zero => rw [List.take_zero, List.take_zero]
  | succ n ih =>
    cases l with
    | nil => rw [List.nil_perm.mp hperm]
    | cons a t =>
      cases l' with
      | nil => exact absurd (List.perm_nil.mp hperm) (List.cons_ne_nil a t)
      | cons b t' =>
        have hb : b ∈ a :: t := hperm.mem_iff.mpr List.mem_cons_self
        have htop : ∀ c ∈ a :: t, key c ≤ key a := by
          intro c hc
          rcases List.mem_cons.mp hc with rfl | hc
          · exact le_rfl
          · exact not_lt.mp ((List.pairwise_cons.mp hl).1 c hc)
        have htop' : key a ≤ key b := by
          rcases List.mem_cons.mp (hperm.mem_iff.mp List.mem_cons_self) with heq | ha
          · rw [heq]
          · exact not_lt.mp ((List.pairwise_cons.mp hl').1 a ha)
        -- nothing is above the first place, so nothing else has its key
        have hzero : (a :: t).countP (fun c => decide (key a < key c)) = 0 :=
          List.countP_eq_zero.mpr fun c hc => by
            rw [decide_eq_true_eq]
            exact not_lt.mpr (htop c hc)
        have hab : a = b := by
          by_contra hne
          have hle := hties a List.mem_cons_self b hb hne (le_antisymm htop' (htop b hb))
          omega
        subst hab
        rw [List.take_succ_cons, List.take_succ_cons]
        refine congrArg (a :: ·) (ih hl.of_cons hl'.of_cons (List.perm_cons a |>.mp hperm) ?_)
        intro c hc d hd hne heq
        have hle := hties c (List.mem_cons_of_mem a hc) d (List.mem_cons_of_mem a hd) hne heq
        rw [List.countP_cons] at hle
        split_ifs at hle <;> omega

/-- Sorted lists whose equal keys are all cut off have one cut. -/
theorem cut_eq_cut {key : α → β} {n : ℤ} {l l' : List α} (hl : Descending key l)
    (hl' : Descending key l') (hperm : l.Perm l')
    (hties : ∀ a ∈ l, ∀ b ∈ l, a ≠ b → key a = key b →
      0 < n ∧ n ≤ l.countP fun c => decide (key a < key c)) :
    cut n l = cut n l' := by
  rw [cut, cut, hperm.length_eq]
  split_ifs with hn
  · refine take_eq_take _ hl hl' hperm fun a ha b hb hne heq => ?_
    have hcount := hties a ha b hb hne heq
    omega
  · -- nothing is cut off, so no two keys are equal
    have hall := take_eq_take l.length hl hl' hperm
      fun a ha b hb hne heq => by
        have hcount := hties a ha b hb hne heq
        have hlength := hperm.length_eq
        omega
    rwa [List.take_length, hperm.length_eq, List.take_length] at hall

/-- Any of the elements with one key may come first among them. -/
theorem exists_sorted_at (key : α → β) {a : α} {l : List α} (ha : a ∈ l) :
    ∃ l' : List α, l'.Perm l ∧ Descending key l' ∧
      l'[l.countP fun c => decide (key a < key c)]? = some a := by
  classical
  -- what is above `a`, then `a`, then the rest, each part sorted
  set s := sortByKey (fun c => OrderDual.toDual (key c)) l with hs
  have hperm : s.Perm l := List.mergeSort_perm l _
  have hsorted : Descending key s := pairwise_sortByKey (fun c => OrderDual.toDual (key c)) l
  set above := s.filter fun c => decide (key a < key c) with habove
  set rest := s.filter fun c => !decide (key a < key c) with hrest
  have ha' : a ∈ rest := by
    rw [hrest, List.mem_filter]
    exact ⟨hperm.mem_iff.mpr ha, by simp⟩
  have hlength : above.length = l.countP fun c => decide (key a < key c) := by
    rw [habove, ← List.countP_eq_length_filter, hperm.countP_eq]
  have hmem : ∀ c ∈ a :: rest.erase a, ¬key a < key c := by
    intro c hc
    rcases List.mem_cons.mp hc with rfl | hc
    · exact lt_irrefl _
    · have hc' := (List.mem_filter.mp (List.mem_of_mem_erase hc)).2
      rw [Bool.not_eq_true', decide_eq_false_iff_not] at hc'
      exact hc'
  refine ⟨above ++ a :: rest.erase a, ?_, ?_, ?_⟩
  · exact ((List.perm_cons_erase ha').symm.append_left above).trans
      ((List.filter_append_perm _ s).trans hperm)
  · refine List.pairwise_append.mpr ⟨hsorted.filter _, List.pairwise_cons.mpr ⟨?_, ?_⟩, ?_⟩
    · exact fun c hc => hmem c (List.mem_cons_of_mem a hc)
    · exact (hsorted.filter _).sublist List.erase_sublist
    · intro c hc d hd
      have hlt : key a < key c := of_decide_eq_true (List.mem_filter.mp hc).2
      exact not_lt.mpr ((not_lt.mp (hmem d hd)).trans hlt.le)
  · rw [← hlength, List.getElem?_append_right le_rfl, Nat.sub_self]
    rfl

end Keyed

/-! ### Float keys -/

section Floats

variable {α : Type*}

/-- Highest keys first. -/
def Higher (key : α → Float64) (a b : α) : Prop := key b < key a

instance (key : α → Float64) : DecidableRel (Higher key) := fun a b =>
  inferInstanceAs (Decidable (key b < key a))

/-- Elements that the keys do not separate are all cut off. -/
def Settled (key : α → Float64) (n : ℤ) (s : Multiset α) : Prop :=
  ∀ a ∈ s, ∀ b ∈ s, a ≠ b → ¬Higher key a b → ¬Higher key b a →
    0 < n ∧ n ≤ s.countP fun c => Higher key c a

variable {key : α → Float64} {l l' : List α}

/-- Above NaN is nothing, and below it neither. -/
theorem not_higher_of_nan {a b : α} (h : (key a).rank = ⊥ ∨ (key b).rank = ⊥) :
    ¬Higher key a b := by
  rw [Higher, Float64.lt_iff_rank]
  rintro ⟨hb, hlt⟩
  rcases h with ha | hb'
  · exact not_lt_bot (ha ▸ hlt)
  · exact hb.ne' hb'

/-- Without NaN the keys are compared by their ranks. -/
theorem higher_iff {a b : α} (hb : (key b).rank ≠ ⊥) :
    Higher key a b ↔ (key b).rank < (key a).rank := by
  rw [Higher, Float64.lt_iff_rank]
  exact and_iff_right (bot_lt_iff_ne_bot.mpr hb)

section
variable (hnan : ∀ c ∈ l, (key c).rank ≠ ⊥)
include hnan

theorem weakOrderOn_of_numbers : WeakOrderOn (Higher key) l :=
  .of_key (fun c => OrderDual.toDual (key c).rank) fun _ _ _ hb => higher_iff (hnan _ hb)

theorem pairwise_iff_descending (h : l'.Perm l) :
    (l'.Pairwise fun a b => ¬Higher key b a) ↔ Descending (fun c => (key c).rank) l' :=
  List.Pairwise.iff_of_mem fun ha _ => not_congr (higher_iff (hnan _ (h.mem_iff.mp ha)))

/-- Elements that the keys do not separate have one rank. -/
theorem rank_eq_iff {a b : α} (ha : a ∈ l) (hb : b ∈ l) :
    (key a).rank = (key b).rank ↔ ¬Higher key a b ∧ ¬Higher key b a := by
  rw [higher_iff (hnan b hb), higher_iff (hnan a ha), not_lt, not_lt, le_antisymm_iff]

theorem countP_higher {a : α} (ha : a ∈ l) :
    l.countP (fun c => decide (Higher key c a))
      = l.countP fun c => decide ((key a).rank < (key c).rank) :=
  List.countP_congr fun c _ => by
    rw [decide_eq_true_iff, decide_eq_true_iff, higher_iff (hnan a ha)]

end

/-- If NaN and other floats are weakly ordered, nothing is above anything. -/
theorem not_higher_of_weakOrderOn {c : α} (hc : c ∈ l) (hnan : (key c).rank = ⊥)
    (hweak : WeakOrderOn (Higher key) l) {a b : α} (ha : a ∈ l) (hb : b ∈ l) : ¬Higher key a b :=
  hweak.trans a ha c hc b hb (not_higher_of_nan (Or.inr hnan)) (not_higher_of_nan (Or.inl hnan))

/-- What a sorting function may make of a list. -/
def Allowed (key : α → Float64) (l l' : List α) : Prop :=
  l'.Perm l ∧ (WeakOrderOn (Higher key) l → l'.Pairwise fun a b => ¬Higher key b a)

/-- Among NaN anything goes. -/
theorem allowed_of_nan {c : α} (hc : c ∈ l) (hnan : (key c).rank = ⊥) (h : l'.Perm l) :
    Allowed key l l' :=
  ⟨h, fun hweak => List.pairwise_of_forall_mem_list fun _ ha _ hb =>
    not_higher_of_weakOrderOn hc hnan hweak (h.mem_iff.mp hb) (h.mem_iff.mp ha)⟩

theorem exists_allowed (key : α → Float64) (l : List α) : ∃ l', Allowed key l l' := by
  by_cases hnan : ∃ c ∈ l, (key c).rank = ⊥
  · obtain ⟨c, hc, hbot⟩ := hnan
    exact ⟨l, allowed_of_nan hc hbot (List.Perm.refl l)⟩
  · have hnumbers : ∀ c ∈ l, (key c).rank ≠ ⊥ := fun c hc hbot => hnan ⟨c, hc, hbot⟩
    have hperm := List.mergeSort_perm l
      (fun a b => decide (OrderDual.toDual (key a).rank ≤ OrderDual.toDual (key b).rank))
    exact ⟨_, hperm, fun _ => (pairwise_iff_descending hnumbers hperm).mpr
      (pairwise_sortByKey (fun c => OrderDual.toDual (key c).rank) l)⟩

/-- Sorting functions choose freely, list by list. -/
theorem exists_sliceSort {sort : List α → List α} (h : ∀ l, Allowed key l (sort l)) :
    ∃ s : SliceSort (Higher key), s.sort = sort :=
  ⟨⟨sort, fun l => (h l).1, fun l => (h l).2⟩, rfl⟩

/-- A sorting function that makes of two lists what is allowed. -/
theorem exists_sliceSort_pair {m m' : List α} (hne : l ≠ l') (h : Allowed key l m)
    (h' : Allowed key l' m') : ∃ s : SliceSort (Higher key), s.sort l = m ∧ s.sort l' = m' := by
  classical
  choose other hother using exists_allowed key
  have hallowed : ∀ k, Allowed key k (if k = l then m else if k = l' then m' else other k) := by
    intro k
    split_ifs with hk hk'
    · exact hk ▸ h
    · exact hk' ▸ h'
    · exact hother k
  obtain ⟨s, hs⟩ := exists_sliceSort hallowed
  refine ⟨s, ?_, ?_⟩
  · rw [hs]
    exact if_pos rfl
  · rw [hs]
    exact (if_neg hne.symm).trans (if_pos rfl)

theorem SliceSort.nonempty (key : α → Float64) : Nonempty (SliceSort (Higher key)) := by
  choose other hother using exists_allowed key
  obtain ⟨s, -⟩ := exists_sliceSort hother
  exact ⟨s⟩

/-- Settled lists have one sorted cut. -/
theorem Settled.cut_eq {n : ℤ} (h : Settled key n (l : Multiset α)) (hperm : l.Perm l')
    (s s' : SliceSort (Higher key)) : cut n (s.sort l) = cut n (s'.sort l') := by
  have hsort : (s.sort l).Perm (s'.sort l') :=
    (s.perm l).trans (hperm.trans (s'.perm l').symm)
  by_cases hnan : ∃ c ∈ l, (key c).rank = ⊥
  · -- NaN is alone
    obtain ⟨c, hc, hbot⟩ := hnan
    have hall : ∀ a ∈ l, a = c := by
      intro a ha
      by_contra hne
      have hcut := h c hc a ha (Ne.symm hne) (not_higher_of_nan (Or.inl hbot))
        (not_higher_of_nan (Or.inr hbot))
      have hzero : l.countP (fun b => decide (Higher key b c)) = 0 :=
        List.countP_eq_zero.mpr fun b _ => by
          rw [decide_eq_true_iff]
          exact not_higher_of_nan (Or.inr hbot)
      rw [Multiset.coe_countP, hzero] at hcut
      omega
    have hleft := List.eq_replicate_of_mem fun a ha => hall a ((s.perm l).mem_iff.mp ha)
    have hright := List.eq_replicate_of_mem fun a ha =>
      hall a (hperm.mem_iff.mpr ((s'.perm l').mem_iff.mp ha))
    rw [hleft, hright, hsort.length_eq]
  · have hnumbers : ∀ c ∈ l, (key c).rank ≠ ⊥ := fun c hc hbot => hnan ⟨c, hc, hbot⟩
    have hnumbers' : ∀ c ∈ l', (key c).rank ≠ ⊥ := fun c hc =>
      hnumbers c (hperm.mem_iff.mpr hc)
    refine cut_eq_cut
      ((pairwise_iff_descending hnumbers (s.perm l)).mp
        (s.sorted l (weakOrderOn_of_numbers hnumbers)))
      ((pairwise_iff_descending hnumbers' (s'.perm l')).mp
        (s'.sorted l' (weakOrderOn_of_numbers hnumbers'))) hsort fun a ha b hb hne heq => ?_
    have ha' := (s.perm l).mem_iff.mp ha
    have hb' := (s.perm l).mem_iff.mp hb
    obtain ⟨hab, hba⟩ := (rank_eq_iff hnumbers ha' hb').mp heq
    have hcut := h a ha' b hb' hne hab hba
    rwa [Multiset.coe_countP, countP_higher hnumbers ha', ← (s.perm l).countP_eq] at hcut

/-- A sorting function may tell two lists with a tie before the cut apart. -/
theorem exists_cut_ne {n : ℤ} (hne : l ≠ l') (hperm : l.Perm l')
    (h : ¬Settled key n (l : Multiset α)) :
    ∃ s : SliceSort (Higher key), cut n (s.sort l) ≠ cut n (s.sort l') := by
  classical
  simp only [Settled, not_forall] at h
  obtain ⟨a, ha, b, hb, hab, hhigh, hlow, hcount⟩ := h
  rw [Multiset.mem_coe] at ha hb
  by_cases hnan : ∃ c ∈ l, (key c).rank = ⊥
  · -- NaN and anything else may come first
    obtain ⟨c, hc, hbot⟩ := hnan
    obtain ⟨s, hs, hs'⟩ := exists_sliceSort_pair hne
      (allowed_of_nan hc hbot (List.perm_cons_erase ha).symm)
      (allowed_of_nan (hperm.mem_iff.mp hc) hbot
        ((List.perm_cons_erase hb).symm.trans hperm))
    refine ⟨s, fun hcut => hab ?_⟩
    have hhead := congrArg List.head? hcut
    rw [head?_cut, head?_cut, hs, hs', List.head?_cons, List.head?_cons] at hhead
    exact Option.some_inj.mp hhead
  · have hnumbers : ∀ c ∈ l, (key c).rank ≠ ⊥ := fun c hc hbot => hnan ⟨c, hc, hbot⟩
    have hnumbers' : ∀ c ∈ l', (key c).rank ≠ ⊥ := fun c hc =>
      hnumbers c (hperm.mem_iff.mpr hc)
    have heq := (rank_eq_iff hnumbers ha hb).mpr ⟨hhigh, hlow⟩
    obtain ⟨la, hla, hlasorted, hlaget⟩ := exists_sorted_at (fun c => (key c).rank) ha
    obtain ⟨lb, hlb, hlbsorted, hlbget⟩ := exists_sorted_at (fun c => (key c).rank) hb
    have hla' : Allowed key l la :=
      ⟨hla, fun _ => (pairwise_iff_descending hnumbers hla).mpr hlasorted⟩
    have hlb' : Allowed key l' lb :=
      ⟨hlb.trans hperm, fun _ =>
        (pairwise_iff_descending hnumbers' (hlb.trans hperm)).mpr hlbsorted⟩
    obtain ⟨s, hs, hs'⟩ := exists_sliceSort_pair hne hla' hlb'
    rw [Multiset.coe_countP, countP_higher hnumbers ha] at hcount
    -- the place where the equal keys begin tells them apart
    refine ⟨s, fun hcut => hab ?_⟩
    have hget := congrArg
      (fun m => m[l.countP fun c => decide ((key a).rank < (key c).rank)]?) hcut
    simp only [← heq] at hlbget
    simp only [getElem?_cut hcount, hs, hs', hlaget, hlbget] at hget
    exact Option.some_inj.mp hget

variable (key) in
/-- **One sorted cut for all orders**: lists of the same elements, which differ as
soon as there are two, are sorted and cut alike if and only if they are settled. -/
theorem settled_iff {ι : Type*} (n : ℤ) (gather : ι → List α) {m : Multiset α}
    (hgather : ∀ i, (gather i : Multiset α) = m)
    (hmoves : ∀ a ∈ m, ∀ b ∈ m, a ≠ b → ∃ i j, gather i ≠ gather j) :
    (∀ (s : SliceSort (Higher key)) (i j : ι),
      cut n (s.sort (gather i)) = cut n (s.sort (gather j))) ↔ Settled key n m := by
  have hperm : ∀ i j, (gather i).Perm (gather j) := fun i j =>
    Multiset.coe_eq_coe.mp ((hgather i).trans (hgather j).symm)
  constructor
  · intro hall
    by_contra hnot
    have htie := hnot
    simp only [Settled, not_forall] at htie
    obtain ⟨a, ha, b, hb, hab, -⟩ := htie
    obtain ⟨i, j, hij⟩ := hmoves a ha b hb hab
    rw [← hgather i] at hnot
    obtain ⟨s, hs⟩ := exists_cut_ne hij (hperm i j) hnot
    exact hs (hall s i j)
  · intro hsettled s i j
    rw [← hgather i] at hsettled
    exact hsettled.cut_eq (hperm i j) s s

end Floats

/-! ### What is gathered from a map -/

namespace FinMap

section
variable {α β : Type*}

/-- A list with the elements of what is found is found in some order. -/
theorem exists_perm_filterMap {f : α → Option β} {bs : List β} :
    ∀ {l : List α}, bs.Perm (l.filterMap f) → ∃ l' : List α, l'.Perm l ∧ l'.filterMap f = bs := by
  induction bs with
  | nil => exact fun {l} h => ⟨l, List.Perm.refl l, h.nil_eq.symm⟩
  | cons b bs ih =>
    intro l h
    obtain ⟨a, ha, hb⟩ := List.mem_filterMap.mp (h.mem_iff.mp List.mem_cons_self)
    obtain ⟨before, after, rfl⟩ := List.append_of_mem ha
    have hrest : bs.Perm ((before ++ after).filterMap f) := by
      rw [List.filterMap_append, List.filterMap_cons_some hb] at h
      rw [List.filterMap_append]
      exact (List.perm_cons b).mp (h.trans List.perm_middle)
    obtain ⟨l', hperm, hbs⟩ := ih hrest
    refine ⟨a :: l', (hperm.cons a).trans List.perm_middle.symm, ?_⟩
    rw [List.filterMap_cons_some hb, hbs]

/-- So are two lists, of what is found at different places. -/
theorem exists_perm_filterMap_both {f g : α → Option β} (hapart : ∀ a, f a = none ∨ g a = none)
    {as bs : List β} {l : List α} (has : as.Perm (l.filterMap f)) (hbs : bs.Perm (l.filterMap g)) :
    ∃ l' : List α, l'.Perm l ∧ l'.filterMap f = as ∧ l'.filterMap g = bs := by
  set p : α → Bool := fun a => (f a).isSome
  have hf : (l.filter p).filterMap f = l.filterMap f := by
    rw [List.filterMap_filter]
    refine List.filterMap_congr fun a _ => ?_
    cases h : f a <;> simp [p, h]
  have hg : (l.filter fun a => !p a).filterMap g = l.filterMap g := by
    rw [List.filterMap_filter]
    refine List.filterMap_congr fun a _ => ?_
    rcases hapart a with h | h <;> simp [p, h]
  obtain ⟨l₁, hperm₁, rfl⟩ := exists_perm_filterMap (hf ▸ has)
  obtain ⟨l₂, hperm₂, rfl⟩ := exists_perm_filterMap (hg ▸ hbs)
  have hg₁ : l₁.filterMap g = [] := by
    refine List.filterMap_eq_nil_iff.mpr fun a ha => (hapart a).resolve_left ?_
    exact Option.isSome_iff_ne_none.mp (List.mem_filter.mp (hperm₁.mem_iff.mp ha)).2
  have hf₂ : l₂.filterMap f = [] := by
    refine List.filterMap_eq_nil_iff.mpr fun a ha => ?_
    simpa [p] using (List.mem_filter.mp (hperm₂.mem_iff.mp ha)).2
  refine ⟨l₁ ++ l₂, (hperm₁.append hperm₂).trans (List.filter_append_perm p l), ?_, ?_⟩
  · rw [List.filterMap_append, hf₂, List.append_nil]
  · rw [List.filterMap_append, hg₁, List.nil_append]

end

variable {κ ν α : Type*}

/-- What `f` finds at the entries of the map. -/
def found (m : FinMap κ ν) (f : κ → ν → Option α) : Multiset α :=
  m.entries.filterMap fun e => f e.1 e.2

variable [DecidableEq κ] {m : FinMap κ ν} {f : κ → ν → Option α}

theorem mem_found {a : α} : a ∈ m.found f ↔ ∃ k v, m.lookup k = some v ∧ f k v = some a := by
  rw [found, Multiset.mem_filterMap]
  constructor
  · rintro ⟨e, he, hfe⟩
    exact ⟨e.1, e.2, Finmap.mem_lookup_iff.mpr he, hfe⟩
  · rintro ⟨k, v, hk, hfk⟩
    exact ⟨⟨k, v⟩, Finmap.mem_lookup_iff.mp hk, hfk⟩

/-- What is gathered over any order. -/
theorem coe_gather (m : FinMap κ ν) (f : κ → ν → Option α) (order : RangeOrder κ) :
    ((m.listed order).filterMap fun e => f e.1 e.2 : Multiset α) = m.found f := by
  rw [found, ← Multiset.filterMap_coe, coe_listed, Multiset.filterMap_map]
  rfl

/-- Two things that are found may be found in either order. -/
theorem exists_gather_ne {a b : α} (ha : a ∈ m.found f) (hb : b ∈ m.found f) (hab : a ≠ b) :
    ∃ order order' : RangeOrder κ,
      ((m.listed order).filterMap fun e => f e.1 e.2)
        ≠ (m.listed order').filterMap fun e => f e.1 e.2 := by
  obtain ⟨k, v, hk, hfk⟩ := mem_found.mp ha
  obtain ⟨k', v', hk', hfk'⟩ := mem_found.mp hb
  obtain ⟨order, rest, hfirst⟩ := exists_listed_cons hk
  obtain ⟨order', rest', hfirst'⟩ := exists_listed_cons hk'
  refine ⟨order, order', fun heq => hab ?_⟩
  simp only [hfirst, hfirst', List.filterMap_cons, hfk, hfk'] at heq
  exact (List.cons.inj heq).1

/-- Every list of the entries is an order. -/
theorem exists_listed {order : RangeOrder κ} {l : List (κ × ν)} (h : l.Perm (m.listed order)) :
    ∃ order' : RangeOrder κ, m.listed order' = l := by
  have hentry : ∀ e ∈ l, m.lookup e.1 = some e.2 := fun e he => mem_listed.mp (h.mem_iff.mp he)
  have hnodup : (l.map Prod.fst).Nodup := by
    refine (h.nodup_iff.mpr (m.nodup_listed order)).map_on fun e he e' he' heq => ?_
    have hvalue := hentry e he
    rw [heq, hentry e' he'] at hvalue
    exact Prod.ext heq (Option.some_inj.mp hvalue).symm
  have hkeys : ∀ k, k ∈ l.map Prod.fst ↔ k ∈ m.keys := by
    intro k
    rw [List.mem_map, mem_keys_iff_lookup, Option.ne_none_iff_exists']
    constructor
    · rintro ⟨e, he, rfl⟩
      exact ⟨e.2, hentry e he⟩
    · rintro ⟨v, hv⟩
      exact ⟨(k, v), h.mem_iff.mpr (mem_listed.mpr hv), rfl⟩
  obtain ⟨order', horder⟩ := RangeOrder.exists_keys hnodup hkeys
  refine ⟨order', ?_⟩
  rw [listed, horder, List.filterMap_map]
  conv_rhs => rw [← List.filterMap_some (l := l)]
  refine List.filterMap_congr fun e he => ?_
  rw [Function.comp_apply, hentry e he]
  rfl

/-- What is found at different places can be gathered in any two orders at once. -/
theorem exists_gather_both {f g : κ → ν → Option α}
    (hapart : ∀ k v, f k v = none ∨ g k v = none) {as bs : List α}
    (has : (as : Multiset α) = m.found f) (hbs : (bs : Multiset α) = m.found g) :
    ∃ order : RangeOrder κ, ((m.listed order).filterMap fun e => f e.1 e.2) = as ∧
      ((m.listed order).filterMap fun e => g e.1 e.2) = bs := by
  obtain ⟨order⟩ := RangeOrder.nonempty (κ := κ)
  obtain ⟨l, hperm, hf, hg⟩ := exists_perm_filterMap_both (fun e : κ × ν => hapart e.1 e.2)
    (Multiset.coe_eq_coe.mp (has.trans (m.coe_gather f order).symm))
    (Multiset.coe_eq_coe.mp (hbs.trans (m.coe_gather g order).symm))
  obtain ⟨order', rfl⟩ := exists_listed hperm
  exact ⟨order', hf, hg⟩

/-! ### Ties among the entries -/

variable {listed : κ → ν → Prop} [∀ k v, Decidable (listed k v)]

/-- Of the listed entries, those whose keys do not separate them are all cut off. -/
def TiesCut (m : FinMap κ ν) (listed : κ → ν → Prop) [∀ k v, Decidable (listed k v)]
    (key : κ → ν → Float64) (n : ℤ) : Prop :=
  ∀ k v k' v', m.lookup k = some v → m.lookup k' = some v' → listed k v → listed k' v' →
    k ≠ k' → ¬key k v < key k' v' → ¬key k' v' < key k v →
      0 < n ∧ n ≤ (m.sum fun l w => if listed l w ∧ key k v < key l w then 1 else 0 : ℕ)

omit [DecidableEq κ] in
/-- What is found above a key, counted over the entries. -/
theorem countP_found (m : FinMap κ ν) {row : κ → ν → α}
    (hf : ∀ k v, f k v = if listed k v then some (row k v) else none) (p : α → Prop)
    [DecidablePred p] :
    (m.found f).countP p = m.sum fun k v => if listed k v ∧ p (row k v) then 1 else 0 := by
  have hnone : ∀ (e : (_ : κ) × ν) s, f e.1 e.2 = none →
      (e ::ₘ s).filterMap (fun e => f e.1 e.2) = s.filterMap fun e => f e.1 e.2 :=
    fun e s he => Multiset.filterMap_cons_none e s he
  have hsome : ∀ (e : (_ : κ) × ν) s {a}, f e.1 e.2 = some a →
      (e ::ₘ s).filterMap (fun e => f e.1 e.2) = a ::ₘ s.filterMap fun e => f e.1 e.2 :=
    fun e s _ he => Multiset.filterMap_cons_some _ e s he
  rw [found, sum]
  induction m.entries using Multiset.induction with
  | empty => rfl
  | cons e s ih =>
    rw [Multiset.map_cons, Multiset.sum_cons, ← ih]
    by_cases hlisted : listed e.1 e.2
    · have he : f e.1 e.2 = some (row e.1 e.2) := (hf _ _).trans (if_pos hlisted)
      rw [hsome e s he, Multiset.countP_cons, Nat.add_comm]
      simp only [hlisted, true_and]
    · have he : f e.1 e.2 = none := (hf _ _).trans (if_neg hlisted)
      rw [hnone e s he, if_neg fun h => hlisted h.1, Nat.zero_add]

/-- Rows that tell their keys apart are settled if the ties of the entries are cut
off. -/
theorem settled_found_iff {row : κ → ν → α} {key : α → Float64} {n : ℤ}
    (hf : ∀ k v, f k v = if listed k v then some (row k v) else none)
    (hrow : ∀ k v k' v', m.lookup k = some v → m.lookup k' = some v' → row k v = row k' v' →
      k = k') :
    Settled key n (m.found f) ↔ m.TiesCut listed (fun k v => key (row k v)) n := by
  have hfound : ∀ {k v a}, f k v = some a ↔ listed k v ∧ row k v = a := by
    intro k v a
    rw [hf]
    split_ifs with h
    · exact ⟨fun heq => ⟨h, Option.some_inj.mp heq⟩, fun heq => congrArg some heq.2⟩
    · exact ⟨nofun, fun heq => absurd heq.1 h⟩
  constructor
  · intro hsettled k v k' v' hk hk' hlisted hlisted' hne hlow hhigh
    have hrows : row k v ≠ row k' v' := fun hrows => hne (hrow k v k' v' hk hk' hrows)
    have hcut := hsettled _ (mem_found.mpr ⟨k, v, hk, hfound.mpr ⟨hlisted, rfl⟩⟩) _
      (mem_found.mpr ⟨k', v', hk', hfound.mpr ⟨hlisted', rfl⟩⟩) hrows hhigh hlow
    rw [countP_found m hf] at hcut
    exact hcut
  · intro hties a ha b hb hab hhigh hlow
    obtain ⟨k, v, hk, hfa⟩ := mem_found.mp ha
    obtain ⟨k', v', hk', hfb⟩ := mem_found.mp hb
    obtain ⟨hlisted, rfl⟩ := hfound.mp hfa
    obtain ⟨hlisted', rfl⟩ := hfound.mp hfb
    have hne : k ≠ k' := by
      rintro rfl
      rw [Option.some_inj.mp (hk.symm.trans hk')] at hab
      exact hab rfl
    rw [countP_found m hf]
    exact hties k v k' v' hk hk' hlisted hlisted' hne hlow hhigh

end FinMap
