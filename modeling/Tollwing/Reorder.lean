/-
Nested lists up to order.

A program that ranges over maps of maps meets their entries in an order that the
runtime chooses anew at every level.  With a map listed in the order of one
iteration, `Reordered r` relates two lists that differ in their order and, entry
by entry, by `r`.

* `Reordered.flatMap` — flattened one level, they are permutations of each
  other;
* `exists_last` — every entry comes last in some order;
* `lastValue_perm` — a value that the last entry decides does not depend on the
  order if the entries agree on it.
-/
import Mathlib.Data.List.Perm.Basic
import Tollwing.History

namespace Reorder

variable {α β ν : Type*}

/-- The lists agree up to their order and, entry by entry, up to `r`. -/
def Reordered (r : α → α → Prop) : List α → List α → Prop :=
  Relation.Comp List.Perm (List.Forall₂ r)

theorem Reordered.of_perm {r : α → α → Prop} (hr : ∀ a, r a a) {l l' : List α}
    (h : l.Perm l') : Reordered r l l' :=
  ⟨l', h, List.forall₂_same.mpr fun a _ => hr a⟩

/-- Lists of lists that agree up to order at both levels are permutations of
each other when flattened. -/
theorem Reordered.flatMap {r : α → α → Prop} {f : α → List β}
    (hf : ∀ a a', r a a' → (f a).Perm (f a')) {l l' : List α} (h : Reordered r l l') :
    (l.flatMap f).Perm (l'.flatMap f) := by
  obtain ⟨m, hperm, hrel⟩ := h
  refine (hperm.flatMap_right f).trans ?_
  clear hperm
  induction hrel with
  | nil => exact List.Perm.refl _
  | cons ha _ ih =>
    rw [List.flatMap_cons, List.flatMap_cons]
    exact (hf _ _ ha).append ih

/-- Every entry comes last in some order. -/
theorem exists_last {a : α} {l : List α} (h : a ∈ l) : ∃ s, l.Perm (s ++ [a]) := by
  obtain ⟨s, t, rfl⟩ := List.append_of_mem h
  refine ⟨s ++ t, ?_⟩
  rw [List.append_assoc]
  exact (List.perm_append_singleton a t).symm.append_left s

/-- The last value set is the same in every order if all the values agree. -/
theorem lastValue_perm {setting : α → Option ν} {l l' : List α} (hperm : l.Perm l')
    (hagree : ∀ x ∈ l, ∀ y ∈ l, ∀ v ∈ setting x, ∀ w ∈ setting y, v = w)
    (d : ν) : History.lastValue setting d l = History.lastValue setting d l' := by
  rw [History.lastValue, History.lastValue]
  congr 1
  cases hl : l.reverse.findSome? setting with
  | none =>
    -- no entry sets the value, in either order
    refine (List.findSome?_eq_none_iff.mpr fun x hx => ?_).symm
    refine List.findSome?_eq_none_iff.mp hl x (List.mem_reverse.mpr ?_)
    exact hperm.mem_iff.mpr (List.mem_reverse.mp hx)
  | some v =>
    obtain ⟨x, hx, hxv⟩ := List.exists_of_findSome?_eq_some hl
    have hxl : x ∈ l := List.mem_reverse.mp hx
    cases hl' : l'.reverse.findSome? setting with
    | none =>
      have hnone := List.findSome?_eq_none_iff.mp hl' x
        (List.mem_reverse.mpr (hperm.mem_iff.mp hxl))
      rw [hxv] at hnone
      cases hnone
    | some w =>
      obtain ⟨y, hy, hyw⟩ := List.exists_of_findSome?_eq_some hl'
      have hyl : y ∈ l := hperm.mem_iff.mpr (List.mem_reverse.mp hy)
      rw [hagree x hxl y hyl v hxv w hyw]

/-- The entry that comes last decides. -/
theorem lastValue_last {setting : α → Option ν} {x : α} {v : ν} (hx : setting x = some v) (d : ν)
    (l : List α) : History.lastValue setting d (l ++ [x]) = v := by
  rw [History.lastValue_concat, hx]
  rfl

end Reorder
