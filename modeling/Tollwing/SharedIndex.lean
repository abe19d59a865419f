/-
An index shared by owners.

The index maps a key to a list of values, several owners put entries into it,
and each owner's entries are on record so that they can be taken out again.
`Balanced` says that the index is, key by key and as a multiset, the sum of
what is on record, and that no key holds an empty list.

* `Balanced.withdraw` — taking out what an owner has on record, one instance
  an entry, leaves the index balanced without the owner;
* `Balanced.deposit` — putting in the entries of an owner without a record
  leaves it balanced with them.
-/
import Tollwing.FinMap

namespace SharedIndex

variable {κ ν ω α : Type*} [DecidableEq κ]

/-- Add a value at a key. -/
def add (m : FinMap κ (List ν)) (k : κ) (v : ν) : FinMap κ (List ν) :=
  m.insert k ((m.lookup k).getD [] ++ [v])

/-- What the index holds at a key. -/
def served (m : FinMap κ (List ν)) (k : κ) : Multiset ν := ((m.lookup k).getD [] : List ν)

/-- No key holds an empty list. -/
def Tidy (m : FinMap κ (List ν)) : Prop := ∀ k, m.lookup k ≠ some []

variable (key : α → κ) (val : α → ν)

/-- What a list of entries has at a key. -/
def entriesAt (es : List α) (k : κ) : Multiset ν :=
  ((es.filter fun e => key e = k).map val : List ν)

theorem entriesAt_cons (e : α) (es : List α) (k : κ) :
    entriesAt key val (e :: es) k
      = (if key e = k then {val e} else 0) + entriesAt key val es k := by
  by_cases h : key e = k
  · rw [entriesAt, List.filter_cons_of_pos (by simpa using h), if_pos h, Multiset.singleton_add]
    rfl
  · rw [entriesAt, List.filter_cons_of_neg (by simpa using h), if_neg h, zero_add]
    rfl

/-! ### Adding -/

theorem served_add (m : FinMap κ (List ν)) (k : κ) (v : ν) (k' : κ) :
    served (add m k v) k' = served m k' + if k = k' then {v} else 0 := by
  rw [served, add, FinMap.lookup_insert_ite]
  by_cases h : k' = k
  · rw [if_pos h, if_pos h.symm, h, served]
    exact (Multiset.coe_add _ _).symm
  · rw [if_neg h, if_neg (Ne.symm h), add_zero, served]

theorem Tidy.add {m : FinMap κ (List ν)} (h : Tidy m) (k : κ) (v : ν) :
    Tidy (SharedIndex.add m k v) := by
  intro k'
  rw [SharedIndex.add, FinMap.lookup_insert_ite]
  split_ifs
  · simp
  · exact h k'

theorem served_foldl_add (es : List α) (m : FinMap κ (List ν)) (k : κ) :
    served (es.foldl (fun m e => add m (key e) (val e)) m) k
      = served m k + entriesAt key val es k := by
  induction es generalizing m with
  | nil => exact (add_zero _).symm
  | cons e es ih => rw [List.foldl_cons, ih, served_add, entriesAt_cons, add_assoc]

/-- What comes first at a key stays first when entries are added. -/
theorem head_foldl_add {m : FinMap κ (List ν)} {k : κ} {v : ν}
    (h : ((m.lookup k).getD []).head? = some v) (es : List α) :
    (((es.foldl (fun m e => add m (key e) (val e)) m).lookup k).getD []).head? = some v := by
  induction es generalizing m with
  | nil => exact h
  | cons e es ih =>
    refine ih ?_
    show (((add m (key e) (val e)).lookup k).getD []).head? = some v
    rw [add, FinMap.lookup_insert_ite]
    split_ifs with hk
    · rw [hk] at h
      rw [Option.getD_some, List.head?_append, h, Option.some_or]
    · exact h

theorem mem_of_mem_foldl_add {es : List α} {m : FinMap κ (List ν)} {k : κ} {v : ν}
    (h : v ∈ ((es.foldl (fun m e => add m (key e) (val e)) m).lookup k).getD []) :
    v ∈ (m.lookup k).getD [] ∨ ∃ e ∈ es, val e = v := by
  have hserved : v ∈ served (es.foldl (fun m e => add m (key e) (val e)) m) k := h
  rw [served_foldl_add, Multiset.mem_add] at hserved
  refine hserved.imp id fun hes => ?_
  obtain ⟨e, he, rfl⟩ := List.mem_map.mp (Multiset.mem_coe.mp hes)
  exact ⟨e, List.mem_of_mem_filter he, rfl⟩

/-- The index is the sum of what the owners have on record. -/
structure Balanced (m : FinMap κ (List ν)) (owners : FinMap ω (List α)) : Prop where
  served_eq : ∀ k, served m k = owners.sum fun _ es => entriesAt key val es k
  tidy : Tidy m

variable {key val}

theorem balanced_empty : Balanced key val (∅ : FinMap κ (List ν)) (∅ : FinMap ω (List α)) where
  served_eq _ := rfl
  tidy _ := nofun

/-- Without owners the index is empty. -/
theorem Balanced.eq_empty {m : FinMap κ (List ν)} (h : Balanced key val m (∅ : FinMap ω (List α))) :
    m = ∅ := by
  refine Finmap.ext_lookup fun k => ?_
  have hk := h.served_eq k
  rw [served] at hk
  cases hlookup : m.lookup k with
  | none => rfl
  | some vs =>
    rw [hlookup] at hk
    have hnil : vs = [] := Multiset.coe_eq_zero _ |>.mp hk
    exact absurd (hnil ▸ hlookup) (h.tidy k)

variable [DecidableEq ω]

/-- Putting in the entries of an owner without a record. -/
theorem Balanced.deposit {m : FinMap κ (List ν)} {owners : FinMap ω (List α)}
    (h : Balanced key val m owners) {o : ω} (ho : owners.lookup o = none) (es : List α) :
    Balanced key val (es.foldl (fun m e => add m (key e) (val e)) m) (owners.insert o es) where
  served_eq k := by
    rw [served_foldl_add, h.served_eq k, FinMap.sum_insert, FinMap.erase_of_lookup_none ho,
      add_comm]
  tidy := by
    have htidy := h.tidy
    clear h ho
    induction es generalizing m with
    | nil => exact htidy
    | cons e es ih => exact ih (htidy.add (key e) (val e))

/-! ### Removing -/

variable [DecidableEq ν]

/-- Remove one instance of a value at a key, and the key with its last value. -/
def remove (m : FinMap κ (List ν)) (k : κ) (v : ν) : FinMap κ (List ν) :=
  match m.lookup k with
  | none => m
  | some vs =>
    if v ∈ vs then
      if vs.length = 1 then m.erase k else m.insert k (vs.erase v)
    else m

/-- Removing an entry that is there undoes adding it. -/
theorem served_remove {m : FinMap κ (List ν)} {k : κ} {v : ν} {rest : κ → Multiset ν}
    (h : ∀ k', served m k' = (if k = k' then {v} else 0) + rest k') (k' : κ) :
    served (remove m k v) k' = rest k' := by
  have hk := h k
  rw [if_pos rfl, served] at hk
  rw [remove]
  cases hlookup : m.lookup k with
  | none =>
    -- the entry is there, so its key is
    rw [hlookup] at hk
    exact absurd hk.symm (by simp)
  | some vs =>
    rw [hlookup, Option.getD_some] at hk
    have hmem : v ∈ vs := by
      rw [← Multiset.mem_coe, hk]
      exact Multiset.mem_add.mpr (Or.inl (Multiset.mem_singleton_self v))
    have hrest : rest k = ((vs.erase v : List ν) : Multiset ν) := by
      rw [← Multiset.coe_erase, hk, Multiset.singleton_add, Multiset.erase_cons_head]
    have hother : k' ≠ k → served m k' = rest k' := fun hne => by
      rw [h k', if_neg (Ne.symm hne), zero_add]
    simp only [if_pos hmem]
    split_ifs with hlen
    · rw [served, FinMap.lookup_erase_ite]
      split_ifs with heq
      · have hnil : vs.erase v = [] := List.eq_nil_of_length_eq_zero (by
          rw [List.length_erase_of_mem hmem, hlen])
        rw [heq, hrest, hnil]
        rfl
      · exact hother heq
    · rw [served, FinMap.lookup_insert_ite]
      split_ifs with heq
      · rw [heq, hrest]
        rfl
      · exact hother heq

/-- Removing takes values away only. -/
theorem mem_of_mem_remove {m : FinMap κ (List ν)} {k : κ} {v : ν} {k' : κ} {v' : ν}
    (h : v' ∈ ((remove m k v).lookup k').getD []) : v' ∈ (m.lookup k').getD [] := by
  rw [remove] at h
  cases hlookup : m.lookup k with
  | none => rwa [hlookup] at h
  | some vs =>
    rw [hlookup] at h
    dsimp only at h
    split_ifs at h
    · rw [FinMap.lookup_erase_ite] at h
      split_ifs at h
      · exact absurd h List.not_mem_nil
      · exact h
    · rw [FinMap.lookup_insert_ite] at h
      split_ifs at h with heq
      · rw [heq, hlookup]
        exact List.mem_of_mem_erase h
      · exact h
    · exact h

theorem mem_of_mem_foldl_remove {es : List α} {m : FinMap κ (List ν)} {k : κ} {v : ν}
    (h : v ∈ ((es.foldl (fun m e => remove m (key e) (val e)) m).lookup k).getD []) :
    v ∈ (m.lookup k).getD [] := by
  induction es generalizing m with
  | nil => exact h
  | cons e es ih => exact mem_of_mem_remove (ih h)

theorem Tidy.remove {m : FinMap κ (List ν)} (h : Tidy m) (k : κ) (v : ν) :
    Tidy (SharedIndex.remove m k v) := by
  rw [SharedIndex.remove]
  cases hlookup : m.lookup k with
  | none => exact h
  | some vs =>
    dsimp only
    split_ifs with hmem hlen
    · intro k'
      rw [FinMap.lookup_erase_ite]
      split_ifs
      · nofun
      · exact h k'
    · intro k'
      rw [FinMap.lookup_insert_ite]
      split_ifs
      · -- two values or more leave one
        intro hnil
        have hlength := congrArg List.length (Option.some.inj hnil)
        rw [List.length_erase_of_mem hmem, List.length_nil] at hlength
        have := List.length_pos_of_mem hmem
        omega
      · exact h k'
    · exact h

theorem served_foldl_remove {es : List α} {m : FinMap κ (List ν)} {rest : κ → Multiset ν}
    (h : ∀ k, served m k = entriesAt key val es k + rest k) (k : κ) :
    served (es.foldl (fun m e => remove m (key e) (val e)) m) k = rest k := by
  induction es generalizing m with
  | nil => exact (h k).trans (zero_add _)
  | cons e es ih =>
    have hstep : ∀ k, served (remove m (key e) (val e)) k = entriesAt key val es k + rest k :=
      served_remove fun k' => by rw [h k', entriesAt_cons, add_assoc]
    exact ih hstep

/-- Taking out what an owner has on record. -/
theorem Balanced.withdraw {m : FinMap κ (List ν)} {owners : FinMap ω (List α)}
    (h : Balanced key val m owners) {o : ω} {es : List α} (ho : owners.lookup o = some es) :
    Balanced key val (es.foldl (fun m e => remove m (key e) (val e)) m) (owners.erase o) where
  served_eq := served_foldl_remove fun k => by
    rw [h.served_eq k, FinMap.sum_eq_add_erase ho]
  tidy := by
    have htidy := h.tidy
    clear h ho
    induction es generalizing m with
    | nil => exact htidy
    | cons e es ih => exact ih (htidy.remove (key e) (val e))

end SharedIndex
