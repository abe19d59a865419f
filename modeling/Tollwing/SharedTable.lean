/-
Draining a shared table.

A reader takes the entries out of a table that others keep changing.  One take reads an
entry and deletes it, atomically; between two takes the others do what they like.  This
file has the loops by which a reader drains such a table, for any table and any others,
and says which takes each loop comes to:

* `SharedTable.drain_fillSteps` — a batched call, which stops when the reader's buffers
  are full;
* `Buffers.read_write` — what is read back from buffers that are flat and used again is
  what the call put there;
* `SharedTable.tryKey` — a single key: taken, or, where that call fails, read and then
  deleted, whatever the others add in between (`SharedTable.Stored.tryKey_eq`);
* `SharedTable.sum_drain` — while the others rest, every entry is taken once or left, and
  `SharedTable.drain_of_covers` says that none is left once every key was visited.
-/
import Mathlib.Data.List.OfFn
import Tollwing.FinMap

/-- A table inside a state that others change, too. -/
structure SharedTable (S E κ ν : Type*) [DecidableEq κ] where
  other : S → E → S
  table : S → FinMap κ ν
  erase : S → κ → S
  table_erase : ∀ s k, table (erase s k) = (table s).erase k

/-- One step of a drain. -/
inductive DrainStep (E κ : Type*)
  | other (e : E)
  | take (k : κ)

/-- What the others do before a key is looked at, and the key. -/
structure Visit (E κ : Type*) where
  before : List E
  key : κ

/-- A key that the reader tries, and whether the call that reads and deletes fails for
another reason than that there is no entry.  `between` comes after a failed call's
separate read. -/
structure KeyTry (E κ : Type*) extends Visit E κ where
  fails : Bool := false
  between : List E := []

/-- The steps that a try comes to when its call does not fail. -/
def KeyTry.steps {E κ : Type*} (t : KeyTry E κ) : List (DrainStep E κ) :=
  t.before.map .other ++ [.take t.key]

/-- What happens between a try's read and its deletion. -/
def KeyTry.gap {E κ : Type*} (t : KeyTry E κ) : List E := if t.fails then t.between else []

namespace SharedTable

variable {S E κ ν : Type*} [DecidableEq κ] (T : SharedTable S E κ ν)

/-! ### Takes -/

/-- Read an entry and delete it, if it is there. -/
def take (s : S) (k : κ) : S × List (κ × ν) :=
  match (T.table s).lookup k with
  | none => (s, [])
  | some v => (T.erase s k, [(k, v)])

def step (s : S) : DrainStep E κ → S × List (κ × ν)
  | .other e => (T.other s e, [])
  | .take k => T.take s k

/-- The state after a run and the entries that were taken along it. -/
def drain : S → List (DrainStep E κ) → S × List (κ × ν)
  | s, [] => (s, [])
  | s, e :: steps =>
    let (s, taken) := T.step s e
    let (s, rest) := drain s steps
    (s, taken ++ rest)

theorem drain_cons (s : S) (e : DrainStep E κ) (steps : List (DrainStep E κ)) :
    T.drain s (e :: steps) = ((T.drain (T.step s e).1 steps).1,
      (T.step s e).2 ++ (T.drain (T.step s e).1 steps).2) := rfl

theorem drain_append (s : S) (steps steps' : List (DrainStep E κ)) :
    T.drain s (steps ++ steps') = ((T.drain (T.drain s steps).1 steps').1,
      (T.drain s steps).2 ++ (T.drain (T.drain s steps).1 steps').2) := by
  induction steps generalizing s with
  | nil => rfl
  | cons e steps ih =>
    rw [List.cons_append, drain_cons, ih, drain_cons, List.append_assoc]

theorem drain_others (s : S) (es : List E) :
    T.drain s (es.map .other) = (es.foldl T.other s, []) := by
  induction es generalizing s with
  | nil => rfl
  | cons e es ih =>
    rw [List.map_cons, drain_cons, step, ih]
    rfl

/-- What the others and a deletion keep, a drain keeps. -/
theorem drain_inv (Inv : S → Prop) (hother : ∀ s e, Inv s → Inv (T.other s e))
    (herase : ∀ s k, Inv s → Inv (T.erase s k)) {s : S} (hs : Inv s)
    (steps : List (DrainStep E κ)) : Inv (T.drain s steps).1 := by
  induction steps generalizing s with
  | nil => exact hs
  | cons e steps ih =>
    refine ih ?_
    cases e with
    | other e => exact hother s e hs
    | take k =>
      show Inv (T.take s k).1
      rw [take]
      cases (T.table s).lookup k with
      | none => exact hs
      | some v => exact herase s k hs

/-- What the others do, and then a take. -/
theorem drain_visit (s : S) (es : List E) (k : κ) :
    T.drain s (es.map .other ++ [.take k]) = T.take (es.foldl T.other s) k := by
  rw [drain_append, drain_others, List.nil_append, drain_cons]
  show ((T.take _ k).1, (T.take _ k).2 ++ []) = _
  rw [List.append_nil]

/-! ### Batches -/

/-- One batched call: it visits keys and takes what is there until `room` entries are
taken. -/
def fill : ℕ → S → List (Visit E κ) → S × List (κ × ν)
  | 0, s, _ => (s, [])
  | _ + 1, s, [] => (s, [])
  | room + 1, s, v :: visits =>
    let s := v.before.foldl T.other s
    match (T.table s).lookup v.key with
    | none => fill (room + 1) s visits
    | some x =>
      let (s, rest) := fill room (T.erase s v.key) visits
      (s, (v.key, x) :: rest)

/-- The steps that a batched call comes to. -/
def fillSteps : ℕ → S → List (Visit E κ) → List (DrainStep E κ)
  | 0, _, _ => []
  | _ + 1, _, [] => []
  | room + 1, s, v :: visits =>
    let s := v.before.foldl T.other s
    v.before.map .other ++ [.take v.key] ++
      match (T.table s).lookup v.key with
      | none => fillSteps (room + 1) s visits
      | some _ => fillSteps room (T.erase s v.key) visits

/-- **A batched call is a run of takes.** -/
theorem drain_fillSteps (room : ℕ) (s : S) (visits : List (Visit E κ)) :
    T.drain s (T.fillSteps room s visits) = T.fill room s visits := by
  induction visits generalizing room s with
  | nil => cases room <;> rfl
  | cons v visits ih =>
    cases room with
    | zero => rfl
    | succ room =>
      rw [fillSteps, drain_append, drain_visit, take, fill]
      cases (T.table (v.before.foldl T.other s)).lookup v.key with
      | none =>
        dsimp only
        rw [ih, List.nil_append]
      | some x =>
        dsimp only
        rw [ih, List.singleton_append]

/-- A batched call, what the others do after it, and the rest of a run. -/
theorem drain_call (room : ℕ) (s : S) (visits : List (Visit E κ)) (es : List E)
    (steps : List (DrainStep E κ)) :
    let filled := T.fill room s visits
    let rest := T.drain (es.foldl T.other filled.1) steps
    T.drain s (T.fillSteps room s visits ++ es.map .other ++ steps)
      = (rest.1, filled.2 ++ rest.2) := by
  rw [List.append_assoc, drain_append, drain_fillSteps, drain_append, drain_others]
  exact rfl

/-- It takes no more than there is room for. -/
theorem length_fill_le (room : ℕ) (s : S) (visits : List (Visit E κ)) :
    (T.fill room s visits).2.length ≤ room := by
  induction visits generalizing room s with
  | nil => cases room <;> exact Nat.zero_le _
  | cons v visits ih =>
    cases room with
    | zero => exact le_rfl
    | succ room =>
      rw [fill]
      cases (T.table (v.before.foldl T.other s)).lookup v.key with
      | none => exact ih (room + 1) _
      | some x => exact Nat.succ_le_succ (ih room _)

/-! ### Single keys -/

/-- Try one key.  Where the call fails, the entry is read and then deleted, whatever has
become of it in between. -/
def tryKey (s : S) (t : KeyTry E κ) : S × List (κ × ν) :=
  let s := t.before.foldl T.other s
  if t.fails then
    (T.erase (t.between.foldl T.other s) t.key,
      (((T.table s).lookup t.key).map fun v => (t.key, v)).toList)
  else T.take s t.key

def tryKeys : S → List (KeyTry E κ) → S × List (κ × ν)
  | s, [] => (s, [])
  | s, t :: tries =>
    let (s, taken) := T.tryKey s t
    let (s, rest) := tryKeys s tries
    (s, taken ++ rest)

/-- **Where no call fails, trying keys is a run of takes.** -/
theorem drain_tries (s : S) {tries : List (KeyTry E κ)} (h : ∀ t ∈ tries, t.fails = false) :
    T.drain s (tries.flatMap KeyTry.steps) = T.tryKeys s tries := by
  induction tries generalizing s with
  | nil => rfl
  | cons t tries ih =>
    have htry : T.tryKey s t = T.take (t.before.foldl T.other s) t.key := by
      rw [tryKey, h t List.mem_cons_self]
      rfl
    rw [List.flatMap_cons, drain_append, KeyTry.steps, drain_visit, tryKeys, htry,
      ih _ fun t' ht' => h t' (List.mem_cons_of_mem t ht')]

/-! ### While the others rest -/

/-- Every entry is taken once or left in the table. -/
theorem sum_drain {M : Type*} [AddCommMonoid M] (f : κ → ν → M) (s : S) (ks : List κ) :
    ((T.drain s (ks.map .take)).2.map fun e => f e.1 e.2).sum
        + FinMap.sum (T.table (T.drain s (ks.map .take)).1) f
      = FinMap.sum (T.table s) f := by
  induction ks generalizing s with
  | nil => exact zero_add _
  | cons k ks ih =>
    rw [List.map_cons, drain_cons, step, List.map_append, List.sum_append, add_assoc, ih, take]
    cases hv : (T.table s).lookup k with
    | none => exact zero_add _
    | some v =>
      rw [T.table_erase, FinMap.sum_eq_add_erase hv]
      exact congrArg (· + _) (add_zero _)

/-- What is left are the entries whose keys were not visited. -/
theorem lookup_drain (s : S) (ks : List κ) (k : κ) :
    (T.table (T.drain s (ks.map .take)).1).lookup k
      = if k ∈ ks then none else (T.table s).lookup k := by
  induction ks generalizing s with
  | nil => rfl
  | cons k' ks ih =>
    rw [List.map_cons, drain_cons]
    show (T.table (T.drain (T.take s k').1 (ks.map .take)).1).lookup k = _
    rw [ih]
    have htake : (T.table (T.take s k').1).lookup k
        = if k = k' then none else (T.table s).lookup k := by
      rw [take]
      cases hv : (T.table s).lookup k' with
      | none =>
        split_ifs with hk
        · rw [hk]
          exact hv
        · rfl
      | some v =>
        dsimp only
        rw [T.table_erase, FinMap.lookup_erase_ite]
    rw [htake]
    by_cases hks : k ∈ ks
    · rw [if_pos hks, if_pos (List.mem_cons_of_mem k' hks)]
    · rw [if_neg hks]
      exact if_congr (by simp [hks]) rfl rfl

/-- Every key is visited, so every entry is taken, and none is left. -/
theorem drain_of_covers (s : S) (ks : List κ) (h : ∀ k ∈ T.table s, k ∈ ks) :
    ((T.drain s (ks.map .take)).2 : Multiset (κ × ν))
        = FinMap.sum (T.table s) (fun k v => ({(k, v)} : Multiset (κ × ν))) ∧
      T.table (T.drain s (ks.map .take)).1 = ∅ := by
  have hempty : T.table (T.drain s (ks.map .take)).1 = ∅ := by
    refine Finmap.ext_lookup fun k => ?_
    rw [lookup_drain, Finmap.lookup_empty]
    split_ifs with hk
    · rfl
    · exact Finmap.lookup_eq_none.mpr fun hmem => hk (h k hmem)
  have hsingles : ∀ taken : List (κ × ν),
      (taken.map fun e => ({(e.1, e.2)} : Multiset (κ × ν))).sum = taken := by
    intro taken
    induction taken with
    | nil => rfl
    | cons e taken ih =>
      rw [List.map_cons, List.sum_cons, ih]
      rfl
  have hsum := T.sum_drain (fun k v => ({(k, v)} : Multiset (κ × ν))) s ks
  rw [hempty, hsingles] at hsum
  exact ⟨(add_zero _).symm.trans hsum, hempty⟩

/-- The state beside the table is left alone: `put` writes the table. -/
structure Stored (put : S → FinMap κ ν → S) : Prop where
  erase : ∀ s k, T.erase s k = put s ((T.table s).erase k)
  put_put : ∀ s m m', put (put s m) m' = put s m'
  put_table : ∀ s, put s (T.table s) = s

namespace Stored

variable {T} {put : S → FinMap κ ν → S}

/-- Deleting an entry that is not there does nothing. -/
theorem take_eq (h : T.Stored put) (s : S) (k : κ) :
    T.take s k = (T.erase s k, (((T.table s).lookup k).map fun v => (k, v)).toList) := by
  rw [SharedTable.take]
  cases hv : (T.table s).lookup k with
  | none =>
    rw [h.erase, FinMap.erase_of_lookup_none hv, h.put_table]
    rfl
  | some v => rfl

theorem take (h : T.Stored put) (s : S) (k : κ) :
    (T.take s k).1 = put s (T.table (T.take s k).1) := by
  rw [h.take_eq, T.table_erase, h.erase]

/-- A drain changes the table alone. -/
theorem drain (h : T.Stored put) (s : S) (ks : List κ) :
    (T.drain s (ks.map .take)).1 = put s (T.table (T.drain s (ks.map .take)).1) := by
  induction ks generalizing s with
  | nil => exact (h.put_table s).symm
  | cons k ks ih =>
    rw [List.map_cons, drain_cons]
    show (T.drain (T.take s k).1 (ks.map .take)).1
      = put s (T.table (T.drain (T.take s k).1 (ks.map .take)).1)
    have hrest := ih (T.take s k).1
    rw [h.take s k, h.put_put, ← h.take s k] at hrest
    exact hrest

/-- A try reads its entry, and deletes it after what happens in between. -/
theorem tryKey_eq (h : T.Stored put) (s : S) (t : KeyTry E κ) :
    T.tryKey s t
      = (T.erase (t.gap.foldl T.other (t.before.foldl T.other s)) t.key,
          (((T.table (t.before.foldl T.other s)).lookup t.key).map
            fun v => (t.key, v)).toList) := by
  rw [SharedTable.tryKey, KeyTry.gap]
  cases t.fails with
  | true => rfl
  | false => exact h.take_eq (t.before.foldl T.other s) t.key

/-- What the others and a deletion keep, the tries keep. -/
theorem tryKeys_inv (h : T.Stored put) (Inv : S → Prop)
    (hother : ∀ s e, Inv s → Inv (T.other s e)) (herase : ∀ s k, Inv s → Inv (T.erase s k)) {s : S}
    (hs : Inv s) (tries : List (KeyTry E κ)) : Inv (T.tryKeys s tries).1 := by
  have hothers : ∀ (es : List E) {s : S}, Inv s → Inv (es.foldl T.other s) := by
    intro es
    induction es with
    | nil => exact id
    | cons e es ih => exact fun hs => ih (hother _ e hs)
  induction tries generalizing s with
  | nil => exact hs
  | cons t tries ih =>
    refine ih ?_
    show Inv (T.tryKey s t).1
    rw [h.tryKey_eq]
    exact herase _ t.key (hothers t.gap (hothers t.before hs))

/-- While the others rest, a failed call does as well as another. -/
theorem tryKey (h : T.Stored put) (s : S) {t : KeyTry E κ} (hbefore : t.before = [])
    (hbetween : t.between = []) : T.tryKey s t = T.take s t.key := by
  have hgap : t.gap = [] := by simp [KeyTry.gap, hbetween]
  rw [h.tryKey_eq, hbefore, hgap, h.take_eq]
  rfl

theorem tryKeys (h : T.Stored put) (s : S) {tries : List (KeyTry E κ)}
    (hrest : ∀ t ∈ tries, t.before = [] ∧ t.between = []) :
    T.tryKeys s tries = T.drain s ((tries.map fun t => t.key).map .take) := by
  induction tries generalizing s with
  | nil => rfl
  | cons t tries ih =>
    obtain ⟨hbefore, hbetween⟩ := hrest t List.mem_cons_self
    rw [SharedTable.tryKeys, h.tryKey s hbefore hbetween, List.map_cons, List.map_cons, drain_cons,
      ← ih _ fun t' ht' => hrest t' (List.mem_cons_of_mem t ht')]
    rfl

end Stored

/-- The steps of a batched call while the others rest. -/
theorem fillSteps_quiet (room : ℕ) (s : S) {visits : List (Visit E κ)}
    (h : ∀ v ∈ visits, v.before = []) :
    ∃ ks : List κ, T.fillSteps room s visits = ks.map .take := by
  induction visits generalizing room s with
  | nil => cases room <;> exact ⟨[], rfl⟩
  | cons v visits ih =>
    cases room with
    | zero => exact ⟨[], rfl⟩
    | succ room =>
      have hrest : ∀ v' ∈ visits, v'.before = [] := fun v' hv' =>
        h v' (List.mem_cons_of_mem v hv')
      rw [fillSteps, h v List.mem_cons_self]
      dsimp only [List.foldl_nil]
      cases (T.table s).lookup v.key with
      | none =>
        obtain ⟨ks, hks⟩ := ih (room + 1) s hrest
        exact ⟨v.key :: ks, congrArg (DrainStep.take v.key :: ·) hks⟩
      | some x =>
        obtain ⟨ks, hks⟩ := ih room (T.erase s v.key) hrest
        exact ⟨v.key :: ks, congrArg (DrainStep.take v.key :: ·) hks⟩

end SharedTable

/-! ### Flat buffers -/

/-- The buffers of a reader: a key a slot, and for every slot as many values as there are
parts of an entry, all in one list. -/
structure Buffers (κ μ : Type) where
  keys : List κ
  values : List μ

namespace Buffers

variable {κ μ : Type} {n : ℕ}

/-- A batched call overwrites the first slots; the others keep what they held. -/
def write (b : Buffers κ μ) (out : List (κ × (Fin n → μ))) : Buffers κ μ :=
  { keys := out.map Prod.fst ++ b.keys.drop out.length
    values := out.flatMap (fun e => List.ofFn e.2) ++ b.values.drop (out.length * n) }

/-- `xs[lo:hi]`; a bound that is too large panics. -/
def slice (xs : List μ) (lo hi : ℕ) : Option (List μ) :=
  if lo ≤ hi ∧ hi ≤ xs.length then some ((xs.drop lo).take (hi - lo)) else none

/-- The key and the values of slot `i`. -/
def slot (n : ℕ) (b : Buffers κ μ) (i : ℕ) : Option (κ × List μ) := do
  let key ← b.keys[i]?
  let values ← slice b.values (i * n) ((i + 1) * n)
  return (key, values)

/-- The first `count` slots. -/
def read (n : ℕ) (b : Buffers κ μ) (count : ℕ) : Option (List (κ × List μ)) :=
  (List.range count).mapM (b.slot n)

/-- The buffers have room for `size` entries of `n` parts. -/
def Sized (n size : ℕ) (b : Buffers κ μ) : Prop :=
  b.keys.length = size ∧ b.values.length = size * n

theorem length_flatMap_ofFn (out : List (κ × (Fin n → μ))) :
    (out.flatMap fun e => List.ofFn e.2).length = out.length * n := by
  induction out with
  | nil => rw [List.flatMap_nil, List.length_nil, List.length_nil, Nat.zero_mul]
  | cons e out ih =>
    rw [List.flatMap_cons, List.length_append, List.length_ofFn, ih, List.length_cons,
      Nat.succ_mul, Nat.add_comm]

/-- Writing keeps the size of the buffers. -/
theorem Sized.write {size : ℕ} {b : Buffers κ μ} (h : b.Sized n size)
    {out : List (κ × (Fin n → μ))} (hout : out.length ≤ size) : (b.write out).Sized n size := by
  obtain ⟨hkeys, hvalues⟩ := h
  have hmul : out.length * n ≤ size * n := Nat.mul_le_mul_right n hout
  constructor
  · rw [Buffers.write, List.length_append, List.length_map, List.length_drop]
    omega
  · rw [Buffers.write, List.length_append, length_flatMap_ofFn, List.length_drop]
    omega

/-- The values of entry `i` lie in slot `i`. -/
theorem take_drop_flatMap {out : List (κ × (Fin n → μ))} {i : ℕ} (h : i < out.length)
    (rest : List μ) :
    (((out.flatMap fun e => List.ofFn e.2) ++ rest).drop (i * n)).take n
      = List.ofFn (out[i].2) := by
  induction out generalizing i with
  | nil => exact absurd h (Nat.not_lt_zero i)
  | cons e out ih =>
    rw [List.flatMap_cons, List.append_assoc]
    have hlength : (List.ofFn e.2).length = n := List.length_ofFn
    cases i with
    | zero =>
      rw [Nat.zero_mul, List.drop_zero]
      exact List.take_left' hlength
    | succ i =>
      rw [Nat.succ_mul, Nat.add_comm, ← List.drop_drop, List.drop_left' hlength]
      exact ih (Nat.lt_of_succ_lt_succ h)

theorem slot_write (b : Buffers κ μ) {out : List (κ × (Fin n → μ))} {i : ℕ}
    (h : i < out.length) : (b.write out).slot n i = some (out[i].1, List.ofFn out[i].2) := by
  have hkey : (b.write out).keys[i]? = some out[i].1 := by
    rw [write, List.getElem?_append_left (by rwa [List.length_map]), List.getElem?_map,
      List.getElem?_eq_getElem h]
    rfl
  have hbound : (i + 1) * n ≤ (b.write out).values.length := by
    rw [write, List.length_append, length_flatMap_ofFn]
    exact (Nat.mul_le_mul_right n h).trans (Nat.le_add_right _ _)
  have hwidth : (i + 1) * n - i * n = n := by
    rw [Nat.succ_mul]
    omega
  rw [slot, hkey, slice, if_pos ⟨Nat.mul_le_mul_right n (Nat.le_succ i), hbound⟩, hwidth]
  exact congrArg (fun values => some (out[i].1, values)) (take_drop_flatMap h _)

theorem mapM_eq_some {α β : Type} {f : α → Option β} {g : α → β} {l : List α}
    (h : ∀ x ∈ l, f x = some (g x)) : l.mapM f = some (l.map g) := by
  induction l with
  | nil => rfl
  | cons x l ih =>
    rw [List.mapM_cons, h x List.mem_cons_self, ih fun y hy => h y (List.mem_cons_of_mem x hy)]
    rfl

/-- **The reader finds what the call wrote**, whatever the buffers held before. -/
theorem read_write (b : Buffers κ μ) (out : List (κ × (Fin n → μ))) :
    (b.write out).read n out.length = some (out.map fun e => (e.1, List.ofFn e.2)) := by
  have hslots : (List.finRange out.length).mapM (fun i => (b.write out).slot n i.val)
      = some ((List.finRange out.length).map fun i => (out[i].1, List.ofFn out[i].2)) :=
    mapM_eq_some fun i _ => b.slot_write i.isLt
  have hentries : (List.finRange out.length).map (fun i => (out[i].1, List.ofFn out[i].2))
      = out.map fun e => (e.1, List.ofFn e.2) := by
    conv_rhs => rw [← List.map_getElem_finRange out, List.map_map]
    rfl
  rw [read, ← List.map_coe_finRange_eq_range, List.mapM_map]
  exact hslots.trans (congrArg some hentries)

end Buffers
