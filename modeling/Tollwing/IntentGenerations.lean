/-
The intent cache as a bounded map (`pkg/intent/cache.go`).

The cache forgets whole generations, never single values: what it still has of a
connection is the latest it was told, and it forgets nothing before a generation has
been filled once more.

* `IntentCache.Faithful` — sizes, disjoint generations and latest values, kept by every
  operation;
* `IntentCache.Survives` — where an entry is after some more puts;
* `IntentCache.faithful_run` — every sequence of operations.
-/
import Tollwing.History
import Tollwing.IntentCache

/-- One call of the cache. -/
inductive IntentOp
  | put (k : FlowKey) (d : IntentDst)
  | get (k : FlowKey)
  | delete (k : FlowKey)
  deriving DecidableEq

namespace IntentOp

/-- What the call sets a key to: its new value, or that it has none. -/
def setting (k : FlowKey) : IntentOp → Option (Option IntentDst)
  | put k' d => if k' = k then some (some d) else none
  | get _ => none
  | delete k' => if k' = k then some none else none

def isPut : IntentOp → Bool
  | put _ _ => true
  | _ => false

/-- The value of the latest put of the key, none if it was deleted since. -/
def latest (k : FlowKey) (ops : List IntentOp) : Option IntentDst :=
  History.lastValue (setting k) none ops

end IntentOp

namespace IntentCache

/-- `Len`. -/
def len (c : IntentCache) : ℕ := size c.cur + size c.prev

/-- The cache after a call; `get` only reads. -/
def step (c : IntentCache) : IntentOp → IntentCache
  | .put k d => c.put k d
  | .get _ => c
  | .delete k => c.delete k

def run (max : ℤ) (ops : List IntentOp) : IntentCache := ops.foldl step (new max)

/-- Neither generation has more than its entries, they share no key, and their values are
the latest ones. -/
structure Faithful (c : IntentCache) (ops : List IntentOp) : Prop where
  pos : 0 < c.max
  cur_le : size c.cur ≤ c.max
  prev_le : size c.prev ≤ c.max
  apart : ∀ k, c.cur.lookup k ≠ none → c.prev.lookup k = none
  cur_latest : ∀ k d, c.cur.lookup k = some d → IntentOp.latest k ops = some d
  prev_latest : ∀ k d, c.prev.lookup k = some d → IntentOp.latest k ops = some d

variable {c : IntentCache} {ops : List IntentOp}

/-! ### One call -/

/-- A call that sets one key. -/
theorem latest_set {op : IntentOp} {k' : FlowKey} {value : Option IntentDst}
    (hop : ∀ k, op.setting k = if k' = k then some value else none) (k : FlowKey) :
    IntentOp.latest k (ops ++ [op]) = if k = k' then value else IntentOp.latest k ops := by
  rw [IntentOp.latest, History.lastValue_concat, hop]
  by_cases hk : k = k'
  · rw [if_pos hk.symm, if_pos hk]
    rfl
  · rw [if_neg (Ne.symm hk), if_neg hk]
    rfl

theorem latest_put (k k' : FlowKey) (d : IntentDst) :
    IntentOp.latest k (ops ++ [.put k' d])
      = if k = k' then some d else IntentOp.latest k ops :=
  latest_set (fun _ => rfl) k

theorem latest_delete (k k' : FlowKey) :
    IntentOp.latest k (ops ++ [.delete k'])
      = if k = k' then none else IntentOp.latest k ops :=
  latest_set (fun _ => rfl) k

theorem size_erase_le (m : FinMap FlowKey IntentDst) (k : FlowKey) : size (m.erase k) ≤ size m :=
  FinMap.card_erase_le m k

theorem size_insert_le (m : FinMap FlowKey IntentDst) (k : FlowKey) (d : IntentDst) :
    size (m.insert k d) ≤ size m + 1 := by
  rw [size, FinMap.keys_insert]
  exact Finset.card_insert_le _ _

/-- A full generation is demoted first; what is in neither one any more is forgotten. -/
theorem Faithful.demote (h : Faithful c ops) :
    Faithful { c with prev := c.cur, cur := ∅ } ops where
  pos := h.pos
  cur_le := Nat.zero_le _
  prev_le := h.cur_le
  apart _ hk := absurd rfl hk
  cur_latest _ _ hk := absurd hk nofun
  prev_latest := h.cur_latest

/-- With room, a put leaves the latest value and moves the key to the current
generation. -/
theorem Faithful.insert (h : Faithful c ops) (hroom : size c.cur < c.max) (k : FlowKey)
    (d : IntentDst) :
    Faithful { c with cur := c.cur.insert k d, prev := c.prev.erase k } (ops ++ [.put k d]) where
  pos := h.pos
  cur_le := (size_insert_le c.cur k d).trans hroom
  prev_le := (size_erase_le c.prev k).trans h.prev_le
  apart k' hk' := by
    -- the key itself leaves the previous generation, the others stay where they are
    dsimp only at hk' ⊢
    rw [FinMap.lookup_insert_ite] at hk'
    rw [FinMap.lookup_erase_ite]
    split_ifs at hk' ⊢
    · rfl
    · exact h.apart k' hk'
  cur_latest k' d' hk' := by
    rw [FinMap.lookup_insert_ite] at hk'
    rw [latest_put]
    split_ifs at hk' ⊢
    · exact hk'
    · exact h.cur_latest k' d' hk'
  prev_latest k' d' hk' := by
    rw [FinMap.lookup_erase_ite] at hk'
    rw [latest_put]
    split_ifs at hk' ⊢
    exact h.prev_latest k' d' hk'

theorem Faithful.put (h : Faithful c ops) (k : FlowKey) (d : IntentDst) :
    Faithful (c.put k d) (ops ++ [.put k d]) := by
  rw [IntentCache.put]
  by_cases hfull : c.max ≤ size c.cur
  · rw [if_pos hfull]
    exact h.demote.insert h.pos k d
  · rw [if_neg hfull]
    exact h.insert (not_le.mp hfull) k d

theorem Faithful.delete (h : Faithful c ops) (k : FlowKey) :
    Faithful (c.delete k) (ops ++ [.delete k]) where
  pos := h.pos
  cur_le := (size_erase_le c.cur k).trans h.cur_le
  prev_le := (size_erase_le c.prev k).trans h.prev_le
  apart k' hk' := by
    dsimp only [IntentCache.delete] at hk' ⊢
    rw [FinMap.lookup_erase_ite] at hk' ⊢
    split_ifs at hk' ⊢
    · rfl
    · exact h.apart k' hk'
  cur_latest k' d' hk' := by
    rw [IntentCache.delete, FinMap.lookup_erase_ite] at hk'
    rw [latest_delete]
    split_ifs at hk' ⊢
    exact h.cur_latest k' d' hk'
  prev_latest k' d' hk' := by
    rw [IntentCache.delete, FinMap.lookup_erase_ite] at hk'
    rw [latest_delete]
    split_ifs at hk' ⊢
    exact h.prev_latest k' d' hk'

/-- **One call** keeps the cache faithful. -/
theorem Faithful.step (h : Faithful c ops) (op : IntentOp) :
    Faithful (c.step op) (ops ++ [op]) := by
  cases op with
  | put k d => exact h.put k d
  | get k =>
    have hlatest (k' : FlowKey) :
        IntentOp.latest k' (ops ++ [.get k]) = IntentOp.latest k' ops := by
      rw [IntentOp.latest, History.lastValue_concat]
      rfl
    exact ⟨h.pos, h.cur_le, h.prev_le, h.apart,
      fun k' d hk' => (hlatest k').trans (h.cur_latest k' d hk'),
      fun k' d hk' => (hlatest k').trans (h.prev_latest k' d hk')⟩
  | delete k => exact h.delete k

/-- A faithful cache answers with the latest value or not at all. -/
theorem Faithful.get_eq (h : Faithful c ops) (k : FlowKey) :
    c.get k = none ∨ c.get k = IntentOp.latest k ops := by
  rw [get]
  cases hcur : c.cur.lookup k with
  | some d => exact Or.inr (h.cur_latest k d hcur).symm
  | none =>
    cases hprev : c.prev.lookup k with
    | some d => exact Or.inr (h.prev_latest k d hprev).symm
    | none => exact Or.inl rfl

/-! ### How long an entry survives -/

/-- The key is in the current generation, or in the previous one while the current one
has no more entries than there were puts. -/
def Survives (c : IntentCache) (k : FlowKey) (puts : ℕ) : Prop :=
  c.cur.lookup k ≠ none ∨ c.prev.lookup k ≠ none ∧ size c.cur ≤ puts

theorem Survives.get_ne_none {k : FlowKey} {puts : ℕ} (h : Survives c k puts) :
    c.get k ≠ none := by
  rw [get]
  cases hcur : c.cur.lookup k with
  | some d => exact Option.some_ne_none d
  | none =>
    rcases h with hk | ⟨hk, -⟩
    · exact absurd hcur hk
    · exact hk

theorem survives_put (c : IntentCache) (k : FlowKey) (d : IntentDst) (puts : ℕ) :
    Survives (c.put k d) k puts := by
  left
  rw [put]
  dsimp only
  rw [Finmap.lookup_insert]
  exact Option.some_ne_none d

/-- A put drops an entry of the previous generation only if the current one is full. -/
theorem Survives.put {k : FlowKey} {puts : ℕ} (h : Survives c k puts) (hputs : puts < c.max)
    (k' : FlowKey) (d : IntentDst) : Survives (c.put k' d) k (puts + 1) := by
  by_cases hk : k = k'
  · rw [hk]
    exact survives_put c k' d _
  rw [IntentCache.put, Survives]
  dsimp only
  rw [FinMap.lookup_insert_ite, if_neg hk, FinMap.lookup_erase_ite, if_neg hk]
  by_cases hfull : c.max ≤ size c.cur
  · -- a full generation can not be the one that has filled since the put
    have hcur : c.cur.lookup k ≠ none :=
      h.resolve_right fun hprev => absurd (hfull.trans hprev.2) (not_le.mpr hputs)
    rw [if_pos hfull]
    refine Or.inr ⟨hcur, (size_insert_le _ _ _).trans ?_⟩
    exact Nat.succ_le_succ (Nat.zero_le puts)
  · rw [if_neg hfull]
    rcases h with hcur | ⟨hprev, hsize⟩
    · exact Or.inl hcur
    · exact Or.inr ⟨hprev, (size_insert_le _ _ _).trans (Nat.succ_le_succ hsize)⟩

theorem Survives.delete {k k' : FlowKey} {puts : ℕ} (h : Survives c k puts) (hk : k ≠ k') :
    Survives (c.delete k') k puts := by
  rw [IntentCache.delete, Survives]
  dsimp only
  rw [FinMap.lookup_erase_ite, if_neg hk, FinMap.lookup_erase_ite, if_neg hk]
  rcases h with hcur | ⟨hprev, hsize⟩
  · exact Or.inl hcur
  · exact Or.inr ⟨hprev, (size_erase_le _ _).trans hsize⟩

@[simp] theorem max_step (c : IntentCache) (op : IntentOp) : (c.step op).max = c.max := by
  cases op with
  | put k d => exact c.max_put k d
  | get k => rfl
  | delete k => rfl

/-- With fewer puts than a generation takes, an entry that is not deleted survives. -/
theorem Survives.foldl {k : FlowKey} (later : List IntentOp) :
    ∀ {c : IntentCache} {puts : ℕ}, Survives c k puts → IntentOp.delete k ∉ later →
      puts + later.countP IntentOp.isPut ≤ c.max →
      Survives (later.foldl IntentCache.step c) k (puts + later.countP IntentOp.isPut) := by
  induction later with
  | nil =>
    intro c puts h _ _
    exact h
  | cons op later ih =>
    intro c puts h hkept hfew
    rw [List.foldl_cons]
    have hkept' := fun hdelete => hkept (List.mem_cons_of_mem op hdelete)
    cases op with
    | put k' d =>
      rw [List.countP_cons_of_pos (rfl : (IntentOp.put k' d).isPut = true)] at hfew ⊢
      -- one more put than before, still fewer than a generation takes
      have hroom : puts < c.max := by omega
      have hmax : puts + 1 + later.countP IntentOp.isPut ≤ (c.step (.put k' d)).max := by
        rw [max_step]
        omega
      have hrest := ih (h.put hroom k' d) hkept' hmax
      rwa [add_right_comm, add_assoc] at hrest
    | get k' =>
      rw [List.countP_cons_of_neg (Bool.false_ne_true : ¬(IntentOp.get k').isPut = true)]
        at hfew ⊢
      exact ih h hkept' hfew
    | delete k' =>
      rw [List.countP_cons_of_neg (Bool.false_ne_true : ¬(IntentOp.delete k').isPut = true)]
        at hfew ⊢
      have hk : k ≠ k' := fun hk => hkept (hk ▸ List.mem_cons_self)
      exact ih (h.delete hk) hkept' hfew

/-! ### A run -/

theorem max_pos (max : ℤ) : 0 < (new max).max := by
  rw [new]
  dsimp only
  split_ifs with hmax
  · decide
  · omega

theorem faithful_new (max : ℤ) : Faithful (new max) [] where
  pos := max_pos max
  cur_le := Nat.zero_le _
  prev_le := Nat.zero_le _
  apart _ _ := rfl
  cur_latest _ _ h := absurd h nofun
  prev_latest _ _ h := absurd h nofun

theorem run_append (max : ℤ) (before later : List IntentOp) :
    run max (before ++ later) = later.foldl step (run max before) :=
  List.foldl_append

theorem faithful (max : ℤ) (ops : List IntentOp) : Faithful (run max ops) ops := by
  induction ops using List.reverseRecOn with
  | nil => exact faithful_new max
  | append_singleton ops op ih =>
    rw [run_append]
    exact ih.step op

theorem max_run (max : ℤ) (ops : List IntentOp) : (run max ops).max = (new max).max := by
  induction ops using List.reverseRecOn with
  | nil => rfl
  | append_singleton ops op ih =>
    rw [run_append, List.foldl_cons, List.foldl_nil, max_step]
    exact ih

/-- **The intent cache is a faithful bounded map.**  After any calls it has at most two
generations of entries, no key is in both, a lookup gives the key's latest value or
nothing, and a key that was put and not deleted since is found as long as fewer puts
than a generation takes followed. -/
theorem faithful_run {max : ℕ} (hmax : 1 ≤ max) (ops : List IntentOp) :
    (run max ops).len ≤ 2 * max ∧
      (∀ k, (run max ops).cur.lookup k = none ∨ (run max ops).prev.lookup k = none) ∧
      (∀ k, (run max ops).get k = none ∨ (run max ops).get k = IntentOp.latest k ops) ∧
      ∀ before k d later, ops = before ++ .put k d :: later → .delete k ∉ later →
        later.countP IntentOp.isPut < max → (run max ops).get k ≠ none := by
  have hnew : (new max).max = max := by
    rw [new, if_neg (by omega)]
    exact Int.toNat_natCast max
  have h := faithful max ops
  have hcap : (run max ops).max = max := (max_run max ops).trans hnew
  refine ⟨?_, fun k => ?_, h.get_eq, ?_⟩
  · have hcur := h.cur_le
    have hprev := h.prev_le
    rw [len]
    omega
  · by_cases hk : (run max ops).cur.lookup k = none
    · exact Or.inl hk
    · exact Or.inr (h.apart k hk)
  · rintro before k d later rfl hkept hfew
    -- right after its put the key is in the current generation
    rw [run_append, List.foldl_cons]
    have hput : Survives ((run max before).step (.put k d)) k 0 := survives_put _ k d 0
    refine (Survives.foldl later hput hkept ?_).get_ne_none
    rw [max_step, max_run, hnew]
    omega

/-- The oldest of two entries is demoted by the second and still found. -/
theorem faithful_run_demoted :
    let k : FlowKey := ⟨0x0a000001, 0x0a000002, 40000, 443, 7, 6, 0⟩
    let k' : FlowKey := ⟨0x0a000001, 0x0a000003, 40001, 443, 7, 6, 0⟩
    let d : IntentDst := ⟨0x0a600001, 443⟩
    (run (2 : ℕ) [.put k d, .put k' d]).get k ≠ none :=
  (faithful_run (show 1 ≤ 2 by decide) _).2.2.2 [] _ _ _ rfl (by decide) (by decide)

end IntentCache
