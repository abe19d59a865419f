/-
Rings of slots, read by age.

A ring is a fixed number of slots and the position of the next write.  Read from
that position on, it is a window: the slots by age, the one to be overwritten
first.

* `SlotRing.aged_push` — a write drops the head of the window and appends to it;
* `SlotRing.head_aged` — the head is the slot at the position;
* `SlotRing.mem_slots`, `SlotRing.count_slots` — the window has the slots' values, each
  as often;
* `SlotRing.Lists` — the window is empty slots and then distinct keys; writing another
  key keeps it so, with room (`SlotRing.Lists.push_of_room`) and without
  (`SlotRing.Lists.push_of_full`).
-/
import Mathlib.Data.List.Rotate

/-- Slots and the position of the next write, which is one of them. -/
structure SlotRing (α : Type*) where
  slots : List α
  pos : ℕ
  pos_lt : pos < slots.length

namespace SlotRing

variable {α : Type*}

/-- A ring of `n` slots with the value `zero`. -/
def new (zero : α) (n : ℕ) (h : 0 < n) : SlotRing α :=
  ⟨List.replicate n zero, 0, by rwa [List.length_replicate]⟩

/-- The number of slots. -/
def size (r : SlotRing α) : ℕ := r.slots.length

/-- The slot at the position. -/
def oldest (r : SlotRing α) : α := r.slots.get ⟨r.pos, r.pos_lt⟩

/-- Write the slot at the position and move on. -/
def push (r : SlotRing α) (x : α) : SlotRing α :=
  { slots := r.slots.set r.pos x
    pos := (r.pos + 1) % r.slots.length
    pos_lt := by
      rw [List.length_set]
      exact Nat.mod_lt _ (Nat.zero_lt_of_lt r.pos_lt) }

/-- The slots by age, the one at the position first. -/
def aged (r : SlotRing α) : List α := r.slots.rotate r.pos

@[simp] theorem size_new (zero : α) (n : ℕ) (h : 0 < n) : (new zero n h).size = n :=
  List.length_replicate

@[simp] theorem size_push (r : SlotRing α) (x : α) : (r.push x).size = r.size := List.length_set

theorem size_pos (r : SlotRing α) : 0 < r.size := Nat.zero_lt_of_lt r.pos_lt

@[simp] theorem length_aged (r : SlotRing α) : r.aged.length = r.size := List.length_rotate ..

@[simp] theorem aged_new (zero : α) (n : ℕ) (h : 0 < n) :
    (new zero n h).aged = List.replicate n zero := List.rotate_replicate ..

theorem aged_eq (r : SlotRing α) : r.aged = r.slots.drop r.pos ++ r.slots.take r.pos :=
  List.rotate_eq_drop_append_take r.pos_lt.le

theorem aged_eq_cons (r : SlotRing α) : r.aged = r.oldest :: r.aged.tail := by
  rw [aged_eq, List.drop_eq_getElem_cons r.pos_lt]
  rfl

/-- The slot at the position is the oldest one. -/
theorem head_aged (r : SlotRing α) : r.aged.head? = some r.oldest := by
  rw [aged_eq_cons]
  rfl

/-- **A write, read by age**: the oldest slot goes and the new value is the
youngest. -/
theorem aged_push (r : SlotRing α) (x : α) : (r.push x).aged = r.aged.tail ++ [x] := by
  have hlen : (r.slots.set r.pos x).length = r.slots.length := List.length_set
  have hlt : r.pos < (r.slots.set r.pos x).length := hlen ▸ r.pos_lt
  have hdrop : (r.slots.set r.pos x).drop (r.pos + 1) = r.slots.drop (r.pos + 1) :=
    List.drop_set_of_lt (Nat.lt_succ_self _)
  have htake : (r.slots.set r.pos x).take (r.pos + 1) = r.slots.take r.pos ++ [x] := by
    rw [List.take_succ_eq_append_getElem hlt, List.getElem_set_self, List.take_set_of_le le_rfl]
  show (r.slots.set r.pos x).rotate ((r.pos + 1) % r.slots.length) = _
  rw [← hlen, List.rotate_mod, List.rotate_eq_drop_append_take hlt, hdrop, htake, aged_eq,
    List.drop_eq_getElem_cons r.pos_lt, List.cons_append, List.tail_cons, List.append_assoc]

/-- The window has the values of the slots. -/
theorem mem_slots (r : SlotRing α) {x : α} : x ∈ r.slots ↔ x ∈ r.aged := List.mem_rotate.symm

theorem mem_slots_iff_oldest (r : SlotRing α) {x : α} :
    x ∈ r.slots ↔ x = r.oldest ∨ x ∈ r.aged.tail := by
  rw [mem_slots, aged_eq_cons, List.mem_cons, List.tail_cons]

/-- A write replaces the oldest value. -/
theorem mem_slots_push (r : SlotRing α) {x y : α} :
    y ∈ (r.push x).slots ↔ y ∈ r.aged.tail ∨ y = x := by
  rw [mem_slots, aged_push, List.mem_append, List.mem_singleton]

/-- Each as often as the slots. -/
theorem count_slots [BEq α] (r : SlotRing α) (x : α) : r.slots.count x = r.aged.count x :=
  ((List.rotate_perm _ _).count_eq x).symm

/-! ### Rings of distinct keys -/

/-- The window is slots with the value `zero` and then the keys, each once. -/
structure Lists (r : SlotRing α) (zero : α) (keys : List α) : Prop where
  aged_eq : r.aged = List.replicate (r.size - keys.length) zero ++ keys
  length_le : keys.length ≤ r.size
  nodup : keys.Nodup

theorem lists_new (zero : α) (n : ℕ) (h : 0 < n) : (new zero n h).Lists zero [] where
  aged_eq := by rw [aged_new, size_new, List.length_nil, Nat.sub_zero, List.append_nil]
  length_le := Nat.zero_le _
  nodup := List.nodup_nil

namespace Lists

variable {r : SlotRing α} {zero x : α} {k : α} {keys : List α}

/-- With room left, a write takes an empty slot. -/
theorem push_of_room (h : r.Lists zero keys) (hroom : keys.length < r.size) (hx : x ∉ keys) :
    (r.push x).Lists zero (keys ++ [x]) where
  aged_eq := by
    obtain ⟨room, hlen⟩ : ∃ room, r.size - keys.length = room + 1 :=
      ⟨r.size - keys.length - 1, by omega⟩
    have hnext : r.size - (keys ++ [x]).length = room := by
      rw [List.length_append, List.length_singleton]
      omega
    rw [aged_push, h.aged_eq, size_push, hnext, hlen, List.replicate_succ, List.cons_append,
      List.tail_cons, List.append_assoc]
  length_le := by
    rw [List.length_append, List.length_singleton, size_push]
    exact hroom
  nodup := List.nodup_append.mpr ⟨h.nodup, List.nodup_singleton x, fun a ha b hb heq => hx
    (List.mem_singleton.mp hb ▸ heq ▸ ha)⟩

/-- A full ring is its keys. -/
theorem aged_of_full (h : r.Lists zero keys) (hfull : keys.length = r.size) : r.aged = keys := by
  rw [h.aged_eq, hfull, Nat.sub_self, List.replicate_zero, List.nil_append]

/-- The position of a full ring is at the key that was written first. -/
theorem oldest_of_full (h : r.Lists zero (k :: keys)) (hfull : (k :: keys).length = r.size) :
    r.oldest = k := by
  have hhead := r.head_aged
  rw [h.aged_of_full hfull] at hhead
  exact (Option.some.inj hhead).symm

/-- Without room, a write takes the slot of the key that was written first. -/
theorem push_of_full (h : r.Lists zero (k :: keys)) (hfull : (k :: keys).length = r.size)
    (hx : x ∉ keys) : (r.push x).Lists zero (keys ++ [x]) where
  aged_eq := by
    have hnext : r.size - (keys ++ [x]).length = 0 := by
      rw [List.length_append, List.length_singleton, ← hfull, List.length_cons, Nat.sub_self]
    rw [aged_push, h.aged_of_full hfull, size_push, hnext]
    rfl
  length_le := by
    rw [List.length_append, List.length_singleton, size_push, ← hfull, List.length_cons]
  nodup := List.nodup_append.mpr ⟨(List.nodup_cons.mp h.nodup).2, List.nodup_singleton x,
    fun a ha b hb heq => hx (List.mem_singleton.mp hb ▸ heq ▸ ha)⟩

/-- A key has one slot. -/
theorem count_slots_eq_one [DecidableEq α] (h : r.Lists zero keys) (hk : k ∈ keys)
    (hzero : k ≠ zero) : r.slots.count k = 1 := by
  have hempty : (List.replicate (r.size - keys.length) zero).count k = 0 :=
    List.count_eq_zero.mpr fun hmem => hzero (List.eq_of_mem_replicate hmem)
  rw [r.count_slots, h.aged_eq, List.count_append, hempty, Nat.zero_add,
    List.count_eq_one_of_mem h.nodup hk]

end Lists

end SlotRing
