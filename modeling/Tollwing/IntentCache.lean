/-
The service-intent cache (`pkg/intent/cache.go`).

A map from connections to the destination they dialed, in two generations: a
full current generation is demoted and the one before it dropped.  As long as
the current generation has room, the cache is a plain map
(`IntentCache.get_put_of_room`, `IntentCache.get_delete`).
-/
import Mathlib.Data.UInt
import Tollwing.BpfMaps

/-- `Dst`: a pre-DNAT destination. -/
structure IntentDst where
  ip : UInt32
  port : UInt16
  deriving DecidableEq, Repr

/-- `Cache`; its `Key` has the fields of the aggregate's key. -/
structure IntentCache where
  max : ℕ
  cur : FinMap FlowKey IntentDst
  prev : FinMap FlowKey IntentDst

namespace IntentCache

/-- `DefaultMax`. -/
def defaultMax : ℤ := 2 ^ 18

/-- `New`. -/
def new (max : ℤ) : IntentCache :=
  ⟨(if max ≤ 0 then defaultMax else max).toNat, ∅, ∅⟩

/-- The entries of a map, `len`. -/
def size (m : FinMap FlowKey IntentDst) : ℕ := m.keys.card

/-- `Put`. -/
def put (c : IntentCache) (k : FlowKey) (d : IntentDst) : IntentCache :=
  let c := if c.max ≤ size c.cur then { c with prev := c.cur, cur := ∅ } else c
  { c with
    cur := c.cur.insert k d
    prev := c.prev.erase k }

/-- `Get`. -/
def get (c : IntentCache) (k : FlowKey) : Option IntentDst :=
  match c.cur.lookup k with
  | some d => some d
  | none => c.prev.lookup k

/-- `Delete`. -/
def delete (c : IntentCache) (k : FlowKey) : IntentCache :=
  { c with
    cur := c.cur.erase k
    prev := c.prev.erase k }

@[simp] theorem max_put (c : IntentCache) (k : FlowKey) (d : IntentDst) :
    (c.put k d).max = c.max := by
  rw [put]
  split_ifs <;> rfl

/-- With room left, the new entry hides what was known of its key only. -/
theorem get_put_of_room {c : IntentCache} (h : size c.cur < c.max) (k k' : FlowKey)
    (d : IntentDst) : (c.put k d).get k' = if k' = k then some d else c.get k' := by
  rw [put, if_neg (not_le.mpr h), get, get]
  dsimp only
  rw [FinMap.lookup_insert_ite, FinMap.lookup_erase_ite]
  split_ifs <;> rfl

/-- The new entry is found, whatever room there was. -/
theorem get_put_self (c : IntentCache) (k : FlowKey) (d : IntentDst) :
    (c.put k d).get k = some d := by
  rw [put, get]
  dsimp only
  rw [Finmap.lookup_insert]

theorem get_delete (c : IntentCache) (k k' : FlowKey) :
    (c.delete k).get k' = if k' = k then none else c.get k' := by
  rw [delete, get, get]
  dsimp only
  rw [FinMap.lookup_erase_ite, FinMap.lookup_erase_ite]
  split_ifs <;> rfl

theorem size_put_of_room {c : IntentCache} (h : size c.cur < c.max) (k : FlowKey)
    (d : IntentDst) : size (c.put k d).cur ≤ size c.cur + 1 := by
  rw [put, if_neg (not_le.mpr h), size, FinMap.keys_insert]
  exact Finset.card_insert_le _ _

theorem size_delete (c : IntentCache) (k : FlowKey) : size (c.delete k).cur ≤ size c.cur := by
  refine Finset.card_le_card fun k' hk' => ?_
  rw [FinMap.mem_keys_iff_lookup, delete, FinMap.lookup_erase_ite] at hk'
  split_ifs at hk' with heq
  · exact absurd rfl hk'
  · exact FinMap.mem_keys_iff_lookup.mpr hk'

end IntentCache
