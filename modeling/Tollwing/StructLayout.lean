/-
Structs in memory.

A struct is laid out field by field, each at the next multiple of its alignment.  The bytes
between the fields and after the last one are padding and can be anything, and so can a
field that nothing reads.  Words are stored byte by byte from the low end; a host of the
other byte order has the same bytes in reverse.

* `wordOf_bytesOf`, `bytesOf_wordOf` — words and their bytes are the same thing;
* `MemField.load_store` — the fields are read back from a struct, whatever the padding and
  whatever comes before and after it;
* `MemField.store_load` — every memory that is long enough holds a struct: the one that is
  read from it.
-/
import Mathlib.Data.List.GetD
import Mathlib.Data.UInt

/-! ### Words -/

/-- The lowest `n` bytes of a number, from the low end. -/
def bytesOf : ℕ → ℕ → List UInt8
  | 0, _ => []
  | n + 1, w => UInt8.ofNat w :: bytesOf n (w / 256)

/-- The number of some bytes, from the low end. -/
def wordOf : List UInt8 → ℕ
  | [] => 0
  | b :: bs => b.toNat + 256 * wordOf bs

theorem length_bytesOf (n w : ℕ) : (bytesOf n w).length = n := by
  induction n generalizing w with
  | zero => rfl
  | succ n ih => rw [bytesOf, List.length_cons, ih]

theorem wordOf_lt (bs : List UInt8) : wordOf bs < 256 ^ bs.length := by
  induction bs with
  | nil => exact Nat.one_pos
  | cons b bs ih =>
    have hb := b.toNat_lt
    rw [wordOf, List.length_cons, Nat.pow_succ]
    omega

/-- A number that fits is read back from its bytes. -/
theorem wordOf_bytesOf {n w : ℕ} (h : w < 256 ^ n) : wordOf (bytesOf n w) = w := by
  induction n generalizing w with
  | zero => rw [bytesOf, wordOf, Nat.lt_one_iff.mp h]
  | succ n ih =>
    have hrest : w / 256 < 256 ^ n := by
      rw [Nat.pow_succ] at h
      omega
    rw [bytesOf, wordOf, ih hrest, UInt8.toNat_ofNat']
    omega

/-- Bytes are those of their number. -/
theorem bytesOf_wordOf (bs : List UInt8) : bytesOf bs.length (wordOf bs) = bs := by
  induction bs with
  | nil => rfl
  | cons b bs ih =>
    have hb := b.toNat_lt
    have hrest : (b.toNat + 256 * wordOf bs) / 256 = wordOf bs := by omega
    have hlow : UInt8.ofNat (b.toNat + 256 * wordOf bs) = b := by
      refine UInt8.toNat_inj.mp ?_
      rw [UInt8.toNat_ofNat']
      omega
    rw [List.length_cons, wordOf, bytesOf, hrest, ih, hlow]

/-! ### Fields -/

/-- A field: its size and alignment, and whether it is read. -/
structure MemField where
  size : ℕ
  align : ℕ
  read : Bool := true
  deriving DecidableEq, Repr

namespace MemField

/-- An unsigned word. -/
def word (n : ℕ) : MemField := ⟨n, n, true⟩

/-- An array of bytes. -/
def bytes (n : ℕ) : MemField := ⟨n, 1, true⟩

/-- A field that only fills up. -/
def filler (n : ℕ) : MemField := ⟨n, n, false⟩

/-- The next multiple of the alignment. -/
def start (f : MemField) (off : ℕ) : ℕ := (off + f.align - 1) / f.align * f.align

/-- Where a field ends that comes after `off`. -/
def stop (f : MemField) (off : ℕ) : ℕ := f.start off + f.size

/-- Where the last field ends. -/
def finish : ℕ → List MemField → ℕ
  | off, [] => off
  | off, f :: fs => finish (f.stop off) fs

/-- The size of a struct: its alignment is that of its most aligned field. -/
def structSize (fs : List MemField) : ℕ :=
  MemField.start ⟨0, (fs.map align).foldr max 1, true⟩ (finish 0 fs)

variable {f : MemField} {fs : List MemField} {off : ℕ}

theorem le_start (h : 0 < f.align) (off : ℕ) : off ≤ f.start off := by
  have hdiv := Nat.div_add_mod (off + f.align - 1) f.align
  have hmod := Nat.mod_lt (off + f.align - 1) h
  rw [start, Nat.mul_comm]
  omega

theorem le_stop (h : 0 < f.align) (off : ℕ) : off ≤ f.stop off :=
  (le_start h off).trans (Nat.le_add_right _ _)

/-- The fields have alignments. -/
def Aligned (fs : List MemField) : Prop := ∀ f ∈ fs, 0 < f.align

instance (fs : List MemField) : Decidable (Aligned fs) :=
  inferInstanceAs (Decidable (∀ f ∈ fs, 0 < f.align))

theorem Aligned.tail (h : Aligned (f :: fs)) : Aligned fs := fun g hg =>
  h g (List.mem_cons_of_mem f hg)

theorem le_finish (h : Aligned fs) : off ≤ finish off fs := by
  induction fs generalizing off with
  | nil => exact le_rfl
  | cons f fs ih => exact (le_stop (h f List.mem_cons_self) off).trans (ih h.tail)

theorem le_structSize (fs : List MemField) : finish 0 fs ≤ structSize fs := by
  refine le_start (f := ⟨0, (fs.map align).foldr max 1, true⟩) ?_ _
  show 0 < (fs.map align).foldr max 1
  induction fs with
  | nil => exact Nat.one_pos
  | cons f fs ih => exact lt_max_of_lt_right ih

/-! ### Memory -/

/-- The bytes of `mem` from one offset to another. -/
def span (mem : ℕ → UInt8) (lo hi : ℕ) : List UInt8 := (List.range' lo (hi - lo)).map mem

@[simp] theorem length_span (mem : ℕ → UInt8) (lo hi : ℕ) : (span mem lo hi).length = hi - lo := by
  rw [span, List.length_map, List.length_range']

/-- The fields that are read. -/
def load (raw : List UInt8) : ℕ → List MemField → List (List UInt8)
  | _, [] => []
  | off, f :: fs =>
    let rest := load raw (f.stop off) fs
    if f.read then (raw.drop (f.start off)).take f.size :: rest else rest

/-- A struct with the given values of the fields that are read, and `pad` for all other
bytes. -/
def store (pad : ℕ → UInt8) : ℕ → List MemField → List (List UInt8) → List UInt8
  | _, [], _ => []
  | off, f :: fs, vs =>
    span pad off (f.start off) ++
      if f.read then vs.headD [] ++ store pad (f.stop off) fs vs.tail
      else span pad (f.start off) (f.stop off) ++ store pad (f.stop off) fs vs

/-- There is a value of the right size for every field that is read. -/
def Fits : List MemField → List (List UInt8) → Prop
  | [], vs => vs = []
  | f :: fs, vs =>
    if f.read then ∃ v vs', vs = v :: vs' ∧ v.length = f.size ∧ Fits fs vs' else Fits fs vs

variable {pad : ℕ → UInt8} {vs : List (List UInt8)}

theorem length_store (h : Aligned fs) (hfits : Fits fs vs) :
    (store pad off fs vs).length = finish off fs - off := by
  induction fs generalizing off vs with
  | nil => exact (Nat.sub_self off).symm
  | cons f fs ih =>
    have hstart := le_start (h f List.mem_cons_self) off
    have hfinish : f.stop off ≤ finish (f.stop off) fs := le_finish h.tail
    have hstop : f.stop off = f.start off + f.size := rfl
    rw [Fits] at hfits
    rw [store, finish, List.length_append, length_span]
    cases hread : f.read with
    | true =>
      rw [hread, if_pos rfl] at hfits
      obtain ⟨v, vs, rfl, hv, hrest⟩ := hfits
      rw [if_pos rfl, List.length_append, List.headD_cons, List.tail_cons, hv, ih h.tail hrest]
      omega
    | false =>
      rw [hread, if_neg Bool.false_ne_true] at hfits
      rw [if_neg Bool.false_ne_true, List.length_append, length_span, ih h.tail hfits]
      omega

/-- **The fields are read back.** -/
theorem load_store (h : Aligned fs) (hfits : Fits fs vs) (pre tail : List UInt8) :
    load (pre ++ store pad pre.length fs vs ++ tail) pre.length fs = vs := by
  induction fs generalizing pre vs with
  | nil => exact hfits.symm
  | cons f fs ih =>
    have hstart := le_start (h f List.mem_cons_self) pre.length
    have hstop : f.stop pre.length = f.start pre.length + f.size := rfl
    have hgap : (pre ++ span pad pre.length (f.start pre.length)).length = f.start pre.length := by
      rw [List.length_append, length_span]
      omega
    rw [Fits] at hfits
    rw [load, store]
    cases hread : f.read with
    | true =>
      rw [hread, if_pos rfl] at hfits
      obtain ⟨v, vs, rfl, hv, hrest⟩ := hfits
      -- the memory, cut after this field
      have hcut : (pre ++ span pad pre.length (f.start pre.length) ++ v).length
          = f.stop pre.length := by
        rw [List.length_append, hgap, hv, hstop]
      have hrest := ih h.tail hrest (pre ++ span pad pre.length (f.start pre.length) ++ v)
      rw [hcut] at hrest
      simp only [if_true, List.headD_cons, List.tail_cons]
      refine congrArg₂ List.cons ?_ ?_
      · rw [← List.append_assoc, ← List.append_assoc, List.append_assoc _ v,
          List.append_assoc _ (v ++ _), List.drop_left' hgap, List.append_assoc,
          List.take_left' hv]
      · rw [← List.append_assoc, ← List.append_assoc]
        exact hrest
    | false =>
      rw [hread, if_neg Bool.false_ne_true] at hfits
      have hcut : (pre ++ span pad pre.length (f.start pre.length)
          ++ span pad (f.start pre.length) (f.stop pre.length)).length = f.stop pre.length := by
        rw [List.length_append, hgap, length_span]
        omega
      have hrest := ih h.tail hfits (pre ++ span pad pre.length (f.start pre.length)
        ++ span pad (f.start pre.length) (f.stop pre.length))
      rw [hcut] at hrest
      simp only [Bool.false_eq_true, if_false]
      rw [← List.append_assoc, ← List.append_assoc]
      exact hrest

theorem fits_load {raw : List UInt8} (h : Aligned fs) (hlength : finish off fs ≤ raw.length) :
    Fits fs (load raw off fs) := by
  induction fs generalizing off with
  | nil => rfl
  | cons f fs ih =>
    have hstop : f.stop off ≤ raw.length := (le_finish h.tail).trans hlength
    rw [Fits, load]
    cases hread : f.read with
    | true =>
      simp only [if_true]
      refine ⟨_, _, rfl, ?_, ih h.tail hlength⟩
      rw [stop] at hstop
      rw [List.length_take, List.length_drop]
      omega
    | false => exact ih h.tail hlength

/-- A span of a memory that is long enough is a part of it. -/
theorem span_getD {raw : List UInt8} {lo hi : ℕ} (hhi : hi ≤ raw.length) :
    span (fun i => raw.getD i 0) lo hi = (raw.drop lo).take (hi - lo) := by
  refine List.ext_getElem ?_ fun i hi' _ => ?_
  · rw [length_span, List.length_take, List.length_drop]
    omega
  · rw [length_span] at hi'
    simp only [span, List.getElem_map, List.getElem_range', List.getElem_take, List.getElem_drop,
      Nat.one_mul]
    exact List.getD_eq_getElem _ _ _

theorem take_drop_append {raw : List UInt8} {a b c : ℕ} (hab : a ≤ b) (hbc : b ≤ c) :
    (raw.drop a).take (b - a) ++ (raw.drop b).take (c - b) = (raw.drop a).take (c - a) := by
  have hsplit : c - a = (b - a) + (c - b) := by omega
  have hdrop : raw.drop b = (raw.drop a).drop (b - a) := by
    rw [List.drop_drop]
    congr 1
    omega
  rw [hsplit, List.take_add, hdrop]

/-- **Every memory holds a struct.** -/
theorem store_load {raw : List UInt8} (h : Aligned fs) (hlength : finish off fs ≤ raw.length) :
    store (fun i => raw.getD i 0) off fs (load raw off fs)
      = (raw.drop off).take (finish off fs - off) := by
  induction fs generalizing off with
  | nil =>
    rw [finish, Nat.sub_self, List.take_zero]
    rfl
  | cons f fs ih =>
    have hstart := le_start (h f List.mem_cons_self) off
    have hfinish : f.stop off ≤ finish (f.stop off) fs := le_finish h.tail
    have hstop : f.stop off = f.start off + f.size := rfl
    have hend : finish (f.stop off) fs ≤ raw.length := hlength
    have hfield : (raw.drop (f.start off)).take f.size
        = (raw.drop (f.start off)).take (f.stop off - f.start off) := by
      congr 1
      omega
    rw [store, load, finish, span_getD (by omega)]
    cases hread : f.read with
    | true =>
      simp only [if_true, List.headD_cons, List.tail_cons]
      rw [ih h.tail hend, hfield, take_drop_append (by omega) hfinish,
        take_drop_append hstart (by omega)]
    | false =>
      simp only [Bool.false_eq_true, if_false]
      rw [ih h.tail hend, span_getD (by omega), take_drop_append (by omega) hfinish,
        take_drop_append hstart (by omega)]

/-! ### Structs -/

/-- A struct with the padding at its end. -/
def storeStruct (pad : ℕ → UInt8) (fs : List MemField) (vs : List (List UInt8)) : List UInt8 :=
  store pad 0 fs vs ++ span pad (finish 0 fs) (structSize fs)

theorem length_storeStruct (h : Aligned fs) (hfits : Fits fs vs) :
    (storeStruct pad fs vs).length = structSize fs := by
  have hle := le_structSize fs
  rw [storeStruct, List.length_append, length_store h hfits, length_span]
  omega

/-- The fields are read back from a struct with anything after it. -/
theorem load_storeStruct (h : Aligned fs) (hfits : Fits fs vs) (tail : List UInt8) :
    load (storeStruct pad fs vs ++ tail) 0 fs = vs := by
  rw [storeStruct, List.append_assoc]
  exact load_store h hfits [] (span pad (finish 0 fs) (structSize fs) ++ tail)

/-- A memory that is long enough is a struct with something after it. -/
theorem eq_storeStruct {raw : List UInt8} (h : Aligned fs) (hlength : structSize fs ≤ raw.length) :
    raw = storeStruct (fun i => raw.getD i 0) fs (load raw 0 fs) ++ raw.drop (structSize fs) := by
  have hle := le_structSize fs
  have hstore := store_load h (hle.trans hlength)
  rw [List.drop_zero, Nat.sub_zero] at hstore
  rw [storeStruct, hstore, span_getD hlength]
  have hjoin := @take_drop_append raw _ _ _ (Nat.zero_le (finish 0 fs)) hle
  rw [List.drop_zero, Nat.sub_zero, Nat.sub_zero] at hjoin
  rw [hjoin, List.take_append_drop]

end MemField
