/-
Tiered rates.

A list of bands, each with an upper bound (`⊤` for the last) and a rate, makes
a piecewise constant rate on the half line.  `charge` is its integral over an
interval, as the walk that adds up the overlap with each band, for any ordered
field and any representation of bands.

* `charge_eq_sum` — the walk is a sum over the bands, each with its overlap;
* `charge_add` — adjacent intervals add up, so a total does not depend on how
  an interval is cut;
* `charge_mono` — with rates that are not negative it grows with the interval;
* `charge_of_le`, `charge_of_le_start` — an empty interval costs nothing, nor do
  bands that begin above it.
-/
import Mathlib.Algebra.BigOperators.Fin
import Mathlib.Algebra.Order.Field.Basic
import Mathlib.Algebra.Order.Group.MinMax
import Mathlib.Order.WithBot
import Mathlib.Tactic.Ring

namespace Bands

section
variable {K : Type*} [LinearOrder K]

/-- The smaller of a number and a bound. -/
def capAt (x : K) (u : WithTop K) : K := (min (x : WithTop K) u).untopD x

@[simp] theorem capAt_top (x : K) : capAt x ⊤ = x := by
  rw [capAt, min_eq_left le_top]
  rfl

@[simp] theorem capAt_coe (x u : K) : capAt x (u : WithTop K) = min x u := by
  rw [capAt, ← WithTop.coe_min]
  rfl

theorem capAt_of_le {x : K} {u : WithTop K} (h : (x : WithTop K) ≤ u) : capAt x u = x := by
  rw [capAt, min_eq_left h]
  rfl

theorem capAt_le (x : K) (u : WithTop K) : capAt x u ≤ x := by
  cases u with
  | top => exact (capAt_top x).le
  | coe u =>
    rw [capAt_coe]
    exact min_le_left x u

theorem capAt_mono {x y : K} (h : x ≤ y) (u : WithTop K) : capAt x u ≤ capAt y u := by
  cases u with
  | top => rwa [capAt_top, capAt_top]
  | coe u =>
    rw [capAt_coe, capAt_coe]
    exact min_le_min_right u h

end

section
variable {K : Type*} [Zero K] {α : Type*} (upTo : α → WithTop K)

/-- Where band `i` begins: at the bound of the band below it, the first one at
`start`. -/
def lower (start : K) (ts : List α) (i : ℕ) : K :=
  (start :: ts.map fun t => (upTo t).untopD 0).getD i 0

@[simp] theorem lower_zero (start : K) (ts : List α) : lower upTo start ts 0 = start := rfl

@[simp] theorem lower_succ (start : K) (t : α) (ts : List α) (i : ℕ) :
    lower upTo start (t :: ts) (i + 1) = lower upTo ((upTo t).untopD 0) ts i := rfl

end

variable {K : Type*} [Field K] [LinearOrder K]
variable {α : Type*} (upTo : α → WithTop K) (rate : α → K)

/-- The length of `[a, c]` within the band from `start` to `u`. -/
def overlap (start : K) (u : WithTop K) (a c : K) : K := max 0 (capAt c u - max a start)

/-- What `[a, c]` costs over the bands, the first of which begins at `start`. -/
def charge : K → List α → K → K → K
  | _, [], _, _ => 0
  | start, t :: ts, a, c =>
    overlap start (upTo t) a c * rate t + charge ((upTo t).untopD 0) ts a c

/-- The representation of the bands does not matter. -/
theorem charge_map {β : Type*} (f : β → α) (start : K) (ts : List β) (a c : K) :
    charge upTo rate start (ts.map f) a c = charge (upTo ∘ f) (rate ∘ f) start ts a c := by
  induction ts generalizing start with
  | nil => rfl
  | cons t ts ih =>
    rw [List.map_cons, charge, charge, ih]
    rfl

/-- **The walk is the sum over the bands** of the rate times the overlap. -/
theorem charge_eq_sum (start : K) (ts : List α) (a c : K) :
    charge upTo rate start ts a c
      = ∑ i : Fin ts.length, overlap (lower upTo start ts i) (upTo ts[i]) a c * rate ts[i] := by
  induction ts generalizing start with
  | nil => simp [charge]
  | cons t ts ih =>
    rw [charge, ih]
    -- the first band is the first summand, and the others move down by one
    exact (Fin.sum_univ_succ fun i : Fin (t :: ts).length =>
      overlap (lower upTo start (t :: ts) i) (upTo (t :: ts)[i]) a c * rate (t :: ts)[i]).symm

theorem overlap_nonneg (start : K) (u : WithTop K) (a c : K) : 0 ≤ overlap start u a c :=
  le_max_left 0 _

variable [IsStrictOrderedRing K]

theorem overlap_of_le {a c : K} (h : c ≤ a) (start : K) (u : WithTop K) :
    overlap start u a c = 0 :=
  max_eq_left (sub_nonpos.mpr ((capAt_le c u).trans (h.trans (le_max_left a start))))

theorem overlap_of_le_start {c start : K} (h : c ≤ start) (u : WithTop K) (a : K) :
    overlap start u a c = 0 :=
  max_eq_left (sub_nonpos.mpr ((capAt_le c u).trans (h.trans (le_max_right a start))))

/-- A band that ends below the interval has no part in it. -/
theorem overlap_of_bound_le {a : K} {u : WithTop K} (h : u ≤ (a : WithTop K)) (start c : K) :
    overlap start u a c = 0 := by
  refine max_eq_left (sub_nonpos.mpr ?_)
  cases u with
  | top => exact absurd h (WithTop.not_top_le_coe a)
  | coe u =>
    rw [capAt_coe]
    exact (min_le_right c u).trans ((WithTop.coe_le_coe.mp h).trans (le_max_left a start))

/-- The overlap is how far the part of the interval below a bound moves from
the start of the band to its end. -/
theorem overlap_eq_sub {start u a : K} (h : start ≤ a ∨ start < u) (c : K) :
    overlap start (u : WithTop K) a c = max a (min c u) - max a (min c start) := by
  rw [overlap, capAt_coe]
  rcases le_or_gt start a with hstart | hstart
  · -- the interval begins within the band or above it
    rw [max_eq_left hstart, max_eq_left ((min_le_right c start).trans hstart),
      ← max_sub_sub_right, sub_self]
  · have hu : start < u := h.resolve_left hstart.not_ge
    rw [max_eq_right hstart.le]
    rcases le_total c start with hc | hc
    · rw [min_eq_left (hc.trans hu.le), min_eq_left hc, sub_self]
      exact max_eq_left (sub_nonpos.mpr hc)
    · have hend : start ≤ min c u := le_min hc hu.le
      rw [min_eq_right hc, max_eq_right hstart.le, max_eq_right (hstart.le.trans hend)]
      exact max_eq_right (sub_nonneg.mpr hend)

/-- Cutting an interval cuts its overlap with a band. -/
theorem overlap_add {a b c : K} (hab : a ≤ b) (hbc : b ≤ c) (start : K) (u : WithTop K) :
    overlap start u a b + overlap start u b c = overlap start u a c := by
  rcases le_total b start with hstart | hstart
  · -- the band begins after the cut
    rw [overlap_of_le_start hstart, zero_add, overlap, overlap, max_eq_right hstart,
      max_eq_right (hab.trans hstart)]
  · rcases le_total u (b : WithTop K) with hu | hu
    · -- the band ends before the cut
      lift u to K using ne_top_of_le_ne_top WithTop.coe_ne_top hu
      have hub : u ≤ b := WithTop.coe_le_coe.mp hu
      rw [overlap_of_bound_le hu, add_zero, overlap, overlap, capAt_coe, capAt_coe,
        min_eq_right hub, min_eq_right (hub.trans hbc)]
    · have hcut : capAt b u = b := capAt_of_le hu
      have hend : b ≤ capAt c u := hcut.symm.le.trans (capAt_mono hbc u)
      have hfirst : max a start ≤ b := max_le hab hstart
      rw [overlap, overlap, overlap, hcut, max_eq_left hstart,
        max_eq_right (sub_nonneg.mpr hfirst), max_eq_right (sub_nonneg.mpr hend),
        max_eq_right (sub_nonneg.mpr (hfirst.trans hend)), add_comm, sub_add_sub_cancel]

/-- Adjacent intervals add up. -/
theorem charge_add {a b c : K} (hab : a ≤ b) (hbc : b ≤ c) (start : K) (ts : List α) :
    charge upTo rate start ts a b + charge upTo rate start ts b c
      = charge upTo rate start ts a c := by
  induction ts generalizing start with
  | nil => exact add_zero 0
  | cons t ts ih =>
    rw [charge, charge, charge, ← ih, ← overlap_add hab hbc]
    ring

/-- Rates that are not negative charge nothing negative. -/
theorem charge_nonneg {ts : List α} (h : ∀ t ∈ ts, 0 ≤ rate t) (start a c : K) :
    0 ≤ charge upTo rate start ts a c := by
  induction ts generalizing start with
  | nil => exact le_rfl
  | cons t ts ih =>
    have hfirst : 0 ≤ overlap start (upTo t) a c * rate t :=
      mul_nonneg (overlap_nonneg start (upTo t) a c) (h t List.mem_cons_self)
    have hrest := ih (fun t' ht' => h t' (List.mem_cons_of_mem t ht')) ((upTo t).untopD 0)
    rw [charge]
    exact add_nonneg hfirst hrest

/-- A longer interval costs at least as much. -/
theorem charge_mono {ts : List α} (h : ∀ t ∈ ts, 0 ≤ rate t) {a b c : K} (hab : a ≤ b)
    (hbc : b ≤ c) (start : K) :
    charge upTo rate start ts a b ≤ charge upTo rate start ts a c := by
  rw [← charge_add upTo rate hab hbc start ts]
  exact le_add_of_nonneg_right (charge_nonneg upTo rate h start b c)

/-- An empty interval costs nothing. -/
theorem charge_of_le {a c : K} (h : c ≤ a) (start : K) (ts : List α) :
    charge upTo rate start ts a c = 0 := by
  induction ts generalizing start with
  | nil => rfl
  | cons t ts ih => rw [charge, ih, overlap_of_le h, zero_mul, add_zero]

/-- Bands with strictly ascending bounds, the last of them unbounded, whatever bounds are. -/
structure WellFormed {α β : Type*} [LT β] [Top β] (upTo : α → β) (ts : List α) : Prop where
  ascending : ts.Pairwise fun t t' => upTo t < upTo t'
  unbounded : (ts.getLast?).map upTo = some ⊤

/-- No band lies above an unbounded one. -/
theorem eq_nil_of_unbounded {K α : Type*} [LinearOrder K] {upTo : α → WithTop K} {t : α}
    {ts : List α} (hasc : (t :: ts).Pairwise fun t t' => upTo t < upTo t') (ht : upTo t = ⊤) :
    ts = [] := by
  refine List.eq_nil_iff_forall_not_mem.mpr fun t' ht' => ?_
  have hlt := (List.pairwise_cons.mp hasc).1 t' ht'
  rw [ht] at hlt
  exact not_top_lt hlt

/-- Bands that begin where the interval has ended cost nothing. -/
theorem charge_of_le_start {c start : K} (h : c ≤ start) {ts : List α}
    (hasc : ts.Pairwise fun t t' => upTo t < upTo t')
    (hstart : ∀ t ∈ ts, (start : WithTop K) < upTo t) (a : K) :
    charge upTo rate start ts a c = 0 := by
  induction ts generalizing start with
  | nil => rfl
  | cons t ts ih =>
    rw [charge, overlap_of_le_start h, zero_mul, zero_add]
    obtain ⟨ht, hts⟩ := List.pairwise_cons.mp hasc
    cases hu : upTo t with
    | top =>
      rw [eq_nil_of_unbounded hasc hu]
      rfl
    | coe u =>
      have hsu : start < u := by
        have := hstart t (List.mem_cons_self ..)
        rwa [hu, WithTop.coe_lt_coe] at this
      show charge upTo rate u ts a c = 0
      refine ih (h.trans hsu.le) hts fun t' ht' => ?_
      have hlt := ht t' ht'
      rwa [hu] at hlt

end Bands
