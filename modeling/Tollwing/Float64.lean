/-
Binary floating point of 64 bits, by its values: a sign and a magnitude of the grid
below `2 ^ 1024`, the infinities and NaN.  An operation rounds the exact result.

* `toRat_add` — a sum that stays finite is the rounded sum of finite terms;
* `abs_toRat_add_sub_le` — it is off by a unit roundoff at most;
* `not_add_lt` — it is no less for a positive term.
-/
import Mathlib.Algebra.Group.Defs
import Mathlib.Algebra.Order.Group.Abs
import Mathlib.Order.WithBot
import Tollwing.Nearest

open Nearest

/-- From here on there is no float. -/
@[irreducible] def Float64.limit : ℚ := 2 ^ 1024

/-- The magnitude of a finite float. -/
structure Float64.Magnitude where
  val : ℚ
  onGrid : OnGrid val
  lt_limit : val < Float64.limit
deriving DecidableEq

inductive Float64
  | nan
  | inf (neg : Bool)
  | finite (neg : Bool) (mag : Float64.Magnitude)
deriving DecidableEq

namespace Float64

theorem OnGrid.nonneg {q : ℚ} (h : OnGrid q) : 0 ≤ q := by
  obtain ⟨m, e, -, -, rfl⟩ := h
  positivity

theorem Magnitude.nonneg (m : Magnitude) : 0 ≤ m.val := OnGrid.nonneg m.onGrid

/-- The sign as a factor. -/
def signed (neg : Bool) (q : ℚ) : ℚ := if neg then -q else q

/-- The number; zero for what is none. -/
def toRat : Float64 → ℚ
  | .finite neg mag => signed neg mag.val
  | _ => 0

def IsFinite : Float64 → Prop
  | .finite _ _ => True
  | _ => False

instance : DecidablePred IsFinite
  | .finite _ _ => .isTrue trivial
  | .nan => .isFalse id
  | .inf _ => .isFalse id

/-- The float of an exact result, an infinity where it is out of range; `neg` is the sign
of a zero. -/
def round (neg : Bool) (x : ℚ) : Float64 :=
  let sign := if x = 0 then neg else decide (x < 0)
  if h : nearest |x| < limit then .finite sign ⟨nearest |x|, onGrid_nearest |x|, h⟩
  else .inf sign

/-- A whole number as a float. -/
def ofNat (n : ℕ) : Float64 := round false n

instance : Zero Float64 := ⟨round false 0⟩
instance : One Float64 := ⟨round false 1⟩
instance : NatCast Float64 := ⟨ofNat⟩
instance : Inhabited Float64 := ⟨0⟩

/-- A decimal constant. -/
instance : OfScientific Float64 :=
  ⟨fun m neg e => round false (if neg then m / 10 ^ e else m * 10 ^ e)⟩

/-! ### Arithmetic -/

def neg : Float64 → Float64
  | .nan => .nan
  | .inf s => .inf !s
  | .finite s m => .finite (!s) m

def add : Float64 → Float64 → Float64
  | .nan, _ => .nan
  | _, .nan => .nan
  | .inf s, .inf t => if s = t then .inf s else .nan
  | .inf s, .finite _ _ => .inf s
  | .finite _ _, .inf t => .inf t
  | .finite s m, .finite t n => round (s && t) (signed s m.val + signed t n.val)

def mul : Float64 → Float64 → Float64
  | .nan, _ => .nan
  | _, .nan => .nan
  | .inf s, .inf t => .inf (s ^^ t)
  | .inf s, .finite t n => if n.val = 0 then .nan else .inf (s ^^ t)
  | .finite s m, .inf t => if m.val = 0 then .nan else .inf (s ^^ t)
  | .finite s m, .finite t n => round (s ^^ t) (signed s m.val * signed t n.val)

def div : Float64 → Float64 → Float64
  | .nan, _ => .nan
  | _, .nan => .nan
  | .inf _, .inf _ => .nan
  | .inf s, .finite t _ => .inf (s ^^ t)
  | .finite s _, .inf t => round (s ^^ t) 0
  | .finite s m, .finite t n =>
    if n.val = 0 then if m.val = 0 then .nan else .inf (s ^^ t)
    else round (s ^^ t) (signed s m.val / signed t n.val)

instance : Neg Float64 := ⟨neg⟩
instance : Add Float64 := ⟨add⟩
instance : AddZero Float64 where
instance : Sub Float64 := ⟨fun x y => x + -y⟩
instance : Mul Float64 := ⟨mul⟩
instance : Div Float64 := ⟨div⟩

/-! ### Comparisons -/

/-- `<`, false where one side is NaN. -/
def lt : Float64 → Float64 → Bool
  | .nan, _ => false
  | _, .nan => false
  | .inf true, .inf true => false
  | .inf true, _ => true
  | _, .inf true => false
  | .inf false, _ => false
  | _, .inf false => true
  | .finite s m, .finite t n => signed s m.val < signed t n.val

/-- `==`: the zeros are equal, and NaN is equal to nothing. -/
def beq : Float64 → Float64 → Bool
  | .inf s, .inf t => s = t
  | .finite s m, .finite t n => signed s m.val = signed t n.val
  | _, _ => false

instance : LT Float64 := ⟨fun x y => lt x y = true⟩
instance : DecidableLT Float64 := fun x y => inferInstanceAs (Decidable (lt x y = true))
instance : LE Float64 := ⟨fun x y => lt x y = true ∨ beq x y = true⟩
instance : DecidableLE Float64 := fun x y =>
  inferInstanceAs (Decidable (lt x y = true ∨ beq x y = true))
instance : BEq Float64 := ⟨beq⟩

/-- Membership is by identity, not by `==`. -/
instance (x : Float64) (l : List Float64) : Decidable (x ∈ l) :=
  @List.instDecidableMemOfLawfulBEq Float64 instBEqOfDecidableEq inferInstance x l

/-- The place in the order of the numbers; NaN is `⊥` and has none. -/
def rank : Float64 → WithBot (WithBot (WithTop ℚ))
  | .nan => ⊥
  | .inf true => ((⊥ : WithBot (WithTop ℚ)) : WithBot (WithBot (WithTop ℚ)))
  | .inf false => (((⊤ : WithTop ℚ) : WithBot (WithTop ℚ)) : WithBot (WithBot (WithTop ℚ)))
  | .finite s m =>
    (((signed s m.val : ℚ) : WithTop ℚ) : WithBot (WithTop ℚ))

theorem lt_iff_rank {x y : Float64} : x < y ↔ ⊥ < rank x ∧ rank x < rank y := by
  show lt x y = true ↔ _
  cases x with
  | nan => exact iff_of_false Bool.false_ne_true fun h => lt_irrefl _ h.1
  | inf s =>
    cases y with
    | nan => cases s <;> exact iff_of_false Bool.false_ne_true fun h => not_lt_bot h.2
    | inf t => cases s <;> cases t <;> simp [lt, rank, -WithBot.coe_top]
    | finite t n => cases s <;> simp [lt, rank]
  | finite s m =>
    cases y with
    | nan => exact iff_of_false Bool.false_ne_true fun h => not_lt_bot h.2
    | inf t => cases t <;> simp [lt, rank, -WithBot.coe_top]
    | finite t n => simp [lt, rank]

theorem beq_iff_rank {x y : Float64} : (x == y) = true ↔ ⊥ < rank x ∧ rank x = rank y := by
  show beq x y = true ↔ _
  cases x with
  | nan => exact iff_of_false Bool.false_ne_true fun h => lt_irrefl _ h.1
  | inf s =>
    cases y with
    | nan => cases s <;> exact iff_of_false Bool.false_ne_true fun h => h.1.ne' h.2
    | inf t => cases s <;> cases t <;> simp [beq, rank, -WithBot.coe_top]
    | finite t n => cases s <;> simp [beq, rank, -WithBot.coe_top]
  | finite s m =>
    cases y with
    | nan => exact iff_of_false Bool.false_ne_true fun h => h.1.ne' h.2
    | inf t => cases t <;> simp [beq, rank, -WithBot.coe_top]
    | finite t n => simp [beq, rank]

theorem le_iff_rank {x y : Float64} : x ≤ y ↔ ⊥ < rank x ∧ rank x ≤ rank y := by
  rw [le_iff_lt_or_eq, and_or_left]
  exact or_congr lt_iff_rank beq_iff_rank

theorem not_lt_self (x : Float64) : ¬x < x := fun h => (lt_iff_rank.mp h).2.false

instance : IsTrans Float64 (· < ·) :=
  ⟨fun _ _ _ hxy hyz => lt_iff_rank.mpr
    ⟨(lt_iff_rank.mp hxy).1, (lt_iff_rank.mp hxy).2.trans (lt_iff_rank.mp hyz).2⟩⟩

theorem lt_asymm {x y : Float64} (h : x < y) : ¬y < x := fun h' =>
  not_lt_self x (IsTrans.trans _ _ _ h h')

/-- The largest number of a list, from a first one on, is below a bound if all are that can
be compared with it. -/
theorem foldl_max_lt_iff (l : List Float64) {m bound : Float64} (hm : ⊥ < rank m) :
    l.foldl (fun m d => if m < d then d else m) m < bound
      ↔ m < bound ∧ ∀ d ∈ l, ¬bound ≤ d := by
  induction l generalizing m with
  | nil => simp
  | cons d l ih =>
    rw [List.foldl_cons, List.forall_mem_cons, ← and_assoc]
    split_ifs with hd
    · have hrank : ⊥ < rank d := hm.trans (lt_iff_rank.mp hd).2
      rw [ih hrank, lt_iff_rank, lt_iff_rank, le_iff_rank]
      refine and_congr_left' ⟨fun h => ⟨⟨hm, (lt_iff_rank.mp hd).2.trans h.2⟩, fun hle => ?_⟩,
        fun h => ⟨hrank, not_le.mp fun hle => h.2 ⟨hm.trans h.1.2, hle⟩⟩⟩
      exact absurd hle.2 (not_le.mpr h.2)
    · rw [ih hm]
      refine and_congr_left' (and_iff_left_of_imp fun h hle => hd ?_).symm
      rw [lt_iff_rank] at h ⊢
      exact ⟨hm, h.2.trans_le (le_iff_rank.mp hle).2⟩

/-! ### Functions -/

/-- `math.Abs`. -/
def abs : Float64 → Float64
  | .nan => .nan
  | .inf _ => .inf false
  | .finite _ m => .finite false m

/-- To the nearest whole number, and of two away from zero. -/
def roundHalfAway : Float64 → Float64
  | .finite s m => round s (signed s ⌊m.val + 1 / 2⌋₊)
  | x => x

/-! ### Finite results -/

@[simp] theorem abs_signed (neg : Bool) (q : ℚ) : |signed neg q| = |q| := by
  cases neg <;> simp [signed]

theorem abs_toRat (s : Bool) (m : Magnitude) : |toRat (.finite s m)| = m.val := by
  rw [toRat, abs_signed, abs_of_nonneg m.nonneg]

theorem isFinite_iff {x : Float64} : x.IsFinite ↔ ∃ s m, x = .finite s m := by
  cases x with
  | finite s m => exact iff_of_true trivial ⟨s, m, rfl⟩
  | nan | inf =>
    refine iff_of_false id ?_
    rintro ⟨_, _, h⟩
    cases h

/-- What rounding makes of an exact result. -/
def rounded (x : ℚ) : ℚ := if x < 0 then -nearest (-x) else nearest x

theorem isFinite_round {neg : Bool} {x : ℚ} : (round neg x).IsFinite ↔ nearest |x| < limit := by
  rw [round]
  by_cases h : nearest |x| < limit
  · rw [dif_pos h]
    exact iff_of_true trivial h
  · rw [dif_neg h]
    exact iff_of_false id h

theorem toRat_round {neg : Bool} {x : ℚ} (h : (round neg x).IsFinite) :
    (round neg x).toRat = rounded x := by
  have hval : (round neg x).toRat
      = signed (if x = 0 then neg else decide (x < 0)) (nearest |x|) := by
    rw [round, dif_pos (isFinite_round.mp h), toRat]
  rw [hval, rounded]
  rcases lt_trichotomy x 0 with hx | hx | hx
  · rw [if_neg hx.ne, if_pos hx, decide_eq_true hx, abs_of_neg hx, signed, if_pos rfl]
  · rw [hx, if_pos rfl, if_neg (lt_irrefl 0), abs_zero, nearest_zero]
    cases neg with
    | false => exact if_neg Bool.false_ne_true
    | true => exact neg_zero
  · rw [if_neg hx.ne', if_neg hx.le.not_gt, decide_eq_false hx.le.not_gt, abs_of_pos hx, signed,
      if_neg Bool.false_ne_true]

/-- A finite float is a whole number of smallest ones. -/
theorem exists_smallest (x : Float64) : ∃ n : ℤ, x.toRat = n * smallest := by
  cases x with
  | finite s m =>
    obtain ⟨n, hn⟩ := m.onGrid.exists_smallest
    cases s with
    | false => exact ⟨n, hn⟩
    | true => exact ⟨-n, by rw [toRat, signed, if_pos rfl, hn, Int.cast_neg, neg_mul]; rfl⟩
  | nan => exact ⟨0, by simp [toRat]⟩
  | inf s => exact ⟨0, by simp [toRat]⟩

theorem abs_rounded_sub_le {x : ℚ} {n : ℤ} (hn : x = n * smallest) :
    |rounded x - x| ≤ unitRoundoff * |x| := by
  have habs : |x| = n.natAbs * smallest := by
    rw [hn, abs_mul, abs_of_pos smallest_pos, Nat.cast_natAbs, Int.cast_abs]
  have hmoved := abs_nearest_sub_le (abs_nonneg x) habs
  rw [rounded]
  split_ifs with hx
  · rw [abs_of_neg hx] at hmoved ⊢
    rw [show -nearest (-x) - x = -(nearest (-x) - -x) by ring, abs_neg]
    exact hmoved
  · rwa [abs_of_nonneg (not_lt.mp hx)] at hmoved ⊢

@[simp] theorem toRat_neg (x : Float64) : (-x).toRat = -x.toRat := by
  cases x with
  | finite s m =>
    cases s with
    | false => rfl
    | true => exact (neg_neg m.val).symm
  | nan => exact neg_zero.symm
  | inf s => exact neg_zero.symm

theorem toRat_of_not_isFinite {x : Float64} (h : ¬x.IsFinite) : x.toRat = 0 := by
  cases x with
  | finite => exact absurd trivial h
  | nan | inf => rfl

/-- Finite floats are compared as numbers. -/
theorem toRat_lt_iff {x y : Float64} (hx : x.IsFinite) (hy : y.IsFinite) :
    x < y ↔ x.toRat < y.toRat := by
  obtain ⟨s, m, rfl⟩ := isFinite_iff.mp hx
  obtain ⟨t, n, rfl⟩ := isFinite_iff.mp hy
  exact decide_eq_true_iff

/-- Infinity and NaN stay in a sum. -/
theorem isFinite_of_add {x y : Float64} (h : (x + y).IsFinite) : x.IsFinite ∧ y.IsFinite := by
  cases x with
  | nan => exact absurd h id
  | inf s =>
    cases y with
    | nan | finite => exact absurd h id
    | inf t =>
      have hne : ¬(if s = t then Float64.inf s else .nan).IsFinite := by
        split_ifs <;> exact id
      exact absurd h hne
  | finite s m =>
    cases y with
    | nan | inf => exact absurd h id
    | finite t n => exact ⟨trivial, trivial⟩

theorem toRat_add {x y : Float64} (h : (x + y).IsFinite) :
    (x + y).toRat = rounded (x.toRat + y.toRat) := by
  obtain ⟨hx, hy⟩ := isFinite_of_add h
  obtain ⟨s, m, rfl⟩ := isFinite_iff.mp hx
  obtain ⟨t, n, rfl⟩ := isFinite_iff.mp hy
  exact toRat_round h

/-- **A finite sum** is off by a unit roundoff at most, also among the smallest floats. -/
theorem abs_toRat_add_sub_le {x y : Float64} (h : (x + y).IsFinite) :
    |(x + y).toRat - (x.toRat + y.toRat)| ≤ unitRoundoff * |x.toRat + y.toRat| := by
  obtain ⟨i, hi⟩ := x.exists_smallest
  obtain ⟨j, hj⟩ := y.exists_smallest
  rw [toRat_add h]
  refine abs_rounded_sub_le (n := i + j) ?_
  rw [hi, hj, Int.cast_add, add_mul]

/-! ### The largest float -/

/-- The largest magnitude. -/
def largest : ℕ := (2 ^ 53 - 1) * 2 ^ 971

theorem onGrid_largest : OnGrid largest := by
  refine ⟨2 ^ 53 - 1, 971, by decide, by decide, ?_⟩
  rw [largest, Nat.cast_mul, Nat.cast_pow, Nat.cast_ofNat]
  rfl

theorem largest_lt_limit : (largest : ℚ) < limit := by
  have hlt : largest < 2 ^ 1024 := by decide +kernel
  rw [limit]
  exact_mod_cast hlt

theorem Magnitude.le_largest (m : Magnitude) : m.val ≤ largest := by
  obtain ⟨n, e, hn, -, hval⟩ := m.onGrid
  have hlimit := m.lt_limit
  rw [hval, limit] at hlimit
  rw [hval]
  rcases le_or_gt 971 e with he | he
  · -- a whole number of the largest places
    obtain ⟨k, rfl⟩ := Int.le.dest he
    have hpow : (2 : ℚ) ^ (971 + k : ℤ) = ((2 ^ (971 + k) : ℕ) : ℚ) := by
      rw [Nat.cast_pow, Nat.cast_ofNat]
      exact zpow_natCast 2 (971 + k)
    rw [hpow] at hlimit ⊢
    have hnat : n * 2 ^ (971 + k) < 2 ^ 1024 := by exact_mod_cast hlimit
    have hle : n * 2 ^ (971 + k) ≤ largest := by
      rw [pow_add, ← mul_assoc, mul_right_comm] at hnat ⊢
      have hlt : n * 2 ^ k < 2 ^ 53 :=
        Nat.lt_of_mul_lt_mul_right (a := 2 ^ 971) (hnat.trans_eq (by rw [← pow_add]))
      exact Nat.mul_le_mul_right _ (Nat.le_sub_one_of_lt hlt)
    exact_mod_cast hle
  · have hpow : (2 : ℚ) ^ e ≤ 2 ^ (970 : ℤ) := zpow_le_zpow_right₀ one_le_two (by omega)
    have hn' : (n : ℚ) ≤ ((2 ^ 53 : ℕ) : ℚ) := Nat.cast_le.mpr hn.le
    have hle : 2 ^ 53 * 2 ^ 970 ≤ largest := by decide +kernel
    calc (n : ℚ) * 2 ^ e
        ≤ ((2 ^ 53 : ℕ) : ℚ) * 2 ^ (970 : ℤ) :=
          mul_le_mul hn' hpow (by positivity) (Nat.cast_nonneg _)
      _ = ((2 ^ 53 * 2 ^ 970 : ℕ) : ℚ) := by
          rw [Nat.cast_mul, Nat.cast_pow 2 970, Nat.cast_ofNat]
          rfl
      _ ≤ largest := Nat.cast_le.mpr hle

/-- What is no larger stays in range. -/
theorem isFinite_round_of_le {neg : Bool} {x : ℚ} (h : |x| ≤ largest) : (round neg x).IsFinite := by
  refine isFinite_round.mpr ((nearest_mono (abs_nonneg x) h).trans_lt ?_)
  rw [nearest_eq_self onGrid_largest]
  exact largest_lt_limit

/-- Out of range only the sign is left. -/
theorem round_eq_inf {neg : Bool} {x : ℚ} (h : ¬(round neg x).IsFinite) :
    x ≠ 0 ∧ round neg x = .inf (decide (x < 0)) := by
  have hx : x ≠ 0 := by
    rintro rfl
    exact h (isFinite_round_of_le (abs_zero.trans_le (Nat.cast_nonneg largest)))
  refine ⟨hx, ?_⟩
  rw [round, dif_neg (mt isFinite_round.mpr h), if_neg hx]

/-! ### Addition commutes -/

protected theorem add_comm (x y : Float64) : x + y = y + x := by
  show add x y = add y x
  cases x with
  | nan => cases y <;> rfl
  | inf s =>
    cases y with
    | nan | finite => rfl
    | inf t =>
      rw [add, add]
      by_cases h : s = t
      · rw [if_pos h, if_pos h.symm, h]
      · rw [if_neg h, if_neg (Ne.symm h)]
  | finite s m =>
    cases y with
    | nan | inf => rfl
    | finite t n => rw [add, add, Bool.and_comm, add_comm]

/-- The sign only matters for a zero. -/
theorem round_congr {a b : Bool} {x : ℚ} (h : x = 0 → a = b) : round a x = round b x := by
  rw [round, round]
  by_cases hx : x = 0
  · rw [h hx]
  · simp only [if_neg hx]

theorem round_signed {s t : Bool} (m : Magnitude) (h : m.val = 0 → t = s) :
    round t (signed s m.val) = .finite s m := by
  have hval : nearest |signed s m.val| = m.val := by
    rw [abs_signed, abs_of_nonneg m.nonneg, nearest_eq_self m.onGrid]
  have hsign : (if signed s m.val = 0 then t else decide (signed s m.val < 0)) = s := by
    rcases m.nonneg.eq_or_lt with hzero | hpos
    · rw [h hzero.symm, ← hzero]
      cases s <;> rfl
    · cases s with
      | false => simp [signed, hpos.ne', hpos.le]
      | true => simp [signed, hpos.ne', hpos]
  have hfin : nearest |signed s m.val| < limit := by
    rw [hval]
    exact m.lt_limit
  rw [round, dif_pos hfin, hsign]
  congr 1
  cases m
  simp only [hval]

/-- Zero is the positive one. -/
theorem exists_zero : ∃ z : Magnitude, z.val = 0 ∧ (0 : Float64) = .finite false z := by
  have hlimit : (0 : ℚ) < limit := by
    rw [limit]
    positivity
  exact ⟨⟨0, ⟨0, 0, by norm_num, by norm_num, by simp⟩, hlimit⟩, rfl,
    round_signed (s := false) (t := false) ⟨0, _, hlimit⟩ fun _ => rfl⟩

@[simp] theorem isFinite_zero : (0 : Float64).IsFinite := by
  obtain ⟨z, -, hzero⟩ := exists_zero
  rw [hzero]
  exact trivial

@[simp] theorem toRat_zero : (0 : Float64).toRat = 0 := by
  obtain ⟨z, hz, hzero⟩ := exists_zero
  rw [hzero]
  exact hz

/-- Positive floats. -/
theorem toRat_pos_iff {x : Float64} : 0 < x.toRat ↔ 0 < x ∧ x.IsFinite := by
  by_cases hx : x.IsFinite
  · rw [and_iff_left hx, toRat_lt_iff isFinite_zero hx, toRat_zero]
  · rw [toRat_of_not_isFinite hx]
    exact iff_of_false (lt_irrefl 0) fun h => hx h.2

theorem toRat_nonneg {x : Float64} (h : 0 < x) : 0 ≤ x.toRat := by
  by_cases hx : x.IsFinite
  · exact (toRat_pos_iff.mpr ⟨h, hx⟩).le
  · exact (toRat_of_not_isFinite hx).ge

/-- What is no less than zero, or no number. -/
theorem toRat_nonneg_of_not_lt {x : Float64} (h : ¬x < 0) : 0 ≤ x.toRat := by
  by_cases hx : x.IsFinite
  · rw [toRat_lt_iff hx isFinite_zero, toRat_zero] at h
    exact not_lt.mp h
  · exact (toRat_of_not_isFinite hx).ge

/-- A positive float is known by its place. -/
theorem eq_of_rank_eq {x y : Float64} (hx : 0 < x) (hy : 0 < y) (h : rank x = rank y) : x = y := by
  have hsign : ∀ {s : Bool} {m : Magnitude}, 0 < Float64.finite s m → s = false := by
    intro s m hpos
    cases s with
    | false => rfl
    | true =>
      have hneg : 0 < -m.val := (toRat_pos_iff.mpr ⟨hpos, trivial⟩ : 0 < toRat (.finite true m))
      exact absurd m.nonneg (not_le.mpr (neg_pos.mp hneg))
  cases x with
  | nan => exact absurd (lt_iff_rank.mp hx).2 not_lt_bot
  | inf s =>
    cases y with
    | nan => exact absurd (lt_iff_rank.mp hy).2 not_lt_bot
    | inf t => cases s <;> cases t <;> simp [rank, -WithBot.coe_top] at h ⊢
    | finite t n => cases s <;> simp [rank, -WithBot.coe_top] at h
  | finite s m =>
    cases y with
    | nan => exact absurd (lt_iff_rank.mp hy).2 not_lt_bot
    | inf t => cases t <;> simp [rank, -WithBot.coe_top] at h
    | finite t n =>
      obtain rfl := hsign hx
      obtain rfl := hsign hy
      have hval : m.val = n.val := by simpa [rank, signed] using h
      exact congrArg (Float64.finite false) (by
        cases m
        cases n
        obtain rfl := hval
        rfl)

/-! ### A sum that grows -/

theorem rounded_mono {x y : ℚ} (hxy : x ≤ y) : rounded x ≤ rounded y := by
  rw [rounded, rounded]
  split_ifs with hx hy hy
  · exact neg_le_neg (nearest_mono (neg_nonneg.mpr hy.le) (neg_le_neg hxy))
  · exact (neg_nonpos.mpr (nearest_nonneg _)).trans (nearest_nonneg y)
  · exact absurd (hxy.trans_lt hy) hx
  · exact nearest_mono (not_lt.mp hx) hxy

theorem rounded_toRat (x : Float64) : rounded x.toRat = x.toRat := by
  have hzero : rounded 0 = 0 := by rw [rounded, if_neg (lt_irrefl 0), nearest_zero]
  cases x with
  | nan | inf => exact hzero
  | finite s m =>
    have hm : nearest m.val = m.val := nearest_eq_self m.onGrid
    cases s with
    | false =>
      show rounded m.val = m.val
      rw [rounded, if_neg m.nonneg.not_gt, hm]
    | true =>
      show rounded (-m.val) = -m.val
      rw [rounded, neg_neg, hm]
      split_ifs with hneg
      · rfl
      · rw [le_antisymm (neg_nonneg.mp (not_lt.mp hneg)) m.nonneg, neg_zero, nearest_zero]

/-- **Adding what is positive** never makes a float less. -/
theorem not_add_lt {x c : Float64} (hc : 0 < c) : ¬x + c < x := by
  intro hlt
  cases x with
  | nan => exact absurd hlt Bool.false_ne_true
  | inf s =>
    have hsum : Float64.inf s + c = .inf s ∨ Float64.inf s + c = .nan := by
      cases c with
      | nan => exact Or.inr rfl
      | finite => exact Or.inl rfl
      | inf t =>
        by_cases hst : s = t
        · exact Or.inl (if_pos hst)
        · exact Or.inr (if_neg hst)
    rcases hsum with hsum | hsum
    · exact not_lt_self _ (hsum ▸ hlt)
    · rw [hsum] at hlt
      exact absurd hlt Bool.false_ne_true
  | finite s m =>
    cases c with
    | nan => exact absurd hlt Bool.false_ne_true
    | inf t =>
      -- a positive infinity is above every number
      cases t with
      | false => exact absurd hlt Bool.false_ne_true
      | true =>
        obtain ⟨z, -, hzero⟩ := exists_zero
        rw [hzero] at hc
        exact absurd hc Bool.false_ne_true
    | finite t n =>
      have hpos : 0 < toRat (.finite t n) := toRat_pos_iff.mpr ⟨hc, trivial⟩
      have hgrow : toRat (.finite s m) ≤ toRat (.finite s m) + toRat (.finite t n) := by
        linarith
      by_cases hfin : (Float64.finite s m + .finite t n).IsFinite
      · rw [toRat_lt_iff hfin (y := .finite s m) trivial, toRat_add hfin, ← not_le] at hlt
        exact hlt ((rounded_toRat _).ge.trans (rounded_mono hgrow))
      · -- only a positive sum is out of range
        have hsum : 0 < toRat (.finite s m) + toRat (.finite t n) := by
          by_contra hneg
          refine hfin (isFinite_round_of_le ?_)
          have hle := m.le_largest
          rw [← abs_toRat s m] at hle
          show |toRat (.finite s m) + toRat (.finite t n)| ≤ _
          rw [abs_of_nonpos (not_lt.mp hneg)]
          linarith [neg_abs_le (toRat (.finite s m))]
        have hinf : Float64.finite s m + .finite t n = .inf false := by
          have hneg : decide (toRat (.finite s m) + toRat (.finite t n) < 0) = false :=
            decide_eq_false hsum.le.not_gt
          rw [← hneg]
          exact (round_eq_inf hfin).2
        rw [hinf] at hlt
        exact absurd hlt Bool.false_ne_true

/-- Adding to zero only turns a negative zero into a positive one. -/
theorem zero_add_finite (s : Bool) (m : Magnitude) :
    0 + Float64.finite s m = .finite (s && decide (m.val ≠ 0)) m := by
  obtain ⟨z, hz, hzero⟩ := exists_zero
  have hsum : 0 + Float64.finite s m = round (false && s) (signed s m.val) := by
    rw [hzero]
    show round _ (signed false z.val + _) = _
    rw [hz, signed, if_neg Bool.false_ne_true, zero_add]
  rw [hsum]
  by_cases hm : m.val = 0
  · have hsigned : signed s m.val = signed false m.val := by
      rw [hm]
      cases s <;> simp [signed]
    rw [hsigned, decide_eq_false (not_not_intro hm), Bool.and_false]
    exact round_signed m fun _ => rfl
  · rw [decide_eq_true hm, Bool.and_true]
    exact round_signed m fun h => absurd h hm

theorem zero_add_add_comm (x y : Float64) : 0 + x + y = 0 + y + x := by
  obtain ⟨z, -, hzero⟩ := exists_zero
  have hnan : (0 + .nan : Float64) = .nan := by
    rw [hzero]
    rfl
  have hinf : ∀ s, (0 + .inf s : Float64) = .inf s := by
    intro s
    rw [hzero]
    rfl
  cases x with
  | nan =>
    rw [hnan]
    exact Float64.add_comm .nan (0 + y)
  | inf s =>
    rw [hinf]
    cases y with
    | nan =>
      rw [hnan]
      rfl
    | finite t n =>
      rw [zero_add_finite]
      rfl
    | inf t =>
      rw [hinf]
      exact Float64.add_comm (.inf s) (.inf t)
  | finite s m =>
    rw [zero_add_finite]
    cases y with
    | nan =>
      rw [hnan]
      rfl
    | inf t =>
      rw [hinf]
      rfl
    | finite t n =>
      rw [zero_add_finite]
      show round _ (signed (s && _) m.val + signed t n.val)
        = round _ (signed (t && _) n.val + signed s m.val)
      have hsigned : ∀ (s : Bool) (q : ℚ), signed (s && decide (q ≠ 0)) q = signed s q := by
        intro s q
        by_cases hq : q = 0
        · rw [hq]
          cases s <;> simp [signed]
        · rw [decide_eq_true hq, Bool.and_true]
      rw [hsigned, hsigned, add_comm (signed t n.val)]
      refine round_congr fun hsum => ?_
      -- either both are zeros or neither is
      have hboth : |m.val| = |n.val| :=
        calc |m.val| = |signed s m.val| := (abs_signed s _).symm
          _ = |signed t n.val| := by rw [eq_neg_of_add_eq_zero_left hsum, abs_neg]
          _ = |n.val| := abs_signed t _
      rw [abs_of_nonneg m.nonneg, abs_of_nonneg n.nonneg] at hboth
      rw [hboth]
      cases s <;> cases t <;> simp

example : ((0.1 + 0.2 : Float64) == 0.3) = false ∧ (0.1 + 0.2 : Float64) = 0.30000000000000004 ∧
    (1 / 0 : Float64) = .inf false ∧ (0.5 : Float64) < 1 := by
  decide +kernel

end Float64
