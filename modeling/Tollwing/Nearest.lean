/-
Rounding a number to the grid of binary floating point with 53 bits and exponents from
`-1074` on: the nearer of two neighbours, and of two as near the even one.

* `nearest_eq_self` — a number of the grid is not moved;
* `nearest_mono` — rounding keeps the order;
* `abs_nearest_sub_le` — a multiple of the smallest number is moved by a unit roundoff of
  itself at most;
* `OnGrid.le_abs_sub` — different numbers of the grid are apart by half of that at least.
-/
import Mathlib.Algebra.Order.Field.Power
import Mathlib.Data.Int.Log
import Mathlib.Data.Rat.Floor
import Mathlib.Tactic.Linarith

namespace Nearest

/-! ### To whole numbers -/

/-- The nearest natural number; of two the even one. -/
def roundEven (q : ℚ) : ℕ :=
  let n := ⌊q⌋₊
  if q - n < 1 / 2 ∨ q - n = 1 / 2 ∧ n % 2 = 0 then n else n + 1

theorem abs_roundEven_sub_le {q : ℚ} (hq : 0 ≤ q) : |(roundEven q : ℚ) - q| ≤ 1 / 2 := by
  have hfloor : (⌊q⌋₊ : ℚ) ≤ q := Nat.floor_le hq
  have hlt : q < ⌊q⌋₊ + 1 := Nat.lt_floor_add_one q
  rw [roundEven, abs_le]
  split_ifs with h
  · have hhalf : q - ⌊q⌋₊ ≤ 1 / 2 := h.elim le_of_lt fun heq => heq.1.le
    constructor <;> linarith
  · have hhalf : 1 / 2 ≤ q - ⌊q⌋₊ := not_lt.mp fun hlow => h (Or.inl hlow)
    push_cast
    constructor <;> linarith

@[simp] theorem roundEven_natCast (n : ℕ) : roundEven (n : ℚ) = n := by
  simp [roundEven]

theorem roundEven_mono {q r : ℚ} (hqr : q ≤ r) : roundEven q ≤ roundEven r := by
  have hfloor : ⌊q⌋₊ ≤ ⌊r⌋₊ := Nat.floor_le_floor hqr
  rcases hfloor.lt_or_eq with hlt | heq
  · have hup : roundEven q ≤ ⌊q⌋₊ + 1 := by
      rw [roundEven]
      split_ifs <;> omega
    have hdown : ⌊r⌋₊ ≤ roundEven r := by
      rw [roundEven]
      split_ifs <;> omega
    omega
  · -- between the same two numbers, the lower one goes up only if the higher one does
    rw [roundEven, roundEven, ← heq]
    split_ifs with hlow hhigh
    · exact le_rfl
    · omega
    · refine absurd ?_ hlow
      rename_i hhigh
      rcases hhigh with hr | ⟨hr, heven⟩
      · exact Or.inl (by linarith)
      · rcases (show q - ⌊q⌋₊ ≤ 1 / 2 by linarith).lt_or_eq with hq' | hq'
        · exact Or.inl hq'
        · exact Or.inr ⟨hq', heven⟩
    · exact le_rfl

/-! ### To the grid -/

/-- The exponent of the last place. -/
def lastPlace (q : ℚ) : ℤ := max (Int.log 2 q - 52) (-1074)

/-- The last place of a number, as a number. -/
def ulp (q : ℚ) : ℚ := 2 ^ lastPlace q

/-- The nearest number of the grid. -/
def nearest (q : ℚ) : ℚ := roundEven (q / ulp q) * ulp q

/-- A number of the grid: 53 bits at a place from the last one on. -/
def OnGrid (q : ℚ) : Prop := ∃ (m : ℕ) (e : ℤ), m < 2 ^ 53 ∧ -1074 ≤ e ∧ q = m * 2 ^ e

/-- The smallest positive number of the grid. -/
@[irreducible] def smallest : ℚ := 2 ^ (-1074 : ℤ)

/-- Half of the last of 53 bits: what rounding can take of a number. -/
def unitRoundoff : ℚ := 1 / 2 ^ 53

theorem ulp_pos (q : ℚ) : 0 < ulp q := by
  rw [ulp]
  positivity

theorem two_zpow_split (a b : ℤ) : (2 : ℚ) ^ a = 2 ^ (a - b) * 2 ^ b := by
  rw [← zpow_add₀ two_ne_zero, sub_add_cancel]

/-- A power of two that is no fraction. -/
theorem two_zpow_eq_natCast {k : ℤ} (hk : 0 ≤ k) : (2 : ℚ) ^ k = ((2 ^ k.toNat : ℕ) : ℚ) := by
  lift k to ℕ using hk
  simp

theorem lt_two_zpow_lastPlace {q : ℚ} : q < 2 ^ (lastPlace q + 53) := by
  have hlog : q < 2 ^ (Int.log 2 q + 1) := Int.lt_zpow_succ_log_self Nat.one_lt_two q
  refine hlog.trans_le (zpow_le_zpow_right₀ one_le_two ?_)
  rw [lastPlace]
  omega

theorem nearest_nonneg (q : ℚ) : 0 ≤ nearest q :=
  mul_nonneg (Nat.cast_nonneg _) (ulp_pos q).le

theorem abs_nearest_sub_le_ulp {q : ℚ} (hq : 0 ≤ q) : |nearest q - q| ≤ ulp q / 2 := by
  have hpos := ulp_pos q
  have hround := abs_roundEven_sub_le (div_nonneg hq hpos.le)
  have hscale : nearest q - q = ((roundEven (q / ulp q) : ℚ) - q / ulp q) * ulp q := by
    rw [nearest, sub_mul, div_mul_cancel₀ q hpos.ne']
  rw [hscale, abs_mul, abs_of_pos hpos]
  linarith [mul_le_mul_of_nonneg_right hround hpos.le]

/-- A number that has no place below the last one is a whole number of last places. -/
theorem nearest_eq_self_of_dvd {q : ℚ} {m : ℕ} {e : ℤ} (hq : q = m * 2 ^ e)
    (he : lastPlace q ≤ e) : nearest q = q := by
  have hwhole : q / ulp q = ((m * 2 ^ (e - lastPlace q).toNat : ℕ) : ℚ) := by
    rw [ulp, div_eq_iff (zpow_ne_zero _ two_ne_zero), Nat.cast_mul,
      ← two_zpow_eq_natCast (by omega), mul_assoc, ← two_zpow_split]
    exact hq
  rw [nearest, hwhole, roundEven_natCast, ← hwhole, div_mul_cancel₀ q (ulp_pos q).ne']

theorem nearest_eq_self {q : ℚ} (h : OnGrid q) : nearest q = q := by
  obtain ⟨m, e, hm, he, hq⟩ := h
  rcases Nat.eq_zero_or_pos m with rfl | hpos
  · rw [hq, Nat.cast_zero, zero_mul, nearest, zero_div]
    simp [roundEven]
  · refine nearest_eq_self_of_dvd hq (max_le ?_ he)
    have hqpos : 0 < q := by
      rw [hq]
      positivity
    have hlt : q < 2 ^ (53 + e) := by
      rw [hq, zpow_add₀ two_ne_zero]
      exact mul_lt_mul_of_pos_right (by exact_mod_cast hm) (by positivity)
    have hlog := (Int.lt_zpow_iff_log_lt (b := 2) Nat.one_lt_two hqpos).mp (by exact_mod_cast hlt)
    omega

theorem roundEven_div_ulp_le (q : ℚ) : roundEven (q / ulp q) ≤ 2 ^ 53 := by
  have hup : q / ulp q ≤ ((2 ^ 53 : ℕ) : ℚ) := by
    rw [div_le_iff₀ (ulp_pos q), ulp]
    refine lt_two_zpow_lastPlace.le.trans_eq ?_
    rw [add_comm, zpow_add₀ two_ne_zero]
    norm_num
  exact (roundEven_mono hup).trans_eq (roundEven_natCast _)

/-- Rounding stays within the 53 bits, or carries into the next place. -/
theorem onGrid_nearest (q : ℚ) : OnGrid (nearest q) := by
  have hplace : -1074 ≤ lastPlace q := le_max_right _ _
  rcases (roundEven_div_ulp_le q).lt_or_eq with hlt | heq
  · exact ⟨_, lastPlace q, hlt, hplace, rfl⟩
  · refine ⟨2 ^ 52, lastPlace q + 1, by norm_num, by omega, ?_⟩
    rw [nearest, heq, ulp, zpow_add₀ two_ne_zero, zpow_one]
    push_cast
    ring

@[simp] theorem nearest_zero : nearest 0 = 0 :=
  nearest_eq_self ⟨0, 0, by norm_num, by norm_num, by simp⟩

theorem lastPlace_mono {q r : ℚ} (hq : 0 < q) (hqr : q ≤ r) : lastPlace q ≤ lastPlace r :=
  max_le_max_right _ (sub_le_sub_right (Int.log_mono_right hq hqr) 52)

theorem nearest_le_two_zpow (q : ℚ) : nearest q ≤ 2 ^ (lastPlace q + 53) := by
  rw [nearest, add_comm, zpow_add₀ two_ne_zero]
  refine mul_le_mul_of_nonneg_right ?_ (ulp_pos q).le
  exact_mod_cast roundEven_div_ulp_le q

/-- Above the smallest numbers the first bit is the number's own. -/
theorem two_zpow_log_le_nearest {q : ℚ} (hq : 0 < q) (h : lastPlace q = Int.log 2 q - 52) :
    2 ^ Int.log 2 q ≤ nearest q := by
  have hlog : (2 : ℚ) ^ Int.log 2 q ≤ q := Int.zpow_log_le_self Nat.one_lt_two hq
  have hbits : (2 : ℚ) ^ Int.log 2 q = ((2 ^ 52 : ℕ) : ℚ) * ulp q := by
    rw [ulp, h, two_zpow_split (Int.log 2 q) (Int.log 2 q - 52), sub_sub_cancel]
    norm_num
  have hround : 2 ^ 52 ≤ roundEven (q / ulp q) := by
    rw [← roundEven_natCast (2 ^ 52)]
    refine roundEven_mono ?_
    rw [le_div_iff₀ (ulp_pos q), ← hbits]
    exact hlog
  rw [hbits, nearest]
  exact mul_le_mul_of_nonneg_right (Nat.cast_le.mpr hround) (ulp_pos q).le

theorem nearest_mono {q r : ℚ} (hq : 0 ≤ q) (hqr : q ≤ r) : nearest q ≤ nearest r := by
  rcases hq.eq_or_lt with rfl | hpos
  · rw [nearest_zero]
    exact nearest_nonneg r
  rcases (lastPlace_mono hpos hqr).eq_or_lt with heq | hlt
  · have hulp : ulp q = ulp r := by rw [ulp, ulp, heq]
    rw [nearest, nearest, hulp]
    refine mul_le_mul_of_nonneg_right (Nat.cast_le.mpr (roundEven_mono ?_)) (ulp_pos r).le
    exact div_le_div_of_nonneg_right hqr (ulp_pos r).le
  · -- a power of two lies between the two
    have hleast : -1074 ≤ lastPlace q := le_max_right _ _
    have hplace : lastPlace r = Int.log 2 r - 52 :=
      (max_choice _ _).resolve_right fun h => by
        have : lastPlace r = -1074 := h
        omega
    calc nearest q ≤ 2 ^ (lastPlace q + 53) := nearest_le_two_zpow q
      _ ≤ 2 ^ Int.log 2 r := zpow_le_zpow_right₀ one_le_two (by omega)
      _ ≤ nearest r := two_zpow_log_le_nearest (hpos.trans_le hqr) hplace

/-! ### What rounding takes -/

/-- Half a last place, where the 53 bits begin with the number's own first bit. -/
theorem half_ulp_le {q : ℚ} (hq : 0 < q) (h : lastPlace q = Int.log 2 q - 52) :
    ulp q / 2 ≤ unitRoundoff * q := by
  have hlog : (2 : ℚ) ^ Int.log 2 q ≤ q := Int.zpow_log_le_self Nat.one_lt_two hq
  calc ulp q / 2 = unitRoundoff * 2 ^ Int.log 2 q := by
        rw [ulp, h, zpow_sub₀ two_ne_zero, unitRoundoff]
        norm_num
        ring
    _ ≤ unitRoundoff * q := mul_le_mul_of_nonneg_left hlog (by norm_num [unitRoundoff])

/-- A whole number of the smallest numbers is moved by a unit roundoff at most. -/
theorem abs_nearest_sub_le {q : ℚ} (hq : 0 ≤ q) {n : ℕ} (hn : q = n * smallest) :
    |nearest q - q| ≤ unitRoundoff * q := by
  unfold smallest at hn
  rcases max_choice (Int.log 2 q - 52) (-1074) with hplace | hplace
  · rcases hq.eq_or_lt with rfl | hpos
    · simp
    exact (abs_nearest_sub_le_ulp hq).trans (half_ulp_le hpos hplace)
  · rw [nearest_eq_self_of_dvd hn hplace.le, sub_self, abs_zero]
    exact mul_nonneg (by norm_num [unitRoundoff]) hq

theorem smallest_pos : 0 < smallest := by
  unfold smallest
  exact zpow_pos two_pos _

/-- Any number is moved by that and the smallest number at most. -/
theorem abs_nearest_sub_le_add {q : ℚ} (hq : 0 ≤ q) :
    |nearest q - q| ≤ unitRoundoff * q + smallest := by
  have hsmall := smallest_pos
  rcases hq.eq_or_lt with rfl | hpos
  · simpa using hsmall.le
  refine (abs_nearest_sub_le_ulp hq).trans ?_
  rcases max_choice (Int.log 2 q - 52) (-1074) with hplace | hplace
  · exact (half_ulp_le hpos hplace).trans (le_add_of_nonneg_right hsmall.le)
  · have hulp : ulp q = smallest := by
      rw [ulp, lastPlace, hplace, smallest]
    have hround : 0 ≤ unitRoundoff * q := mul_nonneg (by norm_num [unitRoundoff]) hq
    rw [hulp]
    linarith

theorem OnGrid.exists_smallest {q : ℚ} (h : OnGrid q) : ∃ n : ℕ, q = n * smallest := by
  obtain ⟨m, e, -, he, rfl⟩ := h
  refine ⟨m * 2 ^ (e + 1074).toNat, ?_⟩
  unfold smallest
  rw [Nat.cast_mul, ← two_zpow_eq_natCast (by omega), mul_assoc, ← zpow_add₀ two_ne_zero]
  congr 2
  omega

/-! ### Neighbours -/

/-- A number of the grid is a whole number of places that are not below its last one. -/
theorem OnGrid.exists_place {q : ℚ} (h : OnGrid q) {j : ℤ} (hj : 2 ^ (j + 52) ≤ q) :
    ∃ n : ℕ, q = n * 2 ^ j := by
  obtain ⟨m, e, hm, -, rfl⟩ := h
  have hlt : (2 : ℚ) ^ (j + 52) < 2 ^ (53 + e) := by
    rw [zpow_add₀ two_ne_zero 53 e]
    exact hj.trans_lt (mul_lt_mul_of_pos_right (by exact_mod_cast hm) (by positivity))
  have hplace : j + 52 < 53 + e := (zpow_lt_zpow_iff_right₀ one_lt_two).mp hlt
  refine ⟨m * 2 ^ (e - j).toNat, ?_⟩
  rw [Nat.cast_mul, ← two_zpow_eq_natCast (by omega), mul_assoc, ← two_zpow_split]

/-- **Two numbers of the grid** are not nearer to each other than half a unit roundoff. -/
theorem OnGrid.le_abs_sub {x y : ℚ} (hx : OnGrid x) (hy : OnGrid y) (hpos : 0 < y)
    (hne : x ≠ y) : unitRoundoff / 2 * y ≤ |x - y| := by
  have hlog : (2 : ℚ) ^ Int.log 2 y ≤ y := Int.zpow_log_le_self Nat.one_lt_two hpos
  have hsucc : y < 2 ^ (Int.log 2 y + 1) := Int.lt_zpow_succ_log_self Nat.one_lt_two y
  generalize Int.log 2 y = k at hlog hsucc
  have hhalf : (2 : ℚ) ^ k = 2 * 2 ^ (k - 1) := by
    rw [two_zpow_split k (k - 1), sub_sub_cancel, zpow_one]
  have hplace : unitRoundoff / 2 * y ≤ 2 ^ (k - 53) := by
    rw [two_zpow_split (k + 1) (k - 53), show k + 1 - (k - 53) = 54 by ring] at hsucc
    rw [unitRoundoff]
    norm_num at hsucc ⊢
    linarith
  refine hplace.trans ?_
  rcases lt_or_ge x (2 ^ (k - 1)) with hlow | hhigh
  · have hle : (2 : ℚ) ^ (k - 53) ≤ 2 ^ (k - 1) := zpow_le_zpow_right₀ one_le_two (by omega)
    rw [abs_sub_comm]
    exact le_trans (by linarith) (le_abs_self (y - x))
  · -- both are whole numbers of the same places
    have hstart : k - 53 + 52 = k - 1 := by ring
    obtain ⟨i, hi⟩ := hx.exists_place (j := k - 53) (by rwa [hstart])
    obtain ⟨j, hj⟩ := hy.exists_place (j := k - 53) (by rw [hstart]; linarith)
    have hint : (i : ℤ) ≠ j := by
      rintro hij
      rw [Int.natCast_inj] at hij
      exact hne (by rw [hi, hj, hij])
    have hone : (1 : ℚ) ≤ |(i : ℚ) - j| := by
      exact_mod_cast Int.one_le_abs (sub_ne_zero.mpr hint)
    rw [hi, hj, ← sub_mul, abs_mul, abs_of_pos (zpow_pos two_pos (k - 53) : (0 : ℚ) < _)]
    exact le_mul_of_one_le_left (by positivity) hone

end Nearest
