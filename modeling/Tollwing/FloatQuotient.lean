/-
Differences, products and quotients of finite floats.

* `round_within` — a result stays within a bound of the grid;
* `abs_toRat_round_sub_le` — it is off by a unit roundoff and the smallest float at most;
* `zero_lt_round_iff` — it is positive if it does not vanish;
* `zero_lt_abs_sub_div_iff` — the relative difference of two floats is positive if they
  differ.
-/
import Mathlib.Tactic.NormNum
import Tollwing.Float64

open Nearest

namespace Float64

/-! ### Finite operands -/

theorem sub_eq_round {x y : Float64} (hx : x.IsFinite) (hy : y.IsFinite) :
    ∃ s, x - y = round s (x.toRat - y.toRat) := by
  obtain ⟨s, m, rfl⟩ := isFinite_iff.mp hx
  obtain ⟨t, n, rfl⟩ := isFinite_iff.mp hy
  rw [sub_eq_add_neg, ← toRat_neg]
  exact ⟨s && !t, rfl⟩

theorem mul_eq_round {x y : Float64} (hx : x.IsFinite) (hy : y.IsFinite) :
    ∃ s, x * y = round s (x.toRat * y.toRat) := by
  obtain ⟨s, m, rfl⟩ := isFinite_iff.mp hx
  obtain ⟨t, n, rfl⟩ := isFinite_iff.mp hy
  exact ⟨s ^^ t, rfl⟩

theorem div_eq_round {x y : Float64} (hx : x.IsFinite) (hy : y.IsFinite) (hy0 : y.toRat ≠ 0) :
    ∃ s, x / y = round s (x.toRat / y.toRat) := by
  obtain ⟨s, m, rfl⟩ := isFinite_iff.mp hx
  obtain ⟨t, n, rfl⟩ := isFinite_iff.mp hy
  have hn : n.val ≠ 0 := by
    rw [← abs_toRat t n]
    exact abs_ne_zero.mpr hy0
  exact ⟨s ^^ t, if_neg hn⟩

/-- The absolute value of a result is the result of the absolute value. -/
theorem abs_round (s : Bool) (x : ℚ) : abs (round s x) = round false |x| := by
  have hsign : (if |x| = 0 then false else decide (|x| < 0)) = false := by
    rw [decide_eq_false (abs_nonneg x).not_gt, ite_self]
  rw [round, round]
  by_cases h : nearest |x| < limit
  · have h' : nearest |(|x|)| < limit := by rwa [abs_abs]
    rw [dif_pos h, dif_pos h', hsign, abs]
    simp only [abs_abs]
  · have h' : ¬nearest |(|x|)| < limit := by rwa [abs_abs]
    rw [dif_neg h, dif_neg h', hsign, abs]

theorem abs_rounded (x : ℚ) : |rounded x| = nearest |x| := by
  rw [rounded]
  split_ifs with hx
  · rw [abs_neg, abs_of_neg hx, abs_of_nonneg (nearest_nonneg _)]
  · rw [abs_of_nonneg (not_lt.mp hx), abs_of_nonneg (nearest_nonneg _)]

/-- **Rounding stays within a number of the grid.** -/
theorem round_within {s : Bool} {x g : ℚ} (hg : OnGrid g) (hlargest : g ≤ largest)
    (h : |x| ≤ g) : (round s x).IsFinite ∧ |(round s x).toRat| ≤ g := by
  have hfin : (round s x).IsFinite := isFinite_round_of_le (h.trans hlargest)
  refine ⟨hfin, ?_⟩
  rw [toRat_round hfin, abs_rounded, ← nearest_eq_self hg]
  exact nearest_mono (abs_nonneg x) h

theorem abs_toRat_round_sub_le {s : Bool} {x : ℚ} (h : (round s x).IsFinite) :
    |(round s x).toRat - x| ≤ unitRoundoff * |x| + smallest := by
  have hmoved := abs_nearest_sub_le_add (abs_nonneg x)
  rw [toRat_round h, rounded]
  split_ifs with hx
  · rw [abs_of_neg hx] at hmoved ⊢
    rw [show -nearest (-x) - x = -(nearest (-x) - -x) by ring, abs_neg]
    exact hmoved
  · rwa [abs_of_nonneg (not_lt.mp hx)] at hmoved ⊢

/-! ### Positive results -/

/-- A result is positive if it does not vanish. -/
theorem zero_lt_round_iff {s : Bool} {x : ℚ} : 0 < round s x ↔ 0 < x ∧ 0 < nearest x := by
  have hzero : ⊥ < rank 0 ∧ rank 0 = (((0 : ℚ) : WithTop ℚ) : WithBot (WithTop ℚ)) := by
    obtain ⟨z, hz, hzero⟩ := exists_zero
    rw [hzero]
    exact ⟨WithBot.bot_lt_coe _, by rw [rank, signed, if_neg Bool.false_ne_true, hz]⟩
  by_cases hfin : (round s x).IsFinite
  · rw [toRat_lt_iff isFinite_zero hfin, toRat_zero, toRat_round hfin, rounded]
    split_ifs with hx
    · refine iff_of_false ?_ fun h => hx.not_gt h.1
      exact (neg_nonpos.mpr (nearest_nonneg _)).not_gt
    · refine ⟨fun h => ⟨(not_lt.mp hx).lt_of_ne ?_, h⟩, fun h => h.2⟩
      rintro rfl
      rw [nearest_zero] at h
      exact lt_irrefl 0 h
  · obtain ⟨hx, hval⟩ := round_eq_inf hfin
    rw [hval, lt_iff_rank, hzero.2, and_iff_right (WithBot.bot_lt_coe _)]
    rcases hx.lt_or_gt with hneg | hpos
    · rw [decide_eq_true hneg]
      exact iff_of_false (by simp [rank]) fun h => hneg.not_gt h.1
    · have hnear : 0 < nearest x := by
        have hover := mt isFinite_round.mpr hfin
        rw [abs_of_pos hpos, not_lt] at hover
        refine lt_of_lt_of_le ?_ hover
        rw [limit]
        positivity
      rw [decide_eq_false hpos.not_gt]
      exact iff_of_true (by simp [rank, -WithBot.coe_top]) ⟨hpos, hnear⟩

theorem onGrid_abs_toRat (x : Float64) : OnGrid |x.toRat| := by
  have hzero : OnGrid |(0 : ℚ)| := ⟨0, 0, by norm_num, by norm_num, by simp⟩
  cases x with
  | finite s m =>
    rw [abs_toRat]
    exact m.onGrid
  | nan => exact hzero
  | inf s => exact hzero

theorem abs_toRat_le_largest (x : Float64) : |x.toRat| ≤ largest := by
  have hzero : |(0 : ℚ)| ≤ largest := abs_zero.trans_le (Nat.cast_nonneg largest)
  cases x with
  | finite s m =>
    rw [abs_toRat]
    exact m.le_largest
  | nan => exact hzero
  | inf s => exact hzero

/-- Whole numbers of 53 bits are floats. -/
theorem toRat_natCast {n : ℕ} (h : n < 2 ^ 53) :
    (n : Float64).IsFinite ∧ (n : Float64).toRat = n := by
  have hgrid : OnGrid (n : ℚ) := ⟨n, 0, h, by norm_num, by simp⟩
  have hlargest : |(n : ℚ)| ≤ largest := by
    have hle : 2 ^ 53 - 1 ≤ largest := by decide +kernel
    rw [Nat.abs_cast]
    exact Nat.cast_le.mpr ((Nat.le_sub_one_of_lt h).trans hle)
  have hfin : (n : Float64).IsFinite := isFinite_round_of_le hlargest
  refine ⟨hfin, (toRat_round hfin).trans ?_⟩
  rw [rounded, if_neg (Nat.cast_nonneg n).not_gt, nearest_eq_self hgrid]

/-- A positive float is no negative one. -/
theorem sign_of_pos {s : Bool} {m : Magnitude} (h : 0 < Float64.finite s m) : s = false := by
  cases s with
  | false => rfl
  | true =>
    have hneg : 0 < -m.val := (toRat_pos_iff.mpr ⟨h, trivial⟩ : 0 < toRat (.finite true m))
    exact absurd m.nonneg (not_le.mpr (neg_pos.mp hneg))

theorem not_zero_lt_nan : ¬(0 : Float64) < .nan := fun h => not_lt_bot (lt_iff_rank.mp h).2

theorem zero_lt_inf : (0 : Float64) < .inf false := by
  obtain ⟨z, -, hzero⟩ := exists_zero
  rw [hzero]
  rfl

/-- Multiplying by a whole number keeps what is positive. -/
theorem zero_lt_mul_natCast {n : ℕ} (hpos : 0 < n) (h : n < 2 ^ 53) {x : Float64} :
    0 < x * (n : Float64) ↔ 0 < x := by
  obtain ⟨hfin, hval⟩ := toRat_natCast h
  have hn : (0 : ℚ) < n := Nat.cast_pos.mpr hpos
  by_cases hx : x.IsFinite
  · obtain ⟨s, hmul⟩ := mul_eq_round hx hfin
    rw [hmul, hval, zero_lt_round_iff, toRat_lt_iff isFinite_zero hx, toRat_zero,
      mul_pos_iff_of_pos_right hn]
    refine and_iff_left_of_imp fun hxpos => ?_
    have hle : x.toRat ≤ x.toRat * n :=
      le_mul_of_one_le_right hxpos.le (Nat.one_le_cast.mpr hpos)
    have hgrid := onGrid_abs_toRat x
    rw [abs_of_pos hxpos] at hgrid
    exact (hxpos.trans_eq (nearest_eq_self hgrid).symm).trans_le (nearest_mono hxpos.le hle)
  · obtain ⟨t, k, hk⟩ := isFinite_iff.mp hfin
    have hknonneg : (n : Float64) = .finite false k ∧ k.val ≠ 0 := by
      have hnpos : 0 < (n : Float64) := (toRat_pos_iff.mp (hn.trans_eq hval.symm)).1
      rw [hk] at hnpos hval ⊢
      rw [sign_of_pos hnpos] at hval ⊢
      exact ⟨rfl, (hn.trans_eq hval.symm).ne'⟩
    rw [hknonneg.1]
    cases x with
    | nan => exact iff_of_false not_zero_lt_nan not_zero_lt_nan
    | finite => exact absurd trivial hx
    | inf s =>
      have hmul : Float64.inf s * .finite false k = .inf (s ^^ false) := if_neg hknonneg.2
      rw [hmul, Bool.xor_false]

/-! ### Relative differences -/

theorem le_abs_toRat_sub {x y : Float64} (hy : 0 < y.toRat) (hne : x.toRat ≠ y.toRat) :
    unitRoundoff / 2 * y.toRat ≤ |x.toRat - y.toRat| := by
  rcases le_or_gt 0 x.toRat with hx | hx
  · have hgridx := onGrid_abs_toRat x
    have hgridy := onGrid_abs_toRat y
    rw [abs_of_nonneg hx] at hgridx
    rw [abs_of_pos hy] at hgridy
    exact hgridx.le_abs_sub hgridy hy hne
  · rw [abs_sub_comm, unitRoundoff]
    exact le_trans (by linarith) (le_abs_self (y.toRat - x.toRat))

/-- **The difference relative to a positive float** vanishes only where there is none. -/
theorem zero_lt_abs_sub_div_iff {x y : Float64} (hy : 0 < y) :
    0 < abs (x - y) / y ↔ y.IsFinite ∧ (x < y ∨ y < x) := by
  cases y with
  | nan => exact absurd hy not_zero_lt_nan
  | inf t =>
    refine iff_of_false ?_ fun h => h.1
    cases x with
    | nan => exact not_zero_lt_nan
    | finite s m => exact not_zero_lt_nan
    | inf s => cases s <;> cases t <;> exact not_zero_lt_nan
  | finite t n =>
    obtain rfl := sign_of_pos hy
    have hfin : (Float64.finite false n).IsFinite := trivial
    have hypos : 0 < (Float64.finite false n).toRat := toRat_pos_iff.mpr ⟨hy, hfin⟩
    rw [and_iff_right hfin]
    cases x with
    | nan =>
      refine iff_of_false not_zero_lt_nan ?_
      rintro (h | h)
      · exact absurd h Bool.false_ne_true
      · exact absurd h Bool.false_ne_true
    | inf s =>
      refine iff_of_true zero_lt_inf ?_
      cases s with
      | false => exact Or.inr rfl
      | true => exact Or.inl rfl
    | finite s m =>
      have hfinx : (Float64.finite s m).IsFinite := trivial
      obtain ⟨r, hsub⟩ := sub_eq_round hfinx hfin
      rw [hsub, abs_round, toRat_lt_iff hfinx hfin, toRat_lt_iff hfin hfinx, ← ne_iff_lt_or_gt]
      generalize hx : (Float64.finite s m).toRat = x
      by_cases hne : x = (Float64.finite false n).toRat
      · -- no difference: a zero over the other
        have hround : (round false |x - (Float64.finite false n).toRat|).IsFinite ∧
            (round false |x - (Float64.finite false n).toRat|).toRat = 0 := by
          rw [hne, sub_self, abs_zero]
          exact ⟨isFinite_zero, toRat_zero⟩
        obtain ⟨r', hdiv⟩ := div_eq_round hround.1 hfin hypos.ne'
        rw [hdiv, hround.2, zero_div, zero_lt_round_iff]
        exact iff_of_false (fun h => h.1.false) fun h => h hne
      · refine iff_of_true ?_ hne
        have hgap := le_abs_toRat_sub hypos (x := .finite s m) (hx ▸ hne)
        have hplace : ∃ k : ℤ, |x - (Float64.finite false n).toRat| = k * smallest := by
          obtain ⟨i, hi⟩ := (Float64.finite s m).exists_smallest
          obtain ⟨j, hj⟩ := (Float64.finite false n).exists_smallest
          refine ⟨|i - j|, ?_⟩
          rw [← hx, hi, hj, ← sub_mul, abs_mul, abs_of_pos smallest_pos, Int.cast_abs,
            Int.cast_sub]
        have hd0 : 0 ≤ |x - (Float64.finite false n).toRat| := abs_nonneg _
        rw [hx] at hgap
        generalize |x - (Float64.finite false n).toRat| = d at *
        by_cases hround : (round false d).IsFinite
        · obtain ⟨r', hdiv⟩ := div_eq_round hround hfin hypos.ne'
          obtain ⟨k, hk⟩ := hplace
          have hmoved := abs_rounded_sub_le hk
          rw [hdiv, toRat_round hround, zero_lt_round_iff]
          have hlow : unitRoundoff / 4 ≤ rounded d / (Float64.finite false n).toRat := by
            rw [le_div_iff₀ hypos]
            rw [abs_of_nonneg hd0, unitRoundoff] at hmoved
            rw [unitRoundoff] at hgap ⊢
            linarith [(abs_le.mp hmoved).1]
          have hgrid : OnGrid (unitRoundoff / 4) :=
            ⟨1, -55, by norm_num, by norm_num, by norm_num [unitRoundoff]⟩
          have hpos : 0 < unitRoundoff / 4 := by norm_num [unitRoundoff]
          exact ⟨hpos.trans_le hlow,
            (hpos.trans_eq (nearest_eq_self hgrid).symm).trans_le (nearest_mono hpos.le hlow)⟩
        · rw [(round_eq_inf hround).2, decide_eq_false hd0.not_gt]
          exact zero_lt_inf

end Float64
