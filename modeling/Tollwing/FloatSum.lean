/-
Sums of floats, added up from left to right.

An addition that rounds is off by a unit roundoff, and `n` of them in a row by
`growth n` of what was added, whatever the order.

* `abs_toRat_addUp_sub_le` — a finite sum against the exact one;
* `abs_toRat_sub_toRat_le` — two orders of the same summands against each other;
* `abs_sum_totals_sub_le`, `abs_sum_listed_sub_le` — totals by key, added up exactly;
* `near_addUp_fibers` — and added up by the machine.
-/
import Mathlib.Algebra.BigOperators.Ring.Finset
import Mathlib.Algebra.Order.BigOperators.Group.Finset
import Tollwing.Float64
import Tollwing.KeyedFold

open Nearest KeyedFold

namespace FloatSum

/-- The exact sum. -/
def exact (xs : List Float64) : ℚ := (xs.map Float64.toRat).sum

/-- What is added altogether, whatever the signs. -/
def mass (xs : List Float64) : ℚ := (xs.map fun x => |x.toRat|).sum

/-- The part of the mass that `n` additions may be off by. -/
def growth (n : ℕ) : ℚ := (1 + unitRoundoff) ^ n - 1

theorem unitRoundoff_nonneg : 0 ≤ unitRoundoff := by
  norm_num [unitRoundoff]

theorem growth_nonneg (n : ℕ) : 0 ≤ growth n :=
  sub_nonneg.mpr (one_le_pow₀ (le_add_of_nonneg_right unitRoundoff_nonneg))

theorem growth_succ (n : ℕ) :
    growth (n + 1) = growth n * (1 + unitRoundoff) + unitRoundoff := by
  rw [growth, growth]
  ring

theorem growth_add (m n : ℕ) : growth (m + n) = growth m * (1 + growth n) + growth n := by
  rw [growth, growth, growth, pow_add]
  ring

theorem growth_mono {m n : ℕ} (h : m ≤ n) : growth m ≤ growth n :=
  sub_le_sub_right (pow_le_pow_right₀ (le_add_of_nonneg_right unitRoundoff_nonneg) h) 1

theorem mass_nonneg (xs : List Float64) : 0 ≤ mass xs := by
  refine List.sum_nonneg fun q hq => ?_
  obtain ⟨x, -, rfl⟩ := List.mem_map.mp hq
  exact abs_nonneg _

theorem abs_exact_le_mass (xs : List Float64) : |exact xs| ≤ mass xs := by
  induction xs with
  | nil => exact abs_zero.le
  | cons x xs ih =>
    rw [exact, mass, List.map_cons, List.sum_cons, List.map_cons, List.sum_cons]
    exact (abs_add_le _ _).trans (add_le_add_right ih _)

theorem mass_perm {xs ys : List Float64} (h : xs.Perm ys) : mass xs = mass ys :=
  (h.map _).sum_eq

theorem exact_perm {xs ys : List Float64} (h : xs.Perm ys) : exact xs = exact ys :=
  (h.map _).sum_eq

/-- A sum that is finite was so from the start. -/
theorem isFinite_of_foldl {xs : List Float64} {s : Float64} (h : (xs.foldl (· + ·) s).IsFinite) :
    s.IsFinite := by
  induction xs generalizing s with
  | nil => exact h
  | cons x xs ih => exact (Float64.isFinite_of_add (ih h)).1

/-- And so is each of its summands. -/
theorem isFinite_of_mem {xs : List Float64} (h : (addUp xs).IsFinite) :
    ∀ x ∈ xs, x.IsFinite := by
  induction xs using List.reverseRecOn with
  | nil => exact fun x hx => absurd hx List.not_mem_nil
  | append_singleton xs y ih =>
    rw [addUp, List.foldl_append, List.foldl_cons, List.foldl_nil] at h
    obtain ⟨hxs, hy⟩ := Float64.isFinite_of_add h
    intro x hx
    rcases List.mem_append.mp hx with hx | hx
    · exact ih hxs x hx
    · rwa [List.mem_singleton.mp hx]

/-- Each addition moves the sum so far, and what it is moved by grows with the rest. -/
theorem abs_toRat_foldl_sub_le {xs : List Float64} {s : Float64}
    (h : (xs.foldl (· + ·) s).IsFinite) :
    |(xs.foldl (· + ·) s).toRat - (s.toRat + exact xs)|
      ≤ growth xs.length * (|s.toRat| + mass xs) := by
  induction xs generalizing s with
  | nil => simp [exact, growth]
  | cons x xs ih =>
    have hadd : |(s + x).toRat - (s.toRat + x.toRat)| ≤ unitRoundoff * |s.toRat + x.toRat| :=
      Float64.abs_toRat_add_sub_le (isFinite_of_foldl h)
    have hrest := ih h
    have htri : |s.toRat + x.toRat| ≤ |s.toRat| + |x.toRat| := abs_add_le _ _
    have hu := unitRoundoff_nonneg
    have hgrowth := growth_nonneg xs.length
    have hmass : mass (x :: xs) = |x.toRat| + mass xs := List.sum_cons
    have hexact : exact (x :: xs) = x.toRat + exact xs := List.sum_cons
    -- the sum after this addition is no larger than what was added, and a roundoff
    have hsize : |(s + x).toRat| ≤ (1 + unitRoundoff) * (|s.toRat| + |x.toRat|) := by
      have hmove := abs_add_le ((s + x).toRat - (s.toRat + x.toRat)) (s.toRat + x.toRat)
      rw [sub_add_cancel] at hmove
      have hscaled := mul_le_mul_of_nonneg_left htri hu
      linarith
    have hmassPos := mass_nonneg xs
    rw [List.length_cons, growth_succ, hmass, hexact]
    calc |(xs.foldl (· + ·) (s + x)).toRat - (s.toRat + (x.toRat + exact xs))|
        ≤ |(xs.foldl (· + ·) (s + x)).toRat - ((s + x).toRat + exact xs)|
          + |(s + x).toRat - (s.toRat + x.toRat)| := by
          refine (abs_add_le _ _).trans' (le_of_eq (congrArg _ ?_))
          ring
      _ ≤ growth xs.length * (|(s + x).toRat| + mass xs)
          + unitRoundoff * (|s.toRat| + |x.toRat|) :=
        add_le_add hrest (hadd.trans (mul_le_mul_of_nonneg_left htri hu))
      _ ≤ growth xs.length * ((1 + unitRoundoff) * (|s.toRat| + |x.toRat|) + mass xs)
          + unitRoundoff * (|s.toRat| + |x.toRat|) :=
        add_le_add_left (mul_le_mul_of_nonneg_left (add_le_add_left hsize _) hgrowth) _
      _ ≤ (growth xs.length * (1 + unitRoundoff) + unitRoundoff)
          * (|s.toRat| + (|x.toRat| + mass xs)) := by
        have hslack : 0 ≤ growth xs.length * unitRoundoff * mass xs + unitRoundoff * mass xs :=
          add_nonneg (mul_nonneg (mul_nonneg hgrowth hu) hmassPos) (mul_nonneg hu hmassPos)
        linarith

/-- **A finite sum** is off by the growth of its length at most. -/
theorem abs_toRat_addUp_sub_le {xs : List Float64} (h : (addUp xs).IsFinite) :
    |(addUp xs).toRat - exact xs| ≤ growth xs.length * mass xs := by
  have hfold := abs_toRat_foldl_sub_le h
  rwa [Float64.toRat_zero, zero_add, abs_zero, zero_add] at hfold

/-- **One more addition** of what is not negative to a sum of `n` additions. -/
theorem abs_toRat_add_sub_le_growth {n : ℕ} {x c : Float64} {q : ℚ} (hq : 0 ≤ q)
    (hx : |x.toRat - q| ≤ growth n * q) (hc : 0 ≤ c.toRat) (h : (x + c).IsFinite) :
    |(x + c).toRat - (q + c.toRat)| ≤ growth (n + 1) * (q + c.toRat) := by
  have hadd := Float64.abs_toRat_add_sub_le h
  have hu := unitRoundoff_nonneg
  have hgrowth := growth_nonneg n
  have hsize : |x.toRat + c.toRat| ≤ (1 + growth n) * q + c.toRat := by
    have hle := abs_le.mp hx
    have hgq := mul_nonneg hgrowth hq
    rw [abs_le]
    constructor <;> linarith [hle.1, hle.2]
  have hgc := mul_nonneg hgrowth hc
  have hscaled := mul_le_mul_of_nonneg_left hsize hu
  have hugc := mul_nonneg hu hgc
  rw [growth_succ]
  calc |(x + c).toRat - (q + c.toRat)|
      ≤ |(x + c).toRat - (x.toRat + c.toRat)| + |x.toRat - q| := by
        refine (abs_add_le _ _).trans' (le_of_eq (congrArg _ ?_))
        ring
    _ ≤ unitRoundoff * ((1 + growth n) * q + c.toRat) + growth n * q :=
        add_le_add (hadd.trans hscaled) hx
    _ ≤ (growth n * (1 + unitRoundoff) + unitRoundoff) * (q + c.toRat) := by linarith

/-- **Two orders** of the same summands. -/
theorem abs_toRat_sub_toRat_le {xs ys : List Float64} (h : xs.Perm ys) (hx : (addUp xs).IsFinite)
    (hy : (addUp ys).IsFinite) :
    |(addUp xs).toRat - (addUp ys).toRat| ≤ 2 * (growth xs.length * mass xs) := by
  have hxs := abs_le.mp (abs_toRat_addUp_sub_le hx)
  have hys := abs_le.mp (abs_toRat_addUp_sub_le hy)
  rw [← h.length_eq, ← mass_perm h, ← exact_perm h] at hys
  rw [abs_le]
  constructor <;> linarith [hxs.1, hxs.2, hys.1, hys.2]

/-- Two floats, as far as they are finite, are no farther apart than `t`. -/
def Near (t : ℚ) (x y : Float64) : Prop :=
  x.IsFinite → y.IsFinite → |x.toRat - y.toRat| ≤ t

theorem mass_sublist {xs ys : List Float64} (h : xs.Sublist ys) : mass xs ≤ mass ys := by
  refine (h.map fun x : Float64 => |x.toRat|).sum_le_sum fun q hq => ?_
  obtain ⟨x, -, rfl⟩ := List.mem_map.mp hq
  exact abs_nonneg _

/-- Two orders of some of the summands. -/
theorem near_of_perm {xs ys zs : List Float64} (h : xs.Perm ys) (hsub : xs.Sublist zs) :
    Near (2 * (growth zs.length * mass zs)) (addUp xs) (addUp ys) := by
  intro hx hy
  have hle : growth xs.length * mass xs ≤ growth zs.length * mass zs :=
    mul_le_mul (growth_mono hsub.length_le) (mass_sublist hsub) (mass_nonneg xs)
      (growth_nonneg _)
  have hnear := abs_toRat_sub_toRat_le h hx hy
  linarith

/-! ### Totals by key -/

section
variable {κ α ρ : Type*} [DecidableEq κ] {key : ρ → κ} {cost : ρ → Float64} {rows : List ρ}

theorem exact_map (rows : List ρ) (cost : ρ → Float64) :
    exact (rows.map cost) = (rows.map fun r => (cost r).toRat).sum := by
  rw [exact, List.map_map]
  rfl

theorem mass_map (rows : List ρ) (cost : ρ → Float64) :
    mass (rows.map cost) = (rows.map fun r => |(cost r).toRat|).sum := by
  rw [mass, List.map_map]
  rfl

/-- Totals of some keys, added up again, are off by no more than one long sum is. -/
theorem abs_sum_fibers_sub_le (key : ρ → κ) (cost : ρ → Float64) (rows : List ρ) (S : Finset κ)
    (total : κ → Float64)
    (h : ∀ k ∈ S, total k = addUp ((rows.filter fun r => key r = k).map cost))
    (hfin : ∀ k ∈ S, (total k).IsFinite) :
    |∑ k ∈ S, (total k).toRat - exact ((rows.filter fun r => key r ∈ S).map cost)|
      ≤ growth rows.length * mass ((rows.filter fun r => key r ∈ S).map cost) := by
  have hfiber : ∀ k ∈ S,
      |(total k).toRat - ((rows.filter fun r => key r = k).map fun r => (cost r).toRat).sum|
        ≤ growth rows.length
          * ((rows.filter fun r => key r = k).map fun r => |(cost r).toRat|).sum := by
    intro k hk
    have hle : ((rows.filter fun r => key r = k).map cost).length ≤ rows.length := by
      rw [List.length_map]
      exact List.length_filter_le _ _
    rw [h k hk, ← exact_map, ← mass_map]
    exact (abs_toRat_addUp_sub_le (h k hk ▸ hfin k hk)).trans
      (mul_le_mul_of_nonneg_right (growth_mono hle) (mass_nonneg _))
  rw [exact_map, mass_map, ← sum_fibers, ← sum_fibers,
    ← Finset.sum_sub_distrib, Finset.mul_sum]
  exact (Finset.abs_sum_le_sum_abs _ _).trans (Finset.sum_le_sum hfiber)

/-- The totals of all keys, added up by the machine, and the machine's total of the records. -/
theorem near_addUp_fibers {ks : List κ} (hks : ks.Nodup) (hkeys : ∀ r ∈ rows, key r ∈ ks) :
    Near (2 * (growth (ks.length + rows.length) * mass (rows.map cost)))
      (addUp (ks.map fun k => addUp ((rows.filter fun r => key r = k).map cost)))
      (addUp (rows.map cost)) := by
  intro hcol htotal
  have hall : (rows.filter fun r => key r ∈ ks.toFinset) = rows :=
    List.filter_eq_self.mpr fun r hr => decide_eq_true (List.mem_toFinset.mpr (hkeys r hr))
  have hfin : ∀ k ∈ ks, (addUp ((rows.filter fun r => key r = k).map cost)).IsFinite :=
    fun k hk => isFinite_of_mem hcol _ (List.mem_map_of_mem hk)
  have hfibers := abs_sum_fibers_sub_le key cost rows ks.toFinset
    (fun k => addUp ((rows.filter fun r => key r = k).map cost)) (fun _ _ => rfl)
    fun k hk => hfin k (List.mem_toFinset.mp hk)
  rw [hall, List.sum_toFinset _ hks] at hfibers
  have hcolumn := abs_toRat_addUp_sub_le hcol
  rw [exact_map, List.length_map] at hcolumn
  have hrows := abs_toRat_addUp_sub_le htotal
  rw [List.length_map] at hrows
  -- each total is as large as its records and their growth
  have hmass : mass (ks.map fun k => addUp ((rows.filter fun r => key r = k).map cost))
      ≤ (1 + growth rows.length) * mass (rows.map cost) := by
    have hsum : mass (rows.map cost)
        = (ks.map fun k => mass ((rows.filter fun r => key r = k).map cost)).sum := by
      rw [mass_map, ← List.sum_toFinset _ hks]
      simp only [mass_map]
      rw [sum_fibers, hall]
    rw [mass_map, hsum, ← List.sum_map_mul_left]
    refine List.sum_le_sum fun k hk => ?_
    have hk' := abs_toRat_addUp_sub_le (hfin k hk)
    have hgrow : growth ((rows.filter fun r => key r = k).map cost).length
        ≤ growth rows.length := by
      rw [List.length_map]
      exact growth_mono (List.length_filter_le _ _)
    have hexact := abs_exact_le_mass ((rows.filter fun r => key r = k).map cost)
    have hscaled := mul_le_mul_of_nonneg_right hgrow
      (mass_nonneg ((rows.filter fun r => key r = k).map cost))
    rw [abs_le] at hk' hexact ⊢
    constructor <;> linarith [hk'.1, hk'.2, hexact.1, hexact.2]
  have hscaled := mul_le_mul_of_nonneg_left hmass (growth_nonneg ks.length)
  have hslack := mul_nonneg (mul_nonneg (growth_nonneg ks.length)
    (add_nonneg zero_le_one (growth_nonneg rows.length))) (mass_nonneg (rows.map cost))
  rw [growth_add]
  rw [abs_le] at hfibers hcolumn hrows ⊢
  constructor <;>
    linarith [hfibers.1, hfibers.2, hcolumn.1, hcolumn.2, hrows.1, hrows.2]

variable {m : FinMap κ α} {μ : α → Float64}

/-- **The totals of a map**, added up. -/
theorem abs_sum_totals_sub_le
    (h : ∀ k v, m.lookup k = some v → μ v = addUp ((rows.filter fun r => key r = k).map cost))
    (hkeys : ∀ r ∈ rows, key r ∈ m.keys)
    (hfin : ∀ k v, m.lookup k = some v → (μ v).IsFinite) :
    |m.sum (fun _ v => (μ v).toRat) - exact (rows.map cost)|
      ≤ growth rows.length * mass (rows.map cost) := by
  have hlookup : ∀ k ∈ m.keys, ∃ v, m.lookup k = some v := fun k hk =>
    Option.ne_none_iff_exists'.mp (FinMap.mem_keys_iff_lookup.mp hk)
  have hall : (rows.filter fun r => key r ∈ m.keys) = rows :=
    List.filter_eq_self.mpr fun r hr => decide_eq_true (hkeys r hr)
  have hfibers := abs_sum_fibers_sub_le key cost rows m.keys
    (fun k => (m.lookup k).elim 0 μ)
    (fun k hk => by
      obtain ⟨v, hv⟩ := hlookup k hk
      rw [hv]
      exact h k v hv)
    (fun k hk => by
      obtain ⟨v, hv⟩ := hlookup k hk
      rw [hv]
      exact hfin k v hv)
  rw [hall] at hfibers
  rw [FinMap.sum_eq_sum_keys]
  have hterm : ∀ k ∈ m.keys, (m.lookup k).elim 0 (fun v => (μ v).toRat)
      = ((m.lookup k).elim 0 μ).toRat := by
    intro k hk
    obtain ⟨v, hv⟩ := hlookup k hk
    rw [hv]
    rfl
  rwa [Finset.sum_congr rfl hterm]

/-- **Some of them**, listed once each. -/
theorem abs_sum_listed_sub_le
    (h : ∀ k v, m.lookup k = some v → μ v = addUp ((rows.filter fun r => key r = k).map cost))
    {ks : List κ} (hks : ks.Nodup) (hmem : ∀ k ∈ ks, k ∈ m.keys)
    (hfin : ∀ k ∈ ks, ∀ v, m.lookup k = some v → (μ v).IsFinite) :
    |exact ((ks.filterMap fun k => m.lookup k).map μ)
        - exact ((rows.filter fun r => key r ∈ ks).map cost)|
      ≤ growth rows.length * mass ((rows.filter fun r => key r ∈ ks).map cost) := by
  have hlookup : ∀ k ∈ ks, ∃ v, m.lookup k = some v := fun k hk =>
    Option.ne_none_iff_exists'.mp (FinMap.mem_keys_iff_lookup.mp (hmem k hk))
  have hfibers := abs_sum_fibers_sub_le key cost rows ks.toFinset
    (fun k => (m.lookup k).elim 0 μ)
    (fun k hk => by
      obtain ⟨v, hv⟩ := hlookup k (List.mem_toFinset.mp hk)
      rw [hv]
      exact h k v hv)
    (fun k hk => by
      obtain ⟨v, hv⟩ := hlookup k (List.mem_toFinset.mp hk)
      rw [hv]
      exact hfin k (List.mem_toFinset.mp hk) v hv)
  simp only [List.mem_toFinset] at hfibers
  have hlist : exact ((ks.filterMap fun k => m.lookup k).map μ)
      = ∑ k ∈ ks.toFinset, ((m.lookup k).elim 0 μ).toRat := by
    rw [List.sum_toFinset _ hks]
    clear hks hfibers hfin
    induction ks with
    | nil => rfl
    | cons k ks ih =>
      obtain ⟨v, hv⟩ := hlookup k List.mem_cons_self
      rw [List.filterMap_cons_some (f := fun k => m.lookup k) hv, List.map_cons, exact,
        List.map_cons, List.sum_cons, List.map_cons, List.sum_cons, hv]
      refine congrArg _ (ih (fun k' hk' => hmem k' (List.mem_cons_of_mem _ hk'))
        fun k' hk' => hlookup k' (List.mem_cons_of_mem _ hk'))
  rwa [hlist]

end

end FloatSum
