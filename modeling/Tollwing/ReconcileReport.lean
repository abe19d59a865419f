/-
The breakdown of the reconciliation report (`pkg/cost/reconcile.go`).

`Reconciler.breakdown` is `ByType` as the slice it is: `mergeKeys` ranges over
the two maps, each in an order of its own, and lists a type the first time it is
met.  Any two orders will do here.

* `Reconciler.breakdown_toFinset` — it lists the rows of `Reconciler.reconcile`;
* `Reconciler.near_measuredColumn`, `Reconciler.near_billedColumn` — its columns add
  up to the totals, as far as floats do;
* `Reconciler.reconcile_coherent` — the figures of the report fit together;
* `Reconciler.driftAgrees_iff` — when the drift by type follows the drift of the
  totals, and the alert names the worst type;
* `Reconciler.near_totals` — types that agree leave the totals to rounding alone.
-/
import Mathlib.Data.String.Basic
import Mathlib.Tactic.NormNum
import Mathlib.Tactic.Positivity
import Tollwing.FloatQuotient
import Tollwing.FloatSum
import Tollwing.Reconcile

open KeyedFold Nearest

/-- One loop of `mergeKeys`; `seen` is the keys listed so far. -/
def addKeys (keys range : List String) : List String :=
  range.foldl (fun keys k => if k ∈ keys then keys else keys ++ [k]) keys

/-- `mergeKeys`, as the slice it returns. -/
def listKeys (orderA orderB : RangeOrder String) (a b : FinMap String Float64) : List String :=
  addKeys (addKeys [] (orderA.keys a.keys)) (orderB.keys b.keys)

/-- `DriftAlertPayload`.  The source formats the times of the period. -/
structure DriftAlertPayload where
  alertType : String
  severity : String
  accuracyPct : Float64
  driftPct : Float64
  measuredUSD : Float64
  billedUSD : Float64
  unaccountedUSD : Float64
  periodStart : Time
  periodEnd : Time
  worstDrift : Option (String × Float64)

/-- The loop that finds the type with the highest drift. -/
def worstType (rows : List (TypeReconciliation Float64)) : String × Float64 :=
  rows.foldl (fun worst t => if worst.2 < t.driftPct then (t.usageType, t.driftPct) else worst)
    ("", 0)

/-- `DriftAlertPayload` of a report that lists its types as `rows`. -/
def ReconciliationReport.driftAlertPayload (r : ReconciliationReport Float64)
    (rows : List (TypeReconciliation Float64)) : DriftAlertPayload :=
  { alertType := "billing_drift"
    severity := "warning"
    accuracyPct := r.accuracyPct
    driftPct := r.driftPct
    measuredUSD := r.measuredCost
    billedUSD := r.billedCost
    unaccountedUSD := r.unaccountedUSD
    periodStart := r.period.start
    periodEnd := r.period.stop
    worstDrift := if (worstType rows).1 ≠ "" then some (worstType rows) else none }

/-! ### The keys -/

theorem mem_addKeys {keys range : List String} {k : String} :
    k ∈ addKeys keys range ↔ k ∈ keys ∨ k ∈ range := by
  induction range generalizing keys with
  | nil => simp [addKeys]
  | cons k' range ih =>
    rw [addKeys, List.foldl_cons, ← addKeys, ih]
    by_cases hk : k' ∈ keys
    · rw [if_pos hk, List.mem_cons]
      constructor
      · rintro (h | h)
        · exact Or.inl h
        · exact Or.inr (Or.inr h)
      · rintro (h | rfl | h)
        · exact Or.inl h
        · exact Or.inl hk
        · exact Or.inr h
    · simp [hk, or_assoc]

theorem nodup_addKeys {keys range : List String} (h : keys.Nodup) : (addKeys keys range).Nodup := by
  induction range generalizing keys with
  | nil => exact h
  | cons k range ih =>
    rw [addKeys, List.foldl_cons, ← addKeys]
    by_cases hk : k ∈ keys
    · rw [if_pos hk]
      exact ih h
    · rw [if_neg hk]
      refine ih (List.nodup_append.mpr ⟨h, List.nodup_singleton k, ?_⟩)
      rintro k₁ hk₁ k₂ hk₂ rfl
      rw [List.mem_singleton.mp hk₂] at hk₁
      exact hk hk₁

variable (orderA orderB : RangeOrder String)

theorem nodup_listKeys (a b : FinMap String Float64) : (listKeys orderA orderB a b).Nodup :=
  nodup_addKeys (nodup_addKeys List.nodup_nil)

/-- Each key of either map is listed. -/
theorem toFinset_listKeys (a b : FinMap String Float64) :
    (listKeys orderA orderB a b).toFinset = mergeKeys a b := by
  ext k
  simp [listKeys, mem_addKeys, mergeKeys, orderA.mem_keys, orderB.mem_keys]

namespace Reconciler

variable {measured : List (CostResult Float64)} {items : List (BillingLineItem Float64)}

/-- `ByType`, in the order in which the types are listed. -/
def breakdown (measured : List (CostResult Float64)) (items : List (BillingLineItem Float64)) :
    List (TypeReconciliation Float64) :=
  (listKeys orderA orderB (measuredByType measured) (billedByType items)).map
    (typeRow (measuredByType measured) (billedByType items))

/-- **The breakdown lists the rows of the report.** -/
theorem breakdown_toFinset (r : Reconciler Float64) (measured : List (CostResult Float64))
    (billing : BillingData Float64) :
    (breakdown orderA orderB measured billing.lineItems).toFinset
      = (r.reconcile measured billing).byType := by
  show _ = (mergeKeys _ _).image _
  rw [breakdown, ← toFinset_listKeys orderA orderB]
  ext row
  simp

/-- The types of the breakdown are those of the flows and of the bill. -/
theorem mem_types {t : String} :
    t ∈ listKeys orderA orderB (measuredByType measured) (billedByType items)
      ↔ (∃ r ∈ measured, r.trafficType.string = t) ∨
          ∃ li ∈ items, mapUsageType li.usageType = t := by
  rw [← List.mem_toFinset, toFinset_listKeys, mergeKeys, Finset.mem_union, measuredByType,
    billedByType, KeyedFold.mem_keys_foldl_add, KeyedFold.mem_keys_foldl_add]

theorem mem_breakdown {row : TypeReconciliation Float64} :
    row ∈ breakdown orderA orderB measured items
      ↔ ∃ t, ((∃ r ∈ measured, r.trafficType.string = t) ∨
            ∃ li ∈ items, mapUsageType li.usageType = t) ∧
          row = ⟨t, measuredUSD measured t, billedUSD items t,
            typeDrift (measuredUSD measured t) (billedUSD items t)⟩ := by
  rw [breakdown, List.mem_map]
  simp only [typeRow_eq, mem_types, eq_comm]

theorem breakdown_map_usageType :
    (breakdown orderA orderB measured items).map TypeReconciliation.usageType
      = listKeys orderA orderB (measuredByType measured) (billedByType items) := by
  rw [breakdown, List.map_map]
  exact List.map_id _

theorem length_breakdown :
    (breakdown orderA orderB measured items).length
      = (listKeys orderA orderB (measuredByType measured) (billedByType items)).length :=
  List.length_map _

/-! ### The columns -/

open FloatSum (Near growth mass near_addUp_fibers)

/-- The measured column adds up to the measured total, but for rounding. -/
theorem near_measuredColumn (measured : List (CostResult Float64))
    (items : List (BillingLineItem Float64)) :
    Near (2 * (growth ((breakdown orderA orderB measured items).length + measured.length)
        * mass (measured.map CostResult.costUSD)))
      (addUp ((breakdown orderA orderB measured items).map TypeReconciliation.measuredCost))
      (addUp (measured.map CostResult.costUSD)) := by
  rw [length_breakdown, breakdown, List.map_map]
  simp only [Function.comp_def, typeRow_eq]
  refine near_addUp_fibers (nodup_listKeys orderA orderB _ _) ?_
  intro r hr
  exact (mem_types orderA orderB).mpr (Or.inl ⟨r, hr, rfl⟩)

/-- So does the billed column to the bill. -/
theorem near_billedColumn (measured : List (CostResult Float64))
    (items : List (BillingLineItem Float64)) :
    Near (2 * (growth ((breakdown orderA orderB measured items).length + items.length)
        * mass (items.map BillingLineItem.costUSD)))
      (addUp ((breakdown orderA orderB measured items).map TypeReconciliation.billedCost))
      (addUp (items.map BillingLineItem.costUSD)) := by
  rw [length_breakdown, breakdown, List.map_map]
  simp only [Function.comp_def, typeRow_eq]
  refine near_addUp_fibers (nodup_listKeys orderA orderB _ _) ?_
  intro li hli
  exact (mem_types orderA orderB).mpr (Or.inr ⟨li, hli, rfl⟩)

/-! ### The arithmetic of the report -/

/-- The rows list each type of the flows and of the bill once. -/
structure ListsTypes (measured : List (CostResult Float64))
    (items : List (BillingLineItem Float64)) (rows : List (TypeReconciliation Float64)) : Prop where
  nodup : (rows.map TypeReconciliation.usageType).Nodup
  types : ∀ t, t ∈ rows.map TypeReconciliation.usageType ↔
    (∃ m ∈ measured, m.trafficType.string = t) ∨ ∃ li ∈ items, mapUsageType li.usageType = t

/-- A reconciliation without a division by zero whose figures fit together exactly. -/
structure Consistent (measured : List (CostResult Float64))
    (items : List (BillingLineItem Float64)) (report : ReconciliationReport Float64)
    (rows : List (TypeReconciliation Float64)) : Prop extends ListsTypes measured items rows where
  accuracy : report.accuracyPct.IsFinite
  drift : report.driftPct.IsFinite
  factor : report.correctionFactor.IsFinite
  corrects : 0 < report.measuredCost → 0 < report.billedCost →
    report.measuredCost * report.correctionFactor = report.billedCost
  unaccounted : report.unaccountedUSD = report.billedCost - report.measuredCost
  measuredColumn : addUp (rows.map TypeReconciliation.measuredCost) = report.measuredCost
  billedColumn : addUp (rows.map TypeReconciliation.billedCost) = report.billedCost

/-- How many times another total a total may be. -/
@[irreducible] def reach : ℚ := 2 ^ (1000 : ℤ)

/-- Finite totals within reach of each other. -/
structure Comparable (m b : Float64) : Prop where
  measured : m.IsFinite
  billed : b.IsFinite
  measured_le : m.toRat ≤ reach * b.toRat
  billed_le : b.toRat ≤ reach * m.toRat

/-- A reconciliation whose figures fit together as far as floats do.  Totals out of reach of
each other, and so a bill for which nothing was measured, are left open. -/
structure Coherent (measured : List (CostResult Float64))
    (items : List (BillingLineItem Float64)) (report : ReconciliationReport Float64)
    (rows : List (TypeReconciliation Float64)) : Prop extends ListsTypes measured items rows where
  lists : rows.toFinset = report.byType
  unaccounted : report.unaccountedUSD = report.billedCost - report.measuredCost
  unbilled : ¬0 < report.billedCost → report.correctionFactor = 1 ∧
    (report.accuracyPct, report.driftPct) = if 0 < report.measuredCost then (0, 100) else (100, 0)
  finite : 0 < report.billedCost → Comparable report.measuredCost report.billedCost →
    report.accuracyPct.IsFinite ∧ report.driftPct.IsFinite ∧ report.correctionFactor.IsFinite
  corrects : 0 < report.billedCost → Comparable report.measuredCost report.billedCost →
    (report.measuredCost * report.correctionFactor).IsFinite →
      |(report.measuredCost * report.correctionFactor).toRat - report.billedCost.toRat|
        ≤ growth 2 * report.billedCost.toRat
          + 2 * (report.measuredCost.toRat + 1) * smallest
  measuredColumn : Near
    (2 * (growth (rows.length + measured.length) * mass (measured.map CostResult.costUSD)))
    (addUp (rows.map TypeReconciliation.measuredCost)) report.measuredCost
  billedColumn : Near
    (2 * (growth (rows.length + items.length) * mass (items.map BillingLineItem.costUSD)))
    (addUp (rows.map TypeReconciliation.billedCost)) report.billedCost

section Figures
open Float64

theorem reach_onGrid : OnGrid reach := ⟨1, 1000, by norm_num, by norm_num, by simp [reach]⟩

theorem reach_mul_onGrid : OnGrid (128 * reach) :=
  ⟨128, 1000, by norm_num, by norm_num, by rw [reach]; norm_num⟩

theorem one_le_reach : 1 ≤ reach := by
  rw [reach]
  exact one_le_zpow₀ one_le_two (by norm_num)

theorem reach_mul_le_largest : 128 * reach ≤ largest := by
  have hle : 128 * 2 ^ 1000 ≤ largest := by decide +kernel
  rw [reach]
  exact_mod_cast hle

/-- A hundred times a figure within reach is finite. -/
theorem isFinite_percent {x : Float64} (hx : x.IsFinite) (h : |x.toRat| ≤ reach) :
    (x * 100).IsFinite := by
  obtain ⟨hfin, hval⟩ := toRat_natCast (show 100 < 2 ^ 53 by norm_num)
  obtain ⟨s, hmul⟩ := mul_eq_round hx hfin
  rw [Nat.cast_ofNat] at hmul hval
  rw [hmul]
  refine (round_within reach_mul_onGrid reach_mul_le_largest ?_).1
  rw [hval, abs_mul]
  norm_num
  linarith [one_le_reach]

variable {m b : Float64} (hb : 0 < b) (h : Comparable m b)
include hb h

theorem Comparable.pos : 0 < b.toRat ∧ 0 < m.toRat := by
  have hbpos : 0 < b.toRat := toRat_pos_iff.mpr ⟨hb, h.billed⟩
  refine ⟨hbpos, ?_⟩
  by_contra hm
  have hle := mul_nonpos_of_nonneg_of_nonpos (zero_le_one.trans one_le_reach) (not_lt.mp hm)
  exact absurd (hbpos.trans_le h.billed_le) (not_lt.mpr hle)

/-- The quotient of the two totals is within reach. -/
theorem Comparable.accuracy : (m / b).IsFinite ∧ |(m / b).toRat| ≤ reach := by
  obtain ⟨hbpos, hmpos⟩ := h.pos hb
  obtain ⟨s, hdiv⟩ := div_eq_round h.measured h.billed hbpos.ne'
  rw [hdiv]
  refine round_within reach_onGrid (le_trans ?_ reach_mul_le_largest) ?_
  · linarith [one_le_reach]
  · rw [abs_of_pos (div_pos hmpos hbpos), div_le_iff₀ hbpos]
    exact h.measured_le

/-- So is their relative difference. -/
theorem Comparable.drift :
    (MathAbs.abs (m - b) / b).IsFinite ∧ |(MathAbs.abs (m - b) / b).toRat| ≤ reach := by
  obtain ⟨hbpos, hmpos⟩ := h.pos hb
  obtain ⟨s, hsub⟩ := sub_eq_round h.measured h.billed
  have habs : MathAbs.abs (m - b) = Float64.round false |m.toRat - b.toRat| := by
    rw [hsub]
    exact abs_round s _
  -- the difference is no larger than the larger total
  have hmax : |(|m.toRat - b.toRat|)| ≤ max m.toRat b.toRat := by
    rw [abs_abs, abs_le]
    constructor <;> linarith [le_max_left m.toRat b.toRat, le_max_right m.toRat b.toRat]
  have hgrid : OnGrid (max m.toRat b.toRat) ∧ max m.toRat b.toRat ≤ largest := by
    have hm := onGrid_abs_toRat m
    have hb' := onGrid_abs_toRat b
    have hml := abs_toRat_le_largest m
    have hbl := abs_toRat_le_largest b
    rw [abs_of_pos hmpos] at hm hml
    rw [abs_of_pos hbpos] at hb' hbl
    rcases max_choice m.toRat b.toRat with hmax | hmax
    · rw [hmax]
      exact ⟨hm, hml⟩
    · rw [hmax]
      exact ⟨hb', hbl⟩
  obtain ⟨hfin, hle⟩ := round_within (s := false) hgrid.1 hgrid.2 hmax
  obtain ⟨r, hdiv⟩ := div_eq_round hfin h.billed hbpos.ne'
  rw [habs, hdiv]
  refine round_within reach_onGrid (le_trans ?_ reach_mul_le_largest) ?_
  · linarith [one_le_reach]
  · rw [abs_div, abs_of_pos hbpos, div_le_iff₀ hbpos]
    refine hle.trans (max_le h.measured_le ?_)
    exact le_mul_of_one_le_left hbpos.le one_le_reach

/-- And the correction factor. -/
theorem Comparable.factor : (b / m).IsFinite := by
  obtain ⟨hbpos, hmpos⟩ := h.pos hb
  obtain ⟨s, hdiv⟩ := div_eq_round h.billed h.measured hmpos.ne'
  rw [hdiv]
  refine (round_within reach_onGrid (le_trans ?_ reach_mul_le_largest) ?_).1
  · linarith [one_le_reach]
  · rw [abs_of_pos (div_pos hbpos hmpos), div_le_iff₀ hmpos]
    exact h.billed_le

/-- Corrected by the factor, the measured cost is the bill, but for two roundings. -/
theorem Comparable.corrects (hfin : (m * (b / m)).IsFinite) :
    |(m * (b / m)).toRat - b.toRat| ≤ growth 2 * b.toRat + 2 * (m.toRat + 1) * smallest := by
  obtain ⟨hbpos, hmpos⟩ := h.pos hb
  have hfactor := h.factor hb
  obtain ⟨s, hdiv⟩ := div_eq_round h.billed h.measured hmpos.ne'
  obtain ⟨r, hmul⟩ := mul_eq_round h.measured hfactor
  rw [hmul] at hfin ⊢
  have hproduct := abs_toRat_round_sub_le hfin
  rw [hdiv] at hfactor hproduct ⊢
  have hquotient := abs_toRat_round_sub_le hfactor
  generalize (Float64.round s (b.toRat / m.toRat)).toRat = f at *
  -- times the measured cost, the quotient is off by what the bill is off by
  have hoff : |m.toRat * f - b.toRat| ≤ unitRoundoff * b.toRat + m.toRat * smallest := by
    have hscaled := mul_le_mul_of_nonneg_left hquotient hmpos.le
    rw [← abs_of_pos hmpos, ← abs_mul, abs_of_pos hmpos, mul_sub, mul_div_cancel₀ _ hmpos.ne',
      abs_of_pos (div_pos hbpos hmpos)] at hscaled
    refine hscaled.trans_eq ?_
    field_simp
  have hsize : |m.toRat * f| ≤ b.toRat + (unitRoundoff * b.toRat + m.toRat * smallest) := by
    have hle := abs_le.mp hoff
    rw [abs_le]
    constructor <;> linarith [hle.1, hle.2, smallest_pos]
  have hslack : unitRoundoff * (m.toRat * smallest) ≤ m.toRat * smallest :=
    mul_le_of_le_one_left (mul_pos hmpos smallest_pos).le (by norm_num [unitRoundoff])
  have hscaled := mul_le_mul_of_nonneg_left hsize FloatSum.unitRoundoff_nonneg
  rw [growth]
  rw [abs_le] at hoff hproduct ⊢
  constructor <;> linarith [hoff.1, hoff.2, hproduct.1, hproduct.2, smallest_pos]

end Figures

theorem listsTypes_breakdown (measured : List (CostResult Float64))
    (items : List (BillingLineItem Float64)) :
    ListsTypes measured items (breakdown orderA orderB measured items) := by
  refine ⟨?_, fun t => ?_⟩
  · rw [breakdown_map_usageType]
    exact nodup_listKeys orderA orderB _ _
  · rw [breakdown_map_usageType]
    exact mem_types orderA orderB

theorem figures_eq (r : Reconciler Float64) (measured : List (CostResult Float64))
    (billing : BillingData Float64) :
    ((r.reconcile measured billing).accuracyPct, (r.reconcile measured billing).driftPct,
      (r.reconcile measured billing).correctionFactor)
        = overall (r.reconcile measured billing).measuredCost
            (r.reconcile measured billing).billedCost :=
  rfl

/-- **The figures of a report fit together**, for any flows and any bill. -/
theorem reconcile_coherent (r : Reconciler Float64) (measured : List (CostResult Float64))
    (billing : BillingData Float64) :
    Coherent measured billing.lineItems (r.reconcile measured billing)
      (breakdown orderA orderB measured billing.lineItems) := by
  have hfigures := figures_eq r measured billing
  refine
    { toListsTypes := listsTypes_breakdown orderA orderB measured billing.lineItems
      lists := breakdown_toFinset orderA orderB r measured billing
      unaccounted := rfl
      unbilled := ?_
      finite := ?_
      corrects := ?_
      measuredColumn := near_measuredColumn orderA orderB measured billing.lineItems
      billedColumn := near_billedColumn orderA orderB measured billing.lineItems }
  · intro hb
    rw [overall, if_neg hb] at hfigures
    split_ifs at hfigures ⊢ with hm
    · rw [Prod.mk.injEq, Prod.mk.injEq] at hfigures
      exact ⟨hfigures.2.2, Prod.ext hfigures.1 hfigures.2.1⟩
    · rw [Prod.mk.injEq, Prod.mk.injEq] at hfigures
      exact ⟨hfigures.2.2, Prod.ext hfigures.1 hfigures.2.1⟩
  · intro hb hcomp
    rw [overall, if_pos hb, Prod.mk.injEq, Prod.mk.injEq] at hfigures
    rw [hfigures.1, hfigures.2.1, hfigures.2.2]
    obtain ⟨haccuracy, hle⟩ := hcomp.accuracy hb
    obtain ⟨hdrift, hle'⟩ := hcomp.drift hb
    exact ⟨isFinite_percent haccuracy hle, isFinite_percent hdrift hle', hcomp.factor hb⟩
  · intro hb hcomp
    rw [overall, if_pos hb, Prod.mk.injEq, Prod.mk.injEq] at hfigures
    rw [hfigures.2.2]
    exact hcomp.corrects hb

/-- Forty-nine dollars corrected to one: no float is a forty-ninth.  Of three flows the
two types come to another total.  And what was not measured has no factor, nor has what
hardly was. -/
theorem figures_inconsistent :
    let line (usd : Float64) : BillingLineItem Float64 := ⟨"DataTransfer-Out-Bytes", usd⟩
    let flow (t : TrafficType) (usd : Float64) : CostResult Float64 := ⟨⟨t, 0, 0⟩, usd⟩
    let mixed := [flow .crossAZ 0.3, flow .internetEgress 0.2, flow .crossAZ 0.1]
    ∀ input ∈ [([flow .internetEgress 49], [line 1]), (mixed, []), ([], [line 10]),
        ([flow .internetEgress 1e-308], [line 10])],
      (∀ m ∈ input.1, 0 ≤ m.costUSD) ∧ (∀ li ∈ input.2, 0 ≤ li.costUSD) ∧
        ∃ order : RangeOrder String, ¬ Consistent input.1 input.2
          ((newReconciler ⟨0⟩).reconcile input.1 ⟨⟨⟨0, 0⟩, ⟨1, 0⟩⟩, input.2⟩)
          (breakdown order order input.1 input.2) := by
  intro line flow mixed
  obtain ⟨order, horder⟩ := RangeOrder.exists_keys
    (s := {TrafficType.crossAZ.string, TrafficType.internetEgress.string})
    (l := [TrafficType.crossAZ.string, TrafficType.internetEgress.string]) (by decide) (by simp)
  have hnone : order.keys ∅ = [] :=
    List.eq_nil_iff_forall_not_mem.mpr fun k hk => absurd ((order.mem_keys ∅ k).mp hk) (by simp)
  have hkeys : (measuredByType mixed).keys
      = {TrafficType.crossAZ.string, TrafficType.internetEgress.string} := by decide +kernel
  have hempty : (∅ : FinMap String Float64).keys = ∅ := rfl
  have hlist : listKeys order order (measuredByType mixed) (billedByType [])
      = [TrafficType.crossAZ.string, TrafficType.internetEgress.string] := by
    rw [listKeys, hkeys, horder, billedByType, List.foldl_nil, hempty, hnone]
    decide
  refine List.forall_mem_cons.mpr ⟨⟨by decide +kernel, by decide +kernel, order, fun h => ?_⟩,
    List.forall_mem_cons.mpr ⟨⟨by decide +kernel, by decide +kernel, order, fun h => ?_⟩,
      List.forall_mem_cons.mpr ⟨⟨by decide +kernel, by decide +kernel, order, fun h => ?_⟩,
        List.forall_mem_singleton.mpr
          ⟨by decide +kernel, by decide +kernel, order, fun h => ?_⟩⟩⟩⟩
  · exact absurd (h.corrects (by decide +kernel) (by decide +kernel)) (by decide +kernel)
  · have hcolumn := h.measuredColumn
    rw [breakdown, hlist] at hcolumn
    exact absurd hcolumn (by decide +kernel)
  · exact absurd h.factor (by decide +kernel)
  · exact absurd h.factor (by decide +kernel)

/-! ### The worst type -/

theorem mapUsageType_ne_empty (usageType : String) : mapUsageType usageType ≠ "" := by
  rw [mapUsageType]
  split_ifs <;> decide

theorem trafficType_string_ne_empty (t : TrafficType) : t.string ≠ "" := by
  cases t <;> decide

/-- Every type of the breakdown has a name. -/
theorem usageType_ne_empty {row : TypeReconciliation Float64}
    (h : row ∈ breakdown orderA orderB measured items) : row.usageType ≠ "" := by
  obtain ⟨t, ⟨m, -, rfl⟩ | ⟨li, -, rfl⟩, rfl⟩ := (mem_breakdown orderA orderB).mp h
  · exact trafficType_string_ne_empty m.trafficType
  · exact mapUsageType_ne_empty li.usageType

/-- The loop keeps what it has, or a row with a higher drift than that; in
either case no row has a higher one.  A drift that is no number is passed over. -/
theorem worst_foldl (rows : List (TypeReconciliation Float64)) (w : String × Float64) :
    let worst := rows.foldl
      (fun worst t => if worst.2 < t.driftPct then (t.usageType, t.driftPct) else worst) w
    (∀ row ∈ rows, ¬worst.2 < row.driftPct) ∧
      (worst = w ∨ ∃ row ∈ rows, w.2 < row.driftPct ∧ worst = (row.usageType, row.driftPct)) := by
  induction rows generalizing w with
  | nil => exact ⟨fun row hrow => absurd hrow List.not_mem_nil, Or.inl rfl⟩
  | cons row rows ih =>
    rw [List.foldl_cons]
    by_cases hrow : w.2 < row.driftPct
    · rw [if_pos hrow]
      obtain ⟨hall, hfrom⟩ := ih (row.usageType, row.driftPct)
      rcases hfrom with heq | ⟨row', hmem, hlt, heq⟩
      · refine ⟨List.forall_mem_cons.mpr ⟨?_, hall⟩, Or.inr ⟨row, List.mem_cons_self, hrow, heq⟩⟩
        rw [heq]
        exact Float64.not_lt_self row.driftPct
      · refine ⟨List.forall_mem_cons.mpr ⟨?_, hall⟩, Or.inr
          ⟨row', List.mem_cons_of_mem row hmem, IsTrans.trans _ _ _ hrow hlt, heq⟩⟩
        rw [heq]
        exact Float64.lt_asymm hlt
    · rw [if_neg hrow]
      obtain ⟨hall, hfrom⟩ := ih w
      rcases hfrom with heq | ⟨row', hmem, hlt, heq⟩
      · refine ⟨List.forall_mem_cons.mpr ⟨?_, hall⟩, Or.inl heq⟩
        rwa [heq]
      · refine ⟨List.forall_mem_cons.mpr ⟨fun hlow => hrow ?_, hall⟩, Or.inr
          ⟨row', List.mem_cons_of_mem row hmem, hlt, heq⟩⟩
        rw [heq] at hlow
        exact IsTrans.trans _ _ _ hlt hlow

/-- Without drift in any row the alert names no type. -/
theorem worstDrift_eq_none (report : ReconciliationReport Float64)
    {rows : List (TypeReconciliation Float64)} (h : ∀ row ∈ rows, ¬0 < row.driftPct) :
    (report.driftAlertPayload rows).worstDrift = none := by
  obtain ⟨-, hfrom⟩ := worst_foldl rows ("", 0)
  have hnone : (worstType rows).1 = "" := by
    rcases hfrom with heq | ⟨row, hrow, hlt, -⟩
    · exact congrArg Prod.fst heq
    · exact absurd hlt (h row hrow)
  exact if_neg (not_not.mpr hnone)

/-- With drift in some row it names a row such that no other has a higher drift. -/
theorem worstDrift_eq_some (report : ReconciliationReport Float64)
    {rows : List (TypeReconciliation Float64)} (hnames : ∀ row ∈ rows, row.usageType ≠ "")
    {row : TypeReconciliation Float64} (hrow : row ∈ rows) (hdrift : 0 < row.driftPct) :
    ∃ worst ∈ rows, (report.driftAlertPayload rows).worstDrift
        = some (worst.usageType, worst.driftPct) ∧
      ∀ row' ∈ rows, ¬worst.driftPct < row'.driftPct := by
  obtain ⟨hall, hfrom⟩ := worst_foldl rows ("", 0)
  rcases hfrom with heq | ⟨worst, hworst, -, heq⟩
  · -- the loop would have stopped at no drift
    have hnot := hall row hrow
    rw [heq] at hnot
    exact absurd hdrift hnot
  · refine ⟨worst, hworst, ?_, ?_⟩
    · show (if (worstType rows).1 ≠ "" then some (worstType rows) else none) = _
      rw [worstType, heq, if_pos (hnames worst hworst)]
    · intro row' hrow'
      have hnot := hall row' hrow'
      rwa [heq] at hnot

/-! ### Drift by type and drift of the totals -/

/-- A finite bill, and another amount that was measured. -/
def Differs (m b : Float64) : Prop := 0 < b ∧ b.IsFinite ∧ (m < b ∨ b < m)

/-- Drift shows where a finite bill differs from what was measured. -/
theorem zero_lt_typeDrift_iff {m b : Float64} : 0 < typeDrift m b ↔ Differs m b := by
  rw [typeDrift, Differs]
  split_ifs with hb
  · rw [and_iff_right hb, ← Float64.zero_lt_abs_sub_div_iff hb, ← Nat.cast_ofNat]
    exact Float64.zero_lt_mul_natCast (by norm_num) (by norm_num)
  · exact iff_of_false (Float64.not_lt_self 0) fun h => hb h.1

/-- The drift of the totals. -/
def overallDrift (measured billed : Float64) : Float64 := (overall measured billed).2.1

/-- The two rules differ for a type that was measured and not billed. -/
theorem typeDrift_eq_overallDrift_iff {m b : Float64} :
    typeDrift m b = overallDrift m b ↔ (0 < m → 0 < b) := by
  rw [overallDrift, overall, typeDrift]
  by_cases hb : 0 < b
  · rw [if_pos hb, if_pos hb]
    exact iff_of_true rfl fun _ => hb
  · rw [if_neg hb, if_neg hb]
    by_cases hm : 0 < m
    · rw [if_pos hm]
      exact iff_of_false (by decide +kernel) fun h => hb (h hm)
    · rw [if_neg hm]
      exact iff_of_true rfl fun h => absurd h hm

/-- The drift of each type is that of the totals applied to the type, and an
alert names a type such that no other has a higher one. -/
structure DriftAgrees (report : ReconciliationReport Float64)
    (rows : List (TypeReconciliation Float64)) : Prop where
  total : report.driftPct = overallDrift report.measuredCost report.billedCost
  byType : ∀ row ∈ rows, row.driftPct = overallDrift row.measuredCost row.billedCost
  worst : report.driftAlert = true →
    ∃ row ∈ rows, (report.driftAlertPayload rows).worstDrift.map Prod.fst = some row.usageType ∧
      ∀ row' ∈ rows, ¬overallDrift row.measuredCost row.billedCost
        < overallDrift row'.measuredCost row'.billedCost

/-- A type with an amount measured or billed under it is in the breakdown. -/
theorem row_mem_breakdown {t : String} (h : 0 < measuredUSD measured t ∨ 0 < billedUSD items t) :
    (⟨t, measuredUSD measured t, billedUSD items t,
      typeDrift (measuredUSD measured t) (billedUSD items t)⟩ : TypeReconciliation Float64)
        ∈ breakdown orderA orderB measured items := by
  refine (mem_breakdown orderA orderB).mpr ⟨t, ?_, rfl⟩
  by_contra hnone
  obtain ⟨hflows, hbill⟩ := not_or.mp hnone
  -- without flow and line of the type both amounts are empty sums
  rw [measuredUSD, billedUSD, List.filter_eq_nil_iff.mpr, List.filter_eq_nil_iff.mpr] at h
  · exact (or_self_iff.mp h : (0 : Float64) < 0) |> Float64.not_lt_self 0
  · intro li hli heq
    exact hbill ⟨li, hli, of_decide_eq_true heq⟩
  · intro m hm heq
    exact hflows ⟨m, hm, of_decide_eq_true heq⟩

/-- **When drift by type agrees with drift overall**: every type that was measured was
billed, and if the totals are apart by more than the threshold, some type's dollars
differ. -/
theorem driftAgrees_iff (r : Reconciler Float64) (measured : List (CostResult Float64))
    (billing : BillingData Float64) :
    DriftAgrees (r.reconcile measured billing)
        (breakdown orderA orderB measured billing.lineItems) ↔
      (∀ t, 0 < measuredUSD measured t → 0 < billedUSD billing.lineItems t) ∧
        (r.cfg.driftThresholdPct < overallDrift (addUp (measured.map CostResult.costUSD))
            (addUp (billing.lineItems.map BillingLineItem.costUSD)) →
          ∃ t, Differs (measuredUSD measured t) (billedUSD billing.lineItems t)) := by
  have halert : (r.reconcile measured billing).driftAlert = true ↔
      r.cfg.driftThresholdPct < overallDrift (addUp (measured.map CostResult.costUSD))
        (addUp (billing.lineItems.map BillingLineItem.costUSD)) := decide_eq_true_iff
  constructor
  · intro h
    refine ⟨fun t ht => ?_, fun hraised => ?_⟩
    · have hrow := h.byType _ (row_mem_breakdown orderA orderB (Or.inl ht))
      exact typeDrift_eq_overallDrift_iff.mp hrow ht
    · obtain ⟨row, -, hname, -⟩ := h.worst (halert.mpr hraised)
      by_contra hsame
      -- with no row that drifts there is none to name
      rw [worstDrift_eq_none] at hname
      · exact absurd hname (by simp)
      · intro row' hrow' hdrift
        obtain ⟨t, -, rfl⟩ := (mem_breakdown orderA orderB).mp hrow'
        exact hsame ⟨t, zero_lt_typeDrift_iff.mp hdrift⟩
  · rintro ⟨hbilled, hdiffers⟩
    have hrule : ∀ row ∈ breakdown orderA orderB measured billing.lineItems,
        row.driftPct = overallDrift row.measuredCost row.billedCost := by
      intro row hrow
      obtain ⟨t, -, rfl⟩ := (mem_breakdown orderA orderB).mp hrow
      exact typeDrift_eq_overallDrift_iff.mpr (hbilled t)
    refine ⟨rfl, hrule, fun hraised => ?_⟩
    obtain ⟨t, ht⟩ := hdiffers (halert.mp hraised)
    obtain ⟨worst, hworst, hname, hmax⟩ := worstDrift_eq_some (r.reconcile measured billing)
      (fun row' hrow' => usageType_ne_empty orderA orderB hrow')
      (row_mem_breakdown orderA orderB (Or.inr ht.1)) (zero_lt_typeDrift_iff.mpr ht)
    refine ⟨worst, hworst, ?_, fun row' hrow' => ?_⟩
    · rw [hname]
      rfl
    · rw [← hrule row' hrow', ← hrule worst hworst]
      exact hmax row' hrow'

/-- Where every type was measured at what it was billed, the totals are apart by no more
than rounding, however low the threshold is. -/
theorem near_totals (h : ∀ t, measuredUSD measured t = billedUSD items t)
    (hfin : ∀ t, (measuredUSD measured t).IsFinite) :
    Near (2 * (growth measured.length * mass (measured.map CostResult.costUSD))
        + 2 * (growth items.length * mass (items.map BillingLineItem.costUSD)))
      (addUp (measured.map CostResult.costUSD))
      (addUp (items.map BillingLineItem.costUSD)) := by
  intro hm hb
  let types := (listKeys .ascending .ascending (measuredByType measured)
    (billedByType items)).toFinset
  have hflows : measured.filter (fun r => r.trafficType.string ∈ types) = measured :=
    List.filter_eq_self.mpr fun r hr => decide_eq_true (List.mem_toFinset.mpr
      ((mem_types .ascending .ascending).mpr (Or.inl ⟨r, hr, rfl⟩)))
  have hlines : items.filter (fun li => mapUsageType li.usageType ∈ types) = items :=
    List.filter_eq_self.mpr fun li hli => decide_eq_true (List.mem_toFinset.mpr
      ((mem_types .ascending .ascending).mpr (Or.inr ⟨li, hli, rfl⟩)))
  have hmeasured := FloatSum.abs_sum_fibers_sub_le _ _ _ types (measuredUSD measured)
    (fun _ _ => rfl) fun t _ => hfin t
  have hbilled := FloatSum.abs_sum_fibers_sub_le _ _ _ types (billedUSD items)
    (fun _ _ => rfl) fun t _ => h t ▸ hfin t
  rw [hflows] at hmeasured
  -- both totals are near the sum over the types
  rw [hlines, ← Finset.sum_congr rfl fun t _ => congrArg Float64.toRat (h t)] at hbilled
  have hm' := FloatSum.abs_toRat_addUp_sub_le hm
  have hb' := FloatSum.abs_toRat_addUp_sub_le hb
  rw [List.length_map] at hm' hb'
  rw [abs_le] at hmeasured hbilled hm' hb' ⊢
  constructor <;>
    linarith [hmeasured.1, hmeasured.2, hbilled.1, hbilled.2, hm'.1, hm'.2, hb'.1, hb'.2]

/-- A type that was never billed hides: the alert is raised for it, and its row
shows no drift. -/
theorem unbilled_type_hides :
    let measured : List (CostResult Float64) :=
      [⟨⟨.internetEgress, 0, 0⟩, 100⟩, ⟨⟨.natGatewayEgress, 0, 0⟩, 50⟩]
    let billing : BillingData Float64 := ⟨⟨⟨0, 0⟩, ⟨1, 0⟩⟩, [⟨"DataTransfer-Out-Bytes", 100⟩]⟩
    (∀ m ∈ measured, 0 ≤ m.costUSD) ∧ (∀ li ∈ billing.lineItems, 0 ≤ li.costUSD) ∧
      ((newReconciler ⟨0⟩).reconcile measured billing).driftAlert = true ∧
      ¬ DriftAgrees ((newReconciler ⟨0⟩).reconcile measured billing)
        (breakdown .ascending .ascending measured billing.lineItems) := by
  intro measured billing
  refine ⟨by decide +kernel, by decide +kernel, by decide +kernel, ?_⟩
  intro h
  have hmeasured : 0 < measuredUSD measured "nat_gateway" := by decide +kernel
  have hrow : typeDrift (measuredUSD measured "nat_gateway")
        (billedUSD billing.lineItems "nat_gateway")
      = overallDrift (measuredUSD measured "nat_gateway")
        (billedUSD billing.lineItems "nat_gateway") :=
    h.byType _ (row_mem_breakdown .ascending .ascending (Or.inl hmeasured))
  exact absurd (typeDrift_eq_overallDrift_iff.mp hrow hmeasured) (by decide +kernel)

end Reconciler
