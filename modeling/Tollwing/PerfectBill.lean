/-
A bill that charges what was measured (`pkg/cost/engine.go`, `reconcile.go`).

The engine books both legs of a NAT flow under the NAT type.  A bill has a line
for each leg, and the second maps to internet egress; and lines of types that the
mapping does not know map to the unknown type.

* `Engine.costed_calculate` — the flows of a batch, as the engine costs them;
* `PerfectBill.reconciles_iff` — the totals always reconcile; the types do exactly
  if no NAT flow pays the second leg and only types that the mapping knows cost
  anything;
* `PerfectBill.nat_flow_drifts` — a NAT flow with both legs.
-/
import Tollwing.Reconcile
import Tollwing.SingleMeter

namespace Reconciler

/-! ### Exact drift -/

theorem measuredUSD_eq_sum (measured : List (CostResult ℚ)) (t : String) :
    measuredUSD measured t
      = ((measured.filter fun r => r.trafficType.string = t).map CostResult.costUSD).sum :=
  KeyedFold.addUp_eq_sum _

theorem billedUSD_eq_sum (items : List (BillingLineItem ℚ)) (t : String) :
    billedUSD items t
      = ((items.filter fun li => mapUsageType li.usageType = t).map
          BillingLineItem.costUSD).sum :=
  KeyedFold.addUp_eq_sum _

theorem typeDrift_eq_zero_iff {m b : ℚ} : typeDrift m b = 0 ↔ (0 < b → m = b) := by
  rw [typeDrift]
  split_ifs with hb
  · have habs : MathAbs.abs (m - b) = |m - b| := rfl
    rw [habs, mul_eq_zero_iff_right (by norm_num), div_eq_zero_iff, or_iff_left hb.ne', abs_eq_zero,
      sub_eq_zero]
    exact ⟨fun h _ => h, fun h => h hb⟩
  · exact ⟨fun _ h => absurd h hb, fun _ => rfl⟩

/-- **The report shows no drift by type** exactly if every type with a bill was
measured at what it was billed. -/
theorem byType_drift_eq_zero_iff (r : Reconciler ℚ) (measured : List (CostResult ℚ))
    (billing : BillingData ℚ) :
    (∀ row ∈ (r.reconcile measured billing).byType, row.driftPct = 0)
      ↔ ∀ t, 0 < billedUSD billing.lineItems t →
        measuredUSD measured t = billedUSD billing.lineItems t := by
  show (∀ row ∈ (mergeKeys _ _).image _, _) ↔ _
  rw [Finset.forall_mem_image]
  simp only [typeRow_eq, typeDrift_eq_zero_iff]
  constructor
  · intro h t ht
    refine h (Finset.mem_union_right _ (KeyedFold.mem_keys_foldl_add.mpr ?_)) ht
    by_contra hnone
    -- without a line of the type nothing is billed under it
    rw [billedUSD, List.filter_eq_nil_iff.mpr] at ht
    · exact absurd ht (lt_irrefl 0)
    · intro li hli heq
      exact hnone ⟨li, hli, of_decide_eq_true heq⟩
  · exact fun h t _ => h t

/-- Equal totals show no drift. -/
theorem driftPct_of_totals_eq (r : Reconciler ℚ) {measured : List (CostResult ℚ)}
    {billing : BillingData ℚ}
    (h : (measured.map CostResult.costUSD).sum
      = (billing.lineItems.map BillingLineItem.costUSD).sum) :
    (r.reconcile measured billing).driftPct = 0 := by
  have hself : ∀ c : ℚ, (overall c c).2.1 = 0 := by
    intro c
    rw [overall]
    by_cases hc : 0 < c
    · rw [if_pos hc]
      show |c - c| / c * 100 = 0
      rw [sub_self, abs_zero, zero_div, zero_mul]
    · rw [if_neg hc, if_neg hc]
  rw [← KeyedFold.addUp_eq_sum, ← KeyedFold.addUp_eq_sum] at h
  exact (congrArg (fun c => (overall c _).2.1) h).trans (hself _)

end Reconciler

/-- The types that some usage type maps to. -/
def TrafficType.mapped : TrafficType → Bool
  | .crossAZ | .internetEgress | .natGatewayEgress | .transitGateway | .vpcPeering => true
  | .unknown | .sameZone | .crossRegion | .vpcEndpoint | .cloudServicePublic | .intraNode
  | .serviceMeshInternal => false

/-- The usage types that a bill meters traffic by: a type that the mapping knows by
one that it knows it by, the others by ones that it does not know. -/
structure UsageTypes where
  usage : TrafficType → String
  known : ∀ tt, tt.mapped → mapUsageType (usage tt) = tt.string
  unknown : ∀ tt, ¬tt.mapped → mapUsageType (usage tt) = TrafficType.unknown.string

/-- The usage types of the Ohio region. -/
def ohioUsageTypes : UsageTypes where
  usage
    | .crossAZ => "USE2-DataTransfer-Regional-Bytes"
    | .internetEgress => "USE2-DataTransfer-Out-Bytes"
    | .natGatewayEgress => "USE2-NatGateway-Bytes"
    | .transitGateway => "USE2-TransitGateway-Bytes"
    | .vpcPeering => "USE2-VPCPeering-Bytes"
    | .crossRegion => "USE2-USW2-AWS-Out-Bytes"
    | .vpcEndpoint => "USE2-VpcEndpoint-Bytes"
    | .cloudServicePublic => "USE2-Requests-Bytes"
    | _ => "USE2-Bytes"
  known tt := by cases tt <;> decide +kernel
  unknown tt := by cases tt <;> decide +kernel

/-- No price is negative. -/
structure RateCard.NonnegPrices {κ β : Type*} [Zero κ] [LT κ] (c : RateCard κ β) : Prop where
  rates : ∀ {tt rate}, c.rates tt = some rate → ∀ tier ∈ rate.tiers, ¬tier.perGB < 0
  natGateway : ¬c.natGateway.perGBUSD < 0
  transitGW : ¬c.transitGW.perGBUSD < 0

theorem RateCard.nonnegPrices_of_all {κ β : Type*} [Zero κ] [LT κ] [DecidableLT κ]
    {card : RateCard κ β}
    (hrates : ∀ tt, (card.rates tt).all
      (fun rate => rate.tiers.all fun tier => ¬tier.perGB < 0) = true)
    (hnat : ¬card.natGateway.perGBUSD < 0) (htransit : ¬card.transitGW.perGBUSD < 0) :
    card.NonnegPrices := by
  refine ⟨fun {tt rate} hrate tier htier => ?_, hnat, htransit⟩
  have hall := hrates tt
  rw [hrate] at hall
  exact of_decide_eq_true (List.all_eq_true.mp hall tier htier)

theorem nonnegPrices_defaultAWSRateCard (region : String) :
    (defaultAWSRateCard region : ExactCard).NonnegPrices := by
  -- the prices do not depend on the region
  have hdefault : (defaultAWSRateCard "" : ExactCard).NonnegPrices :=
    RateCard.nonnegPrices_of_all (fun tt => by cases tt <;> decide +kernel) (by decide +kernel)
      (by decide +kernel)
  exact ⟨hdefault.rates, hdefault.natGateway, hdefault.transitGW⟩

namespace Engine

/-! ### Costed flows -/

/-- What `Calculate` returns. -/
def calculateResults (e : Engine) (provider region : String) (flows : List (Time × FlowRecord)) :
    List (CostResult ℚ) :=
  List.zipWith (fun x usd => ⟨x.2, usd⟩) flows (e.calculate provider region flows).2

/-- The result is that of an engine, in some state and at some time, by the card; or
there is no card. -/
def Costed (card : Option ExactCard) (r : CostResult ℚ) : Prop :=
  match card with
  | none => r.costUSD = 0
  | some card => ∃ (e : Engine) (now : Time),
      r.costUSD = (e.calculateFlow now card r.toFlowRecord).2

theorem costed_calculateFlows (e : Engine) (card : ExactCard) (flows : List (Time × FlowRecord)) :
    ∀ r ∈ List.zipWith (fun x usd => (⟨x.2, usd⟩ : CostResult ℚ)) flows
      (e.calculateFlows card flows).2, Costed (some card) r := by
  induction flows generalizing e with
  | nil => exact fun r hr => absurd hr List.not_mem_nil
  | cons x flows ih =>
    intro r hr
    rw [calculateFlows, List.zipWith_cons_cons] at hr
    rcases List.mem_cons.mp hr with rfl | hr
    · exact ⟨e, x.1, rfl⟩
    · exact ih _ r hr

/-- The flows of a batch are costed by the card of its provider and region. -/
theorem costed_calculate (e : Engine) (provider region : String)
    (flows : List (Time × FlowRecord)) :
    ∀ r ∈ e.calculateResults provider region flows, Costed (e.store.get provider region) r := by
  rw [calculateResults, calculate]
  cases e.store.get provider region with
  | none =>
    intro r hr
    rw [List.zipWith_map_right, List.zipWith_self] at hr
    obtain ⟨x, -, rfl⟩ := List.mem_map.mp hr
    rfl
  | some card => exact e.costed_calculateFlows card flows

/-! ### Costs are not negative -/

theorem tieredCostLoop_nonneg {tiers rest : List ExactTier} (h : ∀ tier ∈ rest, 0 ≤ tier.perGB)
    (prevGB newGB : ℚ) {cost : ℚ} (hcost : 0 ≤ cost) (remaining : ℚ) :
    0 ≤ tieredCostLoop tiers prevGB newGB cost remaining rest := by
  induction rest generalizing cost remaining with
  | nil => exact hcost
  | cons tier rest ih =>
    have hrest : ∀ tier ∈ rest, 0 ≤ tier.perGB := fun t ht => h t (List.mem_cons_of_mem _ ht)
    simp only [tieredCostLoop]
    generalize (if 1 < tiers.length then tierStart tier.upToGB 0 tiers else 0) = start
    split_ifs with hremaining hpast hpos
    · exact hcost
    · exact ih hrest hcost remaining
    · refine ih hrest (add_nonneg hcost (mul_nonneg hpos.le ?_)) _
      exact h tier List.mem_cons_self
    · exact ih hrest hcost remaining

theorem marginalRate_nonneg {rate : ExactRate} : 0 ≤ rate.marginalRate := by
  rw [TieredRate.marginalRate]
  cases hfind : rate.tiers.find? fun t => 0 < t.perGB with
  | none => exact le_rfl
  | some tier =>
    have hpaid := List.find?_some hfind
    exact (of_decide_eq_true hpaid).le

theorem priceTiered_nonneg (e : Engine) (now : Time) (provider region : String) (tt : TrafficType)
    {rate : ExactRate} (h : ∀ tier ∈ rate.tiers, 0 ≤ tier.perGB) {gb : ℚ} (hgb : 0 ≤ gb) :
    0 ≤ (e.priceTiered now provider region tt rate gb).2 := by
  rw [priceTiered]
  split
  · exact le_rfl
  · next tier htiers =>
    exact mul_nonneg hgb (h tier (by rw [htiers]; exact List.mem_singleton_self tier))
  · split
    · exact mul_nonneg hgb marginalRate_nonneg
    · exact tieredCostLoop_nonneg h _ _ le_rfl _

/-- The processing leg of a NAT flow, which a bill has as a line of its own. -/
def processingUSD (card : Option ExactCard) (flow : FlowRecord) : ℚ :=
  match card with
  | none => 0
  | some card =>
    bytesToGB (card.meteredBytes .natGatewayEgress flow.txBytes flow.rxBytes)
      * card.natGateway.perGBUSD

theorem processingUSD_nonneg {card : ExactCard} (hcard : card.NonnegPrices) (flow : FlowRecord) :
    0 ≤ processingUSD (some card) flow :=
  mul_nonneg (bytesToGB_nonneg _) (not_lt.mp hcard.natGateway)

/-- A NAT flow costs at least its processing. -/
theorem processingUSD_le (e : Engine) (now : Time) {card : ExactCard} (hcard : card.NonnegPrices)
    {flow : FlowRecord} (hnat : flow.trafficType = .natGatewayEgress) :
    processingUSD (some card) flow ≤ (e.calculateFlow now card flow).2 := by
  rw [calculateFlow, hnat]
  cases hrate : card.rates .internetEgress with
  | none => exact le_rfl
  | some rate =>
    exact le_add_of_nonneg_right
      (e.priceTiered_nonneg now _ _ _ (fun tier htier => not_lt.mp (hcard.rates hrate tier htier))
        (bytesToGB_nonneg _))

theorem calculateFlow_nonneg (e : Engine) (now : Time) {card : ExactCard}
    (hcard : card.NonnegPrices) (flow : FlowRecord) :
    0 ≤ (e.calculateFlow now card flow).2 := by
  by_cases hnat : flow.trafficType = .natGatewayEgress
  · exact (processingUSD_nonneg hcard flow).trans (e.processingUSD_le now hcard hnat)
  · rw [calculateFlow]
    split
    · contradiction
    · exact mul_nonneg (bytesToGB_nonneg _) (not_lt.mp hcard.transitGW)
    · cases hrate : card.rates flow.trafficType with
      | none => exact le_rfl
      | some rate =>
        exact e.priceTiered_nonneg now _ _ _
          (fun tier htier => not_lt.mp (hcard.rates hrate tier htier)) (bytesToGB_nonneg _)

/-- Costs are not negative, and those of a NAT flow are at least its processing. -/
theorem Costed.nonneg {card : Option ExactCard} {r : CostResult ℚ} (h : Costed card r)
    (hprices : ∀ c, card = some c → c.NonnegPrices) :
    0 ≤ r.costUSD ∧ 0 ≤ processingUSD card r.toFlowRecord ∧
      (r.trafficType = .natGatewayEgress → processingUSD card r.toFlowRecord ≤ r.costUSD) := by
  cases card with
  | none =>
    have hzero : r.costUSD = 0 := h
    exact ⟨hzero.ge, le_rfl, fun _ => hzero.ge⟩
  | some card =>
    obtain ⟨e, now, hcost⟩ := h
    have hcard := hprices card rfl
    rw [hcost]
    exact ⟨e.calculateFlow_nonneg now hcard _, processingUSD_nonneg hcard _,
      fun hnat => e.processingUSD_le now hcard hnat⟩

end Engine

namespace PerfectBill

/-! ### The bill -/

/-- The lines of one flow: a NAT flow has a line for each leg. -/
def billLines (u : UsageTypes) (card : Option ExactCard) (r : CostResult ℚ) :
    List (BillingLineItem ℚ) :=
  match r.trafficType with
  | .natGatewayEgress =>
    [⟨u.usage .natGatewayEgress, Engine.processingUSD card r.toFlowRecord⟩,
      ⟨u.usage .internetEgress, r.costUSD - Engine.processingUSD card r.toFlowRecord⟩]
  | tt => [⟨u.usage tt, r.costUSD⟩]

/-- The bill that charges the same dollars line by line. -/
def perfectBill (u : UsageTypes) (card : Option ExactCard) (period : BillingPeriod)
    (measured : List (CostResult ℚ)) : BillingData ℚ :=
  ⟨period, measured.flatMap (billLines u card)⟩

/-- No NAT flow pays for leaving the cloud, and only types that the mapping knows cost
anything. -/
def OneLineEach (card : Option ExactCard) (measured : List (CostResult ℚ)) : Prop :=
  ∀ r ∈ measured,
    (r.trafficType = .natGatewayEgress →
      r.costUSD = Engine.processingUSD card r.toFlowRecord) ∧
    (r.costUSD ≠ 0 → r.trafficType.mapped ∨ r.trafficType = .unknown)

/-- What a flow measures under a type. -/
def measuredAt (t : String) (r : CostResult ℚ) : ℚ :=
  if r.trafficType.string = t then r.costUSD else 0

/-- What a flow is billed under a type. -/
def billedAt (u : UsageTypes) (card : Option ExactCard) (t : String) (r : CostResult ℚ) : ℚ :=
  Reconciler.billedUSD (billLines u card r) t

theorem measuredUSD_eq (measured : List (CostResult ℚ)) (t : String) :
    Reconciler.measuredUSD measured t = (measured.map (measuredAt t)).sum := by
  rw [Reconciler.measuredUSD_eq_sum, KeyedFold.sum_filter_eq]
  simp only [decide_eq_true_eq]
  rfl

theorem billedUSD_eq (u : UsageTypes) (card : Option ExactCard) (period : BillingPeriod)
    (measured : List (CostResult ℚ)) (t : String) :
    Reconciler.billedUSD (perfectBill u card period measured).lineItems t
      = (measured.map (billedAt u card t)).sum := by
  rw [perfectBill]
  induction measured with
  | nil => rfl
  | cons r measured ih =>
    rw [List.map_cons, List.sum_cons, ← ih, Reconciler.billedUSD_eq_sum, List.flatMap_cons,
      List.filter_append, List.map_append, List.sum_append, billedAt, Reconciler.billedUSD_eq_sum,
      Reconciler.billedUSD_eq_sum]

theorem billedAt_nat (u : UsageTypes) {card : Option ExactCard} {r : CostResult ℚ}
    (hnat : r.trafficType = .natGatewayEgress) (t : String) :
    billedAt u card t r =
      (if TrafficType.natGatewayEgress.string = t then Engine.processingUSD card r.toFlowRecord
        else 0) +
      (if TrafficType.internetEgress.string = t then
        r.costUSD - Engine.processingUSD card r.toFlowRecord else 0) := by
  rw [billedAt, billLines, hnat, Reconciler.billedUSD_eq_sum, KeyedFold.sum_filter_eq]
  simp only [u.known .natGatewayEgress rfl, u.known .internetEgress rfl, List.map_cons,
    List.map_nil, List.sum_cons, List.sum_nil, add_zero, decide_eq_true_eq]

theorem billedAt_other (u : UsageTypes) {card : Option ExactCard} {r : CostResult ℚ}
    (hnat : r.trafficType ≠ .natGatewayEgress) (t : String) :
    billedAt u card t r
      = if mapUsageType (u.usage r.trafficType) = t then r.costUSD else 0 := by
  have hlines : billLines u card r = [⟨u.usage r.trafficType, r.costUSD⟩] := by
    rw [billLines]
    split
    · contradiction
    · rfl
  rw [billedAt, hlines, Reconciler.billedUSD_eq_sum, KeyedFold.sum_filter_eq, List.map_singleton,
    List.sum_singleton]
  simp only [decide_eq_true_eq]

/-! ### What reconciles -/

/-- The totals of the bill are those measured. -/
theorem totals_eq (u : UsageTypes) (card : Option ExactCard) (period : BillingPeriod)
    (measured : List (CostResult ℚ)) :
    (measured.map CostResult.costUSD).sum
      = ((perfectBill u card period measured).lineItems.map BillingLineItem.costUSD).sum := by
  have hlines : ∀ r, ((billLines u card r).map BillingLineItem.costUSD).sum = r.costUSD := by
    intro r
    rw [billLines]
    split
    · simp
    · simp
  show _ = ((measured.flatMap (billLines u card)).map BillingLineItem.costUSD).sum
  induction measured with
  | nil => rfl
  | cons r measured ih =>
    rw [List.map_cons, List.sum_cons, ih, List.flatMap_cons, List.map_append, List.sum_append,
      hlines]

/-- A flow with one line is billed under the type that it is measured under. -/
theorem billedAt_eq (u : UsageTypes) {card : Option ExactCard} {r : CostResult ℚ}
    (hnat : r.trafficType = .natGatewayEgress →
      r.costUSD = Engine.processingUSD card r.toFlowRecord)
    (hmapped : r.costUSD ≠ 0 → r.trafficType.mapped ∨ r.trafficType = .unknown) (t : String) :
    billedAt u card t r = measuredAt t r := by
  by_cases htype : r.trafficType = .natGatewayEgress
  · rw [billedAt_nat u htype, measuredAt, htype, ← hnat htype, sub_self, ite_self, add_zero]
  · rw [billedAt_other u htype, measuredAt]
    by_cases hzero : r.costUSD = 0
    · rw [hzero, ite_self, ite_self]
    · rcases hmapped hzero with hknown | hunknown
      · rw [u.known _ hknown]
      · rw [u.unknown _ (by rw [hunknown]; decide), hunknown]

/-- A type that is billed for all that it measures, and for some flow more, drifts. -/
theorem drifts_of_lt {u : UsageTypes} {card : Option ExactCard} {period : BillingPeriod}
    {measured : List (CostResult ℚ)} {t : String}
    (hle : ∀ r ∈ measured, 0 ≤ measuredAt t r ∧ measuredAt t r ≤ billedAt u card t r)
    {r : CostResult ℚ} (hr : r ∈ measured) (hlt : measuredAt t r < billedAt u card t r) :
    ¬∀ t, 0 < Reconciler.billedUSD (perfectBill u card period measured).lineItems t →
      Reconciler.measuredUSD measured t
        = Reconciler.billedUSD (perfectBill u card period measured).lineItems t := by
  intro h
  have hsum : (measured.map (measuredAt t)).sum < (measured.map (billedAt u card t)).sum :=
    List.sum_lt_sum _ _ (fun r hr => (hle r hr).2) ⟨r, hr, hlt⟩
  have hnonneg : 0 ≤ (measured.map (measuredAt t)).sum := by
    refine List.sum_nonneg fun x hx => ?_
    obtain ⟨r, hr, rfl⟩ := List.mem_map.mp hx
    exact (hle r hr).1
  have heq := h t
  rw [billedUSD_eq, measuredUSD_eq] at heq
  exact hsum.ne (heq (hnonneg.trans_lt hsum))

/-- Types have different strings. -/
theorem string_eq_iff (tt tt' : TrafficType) : tt.string = tt'.string ↔ tt = tt' := by
  -- the string leads back to the type
  let types : List TrafficType := [.unknown, .sameZone, .crossAZ, .crossRegion, .internetEgress,
    .natGatewayEgress, .vpcPeering, .transitGateway, .vpcEndpoint, .cloudServicePublic, .intraNode,
    .serviceMeshInternal]
  have hback : ∀ tt : TrafficType, types.find? (fun t => t.string = tt.string) = some tt := by
    intro tt
    cases tt <;> decide +kernel
  refine ⟨fun h => ?_, congrArg _⟩
  have hfound := hback tt
  rw [h, hback tt'] at hfound
  exact (Option.some.inj hfound).symm

section
variable (u : UsageTypes) {card : Option ExactCard} {r : CostResult ℚ}
  (hcost : 0 ≤ r.costUSD)
  (hlegs : r.trafficType = .natGatewayEgress →
    Engine.processingUSD card r.toFlowRecord ≤ r.costUSD)
include hcost

include hlegs in
/-- Internet egress is billed for all that it measures, and for the second leg of NAT
flows. -/
theorem measuredAt_le_internet :
    0 ≤ measuredAt TrafficType.internetEgress.string r ∧
      measuredAt TrafficType.internetEgress.string r
        ≤ billedAt u card TrafficType.internetEgress.string r := by
  simp only [measuredAt, string_eq_iff]
  by_cases hnat : r.trafficType = .natGatewayEgress
  · simp only [billedAt_nat u hnat, hnat, string_eq_iff, reduceCtorEq, if_false, if_true, zero_add]
    exact ⟨le_rfl, sub_nonneg.mpr (hlegs hnat)⟩
  · rw [billedAt_other u hnat]
    split_ifs with htype hmap
    · exact ⟨hcost, le_rfl⟩
    · exact absurd (by rw [htype, u.known _ rfl]) hmap
    · exact ⟨le_rfl, hcost⟩
    · exact ⟨le_rfl, le_rfl⟩

/-- The unknown type is billed for all that it measures, and for the types that the
mapping does not know. -/
theorem measuredAt_le_unknown :
    0 ≤ measuredAt TrafficType.unknown.string r ∧
      measuredAt TrafficType.unknown.string r
        ≤ billedAt u card TrafficType.unknown.string r := by
  simp only [measuredAt, string_eq_iff]
  by_cases hnat : r.trafficType = .natGatewayEgress
  · simp only [billedAt_nat u hnat, hnat, string_eq_iff, reduceCtorEq, if_false, add_zero]
    exact ⟨le_rfl, le_rfl⟩
  · rw [billedAt_other u hnat]
    split_ifs with htype hmap
    · exact ⟨hcost, le_rfl⟩
    · exact absurd (by rw [htype, u.unknown _ (by decide)]) hmap
    · exact ⟨le_rfl, hcost⟩
    · exact ⟨le_rfl, le_rfl⟩

end

/-- **When a bill of the same dollars reconciles.**  The totals show no drift.  By
type there is none if no NAT flow pays for leaving the cloud and only types that
the mapping knows cost anything; at prices that are not negative, only then. -/
theorem reconciles_iff (rec : Reconciler ℚ) (u : UsageTypes) (card : Option ExactCard)
    (period : BillingPeriod) (measured : List (CostResult ℚ))
    (hcosted : ∀ r ∈ measured, Engine.Costed card r) :
    let report := rec.reconcile measured (perfectBill u card period measured)
    report.driftPct = 0 ∧
      (OneLineEach card measured → ∀ row ∈ report.byType, row.driftPct = 0) ∧
      ((∀ c, card = some c → c.NonnegPrices) →
        ((∀ row ∈ report.byType, row.driftPct = 0) ↔ OneLineEach card measured)) := by
  have hif : OneLineEach card measured →
      ∀ row ∈ (rec.reconcile measured (perfectBill u card period measured)).byType,
        row.driftPct = 0 := by
    intro hone
    rw [rec.byType_drift_eq_zero_iff]
    intro t _
    rw [measuredUSD_eq, billedUSD_eq]
    exact congrArg List.sum (List.map_congr_left fun r hr =>
      (billedAt_eq u (hone r hr).1 (hone r hr).2 t).symm)
  refine ⟨rec.driftPct_of_totals_eq (totals_eq u card period measured), hif, fun hprices => ?_⟩
  refine ⟨fun hzero r hr => ?_, hif⟩
  rw [rec.byType_drift_eq_zero_iff] at hzero
  have hnonneg := fun r hr => (hcosted r hr).nonneg hprices
  refine ⟨fun hnat => ?_, fun hcost => ?_⟩
  · -- a second leg is billed as internet egress
    by_contra hne
    have hlt := lt_of_le_of_ne ((hnonneg r hr).2.2 hnat) (Ne.symm hne)
    refine drifts_of_lt (t := TrafficType.internetEgress.string)
      (fun r hr => measuredAt_le_internet u (hnonneg r hr).1 (hnonneg r hr).2.2) hr ?_ hzero
    simp only [measuredAt, billedAt_nat u hnat, hnat, string_eq_iff, reduceCtorEq, if_false,
      if_true, zero_add]
    exact sub_pos.mpr hlt
  · -- a type that the mapping does not know is billed as unknown
    by_contra hnone
    obtain ⟨hmapped, hunknown⟩ := not_or.mp hnone
    have hnat : r.trafficType ≠ .natGatewayEgress := fun h => hmapped (by rw [h]; rfl)
    refine drifts_of_lt (t := TrafficType.unknown.string)
      (fun r hr => measuredAt_le_unknown u (hnonneg r hr).1) hr ?_ hzero
    simp only [billedAt_other u hnat, u.unknown _ hmapped, measuredAt, string_eq_iff, hunknown,
      if_false, if_true]
    exact lt_of_le_of_ne (hnonneg r hr).1 (Ne.symm hcost)

/-- An engine with the default card of the Ohio region, at marginal prices. -/
def ohioEngine : Engine :=
  Engine.newEngineWithConfig (RateCardStore.new.set (defaultAWSRateCard "us-east-2")) .marginal
    ⟨0, 0⟩

/-- The costs of flows of one GiB each way. -/
def ohioResults (types : List TrafficType) : List (CostResult ℚ) :=
  ohioEngine.calculateResults "aws" "us-east-2"
    (types.map fun tt => (⟨0, 1⟩, ⟨tt, 1073741824, 1073741824⟩))

def ohioReport (types : List TrafficType) : ReconciliationReport ℚ :=
  (Reconciler.newReconciler ⟨0⟩).reconcile (ohioResults types)
    (perfectBill ohioUsageTypes (ohioEngine.store.get "aws" "us-east-2") ⟨⟨0, 0⟩, ⟨1, 0⟩⟩
      (ohioResults types))

theorem reconciles_crossAZ :
    (ohioReport [.crossAZ, .internetEgress, .transitGateway]).driftPct = 0 ∧
      ∀ row ∈ (ohioReport [.crossAZ, .internetEgress, .transitGateway]).byType,
        row.driftPct = 0 := by
  have h := reconciles_iff (Reconciler.newReconciler ⟨0⟩) ohioUsageTypes
    (ohioEngine.store.get "aws" "us-east-2") ⟨⟨0, 0⟩, ⟨1, 0⟩⟩
    (ohioResults [.crossAZ, .internetEgress, .transitGateway])
    (Engine.costed_calculate _ _ _ _)
  refine ⟨h.1, (h.2.2 fun c hc => ?_).mpr (by unfold OneLineEach; decide +kernel)⟩
  rw [← Option.some.inj ((RateCardStore.get_set _ (defaultAWSRateCard "us-east-2")).symm.trans hc)]
  exact nonnegPrices_defaultAWSRateCard "us-east-2"

/-- A NAT flow is measured at 18 cents and billed at 9 under the NAT type, and billed at
9 under internet egress. -/
theorem nat_flow_drifts :
    ¬∀ (rec : Reconciler ℚ) (u : UsageTypes) (card : Option ExactCard) (period : BillingPeriod)
      (measured : List (CostResult ℚ)), (∀ r ∈ measured, Engine.Costed card r) →
      let report := rec.reconcile measured (perfectBill u card period measured)
      report.driftPct = 0 ∧ ∀ row ∈ report.byType, row.driftPct = 0 := by
  intro h
  have hzero := (h (Reconciler.newReconciler ⟨0⟩) ohioUsageTypes
    (ohioEngine.store.get "aws" "us-east-2") ⟨⟨0, 0⟩, ⟨1, 0⟩⟩ (ohioResults [.natGatewayEgress])
    (Engine.costed_calculate _ _ _ _)).2
  have hdrift : ¬∀ row ∈ (ohioReport [.natGatewayEgress]).byType, row.driftPct = 0 := by
    decide +kernel
  exact hdrift hzero

end PerfectBill
