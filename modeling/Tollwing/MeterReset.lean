/-
The month of a meter.

The engine drops its meters lazily, when a tiered amount is priced after the
billing period.  Over any run of flows of any cards, at times that never go
back, what a flow is priced on is then what was metered for its key in the same
calendar month.

* `CostedFlow.metering` — the meter a flow moves, if it moves one;
* `Engine.calculateFlow_metered_eq` — such a flow costs what it has beside the
  meter and the tiered cost from the prior usage on;
* `Engine.MonthInv` — the meters between two flows;
* `Engine.prior_usage_eq_month` — the prior usage of every flow of a run, unless
  a flow is costed at the very instant a billing period ends;
* `Engine.first_instant_on_old_usage` — a flow that is.
-/
import Tollwing.SingleMeter

/-- A flow with the card and the time it is costed at. -/
structure CostedFlow where
  now : Time
  card : ExactCard
  flow : FlowRecord

/-- What a flow is metered as: the meter, its tiers, the amount, and what the
flow costs beside it. -/
structure Metering where
  key : String
  tiers : List ExactTier
  gb : ℚ
  base : ℚ
  deriving DecidableEq

namespace CostedFlow

/-- The metering of an amount; a single tier needs no meter. -/
def meteringOf (card : ExactCard) (base : ℚ) (tt : TrafficType) (gb : ℚ) (rate : ExactRate) :
    Option Metering :=
  if 1 < rate.tiers.length then
    some ⟨Engine.meterKey card.provider card.region tt, rate.tiers, gb, base⟩
  else none

def metering (x : CostedFlow) : Option Metering :=
  let meteredGB :=
    bytesToGB (x.card.meteredBytes x.flow.trafficType x.flow.txBytes x.flow.rxBytes)
  match x.flow.trafficType with
  | .natGatewayEgress =>
    (x.card.rates .internetEgress).bind (meteringOf x.card (meteredGB * x.card.natGateway.perGBUSD)
      .internetEgress (bytesToGB x.flow.txBytes))
  | .transitGateway => none
  | tt => (x.card.rates tt).bind (meteringOf x.card 0 tt meteredGB)

/-- The amount a flow adds to a meter in a month. -/
def usageOf (key : String) (month : ℤ) (x : CostedFlow) : ℚ :=
  match x.metering with
  | some m => if m.key = key ∧ x.now.month = month then m.gb else 0
  | none => 0

end CostedFlow

/-- What flows add to a meter in a month. -/
def monthUsage (flows : List CostedFlow) (key : String) (month : ℤ) : ℚ :=
  (flows.map (CostedFlow.usageOf key month)).sum

theorem monthUsage_concat (flows : List CostedFlow) (x : CostedFlow) (key : String) (month : ℤ) :
    monthUsage (flows ++ [x]) key month = monthUsage flows key month + x.usageOf key month := by
  rw [monthUsage, List.map_append, List.sum_append, List.map_singleton, List.sum_singleton,
    monthUsage]

/-- Flows of earlier months add nothing. -/
theorem monthUsage_eq_zero {flows : List CostedFlow} {month : ℤ}
    (h : ∀ x ∈ flows, x.now.month < month) (key : String) : monthUsage flows key month = 0 := by
  refine List.sum_eq_zero fun gb hgb => ?_
  obtain ⟨x, hx, rfl⟩ := List.mem_map.mp hgb
  have hlt := h x hx
  rw [CostedFlow.usageOf]
  split
  · exact if_neg fun hm => absurd hm.2 (by omega)
  · rfl

namespace Engine

/-! ### One flow -/

/-- What a meter reads when it is asked at a time. -/
def priorUsage (e : Engine) (now : Time) (key : String) : ℚ := (e.rollOver now).usage key

/-- The engine with an amount metered. -/
def meter (e : Engine) (now : Time) (key : String) (gb : ℚ) : Engine :=
  let e := e.rollOver now
  { e with cumulativeBytes := e.cumulativeBytes.insert key (e.usage key + gb) }

theorem priceTiered_of_tiers {e : Engine} (hmode : e.mode = .singleMeter) (now : Time)
    (provider region : String) (tt : TrafficType) {rate : ExactRate}
    (hlen : 1 < rate.tiers.length) (gb : ℚ) :
    let key := meterKey provider region tt
    e.priceTiered now provider region tt rate gb
      = (e.meter now key gb, tieredCost rate.tiers (e.priorUsage now key)
          (e.priorUsage now key + gb)) := by
  obtain ⟨tiers⟩ := rate
  match tiers, hlen with
  | tier :: tier' :: tiers, _ =>
    rw [Engine.priceTiered]
    simp only [hmode]
    rfl

theorem priceTiered_of_flat (e : Engine) (now : Time) (provider region : String)
    (tt : TrafficType) {rate : ExactRate} (hlen : ¬1 < rate.tiers.length) (gb : ℚ) :
    (e.priceTiered now provider region tt rate gb).1 = e := by
  obtain ⟨tiers⟩ := rate
  match tiers, hlen with
  | [], _ => rfl
  | [tier], _ => rfl
  | tier :: tier' :: tiers, hlen => exact absurd (by simp) hlen

/-- The flows of the default case are metered and priced by their own rate. -/
theorem calculateFlow_other (e : Engine) {x : CostedFlow}
    (hnat : x.flow.trafficType ≠ .natGatewayEgress)
    (htransit : x.flow.trafficType ≠ .transitGateway) :
    let gb := bytesToGB (x.card.meteredBytes x.flow.trafficType x.flow.txBytes x.flow.rxBytes)
    x.metering = (x.card.rates x.flow.trafficType).bind
        (CostedFlow.meteringOf x.card 0 x.flow.trafficType gb) ∧
      e.calculateFlow x.now x.card x.flow = (x.card.rates x.flow.trafficType).elim (e, 0)
        fun rate =>
          e.priceTiered x.now x.card.provider x.card.region x.flow.trafficType rate gb := by
  constructor
  · rw [CostedFlow.metering]
    split
    · contradiction
    · contradiction
    · rfl
  · rw [Engine.calculateFlow]
    split
    · contradiction
    · contradiction
    · cases x.card.rates x.flow.trafficType <;> rfl

/-- A metered flow moves its meter and is priced on the usage before. -/
theorem calculateFlow_metered_eq {e : Engine} (hmode : e.mode = .singleMeter) {x : CostedFlow}
    {m : Metering} (h : x.metering = some m) :
    e.calculateFlow x.now x.card x.flow
      = (e.meter x.now m.key m.gb, m.base + tieredCost m.tiers (e.priorUsage x.now m.key)
          (e.priorUsage x.now m.key + m.gb)) := by
  by_cases hnat : x.flow.trafficType = .natGatewayEgress
  · -- the egress leg
    rw [CostedFlow.metering, hnat] at h
    obtain ⟨rate, hrate, hm⟩ := Option.bind_eq_some_iff.mp h
    rw [CostedFlow.meteringOf] at hm
    split_ifs at hm with hlen
    rw [← Option.some.inj hm, Engine.calculateFlow, hnat]
    dsimp only
    rw [hrate]
    dsimp only
    rw [priceTiered_of_tiers hmode _ _ _ _ hlen]
  by_cases htransit : x.flow.trafficType = .transitGateway
  · rw [CostedFlow.metering, htransit] at h
    cases h
  · obtain ⟨hmetering, hcost⟩ := e.calculateFlow_other hnat htransit
    rw [hmetering] at h
    obtain ⟨rate, hrate, hm⟩ := Option.bind_eq_some_iff.mp h
    rw [CostedFlow.meteringOf] at hm
    split_ifs at hm with hlen
    rw [← Option.some.inj hm, hcost, hrate, Option.elim_some,
      priceTiered_of_tiers hmode _ _ _ _ hlen, zero_add]

/-- Any other flow leaves the engine as it is. -/
theorem calculateFlow_not_metered (e : Engine) {x : CostedFlow} (h : x.metering = none) :
    (e.calculateFlow x.now x.card x.flow).1 = e := by
  have hflat : ∀ {base tt gb rate}, CostedFlow.meteringOf x.card base tt gb rate = none →
      ¬1 < rate.tiers.length := by
    intro base tt gb rate hm hlen
    rw [CostedFlow.meteringOf, if_pos hlen] at hm
    cases hm
  by_cases hnat : x.flow.trafficType = .natGatewayEgress
  · rw [CostedFlow.metering, hnat] at h
    rw [Engine.calculateFlow, hnat]
    dsimp only at h ⊢
    cases hrate : x.card.rates .internetEgress with
    | none => rfl
    | some rate =>
      rw [hrate, Option.bind_some] at h
      exact priceTiered_of_flat e _ _ _ _ (hflat h) _
  by_cases htransit : x.flow.trafficType = .transitGateway
  · rw [Engine.calculateFlow, htransit]
  · obtain ⟨hmetering, hcost⟩ := e.calculateFlow_other hnat htransit
    rw [hmetering] at h
    rw [hcost]
    cases hrate : x.card.rates x.flow.trafficType with
    | none => rfl
    | some rate =>
      rw [hrate, Option.bind_some] at h
      exact priceTiered_of_flat e _ _ _ _ (hflat h) _

/-! ### Runs -/

/-- The engine after a flow. -/
def afterCosted (e : Engine) (x : CostedFlow) : Engine :=
  (e.calculateFlow x.now x.card x.flow).1

/-- The flow does not move a meter at the instant the billing period ends. -/
def OffPeriodEnd (e : Engine) (x : CostedFlow) : Prop :=
  x.metering.isSome → x.now ≠ e.resetTime.addMonth

instance (e : Engine) (x : CostedFlow) : Decidable (OffPeriodEnd e x) :=
  inferInstanceAs (Decidable (_ → _))

/-- Every meter reads what the flows since the start added to it, in the current
month and in any later one. -/
structure MonthInv (start : ℤ) (flows : List CostedFlow) (e : Engine) : Prop where
  mode : e.mode = .singleMeter
  metered : ∀ key month, start ≤ month → (∀ x ∈ flows, x.now.month ≤ month) →
    e.Metered key month (monthUsage flows key month)

theorem monthInv_new (store : ExactStore) (created : Time) :
    MonthInv created.month [] (newEngineWithConfig store .singleMeter created) where
  mode := rfl
  metered key _ hmonth _ := metered_newEngineWithConfig store .singleMeter hmonth key

/-- A flow that comes after the others adds to its meter what it should. -/
theorem MonthInv.afterCosted {start : ℤ} {flows : List CostedFlow} {e : Engine}
    (h : MonthInv start flows e) {x : CostedFlow} (hstart : start ≤ x.now.month)
    (hlast : ∀ y ∈ flows, y.now.month ≤ x.now.month) (hoff : OffPeriodEnd e x) :
    MonthInv start (flows ++ [x]) (e.afterCosted x) := by
  have hmonths : ∀ {month}, (∀ y ∈ flows ++ [x], y.now.month ≤ month) →
      (∀ y ∈ flows, y.now.month ≤ month) ∧ x.now.month ≤ month := fun hle =>
    ⟨fun y hy => hle y (List.mem_append_left _ hy), hle x (by simp)⟩
  cases hm : x.metering with
  | none =>
    rw [Engine.afterCosted, calculateFlow_not_metered e hm]
    refine ⟨h.mode, fun key month hmonth hle => ?_⟩
    rw [monthUsage_concat, CostedFlow.usageOf, hm, add_zero]
    exact h.metered key month hmonth (hmonths hle).1
  | some m =>
    have hroll : ∀ key, (e.rollOver x.now).resetTime = ⟨x.now.month, 0⟩ ∧
        (e.rollOver x.now).usage key = monthUsage flows key x.now.month := fun key =>
      (h.metered key _ hstart hlast).rollOver rfl (hoff (by rw [hm]; rfl))
    rw [Engine.afterCosted, calculateFlow_metered_eq h.mode hm]
    refine ⟨(e.rollOver_mode x.now).trans h.mode, fun key month hmonth hle => ?_⟩
    rcases (hmonths hle).2.eq_or_lt with rfl | hlt
    · -- the month of the flow: its own meter moves, the others stay
      refine Or.inl ⟨(hroll key).1, ?_⟩
      rw [monthUsage_concat, CostedFlow.usageOf, hm, Engine.usage, Engine.meter,
        FinMap.lookup_insert_ite]
      dsimp only
      by_cases hkey : m.key = key
      · rw [if_pos hkey.symm, if_pos ⟨hkey, rfl⟩, Option.getD_some, hkey, (hroll key).2]
      · rw [if_neg (Ne.symm hkey), if_neg fun hk => hkey hk.1, add_zero]
        exact (hroll key).2
    · -- a later month has no usage yet
      refine Or.inr ⟨?_, ?_, monthUsage_eq_zero (fun y hy => ?_) key⟩
      · show (e.rollOver x.now).resetTime.month < month
        rw [(hroll key).1]
        exact hlt
      · show (e.rollOver x.now).resetTime.ns = 0
        rw [(hroll key).1]
      · rcases List.mem_append.mp hy with hy | hy
        · exact (hlast y hy).trans_lt hlt
        · rw [List.mem_singleton.mp hy]
          exact hlt

/-- Times that never go back have nondecreasing months. -/
theorem month_le_of_not_after {t u : Time} (h : t.after u = false) : t.month ≤ u.month := by
  rw [Time.after, Bool.or_eq_false_iff, decide_eq_false_iff_not] at h
  omega

/-- The invariant along a run. -/
theorem monthInv_foldl (store : ExactStore) (created : Time) {flows : List CostedFlow}
    (hmono : (created :: flows.map CostedFlow.now).Pairwise fun t u => t.after u = false)
    (hoff : History.Along Engine.afterCosted OffPeriodEnd
      (newEngineWithConfig store .singleMeter created) flows) :
    MonthInv created.month flows
      (flows.foldl Engine.afterCosted (newEngineWithConfig store .singleMeter created)) := by
  induction flows using List.reverseRecOn with
  | nil => exact monthInv_new store created
  | append_singleton flows x ih =>
    rw [List.map_append, ← List.cons_append, List.pairwise_append] at hmono
    obtain ⟨hbefore, -, hlast⟩ := hmono
    obtain ⟨hoff, hoffx, -⟩ := History.along_append.mp hoff
    have hle : ∀ t ∈ created :: flows.map CostedFlow.now, t.month ≤ x.now.month := fun t ht =>
      month_le_of_not_after (hlast t ht x.now (by simp))
    rw [List.foldl_append, List.foldl_cons, List.foldl_nil]
    exact (ih hbefore hoff).afterCosted (hle created (List.mem_cons_self ..))
      (fun y hy => hle _ (List.mem_cons_of_mem _ (List.mem_map_of_mem hy))) hoffx

/-- **The prior usage of a flow is the usage of its month.**  In every run at
times that never go back, a flow that moves a meter is priced on what the
earlier flows of the same calendar month added to it, unless a flow is costed
at the very instant a billing period ends. -/
theorem prior_usage_eq_month (store : ExactStore) (created : Time) {flows : List CostedFlow}
    (hmono : (created :: flows.map CostedFlow.now).Pairwise fun t u => t.after u = false)
    (hoff : History.Along Engine.afterCosted OffPeriodEnd
      (newEngineWithConfig store .singleMeter created) flows)
    {earlier later : List CostedFlow} {x : CostedFlow} (hsplit : flows = earlier ++ x :: later)
    {m : Metering} (hm : x.metering = some m) :
    let e := earlier.foldl Engine.afterCosted (newEngineWithConfig store .singleMeter created)
    let used := monthUsage earlier m.key x.now.month
    e.priorUsage x.now m.key = used ∧
      (e.calculateFlow x.now x.card x.flow).2 = m.base + tieredCost m.tiers used (used + m.gb) := by
  intro e used
  rw [hsplit] at hmono hoff
  rw [List.map_append, ← List.cons_append, List.pairwise_append] at hmono
  obtain ⟨hbefore, -, hlast⟩ := hmono
  obtain ⟨hoff, hoffx, -⟩ := History.along_append.mp hoff
  have hle : ∀ t ∈ created :: earlier.map CostedFlow.now, t.month ≤ x.now.month := fun t ht =>
    month_le_of_not_after (hlast t ht x.now (by simp))
  have hinv := monthInv_foldl store created hbefore hoff
  have hprior : e.priorUsage x.now m.key = used :=
    ((hinv.metered m.key x.now.month (hle created (List.mem_cons_self ..))
      fun y hy => hle _ (List.mem_cons_of_mem _ (List.mem_map_of_mem hy))).rollOver rfl
        (hoffx (by rw [hm]; rfl))).2
  refine ⟨hprior, ?_⟩
  rw [calculateFlow_metered_eq hinv.mode hm]
  show m.base + tieredCost m.tiers (e.priorUsage x.now m.key) _ = _
  rw [hprior]

/-- An internet egress flow of some GiB in us-east-1. -/
def egressFlow (now : Time) (gib : UInt64) : CostedFlow :=
  ⟨now, defaultAWSRateCard "us-east-1", ⟨.internetEgress, gib * 1024 ^ 3, 0⟩⟩

/-- 60 GiB, then two idle months, then 101 GiB of which one is paid for. -/
theorem prior_usage_eq_month_idle :
    (((newEngineWithConfig .new .singleMeter ⟨0, 5⟩).afterCosted
      (egressFlow ⟨0, 10⟩ 60)).calculateFlow ⟨3, 7⟩ (defaultAWSRateCard "us-east-1")
        (egressFlow ⟨3, 7⟩ 101).flow).2 = 0.09 := by
  have hm : (egressFlow ⟨3, 7⟩ 101).metering
      = some ⟨"aws:us-east-1:internet_egress", [⟨(100 : ℚ), 0⟩, ⟨(10 * 1024 : ℚ), 0.09⟩,
        ⟨(50 * 1024 : ℚ), 0.085⟩, ⟨(150 * 1024 : ℚ), 0.07⟩, ⟨⊤, 0.05⟩], 101, 0⟩ := by
    decide +kernel
  have h := @prior_usage_eq_month .new ⟨0, 5⟩ [egressFlow ⟨0, 10⟩ 60, egressFlow ⟨3, 7⟩ 101]
    (by decide +kernel) (by decide +kernel) [egressFlow ⟨0, 10⟩ 60] [] _ rfl _ hm
  exact h.2.trans (by decide +kernel)

/-- A flow at the first instant of a month is priced on the usage of the month
before, and the next one does not see it. -/
theorem first_instant_on_old_usage :
    let e := (newEngineWithConfig .new .singleMeter ⟨0, 5⟩).afterCosted (egressFlow ⟨0, 10⟩ 60)
    e.priorUsage ⟨1, 0⟩ "aws:us-east-1:internet_egress" = 60 ∧
      (e.afterCosted (egressFlow ⟨1, 0⟩ 1)).priorUsage ⟨1, 1⟩ "aws:us-east-1:internet_egress" = 0 ∧
      monthUsage [egressFlow ⟨0, 10⟩ 60] "aws:us-east-1:internet_egress" 1 = 0 ∧
      monthUsage [egressFlow ⟨0, 10⟩ 60, egressFlow ⟨1, 0⟩ 1] "aws:us-east-1:internet_egress" 1
        = 1 := by
  decide +kernel

end Engine
