/-
The cost engine (`pkg/cost/engine.go`).

`Engine.calculate` prices a batch of classified flows from the rate card of a
provider and region.  In single-meter mode a tiered rate is priced on the
usage metered so far in the billing period, which the engine keeps per
provider, region and traffic type and drops at the month boundary.

The clock is an argument: each flow comes with the time its meter reads.
-/
import Mathlib.Algebra.Field.Rat
import Mathlib.Algebra.Order.Ring.Unbundled.Rat
import Tollwing.Bands
import Tollwing.RateCard

/-- A wall-clock time of one fixed zone: the calendar month, counted through the
years, and the nanoseconds since it began. -/
structure Time where
  month : ℤ
  ns : ℕ
  deriving DecidableEq, Repr

namespace Time

def after (t u : Time) : Bool := u.month < t.month || (u.month == t.month && u.ns < t.ns)

/-- `AddDate(0, 1, 0)`, of a time that is in every month. -/
def addMonth (t : Time) : Time := { t with month := t.month + 1 }

end Time

def startOfMonth (t : Time) : Time := ⟨t.month, 0⟩

/-- What pricing reads of a flow record. -/
structure FlowRecord where
  trafficType : TrafficType
  txBytes : UInt64
  rxBytes : UInt64
  deriving DecidableEq, Repr

inductive PricingMode
  | marginal
  | singleMeter
  deriving DecidableEq, Repr

structure Engine where
  store : ExactStore
  mode : PricingMode
  cumulativeBytes : FinMap String ℚ
  resetTime : Time

/-- `bytesToGB`. -/
def bytesToGB (b : UInt64) : ℚ := (b.toNat : ℚ) / (1024 * 1024 * 1024)

/-! ### The tier walk -/

/-- The inner loop of `tieredCost`: where the tiers below `upToGB` end. -/
def tierStart (upToGB : WithTop ℚ) : ℚ → List ExactTier → ℚ
  | start, [] => start
  | start, t :: ts =>
    if upToGB ≤ t.upToGB then start else tierStart upToGB (t.upToGB.untopD 0) ts

/-- The outer loop of `tieredCost`, over the tiers left. -/
def tieredCostLoop (tiers : List ExactTier) (prevGB newGB : ℚ) : ℚ → ℚ → List ExactTier → ℚ
  | cost, _, [] => cost
  | cost, remaining, tier :: rest =>
    if remaining ≤ 0 then cost
    else
      let start := if 1 < tiers.length then tierStart tier.upToGB 0 tiers else 0
      if tier.upToGB ≤ (prevGB : WithTop ℚ) then
        -- already past this tier
        tieredCostLoop tiers prevGB newGB cost remaining rest
      else
        let usableStart := max prevGB start
        let usableEnd := Bands.capAt newGB tier.upToGB
        let gbInTier := usableEnd - usableStart
        if 0 < gbInTier then
          tieredCostLoop tiers prevGB newGB (cost + gbInTier * tier.perGB) (remaining - gbInTier)
            rest
        else tieredCostLoop tiers prevGB newGB cost remaining rest

/-- `tieredCost`: the cost of the GB between `prevGB` and `newGB`. -/
def tieredCost (tiers : List ExactTier) (prevGB newGB : ℚ) : ℚ :=
  tieredCostLoop tiers prevGB newGB 0 (newGB - prevGB) tiers

/-! ### Pricing -/

namespace Engine

/-- `NewEngineWithConfig`, at time `now`. -/
def newEngineWithConfig (store : ExactStore) (mode : PricingMode) (now : Time) : Engine :=
  { store := store
    mode := mode
    cumulativeBytes := ∅
    resetTime := startOfMonth now }

/-- `ResetBillingPeriod`, at time `now`. -/
def resetBillingPeriod (e : Engine) (now : Time) : Engine :=
  { e with cumulativeBytes := ∅, resetTime := startOfMonth now }

/-- Drop the meters when the billing period is over. -/
def rollOver (e : Engine) (now : Time) : Engine :=
  if now.after e.resetTime.addMonth then
    { e with cumulativeBytes := ∅, resetTime := startOfMonth now }
  else e

/-- The key of a meter. -/
def meterKey (provider region : String) (tt : TrafficType) : String :=
  provider ++ ":" ++ region ++ ":" ++ tt.string

/-- `priceTiered`: the price of `gb` of a traffic type. -/
def priceTiered (e : Engine) (now : Time) (provider region : String) (tt : TrafficType)
    (rate : ExactRate) (gb : ℚ) : Engine × ℚ :=
  match rate.tiers with
  | [] => (e, 0)
  -- a flat rate is the same in both modes and moves no meter
  | [tier] => (e, gb * tier.perGB)
  | tiers =>
    match e.mode with
    | .marginal => (e, gb * rate.marginalRate)
    | .singleMeter =>
      let key := meterKey provider region tt
      -- the meter is read after the reset and moves before the amount is priced
      let e := e.rollOver now
      let prevGB := (e.cumulativeBytes.lookup key).getD 0
      ({ e with cumulativeBytes := e.cumulativeBytes.insert key (prevGB + gb) },
        tieredCost tiers prevGB (prevGB + gb))

/-- `calculateFlow`: the cost of one flow. -/
def calculateFlow (e : Engine) (now : Time) (card : ExactCard) (flow : FlowRecord) : Engine × ℚ :=
  let meteredGB := bytesToGB (card.meteredBytes flow.trafficType flow.txBytes flow.rxBytes)
  match flow.trafficType with
  | .natGatewayEgress =>
    let cost := meteredGB * card.natGateway.perGBUSD
    match card.rates .internetEgress with
    | some rate =>
      -- the bytes still leave the cloud after the NAT
      let (e, egress) := e.priceTiered now card.provider card.region .internetEgress rate
        (bytesToGB flow.txBytes)
      (e, cost + egress)
    | none => (e, cost)
  | .transitGateway => (e, meteredGB * card.transitGW.perGBUSD)
  | tt =>
    match card.rates tt with
    | none => (e, 0)
    | some rate => e.priceTiered now card.provider card.region tt rate meteredGB

/-- The loop of `Calculate`. -/
def calculateFlows (e : Engine) (card : ExactCard) : List (Time × FlowRecord) → Engine × List ℚ
  | [] => (e, [])
  | (now, flow) :: flows =>
    let (e, cost) := e.calculateFlow now card flow
    let (e, costs) := e.calculateFlows card flows
    (e, cost :: costs)

/-- `Calculate`: the costs of a batch; zero for every flow without a card. -/
def calculate (e : Engine) (provider region : String) (flows : List (Time × FlowRecord)) :
    Engine × List ℚ :=
  match e.store.get provider region with
  | none => (e, flows.map fun _ => 0)
  | some card => e.calculateFlows card flows

/-- A sequence of `Calculate` calls for one provider and region: the costs of
each batch. -/
def calculateBatches (e : Engine) (provider region : String) :
    List (List (Time × FlowRecord)) → Engine × List (List ℚ)
  | [] => (e, [])
  | flows :: batches =>
    let (e, costs) := e.calculate provider region flows
    let (e, rest) := e.calculateBatches provider region batches
    (e, costs :: rest)

end Engine
