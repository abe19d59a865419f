/-
Billing reconciliation (`pkg/cost/reconcile.go`, `billing.go`).

`Reconciler.reconcile` groups measured costs by traffic type and billed costs by
the type their usage string maps to, and reports the drift of every type and of
the totals.  The agent's dollars are `float64`; the definitions are for any
arithmetic, and exact dollars are the other one in use.  The report lists the types
in the order of a map iteration, so they are a set here.
-/
import Mathlib.Algebra.Order.Group.Unbundled.Abs
import Mathlib.Algebra.Order.Ring.Rat
import Tollwing.CostEngine
import Tollwing.Float64
import Tollwing.KeyedFold
import Tollwing.Strings

open KeyedFold

/-- `math.Abs`. -/
class MathAbs (κ : Type*) where
  abs : κ → κ

instance : MathAbs Float64 := ⟨Float64.abs⟩

instance : MathAbs ℚ := ⟨fun x => |x|⟩

/-- `BillingPeriod`. -/
structure BillingPeriod where
  start : Time
  stop : Time
  deriving DecidableEq

/-- What reconciliation reads of a line of a cloud bill. -/
structure BillingLineItem (κ : Type*) where
  usageType : String
  costUSD : κ
  deriving DecidableEq

structure BillingData (κ : Type*) where
  period : BillingPeriod
  lineItems : List (BillingLineItem κ)

/-- A costed flow. -/
structure CostResult (κ : Type*) extends FlowRecord where
  costUSD : κ
  deriving DecidableEq

structure ReconcilerConfig (κ : Type*) where
  driftThresholdPct : κ

structure TypeReconciliation (κ : Type*) where
  usageType : String
  measuredCost : κ
  billedCost : κ
  driftPct : κ
  deriving DecidableEq

structure ReconciliationReport (κ : Type*) where
  period : BillingPeriod
  measuredCost : κ
  billedCost : κ
  accuracyPct : κ
  driftPct : κ
  driftAlert : Bool
  byType : Finset (TypeReconciliation κ)
  unaccountedUSD : κ
  correctionFactor : κ

/-- `Reconciler`, without its logger. -/
structure Reconciler (κ : Type*) where
  cfg : ReconcilerConfig κ

/-- `mapUsageType`: the traffic type that a usage type is billed for. -/
def mapUsageType (usageType : String) : String :=
  if Strings.contains usageType "DataTransfer-Regional" then TrafficType.crossAZ.string
  else if Strings.contains usageType "DataTransfer-Out" then TrafficType.internetEgress.string
  -- ingress is billed apart and is no traffic type
  else if Strings.contains usageType "DataTransfer-In" then "internet_ingress"
  else if Strings.contains usageType "NatGateway" then TrafficType.natGatewayEgress.string
  else if Strings.contains usageType "TransitGateway" then TrafficType.transitGateway.string
  else if Strings.contains usageType "VPCPeering" then TrafficType.vpcPeering.string
  else TrafficType.unknown.string

/-- `mergeKeys`. -/
def mergeKeys {κ : Type*} (a b : FinMap String κ) : Finset String := a.keys ∪ b.keys

variable {κ : Type*} [AddZero κ] [NatCast κ]

/-- `setDefaults`; a float is compared with zero by its own `==`. -/
def ReconcilerConfig.setDefaults [BEq κ] (c : ReconcilerConfig κ) : ReconcilerConfig κ :=
  if c.driftThresholdPct == 0 then ⟨5⟩ else c

namespace Reconciler

/-- `NewReconciler`. -/
def newReconciler [BEq κ] (cfg : ReconcilerConfig κ) : Reconciler κ := ⟨cfg.setDefaults⟩

/-- The loop over the measured costs. -/
def measuredByType (measured : List (CostResult κ)) : FinMap String κ :=
  measured.foldl (fun m r =>
    m.insert r.trafficType.string ((m.lookup r.trafficType.string).getD 0 + r.costUSD)) ∅

/-- The loop over the billed lines. -/
def billedByType (items : List (BillingLineItem κ)) : FinMap String κ :=
  items.foldl (fun m li =>
    m.insert (mapUsageType li.usageType)
      ((m.lookup (mapUsageType li.usageType)).getD 0 + li.costUSD)) ∅

variable [Sub κ] [Mul κ] [Div κ] [MathAbs κ] [LT κ] [DecidableLT κ]

/-- The drift of one type; a type without a bill has none. -/
def typeDrift (m b : κ) : κ := if 0 < b then MathAbs.abs (m - b) / b * 100 else 0

/-- The row of the report for one type. -/
def typeRow (measured billed : FinMap String κ) (t : String) : TypeReconciliation κ :=
  let m := (measured.lookup t).getD 0
  let b := (billed.lookup t).getD 0
  ⟨t, m, b, typeDrift m b⟩

/-- Accuracy, drift and correction factor of the totals. -/
def overall [One κ] (measured billed : κ) : κ × κ × κ :=
  if 0 < billed then
    (measured / billed * 100, MathAbs.abs (measured - billed) / billed * 100, billed / measured)
  else if 0 < measured then (0, 100, 1)
  else (100, 0, 1)

/-- `Reconcile`. -/
def reconcile [One κ] [DecidableEq κ] (r : Reconciler κ) (measured : List (CostResult κ))
    (billing : BillingData κ) : ReconciliationReport κ :=
  let measuredCost := addUp (measured.map CostResult.costUSD)
  let billedCost := addUp (billing.lineItems.map BillingLineItem.costUSD)
  let byType := measuredByType measured
  let billed := billedByType billing.lineItems
  let (accuracyPct, driftPct, correctionFactor) := overall measuredCost billedCost
  { period := billing.period
    measuredCost := measuredCost
    billedCost := billedCost
    accuracyPct := accuracyPct
    driftPct := driftPct
    driftAlert := r.cfg.driftThresholdPct < driftPct
    byType := (mergeKeys byType billed).image (typeRow byType billed)
    unaccountedUSD := billedCost - measuredCost
    correctionFactor := correctionFactor }

/-- What is measured under a type. -/
def measuredUSD (measured : List (CostResult κ)) (t : String) : κ :=
  addUp ((measured.filter fun r => r.trafficType.string = t).map CostResult.costUSD)

/-- What is billed under a type. -/
def billedUSD (items : List (BillingLineItem κ)) (t : String) : κ :=
  addUp ((items.filter fun li => mapUsageType li.usageType = t).map BillingLineItem.costUSD)

/-- The row of a type shows what is measured and billed under it. -/
theorem typeRow_eq (measured : List (CostResult κ)) (items : List (BillingLineItem κ))
    (t : String) :
    typeRow (measuredByType measured) (billedByType items) t
      = ⟨t, measuredUSD measured t, billedUSD items t,
          typeDrift (measuredUSD measured t) (billedUSD items t)⟩ := by
  have hmeasured : ((measuredByType measured).lookup t).getD 0 = measuredUSD measured t :=
    getD_lookup_foldl_add _ _ measured t
  have hbilled : ((billedByType items).lookup t).getD 0 = billedUSD items t :=
    getD_lookup_foldl_add _ _ items t
  rw [typeRow, hmeasured, hbilled]

end Reconciler
