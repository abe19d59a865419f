/-
Rate cards (`pkg/cost/ratecard.go`).

A card is one for any type of prices and of bounds.  The agent's have `float64` for
both, and an unbounded tier has the bound `math.Inf(1)`, which is `⊤` here; `ExactCard`
has rationals instead.  Byte counts stay machine words: the metered bytes of a flow are a
wrapping sum when both directions count.
-/
import Mathlib.Data.Rat.Defs
import Mathlib.Data.UInt
import Mathlib.Order.WithBot
import Tollwing.FinMap
import Tollwing.Float64
import Tollwing.TrafficType

/-- Which direction of a flow's bytes is billable at the observing node. -/
inductive MeteredDirection
  | meterTxRx
  | meterTx
  | meterRx
  | meterNone
  deriving DecidableEq, Repr

/-- A pricing tier: the cumulative GB it reaches up to and its price per GB. -/
structure Tier (κ β : Type*) where
  upToGB : β
  perGB : κ
  deriving DecidableEq

structure TieredRate (κ β : Type*) where
  tiers : List (Tier κ β)
  deriving DecidableEq

structure NATGatewayRate (κ : Type*) where
  perHourUSD : κ
  perGBUSD : κ
  deriving DecidableEq

structure TransitGWRate (κ : Type*) where
  perAttachmentHourUSD : κ
  perGBUSD : κ
  deriving DecidableEq

/-- A calendar date. -/
structure Date where
  year : ℕ
  month : ℕ
  day : ℕ
  deriving DecidableEq, Repr

/-- The prices of one provider and region.  A traffic type missing from `rates`
costs nothing, one missing from `directions` meters both directions. -/
structure RateCard (κ β : Type*) where
  provider : String
  region : String
  rates : TrafficType → Option (TieredRate κ β)
  natGateway : NATGatewayRate κ
  transitGW : TransitGWRate κ
  directions : TrafficType → Option MeteredDirection
  lastUpdated : Date
  source : String
  fallback : Bool

/-- A card as the agent has it. -/
abbrev FloatCard := RateCard Float64 Float64

abbrev ExactTier := Tier ℚ (WithTop ℚ)
abbrev ExactRate := TieredRate ℚ (WithTop ℚ)

/-- A card with exact prices. -/
abbrev ExactCard := RateCard ℚ (WithTop ℚ)

instance : Top Float64 := ⟨.inf false⟩

variable {κ β : Type*}

namespace RateCard

/-- `MeteredBytes`: the billable bytes of a flow. -/
def meteredBytes (c : RateCard κ β) (tt : TrafficType) (txBytes rxBytes : UInt64) : UInt64 :=
  match (c.directions tt).getD .meterTxRx with
  | .meterTx => txBytes
  | .meterRx => rxBytes
  | .meterNone => 0
  | .meterTxRx => txBytes + rxBytes

end RateCard

/-- `MarginalRate`: the price of the first paid tier. -/
def TieredRate.marginalRate (r : ExactRate) : ℚ :=
  ((r.tiers.find? fun t => 0 < t.perGB).map Tier.perGB).getD 0

/-- A single-tier rate. -/
def flatRate [Top β] (perGB : κ) : TieredRate κ β := ⟨[⟨⊤, perGB⟩]⟩

/-! ### Prices read as others -/

section
variable {κ' β' : Type*} (price : κ → κ') (bound : β → β')

def Tier.map (t : Tier κ β) : Tier κ' β' := ⟨bound t.upToGB, price t.perGB⟩

def TieredRate.map (r : TieredRate κ β) : TieredRate κ' β' := ⟨r.tiers.map (Tier.map price bound)⟩

/-- The card with its prices and bounds read as those of another type. -/
def RateCard.map (c : RateCard κ β) : RateCard κ' β' :=
  { provider := c.provider
    region := c.region
    rates := fun tt => (c.rates tt).map (TieredRate.map price bound)
    natGateway := ⟨price c.natGateway.perHourUSD, price c.natGateway.perGBUSD⟩
    transitGW := ⟨price c.transitGW.perAttachmentHourUSD, price c.transitGW.perGBUSD⟩
    directions := c.directions
    lastUpdated := c.lastUpdated
    source := c.source
    fallback := c.fallback }

end

/-! ### The store -/

/-- `RateCardStore`, keyed by `provider:region`. -/
structure RateCardStore (κ β : Type*) where
  cards : FinMap String (RateCard κ β)

abbrev ExactStore := RateCardStore ℚ (WithTop ℚ)

namespace RateCardStore

def new : RateCardStore κ β := ⟨∅⟩

def set (s : RateCardStore κ β) (card : RateCard κ β) : RateCardStore κ β :=
  ⟨s.cards.insert (card.provider ++ ":" ++ card.region) card⟩

def get (s : RateCardStore κ β) (provider region : String) : Option (RateCard κ β) :=
  s.cards.lookup (provider ++ ":" ++ region)

theorem get_set (s : RateCardStore κ β) (card : RateCard κ β) :
    (s.set card).get card.provider card.region = some card :=
  Finmap.lookup_insert _

end RateCardStore

/-! ### Default cards -/

def defaultRatesAsOf : Date := ⟨2026, 7, 2⟩

def defaultRatesSource : String := "defaults (list prices verified 2026-07-02, DEC-014)"

/-- `DefaultMeteredDirections`; any provider but `gcp` and `azure` is AWS. -/
def defaultMeteredDirections (provider : String) : TrafficType → Option MeteredDirection :=
  if provider = "gcp" then fun
    | .sameZone => some .meterTxRx
    | .crossAZ => some .meterTx
    | .crossRegion => some .meterTx
    | .internetEgress => some .meterTx
    | .vpcPeering => some .meterTx
    | .vpcEndpoint => some .meterTxRx
    | .natGatewayEgress => some .meterTxRx
    | .transitGateway => some .meterTx
    | .cloudServicePublic => some .meterTx
    | .unknown | .intraNode | .serviceMeshInternal => none
  else if provider = "azure" then fun
    | .sameZone => some .meterTxRx
    | .crossAZ => some .meterTxRx
    | .crossRegion => some .meterTx
    | .internetEgress => some .meterTx
    | .vpcPeering => some .meterTxRx
    | .vpcEndpoint => some .meterTxRx
    | .natGatewayEgress => some .meterTxRx
    | .transitGateway => some .meterTx
    | .cloudServicePublic => some .meterTx
    | .unknown | .intraNode | .serviceMeshInternal => none
  else fun
    | .sameZone => some .meterTxRx
    | .crossAZ => some .meterTxRx
    | .crossRegion => some .meterTx
    | .internetEgress => some .meterTx
    | .vpcPeering => some .meterTxRx
    | .vpcEndpoint => some .meterTxRx
    | .natGatewayEgress => some .meterTxRx
    | .transitGateway => some .meterTx
    | .cloudServicePublic => some .meterTx
    | .unknown | .intraNode | .serviceMeshInternal => none

section
variable [Zero κ] [OfScientific κ] [NatCast β] [Top β]

/-- `DefaultAWSRateCard`. -/
def defaultAWSRateCard (region : String) : RateCard κ β :=
  { provider := "aws"
    region := region
    rates := fun
      | .sameZone => some (flatRate 0)
      | .crossAZ => some (flatRate 0.01)
      | .crossRegion => some (flatRate 0.02)
      | .internetEgress => some
        ⟨[⟨(100 : ℕ), 0⟩, ⟨(10 * 1024 : ℕ), 0.09⟩, ⟨(50 * 1024 : ℕ), 0.085⟩,
          ⟨(150 * 1024 : ℕ), 0.07⟩, ⟨⊤, 0.05⟩]⟩
      | .vpcPeering => some (flatRate 0.01)
      | .vpcEndpoint => some (flatRate 0.01)
      | .cloudServicePublic => some (flatRate 0)
      | .unknown | .natGatewayEgress | .transitGateway | .intraNode | .serviceMeshInternal => none
    natGateway := { perHourUSD := 0.045, perGBUSD := 0.045 }
    transitGW := { perAttachmentHourUSD := 0.05, perGBUSD := 0.02 }
    directions := defaultMeteredDirections "aws"
    lastUpdated := defaultRatesAsOf
    source := defaultRatesSource
    fallback := false }

/-- `DefaultGCPRateCard`. -/
def defaultGCPRateCard (region : String) : RateCard κ β :=
  { provider := "gcp"
    region := region
    rates := fun
      | .sameZone => some (flatRate 0)
      | .crossAZ => some (flatRate 0.01)
      | .crossRegion => some (flatRate 0.02)
      | .internetEgress => some
        ⟨[⟨(1024 : ℕ), 0.12⟩, ⟨(10 * 1024 : ℕ), 0.11⟩, ⟨⊤, 0.08⟩]⟩
      | .vpcPeering => some (flatRate 0.01)
      | .vpcEndpoint => some (flatRate 0.01)
      | .cloudServicePublic => some (flatRate 0)
      | .unknown | .natGatewayEgress | .transitGateway | .intraNode | .serviceMeshInternal => none
    natGateway := { perHourUSD := 0.044, perGBUSD := 0.045 }
    transitGW := { perAttachmentHourUSD := 0, perGBUSD := 0 }
    directions := defaultMeteredDirections "gcp"
    lastUpdated := defaultRatesAsOf
    source := defaultRatesSource
    fallback := false }

/-- `DefaultAzureRateCard`. -/
def defaultAzureRateCard (region : String) : RateCard κ β :=
  { provider := "azure"
    region := region
    rates := fun
      | .sameZone => some (flatRate 0)
      | .crossAZ => some (flatRate 0)
      | .crossRegion => some (flatRate 0.02)
      | .internetEgress => some
        ⟨[⟨(100 : ℕ), 0⟩, ⟨(10 * 1024 : ℕ), 0.087⟩, ⟨(50 * 1024 : ℕ), 0.083⟩,
          ⟨(150 * 1024 : ℕ), 0.07⟩, ⟨⊤, 0.05⟩]⟩
      | .vpcPeering => some (flatRate 0.01)
      | .vpcEndpoint => some (flatRate 0.01)
      | .cloudServicePublic => some (flatRate 0)
      | .unknown | .natGatewayEgress | .transitGateway | .intraNode | .serviceMeshInternal => none
    natGateway := { perHourUSD := 0.045, perGBUSD := 0.045 }
    transitGW := { perAttachmentHourUSD := 0, perGBUSD := 0 }
    directions := defaultMeteredDirections "azure"
    lastUpdated := defaultRatesAsOf
    source := defaultRatesSource
    fallback := false }

end
