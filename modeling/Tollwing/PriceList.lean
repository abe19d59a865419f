/-
The live price list (`pkg/cloud/aws/pricing.go`).

`fetchRateCard` overlays what the Price List API answers on the default card.
The items of an answer are nested maps; a map is listed here in the order its
iteration takes, so an answer is one of the ways the loops can see it, and
`PricingResponse.Reordered` relates the others.

* `collectPrices_eq`, `applyAWSNATGatewayPrices_eq` — what the loops compute of
  the dimensions they visit: the egress tiers are collected, the other transfer
  prices are the lowest, the NAT prices the last ones;
* `wellFormed_sortTiersAsc_iff`, `sortTiersAsc_perm` — when sorted tiers are well
  formed, and that they do not depend on the order then.
-/
import Tollwing.Bands
import Tollwing.LongestMatch
import Tollwing.ParseFloat
import Tollwing.RateCard
import Tollwing.Reorder

/-! ### Price list items -/

/-- `priceDimension`, without its description. -/
structure PriceDimension where
  unit : String
  beginRange : String
  endRange : String
  pricePerUnit : FinMap String String

structure PriceTerm where
  priceDimensions : List PriceDimension

/-- `priceListItem`. -/
structure PriceListItem where
  attributes : FinMap String String
  onDemand : List PriceTerm

/-- What the two queries of a fetch are answered; nothing for a failed one. -/
structure PricingResponse where
  dataTransfer : Option (List PriceListItem)
  natGateway : Option (List PriceListItem)

/-- `USDPrice`; a price the list does not state in dollars is zero, and of one that cannot
be read it is what `ParseFloat` returns beside the error. -/
def PriceDimension.usdPrice (d : PriceDimension) : Float64 :=
  match d.pricePerUnit.lookup "USD" with
  | some v => (ParseFloat.parseFloat v.toList).1
  | none => 0

def PriceListItem.attr (it : PriceListItem) (name : String) : String :=
  (it.attributes.lookup name).getD ""

/-- The dimensions of an item, in the order the loops visit them. -/
def PriceListItem.dimensions (it : PriceListItem) : List PriceDimension :=
  it.onDemand.flatMap PriceTerm.priceDimensions

/-! ### Data transfer -/

/-- What a data transfer item prices, by its attributes; the first case that
applies. -/
inductive TransferKind
  | internetOut
  | interRegion
  | intraRegion
  | vpcPeering
  deriving DecidableEq, Repr

/-- The cases of the switch in `applyAWSDataTransferPrices`. -/
def PriceListItem.transferKind (it : PriceListItem) : Option TransferKind :=
  let ttype := (it.attr "transferType").toLower
  if Strings.contains ttype "internetout" ∨ it.attr "toLocationType" = "AWS Edge Location" then
    some .internetOut
  else if Strings.contains ttype "interregion" ∨ Strings.contains ttype "inter-region" then
    some .interRegion
  else if Strings.contains ttype "intraregion" ∨ Strings.contains ttype "intra-region" then
    some .intraRegion
  else if Strings.contains ttype "vpcpeering" ∨
      Strings.contains (it.attr "productFamily").toLower "peering" then
    some .vpcPeering
  else none

def PriceDimension.inGB (d : PriceDimension) : Bool := Strings.contains d.unit.toLower "gb"

/-- The tier of an egress dimension; the lower end of its range is not used. -/
def PriceDimension.tier (d : PriceDimension) : Tier Float64 Float64 :=
  { upToGB :=
      if d.endRange ≠ "" ∧ d.endRange ≠ "Inf" then (ParseFloat.parseFloat d.endRange.toList).1
      else ⊤
    perGB := d.usdPrice }

/-- What the loops of `applyAWSDataTransferPrices` collect. -/
structure LivePrices where
  egressTiers : List (Tier Float64 Float64) := []
  crossRegionBest : Float64 := ⊤
  crossAZBest : Float64 := ⊤
  peeringBest : Float64 := ⊤

/-- A positive price that beats the best so far. -/
def better (price best : Float64) : Float64 :=
  if 0 < price ∧ price < best then price else best

/-- One round of the loops. -/
def LivePrices.visit (p : LivePrices) (it : PriceListItem) (dim : PriceDimension) : LivePrices :=
  if dim.inGB = false then p
  else
    match it.transferKind with
    | some .internetOut => { p with egressTiers := p.egressTiers ++ [dim.tier] }
    | some .interRegion => { p with crossRegionBest := better dim.usdPrice p.crossRegionBest }
    | some .intraRegion => { p with crossAZBest := better dim.usdPrice p.crossAZBest }
    | some .vpcPeering => { p with peeringBest := better dim.usdPrice p.peeringBest }
    | none => p

def collectPrices (items : List PriceListItem) : LivePrices :=
  items.foldl
    (fun p it => it.onDemand.foldl
      (fun p term => term.priceDimensions.foldl (fun p dim => p.visit it dim) p) p) {}

instance : DecidableLT Float64ᵒᵈ := fun x y =>
  inferInstanceAs (Decidable (OrderDual.ofDual y < OrderDual.ofDual x))

instance : IsTrans Float64ᵒᵈ (· < ·) :=
  ⟨fun x y z (hxy : OrderDual.ofDual y < OrderDual.ofDual x) (hyz : OrderDual.ofDual z < _) =>
    show OrderDual.ofDual z < OrderDual.ofDual x from IsTrans.trans _ _ _ hyz hxy⟩

/-- `sortTiersAsc`. -/
def sortTiersAsc (tiers : List (Tier Float64 Float64)) : List (Tier Float64 Float64) :=
  LongestMatch.sortDesc (fun t => OrderDual.toDual t.upToGB) tiers

namespace RateCard

def setRate (card : FloatCard) (tt : TrafficType) (rate : TieredRate Float64 Float64) :
    FloatCard :=
  { card with rates := Function.update card.rates tt (some rate) }

/-- The sorted egress tiers, if any were found. -/
def setEgress (card : FloatCard) (tiers : List (Tier Float64 Float64)) : FloatCard :=
  if 0 < tiers.length then card.setRate .internetEgress ⟨sortTiersAsc tiers⟩ else card

/-- The single-tier rate of a best price, if one was found. -/
def setBest (card : FloatCard) (tt : TrafficType) (price : Float64) : FloatCard :=
  if price = ⊤ then card else card.setRate tt (flatRate price)

end RateCard

def applyAWSDataTransferPrices (card : FloatCard) (items : List PriceListItem) : FloatCard :=
  let p := collectPrices items
  let card := card.setEgress p.egressTiers
  let card := card.setBest .crossRegion p.crossRegionBest
  let card := card.setBest .crossAZ p.crossAZBest
  card.setBest .vpcPeering p.peeringBest

/-! ### NAT gateways -/

def PriceDimension.perHour (d : PriceDimension) : Bool :=
  Strings.contains d.unit.toLower "hrs" || Strings.contains d.unit.toLower "hour"

/-- One round of the loops of `applyAWSNATGatewayPrices`. -/
def RateCard.visitNAT (card : FloatCard) (dim : PriceDimension) : FloatCard :=
  let price := dim.usdPrice
  if price ≤ 0 then card
  else if dim.perHour then
    { card with natGateway := { card.natGateway with perHourUSD := price } }
  else if dim.inGB then
    { card with natGateway := { card.natGateway with perGBUSD := price } }
  else card

def applyAWSNATGatewayPrices (card : FloatCard) (items : List PriceListItem) : FloatCard :=
  items.foldl
    (fun card it => it.onDemand.foldl
      (fun card term => term.priceDimensions.foldl RateCard.visitNAT card) card) card

/-! ### Fetching -/

/-- `regionToLocation`. -/
def regionToLocation (region : String) : Option String :=
  List.lookup region
    [("us-east-1", "US East (N. Virginia)"), ("us-east-2", "US East (Ohio)"),
      ("us-west-1", "US West (N. California)"), ("us-west-2", "US West (Oregon)"),
      ("eu-west-1", "EU (Ireland)"), ("eu-west-2", "EU (London)"), ("eu-west-3", "EU (Paris)"),
      ("eu-central-1", "EU (Frankfurt)"), ("eu-north-1", "EU (Stockholm)"),
      ("eu-south-1", "EU (Milan)"), ("ap-northeast-1", "Asia Pacific (Tokyo)"),
      ("ap-northeast-2", "Asia Pacific (Seoul)"), ("ap-northeast-3", "Asia Pacific (Osaka)"),
      ("ap-southeast-1", "Asia Pacific (Singapore)"), ("ap-southeast-2", "Asia Pacific (Sydney)"),
      ("ap-south-1", "Asia Pacific (Mumbai)"), ("ap-east-1", "Asia Pacific (Hong Kong)"),
      ("sa-east-1", "South America (Sao Paulo)"), ("ca-central-1", "Canada (Central)"),
      ("af-south-1", "Africa (Cape Town)"), ("me-south-1", "Middle East (Bahrain)")]

/-- `FetchRateCard`: nothing when the region is unknown or the data transfer
query fails; a failed NAT query leaves the default NAT prices. -/
def fetchRateCard (region : String) (today : Date) (answer : PricingResponse) :
    Option FloatCard :=
  match regionToLocation region, answer.dataTransfer with
  | some _, some dtItems =>
    let card := applyAWSDataTransferPrices (defaultAWSRateCard region) dtItems
    let card :=
      match answer.natGateway with
      | some natItems => applyAWSNATGatewayPrices card natItems
      | none => card
    some { card with lastUpdated := today, source := "aws-price-list-api", fallback := false }
  | _, _ => none

/-! ### What the loops compute -/

/-- The dimensions of an item that the loops of `applyAWSDataTransferPrices` take
as prices of `kind`. -/
def PriceListItem.transferDimensions (kind : TransferKind) (it : PriceListItem) :
    List PriceDimension :=
  if it.transferKind = some kind then it.dimensions.filter PriceDimension.inGB else []

/-- Those of all items. -/
def transferDimensions (kind : TransferKind) (items : List PriceListItem) : List PriceDimension :=
  items.flatMap (PriceListItem.transferDimensions kind)

/-- The lowest positive price of some dimensions, or `best`. -/
def bestPrice (best : Float64) (dims : List PriceDimension) : Float64 :=
  dims.foldl (fun b d => better d.usdPrice b) best

/-- The prices collected with some more dimensions of each kind. -/
def LivePrices.extend (p : LivePrices) (dims : TransferKind → List PriceDimension) : LivePrices :=
  { egressTiers := p.egressTiers ++ (dims .internetOut).map PriceDimension.tier
    crossRegionBest := bestPrice p.crossRegionBest (dims .interRegion)
    crossAZBest := bestPrice p.crossAZBest (dims .intraRegion)
    peeringBest := bestPrice p.peeringBest (dims .vpcPeering) }

theorem LivePrices.extend_append (p : LivePrices)
    (dims dims' : TransferKind → List PriceDimension) :
    p.extend (fun kind => dims kind ++ dims' kind) = (p.extend dims).extend dims' := by
  simp [LivePrices.extend, bestPrice]

theorem LivePrices.extend_nil (p : LivePrices) : p.extend (fun _ => []) = p := by
  simp [LivePrices.extend, bestPrice]

/-- A round takes the dimension as a price of the item's kind, if it is one. -/
theorem LivePrices.visit_eq (p : LivePrices) (it : PriceListItem) (dim : PriceDimension) :
    p.visit it dim = p.extend fun kind =>
      if it.transferKind = some kind then [dim].filter PriceDimension.inGB else [] := by
  rw [LivePrices.visit]
  by_cases hgb : dim.inGB
  · rw [if_neg (by simp [hgb])]
    rcases hkind : it.transferKind with _ | kind
    · simp [LivePrices.extend, bestPrice]
    · cases kind <;> simp [LivePrices.extend, bestPrice, hgb]
  · rw [if_pos (by simpa using hgb)]
    simp [LivePrices.extend, bestPrice, hgb]

theorem LivePrices.foldl_visit (it : PriceListItem) (dims : List PriceDimension) (p : LivePrices) :
    dims.foldl (fun p dim => p.visit it dim) p = p.extend fun kind =>
      if it.transferKind = some kind then dims.filter PriceDimension.inGB else [] := by
  induction dims generalizing p with
  | nil =>
    simp only [List.filter_nil, ite_self]
    exact p.extend_nil.symm
  | cons dim dims ih =>
    rw [List.foldl_cons, ih, LivePrices.visit_eq, ← LivePrices.extend_append]
    congr 1
    funext kind
    by_cases hkind : it.transferKind = some kind
    · rw [if_pos hkind, if_pos hkind, if_pos hkind, ← List.filter_append, List.singleton_append]
    · rw [if_neg hkind, if_neg hkind, if_neg hkind, List.append_nil]

/-- **The data transfer loops** collect the egress tiers and the lowest price of
each other kind. -/
theorem collectPrices_eq (items : List PriceListItem) :
    collectPrices items = LivePrices.extend {} fun kind => transferDimensions kind items := by
  have hloop : ∀ (items : List PriceListItem) (p : LivePrices),
      items.foldl (fun p it => it.onDemand.foldl
        (fun p term => term.priceDimensions.foldl (fun p dim => p.visit it dim) p) p) p
        = p.extend fun kind => transferDimensions kind items := by
    intro items
    induction items with
    | nil => exact fun p => p.extend_nil.symm
    | cons it items ih =>
      intro p
      rw [List.foldl_cons, ih, ← List.foldl_flatMap, LivePrices.foldl_visit,
        ← LivePrices.extend_append]
      rfl
  exact hloop items {}

/-- The price per hour a dimension sets. -/
def PriceDimension.hourly (d : PriceDimension) : Option Float64 :=
  if d.usdPrice ≤ 0 then none else if d.perHour then some d.usdPrice else none

/-- The price per GB a dimension sets; a unit that names an hour is none. -/
def PriceDimension.perGB (d : PriceDimension) : Option Float64 :=
  if d.usdPrice ≤ 0 then none
  else if d.perHour then none
  else if d.inGB then some d.usdPrice
  else none

/-- A dimension sets the price of its unit. -/
theorem RateCard.visitNAT_eq (card : FloatCard) (dim : PriceDimension) :
    card.visitNAT dim =
      { card with
        natGateway :=
          { perHourUSD := dim.hourly.elim card.natGateway.perHourUSD id
            perGBUSD := dim.perGB.elim card.natGateway.perGBUSD id } } := by
  rw [RateCard.visitNAT, PriceDimension.hourly, PriceDimension.perGB]
  split_ifs <;> rfl

/-- Each price is the last one a dimension sets, and nothing else changes. -/
theorem RateCard.foldl_visitNAT (card : FloatCard) (dims : List PriceDimension) :
    dims.foldl RateCard.visitNAT card =
      { card with
        natGateway :=
          ⟨History.lastValue PriceDimension.hourly card.natGateway.perHourUSD dims,
            History.lastValue PriceDimension.perGB card.natGateway.perGBUSD dims⟩ } := by
  have hhour : (dims.foldl RateCard.visitNAT card).natGateway.perHourUSD
      = History.lastValue PriceDimension.hourly card.natGateway.perHourUSD dims :=
    History.foldl_lastValue (fun c : FloatCard => c.natGateway.perHourUSD) id
      (fun c d => by rw [c.visitNAT_eq]) rfl dims
  have hgb : (dims.foldl RateCard.visitNAT card).natGateway.perGBUSD
      = History.lastValue PriceDimension.perGB card.natGateway.perGBUSD dims :=
    History.foldl_lastValue (fun c : FloatCard => c.natGateway.perGBUSD) id
      (fun c d => by rw [c.visitNAT_eq]) rfl dims
  have hrest : dims.foldl RateCard.visitNAT card
      = { card with natGateway := (dims.foldl RateCard.visitNAT card).natGateway } := by
    clear hhour hgb
    induction dims generalizing card with
    | nil => rfl
    | cons d dims ih => rw [List.foldl_cons, ih, card.visitNAT_eq]
  rw [hrest]
  congr 1
  exact congrArg₂ NATGatewayRate.mk hhour hgb

/-- **The NAT loops** keep the last price of each unit. -/
theorem applyAWSNATGatewayPrices_eq (card : FloatCard) (items : List PriceListItem) :
    applyAWSNATGatewayPrices card items =
      { card with
        natGateway :=
          { perHourUSD := History.lastValue PriceDimension.hourly card.natGateway.perHourUSD
              (items.flatMap PriceListItem.dimensions)
            perGBUSD := History.lastValue PriceDimension.perGB card.natGateway.perGBUSD
              (items.flatMap PriceListItem.dimensions) } } := by
  rw [← RateCard.foldl_visitNAT, List.foldl_flatMap]
  simp only [PriceListItem.dimensions, List.foldl_flatMap]
  rfl

/-! ### Sorted tiers -/

theorem sortTiersAsc_perm_self (tiers : List (Tier Float64 Float64)) :
    (sortTiersAsc tiers).Perm tiers :=
  LongestMatch.sortDesc_perm _ tiers

/-- Tiers any two of which can be told apart by their bounds. -/
def DistinctBounds (bounds : List Float64) : Prop :=
  bounds.Pairwise fun u u' => u < u' ∨ u' < u

instance (bounds : List Float64) : Decidable (DistinctBounds bounds) :=
  inferInstanceAs (Decidable (bounds.Pairwise _))

theorem DistinctBounds.perm {bounds bounds' : List Float64} (h : DistinctBounds bounds)
    (hperm : bounds.Perm bounds') : DistinctBounds bounds' :=
  (hperm.pairwise_iff fun h => h.symm).mp h

theorem DistinctBounds.comparable {tiers : List (Tier Float64 Float64)}
    (h : DistinctBounds (tiers.map Tier.upToGB)) :
    tiers.Pairwise fun t t' => OrderDual.toDual t.upToGB < OrderDual.toDual t'.upToGB ∨
      OrderDual.toDual t'.upToGB < OrderDual.toDual t.upToGB :=
  (List.pairwise_map.mp h).imp fun h => h.symm

/-- Tiers with distinct bounds are strictly ascending once sorted. -/
theorem sortTiersAsc_pairwise {tiers : List (Tier Float64 Float64)}
    (h : DistinctBounds (tiers.map Tier.upToGB)) :
    (sortTiersAsc tiers).Pairwise fun t t' => t.upToGB < t'.upToGB :=
  LongestMatch.sortDesc_pairwise (fun t : Tier Float64 Float64 => OrderDual.toDual t.upToGB)
    h.comparable

theorem not_top_lt_float (x : Float64) : ¬(⊤ : Float64) < x := by
  cases x with
  | nan | finite => exact Bool.false_ne_true
  | inf s => cases s <;> exact Bool.false_ne_true

/-- **Sorted tiers are well formed** exactly if their bounds are distinct and one
of them is unbounded. -/
theorem wellFormed_sortTiersAsc_iff {tiers : List (Tier Float64 Float64)} :
    Bands.WellFormed Tier.upToGB (sortTiersAsc tiers)
      ↔ DistinctBounds (tiers.map Tier.upToGB) ∧ ⊤ ∈ tiers.map Tier.upToGB := by
  have hperm := (sortTiersAsc_perm_self tiers).map Tier.upToGB
  constructor
  · intro h
    constructor
    · refine DistinctBounds.perm ?_ hperm
      exact List.pairwise_map.mpr (h.ascending.imp fun hlt => Or.inl hlt)
    · obtain ⟨t, ht, htop⟩ := Option.map_eq_some_iff.mp h.unbounded
      rw [← htop]
      exact hperm.mem_iff.mp (List.mem_map_of_mem (List.mem_of_getLast? ht))
  · rintro ⟨hdistinct, htop⟩
    have hasc := sortTiersAsc_pairwise hdistinct
    refine ⟨hasc, ?_⟩
    obtain ⟨t, ht, htop⟩ := List.mem_map.mp (hperm.mem_iff.mpr htop)
    obtain ⟨below, above, hsplit⟩ := List.append_of_mem ht
    rw [hsplit] at hasc
    -- no bound is above an unbounded one
    have habove : above = [] := by
      refine List.eq_nil_iff_forall_not_mem.mpr fun t' ht' => ?_
      have hlt := (List.pairwise_cons.mp (List.pairwise_append.mp hasc).2.1).1 t' ht'
      rw [htop] at hlt
      exact not_top_lt_float _ hlt
    rw [hsplit, habove, List.getLast?_concat, Option.map_some, htop]

/-- Tiers with distinct bounds have one sorted order. -/
theorem sortTiersAsc_perm {tiers tiers' : List (Tier Float64 Float64)}
    (hperm : tiers.Perm tiers') (h : DistinctBounds (tiers.map Tier.upToGB)) :
    sortTiersAsc tiers = sortTiersAsc tiers' :=
  have hasymm : ∀ u u' : Float64ᵒᵈ, u < u' → ¬u' < u := fun _ _ hlt => Float64.lt_asymm hlt
  LongestMatch.sortDesc_eq_of_perm (fun t : Tier Float64 Float64 => OrderDual.toDual t.upToGB)
    hasymm hperm h.comparable
