/-
The engine against the pricing oracle (`test/sim/oracle.go`, `test/sim/harness.go`).

The simulation prices every edge a second time, from a price sheet of its own
and with a tier walk of its own.  Engine and oracle are run side by side here:

* `Sim.tieredCost_eq_charge` — the oracle's tier walk is the same integral;
* `Sim.Transcribes` — what a sheet and a card have to agree on, which the three
  built-in ones do (`Sim.transcribes_rateCard`);
* `Sim.calculateFlow_eq_oracle` — one flow: the same cost, and the meters stay
  together;
* `Sim.costs_eq_oracle` — every sequence of flows of one month;
* `tieredCost_integral` — the engine's tier loops compute what a reader expects of an
  integral, and the oracle's walk computes the same.
-/
import Mathlib.Tactic.NormNum
import Tollwing.SingleMeter

namespace Sim

/-! ### The oracle -/

/-- `oracleTier`: an egress volume band. -/
structure OracleTier where
  upToGiB : WithTop ℚ
  perGiB : ℚ
  deriving DecidableEq

/-- `oracleSheet`: the transcribed rates of a provider. -/
structure OracleSheet where
  crossAZPerGiB : ℚ
  crossAZBothDir : Bool
  crossRegion : ℚ
  egressTiers : List OracleTier
  peeringPerGiB : ℚ
  peeringBothDir : Bool
  endpointPerGiB : ℚ
  natPerGiB : ℚ
  tgwPerGiB : ℚ

/-- `sheetFor`; any provider but `gcp` and `azure` is AWS. -/
def sheetFor (provider : String) : OracleSheet :=
  if provider = "gcp" then
    { crossAZPerGiB := 0.01
      crossAZBothDir := false
      crossRegion := 0.02
      egressTiers := [⟨(1024 : ℚ), 0.12⟩, ⟨(10 * 1024 : ℚ), 0.11⟩, ⟨⊤, 0.08⟩]
      peeringPerGiB := 0.01
      peeringBothDir := false
      endpointPerGiB := 0.01
      natPerGiB := 0.045
      tgwPerGiB := 0 }
  else if provider = "azure" then
    { crossAZPerGiB := 0
      crossAZBothDir := false
      crossRegion := 0.02
      egressTiers := [⟨(100 : ℚ), 0⟩, ⟨(10 * 1024 : ℚ), 0.087⟩, ⟨(50 * 1024 : ℚ), 0.083⟩,
        ⟨(150 * 1024 : ℚ), 0.07⟩, ⟨⊤, 0.05⟩]
      peeringPerGiB := 0.01
      peeringBothDir := true
      endpointPerGiB := 0.01
      natPerGiB := 0.045
      tgwPerGiB := 0 }
  else
    { crossAZPerGiB := 0.01
      crossAZBothDir := true
      crossRegion := 0.02
      egressTiers := [⟨(100 : ℚ), 0⟩, ⟨(10 * 1024 : ℚ), 0.09⟩, ⟨(50 * 1024 : ℚ), 0.085⟩,
        ⟨(150 * 1024 : ℚ), 0.07⟩, ⟨⊤, 0.05⟩]
      peeringPerGiB := 0.01
      peeringBothDir := true
      endpointPerGiB := 0.01
      natPerGiB := 0.045
      tgwPerGiB := 0.02 }

/-- The loop of the oracle's `tieredCost`; no sheet has a band above the
unbounded one. -/
def tieredCostLoop (prevGiB newGiB : ℚ) : ℚ → ℚ → List OracleTier → ℚ
  | total, _, [] => total
  | total, tierStart, t :: ts =>
    let start := max prevGiB tierStart
    let stop := Bands.capAt newGiB t.upToGiB
    tieredCostLoop prevGiB newGiB
      (if start < stop then total + (stop - start) * t.perGiB else total)
      (t.upToGiB.untopD 0) ts

/-- The oracle's `tieredCost`. -/
def tieredCost (tiers : List OracleTier) (prevGiB newGiB : ℚ) : ℚ :=
  tieredCostLoop prevGiB newGiB 0 0 tiers

/-- `marginalEgressRate`: the first paid egress band. -/
def marginalEgressRate (sheet : OracleSheet) : ℚ :=
  ((sheet.egressTiers.find? fun t => 0 < t.perGiB).map OracleTier.perGiB).getD 0

/-- `egressCost`. -/
def egressCost (sheet : OracleSheet) (txGiB : ℚ) (singleMeter : Bool) (cumGiB : ℚ) : ℚ :=
  if !singleMeter then txGiB * marginalEgressRate sheet
  else tieredCost sheet.egressTiers cumGiB (cumGiB + txGiB)

/-- `oracleCost`: the cost of a flow and what it adds to the egress meter. -/
def oracleCost (sheet : OracleSheet) (tt : TrafficType) (txGiB rxGiB : ℚ) (singleMeter : Bool)
    (cumEgressGiB : ℚ) : ℚ × ℚ :=
  let both := txGiB + rxGiB
  match tt with
  | .crossAZ =>
    if sheet.crossAZBothDir then (both * sheet.crossAZPerGiB, 0)
    else (txGiB * sheet.crossAZPerGiB, 0)
  | .crossRegion => (txGiB * sheet.crossRegion, 0)
  | .internetEgress => (egressCost sheet txGiB singleMeter cumEgressGiB, txGiB)
  | .natGatewayEgress =>
    (both * sheet.natPerGiB + egressCost sheet txGiB singleMeter cumEgressGiB, txGiB)
  | .transitGateway => (txGiB * sheet.tgwPerGiB, 0)
  | .vpcPeering =>
    if sheet.peeringBothDir then (both * sheet.peeringPerGiB, 0)
    else (txGiB * sheet.peeringPerGiB, 0)
  | .vpcEndpoint => (both * sheet.endpointPerGiB, 0)
  | _ => (0, 0)

/-- The bytes of an edge in GiB, as the oracle computes them. -/
def toGiB (b : UInt64) : ℚ := (b.toNat : ℚ) / 2 ^ 30

/-- The loop of `Oracle`, over the classified flows. -/
def oracleCosts (sheet : OracleSheet) (singleMeter : Bool) : ℚ → List FlowRecord → List ℚ
  | _, [] => []
  | cumEgressGiB, flow :: flows =>
    let (cost, egressGiB) := oracleCost sheet flow.trafficType (toGiB flow.txBytes)
      (toGiB flow.rxBytes) singleMeter cumEgressGiB
    cost :: oracleCosts sheet singleMeter (cumEgressGiB + egressGiB) flows

/-! ### The measured side -/

/-- `rateCard`: the product's default card of a provider. -/
def rateCard (provider region : String) : ExactCard :=
  if provider = "gcp" then defaultGCPRateCard region
  else if provider = "azure" then defaultAzureRateCard region
  else defaultAWSRateCard region

/-- The engine of a simulation that starts at `now`. -/
def measureEngine (card : ExactCard) (mode : PricingMode) (now : Time) : Engine :=
  (Engine.newEngineWithConfig (RateCardStore.new.set card) mode now).resetBillingPeriod now

/-! ### The tier walks agree -/

theorem tieredCostLoop_cons (prevGiB newGiB total tierStart : ℚ) (t : OracleTier)
    (ts : List OracleTier) :
    tieredCostLoop prevGiB newGiB total tierStart (t :: ts)
      = tieredCostLoop prevGiB newGiB
          (if max prevGiB tierStart < Bands.capAt newGiB t.upToGiB then
            total + (Bands.capAt newGiB t.upToGiB - max prevGiB tierStart) * t.perGiB
          else total)
          (t.upToGiB.untopD 0) ts := (rfl)

theorem tieredCostLoop_eq (prevGiB newGiB : ℚ) (tiers : List OracleTier) (total tierStart : ℚ) :
    tieredCostLoop prevGiB newGiB total tierStart tiers
      = total
        + Bands.charge OracleTier.upToGiB OracleTier.perGiB tierStart tiers prevGiB newGiB := by
  induction tiers generalizing total tierStart with
  | nil => exact (add_zero total).symm
  | cons t ts ih =>
    rw [tieredCostLoop_cons, ih, Bands.charge, Bands.overlap, ← add_assoc]
    congr 1
    by_cases hpos : max prevGiB tierStart < Bands.capAt newGiB t.upToGiB
    · rw [if_pos hpos, max_eq_right (sub_pos.mpr hpos).le]
    · rw [if_neg hpos, max_eq_left (sub_nonpos.mpr (not_lt.mp hpos)), zero_mul, add_zero]

/-- The oracle's tier walk computes the integral of the rate too. -/
theorem tieredCost_eq_charge (tiers : List OracleTier) (prevGiB newGiB : ℚ) :
    tieredCost tiers prevGiB newGiB
      = Bands.charge OracleTier.upToGiB OracleTier.perGiB 0 tiers prevGiB newGiB := by
  rw [tieredCost, tieredCostLoop_eq, zero_add]

/-- The band of the product's tier. -/
def OracleTier.toTier (t : OracleTier) : ExactTier := ⟨t.upToGiB, t.perGiB⟩

theorem marginalRate_toTier (sheet : OracleSheet) :
    (⟨sheet.egressTiers.map OracleTier.toTier⟩ : ExactRate).marginalRate
      = marginalEgressRate sheet := by
  rw [TieredRate.marginalRate, marginalEgressRate, List.find?_map, Option.map_map]
  rfl

theorem toGiB_eq (b : UInt64) : toGiB b = bytesToGB b := by
  rw [toGiB, bytesToGB]
  norm_num

/-- Without overflow the bytes of both directions add up. -/
theorem bytesToGB_add {tx rx : UInt64} (h : tx.toNat + rx.toNat < 2 ^ 64) :
    bytesToGB (tx + rx) = toGiB tx + toGiB rx := by
  rw [toGiB_eq, toGiB_eq, bytesToGB, bytesToGB, bytesToGB, UInt64.toNat_add, Nat.mod_eq_of_lt h,
    Nat.cast_add, add_div]

/-! ### Card and sheet -/

/-- The price per GB of a traffic type with one tier. -/
def flatPrice (card : ExactCard) (tt : TrafficType) : Option ℚ :=
  (card.rates tt).map fun rate => (rate.tiers.head?.map Tier.perGB).getD 0

/-- The price sheet transcribes the rate card.  Everything but internet egress
has one tier or none. -/
structure Transcribes (card : ExactCard) (sheet : OracleSheet) : Prop where
  egress : card.rates .internetEgress = some ⟨sheet.egressTiers.map OracleTier.toTier⟩
  egressDirection : card.directions .internetEgress = some .meterTx
  wellFormed : Bands.WellFormed Tier.upToGB (sheet.egressTiers.map OracleTier.toTier)
  tiered : 1 < sheet.egressTiers.length
  nat : card.natGateway.perGBUSD = sheet.natPerGiB
  natDirection : card.directions .natGatewayEgress = some .meterTxRx
  transit : card.transitGW.perGBUSD = sheet.tgwPerGiB
  transitDirection : card.directions .transitGateway = some .meterTx
  flat : ∀ tt, tt ≠ .internetEgress → tt ≠ .natGatewayEgress → tt ≠ .transitGateway →
    card.rates tt = (flatPrice card tt).map flatRate ∧
      ∀ tx rx : UInt64, tx.toNat + rx.toNat < 2 ^ 64 → ∀ singleMeter cumGiB,
        oracleCost sheet tt (toGiB tx) (toGiB rx) singleMeter cumGiB
          = (bytesToGB (card.meteredBytes tt tx rx) * (flatPrice card tt).getD 0, 0)

theorem transcribes_aws {provider : String} (hgcp : provider ≠ "gcp") (hazure : provider ≠ "azure")
    (region : String) : Transcribes (defaultAWSRateCard region) (sheetFor provider) := by
  rw [sheetFor, if_neg hgcp, if_neg hazure]
  refine ⟨by norm_num [defaultAWSRateCard, OracleTier.toTier], rfl,
    ⟨by decide +kernel, by decide +kernel⟩, by decide, rfl, rfl, rfl, rfl,
    fun tt hegress hnat htransit => ⟨?_, fun tx rx hlt singleMeter cumGiB => ?_⟩⟩
  · cases tt <;> first | rfl | contradiction
  · cases tt <;> first | contradiction |
      simp [oracleCost, RateCard.meteredBytes, defaultAWSRateCard, defaultMeteredDirections,
        flatPrice, flatRate, bytesToGB_add hlt, toGiB_eq]

theorem transcribes_gcp (region : String) :
    Transcribes (defaultGCPRateCard region) (sheetFor "gcp") := by
  refine ⟨by norm_num [defaultGCPRateCard, sheetFor, OracleTier.toTier], rfl,
    ⟨by decide +kernel, by decide +kernel⟩, by decide, rfl, rfl, rfl, rfl,
    fun tt hegress hnat htransit => ⟨?_, fun tx rx hlt singleMeter cumGiB => ?_⟩⟩
  · cases tt <;> first | rfl | contradiction
  · cases tt <;> first | contradiction |
      simp [oracleCost, sheetFor, RateCard.meteredBytes, defaultGCPRateCard,
        defaultMeteredDirections, flatPrice, flatRate, bytesToGB_add hlt, toGiB_eq]

theorem transcribes_azure (region : String) :
    Transcribes (defaultAzureRateCard region) (sheetFor "azure") := by
  have hname : "azure" ≠ "gcp" := by decide
  refine ⟨by norm_num [defaultAzureRateCard, sheetFor, if_neg hname, OracleTier.toTier], rfl,
    ⟨by decide +kernel, by decide +kernel⟩, by decide, rfl, rfl, rfl, rfl,
    fun tt hegress hnat htransit => ⟨?_, fun tx rx hlt singleMeter cumGiB => ?_⟩⟩
  · cases tt <;> first | rfl | contradiction
  · cases tt <;> first | contradiction |
      simp [oracleCost, sheetFor, RateCard.meteredBytes, defaultAzureRateCard,
        defaultMeteredDirections, flatPrice, flatRate, bytesToGB_add hlt, toGiB_eq]

/-- Every built-in card is transcribed by the sheet of its provider. -/
theorem transcribes_rateCard (provider region : String) :
    Transcribes (rateCard provider region) (sheetFor provider) := by
  rw [rateCard]
  split_ifs with hgcp hazure
  · rw [hgcp]
    exact transcribes_gcp region
  · rw [hazure]
    exact transcribes_azure region
  · exact transcribes_aws hgcp hazure region

/-! ### One flow -/

/-- Engine and oracle have metered the same egress in the month. -/
structure MetersAgree (card : ExactCard) (mode : PricingMode) (month : ℤ) (e : Engine)
    (cumGiB : ℚ) : Prop where
  mode_eq : e.mode = mode
  period : e.resetTime = ⟨month, 0⟩
  nonneg : 0 ≤ cumGiB
  usage : mode = .singleMeter →
    e.usage (Engine.meterKey card.provider card.region .internetEgress) = cumGiB

variable {card : ExactCard} {sheet : OracleSheet} {mode : PricingMode} {month : ℤ} {e : Engine}
  {now : Time} {cumGiB gb : ℚ}

/-- An amount of egress costs the same, and both meters move by it. -/
theorem priceTiered_eq_egressCost (h : Transcribes card sheet)
    (hagree : MetersAgree card mode month e cumGiB) (hnow : now.month = month) (hgb : 0 ≤ gb) :
    let rate := ⟨sheet.egressTiers.map OracleTier.toTier⟩
    let priced := e.priceTiered now card.provider card.region .internetEgress rate gb
    priced.2 = egressCost sheet gb (mode = .singleMeter) cumGiB ∧
      MetersAgree card mode month priced.1 (cumGiB + gb) := by
  intro rate priced
  have hlen : 1 < (sheet.egressTiers.map OracleTier.toTier).length := by
    rw [List.length_map]
    exact h.tiered
  cases mode with
  | marginal =>
    have hpriced : priced = (e, gb * rate.marginalRate) :=
      Engine.priceTiered_marginal hagree.mode_eq hlen
    rw [hpriced]
    refine ⟨?_, hagree.mode_eq, hagree.period, add_nonneg hagree.nonneg hgb, nofun⟩
    rw [marginalRate_toTier]
    rfl
  | singleMeter =>
    have hoff : now ≠ e.resetTime.addMonth := by
      intro heq
      rw [heq, hagree.period] at hnow
      exact absurd hnow (by simp [Time.addMonth])
    have hmetered :
        e.Metered (Engine.meterKey card.provider card.region .internetEgress) month cumGiB :=
      Or.inl ⟨hagree.period, hagree.usage rfl⟩
    obtain ⟨hcost, hmeter⟩ := Engine.priceTiered_metered hagree.mode_eq h.wellFormed
      (fun _ => hmetered) hnow hoff hagree.nonneg hgb
    obtain ⟨hperiod, husage⟩ := hmeter hlen
    refine ⟨?_, (Engine.priceTiered_store ..).2.trans hagree.mode_eq, hperiod,
      add_nonneg hagree.nonneg hgb, fun _ => husage⟩
    rw [hcost, Bands.charge_map]
    exact (tieredCost_eq_charge ..).symm

/-- **One flow costs the same**, and the meters stay together. -/
theorem calculateFlow_eq_oracle (h : Transcribes card sheet)
    (hagree : MetersAgree card mode month e cumGiB) (hnow : now.month = month) {flow : FlowRecord}
    (hlt : flow.txBytes.toNat + flow.rxBytes.toNat < 2 ^ 64) :
    let cost := oracleCost sheet flow.trafficType (toGiB flow.txBytes) (toGiB flow.rxBytes)
      (mode = .singleMeter) cumGiB
    (e.calculateFlow now card flow).2 = cost.1 ∧
      MetersAgree card mode month (e.calculateFlow now card flow).1 (cumGiB + cost.2) := by
  intro cost
  have hgb := bytesToGB_nonneg flow.txBytes
  obtain ⟨hpriced, hmeters⟩ := priceTiered_eq_egressCost h hagree hnow hgb
  by_cases hegress : flow.trafficType = .internetEgress
  · rw [Engine.calculateFlow_egress (Or.inl hegress) h.egress
      (Engine.metersSent_of_meterTx h.egressDirection _)]
    have hcost : cost = (egressCost sheet (bytesToGB flow.txBytes) (mode = .singleMeter) cumGiB,
        bytesToGB flow.txBytes) := by
      show oracleCost .. = _
      rw [hegress, toGiB_eq]
      rfl
    rw [hcost]
    refine ⟨?_, hmeters⟩
    rw [hpriced, Engine.processing, if_neg (by rw [hegress]; decide), zero_add]
  by_cases hnat : flow.trafficType = .natGatewayEgress
  · rw [Engine.calculateFlow_egress (Or.inr hnat) h.egress
      (Engine.metersSent_of_meterTx h.egressDirection _)]
    have hcost : cost = ((toGiB flow.txBytes + toGiB flow.rxBytes) * sheet.natPerGiB
        + egressCost sheet (bytesToGB flow.txBytes) (mode = .singleMeter) cumGiB,
        bytesToGB flow.txBytes) := by
      show oracleCost .. = _
      rw [hnat, ← toGiB_eq]
      rfl
    rw [hcost]
    refine ⟨?_, hmeters⟩
    rw [hpriced, Engine.processing, if_pos hnat, RateCard.meteredBytes, h.natDirection, h.nat,
      ← bytesToGB_add hlt]
    rfl
  -- the other types leave the meters alone
  by_cases htransit : flow.trafficType = .transitGateway
  · have hcost : cost = (toGiB flow.txBytes * sheet.tgwPerGiB, 0) := by
      show oracleCost .. = _
      rw [htransit]
      rfl
    have hflow : e.calculateFlow now card flow
        = (e, bytesToGB flow.txBytes * card.transitGW.perGBUSD) := by
      rw [Engine.calculateFlow, htransit, RateCard.meteredBytes, h.transitDirection]
      rfl
    rw [hcost, hflow, h.transit, toGiB_eq, add_zero]
    exact ⟨rfl, hagree⟩
  · obtain ⟨hrate, hflat⟩ := h.flat flow.trafficType hegress hnat htransit
    have hcost : cost = _ := hflat _ _ hlt _ _
    rw [hcost, Engine.calculateFlow_flat hnat htransit hrate, add_zero]
    exact ⟨rfl, hagree⟩

/-! ### A month of flows -/

/-- The meters stay together and every cost agrees. -/
theorem calculateFlows_eq_oracle (h : Transcribes card sheet) {flows : List (Time × FlowRecord)}
    (hflows : ∀ x ∈ flows,
      x.1.month = month ∧ x.2.txBytes.toNat + x.2.rxBytes.toNat < 2 ^ 64)
    (hagree : MetersAgree card mode month e cumGiB) :
    (e.calculateFlows card flows).2
      = oracleCosts sheet (mode = .singleMeter) cumGiB (flows.map Prod.snd) := by
  induction flows generalizing e cumGiB with
  | nil => rfl
  | cons x flows ih =>
    obtain ⟨hnow, hlt⟩ := hflows x (List.mem_cons_self ..)
    obtain ⟨hcost, hmeters⟩ := calculateFlow_eq_oracle h hagree hnow hlt
    have htail := ih (fun y hy => hflows y (List.mem_cons_of_mem x hy)) hmeters
    rw [Engine.calculateFlows_cons, hcost, Engine.afterFlow, htail]
    rfl

/-- **Engine and oracle agree on every flow of a month.**  For every provider and
region and in either mode, the costs that `Calculate` gives to any batches are
those of the oracle, flow by flow, as long as no flow's byte counts overflow
when they are added. -/
theorem costs_eq_oracle (provider region : String) (mode : PricingMode) (now : Time)
    {batches : List (List (Time × FlowRecord))}
    (hflows : ∀ x ∈ batches.flatten,
      x.1.month = now.month ∧ x.2.txBytes.toNat + x.2.rxBytes.toNat < 2 ^ 64) :
    let card := rateCard provider region
    ((measureEngine card mode now).calculateBatches card.provider card.region batches).2.flatten
      = oracleCosts (sheetFor provider) (mode = .singleMeter) 0
          (batches.flatten.map Prod.snd) := by
  intro card
  rw [Engine.calculateBatches_eq (RateCardStore.get_set _ card)]
  exact calculateFlows_eq_oracle (transcribes_rateCard provider region) hflows
    ⟨rfl, rfl, le_rfl, fun _ => rfl⟩

/-- Every kind of charge over two tiers of egress. -/
theorem costs_eq_oracle_azure :
    let batches : List (List (Time × FlowRecord)) :=
      [[(⟨0, 3⟩, ⟨.vpcPeering, 1024 ^ 3, 1024 ^ 3⟩),
          (⟨0, 4⟩, ⟨.natGatewayEgress, 99 * 1024 ^ 3, 0⟩)],
        [(⟨0, 5⟩, ⟨.internetEgress, 2 * 1024 ^ 3, 7⟩), (⟨0, 6⟩, ⟨.intraNode, 5, 5⟩)]]
    ((measureEngine (rateCard "azure" "eastus") .singleMeter ⟨0, 2⟩).calculateBatches "azure"
      "eastus" batches).2.flatten = [2 * 0.01, 99 * 0.045, 0.087, 0] := by
  intro batches
  have hflows : ∀ x ∈ batches.flatten,
      x.1.month = (⟨0, 2⟩ : Time).month ∧ x.2.txBytes.toNat + x.2.rxBytes.toNat < 2 ^ 64 := by
    decide +kernel
  have h := costs_eq_oracle "azure" "eastus" .singleMeter ⟨0, 2⟩ hflows
  refine h.trans ?_
  decide +kernel

end Sim

/-- **Tiered cost is an integral.**  The cost of adjacent intervals adds up, it
is the sum over the tiers of the rate times the length of the overlap with the
tier, with rates that are not negative it is not negative and grows with the
interval, and it is what the oracle's tier walk finds on the same tiers. -/
theorem tieredCost_integral {tiers : List ExactTier} (hwf : Bands.WellFormed Tier.upToGB tiers)
    {a b c : ℚ} (ha : 0 ≤ a) (hab : a ≤ b) (hbc : b ≤ c) :
    tieredCost tiers a c = tieredCost tiers a b + tieredCost tiers b c ∧
      tieredCost tiers a c = ∑ i : Fin tiers.length,
        tiers[i].perGB
          * Bands.overlap (Bands.lower Tier.upToGB 0 tiers i) tiers[i].upToGB a c ∧
      ((∀ t ∈ tiers, 0 ≤ t.perGB) →
        0 ≤ tieredCost tiers a c ∧ tieredCost tiers a b ≤ tieredCost tiers a c) ∧
      ∀ sheet : List Sim.OracleTier, sheet.map Sim.OracleTier.toTier = tiers →
        Sim.tieredCost sheet a c = tieredCost tiers a c := by
  have hb : 0 ≤ b := ha.trans hab
  rw [tieredCost_eq_charge hwf ha c, tieredCost_eq_charge hwf ha b, tieredCost_eq_charge hwf hb c]
  refine ⟨(Bands.charge_add Tier.upToGB Tier.perGB hab hbc 0 tiers).symm, ?_, ?_, ?_⟩
  · rw [Bands.charge_eq_sum]
    refine Finset.sum_congr rfl ?_
    intro i _
    exact mul_comm _ _
  · intro hrate
    exact ⟨Bands.charge_nonneg Tier.upToGB Tier.perGB hrate 0 a c,
      Bands.charge_mono Tier.upToGB Tier.perGB hrate hab hbc 0⟩
  · intro sheet hsheet
    rw [Sim.tieredCost_eq_charge, ← hsheet, Bands.charge_map]
    rfl

theorem tieredCost_integral_aws :
    let tiers : List ExactTier := [⟨(100 : ℚ), 0⟩, ⟨(10 * 1024 : ℚ), 0.09⟩, ⟨⊤, 0.05⟩]
    tieredCost tiers 50 20000 = tieredCost tiers 50 10240 + tieredCost tiers 10240 20000 :=
  (tieredCost_integral ⟨by decide +kernel, by decide +kernel⟩ (by norm_num) (by norm_num)
    (by norm_num)).1
