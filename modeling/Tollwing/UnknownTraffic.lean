/-
Unknown traffic.

A flow gets a zone type only from the zone rule, and the zone rule answers
unknown unless both zones are known.  No rate card has a price for unknown
traffic, whatever live prices are laid over it, so it costs nothing.

* `Classifier.classify_or` — the types a flow can get outside the zone rule;
* `KnownCard.unknown` — the cards there are have no rate for unknown;
* `Classifier.unknown_not_guessed` — both together.
-/
import Tollwing.ClassifierSpec
import Tollwing.CostEngine
import Tollwing.LiveOverlay

/-! ### Where the zone types come from -/

/-- The types that no zone decides. -/
def unzonedTypes : List TrafficType :=
  [.serviceMeshInternal, .intraNode, .natGatewayEgress, .internetEgress, .vpcPeering,
    .transitGateway, .vpcEndpoint]

theorem topologyType_mem_unzonedTypes {peering tgw endpoint : List Prefix} {addr : Addr}
    {tt : TrafficType} (h : topologyType peering tgw endpoint addr = some tt) :
    tt ∈ unzonedTypes := by
  rw [topologyType] at h
  split_ifs at h <;> (obtain rfl := Option.some.inj h; decide)

namespace Classifier

/-- The flow reaches the zone rule: its destination is a cluster address, or a
private one that is neither a NAT gateway nor in the prefix table. -/
def ReachesZoneRule (c : Classifier) (host : ByteOrder) (flow : FlowInfo) : Prop :=
  let dstAddr := nboToAddr host flow.dstIP
  flow.isSidecar = false ∧ flow.intraNode = false ∧ dstAddr.isLoopback = false ∧
    (c.isClusterInternal dstAddr = true ∨
      isPrivate dstAddr = true ∧ dstAddr ∉ c.natGatewayIPs ∧ c.prefixTree.lookup dstAddr = none)

/-- Such a flow is classified by the zone rule. -/
theorem ReachesZoneRule.classify {c : Classifier} {host : ByteOrder} {flow : FlowInfo}
    (h : c.ReachesZoneRule host flow) :
    c.classify host flow = c.classifyInternal host flow (nboToAddr host flow.dstIP) := by
  obtain ⟨hside, hnode, hloop, hrest⟩ := h
  rw [Classifier.classify]
  rw [if_neg (by simp [hside]), if_neg (by simp [hnode, hloop])]
  by_cases hcluster : c.isClusterInternal (nboToAddr host flow.dstIP) = true
  · rw [if_pos hcluster]
  · obtain ⟨hpriv, hnat, hnone⟩ := hrest.resolve_left hcluster
    rw [if_neg hcluster, if_pos hpriv, classifyPrivate, if_neg hnat, hnone]

/-- Any other flow gets a type that no zone decides, if the table holds no
other. -/
theorem classify_or {c : Classifier} (htable : ∀ addr tt, c.prefixTree.lookup addr = some tt →
    tt ∈ unzonedTypes) (host : ByteOrder) (flow : FlowInfo) :
    c.ReachesZoneRule host flow ∨ (c.classify host flow).type ∈ unzonedTypes := by
  rw [Classifier.classify]
  by_cases hside : flow.isSidecar
  · rw [if_pos hside]
    exact Or.inr (by decide)
  rw [if_neg hside]
  by_cases hnode : flow.intraNode ∨ (nboToAddr host flow.dstIP).isLoopback
  · rw [if_pos hnode]
    exact Or.inr (by decide)
  rw [if_neg hnode]
  rw [not_or, Bool.not_eq_true, Bool.not_eq_true] at hnode
  have hreaches : (c.isClusterInternal (nboToAddr host flow.dstIP) = true ∨
      isPrivate (nboToAddr host flow.dstIP) = true ∧ nboToAddr host flow.dstIP ∉ c.natGatewayIPs ∧
        c.prefixTree.lookup (nboToAddr host flow.dstIP) = none) →
      c.ReachesZoneRule host flow := fun h =>
    ⟨by simpa using hside, hnode.1, hnode.2, h⟩
  by_cases hcluster : c.isClusterInternal (nboToAddr host flow.dstIP) = true
  · exact Or.inl (hreaches (Or.inl hcluster))
  rw [if_neg hcluster]
  cases hlookup : c.prefixTree.lookup (nboToAddr host flow.dstIP) with
  | some tt =>
    -- a NAT gateway or an entry of the table
    have htt := htable _ tt hlookup
    by_cases hpriv : isPrivate (nboToAddr host flow.dstIP) = true
    · rw [if_pos hpriv, classifyPrivate, hlookup]
      split_ifs
      · exact Or.inr (by decide)
      · exact Or.inr htt
    · rw [if_neg hpriv, classifyExternal, hlookup]
      exact Or.inr htt
  | none =>
    by_cases hpriv : isPrivate (nboToAddr host flow.dstIP) = true
    · by_cases hnat : nboToAddr host flow.dstIP ∈ c.natGatewayIPs
      · rw [if_pos hpriv, classifyPrivate, if_pos hnat]
        exact Or.inr (by decide)
      · exact Or.inl (hreaches (Or.inr ⟨hpriv, hnat, hlookup⟩))
    · rw [if_neg hpriv, classifyExternal, hlookup]
      dsimp only
      split_ifs <;> exact Or.inr (by decide)

/-- What the zone rule answers of two zones. -/
theorem classifyInternal_type (c : Classifier) (host : ByteOrder) (flow : FlowInfo)
    (dstAddr : Addr) :
    (c.classifyInternal host flow dstAddr).type
      = zoneType (c.resolver.resolve (nboToAddr host flow.srcIP))
          (c.resolver.resolve dstAddr) := by
  rw [classifyInternal, zoneType]
  split_ifs <;> rfl

end Classifier

/-! ### The cards -/

/-- The built-in cards of a region. -/
def builtinCards {κ β : Type*} [Zero κ] [OfScientific κ] [NatCast β] [Top β] (region : String) :
    List (RateCard κ β) :=
  [defaultAWSRateCard region, defaultGCPRateCard region, defaultAzureRateCard region]

/-- The cards of the agent: a built-in one, with any live prices laid over it, dated and
labelled in any way. -/
inductive LiveCard : FloatCard → Prop
  | builtin {region : String} {card : FloatCard} (h : card ∈ builtinCards region) : LiveCard card
  | dataTransfer {card : FloatCard} (h : LiveCard card) (items : List PriceListItem) :
      LiveCard (applyAWSDataTransferPrices card items)
  | natGateway {card : FloatCard} (h : LiveCard card) (items : List PriceListItem) :
      LiveCard (applyAWSNATGatewayPrices card items)
  | relabel {card : FloatCard} (h : LiveCard card) (lastUpdated : Date) (source : String)
      (fallback : Bool) :
      LiveCard { card with lastUpdated := lastUpdated, source := source, fallback := fallback }

/-- The exact cards that can be priced by: a built-in one, or one of the agent's with its
prices and bounds read as exact numbers in any way. -/
inductive KnownCard : ExactCard → Prop
  | builtin {region : String} {card : ExactCard} (h : card ∈ builtinCards region) : KnownCard card
  | live {card : FloatCard} (h : LiveCard card) (price : Float64 → ℚ)
      (bound : Float64 → WithTop ℚ) : KnownCard (card.map price bound)

/-- Every fetched card is one of the agent's. -/
theorem LiveCard.of_fetch {region : String} {today : Date} {answer : PricingResponse}
    {card : FloatCard} (h : fetchRateCard region today answer = some card) : LiveCard card := by
  have hdefault : LiveCard (defaultAWSRateCard region) :=
    @LiveCard.builtin region _ (List.mem_cons_self ..)
  rw [fetchRateCard] at h
  split at h
  · rename_i items _ _
    rw [← Option.some.inj h]
    refine .relabel ?_ _ _ _
    split
    · exact (hdefault.dataTransfer items).natGateway _
    · exact hdefault.dataTransfer items
  · cases h

/-- Live prices change the rates of four types only. -/
theorem rates_applyAWSDataTransferPrices_of_ne (card : FloatCard) (items : List PriceListItem)
    {tt : TrafficType} (h : tt ∉ [.internetEgress, .crossRegion, .crossAZ, .vpcPeering]) :
    (applyAWSDataTransferPrices card items).rates tt = card.rates tt := by
  simp only [List.mem_cons, List.not_mem_nil, or_false, not_or] at h
  have hrate : ∀ (card : FloatCard) (tt' : TrafficType) (rate : TieredRate Float64 Float64),
      tt ≠ tt' → (card.setRate tt' rate).rates tt = card.rates tt := fun card tt' rate hne =>
    Function.update_of_ne hne _ _
  have hbest : ∀ (card : FloatCard) (tt' : TrafficType) (best : Float64), tt ≠ tt' →
      (card.setBest tt' best).rates tt = card.rates tt := by
    intro card tt' best hne
    rw [RateCard.setBest]
    split_ifs
    · rfl
    · exact hrate card tt' (flatRate best) hne
  rw [applyAWSDataTransferPrices, hbest _ _ _ h.2.2.2, hbest _ _ _ h.2.2.1, hbest _ _ _ h.2.1,
    RateCard.setEgress]
  split_ifs
  · exact hrate card _ _ h.1
  · rfl

theorem rates_unknown_of_builtin {κ β : Type*} [Zero κ] [OfScientific κ] [NatCast β] [Top β]
    {region : String} {card : RateCard κ β} (h : card ∈ builtinCards region) :
    card.rates .unknown = none := by
  simp only [builtinCards, List.mem_cons, List.not_mem_nil, or_false] at h
  rcases h with rfl | rfl | rfl <;> rfl

/-- No card of the agent has a price for unknown traffic. -/
theorem LiveCard.unknown {card : FloatCard} (h : LiveCard card) : card.rates .unknown = none := by
  induction h with
  | builtin h => exact rates_unknown_of_builtin h
  | dataTransfer _ items ih =>
    rw [rates_applyAWSDataTransferPrices_of_ne _ _ (by decide), ih]
  | natGateway _ items ih => rw [applyAWSNATGatewayPrices_eq, ih]
  | relabel _ _ _ _ ih => exact ih

theorem KnownCard.unknown {card : ExactCard} (h : KnownCard card) : card.rates .unknown = none := by
  cases h with
  | builtin h => exact rates_unknown_of_builtin h
  | live h price bound =>
    show Option.map _ _ = none
    rw [h.unknown, Option.map_none]

/-- **Unknown traffic is free** under every card that can be priced by. -/
theorem KnownCard.calculateFlow_unknown {card : ExactCard} (h : KnownCard card) (e : Engine)
    (now : Time) {record : FlowRecord} (htype : record.trafficType = .unknown) :
    e.calculateFlow now card record = (e, 0) := by
  rw [Engine.calculateFlow, htype]
  dsimp only
  rw [h.unknown]

/-! ### Never guessed, never charged -/

namespace Classifier

/-- **The classifier never guesses a zone, and unknown traffic is free.**  For
every configured classifier with any zone resolver: a zone type comes from two
known zones that stand in the relation it names; a flow that reaches the zone
rule with an unknown zone is unknown; the pre-DNAT destination and the ports
change nothing; and the engine prices unknown traffic at zero, by the built-in cards and by
whatever the provider fetches. -/
theorem unknown_not_guessed (resolver : ZoneResolver) (calls : List ConfigCall)
    (host : ByteOrder) (flow : FlowInfo) :
    let c : Classifier := { configure calls with resolver := resolver }
    let srcZone := resolver.resolve (nboToAddr host flow.srcIP)
    let dstZone := resolver.resolve (nboToAddr host flow.dstIP)
    let tt := (c.classify host flow).type
    (tt = .sameZone → srcZone ≠ "" ∧ dstZone ≠ "" ∧ srcZone = dstZone) ∧
      (tt = .crossAZ → srcZone ≠ "" ∧ dstZone ≠ "" ∧ srcZone ≠ dstZone ∧
        regionFromZone srcZone = regionFromZone dstZone) ∧
      (tt = .crossRegion → srcZone ≠ "" ∧ dstZone ≠ "" ∧
        regionFromZone srcZone ≠ regionFromZone dstZone) ∧
      (c.ReachesZoneRule host flow → srcZone = "" ∨ dstZone = "" → tt = .unknown) ∧
      (∀ flow' : FlowInfo, flow'.srcIP = flow.srcIP → flow'.dstIP = flow.dstIP →
        flow'.intraNode = flow.intraNode → flow'.isSidecar = flow.isSidecar →
        (c.classify host flow').type = tt) ∧
      (∀ (e : Engine) (now : Time) (card : ExactCard) (record : FlowRecord), KnownCard card →
        record.trafficType = .unknown → e.calculateFlow now card record = (e, 0)) ∧
      ∀ region today answer card, fetchRateCard region today answer = some card →
        ∀ price bound, KnownCard (card.map price bound) := by
  intro c srcZone dstZone tt
  have htable : ∀ addr tt, c.prefixTree.lookup addr = some tt → tt ∈ unzonedTypes := by
    intro addr tt h
    rw [show c.prefixTree = (configure calls).prefixTree from rfl, lookup_configure] at h
    exact topologyType_mem_unzonedTypes h
  have hrule : tt = zoneType srcZone dstZone ∨ tt ∈ unzonedTypes := by
    refine (classify_or htable host flow).imp_left fun h => ?_
    show (c.classify host flow).type = _
    rw [h.classify, classifyInternal_type]
  -- a zone type is the answer of the zone rule
  have hzone : tt ∉ unzonedTypes → zoneType srcZone dstZone = tt := fun h =>
    (hrule.resolve_right h).symm
  refine ⟨fun h => ?_, fun h => ?_, fun h => ?_, fun hreach hempty => ?_, ?_, ?_, ?_⟩
  · have hz := hzone (by rw [h]; decide)
    rw [h, zoneType] at hz
    split_ifs at hz with hempty hsame
    exact ⟨fun h => hempty (Or.inl h), fun h => hempty (Or.inr h), hsame⟩
  · have hz := hzone (by rw [h]; decide)
    rw [h, zoneType] at hz
    split_ifs at hz with hempty hsame hregion
    exact ⟨fun h => hempty (Or.inl h), fun h => hempty (Or.inr h), hsame, hregion⟩
  · have hz := hzone (by rw [h]; decide)
    rw [h, zoneType] at hz
    split_ifs at hz with hempty hsame hregion
    exact ⟨fun h => hempty (Or.inl h), fun h => hempty (Or.inr h), hregion⟩
  · show (c.classify host flow).type = .unknown
    rw [hreach.classify, classifyInternal_type]
    exact if_pos hempty
  · intro flow' hsrc hdst hnode hside
    obtain ⟨srcIP, dstIP, originalDstIP, srcPort, dstPort, originalDstPort, intraNode, isSidecar⟩ :=
      flow
    dsimp only at hsrc hdst hnode hside
    subst hsrc hdst hnode hside
    rfl
  · exact fun e now card record hcard htype => hcard.calculateFlow_unknown e now htype
  · exact fun region today answer card hfetch price bound =>
      .live (LiveCard.of_fetch hfetch) price bound

end Classifier
