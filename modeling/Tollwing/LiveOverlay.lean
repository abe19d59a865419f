/-
The live overlay against what a rate card should be.

A card overlaid with live prices should have the ladder of internet egress tiers
of one product, well formed, and should not depend on the order in which the
items and their maps are met.

* `PricingResponse.Unambiguous` — the answers for which it does;
* `overlay_sound_iff` — exactly these;
* `overlay_merges_ladders` — an answer with a second ladder and a second NAT
  price.
-/
import Tollwing.PriceList

/-! ### Orders of an answer -/

/-- The same term, its dimensions iterated in another order. -/
def PriceTerm.Reordered (term term' : PriceTerm) : Prop :=
  term.priceDimensions.Perm term'.priceDimensions

/-- The same item, its maps iterated in another order. -/
def PriceListItem.Reordered (it it' : PriceListItem) : Prop :=
  it.attributes = it'.attributes ∧
    Reorder.Reordered PriceTerm.Reordered it.onDemand it'.onDemand

/-- The same answer to a query, or the same failure, in another order. -/
inductive ItemsReordered : Option (List PriceListItem) → Option (List PriceListItem) → Prop
  | failed : ItemsReordered none none
  | items {items items' : List PriceListItem}
      (h : Reorder.Reordered PriceListItem.Reordered items items') :
      ItemsReordered (some items) (some items')

structure PricingResponse.Reordered (answer answer' : PricingResponse) : Prop where
  dataTransfer : ItemsReordered answer.dataTransfer answer'.dataTransfer
  natGateway : ItemsReordered answer.natGateway answer'.natGateway

theorem PriceListItem.Reordered.dimensions {it it' : PriceListItem} (h : it.Reordered it') :
    it.dimensions.Perm it'.dimensions :=
  h.2.flatMap fun _ _ hterm => hterm

/-- Reordering changes the order of the dimensions of a kind only. -/
theorem PriceListItem.Reordered.transferDimensions {it it' : PriceListItem} (h : it.Reordered it')
    (kind : TransferKind) :
    (it.transferDimensions kind).Perm (it'.transferDimensions kind) := by
  have hattr : it.attr = it'.attr := by
    funext name
    rw [PriceListItem.attr, h.1, PriceListItem.attr]
  have hkind : it.transferKind = it'.transferKind := by
    rw [PriceListItem.transferKind, hattr, PriceListItem.transferKind]
  rw [PriceListItem.transferDimensions, PriceListItem.transferDimensions, hkind]
  split_ifs
  · exact h.dimensions.filter _
  · exact List.Perm.refl _

/-- Two prices beat a best one together in either order. -/
theorem better_comm (p q b : Float64) : better p (better q b) = better q (better p b) := by
  by_cases hp : 0 < p ∧ p < b
  · by_cases hq : 0 < q ∧ q < b
    · -- of two that beat it the lower one stays
      rw [better, better, better, better, if_pos hq, if_pos hp]
      by_cases hlt : p < q
      · rw [if_pos ⟨hp.1, hlt⟩, if_neg fun h => Float64.lt_asymm hlt h.2]
      · rw [if_neg fun h => hlt h.2]
        split_ifs with hlt'
        · rfl
        · have hrank := Float64.lt_iff_rank.mp hp.2
          have hrank' := Float64.lt_iff_rank.mp hq.2
          refine (Float64.eq_of_rank_eq hp.1 hq.1 (le_antisymm ?_ ?_)).symm
          · exact not_lt.mp fun h => hlt' ⟨hq.1, Float64.lt_iff_rank.mpr ⟨hrank'.1, h⟩⟩
          · exact not_lt.mp fun h => hlt (Float64.lt_iff_rank.mpr ⟨hrank.1, h⟩)
    · have hqp : ¬(0 < q ∧ q < p) := fun h => hq ⟨h.1, IsTrans.trans _ _ _ h.2 hp.2⟩
      rw [better, better, better, better, if_neg hq, if_pos hp, if_neg hqp]
  · by_cases hq : 0 < q ∧ q < b
    · have hpq : ¬(0 < p ∧ p < q) := fun h => hp ⟨h.1, IsTrans.trans _ _ _ h.2 hq.2⟩
      rw [better, better, better, better, if_neg hp, if_pos hq, if_neg hpq]
    · rw [better, better, better, better, if_neg hp, if_neg hq, if_neg hp]

theorem bestPrice_perm {dims dims' : List PriceDimension} (h : dims.Perm dims')
    (best : Float64) : bestPrice best dims = bestPrice best dims' :=
  h.foldl_eq' (fun _ _ _ _ _ => better_comm _ _ _) best

/-! ### Unambiguous answers -/

namespace PricingResponse

/-- The items with internet egress prices. -/
def egressItems (items : List PriceListItem) : List PriceListItem :=
  items.filter fun it => !(it.transferDimensions .internetOut).isEmpty

/-- The bounds of all egress tiers. -/
def egressBounds (items : List PriceListItem) : List Float64 :=
  (transferDimensions .internetOut items).map fun d => d.tier.upToGB

/-- The dimensions that set a price of one unit agree on it. -/
def Agree (setting : PriceDimension → Option Float64) (dims : List PriceDimension) : Prop :=
  ∀ d ∈ dims, ∀ d' ∈ dims, ∀ p ∈ setting d, ∀ p' ∈ setting d', p = p'

/-- At most one item has egress prices, its tiers have bounds that are numbers and distinct,
and one of them is unbounded, and the NAT prices of a unit are all the same. -/
structure Unambiguous (answer : PricingResponse) : Prop where
  oneItem : ∀ items ∈ answer.dataTransfer, (egressItems items).length ≤ 1
  distinct : ∀ items ∈ answer.dataTransfer, DistinctBounds (egressBounds items)
  unbounded : ∀ items ∈ answer.dataTransfer, egressItems items ≠ [] → ⊤ ∈ egressBounds items
  hourly : ∀ items ∈ answer.natGateway,
    Agree PriceDimension.hourly (items.flatMap PriceListItem.dimensions)
  perGB : ∀ items ∈ answer.natGateway,
    Agree PriceDimension.perGB (items.flatMap PriceListItem.dimensions)

end PricingResponse

/-! ### The card of an answer -/

variable {region : String} {today : Date} {answer : PricingResponse} {card : FloatCard}

/-- The egress tiers of the card: the sorted tiers of all egress dimensions, or
those of the default card when there are none. -/
theorem rates_applyAWSDataTransferPrices (card : FloatCard) (items : List PriceListItem) :
    (applyAWSDataTransferPrices card items).rates .internetEgress =
      if transferDimensions .internetOut items = [] then card.rates .internetEgress
      else some ⟨sortTiersAsc ((transferDimensions .internetOut items).map
        PriceDimension.tier)⟩ := by
  have hbest : ∀ (card : FloatCard) (tt : TrafficType) (best : Float64), tt ≠ .internetEgress →
      (card.setBest tt best).rates .internetEgress = card.rates .internetEgress := by
    intro card tt best htt
    rw [RateCard.setBest]
    split_ifs
    · rfl
    · exact Function.update_of_ne htt.symm _ _
  rw [applyAWSDataTransferPrices, hbest _ .vpcPeering _ nofun, hbest _ .crossAZ _ nofun,
    hbest _ .crossRegion _ nofun, collectPrices_eq]
  show (card.setEgress ((transferDimensions .internetOut items).map _)).rates .internetEgress = _
  rw [RateCard.setEgress, List.length_map]
  by_cases hnil : transferDimensions .internetOut items = []
  · rw [if_neg (by simp [hnil]), if_pos hnil]
  · rw [if_pos (List.length_pos_iff.mpr hnil), if_neg hnil]
    exact Function.update_self .internetEgress _ card.rates

/-- What a successful fetch returns. -/
theorem fetchRateCard_eq_some (h : fetchRateCard region today answer = some card) :
    ∃ items, answer.dataTransfer = some items ∧
      card.rates .internetEgress = if transferDimensions .internetOut items = [] then
        (defaultAWSRateCard region).rates .internetEgress
      else some ⟨sortTiersAsc ((transferDimensions .internetOut items).map
        PriceDimension.tier)⟩ := by
  rw [fetchRateCard] at h
  split at h
  · rename_i items _ hitems
    refine ⟨items, hitems, ?_⟩
    rw [← rates_applyAWSDataTransferPrices, ← Option.some.inj h]
    dsimp only
    split
    · rw [applyAWSNATGatewayPrices_eq]
    · rfl
  · cases h

theorem natGateway_applyAWSDataTransferPrices (card : FloatCard) (items : List PriceListItem) :
    (applyAWSDataTransferPrices card items).natGateway = card.natGateway := by
  have hbest : ∀ (card : FloatCard) (tt : TrafficType) (best : Float64),
      (card.setBest tt best).natGateway = card.natGateway := by
    intro card tt best
    rw [RateCard.setBest]
    split_ifs <;> rfl
  rw [applyAWSDataTransferPrices, hbest, hbest, hbest, RateCard.setEgress]
  split_ifs <;> rfl

/-- The NAT prices of the card are the last ones of the answer. -/
theorem natGateway_of_fetch (h : fetchRateCard region today answer = some card)
    {items : List PriceListItem} (hitems : answer.natGateway = some items) :
    card.natGateway.perHourUSD = History.lastValue PriceDimension.hourly
        (defaultAWSRateCard region : FloatCard).natGateway.perHourUSD
        (items.flatMap PriceListItem.dimensions) ∧
      card.natGateway.perGBUSD = History.lastValue PriceDimension.perGB
        (defaultAWSRateCard region : FloatCard).natGateway.perGBUSD
        (items.flatMap PriceListItem.dimensions) := by
  rw [fetchRateCard] at h
  split at h
  · rw [hitems] at h
    rw [← Option.some.inj h]
    dsimp only
    rw [applyAWSNATGatewayPrices_eq, natGateway_applyAWSDataTransferPrices]
    exact ⟨rfl, rfl⟩
  · cases h

/-- The data transfer prices do not depend on the order if the egress bounds are
distinct. -/
theorem applyAWSDataTransferPrices_reordered (card : FloatCard) {items items' : List PriceListItem}
    (h : Reorder.Reordered PriceListItem.Reordered items items')
    (hdistinct : DistinctBounds (PricingResponse.egressBounds items)) :
    applyAWSDataTransferPrices card items' = applyAWSDataTransferPrices card items := by
  have hperm : ∀ kind, (transferDimensions kind items).Perm (transferDimensions kind items') :=
    fun kind => h.flatMap fun _ _ hit => hit.transferDimensions kind
  have htiers := (hperm .internetOut).map PriceDimension.tier
  have hegress : card.setEgress ((transferDimensions .internetOut items').map PriceDimension.tier)
      = card.setEgress ((transferDimensions .internetOut items).map PriceDimension.tier) := by
    rw [RateCard.setEgress, RateCard.setEgress, htiers.length_eq,
      sortTiersAsc_perm htiers (by rwa [List.map_map])]
  rw [applyAWSDataTransferPrices, applyAWSDataTransferPrices, collectPrices_eq, collectPrices_eq]
  simp only [LivePrices.extend, List.nil_append]
  rw [hegress, bestPrice_perm (hperm .interRegion), bestPrice_perm (hperm .intraRegion),
    bestPrice_perm (hperm .vpcPeering)]

/-- The NAT prices do not depend on the order if they agree. -/
theorem applyAWSNATGatewayPrices_reordered (card : FloatCard) {items items' : List PriceListItem}
    (h : Reorder.Reordered PriceListItem.Reordered items items')
    (hhourly : PricingResponse.Agree PriceDimension.hourly
      (items.flatMap PriceListItem.dimensions))
    (hperGB : PricingResponse.Agree PriceDimension.perGB
      (items.flatMap PriceListItem.dimensions)) :
    applyAWSNATGatewayPrices card items' = applyAWSNATGatewayPrices card items := by
  have hperm : (items.flatMap PriceListItem.dimensions).Perm
      (items'.flatMap PriceListItem.dimensions) := h.flatMap fun _ _ hit => hit.dimensions
  rw [applyAWSNATGatewayPrices_eq, applyAWSNATGatewayPrices_eq,
    Reorder.lastValue_perm hperm hhourly, Reorder.lastValue_perm hperm hperGB]

/-! ### When it is sound -/

/-- The egress tiers are well formed, those of one product if the list prices
egress at all, and the card is the same in every order of the answer. -/
structure OverlaySound (region : String) (today : Date) (answer : PricingResponse)
    (card : FloatCard) : Prop where
  wellFormed : ∀ rate ∈ card.rates .internetEgress, Bands.WellFormed Tier.upToGB rate.tiers
  oneProduct : ∀ items ∈ answer.dataTransfer, transferDimensions .internetOut items ≠ [] →
    ∃ it ∈ items, card.rates .internetEgress
      = some ⟨sortTiersAsc ((it.transferDimensions .internetOut).map PriceDimension.tier)⟩
  orderFree : ∀ answer', answer.Reordered answer' →
    fetchRateCard region today answer' = some card

theorem egressItems_eq_nil_iff {items : List PriceListItem} :
    PricingResponse.egressItems items = [] ↔ transferDimensions .internetOut items = [] := by
  rw [PricingResponse.egressItems, List.filter_eq_nil_iff, transferDimensions,
    List.flatMap_eq_nil_iff]
  simp

/-- Items without egress prices have no part in the tiers. -/
theorem transferDimensions_egressItems (items : List PriceListItem) :
    transferDimensions .internetOut (PricingResponse.egressItems items)
      = transferDimensions .internetOut items := by
  induction items with
  | nil => rfl
  | cons it items ih =>
    rw [transferDimensions, transferDimensions] at ih
    rw [PricingResponse.egressItems, transferDimensions, transferDimensions, List.flatMap_cons]
    by_cases hit : it.transferDimensions .internetOut = []
    · rw [List.filter_cons_of_neg (by simp [hit]), hit, List.nil_append]
      exact ih
    · rw [List.filter_cons_of_pos (by simpa using hit), List.flatMap_cons]
      exact congrArg _ ih

/-- If one item has all the egress dimensions, no other has any. -/
theorem egressItems_length_le {items : List PriceListItem} {it : PriceListItem} (hit : it ∈ items)
    (hlen : (transferDimensions .internetOut items).length
      = (it.transferDimensions .internetOut).length) :
    (PricingResponse.egressItems items).length ≤ 1 := by
  obtain ⟨before, after, rfl⟩ := List.append_of_mem hit
  rw [transferDimensions, List.flatMap_append, List.flatMap_cons, List.length_append,
    List.length_append] at hlen
  have hbefore : PricingResponse.egressItems before = [] :=
    egressItems_eq_nil_iff.mpr (List.eq_nil_of_length_eq_zero (by
      rw [transferDimensions]
      omega))
  have hafter : PricingResponse.egressItems after = [] :=
    egressItems_eq_nil_iff.mpr (List.eq_nil_of_length_eq_zero (by
      rw [transferDimensions]
      omega))
  have hsplit : PricingResponse.egressItems (before ++ it :: after)
      = PricingResponse.egressItems before ++ (PricingResponse.egressItems [it]
        ++ PricingResponse.egressItems after) := by
    simp only [PricingResponse.egressItems]
    rw [← List.filter_append, ← List.filter_append, List.singleton_append]
  rw [hsplit, hbefore, hafter, List.nil_append, List.append_nil]
  exact (List.length_filter_le _ _).trans le_rfl

theorem PriceTerm.Reordered.refl (term : PriceTerm) : term.Reordered term := List.Perm.refl _

theorem PriceListItem.Reordered.refl (it : PriceListItem) : it.Reordered it :=
  ⟨rfl, Reorder.Reordered.of_perm PriceTerm.Reordered.refl (List.Perm.refl _)⟩

theorem ItemsReordered.refl : ∀ items, ItemsReordered items items
  | none => .failed
  | some _ => .items (Reorder.Reordered.of_perm PriceListItem.Reordered.refl (List.Perm.refl _))

/-- Every dimension is visited last in some order. -/
theorem exists_visited_last {items : List PriceListItem} {d : PriceDimension}
    (hd : d ∈ items.flatMap PriceListItem.dimensions) :
    ∃ items', Reorder.Reordered PriceListItem.Reordered items items' ∧
      ∃ before, items'.flatMap PriceListItem.dimensions = before ++ [d] := by
  obtain ⟨it, hit, hd⟩ := List.mem_flatMap.mp hd
  obtain ⟨term, hterm, hd⟩ := List.mem_flatMap.mp hd
  obtain ⟨dims, hdims⟩ := Reorder.exists_last hd
  obtain ⟨terms, hterms⟩ := Reorder.exists_last hterm
  obtain ⟨others, hothers⟩ := Reorder.exists_last hit
  have hterms' : Reorder.Reordered PriceTerm.Reordered it.onDemand
      (terms ++ [⟨dims ++ [d]⟩]) := by
    refine ⟨_, hterms, List.rel_append (List.forall₂_same.mpr fun t _ => .refl t) ?_⟩
    exact List.Forall₂.cons hdims .nil
  refine ⟨others ++ [{ it with onDemand := terms ++ [⟨dims ++ [d]⟩] }], ⟨_, hothers, ?_⟩, ?_⟩
  · refine List.rel_append (List.forall₂_same.mpr fun it _ => PriceListItem.Reordered.refl it) ?_
    exact List.Forall₂.cons ⟨rfl, hterms'⟩ .nil
  · refine ⟨others.flatMap PriceListItem.dimensions
      ++ (terms.flatMap PriceTerm.priceDimensions ++ dims), ?_⟩
    simp [PriceListItem.dimensions]

/-- In a sound card the dimensions that set a NAT price agree, since each of them
comes last in some order. -/
theorem OverlaySound.agree (hsound : OverlaySound region today answer card)
    {items : List PriceListItem} (hitems : answer.natGateway = some items)
    {setting : PriceDimension → Option Float64} {price : Float64}
    (hprice : ∀ answer' items', fetchRateCard region today answer' = some card →
      answer'.natGateway = some items' → ∃ d,
        price = History.lastValue setting d (items'.flatMap PriceListItem.dimensions)) :
    PricingResponse.Agree setting (items.flatMap PriceListItem.dimensions) := by
  have hlast : ∀ d ∈ items.flatMap PriceListItem.dimensions, ∀ p ∈ setting d, price = p := by
    intro d hd p hp
    obtain ⟨items', hreordered, before, hbefore⟩ := exists_visited_last hd
    have hfetch := hsound.orderFree { answer with natGateway := some items' }
      ⟨.refl _, by rw [hitems]; exact .items hreordered⟩
    obtain ⟨d₀, hd₀⟩ := hprice _ items' hfetch rfl
    rw [hd₀, hbefore, Reorder.lastValue_last hp]
  intro d hd d' hd' p hp p' hp'
  rw [← hlast d hd p hp, hlast d' hd' p' hp']

/-- A sound card was overlaid from an unambiguous answer. -/
theorem OverlaySound.unambiguous (hfetch : fetchRateCard region today answer = some card)
    (hsound : OverlaySound region today answer card) : answer.Unambiguous := by
  obtain ⟨items, hitems, hrates⟩ := fetchRateCard_eq_some hfetch
  have hone : ∀ items' ∈ answer.dataTransfer, items' = items := fun items' hitems' =>
    Option.some.inj (hitems'.symm.trans hitems)
  have hladder : transferDimensions .internetOut items ≠ [] →
      DistinctBounds (PricingResponse.egressBounds items) ∧ ⊤ ∈ PricingResponse.egressBounds items := by
    intro hne
    rw [if_neg hne] at hrates
    have hwf := wellFormed_sortTiersAsc_iff.mp (hsound.wellFormed _ hrates)
    rwa [List.map_map] at hwf
  refine ⟨?_, ?_, ?_, ?_, ?_⟩
  · intro items' hitems'
    rw [hone items' hitems']
    by_cases hnil : transferDimensions .internetOut items = []
    · rw [egressItems_eq_nil_iff.mpr hnil]
      exact Nat.zero_le 1
    · -- the ladder of one product is as long as all the ladders together
      obtain ⟨it, hit, hrate⟩ := hsound.oneProduct items hitems hnil
      rw [hrates, if_neg hnil] at hrate
      have hlen := congrArg (fun rate => (rate.map fun r => r.tiers.length).getD 0) hrate
      dsimp only [Option.map_some, Option.getD_some] at hlen
      rw [(sortTiersAsc_perm_self _).length_eq, (sortTiersAsc_perm_self _).length_eq,
        List.length_map, List.length_map] at hlen
      exact egressItems_length_le hit hlen
  · intro items' hitems'
    rw [hone items' hitems']
    by_cases hnil : transferDimensions .internetOut items = []
    · rw [PricingResponse.egressBounds, hnil]
      exact List.Pairwise.nil
    · exact (hladder hnil).1
  · intro items' hitems' hne
    rw [hone items' hitems'] at hne ⊢
    exact (hladder fun hnil => hne (egressItems_eq_nil_iff.mpr hnil)).2
  · exact fun natItems hnat => hsound.agree hnat fun answer' items' hfetch' hitems' =>
      ⟨_, (natGateway_of_fetch hfetch' hitems').1⟩
  · exact fun natItems hnat => hsound.agree hnat fun answer' items' hfetch' hitems' =>
      ⟨_, (natGateway_of_fetch hfetch' hitems').2⟩

/-- With at most one item that prices egress, its ladder is the only one. -/
theorem exists_egressItem {items : List PriceListItem}
    (hone : (PricingResponse.egressItems items).length ≤ 1)
    (hne : transferDimensions .internetOut items ≠ []) :
    ∃ it ∈ items, transferDimensions .internetOut items = it.transferDimensions .internetOut := by
  have hsub : ∀ it ∈ PricingResponse.egressItems items, it ∈ items := fun it hit =>
    (List.mem_filter.mp hit).1
  rw [← transferDimensions_egressItems] at hne ⊢
  generalize PricingResponse.egressItems items = egress at hone hne hsub ⊢
  match egress, hone with
  | [], _ => exact absurd rfl hne
  | [it], _ =>
    refine ⟨it, hsub it (List.mem_singleton_self it), ?_⟩
    rw [transferDimensions, List.flatMap_singleton]

/-- An unambiguous answer makes the same card in every order. -/
theorem PricingResponse.Unambiguous.orderFree (h : answer.Unambiguous)
    {answer' : PricingResponse} (hreordered : answer.Reordered answer') :
    fetchRateCard region today answer' = fetchRateCard region today answer := by
  obtain ⟨dt, nat⟩ := answer
  obtain ⟨dt', nat'⟩ := answer'
  obtain ⟨hdt, hnat⟩ := hreordered
  rw [fetchRateCard, fetchRateCard]
  dsimp only at hdt hnat ⊢
  cases hloc : regionToLocation region with
  | none => rfl
  | some location =>
    cases hdt with
    | failed => rfl
    | items hdt =>
      dsimp only
      rw [applyAWSDataTransferPrices_reordered _ hdt (h.distinct _ rfl)]
      cases hnat with
      | failed => rfl
      | items hnat =>
        dsimp only
        rw [applyAWSNATGatewayPrices_reordered _ hnat (h.hourly _ rfl) (h.perGB _ rfl)]

/-- **The overlaid card is sound exactly for the unambiguous answers.** -/
theorem overlay_sound_iff (hfetch : fetchRateCard region today answer = some card) :
    OverlaySound region today answer card ↔ answer.Unambiguous := by
  obtain ⟨items, hitems, hrates⟩ := fetchRateCard_eq_some hfetch
  refine ⟨OverlaySound.unambiguous hfetch, fun h => ⟨?_, ?_, ?_⟩⟩
  · intro rate hrate
    rw [hrates] at hrate
    split_ifs at hrate with hnil
    · -- the ladder of the default card
      obtain rfl := Option.some.inj hrate
      exact ⟨by decide +kernel, by decide +kernel⟩
    · obtain rfl := Option.some.inj hrate
      refine wellFormed_sortTiersAsc_iff.mpr ?_
      rw [List.map_map]
      exact ⟨h.distinct items hitems, h.unbounded items hitems fun hnone =>
        hnil (egressItems_eq_nil_iff.mp hnone)⟩
  · intro items' hitems' hne
    obtain rfl := Option.some.inj (hitems.symm.trans hitems')
    obtain ⟨it, hit, hdims⟩ := exists_egressItem (h.oneItem items hitems) hne
    exact ⟨it, hit, by rw [hrates, if_neg hne, hdims]⟩
  · exact fun answer' hreordered => (h.orderFree hreordered).trans hfetch

/-- A dimension of one unit and one end of its range. -/
def dimension (unit endRange price : String) : PriceDimension :=
  { unit := unit
    beginRange := "0"
    endRange := endRange
    pricePerUnit := .ofList [("USD", price)] }

/-- An item with one term. -/
def item (attributes : List (String × String)) (dims : List PriceDimension) : PriceListItem :=
  { attributes := .ofList attributes
    onDemand := [⟨dims⟩] }

def internetLadder : PriceListItem :=
  item [("transferType", "InternetOutbound"), ("toLocation", "External")]
    [dimension "GB" "Inf" "0.085", dimension "GB" "10240" "0.09"]

/-- Prices towards the content delivery edge, a ladder of its own. -/
def edgeLadder : PriceListItem :=
  item [("toLocationType", "AWS Edge Location")]
    [dimension "GB" "10240" "0.02", dimension "GB" "Inf" "0.015"]

def natItem (price : String) : PriceListItem :=
  item [("productFamily", "NAT Gateway")]
    [dimension "Hrs" "Inf" "0.045", dimension "GB" "Inf" price]

def oneLadder : PricingResponse := ⟨some [internetLadder], some [natItem "0.045"]⟩

theorem overlay_sound_oneLadder :
    ∃ card, fetchRateCard "us-east-1" ⟨2026, 7, 2⟩ oneLadder = some card ∧
      OverlaySound "us-east-1" ⟨2026, 7, 2⟩ oneLadder card := by
  obtain ⟨card, hcard⟩ := Option.isSome_iff_exists.mp
    (by decide +kernel : (fetchRateCard "us-east-1" ⟨2026, 7, 2⟩ oneLadder).isSome = true)
  refine ⟨card, hcard, (overlay_sound_iff hcard).mpr ⟨?_, ?_, ?_, ?_, ?_⟩⟩
  · decide +kernel
  · decide +kernel
  · decide +kernel
  · unfold PricingResponse.Agree
    decide +kernel
  · unfold PricingResponse.Agree
    decide +kernel

def twoLadders : PricingResponse :=
  ⟨some [internetLadder, edgeLadder], some [natItem "0.045", natItem "0.05"]⟩

/-- The ladders of two items are merged into one with repeated bounds, and the
order of the NAT items decides the NAT price. -/
theorem overlay_merges_ladders :
    let swapped := { twoLadders with natGateway := twoLadders.natGateway.map List.reverse }
    ∃ card, fetchRateCard "us-east-1" ⟨2026, 7, 2⟩ twoLadders = some card ∧
      card.rates .internetEgress
        = some ⟨[⟨10240.0, 0.09⟩, ⟨10240.0, 0.02⟩, ⟨⊤, 0.085⟩, ⟨⊤, 0.015⟩]⟩ ∧
      card.natGateway.perGBUSD = 0.05 ∧ twoLadders.Reordered swapped ∧
      (fetchRateCard "us-east-1" ⟨2026, 7, 2⟩ swapped).map (fun card => card.natGateway.perGBUSD)
        = some 0.045 ∧
      ¬OverlaySound "us-east-1" ⟨2026, 7, 2⟩ twoLadders card := by
  have hvalues : (fetchRateCard "us-east-1" ⟨2026, 7, 2⟩ twoLadders).map
      (fun card => (card.rates .internetEgress, card.natGateway.perGBUSD))
        = some (some ⟨[⟨10240.0, 0.09⟩, ⟨10240.0, 0.02⟩, ⟨⊤, 0.085⟩, ⟨⊤, 0.015⟩]⟩,
            0.05) := by
    decide +kernel
  obtain ⟨card, hcard, hvalues⟩ := Option.map_eq_some_iff.mp hvalues
  obtain ⟨hrates, hnat⟩ := Prod.mk.inj hvalues
  refine ⟨card, hcard, hrates, hnat, ⟨.refl _, .items ?_⟩, by decide +kernel, fun hsound => ?_⟩
  · exact Reorder.Reordered.of_perm PriceListItem.Reordered.refl (List.reverse_perm _).symm
  · exact absurd (hsound.wellFormed _ hrates).ascending (by decide +kernel)
