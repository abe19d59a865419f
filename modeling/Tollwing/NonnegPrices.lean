/-
Prices that are not negative (`pkg/cloud/aws/pricing.go`, `pkg/cost/refresher.go`).

Nothing checks the sign of an egress price, so a flow costs what its rates say.  The
default card has no negative price, and a live card has none that the price list has
not.

* `nonnegPrices_fetchRateCard` — the card of an answer without a negative price;
* `RateRefresh.nonnegPrices_refreshed` — the prices of the store after any refreshes.
-/
import Tollwing.PerfectBill
import Tollwing.RateRefresh

/-- No transfer price of the answer is negative. -/
def PricingResponse.NonnegPrices (answer : PricingResponse) : Prop :=
  ∀ items ∈ answer.dataTransfer, ∀ it ∈ items, ∀ dim ∈ it.dimensions, ¬dim.usdPrice < 0

/-- No card of the store has a negative price. -/
def RateCardStore.NonnegPrices {κ β : Type*} [Zero κ] [LT κ] (store : RateCardStore κ β) : Prop :=
  ∀ key card, store.cards.lookup key = some card → card.NonnegPrices

/-! ### Live cards -/

namespace RateCard

variable {card : FloatCard}

theorem NonnegPrices.setRate (h : card.NonnegPrices) (tt : TrafficType)
    {rate : TieredRate Float64 Float64} (hrate : ∀ tier ∈ rate.tiers, ¬tier.perGB < 0) :
    (card.setRate tt rate).NonnegPrices := by
  refine ⟨fun {tt' rate'} hrate' => ?_, h.natGateway, h.transitGW⟩
  change Function.update card.rates tt (some rate) tt' = some rate' at hrate'
  rw [Function.update_apply] at hrate'
  split_ifs at hrate' with heq
  · rw [← Option.some.inj hrate']
    exact hrate
  · exact h.rates hrate'

theorem NonnegPrices.setBest (h : card.NonnegPrices) (tt : TrafficType) {best : Float64}
    (hbest : ¬best < 0) : (card.setBest tt best).NonnegPrices := by
  rw [RateCard.setBest]
  split_ifs
  · exact h
  · refine h.setRate tt fun tier htier => ?_
    rw [List.mem_singleton.mp htier]
    exact hbest

/-- So the card has none with its prices read as numbers. -/
theorem NonnegPrices.exact (h : card.NonnegPrices) (bound : Float64 → WithTop ℚ) :
    (card.map Float64.toRat bound).NonnegPrices := by
  refine ⟨fun {tt rate} hrate tier htier => ?_,
    (Float64.toRat_nonneg_of_not_lt h.natGateway).not_gt,
    (Float64.toRat_nonneg_of_not_lt h.transitGW).not_gt⟩
  obtain ⟨rate', hrate', rfl⟩ := Option.map_eq_some_iff.mp hrate
  obtain ⟨tier', htier', rfl⟩ := List.mem_map.mp htier
  exact (Float64.toRat_nonneg_of_not_lt (h.rates hrate' tier' htier')).not_gt

end RateCard

/-- Only a positive price is a best one. -/
theorem bestPrice_nonneg {best : Float64} (hbest : ¬best < 0) (dims : List PriceDimension) :
    ¬bestPrice best dims < 0 := by
  induction dims generalizing best with
  | nil => exact hbest
  | cons dim dims ih =>
    have hbetter : ¬better dim.usdPrice best < 0 := by
      rw [better]
      split_ifs with hprice
      · exact Float64.lt_asymm hprice.1
      · exact hbest
    exact ih hbetter

theorem nonnegPrices_applyAWSDataTransferPrices {card : FloatCard} (h : card.NonnegPrices)
    {items : List PriceListItem}
    (hitems : ∀ it ∈ items, ∀ dim ∈ it.dimensions, ¬dim.usdPrice < 0) :
    (applyAWSDataTransferPrices card items).NonnegPrices := by
  have htop : ¬(⊤ : Float64) < 0 := by decide +kernel
  have hegress : (card.setEgress (collectPrices items).egressTiers).NonnegPrices := by
    rw [RateCard.setEgress]
    split_ifs
    · refine h.setRate _ fun tier htier => ?_
      -- sorted or not, a tier has the price of a dimension
      have hmem := (sortTiersAsc_perm_self _).mem_iff.mp htier
      rw [collectPrices_eq] at hmem
      obtain ⟨dim, hdim, rfl⟩ := List.mem_map.mp hmem
      obtain ⟨it, hit, hdim⟩ := List.mem_flatMap.mp hdim
      rw [PriceListItem.transferDimensions] at hdim
      split_ifs at hdim
      · exact hitems it hit dim (List.mem_of_mem_filter hdim)
      · cases hdim
    · exact h
  rw [applyAWSDataTransferPrices]
  rw [collectPrices_eq] at hegress ⊢
  have hbest : ∀ kind, ¬bestPrice ⊤ (transferDimensions kind items) < 0 :=
    fun kind => bestPrice_nonneg htop _
  have hzone := (hegress.setBest .crossRegion (hbest .interRegion)).setBest .crossAZ
    (hbest .intraRegion)
  exact hzone.setBest .vpcPeering (hbest .vpcPeering)

/-- A NAT price is only set if it is no number or a positive one. -/
theorem nonnegPrices_applyAWSNATGatewayPrices {card : FloatCard} (h : card.NonnegPrices)
    (items : List PriceListItem) : (applyAWSNATGatewayPrices card items).NonnegPrices := by
  rw [applyAWSNATGatewayPrices_eq]
  refine ⟨h.rates, ?_, h.transitGW⟩
  generalize items.flatMap PriceListItem.dimensions = dims
  induction dims using List.reverseRecOn with
  | nil => exact h.natGateway
  | append_singleton dims dim ih =>
    dsimp only at ih ⊢
    rw [History.lastValue_concat]
    cases hprice : dim.perGB with
    | none => exact ih
    | some price =>
      rw [PriceDimension.perGB] at hprice
      split_ifs at hprice with hle
      rw [← Option.some.inj hprice]
      exact fun hneg => hle (Or.inl hneg)

/-- The card that a fetch starts from. -/
theorem nonnegPrices_defaultFloatCard (region : String) :
    (defaultAWSRateCard region : FloatCard).NonnegPrices := by
  have hdefault : (defaultAWSRateCard "" : FloatCard).NonnegPrices :=
    RateCard.nonnegPrices_of_all (fun tt => by cases tt <;> decide +kernel) (by decide +kernel)
      (by decide +kernel)
  exact ⟨hdefault.rates, hdefault.natGateway, hdefault.transitGW⟩

theorem nonnegPrices_fetchRateCard {region : String} {today : Date} {answer : PricingResponse}
    (hanswer : answer.NonnegPrices) {card : FloatCard}
    (h : fetchRateCard region today answer = some card) : card.NonnegPrices := by
  rw [fetchRateCard] at h
  split at h
  · rename_i items _ hitems
    have hdt := nonnegPrices_applyAWSDataTransferPrices (nonnegPrices_defaultFloatCard region)
      (hanswer items hitems)
    rw [← Option.some.inj h]
    split
    · rename_i natItems _
      have hnat := nonnegPrices_applyAWSNATGatewayPrices hdt natItems
      exact ⟨hnat.rates, hnat.natGateway, hnat.transitGW⟩
    · exact ⟨hdt.rates, hdt.natGateway, hdt.transitGW⟩
  · cases h

/-! ### Refreshed stores -/

section
variable {κ β : Type*} [Zero κ] [LT κ]

theorem RateCardStore.nonnegPrices_new : (RateCardStore.new : RateCardStore κ β).NonnegPrices :=
  nofun

theorem RateCardStore.NonnegPrices.set {store : RateCardStore κ β} (h : store.NonnegPrices)
    {card : RateCard κ β} (hcard : card.NonnegPrices) : (store.set card).NonnegPrices :=
  FinMap.forall_lookup_insert h hcard

end

namespace RateRefresh

/-- Neither the store nor the cache has a negative price. -/
structure NonnegPrices (s : RateRefresh) : Prop where
  store : s.store.NonnegPrices
  cache : ∀ region card, s.provider.rateCache.lookup region = some card → card.NonnegPrices

variable {region : String}

theorem nonnegPrices_new {store : RateCardStore Float64 Float64} (h : store.NonnegPrices)
    (pricing : Bool) :
    (new store pricing).NonnegPrices :=
  ⟨h, fun _ _ hnone => absurd hnone (Option.some_ne_none _).symm⟩

theorem NonnegPrices.step {s : RateRefresh} (h : s.NonnegPrices) {a : RefreshAttempt}
    (ha : a.answer.NonnegPrices) : (s.step region a).NonnegPrices := by
  obtain ⟨card, hcached, hstep⟩ | ⟨card, -, hfetch, hstep⟩ | ⟨-, -, hstep⟩ :=
    @step_cases region s a
  · have hcard : card.NonnegPrices := by
      rw [AWSProvider.cachedCard] at hcached
      split at hcached
      · rename_i cached _ hcache _
        split_ifs at hcached
        rw [← Option.some.inj hcached]
        exact h.cache region cached hcache
      · cases hcached
    rw [hstep]
    exact ⟨h.store.set hcard, h.cache⟩
  · have hcard : card.NonnegPrices := by
      rw [AWSProvider.fetch] at hfetch
      split_ifs at hfetch
      exact nonnegPrices_fetchRateCard ha hfetch
    rw [hstep]
    exact ⟨h.store.set hcard, FinMap.forall_lookup_insert h.cache hcard⟩
  · have hdefault := nonnegPrices_defaultFloatCard region
    have hcard : (fallbackRateCard region).NonnegPrices :=
      ⟨hdefault.rates, hdefault.natGateway, hdefault.transitGW⟩
    rw [hstep]
    exact ⟨h.store.set hcard, h.cache⟩

/-- Refreshes keep the prices nonnegative if the price lists are. -/
theorem nonnegPrices_foldl {attempts : List RefreshAttempt}
    (hattempts : ∀ a ∈ attempts, a.answer.NonnegPrices) :
    ∀ {s : RateRefresh}, s.NonnegPrices →
      (attempts.foldl (RateRefresh.step region) s).NonnegPrices := by
  induction attempts with
  | nil => exact fun h => h
  | cons a attempts ih =>
    intro s h
    exact ih (fun b hb => hattempts b (List.mem_cons_of_mem a hb))
      (h.step (hattempts a List.mem_cons_self))

/-- **The agent's prices are never negative** if the price lists' are not: whatever refreshes
came before, exact cards with the prices of the store have no negative price. -/
theorem nonnegPrices_refreshed {store : RateCardStore Float64 Float64} (hstore : store.NonnegPrices)
    (pricing : Bool) {attempts : List RefreshAttempt}
    (hattempts : ∀ a ∈ attempts, a.answer.NonnegPrices) {exact : ExactStore}
    {bound : Float64 → WithTop ℚ}
    (hread : ∀ key card, exact.cards.lookup key = some card → ∃ c,
      (attempts.foldl (step region) (new store pricing)).store.cards.lookup key = some c ∧
        card = c.map Float64.toRat bound) : exact.NonnegPrices := by
  have hrefreshed : (attempts.foldl (step region) (new store pricing)).NonnegPrices :=
    nonnegPrices_foldl hattempts (nonnegPrices_new hstore pricing)
  intro key card hcard
  obtain ⟨c, hc, rfl⟩ := hread key card hcard
  exact (hrefreshed.store key c hc).exact bound

end RateRefresh
