/-
Keeping the rates live (`pkg/cost/refresher.go`, `GetRateCard` of
`pkg/cloud/aws/aws.go`).

The refresher stores whatever card the provider hands it and keeps the old one
on an error.  The provider answers from a cache for six hours, then from the
price list, and when that fails with the default card marked as a fallback, not
with an error.  A fetch of which only the NAT query fails is a live card with the
default NAT prices.

* `RateRefresh.Inv` — what the cache and the last live rates have in common;
* `RateRefresh.stays_live_iff` — the store keeps the live rates through exactly
  the runs in which every attempt with a failed query still finds the cached card, or
  only the NAT query fails and the NAT prices were the default ones;
* `RateRefresh.reverts_to_default` — runs in which one does not.
-/
import Tollwing.History
import Tollwing.LiveOverlay

/-- What a call of `GetRateCard` returns, an error or possibly a card. -/
abbrev RateAnswer := Except String (Option FloatCard)

/-- `RateCardRefresher.refresh`, on what the provider answered. -/
def RateCardStore.refresh (store : RateCardStore Float64 Float64) :
    RateAnswer → RateCardStore Float64 Float64
  | .error _ => store
  | .ok none => store
  | .ok (some card) => store.set card

/-! ### The provider -/

/-- The rate card part of the AWS `Provider`; `pricing` tells whether a pricing
client was injected. -/
structure AWSProvider where
  pricing : Bool
  rateCache : FinMap String FloatCard
  rateExpiry : FinMap String ℤ

/-- One refresh attempt: the clock when the cache is read, the clock when a
fetched card is cached, the date, and what the pricing API would answer. -/
structure RefreshAttempt where
  now : ℤ
  fetchedAt : ℤ
  today : Date
  answer : PricingResponse

/-- Six hours, in nanoseconds. -/
def rateTTL : ℤ := 6 * 60 * 60 * 10 ^ 9

/-- The default card, marked as a substitute. -/
def fallbackRateCard (region : String) : FloatCard :=
  { defaultAWSRateCard region with fallback := true }

namespace AWSProvider

def new (pricing : Bool) : AWSProvider := ⟨pricing, ∅, ∅⟩

/-- The cached card of a region while it has not expired. -/
def cachedCard (p : AWSProvider) (region : String) (now : ℤ) : Option FloatCard :=
  match p.rateCache.lookup region, p.rateExpiry.lookup region with
  | some card, some exp => if now < exp then some card else none
  | _, _ => none

/-- The card the pricing API gives in an attempt that asks it. -/
def fetch (p : AWSProvider) (region : String) (a : RefreshAttempt) : Option FloatCard :=
  if p.pricing then fetchRateCard region a.today a.answer else none

/-- `GetRateCard`; it never returns an error. -/
def getRateCard (p : AWSProvider) (region : String) (a : RefreshAttempt) :
    AWSProvider × RateAnswer :=
  match p.cachedCard region a.now with
  | some card => (p, .ok (some card))
  | none =>
    match p.fetch region a with
    | none => (p, .ok (some (fallbackRateCard region)))
    | some card =>
      ({ p with
          rateCache := p.rateCache.insert region card
          rateExpiry := p.rateExpiry.insert region (a.fetchedAt + rateTTL) },
        .ok (some card))

end AWSProvider

/-! ### Runs -/

/-- The rates that the price list gave last: those of the transfers, and the NAT prices of
the last query of them that did not fail. -/
structure LiveRates where
  rates : TrafficType → Option (TieredRate Float64 Float64)
  natGateway : Option (NATGatewayRate Float64)

/-- A card that has them and is no fallback. -/
structure LiveRates.On (live : LiveRates) (card : FloatCard) : Prop where
  fallback : card.fallback = false
  rates : card.rates = live.rates
  natGateway : ∀ n ∈ live.natGateway, card.natGateway = n

/-- The store and the provider of a refresher, beside the rates that were fetched
live last. -/
structure RateRefresh where
  store : RateCardStore Float64 Float64
  provider : AWSProvider
  live : Option LiveRates

namespace RateRefresh

variable (region : String)

def new (store : RateCardStore Float64 Float64) (pricing : Bool) : RateRefresh :=
  ⟨store, .new pricing, none⟩

/-- The live rates with what a fetched card brings. -/
def fetched (live : Option LiveRates) (a : RefreshAttempt) (card : FloatCard) : LiveRates :=
  { rates := card.rates
    natGateway :=
      if a.answer.natGateway = none then live.bind LiveRates.natGateway else card.natGateway }

/-- One attempt. -/
def step (s : RateRefresh) (a : RefreshAttempt) : RateRefresh :=
  let (provider, answer) := s.provider.getRateCard region a
  { store := s.store.refresh answer
    provider := provider
    live :=
      match s.provider.cachedCard region a.now, s.provider.fetch region a with
      | none, some card => some (fetched s.live a card)
      | _, _ => s.live }

/-- The store holds the last live rates, if there are any, and not as a
fallback. -/
def HoldsLive (s : RateRefresh) : Prop :=
  ∀ live, s.live = some live → ∃ card, s.store.get "aws" region = some card ∧ live.On card

/-- After the attempt the store holds the last live rates. -/
def StaysLive (s : RateRefresh) (a : RefreshAttempt) : Prop := HoldsLive region (s.step region a)

/-- Once there are live rates, an attempt that does not find the cached card has its transfer
query answered, and its NAT query too if the live NAT prices are not the default ones. -/
def QueriesCover (s : RateRefresh) (a : RefreshAttempt) : Prop :=
  ∀ live, s.live = some live → s.provider.cachedCard region a.now = none →
    s.provider.fetch region a ≠ none ∧
      (a.answer.natGateway = none → ∀ n ∈ live.natGateway,
        n = (defaultAWSRateCard region : FloatCard).natGateway)

/-! ### The last live rates -/

/-- The cache holds a card of the region with the last live rates and nothing else. -/
def Inv (s : RateRefresh) : Prop :=
  ∀ card, s.provider.rateCache.lookup region = some card →
    card.provider = "aws" ∧ card.region = region ∧ ∃ live, s.live = some live ∧ live.On card

variable {region}

theorem inv_new (store : RateCardStore Float64 Float64) (pricing : Bool) :
    (new store pricing).Inv region := fun _ h => nomatch h

end RateRefresh

/-- Live prices leave the provider and the region alone. -/
theorem applyAWSDataTransferPrices_provider (card : FloatCard) (items : List PriceListItem) :
    (applyAWSDataTransferPrices card items).provider = card.provider ∧
      (applyAWSDataTransferPrices card items).region = card.region := by
  have hbest : ∀ (card : FloatCard) (tt : TrafficType) (best : Float64),
      (card.setBest tt best).provider = card.provider ∧
        (card.setBest tt best).region = card.region := by
    intro card tt best
    rw [RateCard.setBest]
    split_ifs <;> exact ⟨rfl, rfl⟩
  rw [applyAWSDataTransferPrices, (hbest _ _ _).1, (hbest _ _ _).1, (hbest _ _ _).1,
    (hbest _ _ _).2, (hbest _ _ _).2, (hbest _ _ _).2, RateCard.setEgress]
  split_ifs <;> exact ⟨rfl, rfl⟩

/-- A fetched card is one of the region and no fallback, and without NAT prices it has the
default ones. -/
theorem fetchRateCard_live {region : String} {today : Date} {answer : PricingResponse}
    {card : FloatCard} (h : fetchRateCard region today answer = some card) :
    card.provider = "aws" ∧ card.region = region ∧ card.fallback = false ∧
      (answer.natGateway = none →
        card.natGateway = (defaultAWSRateCard region : FloatCard).natGateway) := by
  rw [fetchRateCard] at h
  split at h
  · rename_i items _ _
    have hdt := applyAWSDataTransferPrices_provider (defaultAWSRateCard region) items
    rw [← Option.some.inj h]
    dsimp only
    split
    · rename_i natItems hnat
      rw [applyAWSNATGatewayPrices_eq]
      refine ⟨hdt.1, hdt.2, rfl, fun hnone => ?_⟩
      exact absurd (hnat.symm.trans hnone) (Option.some_ne_none natItems)
    · exact ⟨hdt.1, hdt.2, rfl, fun _ => natGateway_applyAWSDataTransferPrices _ items⟩
  · cases h

namespace RateRefresh

variable {region : String}

/-- The three ways an attempt can go. -/
theorem step_cases (s : RateRefresh) (a : RefreshAttempt) :
    (∃ card, s.provider.cachedCard region a.now = some card ∧
      s.step region a = { s with store := s.store.set card }) ∨
    (∃ card, s.provider.cachedCard region a.now = none ∧ s.provider.fetch region a = some card ∧
      s.step region a =
        { store := s.store.set card
          provider :=
            { s.provider with
              rateCache := s.provider.rateCache.insert region card
              rateExpiry := s.provider.rateExpiry.insert region (a.fetchedAt + rateTTL) }
          live := some (fetched s.live a card) }) ∨
    (s.provider.cachedCard region a.now = none ∧ s.provider.fetch region a = none ∧
      s.step region a = { s with store := s.store.set (fallbackRateCard region) }) := by
  cases hcached : s.provider.cachedCard region a.now with
  | some card =>
    refine Or.inl ⟨card, rfl, ?_⟩
    rw [step, AWSProvider.getRateCard, hcached]
    rfl
  | none =>
    cases hfetch : s.provider.fetch region a with
    | some card =>
      refine Or.inr (Or.inl ⟨card, rfl, rfl, ?_⟩)
      rw [step, AWSProvider.getRateCard, hcached, hfetch]
      rfl
    | none =>
      refine Or.inr (Or.inr ⟨rfl, rfl, ?_⟩)
      rw [step, AWSProvider.getRateCard, hcached, hfetch]
      rfl

theorem fetchRateCard_of_fetch {s : RateRefresh} {a : RefreshAttempt} {card : FloatCard}
    (h : s.provider.fetch region a = some card) :
    fetchRateCard region a.today a.answer = some card := by
  rw [AWSProvider.fetch] at h
  split_ifs at h
  exact h

/-- A fetched card has the live rates with what it brings, unless it has default NAT prices
for other ones. -/
theorem fetched_on_iff {s : RateRefresh} {a : RefreshAttempt} {card : FloatCard}
    (h : s.provider.fetch region a = some card) :
    (fetched s.live a card).On card ↔ (a.answer.natGateway = none →
      ∀ live, s.live = some live → ∀ n ∈ live.natGateway,
        n = (defaultAWSRateCard region : FloatCard).natGateway) := by
  obtain ⟨-, -, hfallback, hnat⟩ := fetchRateCard_live (fetchRateCard_of_fetch h)
  constructor
  · intro hon hnone live hlive n hn
    have hin : n ∈ (fetched s.live a card).natGateway := by
      rw [fetched, if_pos hnone, hlive]
      exact hn
    rw [← hon.natGateway n hin, hnat hnone]
  · intro hdefault
    refine ⟨hfallback, rfl, fun n hn => ?_⟩
    rw [fetched] at hn
    dsimp only at hn
    split_ifs at hn with hnone
    · obtain ⟨live, hlive, hn⟩ := Option.bind_eq_some_iff.mp hn
      rw [hnat hnone, hdefault hnone live hlive n hn]
    · exact Option.some_inj.mp hn

theorem Inv.step {s : RateRefresh} (h : s.Inv region) {a : RefreshAttempt}
    (hstays : s.StaysLive region a) : (s.step region a).Inv region := by
  rw [StaysLive] at hstays
  obtain ⟨card, -, hstep⟩ | ⟨card, -, hfetch, hstep⟩ | ⟨-, -, hstep⟩ := @step_cases region s a
  · rw [hstep]
    exact h
  · obtain ⟨hprovider, hregion, -, -⟩ := fetchRateCard_live (fetchRateCard_of_fetch hfetch)
    rw [hstep] at hstays ⊢
    intro card' hcard'
    rw [Finmap.lookup_insert] at hcard'
    obtain rfl := Option.some.inj hcard'
    obtain ⟨stored, hstored, hon⟩ := hstays _ rfl
    have hget := s.store.get_set card
    rw [hprovider, hregion] at hget
    rw [Option.some.inj (hstored.symm.trans hget)] at hon
    exact ⟨hprovider, hregion, _, rfl, hon⟩
  · rw [hstep]
    exact h

/-- What the cache answers has the last live rates. -/
theorem Inv.of_cached {s : RateRefresh} (h : s.Inv region) {now : ℤ} {card : FloatCard}
    (hcached : s.provider.cachedCard region now = some card) :
    card.provider = "aws" ∧ card.region = region ∧ ∃ live, s.live = some live ∧ live.On card := by
  rw [AWSProvider.cachedCard] at hcached
  split at hcached
  · rename_i hcache _
    split_ifs at hcached
    rw [← Option.some.inj hcached]
    exact h _ hcache
  · cases hcached

/-- One attempt leaves the live rates in the store exactly if the cache or the queries cover
it. -/
theorem Inv.staysLive_iff {s : RateRefresh} (h : s.Inv region) (a : RefreshAttempt) :
    s.StaysLive region a ↔ s.QueriesCover region a := by
  have hget : ∀ {card : FloatCard} (store : RateCardStore Float64 Float64),
      card.provider = "aws" → card.region = region →
        (store.set card).get "aws" region = some card := by
    intro card store hprovider hregion
    rw [← hprovider, ← hregion]
    exact store.get_set card
  rw [StaysLive]
  obtain ⟨card, hcached, hstep⟩ | ⟨card, hcached, hfetch, hstep⟩ | ⟨hcached, hfetch, hstep⟩ :=
    @step_cases region s a
  · -- the cached card has the last live rates
    obtain ⟨hprovider, hregion, live, hlive, hon⟩ := h.of_cached hcached
    refine iff_of_true ?_ fun _ _ hnone => absurd (hcached.symm.trans hnone) nofun
    rw [hstep]
    intro live' hlive'
    obtain rfl := Option.some.inj (hlive.symm.trans hlive')
    exact ⟨card, hget s.store hprovider hregion, hon⟩
  · obtain ⟨hprovider, hregion, -, -⟩ := fetchRateCard_live (fetchRateCard_of_fetch hfetch)
    have hstored := hget s.store hprovider hregion
    have hholds : HoldsLive region (s.step region a) ↔ (fetched s.live a card).On card := by
      rw [hstep]
      constructor
      · intro hholds
        obtain ⟨card', hcard', hon⟩ := hholds _ rfl
        rwa [Option.some.inj (hcard'.symm.trans hstored)] at hon
      · intro hon live hlive
        obtain rfl := Option.some.inj hlive
        exact ⟨card, hstored, hon⟩
    rw [hholds, fetched_on_iff hfetch, QueriesCover]
    constructor
    · intro hdefault live hlive _
      refine ⟨fun hnone => absurd (hfetch.symm.trans hnone) nofun, fun hnat => ?_⟩
      exact hdefault hnat live hlive
    · intro hcover hnat live hlive
      exact (hcover live hlive hcached).2 hnat
  · -- the fallback is stored, which has no live rates
    have hstored := @hget (fallbackRateCard region) s.store rfl rfl
    rw [hstep]
    constructor
    · intro hholds live hlive
      obtain ⟨card, hcard, hon⟩ := hholds live hlive
      have hfallback := hon.fallback
      rw [← Option.some.inj (hstored.symm.trans hcard)] at hfallback
      exact absurd hfallback nofun
    · intro hcover live hlive
      exact absurd hfetch (hcover live hlive hcached).1

/-- **The rate card stays live** through exactly the runs in which, once live rates were
stored, every attempt with a failed query finds the cached card, or fails only the query for
NAT prices that are the default ones. -/
theorem stays_live_iff (store : RateCardStore Float64 Float64) (pricing : Bool)
    (attempts : List RefreshAttempt) :
    History.Along (step region) (StaysLive region) (new store pricing) attempts ↔
      History.Along (step region) (QueriesCover region) (new store pricing) attempts := by
  have hstep : ∀ s a, Inv region s → s.StaysLive region a → Inv region (s.step region a) :=
    fun _ _ h hstays => h.step hstays
  exact History.along_iff hstep (fun _ a h => h.staysLive_iff a) (inv_new store pricing) attempts

/-- The run of an agent that starts with the default card, has one answer and seven hours
later another. -/
def twoAttempts (first second : PricingResponse) : RateRefresh :=
  [(⟨0, 1, ⟨2026, 7, 2⟩, first⟩ : RefreshAttempt),
    ⟨7 * 60 * 60 * 10 ^ 9, 7 * 60 * 60 * 10 ^ 9, ⟨2026, 7, 2⟩, second⟩].foldl
    (step "us-east-1") (new (RateCardStore.new.set (defaultAWSRateCard "us-east-1")) true)

/-- The second attempt has no answer at all. -/
def bothFail : RateRefresh := twoAttempts oneLadder ⟨none, none⟩

/-- The second attempt has no answer to the NAT query. -/
def natFails : RateRefresh :=
  twoAttempts ⟨some [internetLadder], some [natItem "0.05"]⟩ ⟨some [internetLadder], none⟩

/-- When both queries fail after live rates were fetched, the store is back at the default
card, marked as a fallback; when only the NAT query does, the live NAT price is back at the
default one, and nothing marks it. -/
theorem reverts_to_default :
    ((bothFail.store.get "aws" "us-east-1").map (fun card => (card.fallback, card.source))
        = some (true, defaultRatesSource) ∧ ¬bothFail.HoldsLive "us-east-1") ∧
      (natFails.store.get "aws" "us-east-1").map
          (fun card => (card.fallback, card.natGateway.perGBUSD)) = some (false, 0.045) ∧
        ¬natFails.HoldsLive "us-east-1" := by
  have hboth : bothFail.live.isSome = true := by decide +kernel
  have hnat : natFails.live.bind LiveRates.natGateway = some ⟨0.045, 0.05⟩ := by decide +kernel
  have hfallback : (bothFail.store.get "aws" "us-east-1").map
      (fun card => (card.fallback, card.source)) = some (true, defaultRatesSource) := by
    decide +kernel
  have hprice : (natFails.store.get "aws" "us-east-1").map
      (fun card => (card.fallback, card.natGateway.perGBUSD)) = some (false, 0.045) := by
    decide +kernel
  refine ⟨⟨hfallback, fun h => ?_⟩, hprice, fun h => ?_⟩
  · obtain ⟨live, hlive⟩ := Option.isSome_iff_exists.mp hboth
    obtain ⟨card, hcard, hon⟩ := h live hlive
    rw [hcard, Option.map_some, hon.fallback] at hfallback
    cases hfallback
  · obtain ⟨live, hlive, hn⟩ := Option.bind_eq_some_iff.mp hnat
    obtain ⟨card, hcard, hon⟩ := h live hlive
    rw [hcard, Option.map_some, hon.natGateway _ hn] at hprice
    have hsame : (0.05 : Float64) = 0.045 := (Prod.mk.inj (Option.some.inj hprice)).2
    exact absurd hsame (by decide +kernel)

end RateRefresh
