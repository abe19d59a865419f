/-
The single shared egress meter.

In single-meter mode internet egress is priced on the usage of the billing
period, whichever flow and whichever batch it came in, NAT gateway flows
included.  The bill of a month is therefore the tiered cost of the month's
total.

* `tieredCost_eq_charge` — the engine's nested tier loops compute the integral
  of the rate over the interval;
* `Engine.priceTiered_metered` — an amount moves the meter by itself and costs
  the interval it moves over;
* `Engine.singleMeter_bill` — the total of any batches of one month, as long as
  no flow is costed at the very instant the engine's billing period ends and those
  straight to the internet are metered by what they send;
* `Engine.singleMeter_restarts` — a bill where one is.
-/
import Mathlib.Algebra.Order.BigOperators.Group.List
import Mathlib.Tactic.Positivity
import Tollwing.CostEngine
import Tollwing.History

/-! ### The tier loops -/

/-- Where a list of tiers ends that begins at `start`. -/
def lastBound (start : ℚ) (tiers : List ExactTier) : ℚ :=
  tiers.foldl (fun _ t => t.upToGB.untopD 0) start

/-- The inner loop passes the tiers below and stops at the tier itself. -/
theorem tierStart_append {tier : ExactTier} {below rest : List ExactTier}
    (h : ∀ t ∈ below, t.upToGB < tier.upToGB) (start : ℚ) :
    tierStart tier.upToGB start (below ++ tier :: rest) = lastBound start below := by
  induction below generalizing start with
  | nil => exact if_pos le_rfl
  | cons t below ih =>
    rw [List.cons_append, tierStart, if_neg (h t (List.mem_cons_self ..)).not_ge,
      ih fun t' ht' => h t' (List.mem_cons_of_mem t ht')]
    rfl

/-- With ascending tiers, the loop finds the start of each tier where the one
below it ends. -/
theorem start_eq {tier : ExactTier} {below rest : List ExactTier}
    (h : ∀ t ∈ below, t.upToGB < tier.upToGB) :
    (if 1 < (below ++ tier :: rest).length then tierStart tier.upToGB 0 (below ++ tier :: rest)
      else 0) = lastBound 0 below := by
  by_cases hlen : 1 < (below ++ tier :: rest).length
  · rw [if_pos hlen, tierStart_append h]
  · -- a single tier starts at zero
    have hbelow : below = [] := by
      rw [List.length_append, List.length_cons] at hlen
      exact List.eq_nil_of_length_eq_zero (by omega)
    rw [if_neg hlen, hbelow]
    rfl

/-- One tier with interval left: the loop takes the overlap of the two, which is
nothing for a tier that was used up before. -/
theorem tieredCostLoop_cons {tier : ExactTier} {below rest : List ExactTier}
    (hbelow : ∀ t ∈ below, t.upToGB < tier.upToGB) {remaining : ℚ} (hleft : 0 < remaining)
    (prevGB newGB cost : ℚ) :
    tieredCostLoop (below ++ tier :: rest) prevGB newGB cost remaining (tier :: rest)
      = tieredCostLoop (below ++ tier :: rest) prevGB newGB
          (cost + Bands.overlap (lastBound 0 below) tier.upToGB prevGB newGB * tier.perGB)
          (remaining - Bands.overlap (lastBound 0 below) tier.upToGB prevGB newGB) rest := by
  rw [tieredCostLoop, if_neg (not_le.mpr hleft)]
  dsimp only
  rw [start_eq hbelow]
  by_cases hpast : tier.upToGB ≤ (prevGB : WithTop ℚ)
  · rw [if_pos hpast, Bands.overlap_of_bound_le hpast, zero_mul, add_zero, sub_zero]
  · rw [if_neg hpast, Bands.overlap]
    by_cases hpos : 0 < Bands.capAt newGB tier.upToGB - max prevGB (lastBound 0 below)
    · rw [if_pos hpos, max_eq_right hpos.le]
    · rw [if_neg hpos, max_eq_left (not_lt.mp hpos), zero_mul, add_zero, sub_zero]

/-- The loop over the tiers left adds their share of the interval.  `remaining`
is what of the interval lies above the tiers passed. -/
theorem tieredCostLoop_eq {prevGB newGB : ℚ} :
    ∀ {rest below : List ExactTier} {cost remaining : ℚ},
      (below ++ rest).Pairwise (fun t t' => t.upToGB < t'.upToGB) →
      (lastBound 0 below ≤ prevGB ∨ ∀ t ∈ rest, ((lastBound 0 below : ℚ) : WithTop ℚ) < t.upToGB) →
      remaining = newGB - max prevGB (min newGB (lastBound 0 below)) →
      tieredCostLoop (below ++ rest) prevGB newGB cost remaining rest
        = cost + Bands.charge Tier.upToGB Tier.perGB (lastBound 0 below) rest prevGB newGB := by
  intro rest
  induction rest with
  | nil => exact fun _ _ _ => (add_zero _).symm
  | cons tier rest ih =>
    intro below cost remaining hasc hstart hrem
    obtain ⟨-, hrest, hcross⟩ := List.pairwise_append.mp hasc
    have hbelow : ∀ t ∈ below, t.upToGB < tier.upToGB := fun t ht =>
      hcross t ht tier (List.mem_cons_self ..)
    by_cases hdone : remaining ≤ 0
    · -- the interval is used up, and the tiers left charge nothing for it
      rw [tieredCostLoop, if_pos hdone]
      rw [hrem, sub_nonpos] at hdone
      rcases le_max_iff.mp hdone with hprev | hstop
      · rw [Bands.charge_of_le _ _ hprev, add_zero]
      · have hstop : newGB ≤ lastBound 0 below := (le_min_iff.mp hstop).2
        rcases hstart with hstart | hstart
        · rw [Bands.charge_of_le _ _ (hstop.trans hstart), add_zero]
        · rw [Bands.charge_of_le_start _ _ hstop hrest hstart, add_zero]
    · rw [tieredCostLoop_cons hbelow (not_le.mp hdone), Bands.charge, ← add_assoc]
      cases hu : tier.upToGB with
      | top =>
        rw [Bands.eq_nil_of_unbounded hrest hu, tieredCostLoop, Bands.charge, add_zero]
      | coe u =>
        have hnext : below ++ tier :: rest = (below ++ [tier]) ++ rest := by
          rw [List.append_assoc, List.singleton_append]
        have hlast : lastBound 0 (below ++ [tier]) = u := by
          rw [lastBound, List.foldl_append, List.foldl_cons, List.foldl_nil, hu]
          rfl
        have habove : ∀ t ∈ rest,
            ((lastBound 0 (below ++ [tier]) : ℚ) : WithTop ℚ) < t.upToGB := by
          intro t ht
          rw [hlast, ← hu]
          exact (List.pairwise_cons.mp hrest).1 t ht
        have hgap : lastBound 0 below ≤ prevGB ∨ lastBound 0 below < u := by
          refine hstart.imp_right fun hstart => ?_
          have hlt := hstart tier (List.mem_cons_self ..)
          rwa [hu, WithTop.coe_lt_coe] at hlt
        -- the invariant moves up from the start of the tier to its bound
        have hrem' : remaining - Bands.overlap (lastBound 0 below) (u : WithTop ℚ) prevGB newGB
            = newGB - max prevGB (min newGB (lastBound 0 (below ++ [tier]))) := by
          rw [hrem, hlast, Bands.overlap_eq_sub hgap]
          ring
        rw [hnext, ih (hnext ▸ hasc) (Or.inr habove) hrem', hlast, WithTop.untopD_coe]

/-- **The engine's tier loops compute the integral of the rate.** -/
theorem tieredCost_eq_charge {tiers : List ExactTier} (hwf : Bands.WellFormed Tier.upToGB tiers)
    {prevGB : ℚ} (h0 : 0 ≤ prevGB) (newGB : ℚ) :
    tieredCost tiers prevGB newGB = Bands.charge Tier.upToGB Tier.perGB 0 tiers prevGB newGB := by
  have hrem : newGB - prevGB = newGB - max prevGB (min newGB (lastBound 0 [])) := by
    rw [show lastBound 0 [] = 0 from rfl, max_eq_left ((min_le_right newGB 0).trans h0)]
  have hloop : tieredCostLoop ([] ++ tiers) prevGB newGB 0 (newGB - prevGB) tiers
      = 0 + Bands.charge Tier.upToGB Tier.perGB 0 tiers prevGB newGB :=
    tieredCostLoop_eq hwf.ascending (Or.inl h0) hrem
  rw [zero_add] at hloop
  exact hloop

/-! ### The meter -/

theorem bytesToGB_nonneg (b : UInt64) : 0 ≤ bytesToGB b := by
  rw [bytesToGB]
  positivity

namespace Engine

/-- What a meter reads. -/
def usage (e : Engine) (key : String) : ℚ := (e.cumulativeBytes.lookup key).getD 0

/-- The meter `key` reads `used` for the month: the billing period is the month,
or an earlier one and nothing was metered in the month yet. -/
def Metered (e : Engine) (key : String) (month : ℤ) (used : ℚ) : Prop :=
  (e.resetTime = ⟨month, 0⟩ ∧ e.usage key = used) ∨
    (e.resetTime.month < month ∧ e.resetTime.ns = 0 ∧ used = 0)

/-- After the roll-over the billing period is the month, unless it was the
first instant after the period. -/
theorem Metered.rollOver {e : Engine} {key : String} {month : ℤ} {used : ℚ}
    (h : e.Metered key month used) {now : Time} (hnow : now.month = month)
    (hoff : now ≠ e.resetTime.addMonth) :
    (e.rollOver now).resetTime = ⟨month, 0⟩ ∧ (e.rollOver now).usage key = used := by
  obtain ⟨m, ns⟩ := now
  have hm : m = month := hnow
  subst hm
  rcases h with ⟨hreset, husage⟩ | ⟨hmonth, hns, rfl⟩
  · -- the period is the current month
    have hafter : ¬(Time.after ⟨m, ns⟩ e.resetTime.addMonth) = true := by
      simp [Time.after, Time.addMonth, hreset]
    rw [Engine.rollOver, if_neg hafter]
    exact ⟨hreset, husage⟩
  · -- an earlier period ends, unless `now` is the first instant after it
    have hafter : (Time.after ⟨m, ns⟩ e.resetTime.addMonth) = true := by
      simp only [Time.after, Time.addMonth, hns, Bool.or_eq_true, Bool.and_eq_true,
        decide_eq_true_eq, beq_iff_eq]
      by_cases hnext : e.resetTime.month + 1 = m
      · refine Or.inr ⟨hnext, Nat.pos_of_ne_zero fun hzero => hoff ?_⟩
        rw [Time.addMonth, hnext, hns, hzero]
      · exact Or.inl (by omega)
    rw [Engine.rollOver, if_pos hafter]
    exact ⟨rfl, rfl⟩

@[simp] theorem rollOver_mode (e : Engine) (now : Time) : (e.rollOver now).mode = e.mode := by
  rw [Engine.rollOver]
  split_ifs <;> rfl

@[simp] theorem rollOver_store (e : Engine) (now : Time) : (e.rollOver now).store = e.store := by
  rw [Engine.rollOver]
  split_ifs <;> rfl

theorem priceTiered_store (e : Engine) (now : Time) (provider region : String) (tt : TrafficType)
    (rate : ExactRate) (gb : ℚ) :
    (e.priceTiered now provider region tt rate gb).1.store = e.store ∧
      (e.priceTiered now provider region tt rate gb).1.mode = e.mode := by
  rw [Engine.priceTiered]
  split
  · exact ⟨rfl, rfl⟩
  · exact ⟨rfl, rfl⟩
  · split
    · exact ⟨rfl, rfl⟩
    · exact ⟨e.rollOver_store now, e.rollOver_mode now⟩

/-- One metered amount moves the meter by itself and costs the interval it moves
over.  A flat rate needs no meter. -/
theorem priceTiered_metered {e : Engine} {provider region : String} {tt : TrafficType}
    {tiers : List ExactTier} {month : ℤ} {used gb : ℚ} {now : Time}
    (hmode : e.mode = .singleMeter) (hwf : Bands.WellFormed Tier.upToGB tiers)
    (h : 1 < tiers.length → e.Metered (meterKey provider region tt) month used)
    (hnow : now.month = month) (hoff : now ≠ e.resetTime.addMonth) (hused : 0 ≤ used)
    (hgb : 0 ≤ gb) :
    (e.priceTiered now provider region tt ⟨tiers⟩ gb).2
        = Bands.charge Tier.upToGB Tier.perGB 0 tiers used (used + gb) ∧
      (1 < tiers.length →
        (e.priceTiered now provider region tt ⟨tiers⟩ gb).1.resetTime = ⟨month, 0⟩ ∧
          (e.priceTiered now provider region tt ⟨tiers⟩ gb).1.usage (meterKey provider region tt)
            = used + gb) := by
  match tiers, hwf with
  | [], hwf => exact absurd hwf.unbounded (by simp)
  | [tier], hwf =>
    -- a single tier is unbounded, and its rate applies to everything
    have htop : tier.upToGB = ⊤ := by simpa using hwf.unbounded
    refine ⟨?_, fun hlen => absurd hlen (by simp)⟩
    show gb * tier.perGB = _
    rw [Bands.charge, Bands.charge, Bands.overlap, htop, Bands.capAt_top, max_eq_left hused,
      add_sub_cancel_left, max_eq_right hgb, add_zero]
  | tier :: tier' :: tiers, hwf =>
    -- the meter is read after the roll-over, so it reads `used`
    obtain ⟨hreset, husage⟩ := (h (by simp)).rollOver hnow hoff
    rw [Engine.priceTiered]
    simp only [hmode]
    have hread : ((e.rollOver now).cumulativeBytes.lookup (meterKey provider region tt)).getD 0
        = used := husage
    rw [hread]
    refine ⟨tieredCost_eq_charge hwf hused _, fun _ => ⟨hreset, ?_⟩⟩
    rw [usage, Finmap.lookup_insert]
    rfl

/-- In the marginal mode a tiered rate needs no meter. -/
theorem priceTiered_marginal {e : Engine} {now : Time} {provider region : String}
    {tt : TrafficType} {tiers : List ExactTier} {gb : ℚ} (hmode : e.mode = .marginal)
    (hlen : 1 < tiers.length) :
    e.priceTiered now provider region tt ⟨tiers⟩ gb
      = (e, gb * (⟨tiers⟩ : ExactRate).marginalRate) := by
  match tiers, hlen with
  | tier :: tier' :: tiers, _ =>
    rw [Engine.priceTiered]
    simp only [hmode]

/-! ### One flow, one month -/

/-- The NAT processing charge of a flow. -/
def processing (card : ExactCard) (flow : FlowRecord) : ℚ :=
  if flow.trafficType = .natGatewayEgress then
    bytesToGB (card.meteredBytes .natGatewayEgress flow.txBytes flow.rxBytes)
      * card.natGateway.perGBUSD
  else 0

/-- The flows that leave to the internet, directly or through a NAT gateway. -/
def IsEgress (flow : FlowRecord) : Prop :=
  flow.trafficType = .internetEgress ∨ flow.trafficType = .natGatewayEgress

/-- A flow straight to the internet is metered by what it sends. -/
def MetersSent (card : ExactCard) (flow : FlowRecord) : Prop :=
  flow.trafficType = .internetEgress →
    card.meteredBytes .internetEgress flow.txBytes flow.rxBytes = flow.txBytes

instance (card : ExactCard) (flow : FlowRecord) : Decidable (MetersSent card flow) :=
  inferInstanceAs (Decidable (_ → _))

/-- So is every flow by a card that meters this direction. -/
theorem metersSent_of_meterTx {card : ExactCard}
    (hdir : card.directions .internetEgress = some .meterTx) (flow : FlowRecord) :
    MetersSent card flow := by
  intro _
  rw [RateCard.meteredBytes, hdir]
  rfl

/-- What an egress flow costs: its NAT processing and the metered price of the
bytes it sends. -/
theorem calculateFlow_egress {e : Engine} {now : Time} {card : ExactCard} {flow : FlowRecord}
    {rate : ExactRate} (hflow : IsEgress flow) (hrate : card.rates .internetEgress = some rate)
    (hsent : MetersSent card flow) :
    e.calculateFlow now card flow =
      ((e.priceTiered now card.provider card.region .internetEgress rate
          (bytesToGB flow.txBytes)).1,
        processing card flow + (e.priceTiered now card.provider card.region .internetEgress rate
          (bytesToGB flow.txBytes)).2) := by
  rcases hflow with htype | htype
  · simp only [Engine.calculateFlow, processing, htype, hrate, hsent htype]
    simp
  · simp only [Engine.calculateFlow, processing, htype, hrate]
    simp

/-- What a flow of a type with at most one tier costs. -/
theorem calculateFlow_flat {e : Engine} {now : Time} {card : ExactCard} {flow : FlowRecord}
    {price : Option ℚ} (hnat : flow.trafficType ≠ .natGatewayEgress)
    (htransit : flow.trafficType ≠ .transitGateway)
    (hrate : card.rates flow.trafficType = price.map flatRate) :
    e.calculateFlow now card flow
      = (e, bytesToGB (card.meteredBytes flow.trafficType flow.txBytes flow.rxBytes)
          * price.getD 0) := by
  rw [Engine.calculateFlow]
  split
  · contradiction
  · contradiction
  · rw [hrate]
    cases price with
    | none => exact congrArg (e, ·) (mul_zero _).symm
    | some perGB => rfl

theorem calculateFlow_store (e : Engine) (now : Time) (card : ExactCard) (flow : FlowRecord) :
    (e.calculateFlow now card flow).1.store = e.store ∧
      (e.calculateFlow now card flow).1.mode = e.mode := by
  rw [Engine.calculateFlow]
  split
  · -- the NAT leg
    split
    · exact priceTiered_store ..
    · exact ⟨rfl, rfl⟩
  · exact ⟨rfl, rfl⟩
  · split
    · exact ⟨rfl, rfl⟩
    · exact priceTiered_store ..

/-- The engine after a flow. -/
def afterFlow (card : ExactCard) (e : Engine) (x : Time × FlowRecord) : Engine :=
  (e.calculateFlow x.1 card x.2).1

theorem calculateFlows_cons (e : Engine) (card : ExactCard) (x : Time × FlowRecord)
    (flows : List (Time × FlowRecord)) :
    (e.calculateFlows card (x :: flows)).2
      = (e.calculateFlow x.1 card x.2).2 :: ((afterFlow card e x).calculateFlows card flows).2 :=
  rfl

theorem calculateFlows_store (e : Engine) (card : ExactCard) (flows : List (Time × FlowRecord)) :
    (e.calculateFlows card flows).1.store = e.store ∧
      (e.calculateFlows card flows).1.mode = e.mode := by
  induction flows generalizing e with
  | nil => exact ⟨rfl, rfl⟩
  | cons x flows ih =>
    obtain ⟨hstore, hmode⟩ := e.calculateFlow_store x.1 card x.2
    obtain ⟨hstores, hmodes⟩ := ih (e.calculateFlow x.1 card x.2).1
    exact ⟨hstores.trans hstore, hmodes.trans hmode⟩

theorem calculateFlows_append (e : Engine) (card : ExactCard)
    (flows flows' : List (Time × FlowRecord)) :
    (e.calculateFlows card (flows ++ flows')).2
      = (e.calculateFlows card flows).2
        ++ ((e.calculateFlows card flows).1.calculateFlows card flows').2 := by
  induction flows generalizing e with
  | nil => rfl
  | cons x flows ih =>
    rw [List.cons_append, calculateFlows_cons, calculateFlows_cons, ih]
    rfl

/-- The flow is not costed at the instant the engine's billing period ends. -/
def OffBoundary (e : Engine) (x : Time × FlowRecord) : Prop := x.1 ≠ e.resetTime.addMonth

instance (e : Engine) (x : Time × FlowRecord) : Decidable (OffBoundary e x) :=
  inferInstanceAs (Decidable (_ ≠ _))

/-- A flow off that instant that, straight to the internet, is metered by what it sends. -/
def OnBill (card : ExactCard) (e : Engine) (x : Time × FlowRecord) : Prop :=
  OffBoundary e x ∧ MetersSent card x.2

instance (card : ExactCard) (e : Engine) (x : Time × FlowRecord) : Decidable (OnBill card e x) :=
  inferInstanceAs (Decidable (_ ∧ _))

/-- The data-transfer-out charges of flows, given their costs. -/
def transferOut (card : ExactCard) : List (Time × FlowRecord) → List ℚ → ℚ
  | x :: flows, cost :: costs => (cost - processing card x.2) + transferOut card flows costs
  | _, _ => 0

section
variable {card : ExactCard} {tiers : List ExactTier} {month : ℤ}

/-- One egress flow costs, beside NAT processing, the interval it moves the
meter over. -/
theorem calculateFlow_metered (hrate : card.rates .internetEgress = some ⟨tiers⟩)
    (hwf : Bands.WellFormed Tier.upToGB tiers) {e : Engine} {used : ℚ} {x : Time × FlowRecord}
    (hmode : e.mode = .singleMeter) (hused : 0 ≤ used)
    (hmeter : 1 < tiers.length →
      e.Metered (meterKey card.provider card.region .internetEgress) month used)
    (hx : x.1.month = month ∧ IsEgress x.2) (hbill : OnBill card e x) :
    (e.calculateFlow x.1 card x.2).2 - processing card x.2
        = Bands.charge Tier.upToGB Tier.perGB 0 tiers used (used + bytesToGB x.2.txBytes) ∧
      (afterFlow card e x).mode = .singleMeter ∧
      (1 < tiers.length →
        (afterFlow card e x).Metered (meterKey card.provider card.region .internetEgress) month
          (used + bytesToGB x.2.txBytes)) := by
  have hflow : e.calculateFlow x.1 card x.2 = _ := calculateFlow_egress hx.2 hrate hbill.2
  have hafter : afterFlow card e x
      = (e.priceTiered x.1 card.provider card.region .internetEgress ⟨tiers⟩
          (bytesToGB x.2.txBytes)).1 := by
    rw [afterFlow, hflow]
  obtain ⟨hcost, hmeter'⟩ :=
    priceTiered_metered hmode hwf hmeter hx.1 hbill.1 hused (bytesToGB_nonneg x.2.txBytes)
  refine ⟨?_, ?_, fun hlen => ?_⟩
  · rw [hflow, ← hcost, add_sub_cancel_left]
  · rw [hafter, (priceTiered_store ..).2, hmode]
  · rw [hafter]
    exact Or.inl (hmeter' hlen)

/-- **A month of flows costs the interval the meter moves over.** -/
theorem transferOut_calculateFlows (hrate : card.rates .internetEgress = some ⟨tiers⟩)
    (hwf : Bands.WellFormed Tier.upToGB tiers) :
    ∀ {flows : List (Time × FlowRecord)} {e : Engine} {used : ℚ},
      e.mode = .singleMeter → 0 ≤ used →
      (1 < tiers.length →
        e.Metered (meterKey card.provider card.region .internetEgress) month used) →
      (∀ x ∈ flows, x.1.month = month ∧ IsEgress x.2) →
      History.Along (afterFlow card) (OnBill card) e flows →
      transferOut card flows (e.calculateFlows card flows).2
        = Bands.charge Tier.upToGB Tier.perGB 0 tiers used
            (used + (flows.map fun x => bytesToGB x.2.txBytes).sum) := by
  intro flows
  induction flows with
  | nil =>
    intro e used _ _ _ _ _
    rw [List.map_nil, List.sum_nil, add_zero, Bands.charge_of_le _ _ le_rfl]
    rfl
  | cons x flows ih =>
    intro e used hmode hused hmeter hflows hbill
    obtain ⟨hbill, hrest⟩ := hbill
    have hgb := bytesToGB_nonneg x.2.txBytes
    obtain ⟨hhead, hmode', hmeter'⟩ := calculateFlow_metered hrate hwf hmode hused hmeter
      (hflows x (List.mem_cons_self ..)) hbill
    have htail := ih hmode' (add_nonneg hused hgb) hmeter'
      (fun y hy => hflows y (List.mem_cons_of_mem x hy)) hrest
    have hsum : 0 ≤ (flows.map fun x => bytesToGB x.2.txBytes).sum := by
      refine List.sum_nonneg fun y hy => ?_
      obtain ⟨x', -, rfl⟩ := List.mem_map.mp hy
      exact bytesToGB_nonneg _
    rw [calculateFlows_cons, transferOut, hhead, htail, List.map_cons, List.sum_cons, ← add_assoc]
    -- the first flow's interval and that of the others are adjacent
    exact Bands.charge_add _ _ (le_add_of_nonneg_right hgb) (le_add_of_nonneg_right hsum) 0 tiers

end

/-- Batches of one provider and region are priced like their concatenation. -/
theorem calculateBatches_eq {card : ExactCard} :
    ∀ {batches : List (List (Time × FlowRecord))} {e : Engine},
      e.store.get card.provider card.region = some card →
      (e.calculateBatches card.provider card.region batches).2.flatten
        = (e.calculateFlows card batches.flatten).2 := by
  intro batches
  induction batches with
  | nil => exact fun _ => rfl
  | cons flows batches ih =>
    intro e hcard
    have hcalc : e.calculate card.provider card.region flows = e.calculateFlows card flows := by
      rw [Engine.calculate, hcard]
    have hcard' : (e.calculateFlows card flows).1.store.get card.provider card.region
        = some card := by
      rw [(calculateFlows_store e card flows).1, hcard]
    rw [List.flatten_cons, calculateFlows_append, ← ih hcard', ← hcalc]
    rfl

/-- The costs are the data-transfer-out charges and the NAT processing. -/
theorem sum_calculateFlows (card : ExactCard) (flows : List (Time × FlowRecord)) (e : Engine) :
    (e.calculateFlows card flows).2.sum
      = transferOut card flows (e.calculateFlows card flows).2
        + (flows.map fun x => processing card x.2).sum := by
  induction flows generalizing e with
  | nil => exact (add_zero 0).symm
  | cons x flows ih =>
    rw [calculateFlows_cons, List.sum_cons, ih, transferOut, List.map_cons, List.sum_cons]
    ring

/-- The GiB that the NAT gateway meters of a flow. -/
def natGB (card : ExactCard) (flow : FlowRecord) : ℚ :=
  if flow.trafficType = .natGatewayEgress then
    bytesToGB (card.meteredBytes .natGatewayEgress flow.txBytes flow.rxBytes)
  else 0

theorem sum_processing (card : ExactCard) (flows : List (Time × FlowRecord)) :
    (flows.map fun x => processing card x.2).sum
      = card.natGateway.perGBUSD * (flows.map fun x => natGB card x.2).sum := by
  have hone : ∀ flow, processing card flow = card.natGateway.perGBUSD * natGB card flow := by
    intro flow
    rw [processing, natGB]
    split_ifs
    · exact mul_comm _ _
    · exact (mul_zero _).symm
  induction flows with
  | nil => exact (mul_zero _).symm
  | cons x flows ih =>
    rw [List.map_cons, List.sum_cons, ih, hone, List.map_cons, List.sum_cons, mul_add]

/-- A fresh engine has metered nothing, in its month and in any later one. -/
theorem metered_newEngineWithConfig (store : ExactStore) (mode : PricingMode) {now : Time}
    {month : ℤ} (h : now.month ≤ month) (key : String) :
    (newEngineWithConfig store mode now).Metered key month 0 := by
  rcases h.eq_or_lt with h | h
  · subst h
    exact Or.inl ⟨rfl, rfl⟩
  · exact Or.inr ⟨h, rfl, rfl⟩

/-- **The bill of a month.**  However the flows of a month are cut into batches
and in whatever order they come, the data-transfer-out charges add up to the
tiered cost of what they sent in total, and the rest is NAT processing, unless
a flow is costed at the very instant the engine's billing period ends, or the card
meters something else of a flow straight to the internet than it sends. -/
theorem singleMeter_bill {e : Engine} {card : ExactCard} {tiers : List ExactTier} {month : ℤ}
    {batches : List (List (Time × FlowRecord))}
    (hmode : e.mode = .singleMeter) (hcard : e.store.get card.provider card.region = some card)
    (hrate : card.rates .internetEgress = some ⟨tiers⟩)
    (hwf : Bands.WellFormed Tier.upToGB tiers)
    (hmeter : e.Metered (meterKey card.provider card.region .internetEgress) month 0)
    (hflows : ∀ x ∈ batches.flatten, x.1.month = month ∧ IsEgress x.2)
    (hbill : History.Along (afterFlow card) (OnBill card) e batches.flatten) :
    let costs := (e.calculateBatches card.provider card.region batches).2.flatten
    let txGB := (batches.flatten.map fun x => bytesToGB x.2.txBytes).sum
    transferOut card batches.flatten costs = tieredCost tiers 0 txGB ∧
      costs.sum = tieredCost tiers 0 txGB
        + card.natGateway.perGBUSD * (batches.flatten.map fun x => natGB card x.2).sum := by
  intro costs txGB
  have hcosts : costs = (e.calculateFlows card batches.flatten).2 := calculateBatches_eq hcard
  have htransfer : transferOut card batches.flatten costs = tieredCost tiers 0 txGB := by
    rw [hcosts,
      transferOut_calculateFlows hrate hwf hmode le_rfl (fun _ => hmeter) hflows hbill,
      zero_add, tieredCost_eq_charge hwf le_rfl]
  refine ⟨htransfer, ?_⟩
  rw [← htransfer, hcosts, sum_calculateFlows, sum_processing]

/-- Batches that meet the conditions of the bill: 60 GiB to the internet, then
50 GiB through the NAT gateway, which cross the bound of the free tier. -/
def mixedBatches : List (List (Time × FlowRecord)) :=
  [[(⟨0, 10⟩, ⟨.internetEgress, 60 * 1024 ^ 3, 0⟩)],
    [(⟨0, 20⟩, ⟨.natGatewayEgress, 50 * 1024 ^ 3, 10 * 1024 ^ 3⟩)]]

/-- An engine that meters AWS egress. -/
def awsMeter : Engine :=
  newEngineWithConfig (RateCardStore.new.set (defaultAWSRateCard "us-east-1")) .singleMeter ⟨0, 5⟩

theorem singleMeter_bill_mixed :
    transferOut (defaultAWSRateCard "us-east-1") mixedBatches.flatten
        (awsMeter.calculateBatches "aws" "us-east-1" mixedBatches).2.flatten = 10 * 0.09 ∧
      (awsMeter.calculateBatches "aws" "us-east-1" mixedBatches).2.flatten.sum
        = 10 * 0.09 + 60 * 0.045 := by
  have hflows : ∀ x ∈ mixedBatches.flatten, x.1.month = 0 ∧ IsEgress x.2 := by
    simp [mixedBatches, IsEgress]
  have hbill : History.Along (afterFlow (defaultAWSRateCard "us-east-1"))
      (OnBill (defaultAWSRateCard "us-east-1")) awsMeter mixedBatches.flatten := by
    decide +kernel
  have h := singleMeter_bill rfl (RateCardStore.get_set _ _) rfl
    ⟨by decide +kernel, by decide +kernel⟩ (metered_newEngineWithConfig _ _ le_rfl _) hflows hbill
  refine ⟨h.1.trans ?_, h.2.trans ?_⟩
  · decide +kernel
  · decide +kernel

/-- A flow at the first instant of the month is still metered in the period
that has ended, and the next one restarts the meter: 101 GiB of a month bill as
100 and 1. -/
theorem singleMeter_restarts :
    let batches : List (List (Time × FlowRecord)) :=
      [[(⟨1, 0⟩, ⟨.internetEgress, 100 * 1024 ^ 3, 0⟩),
        (⟨1, 1⟩, ⟨.internetEgress, 1024 ^ 3, 0⟩)]]
    transferOut (defaultAWSRateCard "us-east-1") batches.flatten
        (awsMeter.calculateBatches "aws" "us-east-1" batches).2.flatten = 0 ∧
      tieredCost [⟨(100 : ℚ), 0⟩, ⟨(10 * 1024 : ℚ), 0.09⟩, ⟨(50 * 1024 : ℚ), 0.085⟩,
        ⟨(150 * 1024 : ℚ), 0.07⟩, ⟨⊤, 0.05⟩] 0
        (batches.flatten.map fun x => bytesToGB x.2.txBytes).sum = 0.09 := by
  decide +kernel

end Engine
