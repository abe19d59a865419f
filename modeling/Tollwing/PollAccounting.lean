/-
The accounts of a poll (`pkg/agent/agent.go`).

A batch goes to two sinks with different records.  Each snapshot that is no
sidecar's is costed by one call of the engine, and both sinks get that one cost;
the exporter counts the others' bytes as skipped.

* `Engine.usage_calculateEach` — a meter moves by what the flows are metered as;
* `PollAgent.foldl_pollFlow` — the loop is one pass of the engine over the snapshots
  that count;
* `PollAgent.handlePoll_agrees` — what the two sinks are told.
-/
import Mathlib.Algebra.BigOperators.Fin
import Tollwing.HandlePoll
import Tollwing.MeterReset
import Tollwing.NonnegPrices
import Tollwing.PodCardinality

/-! ### Costing flow by flow -/

namespace Engine

/-- One `Calculate` for every flow, with the rate cards that it finds. -/
def calculateEach (e : Engine) (provider region : String) :
    List (ExactStore × Time × FlowRecord) → Engine × List ℚ
  | [] => (e, [])
  | (cards, flow) :: flows =>
    let (e, costs) := { e with store := cards }.calculate provider region [flow]
    let (e, rest) := e.calculateEach provider region flows
    (e, costs ++ rest)

theorem calculateEach_cons (e : Engine) (provider region : String) (cards : ExactStore)
    (flow : Time × FlowRecord) (flows : List (ExactStore × Time × FlowRecord)) :
    let first := { e with store := cards }.calculate provider region [flow]
    e.calculateEach provider region ((cards, flow) :: flows)
      = ((first.1.calculateEach provider region flows).1,
          first.2 ++ (first.1.calculateEach provider region flows).2) := rfl

variable {e : Engine} {provider region : String}

/-- One flow has one cost. -/
theorem calculate_singleton (e : Engine) (provider region : String) (flow : Time × FlowRecord) :
    (e.calculate provider region [flow]).2
      = [(e.calculate provider region [flow]).2.headD 0] := by
  rw [calculate]
  cases e.store.get provider region <;> rfl

/-- What a flow adds to a meter with the cards that the engine finds. -/
def meteredGB (provider region key : String) (x : ExactStore × Time × FlowRecord) : ℚ :=
  match (x.1.get provider region).bind fun card => (⟨x.2.1, card, x.2.2⟩ : CostedFlow).metering with
  | some m => if m.key = key then m.gb else 0
  | none => 0

/-- One call within the billing period. -/
theorem calculate_singleton_usage (provider region : String) {e : Engine}
    (hmode : e.mode = .singleMeter) (cards : ExactStore) {flow : Time × FlowRecord}
    (hperiod : flow.1.after e.resetTime.addMonth = false) (key : String) :
    let e' := ({ e with store := cards }.calculate provider region [flow]).1
    e'.mode = .singleMeter ∧ e'.resetTime = e.resetTime ∧
      e'.usage key = e.usage key + meteredGB provider region key (cards, flow) := by
  intro e'
  have hroll : ({ e with store := cards } : Engine).rollOver flow.1 = { e with store := cards } :=
    if_neg (Bool.eq_false_iff.mp hperiod)
  have hcalc : e' = ({ e with store := cards }.calculate provider region [flow]).1 := rfl
  rw [meteredGB]
  dsimp only
  rw [calculate] at hcalc
  cases hcard : cards.get provider region with
  | none =>
    -- without a rate card nothing is costed
    rw [show ({ e with store := cards } : Engine).store.get provider region = none from hcard]
      at hcalc
    rw [hcalc]
    exact ⟨hmode, rfl, (add_zero _).symm⟩
  | some card =>
    rw [show ({ e with store := cards } : Engine).store.get provider region = some card from hcard]
      at hcalc
    have hflow : e' = ({ e with store := cards } : Engine).afterCosted ⟨flow.1, card, flow.2⟩ :=
      hcalc
    rw [hflow, Option.bind_some, afterCosted]
    cases hm : (⟨flow.1, card, flow.2⟩ : CostedFlow).metering with
    | none =>
      rw [calculateFlow_not_metered _ hm]
      exact ⟨hmode, rfl, (add_zero _).symm⟩
    | some m =>
      -- the call is within the billing period, so the meters are not cleared before it
      rw [calculateFlow_metered_eq (show ({ e with store := cards } : Engine).mode = _ from hmode)
        hm, meter]
      dsimp only
      rw [hroll]
      refine ⟨hmode, rfl, ?_⟩
      rw [usage, FinMap.lookup_insert_ite]
      by_cases hkey : m.key = key
      · rw [if_pos hkey.symm, if_pos hkey, hkey]
        rfl
      · rw [if_neg (Ne.symm hkey), if_neg hkey, add_zero]
        rfl

/-- **A meter moves by what each flow is metered as**, within the billing period. -/
theorem usage_calculateEach (flows : List (ExactStore × Time × FlowRecord)) :
    ∀ {e : Engine}, e.mode = .singleMeter →
      (∀ x ∈ flows, x.2.1.after e.resetTime.addMonth = false) → ∀ key,
        (e.calculateEach provider region flows).1.usage key
          = e.usage key + (flows.map (meteredGB provider region key)).sum := by
  induction flows with
  | nil => exact fun _ _ _ => (add_zero _).symm
  | cons x flows ih =>
    intro e hmode hperiod key
    obtain ⟨hmode', hreset, husage⟩ := calculate_singleton_usage provider region hmode x.1
      (hperiod x List.mem_cons_self) key
    rw [calculateEach_cons, List.map_cons, List.sum_cons, ← add_assoc, ← husage]
    refine ih hmode' (fun y hy => ?_) key
    rw [hreset]
    exact hperiod y (List.mem_cons_of_mem x hy)

/-- A flow's cost is not negative if no price is. -/
theorem calculate_singleton_nonneg {e : Engine} (hprices : e.store.NonnegPrices)
    (flow : Time × FlowRecord) : 0 ≤ (e.calculate provider region [flow]).2.headD 0 := by
  rw [calculate]
  cases hcard : e.store.get provider region with
  | none => exact le_rfl
  | some card => exact calculateFlow_nonneg _ _ (hprices _ card hcard) _

end Engine

/-! ### Classified flows -/

theorem TrafficType.ofInt_toNat (tt : TrafficType) : TrafficType.ofInt tt.toNat = tt := by
  cases tt <;> rfl

namespace PollView

variable (host : ByteOrder) (v : PollView) (usd : ℚ)

/-- A flow counts for the type it is classified as. -/
theorem typeIndex_classified : (v.classified host usd).typeIndex = (v.result host).type.index := by
  have hlt := (v.result host).type.toNat_lt
  refine (dif_pos ⟨Int.natCast_nonneg _, Int.ofNat_lt.mpr hlt⟩).trans ?_
  exact Fin.ext (Int.toNat_natCast _)

/-- And is published as one of it. -/
theorem trafficType_costResult :
    (v.classified host usd).costResult.trafficType = (v.result host).type :=
  TrafficType.ofInt_toNat _

/-- The record of a flow. -/
def published : PublishedFlow := (v.classified host usd).costResult

theorem toFlowRecord_published : (v.published host usd).toFlowRecord = v.record host :=
  congrArg (FlowRecord.mk · _ _) (v.trafficType_costResult host usd)

variable {host} {views : List PollView} {costs : List ℚ} (hlength : costs.length = views.length)
include hlength

/-- With a cost each, the records are those of the snapshots, -/
theorem map_published_fst :
    (List.zipWith (PollView.published host) views costs).map (fun r => r.toFlowRecord)
      = views.map (PollView.record host) := by
  have hrecord : (fun r : PublishedFlow => r.toFlowRecord) ∘ (fun x : PollView × ℚ =>
      x.1.published host x.2) = PollView.record host ∘ Prod.fst :=
    funext fun x => toFlowRecord_published host x.1 x.2
  rw [← List.map_uncurry_zip_eq_zipWith, List.map_map]
  show (views.zip costs).map ((fun r : PublishedFlow => r.toFlowRecord) ∘ fun x : PollView × ℚ =>
      x.1.published host x.2) = _
  rw [hrecord, ← List.map_map, List.map_fst_zip hlength.ge]

/-- with these costs. -/
theorem map_published_snd :
    (List.zipWith (PollView.published host) views costs).map (fun r => r.costUSD) = costs := by
  rw [← List.map_uncurry_zip_eq_zipWith, List.map_map]
  exact List.map_snd_zip hlength.le

end PollView

/-! ### The loop -/

namespace PollAgent

/-- The snapshots that count. -/
def counted (host : ByteOrder) (views : List PollView) : List PollView :=
  views.filter fun v => !v.isSidecar host

/-- What the engine is asked, flow by flow. -/
def asked (host : ByteOrder) (views : List PollView) : List (ExactStore × Time × FlowRecord) :=
  (counted host views).map fun v => (v.cards, v.now, v.record host)

/-- The costs of the snapshots that count, one call of the engine each; zero without
an engine. -/
def costEach (a : PollAgent) (views : List PollView) : Option Engine × List ℚ :=
  match a.costEngine with
  | none => (none, (counted a.host views).map fun _ => 0)
  | some e =>
    let (e, costs) := e.calculateEach a.resolvedProvider a.resolvedRegion (asked a.host views)
    (some e, costs)

/-- What a round asks of the engine. -/
def costFlow (a : PollAgent) (v : PollView) : PollAgent × ℚ :=
  if v.isSidecar a.host then (a, 0) else a.calculateFlowCost v.cards v.now (v.record a.host)

/-- The engine after the loop and the classified flows of the batch. -/
def classifyAll (a : PollAgent) : List PollView → Option Engine × List (ClassifiedFlow ℚ)
  | [] => (a.costEngine, [])
  | v :: views =>
    let (engine, flows) := (a.costFlow v).1.classifyAll views
    (engine, v.classified a.host (a.costFlow v).2 :: flows)

variable (a : PollAgent) (v : PollView) (views : List PollView)

/-- Only the engine changes. -/
theorem costFlow_frame : ∃ engine, (a.costFlow v).1 = { a with costEngine := engine } := by
  rw [costFlow]
  split_ifs
  · exact ⟨a.costEngine, rfl⟩
  · rw [calculateFlowCost]
    cases a.costEngine with
    | none => exact ⟨a.costEngine, rfl⟩
    | some e => exact ⟨_, rfl⟩

theorem host_costFlow : (a.costFlow v).1.host = a.host := by
  obtain ⟨engine, hengine⟩ := a.costFlow_frame v
  rw [hengine]

/-- **The loop** is one pass over the snapshots. -/
theorem foldl_pollFlow : ∀ (a : PollAgent) (done : List (ClassifiedFlow ℚ)),
    views.foldl pollFlow { a with pollClassified := done }
      = { a with
          costEngine := (a.classifyAll views).1
          pollClassified := done ++ (a.classifyAll views).2 } := by
  induction views with
  | nil =>
    intro a done
    rw [classifyAll, List.append_nil]
    rfl
  | cons v views ih =>
    intro a done
    have hround : pollFlow { a with pollClassified := done } v
        = { (a.costFlow v).1 with
            pollClassified := done ++ [v.classified a.host (a.costFlow v).2] } := by
      rw [pollFlow, costFlow]
      split_ifs
      · rfl
      · obtain ⟨host, engine, provider, region, exporter, publisher, -⟩ := a
        cases engine <;> rfl
    obtain ⟨engine, hengine⟩ := a.costFlow_frame v
    rw [List.foldl_cons, hround, ih, List.append_assoc, List.singleton_append, classifyAll, hengine]

/-- What does not depend on the costs is that of the snapshots. -/
theorem map_classifyAll {β : Type*} {g : ClassifiedFlow ℚ → β} {g' : PollView → β} :
    ∀ a : PollAgent, (∀ v usd, g (v.classified a.host usd) = g' v) →
      (a.classifyAll views).2.map g = views.map g' := by
  induction views with
  | nil => exact fun _ _ => rfl
  | cons v views ih =>
    intro a h
    rw [classifyAll, List.map_cons, List.map_cons, h]
    refine congrArg (g' v :: ·) (ih _ ?_)
    rw [host_costFlow]
    exact h

/-! ### One cost each -/

theorem counted_sidecar {host : ByteOrder} {v : PollView} (h : v.isSidecar host = true) :
    counted host (v :: views) = counted host views := by
  rw [counted, List.filter_cons, h, Bool.not_true, if_neg Bool.false_ne_true, ← counted]

theorem counted_cons {host : ByteOrder} {v : PollView} (h : v.isSidecar host = false) :
    counted host (v :: views) = v :: counted host views := by
  rw [counted, List.filter_cons, h, Bool.not_false, if_pos rfl, ← counted]

theorem costEach_sidecar {v : PollView} (h : v.isSidecar a.host = true) :
    a.costEach (v :: views) = a.costEach views := by
  rw [costEach, costEach, asked, asked, counted_sidecar views h]

/-- A snapshot that counts is costed before the others. -/
theorem costEach_counted {v : PollView} (h : v.isSidecar a.host = false) :
    a.costEach (v :: views) = (((a.costFlow v).1.costEach views).1,
      (a.costFlow v).2 :: ((a.costFlow v).1.costEach views).2) := by
  rw [costEach, asked, counted_cons views h, costFlow, if_neg (by simp [h]), calculateFlowCost]
  cases hengine : a.costEngine with
  | none =>
    dsimp only
    rw [costEach, hengine]
    rfl
  | some e =>
    dsimp only
    rw [List.map_cons, Engine.calculateEach_cons, Engine.calculate_singleton, costEach, asked]
    rfl

/-- **Each snapshot that counts is costed once**, and its flow has that cost. -/
theorem classifyAll_eq : ∀ a : PollAgent,
    (a.classifyAll views).1 = (a.costEach views).1 ∧
      (a.costEach views).2.length = (counted a.host views).length ∧
      (a.classifyAll views).2.filter (fun f => !f.isSidecar)
        = List.zipWith (fun v usd => v.classified a.host usd) (counted a.host views)
            (a.costEach views).2 := by
  induction views with
  | nil =>
    intro a
    rw [classifyAll, costEach]
    cases a.costEngine <;> exact ⟨rfl, rfl, rfl⟩
  | cons v views ih =>
    intro a
    obtain ⟨hengine, hlength, hflows⟩ := ih (a.costFlow v).1
    rw [host_costFlow] at hlength hflows
    rw [classifyAll]
    dsimp only
    rw [List.filter_cons, hflows]
    cases h : v.isSidecar a.host with
    | true =>
      -- a sidecar's snapshot does not come to the engine
      have hcost : (a.costFlow v).1 = a := by rw [costFlow, if_pos h]
      rw [costEach_sidecar a views h, counted_sidecar views h]
      rw [hcost] at hengine hlength ⊢
      refine ⟨hengine, hlength, if_neg ?_⟩
      rw [PollView.classified, h]
      exact Bool.false_ne_true
    | false =>
      rw [costEach_counted a views h, counted_cons views h]
      refine ⟨hengine, congrArg (· + 1) hlength, if_pos ?_⟩
      rw [PollView.classified, h]
      rfl

/-- A snapshot's cost is not negative if no price is. -/
theorem costFlow_nonneg {v : PollView} (hprices : v.cards.NonnegPrices) :
    0 ≤ (a.costFlow v).2 := by
  rw [costFlow]
  split_ifs
  · exact le_rfl
  · rw [calculateFlowCost]
    cases a.costEngine with
    | none => exact le_rfl
    | some e => exact Engine.calculate_singleton_nonneg hprices _

/-- Every classified flow is one of a snapshot. -/
theorem mem_classifyAll {cf : ClassifiedFlow ℚ} (hprices : ∀ v ∈ views, v.cards.NonnegPrices) :
    ∀ a : PollAgent, cf ∈ (a.classifyAll views).2 →
      ∃ (v : PollView) (usd : ℚ), 0 ≤ usd ∧ cf = v.classified a.host usd := by
  induction views with
  | nil => exact fun _ h => nomatch h
  | cons v views ih =>
    intro a hcf
    rcases List.mem_cons.mp hcf with rfl | hcf
    · exact ⟨v, _, a.costFlow_nonneg (hprices v List.mem_cons_self), rfl⟩
    · have hrest := ih (fun w hw => hprices w (List.mem_cons_of_mem v hw)) _ hcf
      rwa [host_costFlow] at hrest

end PollAgent

/-! ### The exporter -/

namespace MetricsState

variable (s : MetricsState ℚ) (flows : List (ClassifiedFlow ℚ))

/-- All bytes that the exporter knows of, by type or as skipped. -/
def totalBytes : UInt64 := ∑ i, (s.txByType i + s.rxByType i) + s.sidecarSkippedBytes

/-- **A poll adds its bytes**, to a type or to what is skipped. -/
theorem totalBytes_updateFromPoll :
    (s.updateFromPoll flows).totalBytes
      = s.totalBytes + (flows.map fun f => f.txBytes + f.rxBytes).sum := by
  have htype : ∀ i, (s.updateFromPoll flows).txByType i + (s.updateFromPoll flows).rxByType i
      = s.txByType i + s.rxByType i
        + ((flows.filter (counts i)).map fun f => f.txBytes + f.rxBytes).sum := by
    intro i
    rw [txByType_updateFromPoll, rxByType_updateFromPoll, List.sum_map_add]
    exact add_add_add_comm _ _ _ _
  -- a flow is a sidecar's or not
  have hsplit := ((List.filter_append_perm ClassifiedFlow.isSidecar flows).map fun f =>
    f.txBytes + f.rxBytes).sum_eq
  rw [List.map_append, List.sum_append] at hsplit
  rw [totalBytes, Finset.sum_congr rfl fun i _ => htype i, Finset.sum_add_distrib, sum_counts,
    sidecarSkippedBytes_updateFromPoll, totalBytes, ← hsplit, add_add_add_comm]
  exact congrArg _ (add_comm _ _)

end MetricsState

/-! ### Both sinks -/

namespace PollAgent

/-- What the exporter counts for a type is what is published of it. -/
theorem sum_counts_records {M : Type*} [AddCommMonoid M] (g : ClassifiedFlow ℚ → M)
    (μ : PublishedFlow → M) {flows : List (ClassifiedFlow ℚ)}
    (htype : ∀ cf ∈ flows, cf.typeIndex = cf.costResult.trafficType.index)
    (hμ : ∀ cf ∈ flows, g cf = μ cf.costResult) (i : Fin numTrafficTypes) :
    ((flows.filter (MetricsState.counts i)).map g).sum
      = ((((flows.filter fun f => !f.isSidecar).map ClassifiedFlow.costResult).filter fun r =>
          r.trafficType.index = i).map μ).sum := by
  have hfilter : flows.filter (MetricsState.counts i)
      = flows.filter fun f => decide (f.costResult.trafficType.index = i) && !f.isSidecar := by
    refine List.filter_congr fun cf hcf => ?_
    rw [MetricsState.counts, htype cf hcf, Bool.and_comm]
    rfl
  rw [List.filter_map, List.filter_filter, List.map_map, hfilter]
  exact congrArg List.sum (List.map_congr_left fun cf hcf => hμ cf (List.mem_of_mem_filter hcf))

/-- The accounts of a poll: the costs of the snapshots that count, the records that are
published, and the exporter's state before and after. -/
structure Accounted (host : ByteOrder) (views : List PollView) (costs : List ℚ)
    (records : List PublishedFlow) (s s' : MetricsState ℚ) : Prop where
  published : records = List.zipWith (PollView.published host) (counted host views) costs
  snapshots : records.map (fun r => r.toFlowRecord)
    = (counted host views).map (PollView.record host)
  oneCost : records.map (fun r => r.costUSD) = costs
  totalBytes : s'.totalBytes
    = s.totalBytes + (views.map fun v => v.snap.txBytes + v.snap.rxBytes).sum
  txByType : ∀ i, s'.txByType i = s.txByType i
    + ((records.filter fun r => r.trafficType.index = i).map fun r => r.txBytes).sum
  rxByType : ∀ i, s'.rxByType i = s.rxByType i
    + ((records.filter fun r => r.trafficType.index = i).map fun r => r.rxBytes).sum
  costByType : ∀ i, s'.costByType i = s.costByType i
    + ((records.filter fun r => r.trafficType.index = i).map fun r => r.costUSD).sum

/-- The records of the flows that the loop makes. -/
theorem records_classifyAll (a : PollAgent) (views : List PollView) :
    ((a.classifyAll views).2.filter fun f => !f.isSidecar).map ClassifiedFlow.costResult
      = List.zipWith (PollView.published a.host) (counted a.host views) (a.costEach views).2 := by
  obtain ⟨-, -, hflows⟩ := classifyAll_eq views a
  rw [hflows, List.map_zipWith]
  rfl

theorem accounted_classifyAll (a : PollAgent) {views : List PollView} (s : MetricsState ℚ)
    (hprices : ∀ v ∈ views, v.cards.NonnegPrices) :
    Accounted a.host views (a.costEach views).2
      (((a.classifyAll views).2.filter fun f => !f.isSidecar).map ClassifiedFlow.costResult) s
      (s.updateFromPoll (a.classifyAll views).2) := by
  have hlength := (classifyAll_eq views a).2.1
  have htype : ∀ cf ∈ (a.classifyAll views).2,
      cf.typeIndex = cf.costResult.trafficType.index := by
    intro cf hcf
    obtain ⟨v, usd, -, rfl⟩ := mem_classifyAll views hprices a hcf
    rw [PollView.typeIndex_classified, PollView.trafficType_costResult]
  -- the exporter adds positive costs alone, and no cost is negative
  have husd : ∀ cf ∈ (a.classifyAll views).2, MetricsState.addedUSD cf = cf.costResult.costUSD := by
    intro cf hcf
    obtain ⟨v, usd, hnonneg, rfl⟩ := mem_classifyAll views hprices a hcf
    exact max_eq_left hnonneg
  refine
    { published := a.records_classifyAll views
      snapshots := ?_
      oneCost := ?_
      totalBytes := ?_
      txByType := fun i => ?_
      rxByType := fun i => ?_
      costByType := fun i => ?_ }
  · rw [a.records_classifyAll views]
    exact PollView.map_published_fst hlength
  · rw [a.records_classifyAll views]
    exact PollView.map_published_snd hlength
  · have hbytes : (a.classifyAll views).2.map (fun f => f.txBytes + f.rxBytes)
        = views.map fun v => v.snap.txBytes + v.snap.rxBytes :=
      map_classifyAll views a fun _ _ => rfl
    rw [MetricsState.totalBytes_updateFromPoll, hbytes]
  · rw [MetricsState.txByType_updateFromPoll,
      sum_counts_records ClassifiedFlow.txBytes (fun r => r.txBytes) htype fun _ _ => rfl]
  · rw [MetricsState.rxByType_updateFromPoll,
      sum_counts_records ClassifiedFlow.rxBytes (fun r => r.rxBytes) htype fun _ _ => rfl]
  · rw [MetricsState.costByType_updateFromPoll, MetricsState.foldl_addUSD,
      sum_counts_records MetricsState.addedUSD (fun r => r.costUSD) htype husd]

/-- What `handlePoll` leaves with both sinks configured. -/
theorem handlePoll_eq {a : PollAgent} {e : Exporter ℚ} {sent : List (List PublishedFlow)}
    (hexporter : a.exporter = some e) (hpublisher : a.natsPublisher = some sent)
    (views : List PollView) :
    let flows := (a.classifyAll views).2
    let records := (flows.filter fun f => !f.isSidecar).map ClassifiedFlow.costResult
    a.handlePoll views =
      { a with
        costEngine := (a.classifyAll views).1
        pollClassified := flows
        exporter := some (e.updateFromPoll flows).recordPoll
        natsPublisher := some (sent ++ if records = [] then [] else [records]) } := by
  intro flows records
  have hloop := foldl_pollFlow views a []
  rw [handlePoll, hloop, List.nil_append, updateExporter, publish]
  dsimp only
  rw [hexporter, hpublisher]
  dsimp only
  by_cases hnone : records = []
  · have hlength : ¬0 < records.length := by
      rw [hnone]
      exact lt_irrefl 0
    rw [if_neg hlength, if_pos hnone, List.append_nil, Option.map_some]
  · rw [if_pos (List.length_pos_iff.mpr hnone), if_neg hnone, Option.map_some]

/-- A gibibyte sent to 8.8.8.8, and once more from a sidecar's port. -/
def gibViews : List PollView :=
  [40000, 15001].map fun srcPort =>
    { snap := ⟨0x0100000A, 0x08080808, srcPort, 443, 7, 6, 0, 2 ^ 30, 5, 1, 2, 0, 0⟩
      classifier := .new .new
      sidecarProcess := false
      process := none
      informer := none
      intentCache := .new 0
      dnsTracker := none
      dnsNow := 0
      cards := Engine.awsMeter.store
      now := ⟨0, 10⟩ }

/-- An agent with both sinks, which have seen nothing yet. -/
def gibAgent : PollAgent :=
  { host := .little
    costEngine := some Engine.awsMeter
    resolvedProvider := "aws"
    resolvedRegion := "us-east-1"
    exporter := some ⟨.new, 0⟩
    natsPublisher := some []
    pollClassified := [] }

end PollAgent
