/-
The reports of the service graph (`pkg/servicegraph/attribution.go`).

`AttributeFrom`, `AttributeAll` and `Chokepoints` gather their rows by ranging
over a map, sort them by a rounded cost and cut them.  Dollars are floats here, so
a total that is added up in the order of a map depends on that order, too.  The
orders of the maps are arguments, and so is `sort.Slice`, which need not be stable.

* `ServiceGraph.CentsFixed`, `OriginsApart` — what the charges of a service add up to does
  not depend on their order, and tells it from the others;
* `ServiceGraph.reports_deterministic_iff` — the reports are the same for all orders
  if and only if that is so and no two rows that are equal to the sort compete for a place.
-/
import Tollwing.CycleSearch
import Tollwing.SliceSort

/-- `round2`: to cents. -/
def round2 (v : Float64) : Float64 := (v * 100.0).roundHalfAway / 100.0

/-- An edge and the dollars attributed to the origin through it. -/
structure EdgeContribution where
  src : NodeID
  dst : NodeID
  responsibility : Float64
  edgeCrossZoneUSD : Float64
  attributedUSD : Float64
  deriving DecidableEq

/-- What one origin is charged. -/
structure Attribution where
  origin : NodeID
  directCrossZoneUSD : Float64
  inducedCrossZoneUSD : Float64
  totalCrossZoneUSD : Float64
  topContributors : List EdgeContribution
  cyclesDetected : Bool

/-- A row of `AttributeAll`. -/
structure OriginAttribution where
  origin : NodeID
  totalCrossZoneUSD : Float64
  directCrossZoneUSD : Float64
  inducedCrossZoneUSD : Float64
  deriving DecidableEq

/-- A node with cross-zone cost on its edges; the score weights it by degree. -/
structure Chokepoint where
  node : NodeID
  crossZoneThroughUSD : Float64
  inDegree : ℕ
  outDegree : ℕ
  score : Float64
  deriving DecidableEq

/-- The orders in which a call ranges over the maps of the graph. -/
structure GraphOrders where
  nodes : RangeOrder NodeID
  edges : RangeOrder EdgeKey

namespace ServiceGraph

/-- What the loop over the edges appends for an edge. -/
def contribution (resp : NodeID → Float64) (topN : ℤ) (e : Edge Float64) :
    Option EdgeContribution :=
  (attributed resp e).bind fun attr =>
    if 0 ≤ topN then
      some ⟨e.src, e.dst, resp e.src, round2 e.crossZoneCost, round2 attr⟩
    else none

/-- `AttributeFrom`. -/
def attributeFrom (g : ServiceGraph Float64) (origin : NodeID) (opts : AttributeOpts Float64)
    (sortSlice : SliceSort (Higher EdgeContribution.attributedUSD)) (orders : GraphOrders) :
    Attribution :=
  if origin ∉ g.nodes then ⟨origin, 0, 0, 0, [], false⟩
  else
    let topN := opts.setDefaults.topN
    let direct := g.directIn orders.edges opts origin
    let induced := g.inducedIn orders.edges opts origin
    let contribs := (g.edges.listed orders.edges).filterMap fun e =>
      contribution (g.responsibility opts origin) topN e.2
    { origin := origin
      directCrossZoneUSD := round2 direct
      inducedCrossZoneUSD := round2 induced
      totalCrossZoneUSD := round2 (direct + induced)
      topContributors := cut topN (sortSlice.sort contribs)
      cyclesDetected := g.hasCycle orders.nodes = some true }

/-- What `AttributeAll` appends for a node, given the attribution from there. -/
def originRow (g : ServiceGraph Float64) (id : NodeID) (n : Node Float64) (a : Attribution) :
    Option OriginAttribution :=
  if n.id.kind ≠ .kindService ∨ (g.outKeys id).length = 0 then none
  else if a.totalCrossZoneUSD == 0 then none
  else some ⟨id, a.totalCrossZoneUSD, a.directCrossZoneUSD, a.inducedCrossZoneUSD⟩

/-- `AttributeAll`; each call of `AttributeFrom` ranges over the maps in orders of its own. -/
def attributeAll (g : ServiceGraph Float64) (opts : AttributeOpts Float64)
    (sortContribs : SliceSort (Higher EdgeContribution.attributedUSD))
    (sortSlice : SliceSort (Higher OriginAttribution.totalCrossZoneUSD))
    (order : RangeOrder NodeID) (orders : NodeID → GraphOrders) : List OriginAttribution :=
  -- the lists of contributors are left out here
  let opts := { opts with topN := -1 }
  sortSlice.sort <| (g.nodes.listed order).filterMap fun e =>
    g.originRow e.1 e.2 (g.attributeFrom e.1 opts sortContribs (orders e.1))

/-- The cross-zone cost on the edges at a node: first those that enter it. -/
def throughUSD (g : ServiceGraph Float64) (id : NodeID) : Float64 :=
  KeyedFold.addUp ((g.inEdges id ++ g.outEdges id).map Edge.crossZoneCost)

/-- The number of edges at a node. -/
def degree {κ : Type*} (g : ServiceGraph κ) (id : NodeID) : ℕ :=
  (g.inKeys id).length + (g.outKeys id).length

/-- What `Chokepoints` appends for a node. -/
def chokepoint (g : ServiceGraph Float64) (id : NodeID) : Option Chokepoint :=
  let cz := g.throughUSD id
  if cz == 0 then none
  else
    some ⟨id, round2 cz, (g.inKeys id).length, (g.outKeys id).length,
      round2 (cz * (g.degree id : Float64))⟩

/-- `Chokepoints`. -/
def chokepoints (g : ServiceGraph Float64) (limit : ℤ)
    (sortSlice : SliceSort (Higher Chokepoint.score)) (order : RangeOrder NodeID) :
    List Chokepoint :=
  cut limit (sortSlice.sort ((g.nodes.listed order).filterMap fun e => g.chokepoint e.1))

/-! ### What does not depend on the order -/

/-- The loop that ends the iteration early tells the same in any order of the nodes. -/
theorem maxDeltaIn_lt_iff (order : RangeOrder NodeID) (g : ServiceGraph Float64)
    {epsilon : Float64} {resp next : NodeID → Float64} :
    g.maxDeltaIn order resp next < epsilon ↔ g.MaxDeltaBelow epsilon resp next := by
  rw [maxDeltaIn, Float64.foldl_max_lt_iff _ (by decide +kernel), MaxDeltaBelow, List.forall_mem_map]
  exact and_congr_right fun _ => forall_congr' fun id => imp_congr_left (order.mem_keys _ id)

/-- And so does the cost of an edge in any order of its types. -/
theorem crossZoneCostIn_eq (order : RangeOrder String) (e : Edge Float64) :
    e.crossZoneCostIn order = e.crossZoneCost :=
  Edge.crossZoneCostIn_eq Float64.zero_add_add_comm order e

/-- The contributions that `AttributeFrom` sorts. -/
def contributions (g : ServiceGraph Float64) (origin : NodeID) (opts : AttributeOpts Float64) :
    Multiset EdgeContribution :=
  g.edges.found fun _ e => contribution (g.responsibility opts origin) opts.setDefaults.topN e

/-- The charges of a node, with the edges in some order. -/
def charges (g : ServiceGraph Float64) (opts : AttributeOpts Float64) (order : RangeOrder EdgeKey)
    (id : NodeID) : Attribution where
  origin := id
  directCrossZoneUSD := round2 (g.directIn order opts id)
  inducedCrossZoneUSD := round2 (g.inducedIn order opts id)
  totalCrossZoneUSD := round2 (g.directIn order opts id + g.inducedIn order opts id)
  topContributors := []
  cyclesDetected := false

/-- The rows that `AttributeAll` sorts, when every call takes the edges in one order. -/
def originRows (g : ServiceGraph Float64) (opts : AttributeOpts Float64)
    (order : RangeOrder EdgeKey) : Multiset OriginAttribution :=
  g.nodes.found fun id n => g.originRow id n (g.charges { opts with topN := -1 } order id)

/-- The rows that `Chokepoints` sorts. -/
def chokepointRows (g : ServiceGraph Float64) : Multiset Chokepoint :=
  g.nodes.found fun id _ => g.chokepoint id

/-- The row of a node depends neither on the order of the nodes nor on the sort inside. -/
theorem originRow_attributeFrom {g : ServiceGraph Float64} {id : NodeID} {n : Node Float64}
    (hid : g.nodes.lookup id = some n) (opts : AttributeOpts Float64)
    (sortContribs : SliceSort (Higher EdgeContribution.attributedUSD)) (orders : GraphOrders) :
    g.originRow id n (g.attributeFrom id opts sortContribs orders)
      = g.originRow id n (g.charges opts orders.edges id) := by
  rw [attributeFrom, if_neg (not_not_intro (Finmap.mem_of_lookup_eq_some hid))]
  rfl

/-- A row tells its node. -/
theorem origin_of_originRow {g : ServiceGraph Float64} {id : NodeID} {n : Node Float64}
    {a : Attribution} {row : OriginAttribution} (h : g.originRow id n a = some row) :
    row.origin = id := by
  rw [originRow] at h
  split_ifs at h
  rw [← Option.some_inj.mp h]

/-- Without the origin there are no contributions. -/
theorem contributions_of_notMem {g : ServiceGraph Float64} {origin : NodeID} (h : origin ∉ g.nodes)
    (opts : AttributeOpts Float64) : g.contributions origin opts = 0 := by
  have hzero : ((0 : Float64) == 0) = true := by decide +kernel
  refine Multiset.eq_zero_of_forall_notMem fun c hc => ?_
  obtain ⟨_, e, -, he⟩ := FinMap.mem_found.mp hc
  rw [responsibility, if_pos h, contribution, attributed] at he
  simp [hzero] at he

/-! ### One report at a time -/

/-- **The top contributors are the same for all orders** if and only if the
contributions are settled. -/
theorem topContributors_deterministic_iff (g : ServiceGraph Float64) (origin : NodeID)
    (opts : AttributeOpts Float64) :
    (∀ sortSlice orders orders',
      (g.attributeFrom origin opts sortSlice orders).topContributors
        = (g.attributeFrom origin opts sortSlice orders').topContributors) ↔
      Settled EdgeContribution.attributedUSD opts.setDefaults.topN
        (g.contributions origin opts) := by
  by_cases horigin : origin ∈ g.nodes
  · have hgathered := settled_iff EdgeContribution.attributedUSD opts.setDefaults.topN
      (fun orders : GraphOrders => (g.edges.listed orders.edges).filterMap fun e =>
        contribution (g.responsibility opts origin) opts.setDefaults.topN e.2)
      (m := g.contributions origin opts)
      (fun orders => g.edges.coe_gather
        (fun _ e => contribution (g.responsibility opts origin) opts.setDefaults.topN e)
        orders.edges)
      (fun a ha b hb hab => by
        obtain ⟨order, order', hne⟩ := FinMap.exists_gather_ne ha hb hab
        obtain ⟨nodes⟩ := RangeOrder.nonempty (κ := NodeID)
        exact ⟨⟨nodes, order⟩, ⟨nodes, order'⟩, hne⟩)
    rw [← hgathered]
    simp only [attributeFrom, if_neg (not_not_intro horigin)]
  · rw [contributions_of_notMem horigin]
    refine iff_of_true (fun sortSlice orders orders' => ?_) fun a ha => ?_
    · rw [attributeFrom, attributeFrom, if_pos horigin, if_pos horigin]
    · exact absurd ha (Multiset.notMem_zero a)

/-- The charges for the edges with a property. -/
def chargesWhere (g : ServiceGraph Float64) (opts : AttributeOpts Float64) (origin : NodeID)
    (p : Edge Float64 → Bool) : Multiset Float64 :=
  g.edges.found fun _ e => if p e then attributed (g.responsibility opts origin) e else none

/-- The charges of an origin, in some order: for its own edges, and for the others. -/
structure ListsCharges (g : ServiceGraph Float64) (opts : AttributeOpts Float64) (origin : NodeID)
    (direct induced : List Float64) : Prop where
  direct : (direct : Multiset Float64) = g.chargesWhere opts origin fun e => e.src = origin
  induced : (induced : Multiset Float64) = g.chargesWhere opts origin fun e => e.src ≠ origin

/-- What charges come to, in cents. -/
def attributionOf (origin : NodeID) (direct induced : List Float64) : Attribution where
  origin := origin
  directCrossZoneUSD := round2 (KeyedFold.addUp direct)
  inducedCrossZoneUSD := round2 (KeyedFold.addUp induced)
  totalCrossZoneUSD := round2 (KeyedFold.addUp direct + KeyedFold.addUp induced)
  topContributors := []
  cyclesDetected := false

/-- Every order of the edges is one of the charges. -/
theorem charges_eq_attributionOf (g : ServiceGraph Float64) (opts : AttributeOpts Float64)
    (order : RangeOrder EdgeKey) (id : NodeID) :
    ∃ direct induced, g.ListsCharges opts id direct induced ∧
      g.charges opts order id = attributionOf id direct induced := by
  have hlists : ∀ p : Edge Float64 → Bool,
      (((g.edges.listed order).filterMap fun e =>
        if p e.2 then attributed (g.responsibility opts id) e.2 else none : List Float64)
          : Multiset Float64) = g.chargesWhere opts id p := fun p =>
    g.edges.coe_gather (fun _ e => if p e then attributed (g.responsibility opts id) e else none)
      order
  exact ⟨_, _, ⟨hlists _, hlists _⟩, rfl⟩

/-- And every order of the charges is one of the edges. -/
theorem ListsCharges.exists_order {g : ServiceGraph Float64} {opts : AttributeOpts Float64}
    {id : NodeID} {direct induced : List Float64} (h : g.ListsCharges opts id direct induced) :
    ∃ order, g.charges opts order id = attributionOf id direct induced := by
  have hapart : ∀ (_ : EdgeKey) (e : Edge Float64),
      (if decide (e.src = id) = true then attributed (g.responsibility opts id) e else none) = none ∨
        (if decide (e.src ≠ id) = true then attributed (g.responsibility opts id) e else none)
          = none := by
    intro _ e
    by_cases hsrc : e.src = id <;> simp [hsrc]
  obtain ⟨order, rfl, rfl⟩ := FinMap.exists_gather_both hapart h.direct h.induced
  exact ⟨order, rfl⟩

/-- The service calls others. -/
def Calls (g : ServiceGraph Float64) (id : NodeID) : Prop :=
  ∃ n, g.nodes.lookup id = some n ∧ n.id.kind = .kindService ∧ (g.outKeys id).length ≠ 0

/-- The charges of every service that calls others add up to the same cents in whatever order
they are added, unless to nothing at all. -/
def CentsFixed (g : ServiceGraph Float64) (opts : AttributeOpts Float64) : Prop :=
  ∀ id, g.Calls id → ∀ direct induced direct' induced',
    g.ListsCharges { opts with topN := -1 } id direct induced →
    g.ListsCharges { opts with topN := -1 } id direct' induced' →
      let a := attributionOf id direct induced
      let a' := attributionOf id direct' induced'
      a = a' ∨ (a.totalCrossZoneUSD == 0) = true ∧ (a'.totalCrossZoneUSD == 0) = true

/-- The charges of no two services that call others add up to equal cents in all. -/
def OriginsApart (g : ServiceGraph Float64) (opts : AttributeOpts Float64) : Prop :=
  ∀ id id', g.Calls id → g.Calls id' → id ≠ id' → ∀ direct induced direct' induced',
    g.ListsCharges { opts with topN := -1 } id direct induced →
    g.ListsCharges { opts with topN := -1 } id' direct' induced' →
      let usd := (attributionOf id direct induced).totalCrossZoneUSD
      let usd' := (attributionOf id' direct' induced').totalCrossZoneUSD
      (usd == 0) = false → (usd' == 0) = false → usd < usd' ∨ usd' < usd

/-- In all orders of the edges, that is. -/
theorem centsFixed_iff_charges {g : ServiceGraph Float64} {opts : AttributeOpts Float64} :
    g.CentsFixed opts ↔ ∀ id, g.Calls id → ∀ order order',
      let a := g.charges { opts with topN := -1 } order id
      let a' := g.charges { opts with topN := -1 } order' id
      a = a' ∨ (a.totalCrossZoneUSD == 0) = true ∧ (a'.totalCrossZoneUSD == 0) = true := by
  refine forall₂_congr fun id _ => ?_
  constructor
  · intro h order order'
    obtain ⟨direct, induced, hlists, heq⟩ :=
      g.charges_eq_attributionOf { opts with topN := -1 } order id
    obtain ⟨direct', induced', hlists', heq'⟩ :=
      g.charges_eq_attributionOf { opts with topN := -1 } order' id
    rw [heq, heq']
    exact h _ _ _ _ hlists hlists'
  · intro h direct induced direct' induced' hlists hlists'
    obtain ⟨order, heq⟩ := hlists.exists_order
    obtain ⟨order', heq'⟩ := hlists'.exists_order
    rw [← heq, ← heq']
    exact h order order'

theorem originRow_eq (g : ServiceGraph Float64) (id : NodeID) (n : Node Float64) (a : Attribution) :
    g.originRow id n a
      = if n.id.kind = .kindService ∧ (g.outKeys id).length ≠ 0 ∧
            (a.totalCrossZoneUSD == 0) = false
        then some ⟨id, a.totalCrossZoneUSD, a.directCrossZoneUSD, a.inducedCrossZoneUSD⟩
        else none := by
  rw [originRow]
  by_cases hkind : n.id.kind = .kindService
  · by_cases hout : (g.outKeys id).length = 0
    · rw [if_pos (Or.inr hout), if_neg fun h => h.2.1 hout]
    · rw [if_neg fun h => h.elim (fun h => h hkind) hout]
      by_cases htotal : (a.totalCrossZoneUSD == 0) = true
      · rw [if_pos htotal, if_neg fun h => Bool.false_ne_true (h.2.2.symm.trans htotal)]
      · rw [if_neg htotal, if_pos ⟨hkind, hout, Bool.eq_false_of_not_eq_true htotal⟩]
  · rw [if_pos (Or.inl hkind), if_neg fun h => hkind h.1]

/-- Then its row is the same. -/
theorem centsFixed_iff {g : ServiceGraph Float64} {opts : AttributeOpts Float64} :
    g.CentsFixed opts ↔ ∀ id n, g.nodes.lookup id = some n → ∀ order order',
      g.originRow id n (g.charges { opts with topN := -1 } order id)
        = g.originRow id n (g.charges { opts with topN := -1 } order' id) := by
  rw [centsFixed_iff_charges]
  simp only [originRow_eq]
  constructor
  · intro h id n hid order order'
    by_cases hcalls : n.id.kind = .kindService ∧ (g.outKeys id).length ≠ 0
    · rcases h id ⟨n, hid, hcalls⟩ order order' with heq | ⟨hzero, hzero'⟩
      · rw [heq]
      · rw [hzero, hzero', if_neg fun h => Bool.false_ne_true h.2.2.symm,
          if_neg fun h => Bool.false_ne_true h.2.2.symm]
    · rw [if_neg fun h => hcalls ⟨h.1, h.2.1⟩, if_neg fun h => hcalls ⟨h.1, h.2.1⟩]
  · rintro h id ⟨n, hid, hkind, hout⟩ order order'
    have hrows := h id n hid order order'
    by_cases hzero : ((g.charges { opts with topN := -1 } order id).totalCrossZoneUSD == 0) = true
    · refine Or.inr ⟨hzero, ?_⟩
      by_contra hzero'
      rw [if_neg fun h => Bool.false_ne_true (h.2.2.symm.trans hzero),
        if_pos ⟨hkind, hout, Bool.eq_false_of_not_eq_true hzero'⟩] at hrows
      cases hrows
    · refine Or.inl ?_
      rw [if_pos ⟨hkind, hout, Bool.eq_false_of_not_eq_true hzero⟩] at hrows
      obtain ⟨-, hrow⟩ := Option.ite_some_none_eq_some.mp hrows.symm
      injection hrow with _ htotal hdirect hinduced
      exact Attribution.mk.injEq .. ▸ ⟨rfl, hdirect.symm, hinduced.symm, htotal.symm, rfl, rfl⟩

/-- The rows of `AttributeAll` before they are sorted. -/
theorem rows_attributeAll (g : ServiceGraph Float64) (opts : AttributeOpts Float64)
    (sortContribs : SliceSort (Higher EdgeContribution.attributedUSD)) (order : RangeOrder NodeID)
    (orders : NodeID → GraphOrders) :
    ((g.nodes.listed order).filterMap fun e => g.originRow e.1 e.2
        (g.attributeFrom e.1 { opts with topN := -1 } sortContribs (orders e.1)))
      = (g.nodes.listed order).filterMap fun e => g.originRow e.1 e.2
        (g.charges { opts with topN := -1 } (orders e.1).edges e.1) :=
  List.filterMap_congr fun e he =>
    originRow_attributeFrom (FinMap.mem_listed.mp he) _ sortContribs (orders e.1)

/-- What a list of rows has for a node. -/
theorem mem_rows_iff {g : ServiceGraph Float64} {id : NodeID} {n : Node Float64}
    (hid : g.nodes.lookup id = some n) (order : RangeOrder NodeID) (f : NodeID → Attribution)
    {row : OriginAttribution} (hrow : row.origin = id) :
    row ∈ ((g.nodes.listed order).filterMap fun e => g.originRow e.1 e.2 (f e.1))
      ↔ g.originRow id n (f id) = some row := by
  rw [List.mem_filterMap]
  constructor
  · rintro ⟨⟨id', n'⟩, he, hfound⟩
    have hid' : id' = id := (origin_of_originRow hfound).symm.trans hrow
    subst hid'
    rw [FinMap.mem_listed, hid] at he
    cases he
    exact hfound
  · exact fun h => ⟨(id, n), FinMap.mem_listed.mpr hid, h⟩

/-- **The list of the originators is the same for all orders** if and only if their cents
are and no two of them have equal totals. -/
theorem attributeAll_deterministic_iff (g : ServiceGraph Float64) (opts : AttributeOpts Float64) :
    (∀ sortContribs sortSlice order order' orders orders',
      g.attributeAll opts sortContribs sortSlice order orders
        = g.attributeAll opts sortContribs sortSlice order' orders') ↔
      g.CentsFixed opts ∧
        ∀ order, Settled OriginAttribution.totalCrossZoneUSD 0 (g.originRows opts order) := by
  obtain ⟨nodes⟩ := RangeOrder.nonempty (κ := NodeID)
  obtain ⟨sortContribs⟩ := SliceSort.nonempty EdgeContribution.attributedUSD
  obtain ⟨sortSlice⟩ := SliceSort.nonempty OriginAttribution.totalCrossZoneUSD
  have hgathered := fun edges : RangeOrder EdgeKey =>
    settled_iff OriginAttribution.totalCrossZoneUSD 0
      (fun order : RangeOrder NodeID => (g.nodes.listed order).filterMap fun e =>
        g.originRow e.1 e.2 (g.charges { opts with topN := -1 } edges e.1))
      (m := g.originRows opts edges)
      (fun order => g.nodes.coe_gather
        (fun id n => g.originRow id n (g.charges { opts with topN := -1 } edges id)) order)
      (fun a ha b hb hab => FinMap.exists_gather_ne ha hb hab)
  simp only [attributeAll, rows_attributeAll]
  rw [centsFixed_iff]
  constructor
  · intro hall
    refine ⟨fun id n hid order order' => ?_, fun edges => ?_⟩
    · -- two calls for one node, in two orders, list the same row
      have hsort := hall sortContribs sortSlice nodes nodes (fun _ => ⟨nodes, order⟩)
        fun _ => ⟨nodes, order'⟩
      have hperm := (sortSlice.perm _).symm.trans ((hsort ▸ sortSlice.perm _))
      have hrows : ∀ row : OriginAttribution, row.origin = id →
          (g.originRow id n (g.charges { opts with topN := -1 } order id) = some row
            ↔ g.originRow id n (g.charges { opts with topN := -1 } order' id) = some row) := by
        intro row hrow
        rw [← mem_rows_iff hid nodes (g.charges { opts with topN := -1 } order) hrow,
          ← mem_rows_iff hid nodes (g.charges { opts with topN := -1 } order') hrow]
        exact hperm.mem_iff.symm
      refine Option.ext fun row => ⟨fun h => ?_, fun h => ?_⟩
      · exact (hrows row (origin_of_originRow h)).mp h
      · exact (hrows row (origin_of_originRow h)).mpr h
    · rw [← hgathered edges]
      intro s order order'
      rw [cut_zero, cut_zero]
      exact hall sortContribs s order order' (fun _ => ⟨nodes, edges⟩) fun _ => ⟨nodes, edges⟩
  · rintro ⟨hcents, hsettled⟩ _ s order order' orders orders'
    obtain ⟨edges⟩ := RangeOrder.nonempty (κ := EdgeKey)
    have hfixed : ∀ (order : RangeOrder NodeID) (orders : NodeID → GraphOrders),
        ((g.nodes.listed order).filterMap fun e => g.originRow e.1 e.2
          (g.charges { opts with topN := -1 } (orders e.1).edges e.1))
        = (g.nodes.listed order).filterMap fun e => g.originRow e.1 e.2
          (g.charges { opts with topN := -1 } edges e.1) := fun order orders =>
      List.filterMap_congr fun e he => hcents e.1 e.2 (FinMap.mem_listed.mp he) _ _
    rw [hfixed, hfixed]
    have hcut := (hgathered edges).mpr (hsettled edges) s order order'
    rwa [cut_zero, cut_zero] at hcut

/-- **The chokepoints are the same for all orders** if and only if they are settled. -/
theorem chokepoints_deterministic_iff (g : ServiceGraph Float64) (limit : ℤ) :
    (∀ sortSlice order order',
      g.chokepoints limit sortSlice order = g.chokepoints limit sortSlice order') ↔
      Settled Chokepoint.score limit g.chokepointRows :=
  settled_iff _ _ _ (fun order => g.nodes.coe_gather (fun id _ => g.chokepoint id) order)
    fun _ ha _ hb hab => FinMap.exists_gather_ne ha hb hab

/-! ### The condition on the graph -/

/-- The reports of a graph are the same however its maps are ranged over. -/
structure Deterministic (g : ServiceGraph Float64) (origin : NodeID) (opts : AttributeOpts Float64)
    (limit : ℤ) : Prop where
  contributors : ∀ sortSlice orders orders',
    (g.attributeFrom origin opts sortSlice orders).topContributors
      = (g.attributeFrom origin opts sortSlice orders').topContributors
  origins : ∀ sortContribs sortSlice order order' orders orders',
    g.attributeAll opts sortContribs sortSlice order orders
      = g.attributeAll opts sortContribs sortSlice order' orders'
  chokepoints : ∀ sortSlice order order',
    g.chokepoints limit sortSlice order = g.chokepoints limit sortSlice order'

/-- Of the edges that the origin is charged for, those charged the same cents are
all cut off; with a negative limit none is listed. -/
def ContributorTiesCut (g : ServiceGraph Float64) (origin : NodeID) (opts : AttributeOpts Float64) :
    Prop :=
  g.edges.TiesCut
    (fun _ e => (attributed (g.responsibility opts origin) e).isSome ∧ 0 ≤ opts.setDefaults.topN)
    (fun _ e => round2 (edgeUSD (g.responsibility opts origin) e)) opts.setDefaults.topN

/-- With the edges in some order, no two services that are charged have the same total in
cents. -/
def OriginTiesCut (g : ServiceGraph Float64) (opts : AttributeOpts Float64)
    (order : RangeOrder EdgeKey) : Prop :=
  g.nodes.TiesCut
    (fun id n => n.id.kind = .kindService ∧ (g.outKeys id).length ≠ 0 ∧
      ((g.charges { opts with topN := -1 } order id).totalCrossZoneUSD == 0) = false)
    (fun id _ => (g.charges { opts with topN := -1 } order id).totalCrossZoneUSD) 0

/-- Charges that come to the same cents in all orders tell the services apart in one if they
do in all. -/
theorem CentsFixed.originTiesCut_iff {g : ServiceGraph Float64} {opts : AttributeOpts Float64}
    (h : g.CentsFixed opts) : (∀ order, g.OriginTiesCut opts order) ↔ g.OriginsApart opts := by
  rw [centsFixed_iff_charges] at h
  constructor
  · rintro hties id id' ⟨n, hid, hcalls⟩ ⟨n', hid', hcalls'⟩ hne direct induced direct' induced'
      hlists hlists' usd usd' husd husd'
    obtain ⟨order, heq⟩ := hlists.exists_order
    obtain ⟨order', heq'⟩ := hlists'.exists_order
    -- in the order of the one the other comes to the same cents
    have hother : (g.charges { opts with topN := -1 } order id').totalCrossZoneUSD = usd' := by
      rcases h id' ⟨n', hid', hcalls'⟩ order order' with hsame | ⟨-, hzero⟩
      · rw [hsame, heq']
      · rw [heq'] at hzero
        exact absurd (hzero.symm.trans husd') Bool.true_eq_false_eq_False
    have hone : (g.charges { opts with topN := -1 } order id).totalCrossZoneUSD = usd := by
      rw [heq]
    by_contra hnot
    have hcut := hties order id n id' n' hid hid' ⟨hcalls.1, hcalls.2, hone ▸ husd⟩
      ⟨hcalls'.1, hcalls'.2, hother ▸ husd'⟩ hne
    simp only [hone, hother] at hcut
    rw [not_or] at hnot
    exact absurd (hcut hnot.1 hnot.2).1 (lt_irrefl 0)
  · intro hapart order id n id' n' hid hid' hlisted hlisted' hne hlow hhigh
    obtain ⟨direct, induced, hlists, heq⟩ :=
      g.charges_eq_attributionOf { opts with topN := -1 } order id
    obtain ⟨direct', induced', hlists', heq'⟩ :=
      g.charges_eq_attributionOf { opts with topN := -1 } order id'
    simp only [heq, heq'] at hlisted hlisted' hlow hhigh
    rcases hapart id id' ⟨n, hid, hlisted.1, hlisted.2.1⟩ ⟨n', hid', hlisted'.1, hlisted'.2.1⟩ hne
      _ _ _ _ hlists hlists' hlisted.2.2 hlisted'.2.2 with hlt | hlt
    · exact absurd hlt hlow
    · exact absurd hlt hhigh

/-- Of the nodes with cross-zone cost, those with the same score are all cut off. -/
def ChokepointTiesCut (g : ServiceGraph Float64) (limit : ℤ) : Prop :=
  g.nodes.TiesCut (fun id _ => (g.throughUSD id == 0) = false)
    (fun id _ => round2 (g.throughUSD id * (g.degree id : Float64))) limit

theorem contribution_eq (resp : NodeID → Float64) (topN : ℤ) (e : Edge Float64) :
    contribution resp topN e
      = if (attributed resp e).isSome ∧ 0 ≤ topN then
          some ⟨e.src, e.dst, resp e.src, round2 e.crossZoneCost, round2 (edgeUSD resp e)⟩
        else none := by
  rw [contribution, edgeUSD]
  cases attributed resp e with
  | none => exact (if_neg fun h => Bool.false_ne_true h.1).symm
  | some attr =>
    simp only [Option.bind_some, Option.isSome_some, true_and, Option.getD_some]

theorem chokepoint_eq (g : ServiceGraph Float64) (id : NodeID) :
    g.chokepoint id
      = if (g.throughUSD id == 0) = false then
          some ⟨id, round2 (g.throughUSD id), (g.inKeys id).length, (g.outKeys id).length,
            round2 (g.throughUSD id * (g.degree id : Float64))⟩
        else none := by
  rw [chokepoint]
  cases g.throughUSD id == 0 <;> rfl

/-- **Deterministic reports**: those of a graph built from rows are the same for
all orders if and only if the charges of every service add up to the same cents in all of
them and equal cents are all cut off, in each report. -/
theorem reports_deterministic_iff (rows : List (EdgeRow Float64)) (origin : NodeID)
    (opts : AttributeOpts Float64) (limit : ℤ) :
    (build rows).Deterministic origin opts limit ↔
      (build rows).ContributorTiesCut origin opts ∧
        ((build rows).CentsFixed opts ∧ (build rows).OriginsApart opts) ∧
        (build rows).ChokepointTiesCut limit := by
  set g := build rows with hg
  have hwf : g.WellFormed := wellFormed_build rows
  -- the rows of a report tell their edges or nodes apart
  have hcontributors : Settled EdgeContribution.attributedUSD opts.setDefaults.topN
      (g.contributions origin opts) ↔ g.ContributorTiesCut origin opts := by
    refine FinMap.settled_found_iff (fun _ e => contribution_eq _ _ e)
      fun k e k' e' hk hk' heq => ?_
    obtain ⟨hsrc, hdst⟩ := hwf.ends hk
    obtain ⟨hsrc', hdst'⟩ := hwf.ends hk'
    have hsrcs : k.src = k'.src := by
      rw [← hsrc, ← hsrc']
      exact congrArg EdgeContribution.src heq
    have hdsts : k.dst = k'.dst := by
      rw [← hdst, ← hdst']
      exact congrArg EdgeContribution.dst heq
    cases k
    cases k'
    exact congrArg₂ EdgeKey.mk hsrcs hdsts
  have horigins : ∀ order, Settled OriginAttribution.totalCrossZoneUSD 0
      (g.originRows opts order) ↔ g.OriginTiesCut opts order := fun order =>
    FinMap.settled_found_iff (fun id n => g.originRow_eq id n _)
      fun _ _ _ _ _ _ heq => congrArg OriginAttribution.origin heq
  have hchokepoints : Settled Chokepoint.score limit g.chokepointRows ↔
      g.ChokepointTiesCut limit :=
    FinMap.settled_found_iff (fun id _ => g.chokepoint_eq id)
      fun _ _ _ _ _ _ heq => congrArg Chokepoint.node heq
  rw [← and_congr_right CentsFixed.originTiesCut_iff, ← hcontributors, ← forall_congr' horigins,
    ← hchokepoints,
    ← g.topContributors_deterministic_iff origin opts, ← g.attributeAll_deterministic_iff opts,
    ← g.chokepoints_deterministic_iff limit]
  exact ⟨fun h => ⟨h.contributors, h.origins, h.chokepoints⟩, fun ⟨h₁, h₂, h₃⟩ => ⟨h₁, h₂, h₃⟩⟩

/-- A service that pays a dollar to each of two others, and one that pays two. -/
def tiedRows : List (EdgeRow Float64) :=
  [⟨svc "a", svc "b", "", "", "cross_az", 100, 1, 1⟩,
    ⟨svc "a", svc "c", "", "", "cross_az", 100, 1, 1⟩,
    ⟨svc "d", svc "e", "", "", "cross_az", 100, 1, 2.0⟩]

/-- A service that pays fractions of a cent. -/
def centRows : List (EdgeRow Float64) :=
  [⟨svc "a", svc "b", "", "", "cross_az", 100, 1, 0.002⟩,
    ⟨svc "a", svc "c", "", "", "cross_az", 100, 1, 0.003⟩,
    ⟨svc "a", svc "d", "", "", "cross_az", 100, 1, 0.03⟩]

/-- It is charged three cents or four, as the order of the edges has it. -/
theorem not_centsFixed_centRows : ¬(build centRows).CentsFixed ⟨0, 0, 0⟩ := by
  have hkeys : (build centRows).edges.keys
      = {⟨svc "a", svc "b"⟩, ⟨svc "a", svc "c"⟩, ⟨svc "a", svc "d"⟩} := by
    decide +kernel
  obtain ⟨order, horder⟩ := RangeOrder.exists_keys (s := (build centRows).edges.keys)
    (l := [⟨svc "a", svc "b"⟩, ⟨svc "a", svc "c"⟩, ⟨svc "a", svc "d"⟩]) (by decide)
    fun k => by simp [hkeys]
  obtain ⟨order', horder'⟩ := RangeOrder.exists_keys (s := (build centRows).edges.keys)
    (l := [⟨svc "a", svc "d"⟩, ⟨svc "a", svc "c"⟩, ⟨svc "a", svc "b"⟩]) (by decide)
    fun k => by
      rw [hkeys]
      simp only [List.mem_cons, List.not_mem_nil, or_false, Finset.mem_insert,
        Finset.mem_singleton]
      tauto
  have hcalls : (build centRows).Calls (svc "a") := by
    refine ⟨((build centRows).nodes.lookup (svc "a")).get (by decide +kernel), ?_, ?_, ?_⟩
    · exact (Option.some_get _).symm
    · decide +kernel
    · decide +kernel
  have hthree : ((build centRows).charges ⟨0, 0, -1⟩ order (svc "a")).totalCrossZoneUSD = 0.03 := by
    unfold charges directIn inducedIn addCharges FinMap.listed
    rw [horder]
    decide +kernel
  have hfour : ((build centRows).charges ⟨0, 0, -1⟩ order' (svc "a")).totalCrossZoneUSD = 0.04 := by
    unfold charges directIn inducedIn addCharges FinMap.listed
    rw [horder']
    decide +kernel
  rw [centsFixed_iff_charges]
  intro h
  rcases h (svc "a") hcalls order order' with heq | ⟨hzero, -⟩
  · have htotals := congrArg Attribution.totalCrossZoneUSD heq
    rw [hthree, hfour] at htotals
    exact absurd htotals (by decide +kernel)
  · rw [hthree] at hzero
    exact absurd hzero (by decide +kernel)

/-- Equal dollars reorder every report: the contributors `b` and `c`, the originators
`a` and `d`, the chokepoints `b` and `c`.  And fractions of a cent add up to different cents. -/
theorem equal_cents_reorder :
    (¬∀ sortSlice orders orders',
      ((build tiedRows).attributeFrom (svc "a") ⟨0, 0, 0⟩ sortSlice orders).topContributors
        = ((build tiedRows).attributeFrom (svc "a") ⟨0, 0, 0⟩ sortSlice
          orders').topContributors) ∧
      (¬∀ sortContribs sortSlice order order' orders orders',
        (build tiedRows).attributeAll ⟨0, 0, 0⟩ sortContribs sortSlice order orders
          = (build tiedRows).attributeAll ⟨0, 0, 0⟩ sortContribs sortSlice order' orders') ∧
      (¬∀ sortSlice order order',
        (build tiedRows).chokepoints 0 sortSlice order
          = (build tiedRows).chokepoints 0 sortSlice order') ∧
      ¬∀ sortContribs sortSlice order order' orders orders',
        (build centRows).attributeAll ⟨0, 0, 0⟩ sortContribs sortSlice order orders
          = (build centRows).attributeAll ⟨0, 0, 0⟩ sortContribs sortSlice order' orders' := by
  have hkeys : (build tiedRows).edges.keys
      = {⟨svc "a", svc "b"⟩, ⟨svc "a", svc "c"⟩, ⟨svc "d", svc "e"⟩} := by
    decide +kernel
  obtain ⟨order, horder⟩ := RangeOrder.exists_keys (s := (build tiedRows).edges.keys)
    (l := [⟨svc "a", svc "b"⟩, ⟨svc "a", svc "c"⟩, ⟨svc "d", svc "e"⟩]) (by decide)
    fun k => by simp [hkeys]
  rw [topContributors_deterministic_iff, attributeAll_deterministic_iff,
    chokepoints_deterministic_iff, attributeAll_deterministic_iff]
  refine ⟨?_, fun h => ?_, ?_, fun h => not_centsFixed_centRows h.1⟩
  · unfold Settled
    decide +kernel
  · have hsettled := h.2 order
    revert hsettled
    unfold Settled originRows charges directIn inducedIn addCharges FinMap.listed
    rw [horder]
    decide +kernel
  · unfold Settled
    decide +kernel

end ServiceGraph
