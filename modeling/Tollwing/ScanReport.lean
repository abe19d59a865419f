/-
The scan report (`pkg/scan/scan.go`).

`AnalyzeTopN` turns the dollars per billing path and per pod of a window into
totals, percentages, monthly projections, recommendations and a cut list of pods.
The two loops over the map of paths each range over it in an order of their own,
and `sort.Slice` need not be stable.  The arithmetic is exact.

* `Scan.Consistent` — how the parts of a report fit together;
* `Scan.analyzeTopN_consistent` — the report of nonnegative dollars is consistent,
  and the same for all orders.
-/
import Mathlib.Algebra.Order.Field.Rat
import Mathlib.Algebra.BigOperators.Ring.List
import Mathlib.Data.Prod.Lex
import Mathlib.Data.String.Basic
import Mathlib.Tactic.NormNum
import Tollwing.SliceSort
import Tollwing.TrafficType

namespace Scan

/-- `monthHours`: a month of thirty days. -/
def monthHours : ℚ := 30 * 24

/-- `topPodsDefault`. -/
def topPodsDefault : ℤ := 10

/-- A pod's cost over the window, and projected to a month. -/
structure PodCost where
  ns : String
  pod : String
  usd : ℚ
  monthlyUSD : ℚ
  deriving DecidableEq

/-- A billing path's cost over the window; `pct` is its share of the total. -/
structure PathCost where
  path : String
  usd : ℚ
  monthlyUSD : ℚ
  pct : ℚ
  addressable : Bool
  deriving DecidableEq

/-- What to do about an addressable path. -/
structure Recommendation where
  path : String
  monthlyUSD : ℚ
  action : String
  deriving DecidableEq

structure Report where
  windowHours : ℚ
  totalUSD : ℚ
  monthlyUSD : ℚ
  addressableUSD : ℚ
  byPath : List PathCost
  topPods : List PodCost
  recommendations : List Recommendation
  deriving DecidableEq

/-- The paths that a known fix makes cheaper, with the fix. -/
def addressable : FinMap String String :=
  FinMap.ofList
    [(TrafficType.crossAZ.string,
      "co-locate chatty services (topology-aware routing / pod anti-affinity) so cross-AZ " ++
        "hops become same-zone"),
      (TrafficType.natGatewayEgress.string,
      "add VPC gateway/interface endpoints for S3, DynamoDB and other AWS services, and " ++
        "check for internal traffic routed through the NAT gateway")]

/-- The order of the paths: by dollars, then by name. -/
def PathCost.before (a b : PathCost) : Prop :=
  if a.usd ≠ b.usd then b.usd < a.usd else a.path < b.path

/-- The order of the pods: by dollars, then by namespace and name. -/
def PodCost.before (a b : PodCost) : Prop :=
  if a.usd ≠ b.usd then b.usd < a.usd
  else if a.ns ≠ b.ns then a.ns < b.ns
  else a.pod < b.pod

/-- What the runtime is free to choose: the order of either loop over the paths, and how
it sorts. -/
structure Choices where
  totalOrder : RangeOrder String
  pathOrder : RangeOrder String
  sortPaths : SliceSort PathCost.before
  sortPods : SliceSort PodCost.before

/-- `Hours` of the window, which counts nanoseconds. -/
def windowHours (window : Int64) : ℚ := window.toInt / 3600000000000

/-- The projection to a month; a window that is not positive is not projected. -/
def monthFactor (window : Int64) : ℚ :=
  if 0 < windowHours window then monthHours / windowHours window else 1

/-- The row of a path; a path without spend has none. -/
def pathRow (total factor : ℚ) (path : String) (usd : ℚ) : Option PathCost :=
  if usd = 0 then none
  else
    some
      { path := path
        usd := usd
        monthlyUSD := usd * factor
        pct := if 0 < total then usd / total * 100 else 0
        addressable := (addressable.lookup path).isSome }

/-- The recommendation for a path. -/
def recommendation (pc : PathCost) : Option Recommendation :=
  match addressable.lookup pc.path with
  | some action => if 0 < pc.monthlyUSD then some ⟨pc.path, pc.monthlyUSD, action⟩ else none
  | none => none

/-- The row of a pod; a pod without spend has none. -/
def podRow (factor : ℚ) (p : PodCost) : Option PodCost :=
  if p.usd = 0 then none else some { p with monthlyUSD := p.usd * factor }

/-- `AnalyzeTopN`. -/
def analyzeTopN (byPath : FinMap String ℚ) (pods : List PodCost) (window : Int64) (topN : ℤ)
    (c : Choices) : Report :=
  let factor := monthFactor window
  let total := ((byPath.listed c.totalOrder).map fun e => e.2).sum
  let rows := (byPath.listed c.pathOrder).filterMap fun e => pathRow total factor e.1 e.2
  let sorted := c.sortPaths.sort rows
  { windowHours := windowHours window
    totalUSD := total
    monthlyUSD := total * factor
    addressableUSD := ((rows.filter PathCost.addressable).map PathCost.monthlyUSD).sum
    byPath := sorted
    topPods := cut topN (c.sortPods.sort (pods.filterMap (podRow factor)))
    recommendations := sorted.filterMap recommendation }

/-- `Analyze`. -/
def analyze (byPath : FinMap String ℚ) (pods : List PodCost) (window : Int64) (c : Choices) :
    Report :=
  analyzeTopN byPath pods window topPodsDefault c

/-- The parts of a report fit together: the paths make up the total, the
recommendations the addressable part, one factor projects every figure, and no pod
that pays is left out for one that pays less. -/
structure Consistent (byPath : FinMap String ℚ) (pods : List PodCost) (factor : ℚ) (topN : ℤ)
    (rep : Report) : Prop where
  total : rep.totalUSD = byPath.sum fun _ usd => usd
  paths : ∀ path usd, (∃ pc ∈ rep.byPath, pc.path = path ∧ pc.usd = usd) ↔
    byPath.lookup path = some usd ∧ usd ≠ 0
  dollars : (rep.byPath.map PathCost.usd).sum = rep.totalUSD
  percentages : 0 < rep.totalUSD → (rep.byPath.map PathCost.pct).sum = 100
  recommended : rep.addressableUSD = (rep.recommendations.map Recommendation.monthlyUSD).sum
  addressable_le : rep.addressableUSD ≤ rep.monthlyUSD
  monthTotal : rep.monthlyUSD = rep.totalUSD * factor
  monthPaths : ∀ pc ∈ rep.byPath, pc.monthlyUSD = pc.usd * factor
  monthRecommended : ∀ r ∈ rep.recommendations,
    ∃ pc ∈ rep.byPath, pc.path = r.path ∧ r.monthlyUSD = pc.usd * factor
  monthPods : ∀ p ∈ rep.topPods, p.monthlyUSD = p.usd * factor
  sortedPods : rep.topPods.Pairwise fun p q => q.usd ≤ p.usd
  omitted : ∃ omitted, (rep.topPods ++ omitted).Perm (pods.filterMap (podRow factor)) ∧
    (∀ p ∈ rep.topPods, ∀ q ∈ omitted, q.usd ≤ p.usd) ∧
    (omitted ≠ [] → 0 < topN ∧ rep.topPods.length = topN)

/-! ### The orders separate the rows -/

/-- Where a path stands in the order. -/
def PathCost.rank (a : PathCost) : ℚᵒᵈ ×ₗ String := toLex (OrderDual.toDual a.usd, a.path)

theorem PathCost.before_iff (a b : PathCost) : a.before b ↔ a.rank < b.rank := by
  rw [before, rank, rank, Prod.Lex.toLex_lt_toLex, OrderDual.toDual_lt_toDual, OrderDual.toDual_inj]
  by_cases husd : a.usd = b.usd
  · simp [husd]
  · simp [husd]

theorem PathCost.weakOrderOn_before (l : List PathCost) : WeakOrderOn PathCost.before l :=
  .of_key _ fun a _ b _ => PathCost.before_iff a b

/-- Where a pod stands in the order. -/
def PodCost.rank (a : PodCost) : ℚᵒᵈ ×ₗ String ×ₗ String :=
  toLex (OrderDual.toDual a.usd, toLex (a.ns, a.pod))

theorem PodCost.before_iff (a b : PodCost) : a.before b ↔ a.rank < b.rank := by
  rw [before, rank, rank, Prod.Lex.toLex_lt_toLex, Prod.Lex.toLex_lt_toLex,
    OrderDual.toDual_lt_toDual, OrderDual.toDual_inj]
  by_cases husd : a.usd = b.usd
  · by_cases hns : a.ns = b.ns
    · simp [husd, hns]
    · simp [husd, hns]
  · simp [husd]

theorem PodCost.weakOrderOn_before (l : List PodCost) : WeakOrderOn PodCost.before l :=
  .of_key _ fun a _ b _ => PodCost.before_iff a b

theorem PathCost.eq_of_not_before {a b : PathCost} (hab : ¬a.before b) (hba : ¬b.before a) :
    a.usd = b.usd ∧ a.path = b.path := by
  rw [before_iff, not_lt] at hab hba
  have hrank : a.rank = b.rank := le_antisymm hba hab
  exact ⟨congrArg (fun r : ℚᵒᵈ ×ₗ String => OrderDual.ofDual (ofLex r).1) hrank,
    congrArg (fun r : ℚᵒᵈ ×ₗ String => (ofLex r).2) hrank⟩

theorem PodCost.eq_of_not_before {a b : PodCost} (hab : ¬a.before b) (hba : ¬b.before a) :
    a.usd = b.usd ∧ a.ns = b.ns ∧ a.pod = b.pod := by
  rw [before_iff, not_lt] at hab hba
  have hrank : a.rank = b.rank := le_antisymm hba hab
  exact ⟨congrArg (fun r : ℚᵒᵈ ×ₗ String ×ₗ String => OrderDual.ofDual (ofLex r).1) hrank,
    congrArg (fun r : ℚᵒᵈ ×ₗ String ×ₗ String => (ofLex (ofLex r).2).1) hrank,
    congrArg (fun r : ℚᵒᵈ ×ₗ String ×ₗ String => (ofLex (ofLex r).2).2) hrank⟩

/-- Paths and pods that are ranged over in ascending order, and sorted stably. -/
def Choices.stable : Choices where
  totalOrder := .ascending
  pathOrder := .ascending
  sortPaths := .byKey PathCost.rank PathCost.before_iff
  sortPods := .byKey PodCost.rank PodCost.before_iff

/-- Sorted pods cost less and less. -/
theorem PodCost.usd_le_of_not_before {a b : PodCost} (h : ¬b.before a) : b.usd ≤ a.usd := by
  by_contra hlt
  refine h ?_
  rw [before, if_pos (fun heq => hlt heq.le)]
  exact not_le.mp hlt

theorem pathRow_eq_some {total factor : ℚ} {path : String} {usd : ℚ} {pc : PathCost} :
    pathRow total factor path usd = some pc ↔
      usd ≠ 0 ∧ pc = ⟨path, usd, usd * factor, if 0 < total then usd / total * 100 else 0,
        (addressable.lookup path).isSome⟩ := by
  rw [pathRow]
  by_cases husd : usd = 0
  · rw [if_pos husd]
    exact ⟨nofun, fun h => absurd husd h.1⟩
  · rw [if_neg husd]
    exact ⟨fun h => ⟨husd, (Option.some_inj.mp h).symm⟩, fun h => congrArg some h.2.symm⟩

theorem podRow_eq_some {factor : ℚ} {p q : PodCost} :
    podRow factor p = some q ↔ p.usd ≠ 0 ∧ q = { p with monthlyUSD := p.usd * factor } := by
  rw [podRow]
  split_ifs with husd
  · exact ⟨nofun, fun h => absurd husd h.1⟩
  · exact ⟨fun h => ⟨husd, (Option.some_inj.mp h).symm⟩, fun h => congrArg some h.2.symm⟩

/-! ### The parts of the report -/

section

variable (byPath : FinMap String ℚ) (pods : List PodCost) (window : Int64) (topN : ℤ)

/-- The total of the paths. -/
def pathTotal : ℚ := byPath.sum fun _ usd => usd

/-- The rows of the paths, in the order of the loop. -/
def pathRows (order : RangeOrder String) : List PathCost :=
  (byPath.listed order).filterMap fun e =>
    pathRow (pathTotal byPath) (monthFactor window) e.1 e.2

/-- The rows of the pods. -/
def podRows : List PodCost := pods.filterMap (podRow (monthFactor window))

theorem analyzeTopN_eq (c : Choices) :
    analyzeTopN byPath pods window topN c =
      { windowHours := windowHours window
        totalUSD := pathTotal byPath
        monthlyUSD := pathTotal byPath * monthFactor window
        addressableUSD := (((pathRows byPath window c.pathOrder).filter
          PathCost.addressable).map PathCost.monthlyUSD).sum
        byPath := c.sortPaths.sort (pathRows byPath window c.pathOrder)
        topPods := cut topN (c.sortPods.sort (podRows pods window))
        recommendations := (c.sortPaths.sort (pathRows byPath window c.pathOrder)).filterMap
          recommendation } := by
  have htotal : ((byPath.listed c.totalOrder).map fun e => e.2).sum = pathTotal byPath :=
    byPath.sum_listed c.totalOrder fun _ usd => usd
  rw [analyzeTopN, htotal]
  rfl

variable {byPath window}

/-- A row is that of an entry. -/
theorem mem_pathRows {order : RangeOrder String} {pc : PathCost} :
    pc ∈ pathRows byPath window order ↔
      ∃ path usd, byPath.lookup path = some usd ∧
        pathRow (pathTotal byPath) (monthFactor window) path usd = some pc := by
  rw [pathRows, List.mem_filterMap]
  constructor
  · rintro ⟨e, he, hrow⟩
    exact ⟨e.1, e.2, FinMap.mem_listed.mp he, hrow⟩
  · rintro ⟨path, usd, hlookup, hrow⟩
    exact ⟨(path, usd), FinMap.mem_listed.mpr hlookup, hrow⟩

/-- **Order independence**: the report does not depend on what the runtime chooses. -/
theorem analyzeTopN_choices (c c' : Choices) :
    analyzeTopN byPath pods window topN c = analyzeTopN byPath pods window topN c' := by
  have hrows : (pathRows byPath window c.pathOrder).Perm (pathRows byPath window c'.pathOrder) :=
    (byPath.listed_perm c.pathOrder c'.pathOrder).filterMap _
  have hpaths : c.sortPaths.sort (pathRows byPath window c.pathOrder)
      = c'.sortPaths.sort (pathRows byPath window c'.pathOrder) := by
    refine c.sortPaths.sort_eq c'.sortPaths PathCost.weakOrderOn_before
      (fun a ha b hb hab hba => ?_) hrows
    obtain ⟨husd, hpath⟩ := PathCost.eq_of_not_before hab hba
    -- rows with one path are rows of one entry
    obtain ⟨path, usd, -, ha⟩ := mem_pathRows.mp ha
    obtain ⟨path', usd', -, hb⟩ := mem_pathRows.mp hb
    obtain ⟨-, rfl⟩ := pathRow_eq_some.mp ha
    obtain ⟨-, rfl⟩ := pathRow_eq_some.mp hb
    cases husd
    cases hpath
    rfl
  have hpods : c.sortPods.sort (podRows pods window) = c'.sortPods.sort (podRows pods window) := by
    refine c.sortPods.sort_eq c'.sortPods PodCost.weakOrderOn_before
      (fun a ha b hb hab hba => ?_) (List.Perm.refl _)
    obtain ⟨husd, hns, hpod⟩ := PodCost.eq_of_not_before hab hba
    -- the projections are overwritten, so nothing else tells rows apart
    obtain ⟨p, -, hp⟩ := List.mem_filterMap.mp ha
    obtain ⟨q, -, hq⟩ := List.mem_filterMap.mp hb
    obtain ⟨-, rfl⟩ := podRow_eq_some.mp hp
    obtain ⟨-, rfl⟩ := podRow_eq_some.mp hq
    cases p
    cases q
    cases husd
    cases hns
    cases hpod
    rfl
  have haddressable :
      (((pathRows byPath window c.pathOrder).filter PathCost.addressable).map
        PathCost.monthlyUSD).sum
      = (((pathRows byPath window c'.pathOrder).filter PathCost.addressable).map
        PathCost.monthlyUSD).sum := ((hrows.filter _).map _).sum_eq
  rw [analyzeTopN_eq, analyzeTopN_eq, hpaths, hpods, haddressable]

/-! ### Sums over the rows -/

/-- The paths without spend add nothing. -/
theorem sum_usd_filterMap (total factor : ℚ) (l : List (String × ℚ)) :
    ((l.filterMap fun e => pathRow total factor e.1 e.2).map PathCost.usd).sum
      = (l.map fun e => e.2).sum := by
  induction l with
  | nil => rfl
  | cons e l ih =>
    rw [List.map_cons, List.sum_cons, ← ih, List.filterMap_cons]
    cases he : pathRow total factor e.1 e.2 with
    | none =>
      have husd : e.2 = 0 := by
        by_contra husd
        exact absurd (he.symm.trans (if_neg husd)) nofun
      rw [husd, zero_add]
    | some pc =>
      obtain ⟨-, rfl⟩ := pathRow_eq_some.mp he
      rw [List.map_cons, List.sum_cons]

theorem sum_usd_pathRows (order : RangeOrder String) :
    ((pathRows byPath window order).map PathCost.usd).sum = pathTotal byPath := by
  rw [pathRows, sum_usd_filterMap]
  exact byPath.sum_listed order fun _ usd => usd

/-- A multiple of each row's dollars adds up to that multiple of the total. -/
theorem sum_mul_pathRows (order : RangeOrder String) {f : PathCost → ℚ} {r : ℚ}
    (hf : ∀ pc ∈ pathRows byPath window order, f pc = pc.usd * r) :
    ((pathRows byPath window order).map f).sum = pathTotal byPath * r := by
  rw [List.map_congr_left hf, List.sum_map_mul_right, sum_usd_pathRows]

theorem monthFactor_pos (window : Int64) : 0 < monthFactor window := by
  rw [monthFactor]
  split_ifs with hours
  · have hmonth : 0 < monthHours := by norm_num [monthHours]
    exact div_pos hmonth hours
  · exact one_pos

/-- What a row carries besides its dollars. -/
theorem row_fields {order : RangeOrder String} {pc : PathCost}
    (h : pc ∈ pathRows byPath window order) :
    pc.monthlyUSD = pc.usd * monthFactor window ∧
      pc.pct = (if 0 < pathTotal byPath then pc.usd / pathTotal byPath * 100 else 0) ∧
      pc.addressable = (addressable.lookup pc.path).isSome := by
  obtain ⟨path, usd, -, hrow⟩ := mem_pathRows.mp h
  obtain ⟨-, rfl⟩ := pathRow_eq_some.mp hrow
  exact ⟨rfl, rfl, rfl⟩

/-- Nonnegative dollars that have a row are positive. -/
theorem monthlyUSD_pos (hpaths : ∀ path usd, byPath.lookup path = some usd → 0 ≤ usd)
    {order : RangeOrder String} {pc : PathCost} (h : pc ∈ pathRows byPath window order) :
    0 < pc.monthlyUSD := by
  obtain ⟨path, usd, hlookup, hrow⟩ := mem_pathRows.mp h
  obtain ⟨hne, rfl⟩ := pathRow_eq_some.mp hrow
  exact mul_pos (lt_of_le_of_ne (hpaths path usd hlookup) (Ne.symm hne)) (monthFactor_pos window)

/-- The rows are the paths with spend. -/
theorem exists_pathRows (order : RangeOrder String) {path : String} {usd : ℚ} :
    (∃ pc ∈ pathRows byPath window order, pc.path = path ∧ pc.usd = usd) ↔
      byPath.lookup path = some usd ∧ usd ≠ 0 := by
  constructor
  · rintro ⟨pc, hpc, rfl, rfl⟩
    obtain ⟨path, usd, hlookup, hrow⟩ := mem_pathRows.mp hpc
    obtain ⟨hne, rfl⟩ := pathRow_eq_some.mp hrow
    exact ⟨hlookup, hne⟩
  · rintro ⟨hlookup, hne⟩
    have hrow : pathRow (pathTotal byPath) (monthFactor window) path usd = some _ :=
      pathRow_eq_some.mpr ⟨hne, rfl⟩
    exact ⟨_, mem_pathRows.mpr ⟨path, usd, hlookup, hrow⟩, rfl, rfl⟩

/-- A recommendation is for the monthly figure of its row. -/
theorem recommendation_eq_some {pc : PathCost} {r : Recommendation}
    (h : recommendation pc = some r) : pc.path = r.path ∧ r.monthlyUSD = pc.monthlyUSD := by
  rw [recommendation] at h
  cases haddressable : addressable.lookup pc.path with
  | none =>
    rw [haddressable] at h
    exact absurd h (Option.some_ne_none r).symm
  | some action =>
    rw [haddressable] at h
    dsimp only at h
    split_ifs at h
    obtain rfl := Option.some_inj.mp h
    exact ⟨rfl, rfl⟩

/-- The recommendations for rows that cost something are those of the addressable rows. -/
theorem sum_recommendations {l : List PathCost}
    (h : ∀ pc ∈ l, 0 < pc.monthlyUSD ∧ pc.addressable = (addressable.lookup pc.path).isSome) :
    ((l.filterMap recommendation).map Recommendation.monthlyUSD).sum
      = ((l.filter PathCost.addressable).map PathCost.monthlyUSD).sum := by
  induction l with
  | nil => rfl
  | cons pc l ih =>
    obtain ⟨⟨hpos, haddressable⟩, hrest⟩ := List.forall_mem_cons.mp h
    rw [List.filterMap_cons, List.filter_cons, recommendation, haddressable]
    cases addressable.lookup pc.path with
    | none => exact ih hrest
    | some action =>
      simp only [if_pos hpos, Option.isSome_some, if_true, List.map_cons, List.sum_cons]
      rw [ih hrest]

end

/-- **The scan report is a consistent summary** of nonnegative dollars, and the same
whatever the runtime chooses. -/
theorem analyzeTopN_consistent (byPath : FinMap String ℚ) (pods : List PodCost) (window : Int64)
    (topN : ℤ) (hpaths : ∀ path usd, byPath.lookup path = some usd → 0 ≤ usd) (c : Choices) :
    Consistent byPath pods (monthFactor window) topN (analyzeTopN byPath pods window topN c) ∧
      ∀ c', analyzeTopN byPath pods window topN c' = analyzeTopN byPath pods window topN c := by
  refine ⟨?_, fun c' => analyzeTopN_choices pods topN c' c⟩
  rw [analyzeTopN_eq]
  set rows := pathRows byPath window c.pathOrder with hrows
  have hperm : (c.sortPaths.sort rows).Perm rows := c.sortPaths.perm rows
  have hmem : ∀ {pc}, pc ∈ c.sortPaths.sort rows → pc ∈ rows := fun h => hperm.mem_iff.mp h
  have hpods : (podRows pods window).Perm (c.sortPods.sort (podRows pods window)) :=
    (c.sortPods.perm _).symm
  obtain ⟨omitted, hsplit, hcut⟩ := exists_cut_append topN (c.sortPods.sort (podRows pods window))
  -- sorted by dollars, the listed pods before the omitted ones
  have hsorted : (c.sortPods.sort (podRows pods window)).Pairwise fun p q => q.usd ≤ p.usd :=
    (c.sortPods.sorted (podRows pods window) (PodCost.weakOrderOn_before _)).imp fun h => PodCost.usd_le_of_not_before h
  rw [hsplit, List.pairwise_append] at hsorted
  exact
    { total := rfl
      paths := fun path usd => by
        rw [← exists_pathRows c.pathOrder]
        exact exists_congr fun pc => and_congr_left fun _ => hperm.mem_iff
      dollars := (hperm.map _).sum_eq.trans (sum_usd_pathRows c.pathOrder)
      percentages := fun hpos => by
        have hpct : ∀ pc ∈ rows, pc.pct = pc.usd * (100 / pathTotal byPath) := by
          intro pc hpc
          rw [(row_fields hpc).2.1, if_pos hpos, div_mul_eq_mul_div, mul_div_assoc]
        show ((c.sortPaths.sort rows).map PathCost.pct).sum = 100
        rw [(hperm.map _).sum_eq, sum_mul_pathRows c.pathOrder hpct]
        exact mul_div_cancel₀ 100 hpos.ne'
      recommended := by
        rw [sum_recommendations fun pc hpc =>
          ⟨monthlyUSD_pos hpaths (hmem hpc), (row_fields (hmem hpc)).2.2⟩]
        exact ((hperm.filter _).map _).sum_eq.symm
      addressable_le := by
        refine le_of_le_of_eq (((List.filter_sublist).map _).sum_le_sum fun usd husd => ?_)
          (sum_mul_pathRows c.pathOrder fun pc hpc => (row_fields hpc).1)
        obtain ⟨pc, hpc, rfl⟩ := List.mem_map.mp husd
        exact (monthlyUSD_pos hpaths hpc).le
      monthTotal := rfl
      monthPaths := fun pc hpc => (row_fields (hmem hpc)).1
      monthRecommended := fun r hr => by
        obtain ⟨pc, hpc, hrec⟩ := List.mem_filterMap.mp hr
        obtain ⟨hpath, hmonthly⟩ := recommendation_eq_some hrec
        exact ⟨pc, hpc, hpath, hmonthly.trans (row_fields (hmem hpc)).1⟩
      monthPods := fun p hp => by
        have hlisted : p ∈ c.sortPods.sort (podRows pods window) := by
          rw [hsplit]
          exact List.mem_append_left _ hp
        obtain ⟨q, -, hq⟩ := List.mem_filterMap.mp (hpods.mem_iff.mpr hlisted)
        obtain ⟨-, rfl⟩ := podRow_eq_some.mp hq
        rfl
      sortedPods := hsorted.1
      omitted := ⟨omitted, hsplit ▸ hpods.symm, hsorted.2.2, hcut⟩ }

/-- A day with spend on two paths and by two pods. -/
def scannedPaths : FinMap String ℚ := FinMap.ofList [("cross_az", 3), ("same_zone", 1)]

def scannedPods : List PodCost := [⟨"shop", "web", 1, 0⟩, ⟨"shop", "db", 3, 0⟩]

def day : Int64 := 86400000000000

theorem analyzeTopN_consistent_day :
    (analyzeTopN scannedPaths scannedPods day 1 .stable).totalUSD = 4 ∧
      Consistent scannedPaths scannedPods (monthFactor day) 1
        (analyzeTopN scannedPaths scannedPods day 1 .stable) := by
  have hpaths : ∀ path usd, scannedPaths.lookup path = some usd → 0 ≤ usd := by
    intro path usd hlookup
    simp only [scannedPaths, FinMap.ofList, List.foldr_cons, List.foldr_nil,
      FinMap.lookup_insert_ite] at hlookup
    split_ifs at hlookup
    · obtain rfl := Option.some_inj.mp hlookup
      norm_num
    · obtain rfl := Option.some_inj.mp hlookup
      norm_num
    · exact absurd hlookup nofun
  obtain ⟨h, -⟩ := analyzeTopN_consistent scannedPaths scannedPods day 1 hpaths .stable
  exact ⟨h.total.trans (by decide +kernel), h⟩

end Scan
