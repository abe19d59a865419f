/-
The cost and usage report (`pkg/cloud/aws/cur.go`).

The parser reads the CSV export of the bill row by row, keeps the network usage of a
window of time and adds up its cost.  A row without a date that can be read is kept in
every window.

* `CostReport.parseCURReader` — the parser, on what the CSV reader returns;
* `totalCost_parse` — the total is the sum of the items, added up in their order;
* `items_windows` — two adjacent windows, against the window of both;
* `items_partition_iff` — when they partition the items;
* `windows_partition` — that they do for what is dated, and the totals up to rounding.
-/
import Tollwing.FloatSum
import Tollwing.ParseFloat
import Tollwing.UsageTypes

open KeyedFold FloatSum

namespace Time

/-- `time.Time{}`: the first of January of the year one, from which months are counted. -/
def zero : Time := ⟨0, 0⟩

/-- `Before`. -/
def before (t u : Time) : Bool := u.after t

/-- What is before a time is before all later ones. -/
theorem before_trans {t u v : Time} (h : t.before u = true) (huv : v.before u = false) :
    t.before v = true := by
  simp only [before, after, Bool.or_eq_true, Bool.or_eq_false_iff, Bool.and_eq_true,
    Bool.and_eq_false_iff, decide_eq_true_eq, decide_eq_false_iff_not, beq_iff_eq,
    beq_eq_false_iff_ne] at h huv ⊢
  omega

end Time

namespace CostReport

/-! ### Columns -/

def colUsageStart : String := "lineItem/UsageStartDate"
def colProductCode : String := "lineItem/ProductCode"
def colUsageType : String := "lineItem/UsageType"
def colResourceID : String := "lineItem/ResourceId"
def colUsageAmount : String := "lineItem/UsageAmount"
def colUnblendedUSD : String := "lineItem/UnblendedCost"
def colRegion : String := "product/region"

/-- The columns before the header is read. -/
def noColumns : FinMap String ℤ :=
  [colUsageStart, colProductCode, colUsageType, colResourceID, colUsageAmount, colUnblendedUSD,
    colRegion].foldl (fun idx col => idx.insert col (-1)) ∅

/-- `indexColumns`: where the known columns stand, the last one of a name. -/
def indexColumns (header : List String) : FinMap String ℤ :=
  header.zipIdx.foldl (fun idx (name, i) => if name ∈ idx then idx.insert name i else idx)
    noColumns

/-- `idx[col]`. -/
def column (idx : FinMap String ℤ) (col : String) : ℤ := (idx.lookup col).getD 0

/-- `getCol`: the text of the column, empty where the row has none. -/
def getCol (row : List String) (idx : FinMap String ℤ) (col : String) : String :=
  let i := column idx col
  if i < 0 ∨ row.length ≤ i then "" else row.getD i.toNat ""

/-! ### Rows -/

/-- `BillingLineItem`, with all its fields. -/
structure LineItem where
  timestamp : Time
  usageType : String
  region : String
  service : String
  resource : String
  usageAmount : Float64
  costUSD : Float64

/-- `BillingData`. -/
structure Data where
  provider : String
  period : BillingPeriod
  lineItems : List LineItem
  totalCost : Float64

/-- `bytesToGB`. -/
def bytesToGB (usageType : String) (amount : Float64) : Float64 :=
  if "-bytes".toList.isSuffixOf (Strings.toLower usageType).toList then
    amount / ((1024 * 1024 * 1024 : ℕ) : Float64)
  else amount

/-- The layouts of `parseCURTime`. -/
def layouts : List String :=
  ["2006-01-02T15:04:05Z07:00", "2006-01-02T15:04:05Z", "2006-01-02 15:04:05"]

section Parser

-- `time.Parse` of a layout and a text, whatever it makes of them
variable (timeParse : String → String → Option Time)

/-- `parseCURTime`: the zero time for what is no date. -/
def parseCURTime (s : String) : Time :=
  if s = "" then .zero else (layouts.findSome? fun layout => timeParse layout s).getD .zero

/-- The window test.  It does not ask for rows without a date. -/
def inWindow (start stop ts : Time) : Bool :=
  if ts ≠ .zero then
    if start ≠ .zero ∧ ts.before start then false
    else if stop ≠ .zero ∧ ¬ts.before stop then false
    else true
  else true

/-- `strconv.ParseFloat`, whose error is not looked at. -/
def parsed (s : String) : Float64 := (ParseFloat.parseFloat s.toList).1

/-- The item of a row. -/
def lineItem (idx : FinMap String ℤ) (row : List String) : LineItem :=
  let usageType := getCol row idx colUsageType
  { timestamp := parseCURTime timeParse (getCol row idx colUsageStart)
    usageType := usageType
    region := getCol row idx colRegion
    service := getCol row idx colProductCode
    resource := getCol row idx colResourceID
    usageAmount := bytesToGB usageType (parsed (getCol row idx colUsageAmount))
    costUSD := parsed (getCol row idx colUnblendedUSD) }

/-- What one round of the loop adds. -/
def rowItem (idx : FinMap String ℤ) (start stop : Time) (row : List String) : Option LineItem :=
  if ¬isNetworkUsageType (getCol row idx colUsageType) then none
  else if ¬inWindow start stop (parseCURTime timeParse (getCol row idx colUsageStart)) then none
  else some (lineItem timeParse idx row)

/-- The loop over what the CSV reader returns, until its end or an error. -/
def readRows (idx : FinMap String ℤ) (start stop : Time) :
    Data → List (Except String (List String)) → Data × Option String
  | data, [] => (data, none)
  | data, .error err :: _ => (data, some ("read CUR row: " ++ err))
  | data, .ok row :: reads =>
    match rowItem timeParse idx start stop row with
    | none => readRows idx start stop data reads
    | some item =>
      readRows idx start stop
        { data with
          lineItems := data.lineItems ++ [item]
          totalCost := data.totalCost + item.costUSD } reads

/-- The columns of the header, or why there are none. -/
def readHeader : List (Except String (List String)) → Except String (FinMap String ℤ)
  | [] => .error "read CUR header: EOF"
  | .error err :: _ => .error ("read CUR header: " ++ err)
  | .ok header :: _ =>
    let idx := indexColumns header
    if column idx colUsageType < 0 ∨ column idx colUnblendedUSD < 0 then
      .error "CUR missing required columns (UsageType, UnblendedCost)"
    else .ok idx

/-- `parseCURReader`. -/
def parseCURReader (reads : List (Except String (List String))) (start stop : Time) :
    Option Data × Option String :=
  match readHeader reads with
  | .error err => (none, some err)
  | .ok idx =>
    let (data, err) := readRows timeParse idx start stop
      { provider := "aws", period := ⟨start, stop⟩, lineItems := [], totalCost := 0 } reads.tail
    (some data, err)

end Parser

/-! ### What is read -/

/-- The rows in front of the first error. -/
def goodRows : List (Except String (List String)) → List (List String)
  | .ok row :: reads => row :: goodRows reads
  | _ => []

/-- The rows behind a good header, with its columns. -/
def rowsRead (reads : List (Except String (List String))) :
    List (FinMap String ℤ × List String) :=
  match readHeader reads with
  | .error _ => []
  | .ok idx => (goodRows reads.tail).map fun row => (idx, row)

/-- The items of a result, in their order. -/
def lineItems (result : Option Data × Option String) : List LineItem :=
  result.1.elim [] Data.lineItems

/-- The items as a multiset. -/
def items (result : Option Data × Option String) : Multiset LineItem := lineItems result

/-- The total of a result. -/
def totalCost (result : Option Data × Option String) : Float64 :=
  result.1.elim 0 Data.totalCost

variable {timeParse : String → String → Option Time} {start mid stop : Time}

theorem readRows_eq (idx : FinMap String ℤ) (reads : List (Except String (List String))) :
    ∀ data, (readRows timeParse idx start stop data reads).1.lineItems
      = data.lineItems ++ (goodRows reads).filterMap (rowItem timeParse idx start stop) := by
  induction reads with
  | nil => exact fun data => (List.append_nil _).symm
  | cons read reads ih =>
    intro data
    cases read with
    | error err => exact (List.append_nil _).symm
    | ok row =>
      rw [readRows, goodRows, List.filterMap_cons]
      cases rowItem timeParse idx start stop row with
      | none => exact ih data
      | some item =>
        dsimp only
        rw [ih, List.append_assoc, List.singleton_append]

/-- The total keeps up with the items. -/
theorem totalCost_readRows (idx : FinMap String ℤ) (reads : List (Except String (List String))) :
    ∀ data : Data, data.totalCost = addUp (data.lineItems.map LineItem.costUSD) →
      (readRows timeParse idx start stop data reads).1.totalCost
        = addUp ((readRows timeParse idx start stop data reads).1.lineItems.map
            LineItem.costUSD) := by
  induction reads with
  | nil => exact fun _ h => h
  | cons read reads ih =>
    intro data h
    cases read with
    | error err => exact h
    | ok row =>
      rw [readRows]
      cases rowItem timeParse idx start stop row with
      | none => exact ih data h
      | some item =>
        refine ih _ ?_
        dsimp only
        rw [h, List.map_append, List.map_singleton, addUp, addUp, List.foldl_concat]

theorem lineItems_parse (reads : List (Except String (List String))) :
    lineItems (parseCURReader timeParse reads start stop)
      = (rowsRead reads).filterMap fun r => rowItem timeParse r.1 start stop r.2 := by
  rw [lineItems, parseCURReader, rowsRead]
  cases readHeader reads with
  | error err => rfl
  | ok idx =>
    dsimp only
    rw [Option.elim_some, readRows_eq, List.nil_append, List.filterMap_map]
    rfl

theorem items_parse (reads : List (Except String (List String))) :
    items (parseCURReader timeParse reads start stop)
      = (rowsRead reads).filterMap fun r => rowItem timeParse r.1 start stop r.2 :=
  congrArg _ (lineItems_parse reads)

/-- The total is what the costs of the items add up to. -/
theorem totalCost_parse (reads : List (Except String (List String))) :
    totalCost (parseCURReader timeParse reads start stop)
      = addUp ((lineItems (parseCURReader timeParse reads start stop)).map LineItem.costUSD) := by
  rw [totalCost, lineItems, parseCURReader]
  cases readHeader reads with
  | error err => rfl
  | ok idx => exact totalCost_readRows idx reads.tail _ rfl

/-! ### Adjacent windows -/

/-- The row has a date that can be read. -/
def Dated (timeParse : String → String → Option Time) (idx : FinMap String ℤ)
    (row : List String) : Prop :=
  parseCURTime timeParse (getCol row idx colUsageStart) ≠ .zero

/-- The row is network usage. -/
def IsNetwork (idx : FinMap String ℤ) (row : List String) : Prop :=
  isNetworkUsageType (getCol row idx colUsageType) = true

/-- The item of a row without a date, which is in no window. -/
def undatedItem (timeParse : String → String → Option Time) (idx : FinMap String ℤ)
    (row : List String) : Option LineItem :=
  if ¬isNetworkUsageType (getCol row idx colUsageType) then none
  else if parseCURTime timeParse (getCol row idx colUsageStart) ≠ .zero then none
  else some (lineItem timeParse idx row)

theorem undatedItem_eq_none_iff {idx : FinMap String ℤ} {row : List String} :
    undatedItem timeParse idx row = none ↔ (IsNetwork idx row → Dated timeParse idx row) := by
  rw [undatedItem]
  by_cases hnetwork : isNetworkUsageType (getCol row idx colUsageType) = true
  · rw [if_neg (not_not_intro hnetwork)]
    by_cases hdated : parseCURTime timeParse (getCol row idx colUsageStart) ≠ .zero
    · rw [if_pos hdated]
      exact ⟨fun _ _ => hdated, fun _ => rfl⟩
    · rw [if_neg hdated]
      exact ⟨nofun, fun h => absurd (h hnetwork) hdated⟩
  · rw [if_pos hnetwork]
    exact ⟨fun _ h => absurd h hnetwork, fun _ => rfl⟩

/-- Every network row read has a date. -/
def AllDated (timeParse : String → String → Option Time)
    (reads : List (Except String (List String))) : Prop :=
  ∀ r ∈ rowsRead reads, IsNetwork r.1 r.2 → Dated timeParse r.1 r.2

/-- Two adjacent windows of nonzero times. -/
structure Adjacent (start mid stop : Time) : Prop where
  start_ne : start ≠ .zero
  mid_ne : mid ≠ .zero
  stop_ne : stop ≠ .zero
  start_le : mid.before start = false
  le_stop : stop.before mid = false

theorem inWindow_zero (start stop : Time) : inWindow start stop .zero = true := rfl

theorem inWindow_eq {ts : Time} (hts : ts ≠ .zero) (hstart : start ≠ .zero) (hstop : stop ≠ .zero) :
    inWindow start stop ts = (!ts.before start && ts.before stop) := by
  rw [inWindow, if_pos hts]
  cases hbefore : ts.before start <;> cases hend : ts.before stop <;> simp [hstart, hstop]

/-- A date in the window of both is in exactly one of them. -/
theorem inWindow_split (h : Adjacent start mid stop) {ts : Time} (hts : ts ≠ .zero) :
    (inWindow start stop ts = true ↔ inWindow start mid ts = true ∨ inWindow mid stop ts = true) ∧
      ¬(inWindow start mid ts = true ∧ inWindow mid stop ts = true) := by
  rw [inWindow_eq hts h.start_ne h.stop_ne, inWindow_eq hts h.start_ne h.mid_ne,
    inWindow_eq hts h.mid_ne h.stop_ne]
  have hstart : ts.before start = true → ts.before mid = true := fun hbefore =>
    Time.before_trans hbefore h.start_le
  have hstop : ts.before mid = true → ts.before stop = true := fun hbefore =>
    Time.before_trans hbefore h.le_stop
  cases hs : ts.before start <;> cases hm : ts.before mid <;> cases he : ts.before stop <;>
    simp_all

/-- A row is kept in the window of both and, without a date, once more. -/
theorem rowItem_windows (timeParse : String → String → Option Time)
    (h : Adjacent start mid stop) (idx : FinMap String ℤ) (row : List String) :
    (rowItem timeParse idx start mid row).toList ++ (rowItem timeParse idx mid stop row).toList
      = (rowItem timeParse idx start stop row).toList
          ++ (undatedItem timeParse idx row).toList := by
  rw [undatedItem, rowItem, rowItem, rowItem]
  by_cases hnetwork : isNetworkUsageType (getCol row idx colUsageType) = true
  · by_cases hts : parseCURTime timeParse (getCol row idx colUsageStart) = .zero
    · -- no date, in both windows and in the window of both
      simp [hnetwork, hts, inWindow_zero]
    · -- a date is in one of the two at most
      obtain ⟨hiff, hapart⟩ := inWindow_split h hts
      by_cases hfirst : inWindow start mid (parseCURTime timeParse
          (getCol row idx colUsageStart)) = true
      · have hsecond : inWindow mid stop (parseCURTime timeParse
            (getCol row idx colUsageStart)) = false :=
          Bool.eq_false_iff.mpr fun hsecond => hapart ⟨hfirst, hsecond⟩
        simp [hnetwork, hts, hfirst, hsecond, hiff]
      · simp [hnetwork, hts, hfirst, hiff]
  · simp [hnetwork]

theorem coe_filterMap_cons {α β : Type*} (f : α → Option β) (a : α) (l : List α) :
    (((a :: l).filterMap f : List β) : Multiset β)
      = ((f a).toList : Multiset β) + (l.filterMap f : Multiset β) := by
  rw [List.filterMap_cons, Multiset.coe_add]
  cases f a <;> rfl

/-- **Two adjacent windows** have the items of the window of both, and those without a
date once more. -/
theorem items_windows (timeParse : String → String → Option Time) (h : Adjacent start mid stop)
    (reads : List (Except String (List String))) :
    items (parseCURReader timeParse reads start mid)
        + items (parseCURReader timeParse reads mid stop)
      = items (parseCURReader timeParse reads start stop)
          + ((rowsRead reads).filterMap fun r => undatedItem timeParse r.1 r.2) := by
  rw [items_parse, items_parse, items_parse]
  induction rowsRead reads with
  | nil => rfl
  | cons r rows ih =>
    have hrow := congrArg (fun l : List LineItem => (l : Multiset LineItem))
      (rowItem_windows timeParse h r.1 r.2)
    simp only [← Multiset.coe_add] at hrow
    rw [coe_filterMap_cons, coe_filterMap_cons, coe_filterMap_cons, coe_filterMap_cons,
      add_add_add_comm, ih, hrow, add_add_add_comm]

/-- The windows partition the items, and no row is in both. -/
structure ItemsPartition (timeParse : String → String → Option Time)
    (reads : List (Except String (List String))) (start mid stop : Time) : Prop where
  items_eq : items (parseCURReader timeParse reads start stop)
    = items (parseCURReader timeParse reads start mid)
      + items (parseCURReader timeParse reads mid stop)
  apart : ∀ r ∈ rowsRead reads, rowItem timeParse r.1 start mid r.2 = none ∨
    rowItem timeParse r.1 mid stop r.2 = none

/-- A row with a date is in one of the windows at most. -/
theorem rowItem_apart (h : Adjacent start mid stop) {idx : FinMap String ℤ} {row : List String}
    (hdated : IsNetwork idx row → Dated timeParse idx row) :
    rowItem timeParse idx start mid row = none ∨ rowItem timeParse idx mid stop row = none := by
  -- two items of one row would be one too many for the window of both
  have hrow := congrArg List.length (rowItem_windows timeParse h idx row)
  rw [undatedItem_eq_none_iff.mpr hdated] at hrow
  by_contra hboth
  rw [not_or] at hboth
  obtain ⟨item, hitem⟩ := Option.ne_none_iff_exists'.mp hboth.1
  obtain ⟨item', hitem'⟩ := Option.ne_none_iff_exists'.mp hboth.2
  rw [hitem, hitem'] at hrow
  cases hwhole : rowItem timeParse idx start stop row <;> rw [hwhole] at hrow <;> simp at hrow

/-- **Windows partition the items** exactly if every network row read has a date. -/
theorem items_partition_iff (timeParse : String → String → Option Time)
    (reads : List (Except String (List String))) (h : Adjacent start mid stop) :
    ItemsPartition timeParse reads start mid stop ↔ AllDated timeParse reads := by
  have hundated : ((rowsRead reads).filterMap fun r => undatedItem timeParse r.1 r.2) = [] ↔
      AllDated timeParse reads := by
    rw [List.filterMap_eq_nil_iff, AllDated]
    simp only [undatedItem_eq_none_iff]
  have hwindows := items_windows timeParse h reads
  constructor
  · intro hpartition
    rw [← hpartition.items_eq] at hwindows
    exact hundated.mp ((Multiset.coe_eq_zero _).mp (left_eq_add.mp hwindows))
  · intro hdated
    rw [hundated.mpr hdated, Multiset.coe_nil, add_zero] at hwindows
    exact ⟨hwindows.symm, fun r hr => rowItem_apart h (hdated r hr)⟩

/-! ### Totals -/

/-- The item has a date. -/
def LineItem.Dated (item : LineItem) : Prop := item.timestamp ≠ .zero

instance : DecidablePred LineItem.Dated := fun item =>
  inferInstanceAs (Decidable (item.timestamp ≠ .zero))

theorem not_dated_of_undatedItem {idx : FinMap String ℤ} {row : List String} {item : LineItem}
    (h : undatedItem timeParse idx row = some item) : ¬item.Dated := by
  rw [undatedItem] at h
  split_ifs at h with hnetwork hdate
  rw [← Option.some_inj.mp h]
  exact hdate

/-- How far the costs of some items, added up in floats, may be from one another. -/
def roundingOf (items : List LineItem) : ℚ :=
  2 * (growth items.length * mass (items.map LineItem.costUSD))

/-- Totals of two parts, against the total of the whole. -/
theorem abs_total_sub_le {whole first second : List LineItem}
    (hperm : whole.Perm (first ++ second)) {total : List LineItem → Float64}
    (htotal : ∀ l, total l = addUp (l.map LineItem.costUSD))
    (hwhole : (total whole).IsFinite) (hfirst : (total first).IsFinite)
    (hsecond : (total second).IsFinite) :
    |(total whole).toRat - ((total first).toRat + (total second).toRat)| ≤ roundingOf whole := by
  rw [htotal] at hwhole hfirst hsecond ⊢
  rw [htotal, htotal]
  have hcosts := hperm.map LineItem.costUSD
  rw [List.map_append] at hcosts
  have hexact : exact (whole.map LineItem.costUSD)
      = exact (first.map LineItem.costUSD) + exact (second.map LineItem.costUSD) := by
    rw [exact_perm hcosts, exact, List.map_append, List.sum_append]
    rfl
  have hmass : mass (whole.map LineItem.costUSD)
      = mass (first.map LineItem.costUSD) + mass (second.map LineItem.costUSD) := by
    rw [mass_perm hcosts, mass, List.map_append, List.sum_append]
    rfl
  have hpart : ∀ {part : List LineItem}, part.length ≤ whole.length →
      (addUp (part.map LineItem.costUSD)).IsFinite →
      |(addUp (part.map LineItem.costUSD)).toRat - exact (part.map LineItem.costUSD)|
        ≤ growth whole.length * mass (part.map LineItem.costUSD) := by
    intro part hlength hfin
    refine (abs_toRat_addUp_sub_le hfin).trans (mul_le_mul_of_nonneg_right ?_ (mass_nonneg _))
    exact growth_mono (by rwa [List.length_map])
  have hlength : whole.length = first.length + second.length := by
    rw [hperm.length_eq, List.length_append]
  have hw := abs_le.mp (hpart le_rfl hwhole)
  have hf := abs_le.mp (hpart (by omega) hfirst)
  have hs := abs_le.mp (hpart (by omega) hsecond)
  rw [hexact, hmass, mul_add] at hw
  rw [roundingOf, hmass, mul_add, abs_le]
  constructor <;> linarith [hw.1, hw.2, hf.1, hf.2, hs.1, hs.2]

/-- What two adjacent windows are to the window of both: of what is dated they have the
items, none of them twice; a total is what its items add up to; and where all is dated, the
finite totals of the two add up to that of both, as far as floats are not rounded. -/
structure WindowsPartition (timeParse : String → String → Option Time)
    (reads : List (Except String (List String))) (start mid stop : Time) : Prop where
  items_eq : (items (parseCURReader timeParse reads start stop)).filter LineItem.Dated
    = (items (parseCURReader timeParse reads start mid)).filter LineItem.Dated
      + (items (parseCURReader timeParse reads mid stop)).filter LineItem.Dated
  apart : ∀ r ∈ rowsRead reads, Dated timeParse r.1 r.2 →
    rowItem timeParse r.1 start mid r.2 = none ∨ rowItem timeParse r.1 mid stop r.2 = none
  total_eq : ∀ first last, totalCost (parseCURReader timeParse reads first last)
    = addUp ((lineItems (parseCURReader timeParse reads first last)).map LineItem.costUSD)
  total_near : AllDated timeParse reads →
    (totalCost (parseCURReader timeParse reads start stop)).IsFinite →
    (totalCost (parseCURReader timeParse reads start mid)).IsFinite →
    (totalCost (parseCURReader timeParse reads mid stop)).IsFinite →
    |(totalCost (parseCURReader timeParse reads start stop)).toRat
        - ((totalCost (parseCURReader timeParse reads start mid)).toRat
          + (totalCost (parseCURReader timeParse reads mid stop)).toRat)|
      ≤ roundingOf (lineItems (parseCURReader timeParse reads start stop))

/-- **Adjacent windows partition the bill**, for every content and every reading of dates. -/
theorem windows_partition (timeParse : String → String → Option Time)
    (reads : List (Except String (List String))) (h : Adjacent start mid stop) :
    WindowsPartition timeParse reads start mid stop := by
  refine ⟨?_, fun r _ hdated => rowItem_apart h fun _ => hdated,
    fun first last => totalCost_parse reads, fun hdated hwhole hfirst hsecond => ?_⟩
  · have hnone : (((rowsRead reads).filterMap fun r => undatedItem timeParse r.1 r.2 :
        List LineItem) : Multiset LineItem).filter LineItem.Dated = 0 := by
      refine Multiset.filter_eq_nil.mpr fun item hitem => ?_
      obtain ⟨r, -, hr⟩ := List.mem_filterMap.mp (Multiset.mem_coe.mp hitem)
      exact not_dated_of_undatedItem hr
    have hwindows := congrArg (Multiset.filter LineItem.Dated)
      (items_windows timeParse h reads)
    rw [Multiset.filter_add, Multiset.filter_add, hnone, add_zero] at hwindows
    exact hwindows.symm
  · have hperm : (lineItems (parseCURReader timeParse reads start stop)).Perm
        (lineItems (parseCURReader timeParse reads start mid)
          ++ lineItems (parseCURReader timeParse reads mid stop)) := by
      rw [← Multiset.coe_eq_coe, ← Multiset.coe_add]
      exact ((items_partition_iff timeParse reads h).mpr hdated).items_eq
    rw [totalCost_parse] at hwhole hfirst hsecond
    rw [totalCost_parse, totalCost_parse, totalCost_parse]
    exact @abs_total_sub_le _ _ _ hperm (fun l => addUp (l.map LineItem.costUSD))
      (fun _ => rfl) hwhole hfirst hsecond

/-! ### Reports of the first months -/

/-- A reading of dates that knows two. -/
def firstOfMonth (layout value : String) : Option Time :=
  if layout ≠ "2006-01-02T15:04:05Z07:00" then none
  else if value = "2024-02-01T00:00:00Z" then some ⟨24277, 0⟩
  else if value = "2024-03-01T00:00:00Z" then some ⟨24278, 0⟩
  else none

/-- A report of network usage with these dates and costs. -/
def report (rows : List (String × String)) : List (Except String (List String)) :=
  .ok [colUsageStart, colUsageType, colUnblendedUSD] ::
    rows.map fun r => .ok [r.1, "USE1-DataTransfer-Out-Bytes", r.2]

/-- February, March and April of 2024. -/
theorem adjacent_months : Adjacent ⟨24277, 0⟩ ⟨24278, 0⟩ ⟨24279, 0⟩ :=
  ⟨by decide, by decide, by decide, by decide, by decide⟩

/-- A row of each month. -/
def twoMonths : List (Except String (List String)) :=
  report [("2024-02-01T00:00:00Z", "0.1"), ("2024-03-01T00:00:00Z", "0.2"),
    ("2024-03-01T00:00:00Z", "0.3")]

theorem windows_partition_twoMonths :
    WindowsPartition firstOfMonth twoMonths ⟨24277, 0⟩ ⟨24278, 0⟩ ⟨24279, 0⟩ :=
  windows_partition firstOfMonth twoMonths adjacent_months

/-- A row without a date is in both windows. -/
theorem undated_row_twice :
    ¬ItemsPartition firstOfMonth (report [("", "0.09")]) ⟨24277, 0⟩ ⟨24278, 0⟩ ⟨24279, 0⟩ := by
  intro h
  have hitems := congrArg Multiset.card h.items_eq
  exact absurd hitems (by decide +kernel)

/-- The total of both months is not what the totals of each add up to.  A row without a date
is in both windows besides. -/
theorem totals_not_additive :
    totalCost (parseCURReader firstOfMonth twoMonths ⟨24277, 0⟩ ⟨24279, 0⟩) = 0.6000000000000001 ∧
      totalCost (parseCURReader firstOfMonth twoMonths ⟨24277, 0⟩ ⟨24278, 0⟩)
        + totalCost (parseCURReader firstOfMonth twoMonths ⟨24278, 0⟩ ⟨24279, 0⟩) = 0.6 ∧
      (0.6000000000000001 : Float64) ≠ 0.6 ∧
      ¬ItemsPartition firstOfMonth (report [("", "0.09")]) ⟨24277, 0⟩ ⟨24278, 0⟩ ⟨24279, 0⟩ := by
  refine ⟨?_, ?_, ?_, undated_row_twice⟩
  · decide +kernel
  · decide +kernel
  · decide +kernel

end CostReport
