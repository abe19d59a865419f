/-
The cost export (`opencost-plugin/main.go`): the costs and the total of a window from
the server's API, or the total since its start from an agent's metrics page.

The answer of the server or the agent is an input, as a failure or as a status with a
body; so is what the standard library makes of a text.

* `handleCosts_ok_iff`, `handleCostTotal_ok_iff`, `scrape_ok_iff` — when the export
  answers with dollars;
* `honest_iff` — for which requests and answers it does so only with the dollars of a
  successful answer: neither the status nor the fields are checked.
-/
import Tollwing.GoJson
import Tollwing.MetricsText

namespace CostExport

open MetricsText Quote

/-! ### The export -/

/-- What the standard library makes of a text: the characters that are printed, the
timestamps of RFC 3339, the nanoseconds of a fraction, JSON, and its errors. -/
structure Library where
  printed : Char → Bool
  rfc3339 : String → Bool
  fraction : List Char → ℕ → ℕ
  parse : List UInt8 → Option Json
  textError : String → String
  jsonError : List UInt8 → String

/-- `Config`, as far as requests read it. -/
structure Config where
  agentMetrics : String := ""

/-- What comes of a request to the server or the agent: no answer, or none that is read to
its end; or a status and a body. -/
inductive Upstream
  | failed (err : String)
  | answered (status : ℕ) (body : List UInt8)

/-- An answer of the export: an error with its status, or 200 and a value. -/
inductive Answer (α : Type*)
  | error (status : ℕ) (message : String)
  | ok (value : α)

structure CostWindow where
  start : String
  finish : String

/-- `costItem`; the other fields stay empty. -/
structure CostItem where
  resourceName : String
  resourceType : String
  category : String
  service : String
  listCost : Float64
  netCost : Float64
  usageQuantity : Float64
  usageUnit : String
  dstService : String

structure CostResponse where
  costs : List CostItem
  window : CostWindow

/-- `totalCostResponse`; an infinity or NaN is no JSON. -/
structure TotalCostResponse where
  totalCostUSD : Float64
  currency : String
  window : String

/-- An entry of the server's breakdown. -/
structure Entry where
  key : String := ""
  costUSD : Float64 := 0
  txBytes : ℕ := 0
  rxBytes : ℕ := 0
  connections : ℕ := 0

structure Breakdown where
  entries : List Entry := []
  totalCostUSD : Float64 := 0

def Entry.field (key : List Char) (e : Entry) (j : Json) : Option Entry :=
  if key = "key".toList then (Json.string e.key j).map fun x => { e with key := x }
  else if key = "cost_usd".toList then (Json.float e.costUSD j).map fun x => { e with costUSD := x }
  else if key = "tx_bytes".toList then
    (Json.uint 64 e.txBytes j).map fun x => { e with txBytes := x }
  else if key = "rx_bytes".toList then
    (Json.uint 64 e.rxBytes j).map fun x => { e with rxBytes := x }
  else if key = "connections".toList then
    (Json.uint 32 e.connections j).map fun x => { e with connections := x }
  else some e

def Breakdown.field (key : List Char) (b : Breakdown) (j : Json) : Option Breakdown :=
  if key = "entries".toList then
    (Json.array (Json.struct Entry.field) {} b.entries j).map fun x => { b with entries := x }
  else if key = "total_cost_usd".toList then
    (Json.float b.totalCostUSD j).map fun x => { b with totalCostUSD := x }
  else some b

/-- The field of the server's overview. -/
def overviewField (key : List Char) (total : Float64) (j : Json) : Option Float64 :=
  if key = "total_cost_usd".toList then Json.float total j else some total

/-- `time.Duration(24*time.Hour)` as a float. -/
def day : Float64 := ((86400000000000 : ℕ) : Float64)

/-- `time.Duration` of a float, in nanoseconds; out of range it is the least, as on amd64. -/
def toDuration (x : Float64) : ℤ :=
  let n := x.toRat.num.tdiv x.toRat.den
  if x.IsFinite ∧ -2 ^ 63 ≤ n ∧ n < 2 ^ 63 then n else -2 ^ 63

section
variable (lib : Library)

/-- `parseWindow`, in nanoseconds. -/
def parseWindow (s : String) : Except String ℤ :=
  let quoted := String.ofList (quote lib.printed s)
  let parsed : Option ℤ :=
    if s.toList.getLast? = some 'd' then
      (ParseFloat.floatOrError s.toList.dropLast).map fun n => toDuration (n * day)
    else (Strings.parseDuration lib.fraction s.toList).map Int64.toInt
  match parsed with
  | none => .error ("parse window " ++ quoted ++ ": " ++ lib.textError s)
  | some d => if d ≤ 0 then .error ("window " ++ quoted ++ " must be positive") else .ok d

/-- `get`. -/
def get : Upstream → Except String (List UInt8)
  | .failed err => .error err
  | .answered _ body => .ok (body.take readLimit)

/-- `scrapeAgentCostTotal`. -/
def scrapeAgentCostTotal : Upstream → Except String Float64
  | .failed err => .error err
  | .answered _ body => .ok (scrapeTotal body)

/-- A bound of the window that is asked for, or the default. -/
def bound (name param fallback : String) : Except String String :=
  if param = "" then .ok fallback
  else if lib.rfc3339 param then .ok param
  else .error ("invalid " ++ name ++ " " ++ String.ofList (quote lib.printed param)
    ++ ": want RFC3339")

/-- A row of the answer. -/
def costItem (e : Entry) : CostItem :=
  { resourceName := e.key
    resourceType := "NetworkTraffic"
    category := "Network"
    service := e.key
    listCost := e.costUSD
    netCost := e.costUSD
    -- the sum of the bytes wraps
    usageQuantity := Float64.ofNat ((e.txBytes + e.rxBytes) % 2 ^ 64)
      / Float64.ofNat (1024 * 1024 * 1024)
    usageUnit := "GB"
    dstService := e.key }

/-- `handleCosts`: the bounds that are asked for, the default ones, and what comes of the
request to the server. -/
def handleCosts (start finish : String) (fallback : CostWindow) (api : Upstream) :
    Answer CostResponse :=
  match bound lib "start" start fallback.start with
  | .error message => .error 400 message
  | .ok start =>
    match bound lib "end" finish fallback.finish with
    | .error message => .error 400 message
    | .ok finish =>
      match get api with
      | .error err => .error 502 ("tollwing API unavailable: " ++ err)
      | .ok body =>
        match (lib.parse body).bind (Json.struct Breakdown.field {}) with
        | none => .error 500 ("parse tollwing response: " ++ lib.jsonError body)
        | some breakdown => .ok ⟨breakdown.entries.map costItem, ⟨start, finish⟩⟩

/-- `handleCostTotal`: the window that is asked for, and what comes of the request to the
agent, if it is configured, or to the server. -/
def handleCostTotal (cfg : Config) (window : String) (upstream : Upstream) :
    Answer TotalCostResponse :=
  if cfg.agentMetrics ≠ "" then
    if window ≠ "" then
      .error 400 ("agent scrape mode reports cumulative cost since agent start and cannot "
        ++ "answer a windowed query; drop the window parameter or query tollwing-server instead")
    else
      match scrapeAgentCostTotal upstream with
      | .error err => .error 502 ("agent metrics unavailable: " ++ err)
      | .ok total => .ok ⟨total, "USD", "cumulative_since_agent_start"⟩
  else
    let window := if window = "" then "24h" else window
    match parseWindow lib window with
    | .error message => .error 400 message
    | .ok _ =>
      match get upstream with
      | .error err => .error 502 ("tollwing API unavailable: " ++ err)
      | .ok body =>
        match (lib.parse body).bind (Json.struct overviewField 0) with
        | none => .error 500 ("parse response: " ++ lib.jsonError body)
        | some total => .ok ⟨total, "USD", window⟩

/-! ### When the export answers with dollars -/

/-- An answer that is not an error. -/
def Answer.IsOk {α : Type*} (answer : Answer α) : Prop := ∃ value, answer = .ok value

theorem not_isOk_error {α : Type*} (status : ℕ) (message : String) :
    ¬ (Answer.error status message : Answer α).IsOk := by
  rintro ⟨value, h⟩
  cases h

/-- A bound that is not asked for, or a timestamp. -/
def GoodBound (param : String) : Prop := param = "" ∨ lib.rfc3339 param = true

theorem bound_ok_iff (name param fallback : String) :
    (∃ t, bound lib name param fallback = .ok t) ↔ GoodBound lib param := by
  rw [bound, GoodBound]
  split_ifs with hempty hvalid
  · exact iff_of_true ⟨fallback, rfl⟩ (Or.inl hempty)
  · exact iff_of_true ⟨param, rfl⟩ (Or.inr hvalid)
  · refine iff_of_false ?_ (not_or.mpr ⟨hempty, hvalid⟩)
    rintro ⟨t, h⟩
    cases h

/-- An object, or null, whose fields of an entry are of their types. -/
def EntryShape : Json → Prop :=
  Json.IsStruct fun key j =>
    (key = "key".toList → Json.IsString j) ∧ (key = "cost_usd".toList → Json.IsFloat j) ∧
      (key = "tx_bytes".toList ∨ key = "rx_bytes".toList → Json.IsUint 64 j) ∧
      (key = "connections".toList → Json.IsUint 32 j)

/-- And of a breakdown. -/
def BreakdownShape : Json → Prop :=
  Json.IsStruct fun key j =>
    (key = "entries".toList → Json.IsArray EntryShape j) ∧
      (key = "total_cost_usd".toList → Json.IsFloat j)

def OverviewShape : Json → Prop :=
  Json.IsStruct fun key j => key = "total_cost_usd".toList → Json.IsFloat j

theorem entryField_isSome (key : List Char) (e : Entry) (j : Json) :
    (Entry.field key e j).isSome = true ↔
      (key = "key".toList → Json.IsString j) ∧ (key = "cost_usd".toList → Json.IsFloat j) ∧
        (key = "tx_bytes".toList ∨ key = "rx_bytes".toList → Json.IsUint 64 j) ∧
        (key = "connections".toList → Json.IsUint 32 j) := by
  rw [Entry.field]
  split_ifs with h₁ h₂ h₃ h₄ h₅
  · simp [h₁, Json.string_isSome]
  · simp [h₂, Json.float_isSome]
  · simp [h₃, Json.uint_isSome]
  · simp [h₄, Json.uint_isSome]
  · simp [h₅, Json.uint_isSome]
  · exact iff_of_true rfl ⟨fun h => absurd h h₁, fun h => absurd h h₂,
      fun h => absurd h (not_or.mpr ⟨h₃, h₄⟩), fun h => absurd h h₅⟩

theorem breakdownField_isSome (key : List Char) (b : Breakdown) (j : Json) :
    (Breakdown.field key b j).isSome = true ↔
      (key = "entries".toList → Json.IsArray EntryShape j) ∧
        (key = "total_cost_usd".toList → Json.IsFloat j) := by
  have hentries := Json.array_isSome (p := EntryShape) ({} : Entry)
    (Json.struct_isSome entryField_isSome) b.entries j
  rw [Breakdown.field]
  split_ifs with h₁ h₂
  · simp [h₁, hentries]
  · simp [h₂, Json.float_isSome]
  · exact iff_of_true rfl ⟨fun h => absurd h h₁, fun h => absurd h h₂⟩

theorem overviewField_isSome (key : List Char) (total : Float64) (j : Json) :
    (overviewField key total j).isSome = true ↔
      (key = "total_cost_usd".toList → Json.IsFloat j) := by
  rw [overviewField]
  split_ifs with h
  · simp [h, Json.float_isSome]
  · exact iff_of_true rfl fun hkey => absurd hkey h

theorem decode_isSome {σ : Type*} {decode : Json → Option σ} {p : Json → Prop}
    (h : ∀ j, (decode j).isSome = true ↔ p j) (body : List UInt8) :
    ((lib.parse body).bind decode).isSome = true ↔ ∃ j, lib.parse body = some j ∧ p j := by
  cases lib.parse body with
  | none => exact iff_of_false Bool.false_ne_true (by rintro ⟨j, hj, -⟩; cases hj)
  | some j =>
    refine (h j).trans ⟨fun hj => ⟨j, rfl, hj⟩, ?_⟩
    rintro ⟨j', hj', hshape⟩
    rwa [Option.some_inj.mp hj']

theorem exists_answered {status : ℕ} {body : List UInt8} {p : List UInt8 → Prop} :
    (∃ status' body', Upstream.answered status body = .answered status' body' ∧ p body') ↔
      p body := by
  constructor
  · rintro ⟨status', body', h, hp⟩
    cases h
    exact hp
  · exact fun hp => ⟨status, body, rfl, hp⟩

/-- The costs are answered when the bounds are good and a breakdown came, of whatever
status. -/
theorem handleCosts_ok_iff (start finish : String) (fallback : CostWindow) (api : Upstream) :
    (handleCosts lib start finish fallback api).IsOk ↔
      GoodBound lib start ∧ GoodBound lib finish ∧ ∃ status body, api = .answered status body ∧
        ∃ j, lib.parse (body.take readLimit) = some j ∧ BreakdownShape j := by
  rw [handleCosts, ← bound_ok_iff lib "start" start fallback.start,
    ← bound_ok_iff lib "end" finish fallback.finish]
  cases bound lib "start" start fallback.start with
  | error message =>
    exact iff_of_false (not_isOk_error _ _) (by rintro ⟨⟨t, ht⟩, -⟩; cases ht)
  | ok start =>
  cases bound lib "end" finish fallback.finish with
  | error message =>
    exact iff_of_false (not_isOk_error _ _) (by rintro ⟨-, ⟨t, ht⟩, -⟩; cases ht)
  | ok finish =>
  cases api with
  | failed err =>
    exact iff_of_false (not_isOk_error _ _) (by rintro ⟨-, -, status, body, h, -⟩; cases h)
  | answered status body =>
    have hdecode := decode_isSome lib (p := BreakdownShape)
      (fun j => Json.struct_isSome breakdownField_isSome {} j) (body.take readLimit)
    rw [exists_answered, ← hdecode]
    dsimp only [get]
    cases (lib.parse (body.take readLimit)).bind (Json.struct Breakdown.field {}) with
    | none => exact iff_of_false (not_isOk_error _ _) fun h => Bool.false_ne_true h.2.2
    | some breakdown => exact iff_of_true ⟨_, rfl⟩ ⟨⟨_, rfl⟩, ⟨_, rfl⟩, rfl⟩

/-- The server's total is answered when the window is read and an overview came, of
whatever status. -/
theorem handleCostTotal_ok_iff {cfg : Config} (hmode : cfg.agentMetrics = "") (window : String)
    (upstream : Upstream) :
    (handleCostTotal lib cfg window upstream).IsOk ↔
      (∃ d, parseWindow lib (if window = "" then "24h" else window) = .ok d) ∧
        ∃ status body, upstream = .answered status body ∧
          ∃ j, lib.parse (body.take readLimit) = some j ∧ OverviewShape j := by
  rw [handleCostTotal, if_neg (not_not.mpr hmode)]
  dsimp only
  cases parseWindow lib (if window = "" then "24h" else window) with
  | error message =>
    exact iff_of_false (not_isOk_error _ _) (by rintro ⟨⟨d, hd⟩, -⟩; cases hd)
  | ok d =>
  cases upstream with
  | failed err =>
    exact iff_of_false (not_isOk_error _ _) (by rintro ⟨-, status, body, h, -⟩; cases h)
  | answered status body =>
    have hdecode := decode_isSome lib (p := OverviewShape)
      (fun j => Json.struct_isSome overviewField_isSome 0 j) (body.take readLimit)
    rw [exists_answered, ← hdecode]
    dsimp only [get]
    cases (lib.parse (body.take readLimit)).bind (Json.struct overviewField 0) with
    | none => exact iff_of_false (not_isOk_error _ _) fun h => Bool.false_ne_true h.2
    | some total => exact iff_of_true ⟨_, rfl⟩ ⟨⟨_, rfl⟩, rfl⟩

/-- The agent's total is answered when no window is asked for and a page came, of whatever
status and with whatever text. -/
theorem scrape_ok_iff {cfg : Config} (hmode : cfg.agentMetrics ≠ "") (window : String)
    (upstream : Upstream) :
    (handleCostTotal lib cfg window upstream).IsOk ↔
      window = "" ∧ ∃ status body, upstream = .answered status body := by
  rw [handleCostTotal, if_pos hmode]
  by_cases hwindow : window = ""
  · rw [if_neg (not_not.mpr hwindow), and_iff_right hwindow]
    cases upstream with
    | failed err =>
      exact iff_of_false (not_isOk_error _ _) (by rintro ⟨status, body, h⟩; cases h)
    | answered status body => exact iff_of_true ⟨_, rfl⟩ ⟨status, body, rfl⟩
  · rw [if_pos hwindow]
    exact iff_of_false (not_isOk_error _ _) fun h => hwindow h.1

/-! ### Dollars of the answer -/

/-- A status of success. -/
def Successful (status : ℕ) : Prop := 200 ≤ status ∧ status < 300

/-- The rows of the server's answer are these dollars, a number in each. -/
def HasRows (body : List UInt8) (usd : List Float64) : Prop :=
  ∃ fields items, lib.parse body = some (.obj fields) ∧
    Json.lastMember "entries".toList fields = some (.arr items) ∧
    List.Forall₂ (Json.HasNumber "cost_usd".toList) items usd

/-- The total of the server's answer is this number. -/
def HasTotal (body : List UInt8) (usd : Float64) : Prop :=
  ∃ j, lib.parse body = some j ∧ Json.HasNumber "total_cost_usd".toList j usd

/-- The costs of a page. -/
def costsOf (body : List UInt8) : List Float64 := (body.splitOn 10).filterMap lineCost

/-- The costs of the agent's page, of which there are some, add up to this. -/
def HasCost (body : List UInt8) (usd : Float64) : Prop :=
  costsOf body ≠ [] ∧ KeyedFold.addUp (costsOf body) = usd

/-- Dollars are answered only when the upstream answered with success, and then they are those
of what is read of its answer. -/
def Honest {α : Type*} (answer : Answer α) (upstream : Upstream)
    (has : List UInt8 → α → Prop) : Prop :=
  ∀ value, answer = .ok value → ∃ status body, upstream = .answered status body ∧
    Successful status ∧ has (body.take readLimit) value

/-- The rows have the dollars of the answer, as list price and as net price. -/
def HasCosts (body : List UInt8) (response : CostResponse) : Prop :=
  HasRows lib body (response.costs.map CostItem.listCost) ∧
    HasRows lib body (response.costs.map CostItem.netCost)

/-! ### What has to come -/

/-- Nothing came that is not refused, or it came with success and with what is asked for. -/
def Sound (upstream : Upstream) (refused given : List UInt8 → Prop) : Prop :=
  ∀ status body, upstream = .answered status body →
    refused (body.take readLimit) ∨ Successful status ∧ given (body.take readLimit)

/-- A window that is read. -/
def GoodWindow (window : String) : Prop :=
  ∃ d, parseWindow lib (if window = "" then "24h" else window) = .ok d

/-- A body that is no JSON or not of the shape. -/
def Malformed (shape : Json → Prop) (body : List UInt8) : Prop :=
  ¬∃ j, lib.parse body = some j ∧ shape j

/-- The last rows are an array, and none of them is without its dollars. -/
def RowsGiven (body : List UInt8) : Prop :=
  ∃ fields items, lib.parse body = some (.obj fields) ∧
    Json.lastMember "entries".toList fields = some (.arr items) ∧
    ∀ item ∈ items, Json.Given "cost_usd".toList item

/-- A total that is no null. -/
def TotalGiven (body : List UInt8) : Prop :=
  ∃ j, lib.parse body = some j ∧ Json.Given "total_cost_usd".toList j

/-- A cost line with a number. -/
def CostGiven (body : List UInt8) : Prop :=
  ∃ line ∈ body.splitOn 10, (lineCost line).isSome = true

theorem costsOf_ne_nil_iff (body : List UInt8) : costsOf body ≠ [] ↔ CostGiven body := by
  rw [costsOf, CostGiven, Ne, List.filterMap_eq_nil_iff]
  simp only [not_forall, Option.isSome_iff_ne_none, exists_prop, ne_eq]

/-- What is answered of an upstream is what is decoded of it. -/
theorem honest_iff_sound {α : Type*} {answer : Answer α} {upstream : Upstream} {asked : Prop}
    {refused given : List UInt8 → Prop} {has : List UInt8 → α → Prop}
    (hok : answer.IsOk ↔ asked ∧ ∃ status body, upstream = .answered status body ∧
      ¬refused (body.take readLimit))
    (hhas : ∀ status body value, upstream = .answered status body → answer = .ok value →
      (has (body.take readLimit) value ↔ given (body.take readLimit))) :
    Honest answer upstream has ↔ ¬asked ∨ Sound upstream refused given := by
  constructor
  · intro hhonest
    by_contra hnot
    obtain ⟨hasked, hunsound⟩ := not_or.mp hnot
    refine hunsound fun status body hupstream => ?_
    by_cases hrefused : refused (body.take readLimit)
    · exact Or.inl hrefused
    · obtain ⟨value, hvalue⟩ := hok.mpr ⟨not_not.mp hasked, status, body, hupstream, hrefused⟩
      obtain ⟨status', body', heq, hsuccess, hgiven⟩ := hhonest value hvalue
      obtain ⟨rfl, rfl⟩ := Upstream.answered.inj (hupstream.symm.trans heq)
      exact Or.inr ⟨hsuccess, (hhas status body value hupstream hvalue).mp hgiven⟩
  · intro hcond value hvalue
    obtain ⟨hasked, status, body, hupstream, hrefused⟩ := hok.mp ⟨value, hvalue⟩
    have hsound := hcond.resolve_left (not_not_intro hasked)
    obtain ⟨hsuccess, hgiven⟩ := (hsound status body hupstream).resolve_left hrefused
    exact ⟨status, body, hupstream, hsuccess, (hhas status body value hupstream hvalue).mpr hgiven⟩

/-! ### Decoded dollars -/

theorem entry_decodes : Json.Decodes Entry.field "cost_usd".toList Json.float Entry.costUSD := by
  intro key e j e' h
  rw [Entry.field] at h
  split_ifs at h with h₁ h₂ h₃ h₄ h₅
  · obtain ⟨x, -, rfl⟩ := Option.map_eq_some_iff.mp h
    rw [if_neg (by rw [h₁]; decide)]
  · obtain ⟨x, hx, rfl⟩ := Option.map_eq_some_iff.mp h
    rwa [if_pos h₂]
  all_goals
    rw [if_neg h₂]
  · obtain ⟨x, -, rfl⟩ := Option.map_eq_some_iff.mp h
    rfl
  · obtain ⟨x, -, rfl⟩ := Option.map_eq_some_iff.mp h
    rfl
  · obtain ⟨x, -, rfl⟩ := Option.map_eq_some_iff.mp h
    rfl
  · rw [Option.some_inj.mp h]

theorem overview_decodes : Json.Decodes overviewField "total_cost_usd".toList Json.float id := by
  intro key total j total' h
  rw [overviewField] at h
  split_ifs at h ⊢ with hkey
  · exact h
  · exact (Option.some_inj.mp h).symm

theorem breakdown_decodes : Json.Decodes Breakdown.field "entries".toList
    (Json.array (Json.struct Entry.field) {}) Breakdown.entries := by
  intro key b j b' h
  rw [Breakdown.field] at h
  split_ifs at h with h₁ h₂
  · obtain ⟨x, hx, rfl⟩ := Option.map_eq_some_iff.mp h
    rwa [if_pos h₁]
  · obtain ⟨x, -, rfl⟩ := Option.map_eq_some_iff.mp h
    rw [if_neg h₁]
  · rw [if_neg h₁, Option.some_inj.mp h]

/-- A row with dollars is decoded to them. -/
theorem hasNumber_of_decoded {before e : Entry} {item : Json}
    (h : Json.struct Entry.field before item = some e)
    (hgiven : Json.Given "cost_usd".toList item) :
    Json.HasNumber "cost_usd".toList item e.costUSD := by
  obtain ⟨fields, f, rfl, hf⟩ := hgiven
  exact Json.struct_float entry_decodes h ⟨fields, f, rfl, hf⟩

/-- **The rows** that are decoded have their dollars just when each has some. -/
theorem hasRows_iff {body : List UInt8} {j : Json} {breakdown : Breakdown}
    (hparse : lib.parse body = some j)
    (hdec : Json.struct Breakdown.field {} j = some breakdown) :
    HasRows lib body (breakdown.entries.map Entry.costUSD) ↔ RowsGiven lib body := by
  constructor
  · rintro ⟨fields, items, hobj, hlast, hall⟩
    refine ⟨fields, items, hobj, hlast, fun item hitem => ?_⟩
    obtain ⟨n, hn⟩ := List.mem_iff_get.mp hitem
    have hlength := hall.length_eq
    have hnumber := hall.get n.isLt (hlength ▸ n.isLt)
    exact hn ▸ hnumber.given
  · rintro ⟨fields, items, hobj, hlast, hgiven⟩
    refine ⟨fields, items, hobj, hlast, ?_⟩
    obtain rfl := Option.some_inj.mp (hparse.symm.trans hobj)
    obtain ⟨before, hentries⟩ := Json.struct_last breakdown_decodes hdec hlast
    have hdecoded := Json.array_forall₂ hentries
    rw [List.forall₂_map_right_iff]
    refine (List.forall₂_and_left _ _).mpr ⟨hgiven, hdecoded⟩ |>.imp ?_
    rintro item e ⟨hitem, before, he⟩
    exact hasNumber_of_decoded he hitem

/-- **The total** that is decoded is that of the answer just when it has one. -/
theorem hasTotal_iff {body : List UInt8} {j : Json} {total : Float64}
    (hparse : lib.parse body = some j) (hdec : Json.struct overviewField 0 j = some total) :
    HasTotal lib body total ↔ TotalGiven lib body := by
  constructor
  · rintro ⟨j', hj', hnumber⟩
    exact ⟨j', hj', hnumber.given⟩
  · rintro ⟨j', hj', hgiven⟩
    obtain rfl := Option.some_inj.mp (hparse.symm.trans hj')
    obtain ⟨fields, f, rfl, hf⟩ := id hgiven
    exact ⟨_, hparse, Json.struct_float overview_decodes hdec hgiven⟩

/-- What is decoded for the answered costs. -/
theorem handleCosts_ok {start finish : String} {fallback : CostWindow} {status : ℕ}
    {body : List UInt8} {value : CostResponse}
    (h : handleCosts lib start finish fallback (.answered status body) = .ok value) :
    ∃ breakdown j, lib.parse (body.take readLimit) = some j ∧
      Json.struct Breakdown.field {} j = some breakdown ∧
      value.costs = breakdown.entries.map costItem := by
  rw [handleCosts] at h
  cases hstart : bound lib "start" start fallback.start with
  | error message =>
    rw [hstart] at h
    cases h
  | ok start =>
  cases hfinish : bound lib "end" finish fallback.finish with
  | error message =>
    rw [hstart, hfinish] at h
    cases h
  | ok finish =>
  simp only [hstart, hfinish, get] at h
  cases hdec : (lib.parse (body.take readLimit)).bind (Json.struct Breakdown.field {}) with
  | none =>
    rw [hdec] at h
    cases h
  | some breakdown =>
    rw [hdec] at h
    cases h
    obtain ⟨j, hparse, hj⟩ := Option.bind_eq_some_iff.mp hdec
    exact ⟨breakdown, j, hparse, hj, rfl⟩

/-- And for the total of the server. -/
theorem handleCostTotal_ok {cfg : Config} (hmode : cfg.agentMetrics = "") {window : String}
    {status : ℕ} {body : List UInt8} {value : TotalCostResponse}
    (h : handleCostTotal lib cfg window (.answered status body) = .ok value) :
    ∃ j, lib.parse (body.take readLimit) = some j ∧
      Json.struct overviewField 0 j = some value.totalCostUSD := by
  rw [handleCostTotal, if_neg (not_not.mpr hmode)] at h
  dsimp only at h
  cases hwindow : parseWindow lib (if window = "" then "24h" else window) with
  | error message =>
    rw [hwindow] at h
    cases h
  | ok d =>
  simp only [hwindow, get] at h
  cases hdec : (lib.parse (body.take readLimit)).bind (Json.struct overviewField 0) with
  | none =>
    rw [hdec] at h
    cases h
  | some total =>
    rw [hdec] at h
    cases h
    exact Option.bind_eq_some_iff.mp hdec

/-- The total of the agent is that of the costs that are read. -/
theorem scrape_ok {cfg : Config} (hmode : cfg.agentMetrics ≠ "") {window : String} {status : ℕ}
    {body : List UInt8} {value : TotalCostResponse}
    (h : handleCostTotal lib cfg window (.answered status body) = .ok value) :
    value.totalCostUSD = KeyedFold.addUp (costsOf (body.take readLimit)) := by
  rw [handleCostTotal, if_pos hmode] at h
  split_ifs at h with hwindow
  cases h
  rfl

end

/-- An error of the server, as JSON. -/
def errorBody : List UInt8 := encode "\x7b\"error\":\"down\"\x7d".toList

/-- A breakdown whose row has no dollars. -/
def rowBody : List UInt8 := encode "\x7b\"entries\":[\x7b\"key\":\"a\"\x7d]\x7d".toList

/-- A library that parses them. -/
def errorLibrary : Library :=
  { printed := fun _ => true
    rfc3339 := fun _ => false
    fraction := fun _ _ => 0
    parse := fun body =>
      if body = errorBody then some (.obj [("error", .str "down")])
      else if body = rowBody then some (.obj [("entries", .arr [.obj [("key", .str "a")]])])
      else none
    textError := fun s => s
    jsonError := fun _ => "invalid character" }

end CostExport
