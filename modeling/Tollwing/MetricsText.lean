/-
The metrics page of the exporter, and what the cost export adds up of it
(`pkg/exporter/prometheus.go`, `opencost-plugin/main.go`).

`handleMetrics` writes line after line; a scrape reads the first mebibyte of the page
and adds up the numbers at the ends of the cost lines.

* `costs_of_page` — a page that is cut short after its cost lines still gives each of
  them once;
* `scrape_handleMetrics` — a scrape of any page adds up the costs as they are printed, in
  the order of the types, and is off by the roundings of the additions at most;
* `scrape_tenths` — costs that do not add up to the float of their sum.
-/
import Mathlib.Algebra.BigOperators.Fin
import Tollwing.Exporter
import Tollwing.FloatSum
import Tollwing.Quote
import Tollwing.ScanFloat
import Tollwing.TrafficType

namespace MetricsText

open Quote

/-! ### The page -/

/-- A line of the page, without its line break. -/
abbrev Line := List Char

/-- `%d`. -/
def decimal (n : ℤ) : Line := (if n < 0 then ['-'] else []) ++ Nat.toDigits 10 n.natAbs

/-- The labels of a sample, in braces. -/
def labels (table : Char → Bool) (pairs : List (String × String)) : Line :=
  '\x7b' :: [','].intercalate (pairs.map fun p => p.1.toList ++ '=' :: quote table p.2)
    ++ ['\x7d']

/-- The comments in front of a metric. -/
def comments (name help kind : String) : List Line :=
  [("# HELP " ++ name ++ " " ++ help).toList, ("# TYPE " ++ name ++ " " ++ kind).toList]

/-- A metric: its comments, and its samples as labels and a value. -/
def family (name help kind : String) (samples : List (Line × Line)) : List Line :=
  comments name help kind ++ samples.map fun sample => name.toList ++ sample.1 ++ ' ' :: sample.2

/-- `TrafficType(i)`. -/
def trafficType : ℕ → TrafficType
  | 1 => .sameZone
  | 2 => .crossAZ
  | 3 => .crossRegion
  | 4 => .internetEgress
  | 5 => .natGatewayEgress
  | 6 => .vpcPeering
  | 7 => .transitGateway
  | 8 => .vpcEndpoint
  | 9 => .cloudServicePublic
  | 10 => .intraNode
  | 11 => .serviceMeshInternal
  | _ => .unknown

/-- `HealthStats`, as far as the page shows it. -/
structure Health where
  enricherCacheSize : ℤ
  dnsCacheSize : ℤ
  goroutineCount : ℤ
  heapAllocBytes : UInt64
  heapSysBytes : UInt64

/-- What the page shows of an exporter beyond its polls. -/
structure View extends Exporter Float64 where
  totalEstablished : UInt64
  totalClosed : UInt64
  ringbufDrops : UInt64
  mapUpdateDrops : UInt64
  cachedHealth : Option Health

/-- The orders in which the pod tables are ranged over. -/
structure PodOrders where
  tx : RangeOrder PodKey
  rx : RangeOrder PodKey
  cost : RangeOrder PodKey

section
variable (table : Char → Bool)

/-- A sample for every traffic type. -/
def byType (value : Fin numTrafficTypes → Line) : List (Line × Line) :=
  (List.finRange numTrafficTypes).map fun i =>
    (labels table [("traffic_type", (trafficType i.val).string)], value i)

/-- A sample for every pod. -/
def byPod {ν : Type*} (entries : List (PodKey × ν)) (value : ν → Line) : List (Line × Line) :=
  entries.map fun e => (labels table [("namespace", e.1.ns), ("pod", e.1.pod)], value e.2)

def single (n : ℤ) : List (Line × Line) := [([], decimal n)]

/-- What stands on the page before the costs. -/
def trafficFamilies (e : View) : List Line :=
  family "tollwing_active_connections" "Number of currently tracked connections." "gauge"
    (single e.state.activeConns.toInt)
  ++ family "tollwing_connections_established_total" "Total connections established." "counter"
    (single e.totalEstablished.toNat)
  ++ family "tollwing_connections_closed_total" "Total connections closed." "counter"
    (single e.totalClosed.toNat)
  ++ family "tollwing_tx_bytes_total" "Bytes sent by traffic type." "counter"
    (byType table fun i => decimal (e.state.txByType i).toNat)
  ++ family "tollwing_rx_bytes_total" "Bytes received by traffic type." "counter"
    (byType table fun i => decimal (e.state.rxByType i).toNat)
  ++ family "tollwing_connections_by_type" "Active connections by traffic type." "gauge"
    (byType table fun i => decimal (e.state.connsByType i).toInt)
  ++ family "tollwing_retransmit_bytes_total" "Total retransmitted bytes (wasted bandwidth)."
    "counter" (single e.state.retransmitBytes.toNat)
  ++ family "tollwing_retransmit_count_total" "Total number of retransmissions." "counter"
    (single e.state.retransmitCount.toNat)

def costSamples (e : View) : List (Line × Line) :=
  byType table fun i => FixedPoint.printFloat 6 (e.state.costByType i)

def costFamily (e : View) : List Line :=
  family "tollwing_cost_usd_total" "Estimated network cost in USD by traffic type." "counter"
    (costSamples table e)

/-- The pods, if there are any. -/
def podFamilies (orders : PodOrders) (e : View) : List Line :=
  if 0 < FinMap.card e.state.pods.metrics then
    family "tollwing_pod_tx_bytes_total" "Bytes sent per pod." "counter"
      (byPod table (e.state.pods.metrics.listed orders.tx) fun pm => decimal pm.txBytes.toNat)
    ++ family "tollwing_pod_rx_bytes_total" "Bytes received per pod." "counter"
      (byPod table (e.state.pods.metrics.listed orders.rx) fun pm => decimal pm.rxBytes.toNat)
    ++ family "tollwing_pod_cost_usd_total" "Estimated network cost in USD per pod." "counter"
      (byPod table (e.state.pods.cost.listed orders.cost) fun cost => FixedPoint.printFloat 6 cost)
  else []

def selfFamilies (e : View) : List Line :=
  family "tollwing_sidecar_skipped_bytes_total"
    "Bytes skipped from sidecar-internal (loopback) traffic." "counter"
    (single e.state.sidecarSkippedBytes.toNat)
  ++ family "tollwing_sidecar_skipped_connections_total"
    "Connections skipped from sidecar-internal traffic." "counter"
    (single e.state.sidecarSkippedConns.toNat)
  ++ family "tollwing_poll_total" "Total number of map poll ticks." "counter"
    (single e.pollCount.toNat)
  ++ family "tollwing_ringbuf_drops_total" "Ring buffer events dropped due to full buffer."
    "counter" (single e.ringbufDrops.toNat)
  ++ family "tollwing_map_update_drops_total"
    ("BPF map updates dropped because the map was full "
      ++ "(flow_aggregates + quic_flows).") "counter" (single e.mapUpdateDrops.toNat)

def healthFamilies (e : View) : List Line :=
  match e.cachedHealth with
  | none => []
  | some h =>
    family "tollwing_enricher_cache_size"
      "Current number of entries in the PID enricher cache." "gauge" (single h.enricherCacheSize)
    ++ family "tollwing_dns_cache_size" "Current number of entries in the DNS cache." "gauge"
      (single h.dnsCacheSize)
    ++ family "tollwing_goroutines" "Current number of goroutines." "gauge"
      (single h.goroutineCount)
    ++ family "tollwing_heap_alloc_bytes" "Current heap allocation in bytes." "gauge"
      (single h.heapAllocBytes.toNat)
    ++ family "tollwing_heap_sys_bytes" "Total heap memory obtained from OS." "gauge"
      (single h.heapSysBytes.toNat)

/-- `handleMetrics`, line by line. -/
def handleMetrics (orders : PodOrders) (e : View) : List Line :=
  trafficFamilies table e ++ costFamily table e ++ podFamilies table orders e ++ selfFamilies e
    ++ healthFamilies e

end

/-- UTF-8. -/
def encode (cs : List Char) : List UInt8 := cs.flatMap String.utf8EncodeChar

/-- The bytes of some lines, each with its line break. -/
def pageBytes (lines : List Line) : List UInt8 := lines.flatMap fun line => encode line ++ [10]

/-! ### The scrape -/

/-- `strings.HasPrefix(line, "tollwing_cost_usd_total{")`. -/
def costPrefix : List UInt8 := encode "tollwing_cost_usd_total\x7b".toList

/-- The number after the last space of a cost line, unless it does not read as one. -/
def lineCost (line : List UInt8) : Option Float64 :=
  if costPrefix.isPrefixOf line ∧ 32 ∈ line then
    ScanFloat.sscanf (line.rtakeWhile fun b => b ≠ 32)
  else none

/-- The limit of `io.LimitReader`. -/
def readLimit : ℕ := 2 ^ 20

/-- `scrapeAgentCostTotal`, from the body of the answer on. -/
def scrapeTotal (body : List UInt8) : Float64 :=
  (((body.take readLimit).splitOn 10).filterMap lineCost).foldl (fun total val => total + val) 0

/-! ### Bytes of characters -/

/-- A byte of a character is the character itself, in ASCII, or beyond ASCII. -/
theorem mem_utf8EncodeChar {c : Char} {b : UInt8} (h : b ∈ String.utf8EncodeChar c) :
    c.toNat < 128 ∧ b.toNat = c.toNat ∨ 128 ≤ b.toNat := by
  have hbyte : ∀ x : ℕ, x < 256 → (UInt8.ofNat x).toNat = x := fun x hx =>
    UInt8.toNat_ofNat_of_lt hx
  rw [String.utf8EncodeChar] at h
  split_ifs at h with h₁ h₂ h₃
  · have hlt : c.toNat < 128 := Nat.lt_succ_iff.mpr h₁
    exact Or.inl ⟨hlt, by rw [List.mem_singleton.mp h]; exact hbyte _ (hlt.trans (by omega))⟩
  all_goals
    right
    simp only [List.mem_cons, List.not_mem_nil, or_false] at h
  · rcases h with rfl | rfl <;> rw [hbyte _ (by omega)] <;> omega
  · rcases h with rfl | rfl | rfl <;> rw [hbyte _ (by omega)] <;> omega
  · rcases h with rfl | rfl | rfl | rfl <;> rw [hbyte _ (by omega)] <;> omega

/-- Only a character of ASCII has its byte. -/
theorem notMem_encode {cs : List Char} {x : Char} (hx : x.toNat < 128) (h : x ∉ cs) :
    UInt8.ofNat x.toNat ∉ encode cs := by
  intro hmem
  obtain ⟨c, hc, hbyte⟩ := List.mem_flatMap.mp hmem
  have hval : (UInt8.ofNat x.toNat).toNat = x.toNat :=
    UInt8.toNat_ofNat_of_lt (hx.trans (by decide))
  rcases mem_utf8EncodeChar hbyte with ⟨-, heq⟩ | hhigh
  · refine h ?_
    rwa [← Char.toNat_inj.mp (hval.symm.trans heq)] at hc
  · omega

theorem encode_cons (c : Char) (cs : List Char) :
    encode (c :: cs) = String.utf8EncodeChar c ++ encode cs :=
  List.flatMap_cons

theorem encode_append (cs ds : List Char) : encode (cs ++ ds) = encode cs ++ encode ds :=
  List.flatMap_append

theorem length_encode_le (cs : List Char) : (encode cs).length ≤ 4 * cs.length := by
  induction cs with
  | nil => exact Nat.zero_le _
  | cons c cs ih =>
    have hc : (String.utf8EncodeChar c).length ≤ 4 := by
      rw [String.length_utf8EncodeChar]
      exact Char.utf8Size_le_four c
    rw [encode_cons, List.length_append, List.length_cons]
    omega

/-! ### Lines without breaks -/

section
variable (table : Char → Bool)

/-- The samples whose text breaks no line. -/
def Unbroken (samples : List (Line × Line)) : Prop :=
  ∀ sample ∈ samples, '\n' ∉ sample.1 ∧ '\n' ∉ sample.2

theorem newline_notMem_decimal (n : ℤ) : '\n' ∉ decimal n := by
  rw [decimal, List.mem_append, not_or]
  refine ⟨fun h => ?_, newline_notMem_toDigits 10 n.natAbs (by omega)⟩
  split_ifs at h
  · exact absurd (List.mem_singleton.mp h) (by decide)
  · exact absurd h List.not_mem_nil

theorem newline_notMem_print (d : ℕ) (x : Float64) : '\n' ∉ FixedPoint.printFloat d x := fun h =>
  absurd (ScanFloat.mem_printFloat h).1 (by decide)

theorem unbroken_single (n : ℤ) : Unbroken (single n) := by
  rintro sample hsample
  obtain rfl := List.mem_singleton.mp hsample
  exact ⟨List.not_mem_nil, newline_notMem_decimal n⟩

theorem mem_of_mem_intercalate {α : Type*} {x : α} {sep : List α} {parts : List (List α)}
    (h : x ∈ sep.intercalate parts) : x ∈ sep ∨ ∃ part ∈ parts, x ∈ part := by
  induction parts with
  | nil => exact absurd h List.not_mem_nil
  | cons part parts ih =>
    rcases eq_or_ne parts [] with rfl | hne
    · rw [List.intercalate_singleton] at h
      exact Or.inr ⟨part, List.mem_cons_self, h⟩
    · rw [List.intercalate_cons_of_ne_nil hne, List.append_assoc, List.mem_append,
        List.mem_append] at h
      rcases h with hpart | hsep | hrest
      · exact Or.inr ⟨part, List.mem_cons_self, hpart⟩
      · exact Or.inl hsep
      · exact (ih hrest).imp_right fun ⟨p, hp, hx⟩ => ⟨p, List.mem_cons_of_mem part hp, hx⟩

theorem newline_notMem_labels {pairs : List (String × String)}
    (hkeys : ∀ p ∈ pairs, '\n' ∉ p.1.toList) : '\n' ∉ labels table pairs := by
  rw [labels, List.mem_append, List.mem_cons, List.mem_singleton, not_or, not_or]
  refine ⟨⟨by decide, fun hmem => ?_⟩, by decide⟩
  rcases mem_of_mem_intercalate hmem with hcomma | ⟨part, hpart, hin⟩
  · exact absurd hcomma (by decide)
  · obtain ⟨p, hp, rfl⟩ := List.mem_map.mp hpart
    rw [List.mem_append, List.mem_cons] at hin
    rcases hin with hkey | heq | hvalue
    · exact hkeys p hp hkey
    · exact absurd heq (by decide)
    · exact newline_notMem_quote table p.2 hvalue

theorem unbroken_byType {value : Fin numTrafficTypes → Line} (h : ∀ i, '\n' ∉ value i) :
    Unbroken (byType table value) := by
  intro sample hsample
  obtain ⟨i, -, rfl⟩ := List.mem_map.mp hsample
  refine ⟨newline_notMem_labels table fun p hp => ?_, h i⟩
  obtain rfl := List.mem_singleton.mp hp
  exact (by decide : '\n' ∉ "traffic_type".toList)

theorem unbroken_byPod {ν : Type*} {entries : List (PodKey × ν)} {value : ν → Line}
    (h : ∀ v, '\n' ∉ value v) : Unbroken (byPod table entries value) := by
  intro sample hsample
  obtain ⟨e, -, rfl⟩ := List.mem_map.mp hsample
  refine ⟨newline_notMem_labels table fun p hp => ?_, h e.2⟩
  rcases List.mem_cons.mp hp with rfl | hpod
  · exact (by decide : '\n' ∉ "namespace".toList)
  · obtain rfl := List.mem_singleton.mp hpod
    exact (by decide : '\n' ∉ "pod".toList)

end

/-! ### Lines that are no costs -/

/-- A line that breaks nowhere and is no cost line. -/
def Foreign (line : Line) : Prop := '\n' ∉ line ∧ ¬ costPrefix <+: encode line

/-- Whether a text differs from another at some character. -/
def differs : List Char → List Char → Bool
  | x :: xs, y :: ys => if x = y then differs xs ys else true
  | _, _ => false

/-- A text of ASCII is not the beginning of one that differs from it. -/
theorem not_prefix_of_differs {cs text : List Char} (hascii : ∀ x ∈ cs, x.toNat < 128)
    (h : differs cs text = true) (rest : List Char) : ¬ encode cs <+: encode (text ++ rest) := by
  induction cs, text using differs.induct with
  | case1 xs y ys ih =>
    rw [differs, if_pos rfl] at h
    rw [List.cons_append, encode_cons, encode_cons, List.prefix_append_right_inj]
    exact ih (fun z hz => hascii z (List.mem_cons_of_mem y hz)) h
  | case2 x xs y ys hne =>
    intro hpre
    have hx := hascii x List.mem_cons_self
    obtain ⟨b, bs, hy⟩ := List.exists_cons_of_ne_nil (String.utf8EncodeChar_ne_nil (c := y))
    have hb : b ∈ encode [y] := by
      rw [encode_cons, hy]
      exact List.mem_cons_self
    rw [List.cons_append, encode_cons, encode_cons, ScanFloat.utf8EncodeChar_of_lt hx, hy,
      List.singleton_append, List.cons_append, List.cons_prefix_cons] at hpre
    exact notMem_encode hx (fun hmem => hne (List.mem_singleton.mp hmem)) (hpre.1 ▸ hb)
  | case3 cs text hnot =>
    rw [differs] at h
    · exact absurd h Bool.false_ne_true
    · exact hnot

/-- The name of the costs, with the brace that follows it. -/
def costName : List Char :=
  ['t', 'o', 'l', 'l', 'w', 'i', 'n', 'g', '_', 'c', 'o', 's', 't', '_', 'u', 's', 'd', '_',
    't', 'o', 't', 'a', 'l', '\x7b']

theorem costPrefix_eq : costPrefix = encode costName :=
  congrArg encode String.toList_ofList

theorem not_costPrefix_of_differs {text : List Char} (h : differs costName text = true)
    (rest : List Char) : ¬ costPrefix <+: encode (text ++ rest) := by
  have hascii : costName.all (fun x => decide (x.toNat < 128)) = true := rfl
  rw [costPrefix_eq]
  exact not_prefix_of_differs
    (fun x hx => of_decide_eq_true (List.all_eq_true.mp hascii x hx)) h rest

/-- The texts of a metric break no line. -/
def textUnbroken (name help kind : List Char) : Bool :=
  '\n' ∉ name && '\n' ∉ help && '\n' ∉ kind

section
variable {name help kind : String} {n h k : List Char}

/-- Comments begin with another character. -/
theorem comments_foreign (hn : name.toList = n) (hh : help.toList = h) (hk : kind.toList = k)
    (htext : textUnbroken n h k = true) : ∀ line ∈ comments name help kind, Foreign line := by
  simp only [textUnbroken, Bool.and_eq_true, decide_eq_true_eq] at htext
  obtain ⟨⟨hname, hhelp⟩, hkind⟩ := htext
  intro line hline
  rcases List.mem_cons.mp hline with rfl | hsecond
  · simp only [Foreign, String.toList_append, List.append_assoc, List.mem_append, not_or, hn, hh]
    exact ⟨⟨by decide, hname, by decide, hhelp⟩, not_costPrefix_of_differs (by decide) _⟩
  · rw [List.mem_singleton.mp hsecond]
    simp only [Foreign, String.toList_append, List.append_assoc, List.mem_append, not_or, hn, hk]
    exact ⟨⟨by decide, hname, by decide, hkind⟩, not_costPrefix_of_differs (by decide) _⟩

/-- All lines of a metric whose name differs from that of the costs. -/
theorem family_foreign {samples : List (Line × Line)} (hn : name.toList = n)
    (hh : help.toList = h) (hk : kind.toList = k) (htext : textUnbroken n h k = true)
    (hname : differs costName n = true) (hsamples : Unbroken samples) :
    ∀ line ∈ family name help kind samples, Foreign line := by
  intro line hline
  rw [family, List.mem_append] at hline
  rcases hline with hcomment | hsample
  · exact comments_foreign hn hh hk htext line hcomment
  · obtain ⟨sample, hmem, rfl⟩ := List.mem_map.mp hsample
    obtain ⟨hlabels, hvalue⟩ := hsamples sample hmem
    simp only [textUnbroken, Bool.and_eq_true, decide_eq_true_eq] at htext
    rw [List.append_assoc, hn]
    refine ⟨?_, not_costPrefix_of_differs hname _⟩
    simp only [List.mem_append, List.mem_cons, not_or]
    exact ⟨htext.1.1, hlabels, by decide, hvalue⟩

end

section
variable (table : Char → Bool)

theorem trafficFamilies_foreign (e : View) : ∀ line ∈ trafficFamilies table e, Foreign line := by
  have hcounter : ∀ value : Fin numTrafficTypes → ℤ,
      Unbroken (byType table fun i => decimal (value i)) := fun value =>
    unbroken_byType table fun i => newline_notMem_decimal (value i)
  simp only [trafficFamilies, List.forall_mem_append]
  refine ⟨⟨⟨⟨⟨⟨⟨?_, ?_⟩, ?_⟩, ?_⟩, ?_⟩, ?_⟩, ?_⟩, ?_⟩
  all_goals
    refine family_foreign String.toList_ofList String.toList_ofList String.toList_ofList
      (by decide) (by decide) ?_
    first
      | exact unbroken_single _
      | exact hcounter _

theorem podFamilies_foreign (orders : PodOrders) (e : View) :
    ∀ line ∈ podFamilies table orders e, Foreign line := by
  rw [podFamilies]
  split_ifs
  · simp only [List.forall_mem_append]
    refine ⟨⟨?_, ?_⟩, ?_⟩
    all_goals
      refine family_foreign String.toList_ofList String.toList_ofList String.toList_ofList
        (by decide) (by decide) (unbroken_byPod _ ?_)
    · exact fun pm => newline_notMem_decimal _
    · exact fun pm => newline_notMem_decimal _
    · exact fun cost => newline_notMem_print 6 cost
  · exact fun line hline => absurd hline List.not_mem_nil

theorem selfFamilies_foreign (e : View) : ∀ line ∈ selfFamilies e, Foreign line := by
  simp only [selfFamilies, List.forall_mem_append]
  refine ⟨⟨⟨⟨?_, ?_⟩, ?_⟩, ?_⟩, ?drops⟩
  case drops =>
    -- the one text in two parts
    exact family_foreign String.toList_ofList
      (String.toList_append.trans (congrArg₂ _ String.toList_ofList String.toList_ofList))
      String.toList_ofList (by decide) (by decide) (unbroken_single _)
  all_goals
    exact family_foreign String.toList_ofList String.toList_ofList String.toList_ofList
      (by decide) (by decide) (unbroken_single _)

theorem healthFamilies_foreign (e : View) : ∀ line ∈ healthFamilies e, Foreign line := by
  rw [healthFamilies]
  cases e.cachedHealth with
  | none => exact fun line hline => absurd hline List.not_mem_nil
  | some h =>
    simp only [List.forall_mem_append]
    refine ⟨⟨⟨⟨?_, ?_⟩, ?_⟩, ?_⟩, ?_⟩
    all_goals
      exact family_foreign String.toList_ofList String.toList_ofList String.toList_ofList
        (by decide) (by decide) (unbroken_single _)

end

/-! ### A page that is cut short -/

theorem break_notMem_encode {line : Line} (h : '\n' ∉ line) : 10 ∉ encode line :=
  notMem_encode (x := '\n') (by decide) h

theorem pageBytes_append (ls ms : List Line) :
    pageBytes (ls ++ ms) = pageBytes ls ++ pageBytes ms :=
  List.flatMap_append

/-- The lines of a page are split apart, whatever follows them. -/
theorem splitOn_pageBytes {lines : List Line} (h : ∀ line ∈ lines, '\n' ∉ line)
    (rest : List UInt8) :
    (pageBytes lines ++ rest).splitOn 10 = lines.map encode ++ rest.splitOn 10 := by
  induction lines with
  | nil => rfl
  | cons line lines ih =>
    have hline := break_notMem_encode (h line List.mem_cons_self)
    have hrest := ih fun l hl => h l (List.mem_cons_of_mem line hl)
    rw [pageBytes, List.flatMap_cons, ← pageBytes, List.append_assoc, List.append_assoc,
      List.singleton_append, List.splitOn_append_cons_self_of_not_mem hline, hrest,
      List.map_cons, List.cons_append]

/-- After a cut there is the beginning of a line at most. -/
theorem exists_prefix_of_mem_splitOn {lines : List Line} (h : ∀ line ∈ lines, '\n' ∉ line)
    {n : ℕ} {piece : List UInt8} (hpiece : piece ∈ ((pageBytes lines).take n).splitOn 10) :
    piece = [] ∨ ∃ line ∈ lines, piece <+: encode line := by
  induction lines generalizing n with
  | nil =>
    rw [pageBytes, List.flatMap_nil, List.take_nil, List.splitOn_nil] at hpiece
    exact Or.inl (List.mem_singleton.mp hpiece)
  | cons line lines ih =>
    have hline := break_notMem_encode (h line List.mem_cons_self)
    have htail : ∀ l ∈ lines, '\n' ∉ l := fun l hl => h l (List.mem_cons_of_mem line hl)
    rw [pageBytes, List.flatMap_cons, ← pageBytes, List.append_assoc, List.singleton_append,
      List.take_append] at hpiece
    rcases Nat.lt_or_ge (encode line).length n with hlong | hshort
    · -- the line is whole
      obtain ⟨m, hm⟩ := Nat.exists_eq_succ_of_ne_zero (Nat.sub_ne_zero_of_lt hlong)
      rw [List.take_of_length_le hlong.le, hm, List.take_succ_cons,
        List.splitOn_append_cons_self_of_not_mem hline, List.mem_cons] at hpiece
      rcases hpiece with rfl | hmore
      · exact Or.inr ⟨line, List.mem_cons_self, List.prefix_rfl⟩
      · exact (ih htail hmore).imp_right fun ⟨l, hl, hpre⟩ =>
          ⟨l, List.mem_cons_of_mem line hl, hpre⟩
    · -- the cut is within it
      rw [Nat.sub_eq_zero_of_le hshort, List.take_zero, List.append_nil,
        List.splitOn_eq_singleton fun hmem => hline (List.mem_of_mem_take hmem),
        List.mem_singleton] at hpiece
      exact Or.inr ⟨line, List.mem_cons_self, hpiece ▸ List.take_prefix n _⟩

theorem lineCost_of_not_prefix {line : List UInt8} (h : ¬ costPrefix <+: line) :
    lineCost line = none :=
  if_neg fun hcost => h (List.isPrefixOf_iff_prefix.mp hcost.1)

/-- Lines that are no costs give none, cut short or not. -/
theorem filterMap_lineCost_take {lines : List Line} (h : ∀ line ∈ lines, Foreign line) (n : ℕ) :
    (((pageBytes lines).take n).splitOn 10).filterMap lineCost = [] := by
  refine List.filterMap_eq_nil_iff.mpr fun piece hpiece => ?_
  refine lineCost_of_not_prefix fun hcost => ?_
  rcases exists_prefix_of_mem_splitOn (fun line hline => (h line hline).1) hpiece with
    rfl | ⟨line, hline, hpre⟩
  · exact absurd (List.prefix_nil.mp hcost) (by decide)
  · exact (h line hline).2 (hcost.trans hpre)

theorem filterMap_lineCost_foreign {lines : List Line} (h : ∀ line ∈ lines, Foreign line) :
    (lines.map encode).filterMap lineCost = [] := by
  refine List.filterMap_eq_nil_iff.mpr fun bytes hbytes => ?_
  obtain ⟨line, hline, rfl⟩ := List.mem_map.mp hbytes
  exact lineCost_of_not_prefix (h line hline).2

/-- A page within the limit in its first lines gives the costs of these, when no cost line
follows. -/
theorem costs_of_page {before after : List Line} (hbefore : ∀ line ∈ before, '\n' ∉ line)
    (hafter : ∀ line ∈ after, Foreign line) {n : ℕ} (hfits : (pageBytes before).length ≤ n) :
    (((pageBytes (before ++ after)).take n).splitOn 10).filterMap lineCost
      = (before.map encode).filterMap lineCost := by
  rw [pageBytes_append, List.take_append, List.take_of_length_le hfits,
    splitOn_pageBytes hbefore, List.filterMap_append, filterMap_lineCost_take hafter,
    List.append_nil]

/-! ### The length of the page up to the costs -/

theorem length_pageBytes_le {lines : List Line} {b : ℕ} (h : ∀ line ∈ lines, line.length ≤ b) :
    (pageBytes lines).length ≤ lines.length * (4 * b + 1) := by
  induction lines with
  | nil => exact Nat.zero_le _
  | cons line lines ih =>
    have hline := (length_encode_le line).trans (Nat.mul_le_mul_left 4 (h line List.mem_cons_self))
    have hrest := ih fun l hl => h l (List.mem_cons_of_mem line hl)
    rw [pageBytes, List.flatMap_cons, ← pageBytes, List.length_append, List.length_append,
      List.length_singleton, List.length_cons, Nat.succ_mul]
    omega

theorem length_decimal_le {n : ℤ} (h : n.natAbs < 2 ^ 64) : (decimal n).length ≤ 21 := by
  have hdigits : (Nat.toDigits 10 n.natAbs).length ≤ 20 :=
    (Nat.length_toDigits_le_iff (by omega) (by omega)).mpr (h.trans (by norm_num))
  rw [decimal, List.length_append]
  split_ifs
  · rw [List.length_singleton]
    omega
  · rw [List.length_nil]
    omega

/-- The integers of floats have 309 digits at most. -/
theorem largest_lt : Float64.largest < 10 ^ 309 := by decide +kernel

theorem length_digits_le {n k : ℕ} (hk : 0 < k) (h : n < 10 ^ k * 10 ^ 6) :
    (FixedPoint.digits 6 n).length ≤ k + 7 := by
  have hwhole : (Nat.toDigits 10 (n / 10 ^ 6)).length ≤ k :=
    (Nat.length_toDigits_le_iff (by omega) hk).mpr
      (Nat.div_lt_of_lt_mul (h.trans_eq (Nat.mul_comm _ _)))
  have hfrac := FixedPoint.length_fraction (d := 6) (n := n) (by omega)
  rw [FixedPoint.digits, if_neg (by decide : ¬ 6 = 0), List.length_append, List.length_cons,
    hfrac]
  omega

theorem length_printFloat_le (x : Float64) : (FixedPoint.printFloat 6 x).length ≤ 318 := by
  rcases ScanFloat.printFloat_cases 6 x with hword | ⟨neg, m, -, hprint⟩
  · have hall : ∀ w ∈ [['N', 'a', 'N'], ['-', 'I', 'n', 'f'], ['+', 'I', 'n', 'f']],
        w.length ≤ 318 := by decide
    exact hall _ hword
  · have hbound : Nearest.roundEven (m.val * 10 ^ 6) < 10 ^ 309 * 10 ^ 6 :=
      (FixedPoint.roundEven_le_largest 6 m).trans_lt
        (Nat.mul_lt_mul_of_pos_right largest_lt (by omega))
    have hdigits := length_digits_le (by omega) hbound
    have hsign : (if neg then ['-'] else []).length ≤ 1 := by cases neg <;> decide
    rw [hprint, List.length_append]
    omega

theorem length_family (name help kind : String) (samples : List (Line × Line)) :
    (family name help kind samples).length = 2 + samples.length := by
  rw [family, List.length_append, List.length_map, comments, List.length_cons,
    List.length_singleton]

/-- The lengths of a metric's lines, from those of its texts and samples. -/
theorem length_family_le {name help kind : String} {n h k : List Char}
    {samples : List (Line × Line)} (hn : name.toList = n) (hh : help.toList = h)
    (hk : kind.toList = k) (htext : n.length + h.length + k.length ≤ 200)
    (hsamples : ∀ sample ∈ samples, sample.1.length + sample.2.length ≤ 550) :
    ∀ line ∈ family name help kind samples, line.length ≤ 800 := by
  intro line hline
  rw [family, List.mem_append] at hline
  rcases hline with hcomment | hsample
  · have hlen : line.length ≤ n.length + h.length + k.length + 8 := by
      rcases List.mem_cons.mp hcomment with rfl | hsecond
      · simp only [String.toList_append, List.length_append, hn, hh]
        rw [show "# HELP ".toList.length = 7 from rfl, show " ".toList.length = 1 from rfl]
        omega
      · rw [List.mem_singleton.mp hsecond]
        simp only [String.toList_append, List.length_append, hn, hk]
        rw [show "# TYPE ".toList.length = 7 from rfl, show " ".toList.length = 1 from rfl]
        omega
    omega
  · obtain ⟨sample, hmem, rfl⟩ := List.mem_map.mp hsample
    have hle := hsamples sample hmem
    rw [List.length_append, List.length_append, List.length_cons, hn]
    omega

section
variable (table : Char → Bool)

theorem length_typeLabel_le (i : Fin numTrafficTypes) :
    (labels table [("traffic_type", (trafficType i.val).string)]).length ≤ 230 := by
  have hname : ∀ i : Fin numTrafficTypes, (trafficType i.val).string.length ≤ 21 := by decide
  have hquote := length_quote_le table (trafficType i.val).string
  have hkey : "traffic_type".toList.length = 12 := rfl
  have hi := hname i
  simp only [labels, List.map_cons, List.map_nil, List.intercalate_singleton, List.length_append,
    List.length_cons, List.length_nil, hkey]
  omega

theorem length_byType_le {value : Fin numTrafficTypes → Line} (h : ∀ i, (value i).length ≤ 320) :
    ∀ sample ∈ byType table value, sample.1.length + sample.2.length ≤ 550 := by
  intro sample hsample
  obtain ⟨i, -, rfl⟩ := List.mem_map.mp hsample
  exact Nat.add_le_add (length_typeLabel_le table i) (h i)

theorem length_single_le {n : ℤ} (h : n.natAbs < 2 ^ 64) :
    ∀ sample ∈ single n, sample.1.length + sample.2.length ≤ 550 := by
  intro sample hsample
  obtain rfl := List.mem_singleton.mp hsample
  have hle := length_decimal_le h
  show 0 + (decimal n).length ≤ 550
  omega

theorem length_trafficFamilies_le (e : View) :
    ∀ line ∈ trafficFamilies table e, line.length ≤ 800 := by
  have hword : ∀ w : UInt64, ((w.toNat : ℤ)).natAbs < 2 ^ 64 := fun w => w.toNat_lt
  have hint : ∀ w : Int64, w.toInt.natAbs < 2 ^ 64 := fun w => by
    have hlt := w.toInt_lt
    have hge := w.le_toInt
    omega
  have hcounter : ∀ value : Fin numTrafficTypes → ℤ, (∀ i, (value i).natAbs < 2 ^ 64) →
      ∀ sample ∈ byType table fun i => decimal (value i),
        sample.1.length + sample.2.length ≤ 550 := fun value hvalue =>
    length_byType_le table fun i => (length_decimal_le (hvalue i)).trans (by omega)
  simp only [trafficFamilies, List.forall_mem_append]
  refine ⟨⟨⟨⟨⟨⟨⟨?_, ?_⟩, ?_⟩, ?_⟩, ?_⟩, ?_⟩, ?_⟩, ?_⟩
  all_goals
    refine length_family_le String.toList_ofList String.toList_ofList String.toList_ofList
      (by decide) ?_
  · exact length_single_le (hint _)
  · exact length_single_le (hword _)
  · exact length_single_le (hword _)
  · exact hcounter _ fun _ => hword _
  · exact hcounter _ fun _ => hword _
  · exact hcounter _ fun _ => hint _
  · exact length_single_le (hword _)
  · exact length_single_le (hword _)

/-- The page up to the costs is within the limit. -/
theorem length_upToCosts_le (e : View) :
    (pageBytes (trafficFamilies table e ++ costFamily table e)).length ≤ readLimit := by
  have hlines : ∀ line ∈ trafficFamilies table e ++ costFamily table e, line.length ≤ 800 := by
    refine List.forall_mem_append.mpr ⟨length_trafficFamilies_le table e, ?_⟩
    exact length_family_le String.toList_ofList String.toList_ofList String.toList_ofList
      (by decide) (length_byType_le table fun i => (length_printFloat_le _).trans (by omega))
  have hcount : (trafficFamilies table e ++ costFamily table e).length = 71 := by
    have htypes : ∀ value : Fin numTrafficTypes → Line, (byType table value).length = 12 :=
      fun value => by rw [byType, List.length_map, List.length_finRange]; rfl
    have hsingle : ∀ n : ℤ, (single n).length = 1 := fun _ => rfl
    simp only [trafficFamilies, costFamily, costSamples, List.length_append, length_family, htypes,
      hsingle]
  calc (pageBytes (trafficFamilies table e ++ costFamily table e)).length
      ≤ 71 * (4 * 800 + 1) := hcount ▸ length_pageBytes_le hlines
    _ ≤ readLimit := by decide

/-! ### The sum -/

/-- A cost line gives the cost it prints. -/
theorem lineCost_sample (x : Float64) (pairs : List (String × String)) :
    lineCost (encode ("tollwing_cost_usd_total".toList ++ labels table pairs
      ++ ' ' :: FixedPoint.printFloat 6 x)) = some (FixedPoint.printed 6 x) := by
  obtain ⟨rest, hrest⟩ : ∃ rest, labels table pairs = '\x7b' :: rest := ⟨_, rfl⟩
  have hspace : 32 ∉ encode (FixedPoint.printFloat 6 x) :=
    notMem_encode (x := ' ') (by decide) fun hmem =>
      absurd (ScanFloat.mem_printFloat hmem).1 (by decide)
  have hline : encode ("tollwing_cost_usd_total".toList ++ labels table pairs
      ++ ' ' :: FixedPoint.printFloat 6 x)
      = encode ("tollwing_cost_usd_total".toList ++ labels table pairs)
        ++ 32 :: encode (FixedPoint.printFloat 6 x) := by
    rw [encode_append]
    rfl
  have hbegins :
      costPrefix <+: encode ("tollwing_cost_usd_total".toList ++ labels table pairs) := by
    rw [hrest, List.append_cons, encode_append, costPrefix_eq, String.toList_ofList]
    exact List.prefix_append _ _
  have htoken : (encode ("tollwing_cost_usd_total".toList ++ labels table pairs)
        ++ 32 :: encode (FixedPoint.printFloat 6 x)).rtakeWhile (fun b => b ≠ 32)
      = encode (FixedPoint.printFloat 6 x) := by
    have hvalue : ∀ b ∈ encode (FixedPoint.printFloat 6 x), decide (b ≠ 32) = true :=
      fun b hb => decide_eq_true fun h32 => hspace (h32 ▸ hb)
    exact (ScanFloat.rtakeWhile_append_cons (by decide) hvalue _).1
  rw [lineCost, hline, if_pos ⟨List.isPrefixOf_iff_prefix.mpr
      (hbegins.trans (List.prefix_append _ _)), by simp⟩, htoken]
  exact ScanFloat.sscanf_print 6 x

theorem costComments_foreign : ∀ line ∈ comments "tollwing_cost_usd_total"
    "Estimated network cost in USD by traffic type." "counter", Foreign line :=
  comments_foreign String.toList_ofList String.toList_ofList String.toList_ofList (by decide)

theorem newline_notMem_costFamily (e : View) : ∀ line ∈ costFamily table e, '\n' ∉ line := by
  intro line hline
  rw [costFamily, family, List.mem_append] at hline
  rcases hline with hcomment | hsample
  · exact (costComments_foreign line hcomment).1
  · obtain ⟨sample, hmem, rfl⟩ := List.mem_map.mp hsample
    obtain ⟨hlabels, hvalue⟩ :=
      unbroken_byType table (fun i => newline_notMem_print 6 (e.state.costByType i)) sample hmem
    simp only [List.mem_append, List.mem_cons, not_or]
    exact ⟨⟨by decide, hlabels⟩, by decide, hvalue⟩

theorem filterMap_lineCost_costFamily (e : View) :
    ((costFamily table e).map encode).filterMap lineCost
      = (List.finRange numTrafficTypes).map fun i =>
        FixedPoint.printed 6 (e.state.costByType i) := by
  rw [costFamily, family, List.map_append, List.filterMap_append,
    filterMap_lineCost_foreign costComments_foreign, List.nil_append, costSamples, byType,
    List.map_map, List.map_map, List.filterMap_map, ← List.filterMap_eq_map]
  refine List.filterMap_congr fun i _ => ?_
  simp only [Function.comp_apply]
  exact lineCost_sample table _ [("traffic_type", (trafficType i.val).string)]

/-- The costs of the types as the page shows them. -/
def printedCosts (e : View) : List Float64 :=
  (List.finRange numTrafficTypes).map fun i => FixedPoint.printed 6 (e.state.costByType i)

/-- **A scrape of a page** reads each cost line once and nothing else. -/
theorem scrapeTotal_handleMetrics (orders : PodOrders) (e : View) :
    scrapeTotal (pageBytes (handleMetrics table orders e)) = KeyedFold.addUp (printedCosts e) := by
  have hbefore : ∀ line ∈ trafficFamilies table e ++ costFamily table e, '\n' ∉ line :=
    List.forall_mem_append.mpr ⟨fun line hline => (trafficFamilies_foreign table e line hline).1,
      newline_notMem_costFamily table e⟩
  have hafter : ∀ line ∈ podFamilies table orders e ++ selfFamilies e ++ healthFamilies e,
      Foreign line := by
    simp only [List.forall_mem_append]
    exact ⟨⟨podFamilies_foreign table orders e, selfFamilies_foreign e⟩,
      healthFamilies_foreign e⟩
  have hpage : handleMetrics table orders e
      = (trafficFamilies table e ++ costFamily table e)
        ++ (podFamilies table orders e ++ selfFamilies e ++ healthFamilies e) := by
    simp only [handleMetrics, List.append_assoc]
  have hcosts : ((trafficFamilies table e ++ costFamily table e).map encode).filterMap lineCost
      = printedCosts e := by
    rw [List.map_append, List.filterMap_append,
      filterMap_lineCost_foreign (trafficFamilies_foreign table e), List.nil_append,
      filterMap_lineCost_costFamily, printedCosts]
  rw [scrapeTotal, hpage, costs_of_page hbefore hafter (length_upToCosts_le table e), hcosts,
    KeyedFold.addUp]

omit table in
/-- What the costs add up to is near their sum. -/
theorem near_printedCosts {e : View} {total : Float64}
    (htotal : total = KeyedFold.addUp (printedCosts e)) (hfin : total.IsFinite) :
    |total.toRat - ∑ i, (FixedPoint.printed 6 (e.state.costByType i)).toRat|
      ≤ FloatSum.growth numTrafficTypes
        * ∑ i, |(FixedPoint.printed 6 (e.state.costByType i)).toRat| := by
  subst htotal
  have hnear := FloatSum.abs_toRat_addUp_sub_le hfin
  rw [printedCosts, List.length_map, List.length_finRange, FloatSum.exact_map, FloatSum.mass_map,
    ← Fin.sum_univ_def, ← Fin.sum_univ_def] at hnear
  exact hnear

/-- **A scrape of any page** adds up the costs of the types as they are printed, one after
another, and is off from their sum by what the additions round at most. -/
theorem scrape_handleMetrics (orders : PodOrders) (e : View) :
    let total := scrapeTotal (pageBytes (handleMetrics table orders e))
    total = KeyedFold.addUp ((List.finRange numTrafficTypes).map fun i =>
        FixedPoint.printed 6 (e.state.costByType i)) ∧
      (total.IsFinite →
        |total.toRat - ∑ i, (FixedPoint.printed 6 (e.state.costByType i)).toRat|
          ≤ FloatSum.growth numTrafficTypes
            * ∑ i, |(FixedPoint.printed 6 (e.state.costByType i)).toRat|) := by
  intro total
  have htotal : total = KeyedFold.addUp (printedCosts e) := scrapeTotal_handleMetrics table orders e
  exact ⟨htotal, near_printedCosts htotal⟩

/-- A view of nothing but what polls wrote. -/
def viewOf (s : MetricsState Float64) : View := ⟨⟨s, 1⟩, 0, 0, 0, 0, none⟩

end

/-- A dollar and a half, and a pod whose names look like a cost line and break lines. -/
def disguised : MetricsState Float64 :=
  { (MetricsState.new : MetricsState Float64) with
    costByType := Function.update 0 ⟨4, by decide⟩ 1.5
    pods :=
      { (PodTables.new : PodTables Float64) with
        metrics := Finmap.singleton
          ⟨"x\n", "tollwing_cost_usd_total\x7btraffic_type=\"\"\x7d 7"⟩ ⟨1, 2⟩ } }

theorem scrape_disguised_pod :
    scrapeTotal (pageBytes (handleMetrics (fun _ => true)
      ⟨Classical.choice RangeOrder.nonempty, Classical.choice RangeOrder.nonempty,
        Classical.choice RangeOrder.nonempty⟩ (viewOf disguised))) = 1.5 := by
  refine (scrape_handleMetrics (fun _ => true) _ (viewOf disguised)).1.trans ?_
  decide +kernel

/-- The costs of two types. -/
def tenths : MetricsState Float64 :=
  { (MetricsState.new : MetricsState Float64) with
    costByType := Function.update (Function.update 0 ⟨4, by decide⟩ 0.1) ⟨5, by decide⟩ 0.2 }

/-- The page shows `0.100000` and `0.200000`, and the scrape is not the float of `0.3`. -/
theorem scrape_tenths :
    let total := scrapeTotal (pageBytes (handleMetrics (fun _ => true)
      ⟨Classical.choice RangeOrder.nonempty, Classical.choice RangeOrder.nonempty,
        Classical.choice RangeOrder.nonempty⟩ (viewOf tenths)))
    total = 0.30000000000000004 ∧ total ≠ 0.3 := by
  intro total
  have htotal : total = 0.30000000000000004 := by
    show scrapeTotal _ = _
    rw [scrapeTotal_handleMetrics]
    decide +kernel
  refine ⟨htotal, ?_⟩
  rw [htotal]
  decide +kernel

end MetricsText
