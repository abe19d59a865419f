/-
DNS responses and the query counters (`pkg/dns/tracker.go`).

`parseDNSResponse` caches every address of a response, and every address that is
cached is counted.  What the parser of the messages hands over is the message; its
answers are as many as 16 bits can count.

* `DNSTracker.parseDNSResponse_eq` — a response is its inserts;
* `DNSTracker.queryCount_responses` — the counters of a run, in addresses;
* `DNSTracker.counts_responses_iff` — the runs whose counters are numbers of responses.
-/
import Tollwing.QueryCounts

/-- The resource of an answer, as its type has it read: there may be none. -/
inductive DNSResource
  | a (ip : Option (BitVec 32))
  | aaaa (ip : Option (BitVec 128))
  | other (skipped : Bool)
  deriving DecidableEq, Repr

/-- An answer: the time to live in seconds, the resource, the clock at its turn and the
order in which the counters are ranged over then. -/
structure DNSAnswer where
  ttl : UInt32
  resource : DNSResource
  now : ℤ
  order : RangeOrder String

/-- A message: `AllQuestions` may fail, and the names of its questions end in a dot. -/
structure DNSMessage where
  response : Bool
  rcode : ℕ
  questions : Option (List String)
  answers : List DNSAnswer
  length_lt : answers.length < 2 ^ 16

/-- `RCodeSuccess`. -/
def rcodeSuccess : ℕ := 0

/-- The name without its trailing dot. -/
def trimDot (qname : String) : String :=
  if qname.toList.getLast? = some '.' then String.ofList qname.toList.dropLast else qname

/-- The insert of an address. -/
def DNSAnswer.insertOf (answer : DNSAnswer) (addr : Addr) (qname : String) : DNSInsert :=
  ⟨addr, qname, answer.ttl.toNat * 10 ^ 9, answer.now, answer.order⟩

namespace DNSTracker

/-- The loop over the answers; a resource that is not there ends it. -/
def parseAnswers (t : DNSTracker) (qname : String) : List DNSAnswer → DNSTracker
  | [] => t
  | answer :: rest =>
    match answer.resource with
    | .a none => t
    | .a (some ip) => (t.cacheInsert (answer.insertOf (.v4 ip) qname)).parseAnswers qname rest
    | .aaaa none => t
    | .aaaa (some ip) =>
      (t.cacheInsert (answer.insertOf (.v6 ip "") qname)).parseAnswers qname rest
    | .other false => t
    | .other true => t.parseAnswers qname rest

/-- `parseDNSResponse`. -/
def parseDNSResponse (t : DNSTracker) (m : DNSMessage) : DNSTracker :=
  if !m.response || m.rcode != rcodeSuccess then t
  else
    match m.questions with
    | none => t
    | some [] => t
    | some (question :: _) => t.parseAnswers (trimDot question) m.answers

/-- The count that a snapshot has of a domain. -/
def queryCount (t : DNSTracker) (d : String) : UInt64 := (t.queryCounts.lookup d).getD 0

/-- The insert drops no counter. -/
def KeepsCounters (t : DNSTracker) (x : DNSInsert) : Prop :=
  FinMap.card (t.counted x) ≤ maxQueryCounters

instance (t : DNSTracker) (x : DNSInsert) : Decidable (t.KeepsCounters x) :=
  inferInstanceAs (Decidable (_ ≤ _))

end DNSTracker

/-! ### What a response carries -/

/-- The inserts of the addresses among the answers. -/
def answerInserts (qname : String) : List DNSAnswer → List DNSInsert
  | [] => []
  | answer :: rest =>
    match answer.resource with
    | .a none => []
    | .a (some ip) => answer.insertOf (.v4 ip) qname :: answerInserts qname rest
    | .aaaa none => []
    | .aaaa (some ip) => answer.insertOf (.v6 ip "") qname :: answerInserts qname rest
    | .other false => []
    | .other true => answerInserts qname rest

namespace DNSMessage

/-- The domain that a successful response was asked for. -/
def asked (m : DNSMessage) : Option String :=
  if m.response && m.rcode == rcodeSuccess then
    (m.questions.bind List.head?).map trimDot
  else none

/-- The inserts of a response. -/
def inserts (m : DNSMessage) : List DNSInsert :=
  match m.asked with
  | none => []
  | some qname => answerInserts qname m.answers

/-- How many addresses it carries for a domain. -/
def carried (m : DNSMessage) (d : String) : ℕ := if m.asked = some d then m.inserts.length else 0

/-- At most one address, and none for the root. -/
def Single (m : DNSMessage) : Prop := ∀ d, m.carried d ≤ 1 ∧ (d = "" → m.carried d = 0)

end DNSMessage

/-- The responses that asked for a domain and carried an address. -/
def responsesFor (ms : List DNSMessage) (d : String) : ℕ := ms.countP fun m => 0 < m.carried d

theorem length_answerInserts (qname : String) (answers : List DNSAnswer) :
    (answerInserts qname answers).length ≤ answers.length := by
  induction answers with
  | nil => exact le_rfl
  | cons answer rest ih =>
    unfold answerInserts
    split <;> simp only [List.length_cons, List.length_nil] <;> omega

/-- All the inserts are of valid addresses and the domain asked for. -/
theorem of_mem_answerInserts {qname : String} {answers : List DNSAnswer} {x : DNSInsert}
    (hx : x ∈ answerInserts qname answers) : x.addr.isValid = true ∧ x.domain = qname := by
  induction answers with
  | nil => exact absurd hx List.not_mem_nil
  | cons answer rest ih =>
    unfold answerInserts at hx
    split at hx
    case h_1 | h_3 | h_5 => exact absurd hx List.not_mem_nil
    case h_6 => exact ih hx
    all_goals
      rcases List.mem_cons.mp hx with rfl | hx
      · exact ⟨rfl, rfl⟩
      · exact ih hx

theorem DNSMessage.carried_lt (m : DNSMessage) (d : String) : m.carried d < 2 ^ 16 := by
  rw [carried]
  split_ifs with hd
  · rw [inserts, hd]
    exact lt_of_le_of_lt (length_answerInserts _ _) m.length_lt
  · exact Nat.two_pow_pos 16

namespace DNSTracker

theorem parseAnswers_eq (t : DNSTracker) (qname : String) (answers : List DNSAnswer) :
    t.parseAnswers qname answers = (answerInserts qname answers).foldl cacheInsert t := by
  induction answers generalizing t with
  | nil => rfl
  | cons answer rest ih =>
    unfold parseAnswers answerInserts
    split
    · rfl
    · exact ih _
    · rfl
    · exact ih _
    · rfl
    · exact ih t

/-- **A response is its inserts**, in order. -/
theorem parseDNSResponse_eq (t : DNSTracker) (m : DNSMessage) :
    t.parseDNSResponse m = m.inserts.foldl cacheInsert t := by
  rw [parseDNSResponse, DNSMessage.inserts, DNSMessage.asked]
  by_cases hok : (m.response && m.rcode == rcodeSuccess) = true
  · obtain ⟨hresponse, hrcode⟩ := Bool.and_eq_true_iff.mp hok
    rw [hresponse, if_neg (by simp [beq_iff_eq.mp hrcode]), Bool.true_and, if_pos hrcode]
    cases m.questions with
    | none => rfl
    | some questions =>
      cases questions with
      | nil => rfl
      | cons question questions => exact parseAnswers_eq t _ _
  · have hskip : (!m.response || m.rcode != rcodeSuccess) = true := by
      cases hresponse : m.response with
      | false => rfl
      | true =>
        rw [hresponse, Bool.true_and, beq_iff_eq] at hok
        exact bne_iff_ne.mpr hok
    rw [if_neg hok, if_pos hskip]
    rfl

/-- An insert that drops no counter counts its domain. -/
theorem queryCount_cacheInsert {t : DNSTracker} {x : DNSInsert} (h : t.KeepsCounters x)
    (d : String) : (t.cacheInsert x).queryCount d =
      t.queryCount d + UInt64.ofNat (CounterOp.asks d (.insert x)).toNat := by
  rw [queryCount, queryCount, cacheInsert_kept h, lookup_counted]
  by_cases hasks : CounterOp.asks d (.insert x) = true
  · rw [if_pos hasks, hasks]
    rfl
  · rw [if_neg hasks, Bool.eq_false_of_not_eq_true hasks]
    exact (UInt64.add_zero _).symm

theorem queryCount_inserts {t : DNSTracker} {xs : List DNSInsert}
    (h : History.Along cacheInsert KeepsCounters t xs) (d : String) :
    (xs.foldl cacheInsert t).queryCount d =
      t.queryCount d + UInt64.ofNat (xs.countP fun x => CounterOp.asks d (.insert x)) := by
  induction xs generalizing t with
  | nil => exact (UInt64.add_zero _).symm
  | cons x xs ih =>
    obtain ⟨hx, hrest⟩ := h
    rw [List.foldl_cons, ih hrest, queryCount_cacheInsert hx, List.countP_cons, UInt64.add_assoc,
      ← UInt64.ofNat_add, Nat.add_comm]
    cases CounterOp.asks d (.insert x) <;> rfl

end DNSTracker

/-- How many of the inserts of a response count a domain: the nameless one is never counted. -/
theorem DNSMessage.countP_inserts (m : DNSMessage) (d : String) :
    (m.inserts.countP fun x => DNSTracker.CounterOp.asks d (.insert x)) =
      if d = "" then 0 else m.carried d := by
  have hasks : ∀ x ∈ m.inserts,
      DNSTracker.CounterOp.asks d (.insert x) = decide (d ≠ "" ∧ m.asked = some d) := by
    intro x hx
    rw [inserts] at hx
    cases hasked : m.asked with
    | none =>
      rw [hasked] at hx
      exact absurd hx List.not_mem_nil
    | some qname =>
      rw [hasked] at hx
      obtain ⟨hvalid, rfl⟩ := of_mem_answerInserts hx
      rw [DNSTracker.CounterOp.asks, DNSInsert.isValid, hvalid, Bool.true_and]
      by_cases hd : x.domain = d
      · subst hd
        by_cases hempty : x.domain = "" <;> simp [hempty]
      · simp [hd]
  rw [List.countP_congr fun x hx => by rw [hasks x hx], carried]
  by_cases hd : d = ""
  · simp [hd]
  · by_cases hasked : m.asked = some d <;> simp [hd, hasked]

namespace DNSTracker

/-! ### Runs -/

/-- No response of the run drops a counter. -/
def KeepsAll (t : DNSTracker) (ms : List DNSMessage) : Prop :=
  History.Along parseDNSResponse (fun t m => History.Along cacheInsert KeepsCounters t m.inserts)
    t ms

instance (t : DNSTracker) (ms : List DNSMessage) : Decidable (t.KeepsAll ms) :=
  inferInstanceAs (Decidable (History.Along _ _ t ms))

/-- How many addresses of a run count a domain. -/
def addressesFor (ms : List DNSMessage) (d : String) : ℕ :=
  (ms.map fun m => if d = "" then 0 else m.carried d).sum

/-- **The counters of a run** are its numbers of addresses, as words. -/
theorem queryCount_responses {t : DNSTracker} {ms : List DNSMessage} (h : t.KeepsAll ms)
    (d : String) :
    (ms.foldl parseDNSResponse t).queryCount d =
      t.queryCount d + UInt64.ofNat (addressesFor ms d) := by
  induction ms generalizing t with
  | nil => exact (UInt64.add_zero _).symm
  | cons m ms ih =>
    obtain ⟨hm, hrest⟩ := h
    rw [List.foldl_cons, ih hrest, parseDNSResponse_eq, queryCount_inserts hm,
      DNSMessage.countP_inserts, UInt64.add_assoc, ← UInt64.ofNat_add]
    rfl

/-- After any part of the run, a domain's counter is the number of responses that asked
for it and carried an address. -/
def CountsResponses (t : DNSTracker) (ms : List DNSMessage) : Prop :=
  ∀ k d, (((ms.take k).foldl parseDNSResponse t).queryCount d).toNat = responsesFor (ms.take k) d

/-- Where every response carries one address at most, addresses are responses. -/
theorem addressesFor_eq {ms : List DNSMessage} (h : ∀ m ∈ ms, m.Single) (d : String) :
    addressesFor ms d = responsesFor ms d := by
  induction ms with
  | nil => rfl
  | cons m ms ih =>
    obtain ⟨hm, hms⟩ := List.forall_mem_cons.mp h
    obtain ⟨hone, hroot⟩ := hm d
    have hrest := ih hms
    rw [addressesFor, responsesFor] at hrest ⊢
    rw [List.map_cons, List.sum_cons, List.countP_cons, hrest, Nat.add_comm]
    congr 1
    by_cases hd : d = ""
    · rw [if_pos hd, hroot hd]
      rfl
    · rw [if_neg hd]
      by_cases hpos : 0 < m.carried d
      · rw [decide_eq_true hpos, if_pos rfl]
        omega
      · rw [decide_eq_false hpos, if_neg Bool.false_ne_true]
        omega

theorem addressesFor_concat (ms : List DNSMessage) (m : DNSMessage) (d : String) :
    addressesFor (ms ++ [m]) d = addressesFor ms d + if d = "" then 0 else m.carried d := by
  rw [addressesFor, List.map_append, List.sum_append, List.map_singleton, List.sum_singleton]
  rfl

theorem responsesFor_concat (ms : List DNSMessage) (m : DNSMessage) (d : String) :
    responsesFor (ms ++ [m]) d = responsesFor ms d + if 0 < m.carried d then 1 else 0 := by
  rw [responsesFor, List.countP_append, List.countP_singleton]
  simp [responsesFor]

theorem toNat_queryCount {t : DNSTracker} (ht : t.queryCounts = ∅) {ms : List DNSMessage}
    (h : t.KeepsAll ms) (k : ℕ) (d : String) :
    (((ms.take k).foldl parseDNSResponse t).queryCount d).toNat =
      addressesFor (ms.take k) d % 2 ^ 64 := by
  rw [KeepsAll, ← List.take_append_drop k ms, History.along_append] at h
  have hzero : t.queryCount d = 0 := by rw [queryCount, ht, Finmap.lookup_empty]; rfl
  rw [queryCount_responses h.1, hzero, UInt64.zero_add, UInt64.toNat_ofNat']

/-- **The counters are numbers of responses** in exactly the runs whose responses carry one
address at most, and none for the root, each domain's fewer than a word can count. -/
theorem counts_responses_iff {t : DNSTracker} (ht : t.queryCounts = ∅) {ms : List DNSMessage}
    (h : t.KeepsAll ms) :
    t.CountsResponses ms ↔ (∀ m ∈ ms, m.Single) ∧ ∀ d, responsesFor ms d < 2 ^ 64 := by
  constructor
  · intro hcounts
    refine ⟨fun m hm d => ?_, fun d => ?_⟩
    · -- the two points around the response
      obtain ⟨before, after, rfl⟩ := List.append_of_mem hm
      have hbefore : (before ++ m :: after).take before.length = before := List.take_left
      have hwith : (before ++ m :: after).take (before.length + 1) = before ++ [m] := by
        rw [List.take_append, List.take_of_length_le (Nat.le_succ _), Nat.add_sub_cancel_left]
        rfl
      have hcount := hcounts before.length d
      have hnext := hcounts (before.length + 1) d
      rw [toNat_queryCount ht h, hbefore] at hcount
      rw [toNat_queryCount ht h, hwith, addressesFor_concat, responsesFor_concat] at hnext
      have hlt := m.carried_lt d
      by_cases hd : d = ""
      · rw [if_pos hd] at hnext
        split_ifs at hnext with hpos
        · omega
        · exact ⟨by omega, fun _ => by omega⟩
      · rw [if_neg hd] at hnext
        refine ⟨?_, fun heq => absurd heq hd⟩
        split_ifs at hnext with hpos <;> omega
    · have hall := hcounts ms.length d
      rw [List.take_length] at hall
      exact hall ▸ UInt64.toNat_lt _
  · rintro ⟨hsingle, hfew⟩ k d
    have hle : responsesFor (ms.take k) d ≤ responsesFor ms d :=
      (List.take_sublist k ms).countP_le
    rw [toNat_queryCount ht h, addressesFor_eq fun m hm => hsingle m (List.mem_of_mem_take hm)]
    exact Nat.mod_eq_of_lt (lt_of_le_of_lt hle (hfew d))

/-- An answer with an IPv4 address. -/
def answerA (ip : BitVec 32) : DNSAnswer := ⟨300, .a (some ip), 0, .ascending⟩

/-- A response for a domain of some service. -/
def responseWith (answers : List DNSAnswer) (h : answers.length < 2 ^ 16) : DNSMessage :=
  ⟨true, rcodeSuccess, some ["api.example.com."], answers, h⟩

/-- One address. -/
theorem counts_responses_iff_one :
    (new ⟨0, 0⟩ ⟨[]⟩ 1 Nat.one_pos).CountsResponses [responseWith [answerA 1] (by decide)] ↔
      (∀ m ∈ [responseWith [answerA 1] (by decide)], m.Single) ∧
        ∀ d, responsesFor [responseWith [answerA 1] (by decide)] d < 2 ^ 64 :=
  counts_responses_iff rfl (by decide +kernel)

/-- Two addresses for a domain make its one response count twice. -/
theorem two_addresses_count_twice :
    (new ⟨0, 0⟩ ⟨[]⟩ 1 Nat.one_pos).KeepsAll
        [responseWith [answerA 1, answerA 2] (by decide)] ∧
      ¬(new ⟨0, 0⟩ ⟨[]⟩ 1 Nat.one_pos).CountsResponses
        [responseWith [answerA 1, answerA 2] (by decide)] := by
  refine ⟨by decide +kernel, fun h => ?_⟩
  exact absurd (h 1 "api.example.com") (by decide +kernel)

end DNSTracker
