/-
The flow subscriber (`pkg/nats/subscriber.go`).

A delivered message is acknowledged, sent back with a delay, or dropped.  The
durations, the delivery limit and the delivery count are machine words; the
decoder of message bodies is an argument.

* `Subscriber.nakDelay_eq` — the delay is the doubled base, cut at the maximum,
  reached without overflow in at most 62 doublings;
* `Subscriber.processMsg_settles` — every delivery is settled once, and a run of
  redeliveries ends with the first success or the last allowed delivery.
-/
import Mathlib.Data.UInt
import Mathlib.Algebra.Order.Ring.Int
import Mathlib.Order.Bounds.Basic
import Mathlib.Tactic.SplitIfs

/-- `SubscriberConfig`; the delays count nanoseconds. -/
structure SubscriberConfig where
  url : String
  consumerGroup : String
  maxDeliver : Int64
  nakBaseDelay : Int64
  nakMaxDelay : Int64
  deriving DecidableEq, Repr

/-- `setDefaults`; the client library has the default address. -/
def SubscriberConfig.setDefaults (c : SubscriberConfig) (defaultURL : String) :
    SubscriberConfig where
  url := if c.url = "" then defaultURL else c.url
  consumerGroup := if c.consumerGroup = "" then "tollwing-server" else c.consumerGroup
  maxDeliver := if c.maxDeliver ≤ 0 then 5 else c.maxDeliver
  nakBaseDelay := if c.nakBaseDelay ≤ 0 then 1000000000 else c.nakBaseDelay
  nakMaxDelay := if c.nakMaxDelay ≤ 0 then 30000000000 else c.nakMaxDelay

/-- The defaults leave nothing at or below zero. -/
theorem SubscriberConfig.setDefaults_pos (c : SubscriberConfig) (defaultURL : String) :
    0 < (c.setDefaults defaultURL).maxDeliver ∧ 0 < (c.setDefaults defaultURL).nakBaseDelay ∧
      0 < (c.setDefaults defaultURL).nakMaxDelay := by
  have hpos : ∀ {v d : Int64}, 0 < d → 0 < if v ≤ 0 then d else v := by
    intro v d hd
    split_ifs with hv
    · exact hd
    · exact Int64.not_le.mp hv
  exact ⟨hpos (by decide), hpos (by decide), hpos (by decide)⟩

/-- A subscriber, with its configuration as the defaults leave it. -/
structure Subscriber where
  cfg : SubscriberConfig
  maxDeliver_pos : 0 < cfg.maxDeliver
  nakBaseDelay_pos : 0 < cfg.nakBaseDelay
  nakMaxDelay_pos : 0 < cfg.nakMaxDelay

/-- `NewSubscriber`, once it is connected. -/
def NewSubscriber (c : SubscriberConfig) (defaultURL : String) : Subscriber where
  cfg := c.setDefaults defaultURL
  maxDeliver_pos := (c.setDefaults_pos defaultURL).1
  nakBaseDelay_pos := (c.setDefaults_pos defaultURL).2.1
  nakMaxDelay_pos := (c.setDefaults_pos defaultURL).2.2

/-- The calls made for a delivered message: the handler's and those that settle it. -/
inductive MsgCall (β : Type)
  | handler (batch : β)
  | ack
  | nakWithDelay (delay : Int64)
  | term
  deriving DecidableEq, Repr

namespace MsgCall

variable {β : Type}

/-- The calls that settle a delivery. -/
def settles : MsgCall β → Bool
  | .handler _ => false
  | _ => true

/-- The calls of the handler. -/
def handles : MsgCall β → Bool
  | .handler _ => true
  | _ => false

/-- The calls that ask for a redelivery. -/
def redelivers : MsgCall β → Bool
  | .nakWithDelay _ => true
  | _ => false

end MsgCall

namespace Subscriber

/-- The loop of `nakDelay` with the rounds left: the delays it doubles to, and what
it returns. -/
def nakLoop (maxDelay : Int64) : ℕ → Int64 → List Int64 × Int64
  | 0, delay => ([], if maxDelay < delay then maxDelay else delay)
  | n + 1, delay =>
    let doubled := delay * 2
    if maxDelay ≤ doubled then ([doubled], maxDelay)
    else
      let rest := nakLoop maxDelay n doubled
      (doubled :: rest.1, rest.2)

/-- The loop for a delivery: `i` counts from one, below `delivered`. -/
def nakRun (s : Subscriber) (delivered : UInt64) : List Int64 × Int64 :=
  nakLoop s.cfg.nakMaxDelay (delivered.toNat - 1) s.cfg.nakBaseDelay

/-- `nakDelay`. -/
def nakDelay (s : Subscriber) (delivered : UInt64) : Int64 := (s.nakRun delivered).2

variable {β : Type}

/-- `processMsg`: the calls for one delivery.  The delivery count may be missing; the
handler tells whether it succeeded. -/
def processMsg (s : Subscriber) (unmarshal : List UInt8 → Option β) (data : List UInt8)
    (numDelivered : Option UInt64) (handler : β → Bool) : List (MsgCall β) :=
  match unmarshal data with
  | none => [.term]
  | some batch =>
    if handler batch then [.handler batch, .ack]
    else
      let delivered := numDelivered.getD 0
      if numDelivered.isSome ∧ s.cfg.maxDeliver.toUInt64 ≤ delivered then [.handler batch, .term]
      else [.handler batch, .nakWithDelay (s.nakDelay delivered)]

/-- The deliveries of one message from the `n`-th on, each after the one before asked
for it; `none` is out of fuel.  The handler may act differently every time. -/
def deliveries (s : Subscriber) (unmarshal : List UInt8 → Option β) (data : List UInt8)
    (handler : ℕ → β → Bool) : ℕ → ℕ → Option (List (MsgCall β))
  | 0, _ => none
  | fuel + 1, n =>
    let calls := s.processMsg unmarshal data (some (UInt64.ofNat n)) (handler n)
    if calls.any MsgCall.redelivers then
      (s.deliveries unmarshal data handler fuel (n + 1)).map (calls ++ ·)
    else some calls

/-! ### The delay -/

/-- Doubling below half of the range does not overflow. -/
theorem toInt_double {v : Int64} (hpos : 0 < v.toInt) (hlt : v.toInt < 2 ^ 62) :
    (v * 2).toInt = v.toInt * 2 := by
  rw [Int64.toInt_mul]
  show (v.toInt * 2).bmod _ = _
  exact Int.bmod_eq_of_le (by omega) (by omega)

/-- **The loop**: from a delay within a maximum that is not too large, it doubles as
often as it is told or up to the maximum, without overflow. -/
theorem nakLoop_spec {maxDelay : Int64} (hmax : maxDelay.toInt < 2 ^ 62) (n : ℕ) {delay : Int64}
    (hpos : 0 < delay.toInt) (hle : delay.toInt ≤ maxDelay.toInt) :
    (nakLoop maxDelay n delay).2.toInt = min (delay.toInt * 2 ^ n) maxDelay.toInt ∧
      (∀ d ∈ (nakLoop maxDelay n delay).1, 0 < d.toInt) ∧
      ∀ k, maxDelay.toInt < delay.toInt * 2 ^ k → (nakLoop maxDelay n delay).1.length ≤ k := by
  induction n generalizing delay with
  | zero =>
    refine ⟨?_, nofun, fun k _ => Nat.zero_le k⟩
    have hnot : ¬maxDelay < delay := by
      rw [Int64.lt_iff_toInt_lt]
      omega
    rw [nakLoop, if_neg hnot, pow_zero, mul_one, min_eq_left hle]
  | succ n ih =>
    have hdouble : (delay * 2).toInt = delay.toInt * 2 := toInt_double hpos (by omega)
    rw [nakLoop, pow_succ', ← mul_assoc, ← hdouble]
    by_cases hreach : maxDelay ≤ delay * 2
    · have hreach' := Int64.le_iff_toInt_le.mp hreach
      rw [if_pos hreach]
      refine ⟨?_, ?_, fun k hk => ?_⟩
      · have hpow : 1 ≤ (2 : ℤ) ^ n := one_le_pow₀ (by omega)
        exact (min_eq_right (hreach'.trans (le_mul_of_one_le_right (by omega) hpow))).symm
      · exact fun d hd => by
          rw [List.mem_singleton.mp hd]
          omega
      · -- without a doubling the delay would be above the maximum
        cases k with
        | zero => omega
        | succ k => exact Nat.succ_le_succ (Nat.zero_le k)
    · have hbelow : (delay * 2).toInt < maxDelay.toInt := by
        rw [Int64.le_iff_toInt_le] at hreach
        omega
      rw [if_neg hreach]
      obtain ⟨hvalue, hall, hlength⟩ := ih (by omega) hbelow.le
      refine ⟨hvalue, List.forall_mem_cons.mpr ⟨by omega, hall⟩, fun k hk => ?_⟩
      cases k with
      | zero => omega
      | succ k =>
        rw [pow_succ', ← mul_assoc, ← hdouble] at hk
        exact Nat.succ_le_succ (hlength k hk)

/-- **The backoff delay**, for a base within a maximum below 2^62: the base doubled
with every delivery after the first and cut at the maximum, reached in at most 62
doublings that all stay positive, and never shorter for a later delivery. -/
theorem nakDelay_eq (s : Subscriber) (hbase : s.cfg.nakBaseDelay ≤ s.cfg.nakMaxDelay)
    (hmax : s.cfg.nakMaxDelay.toInt < 2 ^ 62) (d : UInt64) :
    ((s.nakRun d).1.length ≤ 62 ∧ ∀ delay ∈ (s.nakRun d).1, 0 < delay.toInt) ∧
      (s.nakDelay 0 = s.cfg.nakBaseDelay ∧
        (1 ≤ d → (s.nakDelay d).toInt
          = min (s.cfg.nakBaseDelay.toInt * 2 ^ (d.toNat - 1)) s.cfg.nakMaxDelay.toInt)) ∧
      (s.cfg.nakBaseDelay ≤ s.nakDelay d ∧ s.nakDelay d ≤ s.cfg.nakMaxDelay) ∧
      ∀ d', d ≤ d' → s.nakDelay d ≤ s.nakDelay d' := by
  have hpos : 0 < s.cfg.nakBaseDelay.toInt := Int64.lt_iff_toInt_lt.mp s.nakBaseDelay_pos
  have hle : s.cfg.nakBaseDelay.toInt ≤ s.cfg.nakMaxDelay.toInt := Int64.le_iff_toInt_le.mp hbase
  have hvalue : ∀ d : UInt64, (s.nakDelay d).toInt
      = min (s.cfg.nakBaseDelay.toInt * 2 ^ (d.toNat - 1)) s.cfg.nakMaxDelay.toInt := fun d =>
    (nakLoop_spec hmax (d.toNat - 1) hpos hle).1
  obtain ⟨-, hall, hlength⟩ := nakLoop_spec hmax (d.toNat - 1) hpos hle
  have hmono : ∀ {m n : ℕ}, m ≤ n → s.cfg.nakBaseDelay.toInt * 2 ^ m
      ≤ s.cfg.nakBaseDelay.toInt * 2 ^ n := fun hmn =>
    mul_le_mul_of_nonneg_left (pow_le_pow_right₀ (by omega) hmn) hpos.le
  refine ⟨⟨hlength 62 (by omega), hall⟩, ⟨?_, fun _ => hvalue d⟩, ⟨?_, ?_⟩, fun d' hd => ?_⟩
  · -- a count that is missing reads zero
    refine Int64.toInt_inj.mp ((hvalue 0).trans ?_)
    show min (s.cfg.nakBaseDelay.toInt * 2 ^ 0) s.cfg.nakMaxDelay.toInt = _
    rw [pow_zero, mul_one, min_eq_left hle]
  · rw [Int64.le_iff_toInt_le, hvalue]
    have hbase := hmono (Nat.zero_le (d.toNat - 1))
    rw [pow_zero, mul_one] at hbase
    exact le_min hbase hle
  · rw [Int64.le_iff_toInt_le, hvalue]
    exact min_le_right _ _
  · rw [Int64.le_iff_toInt_le, hvalue, hvalue]
    have hd' : d.toNat - 1 ≤ d'.toNat - 1 := Nat.sub_le_sub_right (UInt64.le_iff_toNat_le.mp hd) 1
    exact min_le_min_right _ (hmono hd')

/-- The configuration that the defaults fill in. -/
def defaultSubscriber : Subscriber := NewSubscriber ⟨"", "", 0, 0, 0⟩ "nats://localhost:4222"

theorem nakDelay_eq_default :
    (defaultSubscriber.nakDelay 4).toInt = 8000000000 ∧
      (defaultSubscriber.nakDelay 6).toInt = 30000000000 := by
  have hbase : defaultSubscriber.cfg.nakBaseDelay ≤ defaultSubscriber.cfg.nakMaxDelay := by decide
  have hmax : defaultSubscriber.cfg.nakMaxDelay.toInt < 2 ^ 62 := by decide
  obtain ⟨-, ⟨-, hfour⟩, -⟩ := nakDelay_eq defaultSubscriber hbase hmax 4
  obtain ⟨-, ⟨-, hsix⟩, -⟩ := nakDelay_eq defaultSubscriber hbase hmax 6
  exact ⟨(hfour (by decide)).trans (by decide), (hsix (by decide)).trans (by decide)⟩

/-! ### Settling deliveries -/

section

variable {s : Subscriber} {unmarshal : List UInt8 → Option β} {data : List UInt8} {batch : β}

theorem processMsg_of_malformed (h : unmarshal data = none) (numDelivered : Option UInt64)
    (handler : β → Bool) : s.processMsg unmarshal data numDelivered handler = [.term] := by
  rw [processMsg, h]

theorem processMsg_of_success (h : unmarshal data = some batch) (numDelivered : Option UInt64)
    {handler : β → Bool} (hhandler : handler batch = true) :
    s.processMsg unmarshal data numDelivered handler = [.handler batch, .ack] := by
  rw [processMsg, h]
  exact if_pos hhandler

/-- A failure is dropped if the delivery is known to be the last one, and sent back else. -/
theorem processMsg_of_failure (h : unmarshal data = some batch) (numDelivered : Option UInt64)
    {handler : β → Bool} (hhandler : handler batch = false) :
    s.processMsg unmarshal data numDelivered handler
      = if numDelivered.isSome ∧ s.cfg.maxDeliver.toUInt64 ≤ numDelivered.getD 0 then
          [.handler batch, .term]
        else [.handler batch, .nakWithDelay (s.nakDelay (numDelivered.getD 0))] := by
  rw [processMsg, h]
  exact if_neg (Bool.eq_false_iff.mp hhandler)

/-- Every delivery is settled once. -/
theorem countP_settles (s : Subscriber) (unmarshal : List UInt8 → Option β) (data : List UInt8)
    (numDelivered : Option UInt64) (handler : β → Bool) :
    (s.processMsg unmarshal data numDelivered handler).countP MsgCall.settles = 1 := by
  cases h : unmarshal data with
  | none =>
    rw [processMsg_of_malformed h]
    rfl
  | some batch =>
    cases hhandler : handler batch with
    | true =>
      rw [processMsg_of_success h numDelivered hhandler]
      rfl
    | false =>
      rw [processMsg_of_failure h numDelivered hhandler]
      split_ifs <;> rfl

/-- A failure at the last delivery that the limit allows. -/
theorem processMsg_of_last (h : unmarshal data = some batch) {d : UInt64} {handler : β → Bool}
    (hhandler : handler batch = false) (hlast : s.cfg.maxDeliver.toUInt64 ≤ d) :
    s.processMsg unmarshal data (some d) handler = [.handler batch, .term] := by
  rw [processMsg_of_failure h _ hhandler]
  exact if_pos ⟨rfl, hlast⟩

/-- A failure at an earlier delivery. -/
theorem processMsg_of_retry (h : unmarshal data = some batch) {d : UInt64} {handler : β → Bool}
    (hhandler : handler batch = false) (hearly : ¬s.cfg.maxDeliver.toUInt64 ≤ d) :
    s.processMsg unmarshal data (some d) handler
      = [.handler batch, .nakWithDelay (s.nakDelay d)] := by
  rw [processMsg_of_failure h _ hhandler]
  exact if_neg fun hlast => hearly hlast.2

/-- `MaxDeliver`, as a number of deliveries. -/
def limit (s : Subscriber) : ℕ := s.cfg.maxDeliver.toInt.toNat

theorem limit_pos (s : Subscriber) : 0 < s.limit := by
  have hpos : 0 < s.cfg.maxDeliver.toInt := Int64.lt_iff_toInt_lt.mp s.maxDeliver_pos
  rw [limit]
  omega

/-- The deliveries up to the limit are counted without overflow. -/
theorem le_ofNat_iff {n : ℕ} (h : n ≤ s.limit) :
    s.cfg.maxDeliver.toUInt64 ≤ UInt64.ofNat n ↔ s.limit ≤ n := by
  have hlimit : s.cfg.maxDeliver.toUInt64.toNat = s.limit :=
    Int64.toNat_toUInt64_of_le (Int64.le_of_lt s.maxDeliver_pos)
  have hlt : n < 2 ^ 64 := h.trans_lt (hlimit ▸ s.cfg.maxDeliver.toUInt64.toNat_lt)
  rw [UInt64.le_iff_toNat_le, UInt64.toNat_ofNat_of_lt' hlt, hlimit]

/-- **The rest of a run**: from a delivery within the limit it goes on to the first
success, or to the limit. -/
theorem deliveries_from (h : unmarshal data = some batch) (handler : ℕ → β → Bool) (r n : ℕ)
    (hn : n + r = s.limit) :
    ∃ calls, s.deliveries unmarshal data handler (r + 1) n = some calls ∧
      ((∃ k, n ≤ k ∧ k ≤ s.limit ∧ handler k batch = true ∧
          (∀ i, n ≤ i → i < k → handler i batch = false) ∧
          calls.countP MsgCall.handles + n = k + 1 ∧ calls.getLast? = some .ack) ∨
        (∀ i, n ≤ i → i ≤ s.limit → handler i batch = false) ∧
          calls.countP MsgCall.handles + n = s.limit + 1 ∧ calls.getLast? = some .term) := by
  induction r generalizing n with
  | zero =>
    rw [Nat.add_zero] at hn
    rw [deliveries]
    cases hhandler : handler n batch with
    | true =>
      rw [processMsg_of_success h _ hhandler]
      refine ⟨_, rfl, Or.inl ⟨n, le_rfl, hn.le, hhandler, fun i hi hlt => ?_, ?_, rfl⟩⟩
      · omega
      · exact Nat.add_comm 1 n
    | false =>
      -- the last delivery that the limit allows
      rw [processMsg_of_last h hhandler ((le_ofNat_iff hn.le).mpr hn.ge)]
      refine ⟨_, rfl, Or.inr ⟨fun i hi hle => ?_, ?_, rfl⟩⟩
      · rwa [show i = n by omega]
      · rw [← hn]
        exact Nat.add_comm 1 n
  | succ r ih =>
    rw [deliveries]
    cases hhandler : handler n batch with
    | true =>
      rw [processMsg_of_success h _ hhandler]
      refine ⟨_, rfl, Or.inl ⟨n, le_rfl, by omega, hhandler, fun i hi hlt => ?_, ?_, rfl⟩⟩
      · omega
      · exact Nat.add_comm 1 n
    | false =>
      have hbelow : ¬s.cfg.maxDeliver.toUInt64 ≤ UInt64.ofNat n := by
        rw [le_ofNat_iff (by omega)]
        omega
      rw [processMsg_of_retry h hhandler hbelow]
      obtain ⟨calls, hcalls, hrest⟩ := ih (n + 1) (by omega)
      have hfirst : ∀ i, n ≤ i → n + 1 ≤ i ∨ handler i batch = false := by
        intro i hi
        rcases hi.lt_or_eq with hlt | rfl
        · exact Or.inl hlt
        · exact Or.inr hhandler
      have hlast : ∀ {call : MsgCall β}, calls.getLast? = some call → ∀ front,
          (front ++ calls).getLast? = some call := by
        intro call hcall front
        rw [List.getLast?_append, hcall]
        rfl
      refine ⟨_, (if_pos rfl).trans (congrArg _ hcalls), ?_⟩
      rw [List.countP_append]
      rcases hrest with ⟨k, hk, hkle, hsuccess, hfail, hcount, hack⟩ | ⟨hfail, hcount, hterm⟩
      · refine Or.inl ⟨k, by omega, hkle, hsuccess, fun i hi hlt => ?_, ?_, hlast hack _⟩
        · exact (hfirst i hi).elim (fun hi => hfail i hi hlt) id
        · show 1 + calls.countP MsgCall.handles + n = k + 1
          omega
      · refine Or.inr ⟨fun i hi hle => ?_, ?_, hlast hterm _⟩
        · exact (hfirst i hi).elim (fun hi => hfail i hi hle) id
        · show 1 + calls.countP MsgCall.handles + n = s.limit + 1
          omega

end

/-- **Deliveries are settled once and redeliveries are bounded.**  A malformed body is
dropped without the handler.  The deliveries of any other message, counted from one,
call it up to its first success and at most `MaxDeliver` times; they end in an
acknowledgement if one of these calls succeeds, and in a drop else. -/
theorem processMsg_settles (s : Subscriber) (unmarshal : List UInt8 → Option β)
    (data : List UInt8) :
    (∀ numDelivered handler,
      (s.processMsg unmarshal data numDelivered handler).countP MsgCall.settles = 1) ∧
    (unmarshal data = none → ∀ numDelivered handler,
      s.processMsg unmarshal data numDelivered handler = [.term]) ∧
    ∀ batch, unmarshal data = some batch → ∀ handler : ℕ → β → Bool,
      ∃ calls, s.deliveries unmarshal data handler s.limit 1 = some calls ∧
        (∀ first, IsLeast {i | 1 ≤ i ∧ handler i batch = true} first →
          calls.countP MsgCall.handles = min first s.limit) ∧
        ((∀ i, 1 ≤ i → handler i batch = false) → calls.countP MsgCall.handles = s.limit) ∧
        ((∃ i, 1 ≤ i ∧ i ≤ calls.countP MsgCall.handles ∧ handler i batch = true) →
          calls.getLast? = some .ack) ∧
        ((∀ i, 1 ≤ i → i ≤ calls.countP MsgCall.handles → handler i batch = false) →
          calls.getLast? = some .term) := by
  refine ⟨s.countP_settles unmarshal data, fun h => processMsg_of_malformed h,
    fun batch h handler => ?_⟩
  have hlimit := s.limit_pos
  have hrest : 1 + (s.limit - 1) = s.limit := by omega
  obtain ⟨calls, hcalls, hrun⟩ := deliveries_from h handler (s.limit - 1) 1 hrest
  rw [Nat.sub_add_cancel hlimit] at hcalls
  refine ⟨calls, hcalls, ?_⟩
  rcases hrun with ⟨k, hk, hkle, hsuccess, hfail, hcount, hack⟩ | ⟨hfail, hcount, hterm⟩
  · -- the first success is within the limit
    have hcount' : calls.countP MsgCall.handles = k := by omega
    rw [hcount']
    refine ⟨fun first hfirst => ?_, fun hnone => ?_, fun _ => hack, fun hnone => ?_⟩
    · have hle : first ≤ k := hfirst.2 ⟨hk, hsuccess⟩
      have heq : first = k := by
        by_contra hne
        exact absurd (hfirst.1.2.symm.trans (hfail first hfirst.1.1 (by omega))) nofun
      omega
    · exact absurd (hsuccess.symm.trans (hnone k hk)) nofun
    · exact absurd (hsuccess.symm.trans (hnone k hk le_rfl)) nofun
  · -- nothing succeeds within the limit
    have hcount' : calls.countP MsgCall.handles = s.limit := by omega
    rw [hcount']
    refine ⟨fun first hfirst => ?_, fun _ => rfl, fun hsome => ?_, fun _ => hterm⟩
    · have hlt : s.limit < first := by
        by_contra hle
        exact absurd (hfirst.1.2.symm.trans (hfail first hfirst.1.1 (by omega))) nofun
      omega
    · obtain ⟨i, hi, hile, hsuccess⟩ := hsome
      exact absurd (hsuccess.symm.trans (hfail i hi hile)) nofun

/-- A message that the handler takes at the third delivery. -/
theorem processMsg_settles_third :
    ∃ calls, defaultSubscriber.deliveries (fun data => some data.length) [0x7b, 0x7d]
        (fun i _ => 3 ≤ i) defaultSubscriber.limit 1 = some calls ∧
      calls.countP MsgCall.handles = 3 ∧ calls.getLast? = some .ack := by
  obtain ⟨-, -, hrun⟩ := processMsg_settles defaultSubscriber (fun data => some data.length)
    [0x7b, 0x7d]
  obtain ⟨calls, hcalls, hfirst, -, hack, -⟩ := hrun 2 rfl fun i _ => 3 ≤ i
  have hleast : IsLeast {i | 1 ≤ i ∧ decide (3 ≤ i) = true} 3 :=
    ⟨⟨by omega, rfl⟩, fun i hi => of_decide_eq_true hi.2⟩
  have hthree : calls.countP MsgCall.handles = 3 := (hfirst 3 hleast).trans (by decide)
  exact ⟨calls, hcalls, hthree, hack ⟨3, by omega, hthree.ge, rfl⟩⟩

end Subscriber
