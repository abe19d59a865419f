/-
Delivery through the stream (`pkg/nats/publisher.go`, `pkg/nats/subscriber.go`).

`Publish` stores a batch; the stream delivers it until an answer removes it, and
`processMsg` answers every delivery.  Publications, deliveries, answers that arrive late or
never, crashes of the subscriber and expiry of old messages happen in any order.

* `FlowStream.delivered_soundly` — a batch that `Publish` reported is stored; a message that
  was acknowledged was ingested; none is ingested more often than once and once for every
  time that its answer was overdue; and one that decodes is not given up before
  `MaxDeliver` deliveries.
-/
import Tollwing.Subscriber
import Mathlib.Data.List.Count
import Mathlib.Data.List.Perm.Basic

/-- What has become of a message: it is stored until an answer removes it
(`WorkQueuePolicy`), or the limits of the stream do (`MaxAge`, `DiscardOld`). -/
inductive Fate
  | stored
  | acked
  | termed
  | discarded
  deriving DecidableEq, Repr

/-- A message of the stream.  `flights` are the numbers of its unanswered deliveries, and it
is `waiting` from a delivery on until a negative answer; `timeouts` are the deliveries made
while it was.  The negative answers are told apart by whether the delivery count was known,
and `ingested` is what the handler took. -/
structure StreamMessage (β : Type) where
  data : List UInt8
  fate : Fate
  delivered : ℕ
  flights : List ℕ
  waiting : Bool
  timeouts : ℕ
  told : ℕ
  blind : ℕ
  ingested : List β
  deriving DecidableEq, Repr

/-- What happens to one message.  A delivery that is processed has its metadata or not, and
its answer arrives or not; one that is lost was with a subscriber that stopped. -/
inductive MessageStep
  | deliver
  | process (k : ℕ) (metadata succeeds arrives : Bool)
  | lose (k : ℕ)
  | discard
  deriving DecidableEq, Repr

namespace StreamMessage

variable {β : Type}

/-- A message that was just stored. -/
def new (data : List UInt8) : StreamMessage β :=
  ⟨data, .stored, 0, [], false, 0, 0, 0, []⟩

/-- A delivery, if the consumer allows one more. -/
def deliver (s : Subscriber) (capped : Bool) (m : StreamMessage β) : Option (StreamMessage β) :=
  if m.fate = .stored ∧ (capped → m.delivered < s.limit) then
    some
      { m with
        delivered := m.delivered + 1
        flights := m.flights ++ [m.delivered + 1]
        timeouts := if m.waiting then m.timeouts + 1 else m.timeouts
        waiting := true }
  else none

/-- One call of `processMsg`.  An answer counts if it arrives and the message is there. -/
def call (metadata succeeds arrives : Bool) (m : StreamMessage β) : MsgCall β → StreamMessage β
  | .handler batch => if succeeds then { m with ingested := m.ingested ++ [batch] } else m
  | .ack => if arrives ∧ m.fate = .stored then { m with fate := .acked } else m
  | .term => if arrives ∧ m.fate = .stored then { m with fate := .termed } else m
  | .nakWithDelay _ =>
    if arrives ∧ m.fate = .stored then
      { m with
        waiting := false
        told := if metadata then m.told + 1 else m.told
        blind := if metadata then m.blind else m.blind + 1 }
    else m

/-- The delivery `k` is processed. -/
def process (s : Subscriber) (unmarshal : List UInt8 → Option β) (m : StreamMessage β) (k : ℕ)
    (metadata succeeds arrives : Bool) : Option (StreamMessage β) :=
  m.flights[k]?.map fun number =>
    (s.processMsg unmarshal m.data (if metadata then some (UInt64.ofNat number) else none)
      fun _ => succeeds).foldl (call metadata succeeds arrives)
      { m with flights := m.flights.eraseIdx k }

/-- One step of a message; `none` if it cannot happen. -/
def step (s : Subscriber) (unmarshal : List UInt8 → Option β) (capped : Bool)
    (m : StreamMessage β) : MessageStep → Option (StreamMessage β)
  | .deliver => m.deliver s capped
  | .process k metadata succeeds arrives => m.process s unmarshal k metadata succeeds arrives
  | .lose k => m.flights[k]?.map fun _ => { m with flights := m.flights.eraseIdx k }
  | .discard => if m.fate = .stored then some { m with fate := .discarded } else none

end StreamMessage

/-- The stream: its messages in order, the batches that were given to `Publish`, and those
for which it returned no error. -/
structure FlowStream (β : Type) where
  messages : List (StreamMessage β)
  attempted : List β
  reported : List β
  deriving DecidableEq, Repr

/-- A publication may be stored or not, and the answer may be lost; the rest happens to the
message `i`. -/
inductive StreamStep (β : Type)
  | publish (batch : β) (stored answered : Bool)
  | message (i : ℕ) (step : MessageStep)
  deriving DecidableEq, Repr

namespace FlowStream

variable {β : Type} (s : Subscriber) (marshal : β → Option (List UInt8))
  (unmarshal : List UInt8 → Option β) (capped : Bool)

/-- A stream as it is added. -/
def empty : FlowStream β := ⟨[], [], []⟩

/-- `Publish`: what cannot be marshalled is not sent. -/
def publish (t : FlowStream β) (batch : β) (stored answered : Bool) : FlowStream β :=
  match marshal batch with
  | none => { t with attempted := t.attempted ++ [batch] }
  | some data =>
    { messages := if stored then t.messages ++ [.new data] else t.messages
      attempted := t.attempted ++ [batch]
      reported := if stored && answered then t.reported ++ [batch] else t.reported }

/-- One step. -/
def step (t : FlowStream β) : StreamStep β → Option (FlowStream β)
  | .publish batch stored answered => some (t.publish marshal batch stored answered)
  | .message i e =>
    (t.messages[i]?.bind fun m => m.step s unmarshal capped e).map fun m =>
      { t with messages := t.messages.set i m }

/-- A run. -/
def run (t : FlowStream β) (steps : List (StreamStep β)) : Option (FlowStream β) :=
  steps.foldlM (step s marshal unmarshal capped) t

end FlowStream

namespace Subscriber

/-- The delivery count of the metadata, even if it overflows, is not above the deliveries. -/
theorem limit_le_of_le_ofNat {s : Subscriber} {n : ℕ}
    (h : s.cfg.maxDeliver.toUInt64 ≤ UInt64.ofNat n) : s.limit ≤ n := by
  have hlimit : s.cfg.maxDeliver.toUInt64.toNat = s.limit :=
    Int64.toNat_toUInt64_of_le (Int64.le_of_lt s.maxDeliver_pos)
  have hcount : (UInt64.ofNat n).toNat ≤ n := by
    rw [UInt64.toNat_ofNat']
    exact Nat.mod_le _ _
  rw [UInt64.le_iff_toNat_le, hlimit] at h
  exact h.trans hcount

/-- A count that did not overflow is below the limit if the subscriber goes on. -/
theorem lt_limit_of_not_le_ofNat {s : Subscriber} {n : ℕ} (hn : n < 2 ^ 64)
    (h : ¬s.cfg.maxDeliver.toUInt64 ≤ UInt64.ofNat n) : n < s.limit := by
  by_contra hle
  have hlimit : s.cfg.maxDeliver.toUInt64.toNat = s.limit :=
    Int64.toNat_toUInt64_of_le (Int64.le_of_lt s.maxDeliver_pos)
  refine h ?_
  rw [UInt64.le_iff_toNat_le, UInt64.toNat_ofNat_of_lt' hn, hlimit]
  omega

end Subscriber

namespace StreamMessage

variable {β : Type} {s : Subscriber} {unmarshal : List UInt8 → Option β} {capped : Bool}
  {m m' : StreamMessage β}

/-- What holds of every message.  `spent` counts the deliveries by what became of them,
`asked` by what brought them about, and `early` those that the subscriber sent back. -/
structure Sound (s : Subscriber) (unmarshal : List UInt8 → Option β) (capped : Bool)
    (m : StreamMessage β) : Prop where
  taken : ∀ b ∈ m.ingested, unmarshal m.data = some b
  numbered : ∀ n ∈ m.flights, n ≤ m.delivered
  spent : m.ingested.length + (m.told + m.blind) + m.flights.length ≤ m.delivered
  asked : m.delivered + (if m.waiting then 0 else 1) ≤ m.told + m.blind + m.timeouts + 1
  early : m.delivered < 2 ^ 64 →
    m.told + m.flights.countP (· < s.limit) ≤ min m.delivered (s.limit - 1)
  acked : m.fate = .acked → m.ingested ≠ []
  termed : m.fate = .termed → unmarshal m.data = none ∨ s.limit ≤ m.delivered
  cap : capped → m.delivered ≤ s.limit

/-- A message that was just stored is sound. -/
theorem Sound.new (data : List UInt8) : (new data : StreamMessage β).Sound s unmarshal capped where
  taken := nofun
  numbered := nofun
  spent := le_rfl
  asked := le_rfl
  early _ := Nat.zero_le _
  acked := nofun
  termed := nofun
  cap _ := Nat.zero_le _

/-- What a delivery does. -/
theorem deliver_eq_some (hm : m.deliver s capped = some m') :
    m.fate = .stored ∧ (capped → m.delivered < s.limit) ∧
      m' = { m with
        delivered := m.delivered + 1
        flights := m.flights ++ [m.delivered + 1]
        timeouts := if m.waiting then m.timeouts + 1 else m.timeouts
        waiting := true } := by
  rw [deliver] at hm
  by_cases hallowed : m.fate = .stored ∧ (capped → m.delivered < s.limit)
  · rw [if_pos hallowed] at hm
    exact ⟨hallowed.1, hallowed.2, (Option.some.inj hm).symm⟩
  · rw [if_neg hallowed] at hm
    exact absurd hm (by simp)

/-- A delivery takes the next number. -/
theorem Sound.deliver (h : m.Sound s unmarshal capped) (hm : m.deliver s capped = some m') :
    m'.Sound s unmarshal capped := by
  obtain ⟨hstored, hroom, rfl⟩ := deliver_eq_some hm
  have hspent := h.spent
  have hasked := h.asked
  constructor
  · exact h.taken
  · intro n hn
    rcases List.mem_append.mp hn with hold | hnew
    · exact (h.numbered n hold).trans (Nat.le_succ _)
    · exact (List.mem_singleton.mp hnew).le
  · simp only [List.length_append, List.length_singleton]
    omega
  · -- one that nobody asked for was made because the answer is overdue
    by_cases hwaiting : m.waiting = true
    · simp only [hwaiting, if_true] at hasked ⊢
      omega
    · simp only [hwaiting] at hasked ⊢
      simp only [if_true, if_false, Bool.false_eq_true] at hasked ⊢
      omega
  · intro hlt
    have hearly := h.early (by simp only at hlt; omega)
    simp only [List.countP_append, List.countP_singleton, decide_eq_true_eq]
    split_ifs <;> omega
  · intro hacked
    exact absurd (hstored.symm.trans hacked) (by simp)
  · intro htermed
    exact absurd (hstored.symm.trans htermed) (by simp)
  · intro hcap
    exact hroom hcap

/-- A delivery is over, and nobody answered. -/
theorem Sound.erase (h : m.Sound s unmarshal capped) (k : ℕ) :
    ({ m with flights := m.flights.eraseIdx k } : StreamMessage β).Sound s unmarshal capped := by
  have hsub : (m.flights.eraseIdx k).Sublist m.flights := List.eraseIdx_sublist ..
  have hspent := h.spent
  constructor
  · exact h.taken
  · exact fun n hn => h.numbered n (hsub.subset hn)
  · have := hsub.length_le
    simp only
    omega
  · exact h.asked
  · intro hlt
    have hcount := hsub.countP_le (p := (· < s.limit))
    have hearly := h.early hlt
    simp only
    omega
  · exact h.acked
  · exact h.termed
  · exact h.cap

/-- The delivery `k` is over, and the handler took the batch. -/
theorem Sound.take (h : m.Sound s unmarshal capped) {k n : ℕ} (hk : m.flights[k]? = some n) {b : β}
    (hb : unmarshal m.data = some b) :
    ({ m with flights := m.flights.eraseIdx k, ingested := m.ingested ++ [b] }
      : StreamMessage β).Sound s unmarshal capped := by
  obtain ⟨hlt, -⟩ := List.getElem?_eq_some_iff.mp hk
  have hlength := List.length_eraseIdx_add_one hlt
  have hspent := h.spent
  have hrest := h.erase k
  constructor
  · intro b' hb'
    rcases List.mem_append.mp hb' with hold | hnew
    · exact h.taken b' hold
    · exact (List.mem_singleton.mp hnew) ▸ hb
  · exact hrest.numbered
  · simp only [List.length_append, List.length_singleton]
    omega
  · exact h.asked
  · exact hrest.early
  · intro _ hnil
    simp at hnil
  · exact h.termed
  · exact h.cap

/-- The delivery `k` is over, and was sent back. -/
theorem Sound.nak (h : m.Sound s unmarshal capped) {k n : ℕ} (hk : m.flights[k]? = some n)
    (metadata : Bool) (hearly : metadata = true → n < 2 ^ 64 → n < s.limit) :
    ({ m with
        flights := m.flights.eraseIdx k
        waiting := false
        told := if metadata then m.told + 1 else m.told
        blind := if metadata then m.blind else m.blind + 1 }
      : StreamMessage β).Sound s unmarshal capped := by
  obtain ⟨hlt, hn⟩ := List.getElem?_eq_some_iff.mp hk
  have hperm : (n :: m.flights.eraseIdx k).Perm m.flights :=
    hn ▸ List.getElem_cons_eraseIdx_perm hlt
  have hlength := hperm.length_eq
  have hcount := hperm.countP_eq (· < s.limit)
  have hnumber := h.numbered n (hn ▸ List.getElem_mem hlt)
  have hspent := h.spent
  have hasked := h.asked
  have hrest := h.erase k
  rw [List.length_cons] at hlength
  rw [List.countP_cons] at hcount
  constructor
  · exact h.taken
  · exact hrest.numbered
  · cases metadata <;> simp only [if_true, Bool.false_eq_true, if_false] <;> omega
  · -- now another delivery is asked for
    have hdelivered : m.delivered ≤ m.told + m.blind + m.timeouts + 1 := by
      split_ifs at hasked <;> omega
    cases metadata <;> simp only [if_true, Bool.false_eq_true, if_false] <;> omega
  · intro hsmall
    have hold := h.early hsmall
    cases metadata with
    | false =>
      have hless := hrest.early hsmall
      exact hless
    | true =>
      have hbelow : n < s.limit := hearly rfl (hnumber.trans_lt hsmall)
      rw [if_pos (decide_eq_true hbelow)] at hcount
      simp only [if_true]
      omega
  · exact h.acked
  · exact h.termed
  · exact h.cap

/-- An answer that removes the message. -/
theorem Sound.settle (h : m.Sound s unmarshal capped) {fate : Fate}
    (hacked : fate = .acked → m.ingested ≠ [])
    (htermed : fate = .termed → unmarshal m.data = none ∨ s.limit ≤ m.delivered) :
    ({ m with fate := fate } : StreamMessage β).Sound s unmarshal capped :=
  { h with acked := hacked, termed := htermed }

/-- What the processing of a delivery does, up to its answer. -/
theorem process_cases {k : ℕ} {metadata succeeds arrives : Bool}
    (hm : m.process s unmarshal k metadata succeeds arrives = some m') :
    ∃ n, m.flights[k]? = some n ∧
      ((∃ b, unmarshal m.data = some b ∧ m' = call metadata succeeds arrives
          { m with flights := m.flights.eraseIdx k, ingested := m.ingested ++ [b] } .ack) ∨
        (unmarshal m.data = none ∨ s.limit ≤ n) ∧
          m' = call metadata succeeds arrives { m with flights := m.flights.eraseIdx k } .term ∨
        (metadata = true → n < 2 ^ 64 → n < s.limit) ∧
          ∃ delay, m' = call metadata succeeds arrives { m with flights := m.flights.eraseIdx k }
            (.nakWithDelay delay)) := by
  rw [process] at hm
  obtain ⟨n, hk, rfl⟩ := Option.map_eq_some_iff.mp hm
  refine ⟨n, hk, ?_⟩
  cases hb : unmarshal m.data with
  | none =>
    right; left
    rw [Subscriber.processMsg_of_malformed hb]
    exact ⟨Or.inl rfl, rfl⟩
  | some b =>
    cases hsucceeds : succeeds with
    | true =>
      left
      rw [Subscriber.processMsg_of_success hb _ rfl]
      exact ⟨b, rfl, rfl⟩
    | false =>
      rw [Subscriber.processMsg_of_failure hb _ rfl]
      by_cases hlast : (if metadata then some (UInt64.ofNat n) else none).isSome ∧
          s.cfg.maxDeliver.toUInt64 ≤ (if metadata then some (UInt64.ofNat n) else none).getD 0
      · -- the count is there, and is the limit or above it
        right; left
        rw [if_pos hlast]
        cases hmetadata : metadata with
        | false =>
          rw [hmetadata] at hlast
          exact absurd hlast.1 (by simp)
        | true =>
          rw [hmetadata] at hlast
          exact ⟨Or.inr (Subscriber.limit_le_of_le_ofNat hlast.2), rfl⟩
      · right; right
        rw [if_neg hlast]
        refine ⟨fun hmetadata hsmall => ?_,
          s.nakDelay ((if metadata then some (UInt64.ofNat n) else none).getD 0), rfl⟩
        rw [hmetadata] at hlast
        exact Subscriber.lt_limit_of_not_le_ofNat hsmall fun hle => hlast ⟨rfl, hle⟩

/-- Processing a delivery keeps a message sound. -/
theorem Sound.process (h : m.Sound s unmarshal capped) {k : ℕ} {metadata succeeds arrives : Bool}
    (hm : m.process s unmarshal k metadata succeeds arrives = some m') :
    m'.Sound s unmarshal capped := by
  obtain ⟨n, hk, ⟨b, hb, rfl⟩ | ⟨hlast, rfl⟩ | ⟨hearly, delay, rfl⟩⟩ := process_cases hm
  · have htake := h.take hk hb
    rw [call]
    split_ifs
    · exact htake.settle (fun _ => by simp) (by simp)
    · exact htake
  · have hnumber : n ≤ m.delivered := h.numbered n (List.mem_of_getElem? hk)
    rw [call]
    split_ifs
    · exact (h.erase k).settle (by simp) fun _ => hlast.imp_right fun hle => hle.trans hnumber
    · exact h.erase k
  · rw [call]
    by_cases hcounts : arrives ∧ m.fate = .stored
    · rw [if_pos hcounts]
      exact h.nak hk metadata hearly
    · rw [if_neg hcounts]
      exact h.erase k

/-- **A step of a message** keeps it sound. -/
theorem Sound.step (h : m.Sound s unmarshal capped) {e : MessageStep}
    (hm : m.step s unmarshal capped e = some m') : m'.Sound s unmarshal capped := by
  cases e with
  | deliver => exact h.deliver hm
  | process k metadata succeeds arrives => exact h.process hm
  | lose k =>
    obtain ⟨-, -, rfl⟩ := Option.map_eq_some_iff.mp hm
    exact h.erase k
  | discard =>
    rw [StreamMessage.step] at hm
    split_ifs at hm
    obtain rfl := Option.some.inj hm
    exact h.settle (by simp) (by simp)

end StreamMessage

namespace StreamMessage

variable {β : Type} {s : Subscriber} {unmarshal : List UInt8 → Option β} {capped : Bool}
  {m m' : StreamMessage β}

/-- Nothing rewrites a message. -/
theorem foldl_call_data (metadata succeeds arrives : Bool) (calls : List (MsgCall β))
    (m : StreamMessage β) : (calls.foldl (call metadata succeeds arrives) m).data = m.data := by
  induction calls generalizing m with
  | nil => rfl
  | cons c calls ih =>
    rw [List.foldl_cons, ih]
    cases c <;> rw [call] <;> split_ifs <;> rfl

theorem step_data {e : MessageStep} (hm : m.step s unmarshal capped e = some m') :
    m'.data = m.data := by
  cases e with
  | deliver =>
    obtain ⟨-, -, rfl⟩ := deliver_eq_some hm
    rfl
  | process k metadata succeeds arrives =>
    obtain ⟨n, -, rfl⟩ := Option.map_eq_some_iff.mp hm
    exact foldl_call_data ..
  | lose k =>
    obtain ⟨-, -, rfl⟩ := Option.map_eq_some_iff.mp hm
    rfl
  | discard =>
    rw [step] at hm
    split_ifs at hm
    rw [← Option.some.inj hm]

end StreamMessage

namespace FlowStream

variable {β : Type} {s : Subscriber} {marshal : β → Option (List UInt8)}
  {unmarshal : List UInt8 → Option β} {capped : Bool} {t t' : FlowStream β}

/-- What holds of every stream: its messages are sound and in the order of the
publications, of which those that were reported are all there. -/
structure Sound (s : Subscriber) (marshal : β → Option (List UInt8))
    (unmarshal : List UInt8 → Option β) (capped : Bool) (t : FlowStream β) : Prop where
  messages : ∀ m ∈ t.messages, m.Sound s unmarshal capped
  reported : (t.reported.map marshal).Sublist (t.messages.map fun m => some m.data)
  attempted : (t.messages.map fun m => some m.data).Sublist (t.attempted.map marshal)

theorem sound_empty : (empty : FlowStream β).Sound s marshal unmarshal capped where
  messages := nofun
  reported := List.Sublist.slnil
  attempted := List.Sublist.slnil

/-- A publication. -/
theorem Sound.publish (h : t.Sound s marshal unmarshal capped) (batch : β)
    (stored answered : Bool) :
    (t.publish marshal batch stored answered).Sound s marshal unmarshal capped := by
  rw [FlowStream.publish]
  cases hdata : marshal batch with
  | none =>
    refine ⟨h.messages, h.reported, ?_⟩
    rw [List.map_append]
    exact h.attempted.trans (List.sublist_append_left ..)
  | some data =>
    have hone : ([batch].map marshal).Sublist [some data] := by simp [hdata]
    cases stored with
    | false =>
      refine ⟨h.messages, h.reported, ?_⟩
      rw [List.map_append]
      exact h.attempted.trans (List.sublist_append_left ..)
    | true =>
      refine ⟨?_, ?_, ?_⟩
      · intro m hm
        rcases List.mem_append.mp hm with hold | hnew
        · exact h.messages m hold
        · exact (List.mem_singleton.mp hnew) ▸ StreamMessage.Sound.new data
      · simp only [if_true, List.map_append]
        cases answered with
        | false => exact h.reported.trans (List.sublist_append_left ..)
        | true =>
          simp only [Bool.and_self, if_true, List.map_append]
          exact h.reported.append hone
      · simp only [if_true, List.map_append]
        exact h.attempted.append (by simp [hdata, StreamMessage.new])

/-- **A step** keeps a stream sound. -/
theorem Sound.step (h : t.Sound s marshal unmarshal capped) {e : StreamStep β}
    (ht : t.step s marshal unmarshal capped e = some t') :
    t'.Sound s marshal unmarshal capped := by
  cases e with
  | publish batch stored answered =>
    obtain rfl := Option.some.inj ht
    exact h.publish batch stored answered
  | message i e =>
    obtain ⟨m', hm', rfl⟩ := Option.map_eq_some_iff.mp ht
    obtain ⟨m, hm, hstep⟩ := Option.bind_eq_some_iff.mp hm'
    obtain ⟨hi, hget⟩ := List.getElem?_eq_some_iff.mp hm
    -- the texts stay, so that what was published stays
    have htexts : ((t.messages.set i m').map fun m => some m.data)
        = t.messages.map fun m => some m.data := by
      rw [List.map_set, StreamMessage.step_data hstep, ← hget]
      have hlen : i < (t.messages.map fun m => some m.data).length := by rwa [List.length_map]
      have hself := List.set_getElem_self hlen
      rwa [List.getElem_map] at hself
    refine ⟨?_, htexts ▸ h.reported, htexts ▸ h.attempted⟩
    intro m'' hm''
    rcases List.mem_or_eq_of_mem_set hm'' with hold | rfl
    · exact h.messages m'' hold
    · exact (h.messages m (hget ▸ List.getElem_mem hi)).step hstep

/-- **A run** keeps a stream sound. -/
theorem Sound.run (h : t.Sound s marshal unmarshal capped) {steps : List (StreamStep β)}
    (ht : t.run s marshal unmarshal capped steps = some t') :
    t'.Sound s marshal unmarshal capped := by
  induction steps generalizing t with
  | nil =>
    obtain rfl := Option.some.inj ht
    exact h
  | cons e steps ih =>
    rw [FlowStream.run, List.foldlM_cons] at ht
    obtain ⟨t₁, hstep, hrest⟩ := Option.bind_eq_some_iff.mp ht
    exact ih (h.step hstep) hrest

/-- **Delivery**: in every run the messages are those of the publications in their order,
and a publication that returned no error is there.  A message is removed with an
acknowledgement only if it was ingested, and dropped by the subscriber only if it does not
decode or was delivered `MaxDeliver` times.  The handler takes a message, as it decodes,
at most once and once more for every delivery that was made because an answer was overdue.
The deliveries are at most `MaxDeliver` with the consumer's cap; without it, only those
that were overdue or sent back without their metadata come on top. -/
theorem delivered_soundly (s : Subscriber) (marshal : β → Option (List UInt8))
    (unmarshal : List UInt8 → Option β) (capped : Bool) (steps : List (StreamStep β))
    (t : FlowStream β) (ht : empty.run s marshal unmarshal capped steps = some t) :
    (t.reported.map marshal).Sublist (t.messages.map fun m => some m.data) ∧
      (t.messages.map fun m => some m.data).Sublist (t.attempted.map marshal) ∧
      ∀ m ∈ t.messages,
        (m.fate = .acked → m.ingested ≠ []) ∧
        (m.fate = .termed → unmarshal m.data = none ∨ s.limit ≤ m.delivered) ∧
        (∀ b ∈ m.ingested, unmarshal m.data = some b) ∧
        m.ingested.length ≤ m.timeouts + 1 ∧
        (capped → m.delivered ≤ s.limit) ∧
        (m.delivered < 2 ^ 64 → m.delivered ≤ s.limit + m.timeouts + m.blind) := by
  have h := sound_empty.run ht
  refine ⟨h.reported, h.attempted, fun m hm => ?_⟩
  have hm := h.messages m hm
  have hlimit := s.limit_pos
  have hspent := hm.spent
  have hasked := hm.asked
  have hdelivered : m.delivered ≤ m.told + m.blind + m.timeouts + 1 := by
    split_ifs at hasked <;> omega
  refine ⟨hm.acked, hm.termed, hm.taken, ?_, hm.cap, fun hsmall => ?_⟩
  · omega
  · have hearly := hm.early hsmall
    omega

/-- A batch whose first acknowledgement is lost is taken twice; one that was stored although
its publication failed; and one that the handler refuses up to the limit. -/
theorem delivered_soundly_twice :
    ∃ t : FlowStream ℕ, t.messages.map (fun m => (m.fate, m.ingested.length, m.timeouts))
        = [(.acked, 2, 1), (.stored, 0, 0), (.termed, 0, 0)] ∧ t.reported = [1, 3] ∧
      ∀ m ∈ t.messages, m.ingested.length ≤ m.timeouts + 1 := by
  have hrun : ∃ t : FlowStream ℕ, empty.run
      (NewSubscriber ⟨"", "", 2, 0, 0⟩ "") (fun b => some (List.replicate b 0x7b))
      (fun d => some d.length) false
      [.publish 1 true true, .publish 2 true false, .publish 3 true true,
        .message 0 .deliver, .message 0 (.process 0 true true false), .message 0 .deliver,
        .message 2 .deliver, .message 2 (.process 0 true false true),
        .message 0 (.process 0 true true true), .message 2 .deliver,
        .message 2 (.process 0 true false true)] = some t ∧
      t.messages.map (fun m => (m.fate, m.ingested.length, m.timeouts))
        = [(.acked, 2, 1), (.stored, 0, 0), (.termed, 0, 0)] ∧ t.reported = [1, 3] :=
    ⟨_, rfl, by decide, rfl⟩
  obtain ⟨t, ht, hfates, hreported⟩ := hrun
  obtain ⟨-, -, hall⟩ := delivered_soundly _ _ _ _ _ t ht
  exact ⟨t, hfates, hreported, fun m hm => (hall m hm).2.2.2.1⟩

end FlowStream
