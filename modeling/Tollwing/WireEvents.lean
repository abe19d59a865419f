/-
The events ring buffer, byte by byte (`pkg/ebpf/bpf/maps.h`, `pkg/ebpf/maps.go`,
`pkg/ebpf/loader.go`).

The hooks submit C structs, and `readEvents` casts the bytes it gets to Go structs.  A hook
does not write the padding, which holds whatever the ring held before.

* `connectFields`, `establishFields`, `closeFields` — the structs, with C's fields and Go's;
* `readRecord_eq_some_iff` — a record calls a handler with an event exactly if it is that
  event's struct, whatever its padding holds and whatever comes after it;
* `readEvents_eq` — the handlers are called with the events of the ring, in their order.
-/
import Tollwing.BpfMaps
import Tollwing.StructLayout

/-! ### Words of a host -/

namespace ByteOrder

/-- The bytes of a word in memory. -/
def bytes (host : ByteOrder) (n w : ℕ) : List UInt8 :=
  match host with
  | .little => bytesOf n w
  | .big => (bytesOf n w).reverse

/-- The word that some bytes are. -/
def word (host : ByteOrder) (bs : List UInt8) : ℕ :=
  match host with
  | .little => wordOf bs
  | .big => wordOf bs.reverse

variable (host : ByteOrder)

@[simp] theorem length_bytes (n w : ℕ) : (host.bytes n w).length = n := by
  cases host with
  | little => exact length_bytesOf n w
  | big => exact List.length_reverse.trans (length_bytesOf n w)

theorem word_bytes {n w : ℕ} (h : w < 256 ^ n) : host.word (host.bytes n w) = w := by
  cases host with
  | little => exact wordOf_bytesOf h
  | big =>
    rw [word, bytes, List.reverse_reverse]
    exact wordOf_bytesOf h

theorem bytes_word {n : ℕ} {bs : List UInt8} (h : bs.length = n) :
    host.bytes n (host.word bs) = bs := by
  subst h
  cases host with
  | little => exact bytesOf_wordOf bs
  | big =>
    have hreverse := bytesOf_wordOf bs.reverse
    rw [List.length_reverse] at hreverse
    rw [word, bytes, hreverse, List.reverse_reverse]

theorem word_lt {n : ℕ} {bs : List UInt8} (h : bs.length = n) : host.word bs < 256 ^ n := by
  subst h
  cases host with
  | little => exact wordOf_lt bs
  | big =>
    have hlt := wordOf_lt bs.reverse
    rwa [List.length_reverse] at hlt

/-! The fields of the structs are words of one, two, four and eight bytes. -/

@[simp] theorem u8_bytes (v : UInt8) : UInt8.ofNat (host.word (host.bytes 1 v.toNat)) = v := by
  rw [word_bytes host v.toNat_lt, UInt8.ofNat_toNat]

@[simp] theorem u16_bytes (v : UInt16) : UInt16.ofNat (host.word (host.bytes 2 v.toNat)) = v := by
  rw [word_bytes host v.toNat_lt, UInt16.ofNat_toNat]

@[simp] theorem u32_bytes (v : UInt32) : UInt32.ofNat (host.word (host.bytes 4 v.toNat)) = v := by
  rw [word_bytes host v.toNat_lt, UInt32.ofNat_toNat]

@[simp] theorem u64_bytes (v : UInt64) : UInt64.ofNat (host.word (host.bytes 8 v.toNat)) = v := by
  rw [word_bytes host v.toNat_lt, UInt64.ofNat_toNat]

theorem bytes_u8 {bs : List UInt8} (h : bs.length = 1) :
    host.bytes 1 (UInt8.ofNat (host.word bs)).toNat = bs := by
  rw [UInt8.toNat_ofNat_of_lt' (host.word_lt h), bytes_word host h]

theorem bytes_u16 {bs : List UInt8} (h : bs.length = 2) :
    host.bytes 2 (UInt16.ofNat (host.word bs)).toNat = bs := by
  rw [UInt16.toNat_ofNat_of_lt' (host.word_lt h), bytes_word host h]

theorem bytes_u32 {bs : List UInt8} (h : bs.length = 4) :
    host.bytes 4 (UInt32.ofNat (host.word bs)).toNat = bs := by
  rw [UInt32.toNat_ofNat_of_lt' (host.word_lt h), bytes_word host h]

theorem bytes_u64 {bs : List UInt8} (h : bs.length = 8) :
    host.bytes 8 (UInt64.ofNat (host.word bs)).toNat = bs := by
  rw [UInt64.toNat_ofNat_of_lt' (host.word_lt h), bytes_word host h]

end ByteOrder

/-! ### The structs -/

/-- `enum event_type`. -/
def eventConnect : UInt8 := 1
def eventEstablish : UInt8 := 2
def eventClose : UInt8 := 3

/-- `nullStr`: the bytes before the first zero. -/
def nullStr (bs : List UInt8) : List UInt8 := bs.takeWhile fun b => b != 0

section
open MemField

/-- `struct connect_event`. -/
def connectFields : List MemField :=
  [word 1, word 1, filler 2, word 4, word 8, word 8, word 4, word 2, filler 2, word 8, bytes 16]

/-- `struct establish_event`. -/
def establishFields : List MemField :=
  [word 1, word 1, word 1, filler 1, word 4, word 8, word 8, word 4, word 4, word 2, word 2,
    word 4, word 2, filler 2, word 8, bytes 16]

/-- `struct close_event`. -/
def closeFields : List MemField :=
  [word 1, word 1, word 1, filler 1, word 4, word 8, word 4, word 4, word 2, word 2, word 4,
    word 2, filler 2, word 8, word 8, word 8, word 4, filler 4, word 8, word 8]

end

example : [connectFields, establishFields, closeFields].map MemField.structSize = [56, 72, 88] := by
  decide

/-- How the bytes of a process name are shown as text. -/
abbrev Text := List UInt8 → String

section
variable (host : ByteOrder) (text : Text)

/-- The values of the fields behind the type, with the bytes of the process name. -/
def ConnectEvent.values (evt : ConnectEvent) (comm : List UInt8) : List (List UInt8) :=
  [host.bytes 1 evt.protocol.toNat, host.bytes 4 evt.pid.toNat, host.bytes 8 evt.cookie.toNat,
    host.bytes 8 evt.cgroupid.toNat, host.bytes 4 evt.originalDstIP.toNat,
    host.bytes 2 evt.originalDstPort.toNat, host.bytes 8 evt.timestampNs.toNat, comm]

def EstablishEvent.values (evt : EstablishEvent) (comm : List UInt8) : List (List UInt8) :=
  [host.bytes 1 evt.direction.toNat, host.bytes 1 evt.protocol.toNat, host.bytes 4 evt.pid.toNat,
    host.bytes 8 evt.cookie.toNat, host.bytes 8 evt.cgroupid.toNat, host.bytes 4 evt.srcIP.toNat,
    host.bytes 4 evt.dstIP.toNat, host.bytes 2 evt.srcPort.toNat, host.bytes 2 evt.dstPort.toNat,
    host.bytes 4 evt.originalDstIP.toNat, host.bytes 2 evt.originalDstPort.toNat,
    host.bytes 8 evt.timestampNs.toNat, comm]

def CloseEvent.values (evt : CloseEvent) : List (List UInt8) :=
  [host.bytes 1 evt.direction.toNat, host.bytes 1 evt.protocol.toNat, host.bytes 4 evt.pid.toNat,
    host.bytes 8 evt.cookie.toNat, host.bytes 4 evt.srcIP.toNat, host.bytes 4 evt.dstIP.toNat,
    host.bytes 2 evt.srcPort.toNat, host.bytes 2 evt.dstPort.toNat,
    host.bytes 4 evt.originalDstIP.toNat, host.bytes 2 evt.originalDstPort.toNat,
    host.bytes 8 evt.txBytes.toNat, host.bytes 8 evt.rxBytes.toNat,
    host.bytes 8 evt.retransmitBytes.toNat, host.bytes 4 evt.retransmitCount.toNat,
    host.bytes 8 evt.durationNs.toNat, host.bytes 8 evt.timestampNs.toNat]

/-- The cast to `ConnectEvent`, field by field; `ProcessName` reads the last one. -/
def connectEventOf : List (List UInt8) → Option ConnectEvent
  | [_, protocol, pid, cookie, cgroupid, originalDstIP, originalDstPort, timestampNs, comm] =>
    some
      { protocol := .ofNat (host.word protocol)
        pid := .ofNat (host.word pid)
        cookie := .ofNat (host.word cookie)
        cgroupid := .ofNat (host.word cgroupid)
        originalDstIP := .ofNat (host.word originalDstIP)
        originalDstPort := .ofNat (host.word originalDstPort)
        timestampNs := .ofNat (host.word timestampNs)
        comm := text (nullStr comm) }
  | _ => none

/-- The cast to `EstablishEvent`. -/
def establishEventOf : List (List UInt8) → Option EstablishEvent
  | [_, direction, protocol, pid, cookie, cgroupid, srcIP, dstIP, srcPort, dstPort, originalDstIP,
      originalDstPort, timestampNs, comm] =>
    some
      { direction := .ofNat (host.word direction)
        protocol := .ofNat (host.word protocol)
        pid := .ofNat (host.word pid)
        cookie := .ofNat (host.word cookie)
        cgroupid := .ofNat (host.word cgroupid)
        srcIP := .ofNat (host.word srcIP)
        dstIP := .ofNat (host.word dstIP)
        srcPort := .ofNat (host.word srcPort)
        dstPort := .ofNat (host.word dstPort)
        originalDstIP := .ofNat (host.word originalDstIP)
        originalDstPort := .ofNat (host.word originalDstPort)
        timestampNs := .ofNat (host.word timestampNs)
        comm := text (nullStr comm) }
  | _ => none

/-- The cast to `CloseEvent`. -/
def closeEventOf : List (List UInt8) → Option CloseEvent
  | [_, direction, protocol, pid, cookie, srcIP, dstIP, srcPort, dstPort, originalDstIP,
      originalDstPort, txBytes, rxBytes, retransmitBytes, retransmitCount, durationNs,
      timestampNs] =>
    some
      { direction := .ofNat (host.word direction)
        protocol := .ofNat (host.word protocol)
        pid := .ofNat (host.word pid)
        cookie := .ofNat (host.word cookie)
        srcIP := .ofNat (host.word srcIP)
        dstIP := .ofNat (host.word dstIP)
        srcPort := .ofNat (host.word srcPort)
        dstPort := .ofNat (host.word dstPort)
        originalDstIP := .ofNat (host.word originalDstIP)
        originalDstPort := .ofNat (host.word originalDstPort)
        txBytes := .ofNat (host.word txBytes)
        rxBytes := .ofNat (host.word rxBytes)
        retransmitBytes := .ofNat (host.word retransmitBytes)
        retransmitCount := .ofNat (host.word retransmitCount)
        durationNs := .ofNat (host.word durationNs)
        timestampNs := .ofNat (host.word timestampNs) }
  | _ => none

/-! ### The reader -/

/-- One record of `readEvents`: the call it makes, if it makes one. -/
def readRecord (raw : List UInt8) : Option Event :=
  match raw with
  | [] => none
  | evtType :: _ =>
    if evtType = eventConnect then
      if raw.length < MemField.structSize connectFields then none
      else (connectEventOf host text (MemField.load raw 0 connectFields)).map .connect
    else if evtType = eventEstablish then
      if raw.length < MemField.structSize establishFields then none
      else (establishEventOf host text (MemField.load raw 0 establishFields)).map .establish
    else if evtType = eventClose then
      if raw.length < MemField.structSize closeFields then none
      else (closeEventOf host (MemField.load raw 0 closeFields)).map .close
    else none

/-- The calls for the records of the ring. -/
def readEvents (raws : List (List UInt8)) : List Event := raws.filterMap (readRecord host text)

/-- The type of an event, its fields, and what their values can be: the process name is in
the first bytes of its array. -/
def Event.type : Event → UInt8
  | .connect _ => eventConnect
  | .establish _ => eventEstablish
  | .close _ => eventClose

def Event.fields : Event → List MemField
  | .connect _ => connectFields
  | .establish _ => establishFields
  | .close _ => closeFields

def Event.HasValues : Event → List (List UInt8) → Prop
  | .connect evt, vs => ∃ comm : List UInt8, comm.length = 16 ∧ evt.comm = text (nullStr comm) ∧
      vs = evt.values host comm
  | .establish evt, vs => ∃ comm : List UInt8, comm.length = 16 ∧
      evt.comm = text (nullStr comm) ∧ vs = evt.values host comm
  | .close evt, vs => vs = evt.values host

/-- A record that holds an event's struct. -/
def Event.StoredIn (evt : Event) (raw : List UInt8) : Prop :=
  ∃ vs pad tail, evt.HasValues host text vs ∧
    raw = MemField.storeStruct pad evt.fields ([evt.type] :: vs) ++ tail

/-! ### Values and events -/

section
open MemField

theorem aligned_fields (evt : Event) : Aligned evt.fields := by
  cases evt with
  | connect evt => exact (by decide : Aligned connectFields)
  | establish evt => exact (by decide : Aligned establishFields)
  | close evt => exact (by decide : Aligned closeFields)

variable {host text}

/-- The values of an event fill its fields. -/
theorem Event.HasValues.fits {evt : Event} {vs : List (List UInt8)}
    (h : evt.HasValues host text vs) : Fits evt.fields ([evt.type] :: vs) := by
  cases evt with
  | connect evt =>
    obtain ⟨comm, hcomm, -, rfl⟩ := h
    simp [Fits, Event.fields, connectFields, word, filler, bytes, ConnectEvent.values, hcomm]
  | establish evt =>
    obtain ⟨comm, hcomm, -, rfl⟩ := h
    simp [Fits, Event.fields, establishFields, word, filler, bytes, EstablishEvent.values, hcomm]
  | close evt =>
    subst h
    simp [Fits, Event.fields, closeFields, word, filler, CloseEvent.values]

/-- An event is read off its values. -/
theorem connectEventOf_values {evt : ConnectEvent} {vs : List (List UInt8)} (t : List UInt8)
    (h : (Event.connect evt).HasValues host text vs) :
    connectEventOf host text (t :: vs) = some evt := by
  obtain ⟨comm, -, hcomm, rfl⟩ := h
  simp only [ConnectEvent.values, connectEventOf, ByteOrder.u8_bytes, ByteOrder.u16_bytes,
    ByteOrder.u32_bytes, ByteOrder.u64_bytes, ← hcomm]

theorem establishEventOf_values {evt : EstablishEvent} {vs : List (List UInt8)} (t : List UInt8)
    (h : (Event.establish evt).HasValues host text vs) :
    establishEventOf host text (t :: vs) = some evt := by
  obtain ⟨comm, -, hcomm, rfl⟩ := h
  simp only [EstablishEvent.values, establishEventOf, ByteOrder.u8_bytes, ByteOrder.u16_bytes,
    ByteOrder.u32_bytes, ByteOrder.u64_bytes, ← hcomm]

theorem closeEventOf_values {evt : CloseEvent} {vs : List (List UInt8)} (t : List UInt8)
    (h : (Event.close evt).HasValues host text vs) : closeEventOf host (t :: vs) = some evt := by
  obtain rfl := h
  simp only [CloseEvent.values, closeEventOf, ByteOrder.u8_bytes, ByteOrder.u16_bytes,
    ByteOrder.u32_bytes, ByteOrder.u64_bytes]

/-- Values that fill the fields are those of an event. -/
theorem exists_connectEventOf {vs : List (List UInt8)} (h : Fits connectFields vs) :
    ∃ t vs' evt, vs = t :: vs' ∧ connectEventOf host text vs = some evt ∧
      (Event.connect evt).HasValues host text vs' := by
  obtain ⟨t, vs₁, rfl, -, protocol, vs₂, rfl, hprotocol, pid, vs₃, rfl, hpid, cookie, vs₄, rfl,
    hcookie, cgroupid, vs₅, rfl, hcgroupid, ip, vs₆, rfl, hip, port, vs₇, rfl, hport, ts, vs₈, rfl,
    hts, comm, vs₉, rfl, hcomm, rfl⟩ := h
  refine ⟨t, _, _, rfl, rfl, comm, hcomm, rfl, ?_⟩
  simp only [ConnectEvent.values, host.bytes_u8 hprotocol, host.bytes_u32 hpid,
    host.bytes_u64 hcookie, host.bytes_u64 hcgroupid, host.bytes_u32 hip, host.bytes_u16 hport,
    host.bytes_u64 hts]

theorem exists_establishEventOf {vs : List (List UInt8)} (h : Fits establishFields vs) :
    ∃ t vs' evt, vs = t :: vs' ∧ establishEventOf host text vs = some evt ∧
      (Event.establish evt).HasValues host text vs' := by
  obtain ⟨t, vs₁, rfl, -, direction, vs₂, rfl, hdirection, protocol, vs₃, rfl, hprotocol, pid, vs₄,
    rfl, hpid, cookie, vs₅, rfl, hcookie, cgroupid, vs₆, rfl, hcgroupid, srcIP, vs₇, rfl, hsrcIP,
    dstIP, vs₈, rfl, hdstIP, srcPort, vs₉, rfl, hsrcPort, dstPort, vs₁₀, rfl, hdstPort, ip, vs₁₁,
    rfl, hip, port, vs₁₂, rfl, hport, ts, vs₁₃, rfl, hts, comm, vs₁₄, rfl, hcomm, rfl⟩ := h
  refine ⟨t, _, _, rfl, rfl, comm, hcomm, rfl, ?_⟩
  simp only [EstablishEvent.values, host.bytes_u8 hdirection, host.bytes_u8 hprotocol,
    host.bytes_u32 hpid, host.bytes_u64 hcookie, host.bytes_u64 hcgroupid, host.bytes_u32 hsrcIP,
    host.bytes_u32 hdstIP, host.bytes_u16 hsrcPort, host.bytes_u16 hdstPort, host.bytes_u32 hip,
    host.bytes_u16 hport, host.bytes_u64 hts]

theorem exists_closeEventOf {vs : List (List UInt8)} (h : Fits closeFields vs) :
    ∃ t vs' evt, vs = t :: vs' ∧ closeEventOf host vs = some evt ∧
      (Event.close evt).HasValues host text vs' := by
  obtain ⟨t, vs₁, rfl, -, direction, vs₂, rfl, hdirection, protocol, vs₃, rfl, hprotocol, pid, vs₄,
    rfl, hpid, cookie, vs₅, rfl, hcookie, srcIP, vs₆, rfl, hsrcIP, dstIP, vs₇, rfl, hdstIP,
    srcPort, vs₈, rfl, hsrcPort, dstPort, vs₉, rfl, hdstPort, ip, vs₁₀, rfl, hip, port, vs₁₁, rfl,
    hport, tx, vs₁₂, rfl, htx, rx, vs₁₃, rfl, hrx, bytes, vs₁₄, rfl, hbytes, count, vs₁₅, rfl,
    hcount, duration, vs₁₆, rfl, hduration, ts, vs₁₇, rfl, hts, rfl⟩ := h
  refine ⟨t, _, _, rfl, rfl, ?_⟩
  simp only [Event.HasValues, CloseEvent.values, host.bytes_u8 hdirection,
    host.bytes_u8 hprotocol, host.bytes_u32 hpid, host.bytes_u64 hcookie, host.bytes_u32 hsrcIP,
    host.bytes_u32 hdstIP, host.bytes_u16 hsrcPort, host.bytes_u16 hdstPort, host.bytes_u32 hip,
    host.bytes_u16 hport, host.bytes_u64 htx, host.bytes_u64 hrx, host.bytes_u64 hbytes,
    host.bytes_u32 hcount, host.bytes_u64 hduration, host.bytes_u64 hts]

/-! ### Records -/

theorem readRecord_connect (rest : List UInt8) :
    readRecord host text (eventConnect :: rest)
      = if (eventConnect :: rest).length < structSize connectFields then none
        else (connectEventOf host text (load (eventConnect :: rest) 0 connectFields)).map
          .connect := by
  rw [readRecord, if_pos rfl]

theorem readRecord_establish (rest : List UInt8) :
    readRecord host text (eventEstablish :: rest)
      = if (eventEstablish :: rest).length < structSize establishFields then none
        else (establishEventOf host text (load (eventEstablish :: rest) 0 establishFields)).map
          .establish := by
  have hconnect : eventEstablish ≠ eventConnect := by decide
  rw [readRecord, if_neg hconnect, if_pos rfl]

theorem readRecord_close (rest : List UInt8) :
    readRecord host text (eventClose :: rest)
      = if (eventClose :: rest).length < structSize closeFields then none
        else (closeEventOf host (load (eventClose :: rest) 0 closeFields)).map .close := by
  have hconnect : eventClose ≠ eventConnect := by decide
  have hestablish : eventClose ≠ eventEstablish := by decide
  rw [readRecord, if_neg hconnect, if_neg hestablish, if_pos rfl]

/-- The first byte of an event's struct is its type. -/
theorem exists_storeStruct_cons (pad : ℕ → UInt8) (evt : Event) (vs : List (List UInt8)) :
    ∃ rest, storeStruct pad evt.fields ([evt.type] :: vs) = evt.type :: rest := by
  cases evt <;> exact ⟨_, rfl⟩

/-- What is read of a record that holds an event. -/
theorem readRecord_of_storedIn {evt : Event} {raw : List UInt8} (h : evt.StoredIn host text raw) :
    readRecord host text raw = some evt := by
  obtain ⟨vs, pad, tail, hvs, rfl⟩ := h
  have hload : load (storeStruct pad evt.fields ([evt.type] :: vs) ++ tail) 0 evt.fields
      = [evt.type] :: vs := load_storeStruct (aligned_fields evt) hvs.fits tail
  have hlength : structSize evt.fields
      ≤ (storeStruct pad evt.fields ([evt.type] :: vs) ++ tail).length := by
    rw [List.length_append, length_storeStruct (aligned_fields evt) hvs.fits]
    exact Nat.le_add_right _ _
  obtain ⟨rest, hraw⟩ := exists_storeStruct_cons pad evt vs
  rw [hraw, List.cons_append] at hload hlength ⊢
  cases evt with
  | connect evt =>
    refine (readRecord_connect _).trans ((if_neg (Nat.not_lt.mpr hlength)).trans ?_)
    exact congrArg (Option.map Event.connect)
      ((congrArg _ hload).trans (connectEventOf_values _ hvs))
  | establish evt =>
    refine (readRecord_establish _).trans ((if_neg (Nat.not_lt.mpr hlength)).trans ?_)
    exact congrArg (Option.map Event.establish)
      ((congrArg _ hload).trans (establishEventOf_values _ hvs))
  | close evt =>
    refine (readRecord_close _).trans ((if_neg (Nat.not_lt.mpr hlength)).trans ?_)
    exact congrArg (Option.map Event.close) ((congrArg _ hload).trans (closeEventOf_values _ hvs))

/-- A record of an event's type that is long enough is its struct. -/
theorem storedIn_of_load {evt : Event} {rest : List UInt8} {t : List UInt8}
    {vs : List (List UInt8)} (hlength : structSize evt.fields ≤ (evt.type :: rest).length)
    (hload : load (evt.type :: rest) 0 evt.fields = t :: vs) (hvs : evt.HasValues host text vs) :
    evt.StoredIn host text (evt.type :: rest) := by
  have ht : t = [evt.type] := by
    have hfirst : (load (evt.type :: rest) 0 evt.fields).head? = some [evt.type] := by
      cases evt <;> rfl
    rw [hload] at hfirst
    exact Option.some.inj hfirst
  have heq := eq_storeStruct (aligned_fields evt) hlength
  rw [hload, ht] at heq
  exact ⟨vs, _, _, hvs, heq⟩

/-- What the reader accepts is the struct of the event it hands on. -/
theorem storedIn_of_readRecord {raw : List UInt8} {evt : Event}
    (h : readRecord host text raw = some evt) : evt.StoredIn host text raw := by
  cases raw with
  | nil => cases h
  | cons evtType rest =>
    by_cases hconnect : evtType = eventConnect
    · subst hconnect
      rw [readRecord_connect] at h
      split_ifs at h with hshort
      have hlength := Nat.not_lt.mp hshort
      obtain ⟨t, vs, evt, hload, hevt, hvs⟩ := exists_connectEventOf
        (fits_load (by decide) ((le_structSize connectFields).trans hlength))
      rw [hevt, Option.map_some, Option.some_inj] at h
      subst h
      exact storedIn_of_load hlength hload hvs
    by_cases hestablish : evtType = eventEstablish
    · subst hestablish
      rw [readRecord_establish] at h
      split_ifs at h with hshort
      have hlength := Nat.not_lt.mp hshort
      obtain ⟨t, vs, evt, hload, hevt, hvs⟩ := exists_establishEventOf
        (fits_load (by decide) ((le_structSize establishFields).trans hlength))
      rw [hevt, Option.map_some, Option.some_inj] at h
      subst h
      exact storedIn_of_load hlength hload hvs
    by_cases hclose : evtType = eventClose
    · subst hclose
      rw [readRecord_close] at h
      split_ifs at h with hshort
      have hlength := Nat.not_lt.mp hshort
      obtain ⟨t, vs, evt, hload, hevt, hvs⟩ := exists_closeEventOf
        (fits_load (by decide) ((le_structSize closeFields).trans hlength))
      rw [hevt, Option.map_some, Option.some_inj] at h
      subst h
      exact storedIn_of_load hlength hload hvs
    · rw [readRecord, if_neg hconnect, if_neg hestablish, if_neg hclose] at h
      cases h

end

/-- The handlers are called with the events of the ring, in their order. -/
theorem readEvents_eq {host : ByteOrder} {text : Text} {evts : List Event}
    {raws : List (List UInt8)} (h : List.Forall₂ (Event.StoredIn host text) evts raws) :
    readEvents host text raws = evts := by
  induction h with
  | nil => rfl
  | cons hevt _ ih =>
    rw [readEvents, List.filterMap_cons_some (readRecord_of_storedIn hevt)]
    exact congrArg _ ih

/-- **The reader is exact.**  On a host of either byte order, a record calls a handler with
an event if and only if it is the event's struct: any padding, any leftover bytes of the
process name and anything behind the struct are accepted, and nothing else is. -/
theorem readRecord_eq_some_iff (raw : List UInt8) (evt : Event) :
    readRecord host text raw = some evt ↔ evt.StoredIn host text raw :=
  ⟨storedIn_of_readRecord, readRecord_of_storedIn⟩

end
