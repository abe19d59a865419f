/-
The capture of DNS responses (`pkg/ebpf/bpf/dns.bpf.c`, `pkg/dns/tracker.go`).

When a process receives on a socket whose peer is port 53, the hook copies the first
datagram of the socket's queue into a record of fixed size.  The tracker's loop reads the
records and hands the packets on.

* `packetOf_rawEvent` — the loop gets back the datagram, byte by byte;
* `DNSCapture.run_exact` — over any run, every datagram in the range of sizes is handed on,
  was counted as lost, or could not be read by the kernel.
-/
import Tollwing.DNSResponses
import Tollwing.Poller
import Tollwing.QuicEgress
import Tollwing.WireEvents

def dnsPort : UInt16 := 53

/-- `DNS_RAW_MAX`. -/
def dnsRawMax : ℕ := 512

/-- `struct dns_raw_event`. -/
def dnsRawEventFields : List MemField := [.word 2, .filler 2, .bytes dnsRawMax]

/-- `dnsRawEventHeaderSize`. -/
def dnsRawEventHeaderSize : ℕ := 4

/-- What the hook finds of a socket: the port of its peer and the address family as the
socket has them, and its receive queue's first buffer, which may have no data. -/
structure DNSSocket where
  dport : UInt16
  family : UInt16
  queued : Option (Option (List UInt8))

/-- One call of the hook: `readOk` tells whether the kernel can read the datagram. -/
structure DNSCall (n : ℕ) where
  env : HookEnv n
  sk : DNSSocket
  readOk : Bool

/-- The records of `dns_events` and its drop counter. -/
structure DNSCapture (n : ℕ) where
  records : List (List UInt8)
  drops : Fin n → UInt64

section
variable (host : ByteOrder)

/-- The datagram to be captured. -/
def DNSSocket.datagram (sk : DNSSocket) : Option (List UInt8) :=
  if host.htons sk.dport ≠ dnsPort then none
  else if sk.family ≠ 2 ∧ sk.family ≠ 10 then none
  else
    match sk.queued with
    | none => none
    | some none => none
    | some (some data) => if data.length < 12 ∨ dnsRawMax < data.length then none else some data

/-- The record of a datagram: it is cleared first. -/
def rawEvent (data : List UInt8) : List UInt8 :=
  MemField.storeStruct (fun _ => 0) dnsRawEventFields
    [host.bytes 2 data.length, data ++ List.replicate (dnsRawMax - data.length) 0]

namespace DNSCapture

variable {n : ℕ}

def new : DNSCapture n := ⟨[], fun _ => 0⟩

/-- `tollwing_dns_recvmsg`. -/
def dnsRecvmsg (s : DNSCapture n) (c : DNSCall n) : DNSCapture n :=
  match c.sk.datagram host with
  | none => s
  | some data =>
    if c.env.reserveOk = false then
      { s with drops := Function.update s.drops c.env.cpu (s.drops c.env.cpu + 1) }
    else if c.readOk = false then s
    else { s with records := s.records ++ [rawEvent host data] }

end DNSCapture

/-- One round of `readLoop`: the packet it hands on. -/
def packetOf (raw : List UInt8) : Option (List UInt8) :=
  if raw.length < dnsRawEventHeaderSize + 12 then none
  else
    let pktLen := host.word (raw.take 2)
    let pktData := raw.drop dnsRawEventHeaderSize
    some (pktData.take (if pktData.length < pktLen then pktData.length else pktLen))

/-- `readLoop` over some records; what the DNS library makes of a packet is an argument. -/
def readLoop (parse : List UInt8 → Option DNSMessage) (t : DNSTracker)
    (records : List (List UInt8)) : DNSTracker :=
  (records.filterMap (packetOf host)).foldl
    (fun t pkt =>
      match parse pkt with
      | none => t
      | some m => t.parseDNSResponse m) t

end

/-! ### One record -/

section
variable {host : ByteOrder} {data : List UInt8}

theorem DNSSocket.length_datagram {sk : DNSSocket} (h : sk.datagram host = some data) :
    12 ≤ data.length ∧ data.length ≤ dnsRawMax := by
  rw [datagram] at h
  split_ifs at h
  split at h
  · cases h
  · cases h
  · split_ifs at h with hsize
    cases h
    omega

/-- **The packet is the datagram.** -/
theorem packetOf_rawEvent (hmax : data.length ≤ dnsRawMax) :
    packetOf host (rawEvent host data) = some data := by
  have hsize : (host.bytes 2 data.length).length = 2 := host.length_bytes 2 _
  -- the bytes of the record, with the padding written out
  have hraw : rawEvent host data = host.bytes 2 data.length ++ ([0, 0]
      ++ (data ++ List.replicate (dnsRawMax - data.length) 0)) := by
    show [] ++ (host.bytes 2 data.length ++ ([] ++ ([0, 0] ++ ([] ++
      ((data ++ List.replicate (dnsRawMax - data.length) 0) ++ []))))) ++ [] = _
    simp only [List.nil_append, List.append_nil]
  have htake : (rawEvent host data).take 2 = host.bytes 2 data.length := by
    rw [hraw, List.take_left' hsize]
  have hdrop : (rawEvent host data).drop dnsRawEventHeaderSize
      = data ++ List.replicate (dnsRawMax - data.length) 0 := by
    rw [hraw, ← List.append_assoc]
    exact List.drop_left' (by rw [List.length_append, hsize]; rfl)
  have hlength : (data ++ List.replicate (dnsRawMax - data.length) (0 : UInt8)).length
      = dnsRawMax := by
    rw [List.length_append, List.length_replicate]
    omega
  have hraw_length : (rawEvent host data).length = dnsRawEventHeaderSize + dnsRawMax := by
    rw [hraw, List.length_append, hsize, List.length_append, hlength]
    rfl
  have hword : host.word (host.bytes 2 data.length) = data.length :=
    host.word_bytes (hmax.trans_lt (by decide))
  have hlong : ¬(rawEvent host data).length < dnsRawEventHeaderSize + 12 := by
    rw [hraw_length]
    simp [dnsRawMax, dnsRawEventHeaderSize]
  rw [packetOf, if_neg hlong]
  dsimp only
  rw [htake, hdrop, hword, hlength, if_neg (Nat.not_lt.mpr hmax), List.take_left]

end

/-! ### Runs -/

namespace DNSCapture

variable (host : ByteOrder) {n : ℕ}

/-- The datagrams that reach the ring. -/
def captured (run : List (DNSCall n)) : List (List UInt8) :=
  run.filterMap fun c => if c.env.reserveOk && c.readOk then c.sk.datagram host else none

/-- The datagrams for which there was no room. -/
def lost (run : List (DNSCall n)) : List (List UInt8) :=
  run.filterMap fun c => if c.env.reserveOk then none else c.sk.datagram host

/-- The datagrams that the kernel could not read. -/
def unread (run : List (DNSCall n)) : List (List UInt8) :=
  run.filterMap fun c => if c.env.reserveOk && !c.readOk then c.sk.datagram host else none

/-- All datagrams in the range of sizes that the hook came upon. -/
def arrived (run : List (DNSCall n)) : List (List UInt8) :=
  run.filterMap fun c => c.sk.datagram host

/-- The parts of the runs so far and of a call make up the parts of the longer run. -/
theorem captured_cons (c : DNSCall n) (run : List (DNSCall n)) :
    captured host (c :: run) = captured host [c] ++ captured host run :=
  List.filterMap_append (l := [c])

theorem lost_cons (c : DNSCall n) (run : List (DNSCall n)) :
    lost host (c :: run) = lost host [c] ++ lost host run :=
  List.filterMap_append (l := [c])

/-- What one call adds. -/
theorem dnsRecvmsg_eq (s : DNSCapture n) (c : DNSCall n) :
    (s.dnsRecvmsg host c).records = s.records ++ (captured host [c]).map (rawEvent host) ∧
      ∑ i, (s.dnsRecvmsg host c).drops i = ∑ i, s.drops i + .ofNat (lost host [c]).length := by
  simp only [captured, lost, List.filterMap_cons, List.filterMap_nil, dnsRecvmsg]
  cases hdatagram : c.sk.datagram host with
  | none => simp
  | some data =>
    cases hroom : c.env.reserveOk with
    | false =>
      have hdrops := sum_update_cpu id s.drops c.env.cpu (add_comm _ (1 : UInt64))
      simpa [add_comm] using hdrops
    | true => cases hread : c.readOk <;> simp

/-- A run appends the captured datagrams' records and counts the lost datagrams. -/
theorem foldl_dnsRecvmsg (run : List (DNSCall n)) (s : DNSCapture n) :
    (run.foldl (dnsRecvmsg host) s).records = s.records ++ (captured host run).map (rawEvent host) ∧
      ∑ i, (run.foldl (dnsRecvmsg host) s).drops i
        = ∑ i, s.drops i + .ofNat (lost host run).length := by
  induction run generalizing s with
  | nil => simp [captured, lost]
  | cons c run ih =>
    obtain ⟨hrecords, hdrops⟩ := dnsRecvmsg_eq host s c
    obtain ⟨ih_records, ih_drops⟩ := ih (s.dnsRecvmsg host c)
    rw [List.foldl_cons, ih_records, ih_drops, hrecords, hdrops, captured_cons host c run,
      lost_cons host c run, List.map_append, List.append_assoc, List.length_append,
      UInt64.ofNat_add, add_assoc]
    exact ⟨rfl, rfl⟩

/-- Only datagrams that fit a record are captured. -/
theorem length_of_mem_captured {run : List (DNSCall n)} {data : List UInt8}
    (h : data ∈ captured host run) : data.length ≤ dnsRawMax := by
  obtain ⟨c, -, hc⟩ := List.mem_filterMap.mp h
  split_ifs at hc
  exact (DNSSocket.length_datagram hc).2

theorem filterMap_packetOf {datagrams : List (List UInt8)}
    (h : ∀ data ∈ datagrams, data.length ≤ dnsRawMax) :
    (datagrams.map (rawEvent host)).filterMap (packetOf host) = datagrams := by
  rw [List.filterMap_map]
  calc datagrams.filterMap (packetOf host ∘ rawEvent host)
      = datagrams.filterMap some :=
        List.filterMap_congr fun data hdata => packetOf_rawEvent (h data hdata)
    _ = datagrams := List.filterMap_some

/-- Every datagram has one of three fates. -/
theorem arrived_eq (run : List (DNSCall n)) :
    (arrived host run : Multiset (List UInt8))
      = captured host run + lost host run + unread host run := by
  induction run with
  | nil => rfl
  | cons c run ih =>
    simp only [arrived, captured, lost, unread, List.filterMap_cons] at ih ⊢
    cases c.sk.datagram host with
    | none => simpa using ih
    | some data =>
      cases c.env.reserveOk with
      | false =>
        simp only [Bool.false_and, Bool.false_eq_true, if_false, ← Multiset.cons_coe, ih]
        rw [Multiset.add_cons, Multiset.cons_add]
      | true =>
        cases c.readOk with
        | false => simp [← Multiset.cons_coe, ih]
        | true => simp [← Multiset.cons_coe, ih]

/-- **No datagram is cut, forged or lost without a count.**  Over any run of the hook, the
tracker ends as if it had been given the captured datagrams themselves, and the counter has
exactly the datagrams for which there was no room. -/
theorem run_exact (run : List (DNSCall n)) :
    let s := run.foldl (dnsRecvmsg host) new
    (∀ parse t, readLoop host parse t s.records
        = (captured host run).foldl (fun t pkt => (parse pkt).elim t t.parseDNSResponse) t) ∧
      ∑ i, s.drops i = .ofNat (lost host run).length ∧
      (arrived host run : Multiset (List UInt8))
        = captured host run + lost host run + unread host run ∧
      ∀ data ∈ arrived host run, 12 ≤ data.length ∧ data.length ≤ dnsRawMax := by
  obtain ⟨hrecords, hdrops⟩ := foldl_dnsRecvmsg host run new
  have hpackets : (run.foldl (dnsRecvmsg host) new).records.filterMap (packetOf host)
      = captured host run := by
    rw [hrecords]
    exact filterMap_packetOf host fun _ => length_of_mem_captured host
  refine ⟨fun parse t => ?_, ?_, arrived_eq host run, fun data hdata => ?_⟩
  · rw [readLoop, hpackets]
    refine congrArg (fun f => (captured host run).foldl f t) ?_
    funext t pkt
    cases parse pkt <;> rfl
  · rw [hdrops]
    have hzero : ∑ i : Fin n, (new : DNSCapture n).drops i = 0 := Finset.sum_const_zero
    rw [hzero, zero_add]
  · obtain ⟨c, -, hc⟩ := List.mem_filterMap.mp hdata
    exact DNSSocket.length_datagram hc

end DNSCapture
