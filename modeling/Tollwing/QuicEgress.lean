/-
The QUIC egress hook (`pkg/ebpf/bpf/quic.bpf.c`).

The hook sees every frame that leaves the interface.  With capture on, and
unless the socket path owns the sent UDP bytes, it parses the frame and adds
its length to the `quic_flows` entry of its 4-tuple.

`parseQuic` reads the frame by offset, as the program does: a read outside the
frame gives `none`, a frame that is passed over gives `some none`.

* `parseQuic_isSome` — the bounds checks cover every read;
* `QuicPlane.quicEgress_eq` — the hook records one packet or does nothing;
* `QuicPlane.udpSocketTx_of_recorded` — it records nothing while the socket path
  owns UDP.
-/
import Tollwing.BpfHooks

/-- `struct quic_flow_key`. -/
structure QuicFlowKey where
  srcIP : UInt32
  dstIP : UInt32
  srcPort : UInt16
  dstPort : UInt16
  deriving DecidableEq, Repr

/-- `struct quic_flow_metrics`. -/
structure QuicFlowMetrics where
  txBytes : UInt64 := 0
  pktCount : UInt64 := 0
  lastSeenNs : UInt64 := 0
  quicVersion : UInt32 := 0
  isLongHeader : Bool := false
  deriving DecidableEq, Repr

/-! ### Reads -/

/-- `bpf_htons` and `bpf_ntohs`. -/
def ByteOrder.htons (host : ByteOrder) (v : UInt16) : UInt16 :=
  match host with
  | .little => v <<< 8 ||| v >>> 8
  | .big => v

/-- Read two bytes in host order. -/
def load16 (host : ByteOrder) (frame : List UInt8) (i : ℕ) : Option UInt16 := do
  let b₀ ← frame[i]?
  let b₁ ← frame[i + 1]?
  return match host with
    | .little => b₀.toUInt16 ||| b₁.toUInt16 <<< 8
    | .big => b₀.toUInt16 <<< 8 ||| b₁.toUInt16

/-- Four bytes, the first one most significant. -/
def word32 (b₀ b₁ b₂ b₃ : UInt8) : UInt32 :=
  b₀.toUInt32 <<< 24 ||| b₁.toUInt32 <<< 16 ||| b₂.toUInt32 <<< 8 ||| b₃.toUInt32

/-- Read four bytes in host order. -/
def load32 (host : ByteOrder) (frame : List UInt8) (i : ℕ) : Option UInt32 := do
  let b₀ ← frame[i]?
  let b₁ ← frame[i + 1]?
  let b₂ ← frame[i + 2]?
  let b₃ ← frame[i + 3]?
  return match host with
    | .little => word32 b₃ b₂ b₁ b₀
    | .big => word32 b₀ b₁ b₂ b₃

/-! ### The parser -/

def ethPIP : UInt16 := 0x0800
def ethPIPv6 : UInt16 := 0x86DD
def ethHLen : ℕ := 14
def ipMinHLen : ℕ := 20
def ip6HLen : ℕ := 40
def udpHLen : ℕ := 8

inductive QuicHeader
  | long
  | short
  deriving DecidableEq, Repr

/-- `detect_quic`. -/
def detectQuic (firstByte : UInt8) : Option QuicHeader :=
  if firstByte &&& 0x40 = 0 then none
  else if firstByte &&& 0xC0 = 0xC0 then some .long
  else if firstByte &&& 0x40 = 0x40 then some .short
  else none

/-- The addresses of the flow key and the offset of the UDP header.  An IPv6
address is cut to its first four bytes. -/
def parseIP (host : ByteOrder) (frame : List UInt8) : Option (Option (UInt32 × UInt32 × ℕ)) := do
  let ethProto ← load16 host frame 12
  if ethProto = host.htons ethPIP then
    let verIhl ← frame[ethHLen]?
    let ihl := (verIhl &&& 0x0F).toNat
    if ihl < 5 ∨ 15 < ihl then return none
    else
      let protocol ← frame[ethHLen + 9]?
      if protocol ≠ ipprotoUDP then return none
      else
        let udpOffset := ethHLen + 4 * ihl
        if frame.length < udpOffset + udpHLen + 1 then return none
        else
          let saddr ← load32 host frame (ethHLen + 12)
          let daddr ← load32 host frame (ethHLen + 16)
          return some (saddr, daddr, udpOffset)
  else if ethProto = host.htons ethPIPv6 then
    if frame.length < ethHLen + ip6HLen + udpHLen + 1 then return none
    else
      let nextHeader ← frame[ethHLen + 6]?
      if nextHeader ≠ ipprotoUDP then return none
      else
        let saddr ← load32 host frame (ethHLen + 8)
        let daddr ← load32 host frame (ethHLen + 24)
        return some (saddr, daddr, ethHLen + ip6HLen)
  else return none

/-- The version of a long header: QUIC v1, v2 or a draft, and 0 for others. -/
def parseVersion (frame : List UInt8) (quicStart : ℕ) : Option UInt32 := do
  let b₁ ← frame[quicStart + 1]?
  let b₂ ← frame[quicStart + 2]?
  let b₃ ← frame[quicStart + 3]?
  let b₄ ← frame[quicStart + 4]?
  let version := word32 b₁ b₂ b₃ b₄
  return if version ≠ 1 ∧ version ≠ 0x6b3343cf ∧ version &&& 0xff000000 ≠ 0xff000000 then 0
    else version

/-- What the hook records of a frame. -/
structure QuicPacket where
  key : QuicFlowKey
  pktBytes : UInt64
  quicVersion : UInt32
  isLongHeader : Bool
  deriving DecidableEq, Repr

/-- The parsing half of `tollwing_quic_egress`. -/
def parseQuic (host : ByteOrder) (frame : List UInt8) : Option (Option QuicPacket) := do
  if frame.length < ethHLen + ipMinHLen + udpHLen + 1 then return none
  else
    match ← parseIP host frame with
    | none => return none
    | some (saddr, daddr, udpOffset) =>
      if frame.length < udpOffset + udpHLen + 1 then return none
      else
        let srcPort ← load16 host frame udpOffset
        let dstPort ← load16 host frame (udpOffset + 2)
        let udpLen ← load16 host frame (udpOffset + 4)
        if host.htons udpLen < 9 then return none
        else
          let quicStart := udpOffset + udpHLen
          let firstByte ← frame[quicStart]?
          let key : QuicFlowKey :=
            { srcIP := saddr
              dstIP := daddr
              srcPort := host.htons srcPort
              dstPort := host.htons dstPort }
          match detectQuic firstByte with
          | none => return none
          | some .short => return some ⟨key, .ofNat frame.length, 0, false⟩
          | some .long =>
            if frame.length < quicStart + 5 then return none
            else
              let version ← parseVersion frame quicStart
              return some ⟨key, .ofNat frame.length, version, true⟩

/-! ### Every read is inside the frame -/

section
variable {host : ByteOrder} {frame : List UInt8} {i : ℕ}

theorem exists_bind {α β : Type} {x : Option α} {f : α → Option β} (hx : ∃ a, x = some a)
    (hf : ∀ a, ∃ r, f a = some r) : ∃ r, (x >>= f) = some r := by
  obtain ⟨a, rfl⟩ := hx
  exact hf a

theorem load8_isSome (h : i < frame.length) : ∃ b, frame[i]? = some b :=
  ⟨frame[i], List.getElem?_eq_getElem h⟩

theorem load16_isSome (h : i + 1 < frame.length) : ∃ v, load16 host frame i = some v :=
  exists_bind (load8_isSome (by omega)) fun _ =>
    exists_bind (load8_isSome h) fun _ => ⟨_, rfl⟩

theorem load32_isSome (h : i + 3 < frame.length) : ∃ v, load32 host frame i = some v :=
  exists_bind (load8_isSome (by omega)) fun _ =>
    exists_bind (load8_isSome (by omega)) fun _ =>
      exists_bind (load8_isSome (by omega)) fun _ =>
        exists_bind (load8_isSome h) fun _ => ⟨_, rfl⟩

theorem parseVersion_isSome (h : i + 4 < frame.length) : ∃ v, parseVersion frame i = some v :=
  exists_bind (load8_isSome (by omega)) fun _ =>
    exists_bind (load8_isSome (by omega)) fun _ =>
      exists_bind (load8_isSome (by omega)) fun _ =>
        exists_bind (load8_isSome h) fun _ => ⟨_, rfl⟩

theorem parseIP_isSome (h : ethHLen + ipMinHLen ≤ frame.length) :
    ∃ r, parseIP host frame = some r := by
  have hlen : 34 ≤ frame.length := h
  refine exists_bind (load16_isSome (by omega)) fun ethProto => ?_
  by_cases hip : ethProto = host.htons ethPIP
  · rw [if_pos hip]
    refine exists_bind (load8_isSome (by rw [ethHLen]; omega)) fun verIhl => ?_
    dsimp only
    by_cases hihl : (verIhl &&& 0x0F).toNat < 5 ∨ 15 < (verIhl &&& 0x0F).toNat
    · rw [if_pos hihl]
      exact ⟨_, rfl⟩
    rw [if_neg hihl]
    refine exists_bind (load8_isSome (by rw [ethHLen]; omega)) fun protocol => ?_
    split_ifs
    · exact ⟨_, rfl⟩
    · exact ⟨_, rfl⟩
    exact exists_bind (load32_isSome (by rw [ethHLen]; omega)) fun saddr =>
      exists_bind (load32_isSome (by rw [ethHLen]; omega)) fun daddr => ⟨_, rfl⟩
  · rw [if_neg hip]
    split_ifs with hip6 hshort
    · exact ⟨_, rfl⟩
    · -- the IPv6 header lies in front of the UDP header
      have hlen6 : 63 ≤ frame.length := not_lt.mp hshort
      refine exists_bind (load8_isSome (by rw [ethHLen]; omega)) fun nextHeader => ?_
      split_ifs
      · exact ⟨_, rfl⟩
      exact exists_bind (load32_isSome (by rw [ethHLen]; omega)) fun saddr =>
        exists_bind (load32_isSome (by rw [ethHLen]; omega)) fun daddr => ⟨_, rfl⟩
    · exact ⟨_, rfl⟩

/-- **The bounds checks cover every read.** -/
theorem parseQuic_isSome (host : ByteOrder) (frame : List UInt8) :
    ∃ r, parseQuic host frame = some r := by
  rw [parseQuic]
  by_cases hshort : frame.length < ethHLen + ipMinHLen + udpHLen + 1
  · rw [if_pos hshort]
    exact ⟨_, rfl⟩
  rw [if_neg hshort]
  have hlen : 43 ≤ frame.length := not_lt.mp hshort
  refine exists_bind (parseIP_isSome (by rw [ethHLen, ipMinHLen]; omega)) fun ip => ?_
  rcases ip with _ | ⟨saddr, daddr, udpOffset⟩
  · exact ⟨_, rfl⟩
  dsimp only
  by_cases hudp : frame.length < udpOffset + udpHLen + 1
  · rw [if_pos hudp]
    exact ⟨_, rfl⟩
  rw [if_neg hudp]
  have hlen_udp : udpOffset + 9 ≤ frame.length := not_lt.mp hudp
  refine exists_bind (load16_isSome (by omega)) fun srcPort => ?_
  refine exists_bind (load16_isSome (by omega)) fun dstPort => ?_
  refine exists_bind (load16_isSome (by omega)) fun udpLen => ?_
  by_cases hempty : host.htons udpLen < 9
  · rw [if_pos hempty]
    exact ⟨_, rfl⟩
  rw [if_neg hempty]
  refine exists_bind (load8_isSome (by rw [udpHLen]; omega)) fun firstByte => ?_
  rcases detectQuic firstByte with _ | _ | _
  · exact ⟨_, rfl⟩
  · dsimp only
    by_cases hversion : frame.length < udpOffset + udpHLen + 5
    · rw [if_pos hversion]
      exact ⟨_, rfl⟩
    rw [if_neg hversion]
    exact exists_bind (parseVersion_isSome (by omega)) fun version => ⟨_, rfl⟩
  · exact ⟨_, rfl⟩

end

/-! ### The hook -/

/-- The kernel state with the map of QUIC flows. -/
structure QuicPlane (n : ℕ) where
  kernel : Kernel n
  quicFlows : FinMap QuicFlowKey (Fin n → QuicFlowMetrics)

namespace QuicPlane

variable (host : ByteOrder) {n : ℕ} (p : QuicPlane n) (env : HookEnv n)

/-- Add a packet to the entry of its flow, on the CPU the hook runs on. -/
def record (pkt : QuicPacket) : QuicPlane n :=
  match p.quicFlows.lookup pkt.key with
  | some perCPU =>
    let m := perCPU env.cpu
    { p with
      quicFlows := p.quicFlows.insert pkt.key (Function.update perCPU env.cpu
        { txBytes := m.txBytes + pkt.pktBytes
          pktCount := m.pktCount + 1
          lastSeenNs := env.now
          quicVersion := if pkt.quicVersion ≠ 0 then pkt.quicVersion else m.quicVersion
          isLongHeader := pkt.isLongHeader }) }
  | none =>
    if env.insertOk then
      { p with
        quicFlows := p.quicFlows.insert pkt.key (Function.update (fun _ => {}) env.cpu
          { txBytes := pkt.pktBytes
            pktCount := 1
            lastSeenNs := env.now
            quicVersion := pkt.quicVersion
            isLongHeader := pkt.isLongHeader }) }
    else { p with kernel := p.kernel.countDrop env .quicFlows }

/-- The packet the hook records of a frame: none if capture is off, the socket
path owns the sent UDP bytes, or the frame is passed over. -/
def recorded (frame : List UInt8) : Option QuicPacket :=
  p.kernel.getConfig.bind fun cfg =>
    if cfg.udpSocketTx then none else (parseQuic host frame).join

/-- `tollwing_quic_egress`. -/
def quicEgress (frame : List UInt8) : QuicPlane n :=
  match p.kernel.getConfig with
  | none => p
  | some cfg =>
    if cfg.udpSocketTx then p
    else
      match parseQuic host frame with
      | some (some pkt) => p.record env pkt
      | some none | none => p

theorem quicEgress_eq (frame : List UInt8) :
    p.quicEgress host env frame = (p.recorded host frame).elim p (p.record env) := by
  rw [quicEgress, recorded]
  cases p.kernel.getConfig with
  | none => rfl
  | some cfg =>
    rw [Option.bind_some]
    dsimp only
    split_ifs
    · rfl
    · rcases parseQuic host frame with _ | _ | pkt <;> rfl

/-- A frame is recorded only while the socket path does not own UDP. -/
theorem udpSocketTx_of_recorded {frame : List UInt8} {pkt : QuicPacket}
    (h : p.recorded host frame = some pkt) : p.kernel.agentConfig.udpSocketTx = false := by
  rw [recorded, Option.bind_eq_some_iff] at h
  obtain ⟨cfg, hcfg, h⟩ := h
  rw [Kernel.getConfig] at hcfg
  split_ifs at hcfg h with hon htx
  cases hcfg
  simpa using htx

end QuicPlane
