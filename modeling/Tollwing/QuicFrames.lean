/-
Which frames carry QUIC (`pkg/ebpf/bpf/quic.bpf.c`).

What a frame carries is read here from its headers: the UDP datagram of its IPv4 or IPv6
packet (`udpDatagram`) lies inside the packet, not in a later fragment of one and not in
what the frame is padded with, and may stand behind extension headers.  The hook looks at
fewer fields, and at one place only.

* `parseQuic_place` — what the hook records, by the place where it looks;
* `counts_record` — a packet is added once, under its key;
* `recordsQuic_iff` — which frames are recorded as they should be;
* `fragment_recorded` — a later fragment of an IPv4 packet that is.
-/
import Mathlib.Algebra.Group.Prod
import Mathlib.Data.UInt
import Tollwing.QuicEgress

namespace QuicFrames

/-! ### Bytes of a frame -/

/-- A byte of the frame, 0 behind its end. -/
def byte (frame : List UInt8) (i : ℕ) : ℕ := (frame.getD i 0).toNat

/-- Two bytes, the first one most significant. -/
def be16 (frame : List UInt8) (i : ℕ) : ℕ := 256 * byte frame i + byte frame (i + 1)

section
variable {host : ByteOrder} {frame : List UInt8} {i : ℕ}

theorem byte_lt (frame : List UInt8) (i : ℕ) : byte frame i < 256 := UInt8.toNat_lt _

theorem be16_lt (frame : List UInt8) (i : ℕ) : be16 frame i < 65536 := by
  have hhigh := byte_lt frame i
  have hlow := byte_lt frame (i + 1)
  rw [be16]
  omega

theorem load8_eq (h : i < frame.length) : frame[i]? = some (frame.getD i 0) := by
  rw [List.getD_eq_getElem?_getD, List.getElem?_eq_getElem h]
  rfl

theorem toNat_or_shiftLeft (a b : UInt8) :
    (a.toUInt16 ||| b.toUInt16 <<< 8).toNat = 256 * b.toNat + a.toNat := by
  have ha := a.toNat_lt
  have hb := b.toNat_lt
  have hshift : (b.toUInt16 <<< 8).toNat = b.toNat <<< 8 := by
    rw [UInt16.toNat_shiftLeft, UInt8.toNat_toUInt16]
    have hlt : b.toNat <<< 8 < 2 ^ 16 := by
      rw [Nat.shiftLeft_eq]
      omega
    exact Nat.mod_eq_of_lt hlt
  rw [UInt16.toNat_or, hshift, UInt8.toNat_toUInt16, Nat.or_comm,
    ← Nat.shiftLeft_add_eq_or_of_lt ha, Nat.shiftLeft_eq, Nat.mul_comm]

/-- The bytes of a word change places. -/
theorem toNat_htons_little (v : UInt16) :
    (ByteOrder.little.htons v).toNat = 256 * (v.toNat % 256) + v.toNat / 256 := by
  have hv := v.toNat_lt
  have hleft : (v <<< 8).toNat = (v.toNat % 256) <<< 8 := by
    rw [UInt16.toNat_shiftLeft, Nat.shiftLeft_eq, Nat.shiftLeft_eq]
    show v.toNat * 2 ^ 8 % 2 ^ 16 = _
    omega
  have hright : (v >>> 8).toNat = v.toNat / 256 := by
    rw [UInt16.toNat_shiftRight, Nat.shiftRight_eq_div_pow]
    rfl
  have hlow : v.toNat / 256 < 2 ^ 8 := by omega
  rw [ByteOrder.htons, UInt16.toNat_or, hleft, hright, ← Nat.shiftLeft_add_eq_or_of_lt hlow,
    Nat.shiftLeft_eq, Nat.mul_comm]

theorem htons_htons (host : ByteOrder) (v : UInt16) : host.htons (host.htons v) = v := by
  cases host with
  | big => rfl
  | little =>
    have hv := v.toNat_lt
    refine UInt16.toNat.inj ?_
    rw [toNat_htons_little, toNat_htons_little]
    omega

/-- A read of two bytes in host order. -/
theorem load16_eq (host : ByteOrder) (h : i + 1 < frame.length) :
    load16 host frame i = some (host.htons (UInt16.ofNat (be16 frame i))) := by
  have hbe := be16_lt frame i
  have hofNat : (UInt16.ofNat (be16 frame i)).toNat = be16 frame i :=
    UInt16.toNat_ofNat_of_lt' hbe
  have hhigh := byte_lt frame i
  have hlow := byte_lt frame (i + 1)
  rw [load16, load8_eq (by omega), load8_eq h]
  refine congrArg some (UInt16.toNat.inj ?_)
  cases host with
  | little =>
    show ((frame.getD i 0).toUInt16 ||| (frame.getD (i + 1) 0).toUInt16 <<< 8).toNat = _
    rw [toNat_or_shiftLeft, toNat_htons_little, hofNat, be16]
    show 256 * byte frame (i + 1) + byte frame i = _
    omega
  | big =>
    show ((frame.getD i 0).toUInt16 <<< 8 ||| (frame.getD (i + 1) 0).toUInt16).toNat = _
    rw [UInt16.or_comm, toNat_or_shiftLeft]
    exact hofNat.symm

theorem htons_eq_iff (host : ByteOrder) {n m : ℕ} (hn : n < 65536) (hm : m < 65536) :
    host.htons (UInt16.ofNat n) = host.htons (UInt16.ofNat m) ↔ n = m := by
  refine ⟨fun h => ?_, fun h => congrArg _ (congrArg _ h)⟩
  have hsame := congrArg host.htons h
  rw [htons_htons, htons_htons] at hsame
  have hnat := congrArg UInt16.toNat hsame
  rwa [UInt16.toNat_ofNat_of_lt' hn, UInt16.toNat_ofNat_of_lt' hm] at hnat

/-- The fixed bit and the form of a header are two bits of its first byte. -/
theorem detectQuic_eq (b : UInt8) :
    detectQuic b = if b.toNat.testBit 6 then
        if b.toNat.testBit 7 then some .long else some .short
      else none := by
  have hall : ∀ n < 256, detectQuic (UInt8.ofNat n) = if n.testBit 6 then
      if n.testBit 7 then some .long else some .short else none := by
    decide +kernel
  have hb := hall b.toNat b.toNat_lt
  rwa [UInt8.ofNat_toNat] at hb

end

/-! ### What the hook looks at -/

/-- Where a UDP datagram stands in a frame: its addresses and its header. -/
structure UdpPlace where
  srcAt : ℕ
  dstAt : ℕ
  start : ℕ
  deriving DecidableEq

/-- The key of a datagram, an IPv6 address cut to its first four bytes. -/
def UdpPlace.key (host : ByteOrder) (frame : List UInt8) (p : UdpPlace) : QuicFlowKey where
  srcIP := (load32 host frame p.srcAt).getD 0
  dstIP := (load32 host frame p.dstAt).getD 0
  srcPort := .ofNat (be16 frame p.start)
  dstPort := .ofNat (be16 frame (p.start + 2))

/-- The place where the hook looks for a UDP header. -/
def place (frame : List UInt8) : Option UdpPlace :=
  if be16 frame 12 = 0x0800 then
    if 5 ≤ byte frame 14 % 16 ∧ byte frame 23 = 17 then
      some ⟨26, 30, 14 + 4 * (byte frame 14 % 16)⟩
    else none
  else if be16 frame 12 = 0x86DD ∧ byte frame 20 = 17 then some ⟨22, 38, 54⟩
  else none

/-- The bytes from there on are, as far as the hook can tell, a UDP header and QUIC. -/
def LooksQuic (frame : List UInt8) (start : ℕ) : Prop :=
  start + 9 ≤ frame.length ∧ 9 ≤ be16 frame (start + 4) ∧
    (byte frame (start + 8)).testBit 6 = true ∧
    ((byte frame (start + 8)).testBit 7 = true → start + 13 ≤ frame.length)

instance (frame : List UInt8) (start : ℕ) : Decidable (LooksQuic frame start) :=
  inferInstanceAs (Decidable (_ ∧ _ ∧ _ ∧ (_ → _)))

section
variable {host : ByteOrder} {frame : List UInt8}

theorem load32_eq {i : ℕ} (h : i + 3 < frame.length) :
    load32 host frame i = some ((load32 host frame i).getD 0) := by
  have hsome : ∃ v, load32 host frame i = some v := load32_isSome h
  obtain ⟨v, hv⟩ := hsome
  rw [hv]
  rfl

theorem ihl_eq (b : UInt8) : (b &&& 0x0F).toNat = b.toNat % 16 :=
  (UInt8.toNat_and b 0x0F).trans (Nat.and_two_pow_sub_one_eq_mod b.toNat 4)

theorem protocol_eq_iff (i : ℕ) : frame.getD i 0 ≠ ipprotoUDP ↔ ¬ byte frame i = 17 :=
  not_congr UInt8.toNat_inj.symm

theorem ethPIP_eq_iff : host.htons (UInt16.ofNat (be16 frame 12)) = host.htons ethPIP ↔
    be16 frame 12 = 0x0800 :=
  htons_eq_iff host (be16_lt frame 12) (by decide)

theorem ethPIPv6_eq_iff : host.htons (UInt16.ofNat (be16 frame 12)) = host.htons ethPIPv6 ↔
    be16 frame 12 = 0x86DD :=
  htons_eq_iff host (be16_lt frame 12) (by decide)

theorem parseIP_ipv4 (h : 43 ≤ frame.length) (h4 : be16 frame 12 = 0x0800) :
    parseIP host frame = some (if 5 ≤ byte frame 14 % 16 ∧ byte frame 23 = 17 ∧
          14 + 4 * (byte frame 14 % 16) + 9 ≤ frame.length then
        some ((load32 host frame 26).getD 0, (load32 host frame 30).getD 0,
          14 + 4 * (byte frame 14 % 16))
      else none) := by
  have hihl : (byte frame 14 % 16 < 5 ∨ 15 < byte frame 14 % 16) ↔ ¬ 5 ≤ byte frame 14 % 16 := by
    omega
  rw [parseIP, load16_eq host (by omega), load8_eq (by rw [ethHLen]; omega)]
  simp only [Option.bind_eq_bind, Option.bind_some, Option.pure_def, ethPIP_eq_iff, if_pos h4]
  rw [ihl_eq]
  show (if byte frame 14 % 16 < 5 ∨ 15 < byte frame 14 % 16 then some none else _) = _
  simp only [hihl]
  by_cases h5 : 5 ≤ byte frame 14 % 16
  · rw [if_neg (not_not.mpr h5), load8_eq (by rw [ethHLen]; omega), Option.bind_some]
    by_cases hudp : byte frame 23 = 17
    · have hproto : ¬ frame.getD (ethHLen + 9) 0 ≠ ipprotoUDP := fun hne =>
        (protocol_eq_iff 23).mp hne hudp
      rw [if_neg hproto]
      by_cases hshort : 14 + 4 * (byte frame 14 % 16) + 9 ≤ frame.length
      · have hlong : ¬ frame.length
            < ethHLen + 4 * ((frame.getD ethHLen 0).toNat % 16) + udpHLen + 1 :=
          not_lt.mpr hshort
        rw [if_neg hlong, if_pos ⟨h5, hudp, hshort⟩, load32_eq (by rw [ethHLen]; omega),
          Option.bind_some, load32_eq (by rw [ethHLen]; omega), Option.bind_some]
        rfl
      · have hlong : frame.length
            < ethHLen + 4 * ((frame.getD ethHLen 0).toNat % 16) + udpHLen + 1 :=
          not_le.mp hshort
        rw [if_pos hlong, if_neg fun hand => hshort hand.2.2]
    · have hproto : frame.getD (ethHLen + 9) 0 ≠ ipprotoUDP := (protocol_eq_iff 23).mpr hudp
      rw [if_pos hproto, if_neg fun hand => hudp hand.2.1]
  · rw [if_pos h5, if_neg fun hand => h5 hand.1]

theorem parseIP_ipv6 (h : 43 ≤ frame.length) (h6 : be16 frame 12 = 0x86DD) :
    parseIP host frame = some (if byte frame 20 = 17 ∧ 54 + 9 ≤ frame.length then
        some ((load32 host frame 22).getD 0, (load32 host frame 38).getD 0, 54)
      else none) := by
  have h4 : ¬ be16 frame 12 = 0x0800 := fun heq => absurd (h6.symm.trans heq) (by omega)
  rw [parseIP, load16_eq host (by omega)]
  simp only [Option.bind_eq_bind, Option.bind_some, Option.pure_def, ethPIP_eq_iff,
    ethPIPv6_eq_iff, if_neg h4, if_pos h6]
  by_cases hshort : 54 + 9 ≤ frame.length
  · have hlong : ¬ frame.length < ethHLen + ip6HLen + udpHLen + 1 := not_lt.mpr hshort
    rw [if_neg hlong, load8_eq (by rw [ethHLen]; omega), Option.bind_some]
    by_cases hudp : byte frame 20 = 17
    · have hnext : ¬ frame.getD (ethHLen + 6) 0 ≠ ipprotoUDP := fun hne =>
        (protocol_eq_iff 20).mp hne hudp
      rw [if_neg hnext, if_pos ⟨hudp, hshort⟩, load32_eq (by rw [ethHLen]; omega),
        Option.bind_some, load32_eq (by rw [ethHLen]; omega), Option.bind_some]
      rfl
    · have hnext : frame.getD (ethHLen + 6) 0 ≠ ipprotoUDP := (protocol_eq_iff 20).mpr hudp
      rw [if_pos hnext, if_neg fun hand => hudp hand.1]
  · have hlong : frame.length < ethHLen + ip6HLen + udpHLen + 1 := not_le.mp hshort
    rw [if_pos hlong, if_neg fun hand => hshort hand.2]

theorem parseIP_other (h : 43 ≤ frame.length) (h4 : be16 frame 12 ≠ 0x0800)
    (h6 : be16 frame 12 ≠ 0x86DD) : parseIP host frame = some none := by
  rw [parseIP, load16_eq host (by omega)]
  simp only [Option.bind_eq_bind, Option.bind_some, Option.pure_def, ethPIP_eq_iff,
    ethPIPv6_eq_iff, if_neg h4, if_neg h6]

/-- The addresses and the offset that `parseIP` gives. -/
theorem parseIP_place (h : 43 ≤ frame.length) :
    parseIP host frame = some ((place frame).bind fun p =>
      if p.start + 9 ≤ frame.length then
        some ((load32 host frame p.srcAt).getD 0, (load32 host frame p.dstAt).getD 0, p.start)
      else none) := by
  by_cases h4 : be16 frame 12 = 0x0800
  · rw [parseIP_ipv4 h h4, place, if_pos h4]
    by_cases hudp : 5 ≤ byte frame 14 % 16 ∧ byte frame 23 = 17
    · simp only [hudp.1, hudp.2, true_and, and_self, if_true, Option.bind_some]
    · rw [if_neg hudp, if_neg fun hand => hudp ⟨hand.1, hand.2.1⟩]
      rfl
  · rw [place, if_neg h4]
    by_cases h6 : be16 frame 12 = 0x86DD
    · rw [parseIP_ipv6 h h6]
      by_cases hudp : byte frame 20 = 17
      · simp only [h6, hudp, true_and, and_self, if_true, Option.bind_some]
      · rw [if_neg fun hand => hudp hand.1, if_neg fun hand => hudp hand.2]
        rfl
    · rw [parseIP_other h h4 h6, if_neg fun hand => h6 hand.1]
      rfl

theorem le_start {p : UdpPlace} (h : place frame = some p) : 34 ≤ p.start := by
  rw [place] at h
  split_ifs at h with h4 hudp hudp6
  · cases h
    show 34 ≤ 14 + 4 * (byte frame 14 % 16)
    omega
  · cases h
    decide

theorem udpLen_lt_iff (i : ℕ) :
    UInt16.ofNat (be16 frame i) < 9 ↔ ¬ 9 ≤ be16 frame i := by
  rw [UInt16.lt_iff_toNat_lt, UInt16.toNat_ofNat_of_lt' (be16_lt frame i)]
  exact not_le.symm

/-- From the first byte behind the UDP header on, with the key read before. -/
theorem parseQuic_of_parseIP {saddr daddr : UInt32} {start : ℕ} (hlen : 43 ≤ frame.length)
    (hip : parseIP host frame = some (some (saddr, daddr, start)))
    (hudp : start + 9 ≤ frame.length) :
    ((parseQuic host frame).join.map fun pkt => (pkt.key, pkt.pktBytes))
      = if LooksQuic frame start then
          some (⟨saddr, daddr, .ofNat (be16 frame start), .ofNat (be16 frame (start + 2))⟩,
            .ofNat frame.length)
        else none := by
  have hfront : ¬ frame.length < ethHLen + ipMinHLen + udpHLen + 1 := not_lt.mpr hlen
  have hnot : ¬ frame.length < start + udpHLen + 1 := not_lt.mpr hudp
  have hread : frame[start + udpHLen]? = some (frame.getD (start + udpHLen) 0) := load8_eq hudp
  rw [parseQuic, if_neg hfront, hip, Option.bind_eq_bind, Option.bind_some]
  dsimp only
  rw [if_neg hnot, load16_eq host (by omega), load16_eq host (by omega),
    load16_eq host (by omega), hread]
  simp only [Option.bind_eq_bind, Option.bind_some, htons_htons, udpLen_lt_iff, detectQuic_eq]
  by_cases hempty : 9 ≤ be16 frame (start + 4)
  · rw [if_neg (not_not.mpr hempty)]
    by_cases hfixed : (byte frame (start + 8)).testBit 6 = true
    · have hfirst : (frame.getD (start + udpHLen) 0).toNat.testBit 6 = true := hfixed
      rw [if_pos hfirst]
      by_cases hform : (byte frame (start + 8)).testBit 7 = true
      · have hlongform : (frame.getD (start + udpHLen) 0).toNat.testBit 7 = true := hform
        rw [if_pos hlongform]
        dsimp only
        by_cases hversion : start + 13 ≤ frame.length
        · have hin : ¬ frame.length < start + udpHLen + 5 := not_lt.mpr hversion
          have hsome : ∃ v, parseVersion frame (start + udpHLen) = some v :=
            parseVersion_isSome hversion
          obtain ⟨version, hread⟩ := hsome
          rw [if_neg hin, hread, if_pos ⟨hudp, hempty, hfixed, fun _ => hversion⟩]
          rfl
        · have hout : frame.length < start + udpHLen + 5 := not_le.mp hversion
          rw [if_pos hout, if_neg fun hlooks => hversion (hlooks.2.2.2 hform)]
          rfl
      · have hshortform : ¬ (frame.getD (start + udpHLen) 0).toNat.testBit 7 = true := hform
        have hlooks : LooksQuic frame start :=
          ⟨hudp, hempty, hfixed, fun hyes => absurd hyes hform⟩
        rw [if_neg hshortform, if_pos hlooks]
        rfl
    · have hother : ¬ (frame.getD (start + udpHLen) 0).toNat.testBit 6 = true := hfixed
      have hnone : ¬ LooksQuic frame start := fun hlooks => hfixed hlooks.2.2.1
      rw [if_neg hother, if_neg hnone]
      rfl
  · rw [if_pos hempty, if_neg fun hlooks => hempty hlooks.2.1]
    rfl

/-- **What the hook records**: the key of the datagram where it looks, with the length of
the frame, if the bytes there look like QUIC. -/
theorem parseQuic_place (host : ByteOrder) (frame : List UInt8) :
    ((parseQuic host frame).join.map fun pkt => (pkt.key, pkt.pktBytes))
      = (place frame).bind fun p =>
          if LooksQuic frame p.start then some (p.key host frame, .ofNat frame.length)
          else none := by
  by_cases hshort : frame.length < ethHLen + ipMinHLen + udpHLen + 1
  · -- no place is so near the front
    rw [parseQuic, if_pos hshort]
    cases hplace : place frame with
    | none => rfl
    | some p =>
      have hlt : frame.length < 43 := hshort
      have hstart := le_start hplace
      have hnot : ¬ LooksQuic frame p.start := fun hlooks => by
        have hle := hlooks.1
        omega
      exact (if_neg hnot).symm
  · have hlen : 43 ≤ frame.length := not_lt.mp hshort
    have hip : parseIP host frame = _ := parseIP_place hlen
    cases hplace : place frame with
    | none =>
      rw [hplace] at hip
      rw [parseQuic, if_neg hshort, hip]
      rfl
    | some p =>
      rw [hplace, Option.bind_some] at hip
      by_cases hudp : p.start + 9 ≤ frame.length
      · rw [if_pos hudp] at hip
        exact parseQuic_of_parseIP hlen hip hudp
      · rw [if_neg hudp] at hip
        rw [parseQuic, if_neg hshort, hip, Option.bind_some,
          if_neg fun hlooks => hudp hlooks.1]
        rfl

end

/-! ### What a frame carries -/

/-- A UDP datagram of a frame, with the end of its packet in the frame. -/
structure UdpDatagram extends UdpPlace where
  stop : ℕ
  deriving DecidableEq

/-- Where the UDP header of an IPv6 packet stands: behind the extension headers, each of
which says what comes next.  A later fragment has none. -/
def udpBehind (frame : List UInt8) (stop next pos : ℕ) : Option ℕ :=
  if next = 17 then some pos
  else if hpos : pos + 8 ≤ stop then
    if next = 44 then
      if be16 frame (pos + 2) / 8 = 0 then udpBehind frame stop (byte frame pos) (pos + 8)
      else none
    else if next = 51 then
      udpBehind frame stop (byte frame pos) (pos + 4 * (byte frame (pos + 1) + 2))
    else if next = 0 ∨ next = 43 ∨ next = 60 ∨ next = 135 ∨ next = 139 ∨ next = 140 then
      udpBehind frame stop (byte frame pos) (pos + 8 * (byte frame (pos + 1) + 1))
    else none
  else none
termination_by stop - pos
decreasing_by all_goals omega

/-- The datagram of an IPv4 packet that is not a later fragment. -/
def ipv4Datagram (frame : List UInt8) : Option UdpDatagram :=
  if 34 ≤ frame.length ∧ byte frame 14 / 16 = 4 ∧ 5 ≤ byte frame 14 % 16 ∧
      be16 frame 20 % 8192 = 0 ∧ byte frame 23 = 17 then
    some ⟨⟨26, 30, 14 + 4 * (byte frame 14 % 16)⟩, min frame.length (14 + be16 frame 16)⟩
  else none

def ipv6Datagram (frame : List UInt8) : Option UdpDatagram :=
  if 54 ≤ frame.length ∧ byte frame 14 / 16 = 6 then
    let stop := min frame.length (54 + be16 frame 18)
    (udpBehind frame stop (byte frame 20) 54).map fun start => ⟨⟨22, 38, start⟩, stop⟩
  else none

/-- The UDP datagram a frame carries, by its ether type. -/
def udpDatagram (frame : List UInt8) : Option UdpDatagram :=
  if be16 frame 12 = 0x0800 then ipv4Datagram frame
  else if be16 frame 12 = 0x86DD then ipv6Datagram frame
  else none

/-- The payload of a datagram, as far as it is in the packet, is one of QUIC: the header
lies in the packet, and its first byte has the fixed bit; with a long header there are the
bytes of a version. -/
def UdpDatagram.IsQuic (frame : List UInt8) (d : UdpDatagram) : Prop :=
  let stop := min d.stop (d.start + be16 frame (d.start + 4))
  d.start + 8 < stop ∧ (byte frame (d.start + 8)).testBit 6 = true ∧
    ((byte frame (d.start + 8)).testBit 7 = true → d.start + 13 ≤ stop)

instance (frame : List UInt8) (d : UdpDatagram) : Decidable (d.IsQuic frame) :=
  inferInstanceAs (Decidable (_ ∧ _ ∧ (_ → _)))

/-- The key of the QUIC datagram a frame carries. -/
def quicDatagram (host : ByteOrder) (frame : List UInt8) : Option QuicFlowKey :=
  (udpDatagram frame).bind fun d =>
    if d.IsQuic frame then some (d.toUdpPlace.key host frame) else none

/-- The end of the packet, as its header has it. -/
def packetEnd (frame : List UInt8) : ℕ :=
  if be16 frame 12 = 0x0800 then 14 + be16 frame 16 else 54 + be16 frame 18

/-- What the hook does not ask of the packet where it looks: that the header is of the
version the ether type says, and that an IPv4 packet is no later fragment. -/
def FirstOfVersion (frame : List UInt8) : Prop :=
  if be16 frame 12 = 0x0800 then byte frame 14 / 16 = 4 ∧ be16 frame 20 % 8192 = 0
  else byte frame 14 / 16 = 6

/-- And of the payload: that it lies in the packet. -/
def InPacket (frame : List UInt8) (start : ℕ) : Prop :=
  start + 9 ≤ packetEnd frame ∧ ((byte frame (start + 8)).testBit 7 = true →
    start + 13 ≤ packetEnd frame ∧ 13 ≤ be16 frame (start + 4))

/-- The bytes that look like QUIC are. -/
def Genuine (frame : List UInt8) (start : ℕ) : Prop :=
  FirstOfVersion frame ∧ InPacket frame start

/-- The frame has QUIC behind the extension headers of an IPv6 packet. -/
def Extended (host : ByteOrder) (frame : List UInt8) : Prop :=
  be16 frame 12 = 0x86DD ∧ byte frame 20 ≠ 17 ∧ quicDatagram host frame ≠ none

section
variable {host : ByteOrder} {frame : List UInt8}

/-- What looks like QUIC and lies in the packet is QUIC. -/
theorem isQuic_iff {d : UdpDatagram} (hstop : d.stop = min frame.length (packetEnd frame)) :
    d.IsQuic frame ↔ LooksQuic frame d.start ∧ InPacket frame d.start := by
  rw [UdpDatagram.IsQuic, LooksQuic, InPacket, hstop]
  constructor
  · rintro ⟨hudp, hfixed, hlong⟩
    refine ⟨⟨by omega, by omega, hfixed, fun hform => ?_⟩, by omega, fun hform => ?_⟩
    · have hversion := hlong hform
      omega
    · have hversion := hlong hform
      omega
  · rintro ⟨⟨hudp, hempty, hfixed, hframe⟩, hin, hlong⟩
    refine ⟨by omega, hfixed, fun hform => ?_⟩
    have hversion := hframe hform
    have hpacket := hlong hform
    omega

/-- Where the hook looks, there is a datagram if the IP header is whole and as it should be,
and if there are no extension headers that is the datagram of the frame. -/
theorem udpDatagram_eq_some_iff {p : UdpPlace} (hplace : place frame = some p) :
    ∃ n ≤ p.start, ∀ d, udpDatagram frame = some d ↔
      (n ≤ frame.length ∧ FirstOfVersion frame) ∧ ⟨p, min frame.length (packetEnd frame)⟩ = d := by
  rw [place] at hplace
  by_cases h4 : be16 frame 12 = 0x0800
  · rw [if_pos h4] at hplace
    by_cases hudp : 5 ≤ byte frame 14 % 16 ∧ byte frame 23 = 17
    · rw [if_pos hudp, Option.some_inj] at hplace
      refine ⟨34, by rw [← hplace]; show 34 ≤ 14 + 4 * _; omega, fun d => ?_⟩
      rw [udpDatagram, if_pos h4, ipv4Datagram, Option.ite_none_right_eq_some, FirstOfVersion,
        packetEnd, if_pos h4, if_pos h4, ← hplace, Option.some_inj]
      refine and_congr_left' ?_
      exact ⟨fun hhead => ⟨hhead.1, hhead.2.1, hhead.2.2.2.1⟩,
        fun hfirst => ⟨hfirst.1, hfirst.2.1, hudp.1, hfirst.2.2, hudp.2⟩⟩
    · rw [if_neg hudp] at hplace
      exact absurd hplace.symm (Option.some_ne_none p)
  · rw [if_neg h4] at hplace
    by_cases hudp : be16 frame 12 = 0x86DD ∧ byte frame 20 = 17
    · rw [if_pos hudp, Option.some_inj] at hplace
      refine ⟨54, by rw [← hplace], fun d => ?_⟩
      have hbehind : udpBehind frame (min frame.length (54 + be16 frame 18)) (byte frame 20) 54
          = some 54 := by
        rw [udpBehind, if_pos hudp.2]
      rw [udpDatagram, if_neg h4, if_pos hudp.1, ipv6Datagram]
      dsimp only
      rw [hbehind, Option.ite_none_right_eq_some, FirstOfVersion, packetEnd, if_neg h4,
        if_neg h4, ← hplace, Option.map_some, Option.some_inj]
    · rw [if_neg hudp] at hplace
      exact absurd hplace.symm (Option.some_ne_none p)

/-- A frame with the hook's place carries QUIC if what stands there is QUIC and genuine. -/
theorem quicDatagram_eq_some_iff {p : UdpPlace} (hplace : place frame = some p)
    (key : QuicFlowKey) : quicDatagram host frame = some key ↔
      (LooksQuic frame p.start ∧ Genuine frame p.start) ∧ p.key host frame = key := by
  obtain ⟨n, hn, hdatagram⟩ := udpDatagram_eq_some_iff hplace
  rw [quicDatagram, Option.bind_eq_some_iff]
  constructor
  · rintro ⟨d, hd, hkey⟩
    obtain ⟨⟨-, hfirst⟩, rfl⟩ := (hdatagram d).mp hd
    rw [Option.ite_none_right_eq_some, isQuic_iff rfl, Option.some_inj] at hkey
    obtain ⟨⟨hlooks, hin⟩, hkey⟩ := hkey
    exact ⟨⟨hlooks, hfirst, hin⟩, hkey⟩
  · rintro ⟨⟨hlooks, hfirst, hin⟩, hkey⟩
    have hle := hlooks.1
    refine ⟨_, (hdatagram _).mpr ⟨⟨by omega, hfirst⟩, rfl⟩, ?_⟩
    rw [Option.ite_none_right_eq_some, isQuic_iff rfl, Option.some_inj]
    exact ⟨⟨hlooks, hin⟩, hkey⟩

/-- A frame without the hook's place carries QUIC only behind extension headers. -/
theorem quicDatagram_of_place_none (hplace : place frame = none) :
    quicDatagram host frame ≠ none ↔ Extended host frame := by
  refine ⟨fun hsome => ?_, fun hext => hext.2.2⟩
  rw [place] at hplace
  by_cases h4 : be16 frame 12 = 0x0800
  · exfalso
    rw [if_pos h4] at hplace
    refine hsome ?_
    rw [quicDatagram, udpDatagram, if_pos h4, ipv4Datagram, if_neg]
    · rfl
    · rintro ⟨-, -, hihl, -, hproto⟩
      rw [if_pos ⟨hihl, hproto⟩] at hplace
      exact Option.some_ne_none _ hplace
  · rw [if_neg h4] at hplace
    by_cases h6 : be16 frame 12 = 0x86DD
    · refine ⟨h6, fun hudp => ?_, hsome⟩
      rw [if_pos ⟨h6, hudp⟩] at hplace
      exact Option.some_ne_none _ hplace
    · exfalso
      refine hsome ?_
      rw [quicDatagram, udpDatagram, if_neg h4, if_neg h6]
      rfl

theorem not_extended_of_place {p : UdpPlace} (hplace : place frame = some p) :
    ¬ Extended host frame := by
  rintro ⟨h6, hnext, -⟩
  have h4 : be16 frame 12 ≠ 0x0800 := by rw [h6]; decide
  rw [place, if_neg h4, if_neg fun hand => hnext hand.2] at hplace
  exact Option.some_ne_none p hplace.symm

end

end QuicFrames

/-! ### The hook -/

namespace QuicPlane

open QuicFrames

variable {n : ℕ} {host : ByteOrder}

/-- The bytes and packets counted for a key on a CPU. -/
def counts (p : QuicPlane n) (key : QuicFlowKey) (cpu : Fin n) : UInt64 × UInt64 :=
  ((p.quicFlows.lookup key).map fun perCPU => ((perCPU cpu).txBytes, (perCPU cpu).pktCount)).getD 0

/-- An entry that is written on one CPU. -/
theorem counts_insert {p : QuicPlane n} {key : QuicFlowKey} {cpu : Fin n} {m : QuicFlowMetrics}
    {perCPU : Fin n → QuicFlowMetrics} {added : UInt64 × UInt64}
    (hold : ∀ cpu', ((perCPU cpu').txBytes, (perCPU cpu').pktCount) = p.counts key cpu')
    (hm : (m.txBytes, m.pktCount) = p.counts key cpu + added) (key' : QuicFlowKey) (cpu' : Fin n) :
    counts { p with quicFlows := p.quicFlows.insert key (Function.update perCPU cpu m) } key' cpu'
      = p.counts key' cpu' + if key = key' ∧ cpu = cpu' then added else 0 := by
  rw [counts, FinMap.lookup_insert_ite]
  by_cases hkey : key' = key
  · rw [if_pos hkey, hkey]
    by_cases hcpu : cpu' = cpu
    · rw [if_pos ⟨rfl, hcpu.symm⟩, hcpu, Option.map_some, Function.update_self]
      exact hm
    · rw [if_neg fun hand => hcpu hand.2.symm, add_zero, Option.map_some,
        Function.update_of_ne hcpu]
      exact hold cpu'
  · rw [if_neg hkey, if_neg fun hand => hkey hand.1.symm, add_zero]
    rfl

/-- **A packet is added once**, under its key and on its CPU, unless its entry is refused. -/
theorem counts_record (p : QuicPlane n) {env : HookEnv n} (hok : env.insertOk = true)
    (pkt : QuicPacket) (key : QuicFlowKey) (cpu : Fin n) :
    (p.record env pkt).counts key cpu
      = p.counts key cpu + if pkt.key = key ∧ env.cpu = cpu then (pkt.pktBytes, 1) else 0 := by
  rw [record]
  cases hlookup : p.quicFlows.lookup pkt.key with
  | some perCPU =>
    have hold : ∀ cpu', ((perCPU cpu').txBytes, (perCPU cpu').pktCount) = p.counts pkt.key cpu' :=
      fun cpu' => by
        rw [counts, hlookup]
        rfl
    refine counts_insert hold ?_ key cpu
    rw [← hold]
    rfl
  | none =>
    have hzero : ∀ cpu', ((0 : UInt64), (0 : UInt64)) = p.counts pkt.key cpu' := fun cpu' => by
      rw [counts, hlookup]
      rfl
    dsimp only
    rw [if_pos hok]
    refine counts_insert hzero ?_ key cpu
    rw [← hzero]
    exact (zero_add _).symm

/-- The hook counts a frame once, under the key of the QUIC datagram it carries, and
nothing for a frame that carries none. -/
def RecordsQuic (host : ByteOrder) (p : QuicPlane n) (frame : List UInt8) : Prop :=
  ∀ env : HookEnv n, env.insertOk = true → ∀ key cpu,
    (p.quicEgress host env frame).counts key cpu = p.counts key cpu +
      if quicDatagram host frame = some key ∧ env.cpu = cpu then (.ofNat frame.length, 1) else 0

/-- The frame is what the hook takes it for: what looks like QUIC is genuine, and none
stands behind extension headers. -/
def Faithful (host : ByteOrder) (frame : List UInt8) : Prop :=
  (∀ q, place frame = some q → LooksQuic frame q.start → Genuine frame q.start) ∧
    ¬ Extended host frame

/-- The key under which the hook counts a frame, if it does. -/
def hookKey (host : ByteOrder) (frame : List UInt8) : Option QuicFlowKey :=
  (place frame).bind fun q =>
    if LooksQuic frame q.start then some (q.key host frame) else none

variable {p : QuicPlane n} {frame : List UInt8} {cfg : AgentConfig}

theorem recorded_eq (hcfg : p.kernel.getConfig = some cfg) (htx : cfg.udpSocketTx = false) :
    (p.recorded host frame).map (fun pkt => (pkt.key, pkt.pktBytes))
      = (hookKey host frame).map fun key => (key, .ofNat frame.length) := by
  rw [recorded, hcfg, Option.bind_some, htx, if_neg Bool.false_ne_true, parseQuic_place, hookKey]
  cases place frame with
  | none => rfl
  | some q =>
    rw [Option.bind_some, Option.bind_some]
    split_ifs <;> rfl

theorem counts_quicEgress (hcfg : p.kernel.getConfig = some cfg) (htx : cfg.udpSocketTx = false)
    {env : HookEnv n} (hok : env.insertOk = true) (key : QuicFlowKey) (cpu : Fin n) :
    (p.quicEgress host env frame).counts key cpu = p.counts key cpu +
      if hookKey host frame = some key ∧ env.cpu = cpu then (.ofNat frame.length, 1) else 0 := by
  have hrecorded := @recorded_eq n host p frame cfg hcfg htx
  rw [quicEgress_eq]
  cases hpkt : p.recorded host frame with
  | none =>
    rw [hpkt] at hrecorded
    have hnone : hookKey host frame = none := Option.map_eq_none_iff.mp hrecorded.symm
    rw [hnone, if_neg fun hand => Option.some_ne_none key hand.1.symm, add_zero]
    rfl
  | some pkt =>
    rw [hpkt] at hrecorded
    obtain ⟨key', hkey', hpair⟩ := Option.map_eq_some_iff.mp hrecorded.symm
    obtain ⟨rfl, hbytes⟩ := Prod.mk.inj hpair
    rw [Option.elim_some, counts_record p hok, hkey', ← hbytes]
    simp only [Option.some_inj]

/-- What the hook counts a frame under is what it carries exactly for faithful frames. -/
theorem hookKey_eq_iff : hookKey host frame = quicDatagram host frame ↔ Faithful host frame := by
  rw [hookKey, Faithful]
  cases hplace : place frame with
  | none =>
    have hext : quicDatagram host frame ≠ none ↔ Extended host frame :=
      quicDatagram_of_place_none hplace
    rw [← hext, not_not, Option.bind_none]
    constructor
    · exact fun hnone => ⟨fun q hq => absurd hq.symm (Option.some_ne_none q), hnone.symm⟩
    · exact fun hfaithful => hfaithful.2.symm
  | some q =>
    have hcarries := @quicDatagram_eq_some_iff host frame q hplace
    rw [Option.bind_some, and_iff_left (not_extended_of_place hplace), Option.ext_iff]
    simp only [hcarries, Option.ite_none_right_eq_some, Option.some_inj]
    constructor
    · rintro hsame q' rfl hlooks
      exact (((hsame _).mp ⟨hlooks, rfl⟩).1).2
    · intro hgenuine key
      exact and_congr_left' (iff_self_and.mpr (hgenuine q rfl))

/-- **Which frames are recorded as they should be**: the hook reads inside every frame, and
while it records it counts exactly the faithful ones for what they carry. -/
theorem recordsQuic_iff (host : ByteOrder) (p : QuicPlane (n + 1)) (frame : List UInt8)
    {cfg : AgentConfig} (hcfg : p.kernel.getConfig = some cfg) (htx : cfg.udpSocketTx = false) :
    parseQuic host frame ≠ none ∧ (p.RecordsQuic host frame ↔ Faithful host frame) := by
  constructor
  · obtain ⟨r, hr⟩ := parseQuic_isSome host frame
    rw [hr]
    exact Option.some_ne_none r
  rw [← hookKey_eq_iff]
  constructor
  · intro hrecords
    refine Option.ext fun key => ?_
    have hcount := hrecords { cpu := 0 } rfl key 0
    rw [counts_quicEgress hcfg htx rfl] at hcount
    have hadded := add_left_cancel hcount
    simp only [and_true] at hadded
    -- the packet itself is seen, whatever the length comes to
    have hone : ((.ofNat frame.length, 1) : UInt64 × UInt64) ≠ 0 := fun hzero => by
      have hcount : (1 : UInt64) = 0 := congrArg Prod.snd hzero
      exact absurd hcount (by decide)
    by_cases hhook : hookKey host frame = some key
    · rw [if_pos hhook] at hadded
      by_contra hnot
      rw [if_neg fun hq => hnot (iff_of_true hhook hq)] at hadded
      exact hone hadded
    · rw [if_neg hhook] at hadded
      by_contra hnot
      by_cases hq : quicDatagram host frame = some key
      · rw [if_pos hq] at hadded
        exact hone hadded.symm
      · exact hnot (iff_of_false hhook hq)
  · intro hsame env hok key cpu
    rw [counts_quicEgress hcfg htx hok, hsame]

/-- A kernel that has just begun to capture, without the socket path for UDP. -/
def capturing : QuicPlane 1 where
  kernel :=
    { agentConfig := ⟨true, false, 0, false⟩
      cookieToOriginalDst := ∅
      connections := ∅
      flowAggregates := ∅
      dropCounters := fun _ _ => 0
      events := []
      stateCBFlag := ∅ }
  quicFlows := ∅

/-- An IPv4 frame with 20 bytes that begin like a UDP header before a short QUIC header, at
this place of their packet. -/
def ipv4Frame (fragment : UInt8) : List UInt8 :=
  List.replicate 12 0 ++ [0x08, 0x00, 0x45, 0, 0, 40, 0, 1, 0, fragment, 64, 17, 0, 0,
    10, 0, 0, 1, 10, 0, 0, 2, 0xC0, 0, 1, 0xBB, 0, 20, 0, 0,
    0x40, 1, 2, 3, 4, 5, 6, 7, 8, 9, 10, 11]

/-- At the front of the packet they are a datagram, which is counted. -/
theorem packet_recorded : capturing.RecordsQuic .little (ipv4Frame 0) := by
  refine (recordsQuic_iff .little capturing (ipv4Frame 0) rfl rfl).2.mpr ⟨fun q hq _ => ?_, ?_⟩
  · have hplace : place (ipv4Frame 0) = some ⟨26, 30, 34⟩ := by decide +kernel
    obtain rfl := Option.some.inj (hplace.symm.trans hq)
    have hfirst : FirstOfVersion (ipv4Frame 0) :=
      (if_pos (by decide +kernel)).mpr (by decide +kernel)
    exact ⟨hfirst, by decide +kernel, fun hlong => absurd hlong (by decide +kernel)⟩
  · exact fun hext => absurd hext.1 (by decide +kernel)

/-- In a later fragment there is no UDP header, and they are counted too. -/
theorem fragment_recorded :
    udpDatagram (ipv4Frame 185) = none ∧ ¬ capturing.RecordsQuic .little (ipv4Frame 185) := by
  refine ⟨by decide +kernel, fun hrecords => ?_⟩
  have hcount := hrecords { cpu := 0 } rfl
    { srcIP := 0x0100000A, dstIP := 0x0200000A, srcPort := 0xC000, dstPort := 443 } 0
  exact absurd hcount (by decide +kernel)

end QuicPlane
