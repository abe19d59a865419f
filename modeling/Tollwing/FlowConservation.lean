/-
Conservation from the kernel to the poller.

What the books of the data path say about bytes.  The totals of one transport
protocol, over the snapshots taken so far, over the entries still in
`flow_aggregates` and over the insertions the kernel refused, add up to what
was recorded, in machine words and, below 2^64, in natural numbers.

* `Capture.totals` — that balance, with the missed charges on its own side;
* `Capture.handsOn` — a poll ends by handing on its batch;
* `Capture.tcp_bytes_conserved` — the bytes of the TCP send and receive hooks
  are never missed;
* `Capture.update_only_hooks_conserve` — neither are those of the UDP receive
  hook and of the retransmission hooks in runs where these find their entry;
* `Capture.update_only_hooks_lose` — a run where they do not.
-/
import Mathlib.Algebra.Order.BigOperators.Group.List
import Mathlib.Algebra.Order.Ring.Nat
import Tollwing.FlowLedger

namespace Capture

variable (host : ByteOrder) {n : ℕ}

/-! ### Totals of one protocol -/

/-- A counter over the snapshots of one protocol. -/
def snapshotTotal (s : Capture n) (protocol : UInt8) (ctr : Counter) : UInt64 :=
  (s.snapshots.map fun snap => if snap.protocol = protocol then snap.amount ctr else 0).sum

/-- A counter over the delivered snapshots of one protocol. -/
def deliveredTotal (s : Capture n) (protocol : UInt8) (ctr : Counter) : UInt64 :=
  (s.delivered.map fun snap => if snap.protocol = protocol then snap.amount ctr else 0).sum

/-- A counter over the aggregate entries of one protocol. -/
def residentTotal (s : Capture n) (protocol : UInt8) (ctr : Counter) : UInt64 :=
  s.kernel.flowAggregates.sum fun key perCPU =>
    if key.protocol = protocol then perCPUAmount perCPU ctr else 0

/-- A counter over the charges of one protocol. -/
def chargeTotal (cs : Multiset Charge) (protocol : UInt8) (ctr : Counter) : UInt64 :=
  Ledger.total (fun c : Charge => if c.key.protocol = protocol then c.amount ctr else 0) cs

/-- The same totals in natural numbers. -/
def snapshotTotalNat (s : Capture n) (protocol : UInt8) (ctr : Counter) : ℕ :=
  (s.snapshots.map fun snap => if snap.protocol = protocol then (snap.amount ctr).toNat else 0).sum

def deliveredTotalNat (s : Capture n) (protocol : UInt8) (ctr : Counter) : ℕ :=
  (s.delivered.map fun snap => if snap.protocol = protocol then (snap.amount ctr).toNat else 0).sum

def residentTotalNat (s : Capture n) (protocol : UInt8) (ctr : Counter) : ℕ :=
  s.kernel.flowAggregates.sum fun key perCPU =>
    if key.protocol = protocol then (perCPUAmount perCPU ctr).toNat else 0

def chargeTotalNat (cs : Multiset Charge) (protocol : UInt8) (ctr : Counter) : ℕ :=
  Ledger.total (fun c : Charge => if c.key.protocol = protocol then (c.amount ctr).toNat else 0) cs

variable {host} {cfg : AgentConfig} {run : List (CaptureStep n)} {L : Ledger FlowKey Charge}

/-- What the capture shows of a ledger: an amount of every entry and snapshot. -/
theorem IsLedger.sum_shown {M : Type*} [AddCommMonoid M] (h : IsLedger host cfg run L)
    (F : FlowKey → Amount → M) :
    L.accounts.sum (fun key cs => F key (Ledger.total Charge.amount cs))
        + (L.statements.map fun st => F st.1 (Ledger.total Charge.amount st.2)).sum
      = (exec host cfg run).kernel.flowAggregates.sum
            (fun key perCPU => F key (perCPUAmount perCPU))
        + ((exec host cfg run).snapshots.map fun snap => F snap.flowKey snap.amount).sum := by
  have hbalance := congrArg Book.balance h.book
  have hstatements : L.statements.map (fun st => (st.1, Ledger.total Charge.amount st.2))
      = (exec host cfg run).snapshots.map fun snap => (snap.flowKey, snap.amount) :=
    congrArg Book.statements h.book
  congr 1
  · exact FinMap.sum_eq_of_lookup_map (fun key => congrFun hbalance key) F
  · have hmap := congrArg (fun l => (l.map fun st => F st.1 st.2).sum) hstatements
    simpa only [List.map_map, Function.comp_def] using hmap

theorem total_apply (cs : Multiset Charge) (ctr : Counter) :
    Ledger.total Charge.amount cs ctr = Ledger.total (fun c : Charge => c.amount ctr) cs := by
  induction cs using Multiset.induction_on with
  | empty => rfl
  | cons c cs ih =>
    rw [← Multiset.singleton_add, Ledger.total_add, Ledger.total_add, Pi.add_apply, ih,
      Ledger.total_singleton, Ledger.total_singleton]

/-- **The balance of a protocol**, in machine words. -/
theorem IsLedger.totals (h : IsLedger host cfg run L) (protocol : UInt8) (ctr : Counter) :
    (exec host cfg run).snapshotTotal protocol ctr + (exec host cfg run).residentTotal protocol ctr
        + chargeTotal L.refused protocol ctr + chargeTotal L.missed protocol ctr
      = chargeTotal (recorded host cfg run) protocol ctr := by
  have hall := Ledger.sum_all_of_filed (fun c : Charge => c.amount ctr) h.filed
    fun key => key.protocol = protocol
  have hshown := h.sum_shown fun key a => if key.protocol = protocol then a ctr else 0
  simp only [total_apply] at hshown
  rw [hshown] at hall
  rw [← h.all, add_comm (snapshotTotal _ _ _)]
  exact hall.symm

/-- Machine words add up as natural numbers do while these stay below 2^64. -/
theorem toNat_total (amount : Charge → UInt64) (cs : Multiset Charge) :
    Ledger.total (fun c => (amount c).toNat) cs < 2 ^ 64 →
      (Ledger.total amount cs).toNat = Ledger.total (fun c => (amount c).toNat) cs := by
  induction cs using Multiset.induction_on with
  | empty => exact fun _ => rfl
  | cons c cs ih =>
    rw [← Multiset.singleton_add, Ledger.total_add, Ledger.total_add, Ledger.total_singleton,
      Ledger.total_singleton]
    intro hlt
    rw [UInt64.toNat_add, ih (by omega)]
    exact Nat.mod_eq_of_lt hlt

/-- What is shown of some charges is their amount in natural numbers, while
this stays below 2^64. -/
theorem shown_eq_total {key : FlowKey} {protocol : UInt8} {ctr : Counter} {cs : Multiset Charge}
    (hlt : (if key.protocol = protocol then
      Ledger.total (fun c : Charge => (c.amount ctr).toNat) cs else 0) < 2 ^ 64) :
    (if key.protocol = protocol then (Ledger.total Charge.amount cs ctr).toNat else 0)
      = if key.protocol = protocol then
          Ledger.total (fun c : Charge => (c.amount ctr).toNat) cs else 0 := by
  by_cases hkey : key.protocol = protocol
  · rw [if_pos hkey] at hlt
    rw [if_pos hkey, if_pos hkey, total_apply, toNat_total _ _ hlt]
  · rw [if_neg hkey, if_neg hkey]

/-- **The balance of a protocol**, in natural numbers, while what was recorded
stays below 2^64. -/
theorem IsLedger.totalsNat (h : IsLedger host cfg run L) {protocol : UInt8} {ctr : Counter}
    (hlt : chargeTotalNat (recorded host cfg run) protocol ctr < 2 ^ 64) :
    (exec host cfg run).snapshotTotalNat protocol ctr
        + (exec host cfg run).residentTotalNat protocol ctr
        + chargeTotalNat L.refused protocol ctr + chargeTotalNat L.missed protocol ctr
      = chargeTotalNat (recorded host cfg run) protocol ctr := by
  have hall := Ledger.sum_all_of_filed (fun c : Charge => (c.amount ctr).toNat) h.filed
    fun key => key.protocol = protocol
  rw [h.all] at hall
  unfold chargeTotalNat at hlt
  have hshown := h.sum_shown fun key a => if key.protocol = protocol then (a ctr).toNat else 0
  -- every account and every statement is a part of what was recorded
  have hacc : L.accounts.sum (fun key cs =>
        if key.protocol = protocol then (Ledger.total Charge.amount cs ctr).toNat else 0)
      = L.accounts.sum fun key cs => if key.protocol = protocol then
          Ledger.total (fun c : Charge => (c.amount ctr).toNat) cs else 0 := by
    refine FinMap.sum_congr fun key cs hcs => shown_eq_total ?_
    have hle := FinMap.le_sum hcs fun key cs => if key.protocol = protocol then
      Ledger.total (fun c : Charge => (c.amount ctr).toNat) cs else 0
    omega
  have hstmt : (L.statements.map fun st =>
        if st.1.protocol = protocol then (Ledger.total Charge.amount st.2 ctr).toNat else 0)
      = L.statements.map fun st => if st.1.protocol = protocol then
          Ledger.total (fun c : Charge => (c.amount ctr).toNat) st.2 else 0 := by
    refine List.map_congr_left fun st hst => shown_eq_total ?_
    have hle := List.le_sum_of_mem (List.mem_map_of_mem
      (f := fun st : FlowKey × Multiset Charge => if st.1.protocol = protocol then
        Ledger.total (fun c : Charge => (c.amount ctr).toNat) st.2 else 0) hst)
    omega
  rw [hacc, hstmt] at hshown
  rw [hshown] at hall
  rw [add_comm (snapshotTotalNat _ _ _)]
  exact hall.symm

/-! ### Handing on -/

/-- What the end of a poll does: its batch joins what was delivered, and is empty then. -/
structure HandsOn (host : ByteOrder) (cfg : AgentConfig) (run : List (CaptureStep n)) : Prop where
  flows : (exec host cfg (run ++ [.deliver])).flows = []
  delivered : (exec host cfg (run ++ [.deliver])).delivered
    = (exec host cfg run).delivered ++ (exec host cfg run).flows
  kernel : (exec host cfg (run ++ [.deliver])).kernel = (exec host cfg run).kernel
  recorded : recorded host cfg (run ++ [.deliver]) = recorded host cfg run

variable (host cfg run) in
theorem handsOn : HandsOn host cfg run := by
  have hexec : exec host cfg (run ++ [.deliver]) = (exec host cfg run).step host .deliver :=
    List.foldl_append
  refine ⟨by rw [hexec]; rfl, by rw [hexec]; rfl, by rw [hexec]; rfl, ?_⟩
  rw [recorded, recordedFrom_eq, Bookkeeping.chargesFrom_append, ← recordedFrom_eq]
  exact List.append_nil _

/-- Between two polls the delivered snapshots are all that were taken. -/
theorem snapshotTotal_of_idle {s : Capture n} (h : s.flows = []) (protocol : UInt8)
    (ctr : Counter) : s.snapshotTotal protocol ctr = s.deliveredTotal protocol ctr ∧
      s.snapshotTotalNat protocol ctr = s.deliveredTotalNat protocol ctr := by
  rw [snapshotTotal, snapshotTotalNat, snapshots, h, List.append_nil]
  exact ⟨rfl, rfl⟩

/-! ### Drops -/

theorem nsmul_one_eq_ofNat (m : ℕ) : m • (1 : UInt64) = UInt64.ofNat m := by
  induction m with
  | zero => rfl
  | succ m ih =>
    rw [succ_nsmul, ih, UInt64.ofNat_add]
    rfl

/-- The drop counter counts the refused charges and the refused seeds. -/
theorem IsLedger.dropTotal (h : IsLedger host cfg run L) :
    (exec host cfg run).kernel.dropTotal .flowAggregates
      = UInt64.ofNat (L.refused.card + L.rejected) := by
  have hrefusals : (L.refused.card + L.rejected) • (1 : UInt64)
      = (exec host cfg run).kernel.dropTotal .flowAggregates :=
    congrArg Book.refusals h.book
  rw [← hrefusals, nsmul_one_eq_ofNat]

theorem IsLedger.nodup (h : IsLedger host cfg run L) : L.all.Nodup := by
  rw [h.all]
  exact Multiset.coe_nodup.mpr (nodup_recorded host cfg run)

theorem IsLedger.sound (h : IsLedger host cfg run L) {c : Charge} (hc : c ∈ L.all) :
    c.Sound host := by
  rw [h.all] at hc
  exact sound_of_mem_recorded host (Multiset.mem_coe.mp hc)

theorem IsLedger.sound_refused (h : IsLedger host cfg run L) :
    ∀ c ∈ L.refused, c.Sound host := by
  refine fun c hc => h.sound ?_
  rw [Ledger.all]
  exact Multiset.mem_add.mpr (Or.inl (Multiset.mem_add.mpr (Or.inr hc)))

theorem IsLedger.sound_missed (h : IsLedger host cfg run L) :
    ∀ c ∈ L.missed, c.Sound host := by
  refine fun c hc => h.sound ?_
  rw [Ledger.all]
  exact Multiset.mem_add.mpr (Or.inr hc)

theorem IsLedger.sound_recorded (h : IsLedger host cfg run L) :
    ∀ c ∈ (recorded host cfg run : Multiset Charge), c.Sound host := by
  refine fun c hc => h.sound ?_
  rwa [h.all]

end Capture

/-! ### TCP bytes -/

/-- The hooks that count TCP bytes. -/
def Hook.isTCPBytes : Hook → Bool
  | .tcpSendmsg _ _ | .tcpCleanupRbuf _ _ => true
  | .tcpSendmsgFentry _ _ | .tcpCleanupRbufFentry _ _ => true
  | _ => false

/-- A delta that `update_flow_aggregate` records for a TCP connection. -/
def Charge.isTCPBytes (c : Charge) : Bool := c.hook.isTCPBytes && c.key.protocol == ipprotoTCP

/-- The other byte hooks count UDP connections only, or no sent or received
bytes. -/
theorem Hook.counting_of_not_tcp {host : ByteOrder} {h : Hook} {cnt : Counting}
    (hcnt : h.counting host = some cnt) (hh : h.isTCPBytes = false) :
    (∀ conn, cnt.counted conn = true → conn.protocol = ipprotoUDP) ∨
      (cnt.amount .tx = 0 ∧ cnt.amount .rx = 0) := by
  cases h with
  | tcpSendmsg cookie parm3 => cases hh
  | tcpCleanupRbuf cookie parm2 => cases hh
  | tcpSendmsgFentry cookie size => cases hh
  | tcpCleanupRbufFentry cookie copied => cases hh
  | udpSendmsg cookie len =>
    obtain rfl := eq_of_guarded hcnt
    exact Or.inl fun conn hc => eq_of_beq hc
  | udpRecvmsgExit cookie ret =>
    obtain rfl := eq_of_guarded hcnt
    exact Or.inl fun conn hc => eq_of_beq hc
  | tcpRetransmit cookie skbLen =>
    obtain rfl := eq_of_guarded hcnt
    exact Or.inr ⟨rfl, rfl⟩
  | tcpLossProbe cookie mssCache =>
    cases hcnt
    exact Or.inr ⟨rfl, rfl⟩
  | connect4 ctx => cases hcnt
  | connect6 ctx => cases hcnt
  | sockops skops => cases hcnt
  | sockRelease cookie protocol => cases hcnt

/-- A TCP byte hook creates a missing entry. -/
theorem Hook.creates_of_isTCPBytes {host : ByteOrder} {h : Hook} (hh : h.isTCPBytes = true) :
    h.creates host = true := by
  rw [Hook.creates]
  cases h <;> first
    | simp only [Hook.counting]
      split_ifs <;> rfl
    | cases hh

/-- A hook that leaves missing entries alone records no TCP byte charge. -/
theorem Charge.isTCPBytes_of_creates {host : ByteOrder} {c : Charge}
    (h : c.hook.creates host = false) : c.isTCPBytes = false := by
  by_contra htcp
  have hhook : c.hook.isTCPBytes = true := by
    rw [Bool.not_eq_false, Charge.isTCPBytes, Bool.and_eq_true] at htcp
    exact htcp.1
  rw [Hook.creates_of_isTCPBytes hhook] at h
  cases h

/-- Among the charges to TCP flows only the TCP byte hooks carry sent or
received bytes. -/
theorem Charge.Sound.tcp_amount {host : ByteOrder} {c : Charge} (hc : c.Sound host) {ctr : Counter}
    (hctr : ctr = .tx ∨ ctr = .rx) :
    (if c.key.protocol = ipprotoTCP then c.amount ctr else 0)
      = if c.isTCPBytes then c.amount ctr else 0 := by
  by_cases hkey : c.key.protocol = ipprotoTCP
  · obtain ⟨cnt, conn, hcnt, hamount, hcounted, hconn⟩ := hc
    rw [if_pos hkey]
    by_cases hhook : c.hook.isTCPBytes
    · rw [if_pos (by simp [Charge.isTCPBytes, hhook, hkey])]
    · rw [if_neg (by simp [Charge.isTCPBytes, hhook]), hamount]
      rcases Hook.counting_of_not_tcp hcnt (by simpa using hhook) with hudp | ⟨htx, hrx⟩
      · -- a UDP connection has no TCP flow
        have hproto : conn.protocol = ipprotoTCP := by rw [← hkey, hconn]; rfl
        rw [hudp conn hcounted] at hproto
        cases hproto
      · rcases hctr with rfl | rfl
        · exact htx
        · exact hrx
  · rw [if_neg hkey, if_neg (by simp [Charge.isTCPBytes, hkey])]

namespace Capture

variable (host : ByteOrder) {n : ℕ} (cfg : AgentConfig) (run : List (CaptureStep n))

/-- A counter over the TCP byte charges. -/
def tcpTotal (cs : Multiset Charge) (ctr : Counter) : UInt64 :=
  Ledger.total (fun c : Charge => if c.isTCPBytes then c.amount ctr else 0) cs

def tcpTotalNat (cs : Multiset Charge) (ctr : Counter) : ℕ :=
  Ledger.total (fun c : Charge => if c.isTCPBytes then (c.amount ctr).toNat else 0) cs

variable {host cfg run} {L : Ledger FlowKey Charge}

theorem IsLedger.tcpTotal_eq {cs : Multiset Charge} (hcs : ∀ c ∈ cs, c.Sound host)
    {ctr : Counter} (hctr : ctr = .tx ∨ ctr = .rx) :
    chargeTotal cs ipprotoTCP ctr = tcpTotal cs ctr :=
  Ledger.total_congr fun c hc => (hcs c hc).tcp_amount hctr

theorem IsLedger.tcpTotalNat_eq {cs : Multiset Charge} (hcs : ∀ c ∈ cs, c.Sound host)
    {ctr : Counter} (hctr : ctr = .tx ∨ ctr = .rx) :
    chargeTotalNat cs ipprotoTCP ctr = tcpTotalNat cs ctr := by
  refine Ledger.total_congr fun c hc => ?_
  have h := congrArg UInt64.toNat ((hcs c hc).tcp_amount hctr)
  split_ifs at h ⊢ <;> exact h

/-- Charges none of which is a TCP byte charge carry no TCP bytes. -/
theorem tcpTotal_eq_zero {cs : Multiset Charge} (h : ∀ c ∈ cs, c.isTCPBytes = false)
    (ctr : Counter) : tcpTotal cs ctr = 0 ∧ tcpTotalNat cs ctr = 0 := by
  constructor
  · refine Multiset.sum_eq_zero fun x hx => ?_
    obtain ⟨c, hc, rfl⟩ := Multiset.mem_map.mp hx
    simp [h c hc]
  · refine Multiset.sum_eq_zero fun x hx => ?_
    obtain ⟨c, hc, rfl⟩ := Multiset.mem_map.mp hx
    simp [h c hc]

variable (host cfg run)

/-- **TCP bytes are conserved from the kernel to the poller.**  Every run has a
ledger that files each recorded delta exactly once, with the snapshot, the
aggregate entry or the refused insertions it ended up in; no delta of a TCP
byte hook is missed.  So what the snapshots and the entries of TCP flows show,
with what was refused, is what was recorded, and the drop counter counts the
refusals.  A poll ends by handing on its batch, and between two polls the
snapshots are those delivered. -/
theorem tcp_bytes_conserved :
    ∃ L : Ledger FlowKey Charge, IsLedger host cfg run L ∧ L.all.Nodup ∧
      (∀ c ∈ L.missed, c.isTCPBytes = false) ∧
      (∀ ctr, ctr = .tx ∨ ctr = .rx →
        (exec host cfg run).snapshotTotal ipprotoTCP ctr
            + (exec host cfg run).residentTotal ipprotoTCP ctr + tcpTotal L.refused ctr
          = tcpTotal (recorded host cfg run) ctr) ∧
      (∀ ctr, ctr = .tx ∨ ctr = .rx → tcpTotalNat (recorded host cfg run) ctr < 2 ^ 64 →
        (exec host cfg run).snapshotTotalNat ipprotoTCP ctr
            + (exec host cfg run).residentTotalNat ipprotoTCP ctr + tcpTotalNat L.refused ctr
          = tcpTotalNat (recorded host cfg run) ctr) ∧
      (exec host cfg run).kernel.dropTotal .flowAggregates
        = UInt64.ofNat (L.refused.card + L.rejected) ∧
      HandsOn host cfg run ∧
      ((exec host cfg run).flows = [] → ∀ ctr, ctr = .tx ∨ ctr = .rx →
        (exec host cfg run).deliveredTotal ipprotoTCP ctr
            + (exec host cfg run).residentTotal ipprotoTCP ctr + tcpTotal L.refused ctr
          = tcpTotal (recorded host cfg run) ctr ∧
        (tcpTotalNat (recorded host cfg run) ctr < 2 ^ 64 →
          (exec host cfg run).deliveredTotalNat ipprotoTCP ctr
              + (exec host cfg run).residentTotalNat ipprotoTCP ctr + tcpTotalNat L.refused ctr
            = tcpTotalNat (recorded host cfg run) ctr)) := by
  obtain ⟨L, hL, hmissed, -⟩ := exists_ledger host cfg run
  have hmissed_tcp : ∀ c ∈ L.missed, c.isTCPBytes = false := fun c hc =>
    Charge.isTCPBytes_of_creates (hmissed c hc)
  have hwords : ∀ ctr, ctr = .tx ∨ ctr = .rx →
      (exec host cfg run).snapshotTotal ipprotoTCP ctr
          + (exec host cfg run).residentTotal ipprotoTCP ctr + tcpTotal L.refused ctr
        = tcpTotal (recorded host cfg run) ctr := by
    intro ctr hctr
    have htotals := hL.totals ipprotoTCP ctr
    -- a charge to a TCP flow counts bytes exactly if it is a TCP byte charge
    rwa [IsLedger.tcpTotal_eq hL.sound_refused hctr, IsLedger.tcpTotal_eq hL.sound_recorded hctr,
      IsLedger.tcpTotal_eq hL.sound_missed hctr, (tcpTotal_eq_zero hmissed_tcp ctr).1,
      add_zero] at htotals
  have hnumbers : ∀ ctr, ctr = .tx ∨ ctr = .rx →
      tcpTotalNat (recorded host cfg run) ctr < 2 ^ 64 →
        (exec host cfg run).snapshotTotalNat ipprotoTCP ctr
            + (exec host cfg run).residentTotalNat ipprotoTCP ctr + tcpTotalNat L.refused ctr
          = tcpTotalNat (recorded host cfg run) ctr := by
    intro ctr hctr hlt
    rw [← IsLedger.tcpTotalNat_eq hL.sound_recorded hctr] at hlt
    have htotals := hL.totalsNat hlt
    rwa [IsLedger.tcpTotalNat_eq hL.sound_refused hctr,
      IsLedger.tcpTotalNat_eq hL.sound_recorded hctr,
      IsLedger.tcpTotalNat_eq hL.sound_missed hctr, (tcpTotal_eq_zero hmissed_tcp ctr).2,
      add_zero] at htotals
  refine ⟨L, hL, hL.nodup, hmissed_tcp, hwords, hnumbers, hL.dropTotal, handsOn host cfg run,
    fun hidle ctr hctr => ?_⟩
  obtain ⟨hword, hnumber⟩ := snapshotTotal_of_idle hidle ipprotoTCP ctr
  rw [← hword, ← hnumber]
  exact ⟨hwords ctr hctr, hnumbers ctr hctr⟩

/-! ### The hooks that leave a missing entry alone -/

/-- **In a run whose receive and retransmission hooks always find their entry,
every counted byte is conserved.**  Each recorded charge, of any hook, sits in
exactly one snapshot, in an aggregate entry, or among the counted refusals, and
for every protocol and counter the totals add up; between two polls the
snapshots are those delivered. -/
theorem update_only_hooks_conserve (h : EntriesPresent host cfg run) :
    ∃ L : Ledger FlowKey Charge, IsLedger host cfg run L ∧ L.all.Nodup ∧ L.missed = 0 ∧
      (∀ protocol ctr,
        (exec host cfg run).snapshotTotal protocol ctr
            + (exec host cfg run).residentTotal protocol ctr + chargeTotal L.refused protocol ctr
          = chargeTotal (recorded host cfg run) protocol ctr) ∧
      (∀ protocol ctr, chargeTotalNat (recorded host cfg run) protocol ctr < 2 ^ 64 →
        (exec host cfg run).snapshotTotalNat protocol ctr
            + (exec host cfg run).residentTotalNat protocol ctr
            + chargeTotalNat L.refused protocol ctr
          = chargeTotalNat (recorded host cfg run) protocol ctr) ∧
      (exec host cfg run).kernel.dropTotal .flowAggregates
        = UInt64.ofNat (L.refused.card + L.rejected) ∧
      HandsOn host cfg run ∧
      ((exec host cfg run).flows = [] → ∀ protocol ctr,
        (exec host cfg run).deliveredTotal protocol ctr
            + (exec host cfg run).residentTotal protocol ctr + chargeTotal L.refused protocol ctr
          = chargeTotal (recorded host cfg run) protocol ctr ∧
        (chargeTotalNat (recorded host cfg run) protocol ctr < 2 ^ 64 →
          (exec host cfg run).deliveredTotalNat protocol ctr
              + (exec host cfg run).residentTotalNat protocol ctr
              + chargeTotalNat L.refused protocol ctr
            = chargeTotalNat (recorded host cfg run) protocol ctr)) := by
  obtain ⟨L, hL, -, hpresent⟩ := exists_ledger host cfg run
  have hmissed := hpresent h
  have hwords : ∀ protocol ctr,
      (exec host cfg run).snapshotTotal protocol ctr
          + (exec host cfg run).residentTotal protocol ctr + chargeTotal L.refused protocol ctr
        = chargeTotal (recorded host cfg run) protocol ctr := by
    intro protocol ctr
    have htotals := hL.totals protocol ctr
    have hzero : chargeTotal L.missed protocol ctr = 0 := by rw [hmissed]; rfl
    rwa [hzero, add_zero] at htotals
  have hnumbers : ∀ protocol ctr, chargeTotalNat (recorded host cfg run) protocol ctr < 2 ^ 64 →
      (exec host cfg run).snapshotTotalNat protocol ctr
          + (exec host cfg run).residentTotalNat protocol ctr
          + chargeTotalNat L.refused protocol ctr
        = chargeTotalNat (recorded host cfg run) protocol ctr := by
    intro protocol ctr hlt
    have htotals := hL.totalsNat hlt
    have hzero : chargeTotalNat L.missed protocol ctr = 0 := by rw [hmissed]; rfl
    rwa [hzero, add_zero] at htotals
  refine ⟨L, hL, hL.nodup, hmissed, hwords, hnumbers, hL.dropTotal, handsOn host cfg run,
    fun hidle protocol ctr => ?_⟩
  obtain ⟨hword, hnumber⟩ := snapshotTotal_of_idle hidle protocol ctr
  rw [← hword, ← hnumber]
  exact ⟨hwords protocol ctr, hnumbers protocol ctr⟩

/-- And only then: a step that does not find its entry records a charge that
changes neither entries nor snapshots nor the drop count. -/
theorem silent_loss {s : Capture n} {e : CaptureStep n} (h : s.entryPresent host e = false)
    (i : ℕ) : s.charge host i e ≠ [] ∧ (s.step host e).book = s.book := by
  cases e with
  | hook env hk =>
    rw [entryPresent] at h
    cases hcnt : hk.counting host with
    | none =>
      rw [hcnt] at h
      cases h
    | some cnt =>
      rw [hcnt] at h
      obtain ⟨hcreates, hall⟩ := Bool.or_eq_false_iff.mp h
      cases hconn : s.kernel.tracked cnt with
      | none =>
        rw [hconn] at hall
        cases hall
      | some conn =>
        rw [hconn] at hall
        have habsent : (s.kernel.flowAggregates.lookup conn.flowKey).isSome = false := hall
        have hposting : s.kernel.posting env conn.flowKey cnt.creates = .missed := by
          rw [Kernel.posting, if_neg (by simp [habsent]), if_pos hcreates]
        constructor
        · rw [charge, Kernel.charge, hcnt, Option.bind_some, hconn]
          exact List.cons_ne_nil _ _
        · have hbook := book_counting s.kernel env hcnt hconn
            (s.snapshots.map fun snap => (snap.flowKey, snap.amount))
          rw [hposting] at hbook
          exact hbook
  | _ => cases h

/-- A configuration that tracks every connection, UDP included. -/
def trackAll : AgentConfig :=
  { enabled := true, trackUDP := true, sampleRate := 1, udpSocketTx := true }

/-- What a hook finds on a host with one CPU. -/
def onOneCPU : HookEnv 1 := { cpu := 0 }

/-- A UDP socket connects to 10.0.0.1:53. -/
def udpConnect : CaptureStep 1 :=
  .hook { cpu := 0 }
    (.connect4 { cookie := 7, protocol := ipprotoUDP, userIP4 := 0x0100000a, userPort := 0x3500 })

/-- The flow of that socket. -/
def udpFlow : FlowKey :=
  { srcIP := 0, dstIP := 0x0100000a, srcPort := 0, dstPort := 53, pid := 0, protocol := ipprotoUDP,
    direction := 0 }

/-- Connect, send 40 bytes, receive 100, and be polled: the receive hook finds
the entry the send made. -/
def udpExchange : List (CaptureStep 1) :=
  [udpConnect, .hook { cpu := 0 } (.udpSendmsg 7 40), .hook { cpu := 0 } (.udpRecvmsgExit 7 100),
    .take udpFlow, .deliver]

theorem update_only_hooks_conserve_udpExchange :
    (recorded .little trackAll udpExchange).map (fun c => c.amount .rx) = [0, 100] ∧
    ∃ L : Ledger FlowKey Charge, IsLedger .little trackAll udpExchange L ∧ L.missed = 0 := by
  refine ⟨by decide, ?_⟩
  obtain ⟨L, hL, -, hmissed, -⟩ :=
    update_only_hooks_conserve .little trackAll udpExchange (by decide)
  exact ⟨L, hL, hmissed⟩

/-- A TCP connection is accepted from 10.0.0.2:443 on 10.0.0.1:40000. -/
def tcpAccept : CaptureStep 1 :=
  .hook { cpu := 0 } (.sockops
    { cookie := 9
      op := .passiveEstablished
      family := afInet
      localIP4 := 0x0100000a
      remoteIP4 := 0x0200000a
      localPort := 40000
      remotePort := 0xbb010000 })

/-- The flow of that connection. -/
def tcpFlow : FlowKey :=
  { srcIP := 0x0100000a, dstIP := 0x0200000a, srcPort := 40000, dstPort := 443, pid := 0,
    protocol := ipprotoTCP, direction := 1 }

/-- **Received and retransmitted bytes get lost.**  A UDP socket that receives
before its first send, one that receives after a poll took its entry, and a TCP
connection that retransmits after a poll: the bytes are recorded, and no
snapshot, no entry and no drop tells of them. -/
theorem update_only_hooks_lose :
    (∀ run ∈ [
      [udpConnect, .hook { cpu := 0 } (.udpRecvmsgExit 7 100)],
      [udpConnect, .hook { cpu := 0 } (.udpSendmsg 7 40), .take udpFlow, .deliver,
        .hook { cpu := 0 } (.udpRecvmsgExit 7 100)]],
      ((recorded .little trackAll run).map fun c => c.amount .rx).sum = 100 ∧
      ((exec .little trackAll run).kernel.connections.lookup 7).map (fun conn => conn.rxBytes)
        = some 100 ∧
      (exec .little trackAll run).snapshotTotal ipprotoUDP .rx = 0 ∧
      (exec .little trackAll run).kernel.flowAggregates.keys = ∅ ∧
      (exec .little trackAll run).kernel.dropTotal .flowAggregates = 0) ∧
    ∀ run ∈ [[tcpAccept, .take tcpFlow, .deliver, .hook { cpu := 0 } (.tcpRetransmit 9 1460)]],
      (exec .little trackAll run).delivered.map FlowSnapshot.flowKey = [tcpFlow] ∧
      ((exec .little trackAll run).kernel.connections.lookup 9).map
        (fun conn => conn.retransmitBytes) = some 1460 ∧
      (exec .little trackAll run).snapshotTotal ipprotoTCP .retransmitBytes = 0 ∧
      (exec .little trackAll run).kernel.flowAggregates.keys = ∅ ∧
      (exec .little trackAll run).kernel.dropTotal .flowAggregates = 0 := by
  decide

end Capture
