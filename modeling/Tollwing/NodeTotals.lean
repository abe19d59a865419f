/-
The bytes of the node agent's books.

* `NodeAgent.rxBytes_quicSnapshots` — a QUIC snapshot has sent bytes only;
* `NodeAgent.IsLedgers.balanced` — after any run, the bytes of all charges are those of the
  snapshots, of the entries in the maps, and of the charges that were refused or missed.
-/
import Tollwing.UdpOwner

/-- The bytes of an amount. -/
def Amount.bytes (a : Amount) : UInt64 := a .tx + a .rx

/-- The bytes of a snapshot, as the handler adds them up. -/
def FlowSnapshot.bytes (snap : FlowSnapshot) : UInt64 := snap.txBytes + snap.rxBytes

def Charge.bytes (c : Charge) : UInt64 := c.amount.bytes

theorem Amount.bytes_add (a b : Amount) : (a + b).bytes = a.bytes + b.bytes :=
  add_add_add_comm _ _ _ _

/-- The bytes of some charges are the bytes of what they amount to. -/
theorem bytes_total (cs : Multiset Charge) :
    (Ledger.total Charge.amount cs).bytes = Ledger.total Charge.bytes cs := by
  induction cs using Multiset.induction_on with
  | empty => rfl
  | cons c cs ih =>
    rw [← Multiset.singleton_add, Ledger.total_add, Ledger.total_add, Amount.bytes_add, ih,
      Ledger.total_singleton, Ledger.total_singleton]
    rfl

/-! ### QUIC snapshots -/

theorem rxBytes_quicSnapshot {n : ℕ} (key : QuicFlowKey) (perCPU : Fin n → QuicFlowMetrics) :
    (quicSnapshot key perCPU).rxBytes = 0 := by
  have hloop : ∀ (is : List (Fin n)) (snap : FlowSnapshot), snap.rxBytes = 0 →
      (is.foldl (fun snap i =>
        { snap with
          txBytes := snap.txBytes + (perCPU i).txBytes
          packetCount := snap.packetCount + (perCPU i).pktCount }) snap).rxBytes = 0 := by
    intro is
    induction is with
    | nil => exact fun _ h => h
    | cons i is ih => exact fun _ h => ih _ h
  exact hloop _ _ rfl

namespace NodeAgent

variable (host : ByteOrder) (l : Loader) {n : ℕ}

/-- A step that takes no QUIC entry hands on those that were taken. -/
theorem mem_quicSnapshots_step {s : NodeAgent n} {e : NodeStep n} {snap : FlowSnapshot}
    (h : snap ∈ (s.step host l e).quicSnapshots) :
    snap ∈ s.quicSnapshots ∨ ∃ key perCPU, snap = quicSnapshot (n := n) key perCPU := by
  cases e with
  | kernel e =>
    refine Or.inl ?_
    cases e with
    | hook env h' =>
      change snap ∈ (s.kernelStep host l (.hook env h')).quicSnapshots at h
      rw [kernelStep] at h
      split_ifs at h <;> exact h
    | egress env send frame =>
      change snap ∈ (s.kernelStep host l (.egress env send frame)).quicSnapshots at h
      rw [kernelStep] at h
      split_ifs at h <;> exact h
    | evictConnection cookie => exact h
    | evictOriginalDst cookie => exact h
  | takeFlow key =>
    refine Or.inl ?_
    change snap ∈ (s.takeFlow key).quicSnapshots at h
    rw [takeFlow] at h
    cases hkey : s.plane.kernel.flowAggregates.lookup key with
    | none =>
      rw [hkey] at h
      exact h
    | some perCPU =>
      rw [hkey] at h
      exact h
  | takeQuic key =>
    change snap ∈ (s.takeQuic key).quicSnapshots at h
    rw [takeQuic] at h
    cases hkey : s.plane.quicFlows.lookup key with
    | none =>
      rw [hkey] at h
      exact Or.inl h
    | some perCPU =>
      rw [hkey] at h
      have happend : snap ∈ s.quicSnapshots ++ [quicSnapshot key perCPU] := by
        rw [quicSnapshots, List.append_assoc]
        exact h
      rcases List.mem_append.mp happend with hold | hnew
      · exact Or.inl hold
      · exact Or.inr ⟨key, perCPU, List.mem_singleton.mp hnew⟩
  | deliver =>
    refine Or.inl ?_
    have hpolls : (s.step host l .deliver).quicSnapshots = s.quicSnapshots := by
      show (s.polls ++ [(s.flows, s.quic)]).flatMap Prod.snd ++ [] = _
      rw [List.append_nil, List.flatMap_append, List.flatMap_singleton]
      rfl
    rwa [hpolls] at h
  | setEnabled enabled => exact Or.inl h

theorem rxBytes_quicSnapshots (boot : List (KernelStep n)) (run : List (NodeStep n)) :
    ∀ snap ∈ (exec host l boot run).quicSnapshots, snap.rxBytes = 0 := by
  have hrun : ∀ s : NodeAgent n, (∀ snap ∈ s.quicSnapshots, snap.rxBytes = 0) →
      ∀ snap ∈ (run.foldl (step host l) s).quicSnapshots, snap.rxBytes = 0 := by
    induction run with
    | nil => exact fun s hs => hs
    | cons e run ih =>
      intro s hs
      refine ih _ fun snap hsnap => ?_
      rcases mem_quicSnapshots_step host l hsnap with hold | ⟨key, perCPU, rfl⟩
      · exact hs snap hold
      · exact rxBytes_quicSnapshot key perCPU
  refine hrun _ fun snap hsnap => ?_
  rw [start_eq] at hsnap
  exact absurd hsnap List.not_mem_nil

/-! ### The balance -/

/-- The bytes of the entries of both maps. -/
def residentBytes (s : NodeAgent n) : UInt64 :=
  (FinMap.sum s.plane.kernel.flowAggregates fun _ perCPU => (perCPUAmount perCPU).bytes)
    + FinMap.sum s.plane.quicFlows fun _ perCPU => quicBytes perCPU

variable {host l} {boot : List (KernelStep n)} {run : List (NodeStep n)}
  {L : Ledger FlowKey Charge} {Q : Ledger QuicFlowKey QuicCharge}

/-- The bytes of the flow charges, by where they are. -/
theorem IsLedgers.bytes_flows (h : IsLedgers host l boot run L Q) :
    Ledger.total Charge.bytes L.all
      = (FinMap.sum (exec host l boot run).plane.kernel.flowAggregates fun _ perCPU =>
            (perCPUAmount perCPU).bytes)
        + ((exec host l boot run).capture.snapshots.map FlowSnapshot.bytes).sum
        + Ledger.total Charge.bytes L.refused + Ledger.total Charge.bytes L.missed := by
  rw [Ledger.sum_all]
  congr 3
  · simp only [← bytes_total]
    exact FinMap.sum_eq_of_lookup_map (fun key => congrFun (congrArg Book.balance h.book_flows) key)
      fun _ a => Amount.bytes a
  · have hstatements := congrArg (fun st => (st.map fun x : FlowKey × Amount => x.2.bytes).sum)
      (congrArg Book.statements h.book_flows)
    simp only [← bytes_total]
    simpa only [Ledger.book, Capture.book, Kernel.book, List.map_map] using! hstatements

theorem IsLedgers.bytes_quic (h : IsLedgers host l boot run L Q) :
    Ledger.total QuicCharge.bytes Q.all
      = (FinMap.sum (exec host l boot run).plane.quicFlows fun _ perCPU => quicBytes perCPU)
        + ((exec host l boot run).quicSnapshots.map FlowSnapshot.bytes).sum
        + Ledger.total QuicCharge.bytes Q.refused + Ledger.total QuicCharge.bytes Q.missed := by
  have hbytes : (exec host l boot run).quicSnapshots.map FlowSnapshot.bytes
      = (exec host l boot run).quicSnapshots.map fun snap => snap.txBytes := by
    refine List.map_congr_left fun snap hsnap => ?_
    rw [FlowSnapshot.bytes, rxBytes_quicSnapshots host l boot run snap hsnap, add_zero]
  rw [Ledger.sum_all, hbytes]
  congr 3
  · exact FinMap.sum_eq_of_lookup_map (fun key => congrFun (congrArg Book.balance h.book_quic) key)
      fun _ bytes => bytes
  · have hstatements := congrArg (fun st => (st.map fun x : QuicFlowKey × UInt64 => x.2).sum)
      (congrArg Book.statements h.book_quic)
    simpa only [Ledger.book, quicBook, QuicPlane.book, quicStatements, List.map_map]
      using! hstatements

/-- **Where the bytes are** after any run: in snapshots, in the maps, refused for want of
room, or received by a socket whose flow had no entry. -/
theorem IsLedgers.balanced (h : IsLedgers host l boot run L Q) (hmissed : Q.missed = 0) :
    Ledger.total Charge.bytes L.all + Ledger.total QuicCharge.bytes Q.all
      = ((exec host l boot run).snapshots.map FlowSnapshot.bytes).sum
        + (exec host l boot run).residentBytes
        + (Ledger.total Charge.bytes L.refused + Ledger.total QuicCharge.bytes Q.refused)
        + Ledger.total Charge.bytes L.missed := by
  have hmerged := congrArg (fun snaps : Multiset FlowSnapshot =>
    (snaps.map FlowSnapshot.bytes).sum) h.merged
  simp only [Multiset.map_add, Multiset.sum_add, Multiset.map_coe, Multiset.sum_coe] at hmerged
  have hzero : Ledger.total QuicCharge.bytes 0 = 0 := rfl
  rw [h.bytes_flows, h.bytes_quic, hmissed, hmerged, residentBytes, hzero, add_zero]
  ac_rfl

end NodeAgent
