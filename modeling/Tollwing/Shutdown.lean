/-
The shutdown of the agent (`pkg/agent/shutdown.go`, `pkg/agent/agent.go`).

`runShutdown` stops the poller, which polls once more and calls the handler, then closes
the publisher and at last the loader.

* `NodeSystem.shutdown_ships` — after any run the last poll's records are with the publisher
  when it is closed, and if that poll comes to every entry, then nothing that was charged
  before the shutdown stays behind in the maps.
-/
import Tollwing.NodeSystem

/-- `runShutdown`: a component that never started has no step. -/
def runShutdown {S : Type} (stopPoller closePublisher closeLoader : Option (S → Option S)) (s : S) :
    Option S := do
  let s ← (stopPoller.getD some) s
  let s ← (closePublisher.getD some) s
  (closeLoader.getD some) s

/-- An agent that is shut down: `shipped` is what the publisher had when it was closed. -/
structure ClosingAgent (n : ℕ) where
  sys : NodeSystem n
  shipped : Option (List (List PublishedFlow))
  attached : Bool

namespace ClosingAgent

variable (host : ByteOrder) (l : Loader) {n : ℕ} (c : ClosingAgent n)

/-- `Stop`: the loop has ended, and what follows is one more tick.  Without the loader's
maps there is nothing to read. -/
def stopPoller (t : Tick n) : Option (ClosingAgent n) :=
  if c.attached then (c.sys.tick host l t).map fun s => { c with sys := s } else some c

/-- `Publisher.Close`: a later publication fails, which is only logged. -/
def closePublisher : Option (ClosingAgent n) :=
  some
    { c with
      sys := { c.sys with agent := { c.sys.agent with natsPublisher := none } }
      shipped := c.sys.agent.natsPublisher }

/-- `Loader.Close`. -/
def closeLoader : Option (ClosingAgent n) := some { c with attached := false }

end ClosingAgent

namespace NodeSystem

variable (host : ByteOrder) (l : Loader) {n : ℕ}

/-- `Agent.shutdown`, with the tick of the last poll. -/
def shutdown (s : NodeSystem n) (t : Tick n) : Option (ClosingAgent n) :=
  runShutdown (some fun c => c.stopPoller host l t)
    (if s.agent.natsPublisher.isSome then some ClosingAgent.closePublisher else none)
    (some ClosingAgent.closeLoader) ⟨s, none, true⟩

variable {host l} {s s' : NodeSystem n} {t : Tick n}

/-- What a shutdown leaves, if the publisher is there. -/
theorem shutdown_eq (htick : s.tick host l t = some s') {sent : List (List PublishedFlow)}
    (hsent : s.agent.natsPublisher = some sent) : s.shutdown host l t = some
      { sys := { s' with agent := { s'.agent with natsPublisher := none } }
        shipped := s'.agent.natsPublisher
        attached := false } := by
  have hstop : (⟨s, none, true⟩ : ClosingAgent n).stopPoller host l t = some ⟨s', none, true⟩ := by
    rw [ClosingAgent.stopPoller, if_pos rfl, htick]
    rfl
  rw [shutdown, hsent, Option.isSome_some, if_pos rfl, runShutdown]
  show (((⟨s, none, true⟩ : ClosingAgent n).stopPoller host l t).bind fun c => _) = _
  rw [hstop]
  rfl

variable (host l)

/-- **The last poll is shipped.**  After any run the shutdown does not panic: when the
publisher is closed it has the records of the last poll, too, so that the exporter has of
every type what was shipped, and the bytes balance.  If the last poll comes to every entry
that is there, then every charge from before the shutdown is in a snapshot that was handed
on by then, was refused, or was missed. -/
theorem shutdown_ships (boot : List (KernelStep n)) (batchSize : ℕ) (probe : ProbeAnswer)
    (quicMap : Bool) (engine : Option Engine) (provider region : String)
    (steps : List (SystemStep n)) (t : Tick n)
    (hatomic : ∀ t', .tick t' ∈ steps ++ [.tick t] →
      (Poller.new n batchSize probe quicMap).Atomic t'.script) :
    let s₀ := start host l boot (.new n batchSize probe quicMap) engine provider region
    ∃ s c e sent L Q, s₀.run host l steps = some s ∧ s.shutdown host l t = some c ∧
      c.attached = false ∧ c.shipped = some sent ∧ c.sys.agent.exporter = some e ∧
      NodeAgent.IsLedgers host l boot (s₀.trace host l (steps ++ [.tick t])) L Q ∧
      Ledger.total Charge.bytes L.all + Ledger.total QuicCharge.bytes Q.all
        = e.state.totalBytes + c.sys.node.residentBytes
          + (Ledger.total Charge.bytes L.refused + Ledger.total QuicCharge.bytes Q.refused)
          + Ledger.total Charge.bytes L.missed ∧
      ((∀ t', .tick t' ∈ steps ++ [.tick t] → t'.Priced) → e.state.AgreesByType sent.flatten) ∧
      (s.poller.Covers host l s.node t.script →
        (∀ c ∈ L.all, c.step < (s₀.trace host l steps).length →
          (∃ st ∈ L.statements, c ∈ st.2) ∨ c ∈ L.refused ∨ c ∈ L.missed) ∧
        ∀ q ∈ Q.all, q.step < (s₀.trace host l steps).length →
          (∃ st ∈ Q.statements, q ∈ st.2) ∨ q ∈ Q.refused) := by
  intro s₀
  obtain ⟨s, e, sent, hrun, h, htold⟩ := Follows.run steps
    (follows_start boot (Poller.sized_new n batchSize probe quicMap) engine provider region)
    (told_start host l boot _ engine provider region
      (∀ t', .tick t' ∈ steps ++ [.tick t] → t'.Priced))
    (fun t' ht => hatomic t' (List.mem_append_left _ ht))
    fun hprices t' ht => hprices t' (List.mem_append_left _ ht)
  rw [List.nil_append] at h htold
  obtain ⟨s', e', sent', htick, h', htold'⟩ := h.step htold (.tick t)
    (fun t' ht => hatomic t' (List.mem_append_right _ (List.mem_singleton.mpr ht.symm)))
    fun hprices t' ht => hprices t' (List.mem_append_right _ (List.mem_singleton.mpr ht.symm))
  have htrace : s₀.trace host l (steps ++ [.tick t])
      = s₀.trace host l steps ++ s.nodeSteps host l (.tick t) := by
    have hone : s.trace host l [.tick t] = s.nodeSteps host l (.tick t) := by
      rw [trace, htick]
      exact List.append_nil _
    rw [trace_append hrun, hone]
  obtain ⟨L, Q, hledgers, hmissed, -, hflows, hquic⟩ := NodeAgent.exists_ledgers_after host l boot
    (s₀.trace host l steps) (s.nodeSteps host l (.tick t))
  obtain ⟨polls, hnode⟩ := h.node
  refine ⟨s, _, e', sent', L, Q, hrun, shutdown_eq htick htold.publisher, rfl, htold'.publisher,
    htold'.exporter, htrace ▸ hledgers, h'.balanced htold'.totalBytes hledgers hmissed,
    htold'.byType, fun hcovers => ⟨hflows fun key hkey => ?_, hquic fun key hkey => ?_⟩⟩
  · rw [hnode] at hkey
    exact List.mem_append_left _ (hcovers.takeFlow_mem hkey)
  · rw [hnode] at hkey
    exact List.mem_append_left _ (hcovers.takeQuic_mem hkey)

/-- The byte that was sent before the shutdown is shipped with the one that the last poll
came to. -/
theorem shutdown_ships_send :
    ∃ s c e sent L Q, sendStart.run .little Poller.socketHost sendSteps = some s ∧
      s.shutdown .little Poller.socketHost sendTick = some c ∧ c.shipped = some sent ∧
      c.sys.agent.exporter = some e ∧ e.state.totalBytes = 2 ∧
      NodeAgent.IsLedgers .little Poller.socketHost []
        (sendStart.trace .little Poller.socketHost (sendSteps ++ [.tick sendTick])) L Q ∧
      ∀ c ∈ L.all, c.step < 2 →
        (∃ st ∈ L.statements, c ∈ st.2) ∨ c ∈ L.refused ∨ c ∈ L.missed := by
  have hatomic : ∀ t, .tick t ∈ sendSteps ++ [SystemStep.tick sendTick] →
      (Poller.new 1 1 .ok true).Atomic t.script := by
    intro t ht
    have htick : t = sendTick := by simpa [sendSteps] using ht
    rw [htick]
    exact atomic_sendScript
  obtain ⟨s, c, e, sent, L, Q, hrun, hshutdown, -, hshipped, hexporter, hledgers, -, -, hcovered⟩ :=
    shutdown_ships .little Poller.socketHost [] 1 .ok true none "aws" "us-east-1" sendSteps sendTick
      hatomic
  have hrun' : sendStart.run .little Poller.socketHost sendSteps = some s := hrun
  have hbytes : ((sendStart.run .little Poller.socketHost sendSteps).bind fun s =>
      s.shutdown .little Poller.socketHost sendTick).bind (fun c => c.sys.agent.exporter.map
        fun e => e.state.totalBytes) = some 2 := by decide +kernel
  rw [hrun', Option.bind_some, hshutdown, Option.bind_some, hexporter] at hbytes
  -- the poll comes to the only entry
  have hkeys : (sendStart.run .little Poller.socketHost sendSteps).map (fun s =>
      (s.node.plane.kernel.flowAggregates.keys, s.node.plane.quicFlows.keys, s.poller.useBatch,
        s.poller.batchSize)) = some ({Poller.sendKey}, ∅, true, 1) := by decide +kernel
  rw [hrun', Option.map_some, Option.some_inj] at hkeys
  simp only [Prod.mk.injEq] at hkeys
  obtain ⟨hflowKeys, hquicKeys, hbatch, hsize⟩ := hkeys
  have hlength : (sendStart.trace .little Poller.socketHost sendSteps).length = 2 := rfl
  have hcovers : s.poller.Covers .little Poller.socketHost s.node sendTick.script := by
    constructor
    · intro key hkey
      have hmem := Finmap.mem_keys.mpr hkey
      rw [hflowKeys, Finset.mem_singleton] at hmem
      rw [Poller.flowSteps, hbatch, if_pos rfl, hsize, hmem]
      exact .tail _ (.head _)
    · intro key hkey
      have hmem := Finmap.mem_keys.mpr hkey
      rw [hquicKeys] at hmem
      exact absurd hmem (Finset.notMem_empty key)
  refine ⟨s, c, e, sent, L, Q, hrun', hshutdown, hshipped, hexporter, Option.some.inj hbytes,
    hledgers, ?_⟩
  exact hlength ▸ (hcovered hcovers).1

end NodeSystem
