/-
Cleanup and the run-time toggle (`pkg/ebpf/bpf/tollwing.bpf.c`, `loader.go`).

The entry of a socket should go when the socket closes: a TCP one at
`TCP_CLOSE`, any other at its release.  The release hook is not gated on
`enabled`, so that entries made before a disable are still cleaned up; the
sock_ops program is, with the callback that reports `TCP_CLOSE` in it.

Runs have hooks of any number of sockets, polls, evictions and configuration
pushes, `SetEnabled` among them (`Kernel.setEnabled`), in any order.

* `closedSockets` — the sockets the kernel has reported closed;
* `noneOutlives_step_iff` — one step leaves no entry of a closed socket;
* `noneOutlives_iff` — a run never does, exactly if capture is on whenever a
  TCP socket with an entry closes;
* `disable_leaks` — a run where it is not.
-/
import Tollwing.History
import Tollwing.Loader
import Tollwing.TcpLifecycle

/-- The socket a hook reports in use: a TCP socket with its establishment, any
other with its connect. -/
def Hook.opened : Hook → Option UInt64
  | .connect4 ctx | .connect6 ctx => if ctx.protocol ≠ ipprotoTCP then some ctx.cookie else none
  | .sockops skops =>
    if skops.op = .activeEstablished ∨ skops.op = .passiveEstablished then some skops.cookie
    else none
  | _ => none

/-- The socket a hook reports closed: a TCP socket with `TCP_CLOSE`, any other
with its release. -/
def Hook.closed : Hook → Option UInt64
  | .sockops skops =>
    if skops.op = .stateChange ∧ skops.newState = tcpClose then some skops.cookie else none
  | .sockRelease cookie protocol => if protocol ≠ ipprotoTCP then some cookie else none
  | _ => none

/-- The closed sockets after one step. -/
def closedAfter {n : ℕ} (closed : Finset UInt64) : CaptureStep n → Finset UInt64
  | .hook _ h => (closed \ h.opened.toFinset) ∪ h.closed.toFinset
  | _ => closed

/-- The sockets that closed and are not in use again. -/
def closedSockets {n : ℕ} (run : List (CaptureStep n)) : Finset UInt64 := run.foldl closedAfter ∅

/-- No closed socket has an entry. -/
def NoneOutlives (connections : FinMap UInt64 ConnInfo) (closed : Finset UInt64) : Prop :=
  ∀ c ∈ closed, connections.lookup c = none

/-- A TCP socket that closes while it has an entry finds capture on. -/
def Hook.ClosesEnabled {n : ℕ} (k : Kernel n) : Hook → Prop
  | .sockops skops =>
    skops.op = .stateChange → skops.newState = tcpClose →
      k.connections.lookup skops.cookie ≠ none → k.agentConfig.enabled = true
  | _ => True

def Capture.ClosesEnabled {n : ℕ} (s : Capture n) : CaptureStep n → Prop
  | .hook _ h => h.ClosesEnabled s.kernel
  | _ => True

/-- `SetEnabled` is a configuration push. -/
example {host : ByteOrder} {n : ℕ} (s : Capture n) (enabled : Bool) :
    (s.step host (.setConfig { s.kernel.agentConfig with enabled })).kernel
      = s.kernel.setEnabled enabled := rfl

/-- An establishment that is recorded opens its socket, and closes none. -/
theorem Hook.opened_of_establishes {n : ℕ} {k : Kernel n} {env : HookEnv n} {skops : SockOps}
    {direction : UInt8} (hopen : k.establishes env skops = some direction) :
    (Hook.sockops skops).opened = some skops.cookie ∧ (Hook.sockops skops).closed = none := by
  rw [Hook.opened, Hook.closed]
  rcases (k.of_establishes env hopen).2 with ⟨hop, -⟩ | ⟨hop, -⟩
  · simp [hop]
  · simp [hop]

/-! ### One step -/

section
variable {host : ByteOrder} {n : ℕ} {proto : UInt64 → UInt8} {closed : Finset UInt64}

theorem mem_closedAfter_hook {env : HookEnv n} {h : Hook} {c : UInt64} :
    c ∈ closedAfter closed (.hook env h) ↔
      (c ∈ closed ∧ h.opened ≠ some c) ∨ h.closed = some c := by
  simp only [closedAfter, Finset.mem_union, Finset.mem_sdiff, Option.mem_toFinset,
    Option.mem_def]

/-- A hook that closes a socket with an entry removes the entry, given that
capture is on for a TCP one. -/
theorem lookup_of_closed {k : Kernel n} {env : HookEnv n} {h : Hook} {t : SocketTables}
    (hreported : h.Reported proto) (henabled : h.ClosesEnabled k) {c : UInt64}
    (hclosed : h.closed = some c) (hstep : TablesStep host k env h t) :
    t.connections.lookup c = none := by
  by_cases hentry : k.connections.lookup c = none
  · -- a hook that closes makes no entry
    cases hnew : t.connections.lookup c with
    | none => rfl
    | some conn =>
      rcases hstep.entry_cases hnew with ⟨conn', hconn', -⟩ | ⟨ctx, rfl, -⟩ |
        ⟨skops, direction, rfl, -, hopen, -⟩
      · rw [hentry] at hconn'
        cases hconn'
      · cases hclosed
      · rw [(Hook.opened_of_establishes hopen).2] at hclosed
        cases hclosed
  · cases hstep with
    | idle hidle =>
      cases h with
      | sockops skops =>
        rw [Hook.closed] at hclosed
        split_ifs at hclosed with hends
        obtain rfl := Option.some.inj hclosed
        have hon := henabled hends.1 hends.2 hentry
        exact hidle.2 (k.ends_of_close hon hreported.2 hends.1 hends.2)
      | sockRelease cookie protocol => exact hidle.elim
      | _ => cases hclosed
    | count hcnt hconn hflow hamount => cases h <;> first | cases hclosed | cases hcnt
    | connect4 ctx evt hproto => cases hclosed
    | connect6 ctx evt => cases hclosed
    | establish skops direction evt hopen =>
      rw [(Hook.opened_of_establishes hopen).2] at hclosed
      cases hclosed
    | close skops conn hends hopen hconn =>
      rw [Hook.closed] at hclosed
      split_ifs at hclosed
      obtain rfl := Option.some.inj hclosed
      exact Finmap.lookup_erase _ _
    | release cookie protocol =>
      rw [Hook.closed] at hclosed
      split_ifs at hclosed with htcp
      obtain rfl := Option.some.inj hclosed
      dsimp only
      rw [if_pos htcp]
      exact Finmap.lookup_erase _ _

/-- An entry a hook leaves of a socket it neither opens nor closes was there
before. -/
theorem entry_of_not_opened {k : Kernel n} {env : HookEnv n} {h : Hook} {t : SocketTables}
    {c : UInt64} (hopened : h.opened ≠ some c) (hstep : TablesStep host k env h t)
    (hentry : k.connections.lookup c = none) : t.connections.lookup c = none := by
  cases hnew : t.connections.lookup c with
  | none => rfl
  | some conn =>
    rcases hstep.entry_cases hnew with ⟨conn', hconn', -⟩ | ⟨ctx, rfl, rfl, hudp, -⟩ |
      ⟨skops, direction, rfl, rfl, hopen, -⟩
    · rw [hentry] at hconn'
      cases hconn'
    · refine absurd ?_ hopened
      rw [Hook.opened, if_pos (by rw [hudp]; decide)]
    · exact absurd (Hook.opened_of_establishes hopen).1 hopened

/-- **One step** leaves no entry of a closed socket exactly if a TCP socket that
closes with an entry finds capture on. -/
theorem noneOutlives_step_iff {s : Capture n} {e : CaptureStep n}
    (hnone : NoneOutlives s.kernel.connections closed) (hreported : e.Reported proto) :
    NoneOutlives (s.step host e).kernel.connections (closedAfter closed e) ↔
      s.ClosesEnabled e := by
  cases e with
  | hook env h =>
    have hstep : TablesStep host s.kernel env h (h.run host env s.kernel).tables :=
      Hook.tablesStep s.kernel env h
    constructor
    · intro hnext
      cases h with
      | sockops skops =>
        intro hop hclose hentry
        by_contra hoff
        -- with capture off the callback does nothing
        have hidle : s.kernel.sockops host env skops = s.kernel := by
          rw [Kernel.sockops, Kernel.getConfig, if_neg hoff]
        have hclosed := hnext skops.cookie
          (mem_closedAfter_hook.mpr (Or.inr (if_pos ⟨hop, hclose⟩)))
        exact hentry (hidle ▸ hclosed)
      | _ => exact trivial
    · intro henabled c hc
      rcases mem_closedAfter_hook.mp hc with ⟨hold, hopened⟩ | hclosed
      · exact entry_of_not_opened hopened hstep (hnone c hold)
      · exact lookup_of_closed hreported henabled hclosed hstep
  | take key =>
    refine iff_of_true ?_ trivial
    have htake := congrArg SocketTables.connections (s.tables_take key)
    intro c hc
    exact (congrArg (Finmap.lookup c) htake).trans (hnone c hc)
  | deliver => exact iff_of_true hnone trivial
  | setConfig cfg => exact iff_of_true hnone trivial
  | evictConnection c =>
    refine iff_of_true ?_ trivial
    intro c' hc'
    show (s.kernel.connections.erase c).lookup c' = none
    rw [FinMap.lookup_erase_ite]
    split_ifs
    · rfl
    · exact hnone c' hc'
  | evictOriginalDst c => exact iff_of_true hnone trivial

/-! ### Every run -/

/-- **No entry outlives its socket**, at any point of a run, exactly if every TCP
socket that closes with an entry finds capture on. -/
theorem noneOutlives_iff (host : ByteOrder) (proto : UInt64 → UInt8) (cfg : AgentConfig)
    {run : List (CaptureStep n)} (hreported : ∀ e ∈ run, e.Reported proto) :
    (∀ m, NoneOutlives (Capture.exec host cfg (run.take m)).kernel.connections
        (closedSockets (run.take m))) ↔
      History.Along (Capture.step host) Capture.ClosesEnabled (Capture.init cfg) run := by
  have hnew : NoneOutlives (Capture.init (n := n) cfg).kernel.connections ∅ := by
    intro c hc
    exact absurd hc (Finset.notMem_empty c)
  refine History.forall_take_iff (D := fun _ e => e.Reported proto)
    (P := fun (s : Capture n) closed => NoneOutlives s.kernel.connections closed) ?_ hnew
    (History.along_of_forall_mem hreported)
  intro s closed e hnone he
  exact noneOutlives_step_iff hnone he

end

namespace Capture

/-- Capture is toggled while a TCP socket is open, and a UDP socket is released
while it is off. -/
theorem noneOutlives_toggled :
    let run : List (CaptureStep 1) := [tcpAccept, udpConnect,
      .setConfig { trackAll with enabled := false }, .hook onOneCPU (.sockRelease 7 ipprotoUDP),
      .setConfig trackAll, tcpState tcpClose]
    ∀ m, NoneOutlives (exec .little trackAll (run.take m)).kernel.connections
      (closedSockets (run.take m)) :=
  (noneOutlives_iff .little oneUDP trackAll (by decide)).mpr
    ⟨nofun, trivial, trivial, trivial, trivial, fun _ _ _ => rfl, trivial⟩

/-- **A disable leaks entries**: the socket closes while capture is off, and its
entry is still there after capture is enabled again. -/
theorem disable_leaks :
    let run : List (CaptureStep 1) := [tcpAccept, .setConfig { trackAll with enabled := false },
      tcpState tcpClose, .setConfig trackAll]
    (∀ e ∈ run, e.Reported oneUDP) ∧
      ¬∀ m, NoneOutlives (exec .little trackAll (run.take m)).kernel.connections
        (closedSockets (run.take m)) := by
  refine ⟨by decide, ?_⟩
  intro h
  exact absurd (h 4 9 (by decide)) (by decide)

end Capture
