/-
Optional programs (`pkg/ebpf/loader.go`).

The loader prunes the programs that the kernel is known not to support, loads the rest,
taking out an optional program that an error names and trying again, and attaches what was
loaded; TCP bytes are counted by two fentry programs, or else by two kprobes.

* `containsProgName_errorText` — which programs an error names;
* `loadLoop_eq` — how the loop takes out what is rejected, one program an attempt;
* `loads_iff` — which sets of rejected programs it copes with, in any order;
* `counted_iff` — the kprobes stand in only where there is no fentry at all;
* `optional_fallback_iff` — both;
* `fallback_without_fentry` — an old kernel;
* `fallback_fails` — six rejected programs, and a kprobe that is not there any more.
-/
import Tollwing.FinMap
import Tollwing.Strings

/-- The programs of the object file. -/
inductive BpfProgram
  | connect4
  | connect6
  | sockops
  | sockRelease
  | tcpRetransmit
  | tcpLossProbe
  | dnsRecvmsg
  | udpRecvmsgExit
  | udpSendmsg
  | quicEgress
  | tcpSendmsgFentry
  | tcpCleanupRbufFentry
  | tcpSendmsg
  | tcpCleanupRbuf
  deriving DecidableEq, Repr

namespace BpfProgram

def name : BpfProgram → List Char
  | connect4 => "tollwing_connect4".toList
  | connect6 => "tollwing_connect6".toList
  | sockops => "tollwing_sockops".toList
  | sockRelease => "tollwing_sock_release".toList
  | tcpRetransmit => "tollwing_tcp_retransmit".toList
  | tcpLossProbe => "tollwing_tcp_loss_probe".toList
  | dnsRecvmsg => "tollwing_dns_recvmsg".toList
  | udpRecvmsgExit => "tollwing_udp_recvmsg_exit".toList
  | udpSendmsg => "tollwing_udp_sendmsg".toList
  | quicEgress => "tollwing_quic_egress".toList
  | tcpSendmsgFentry => "tollwing_tcp_sendmsg_fentry".toList
  | tcpCleanupRbufFentry => "tollwing_tcp_cleanup_rbuf_fentry".toList
  | tcpSendmsg => "tollwing_tcp_sendmsg".toList
  | tcpCleanupRbuf => "tollwing_tcp_cleanup_rbuf".toList

end BpfProgram

namespace ProgramFallback

open BpfProgram

/-- A collection, or the specification of one: its programs. -/
abbrev Programs := Finset BpfProgram

/-- All that the object file has. -/
def objectPrograms : Programs :=
  {connect4, connect6, sockops, sockRelease, tcpRetransmit, tcpLossProbe, dnsRecvmsg,
    udpRecvmsgExit, udpSendmsg, quicEgress, tcpSendmsgFentry, tcpCleanupRbufFentry, tcpSendmsg,
    tcpCleanupRbuf}

def optionalPrograms : Programs :=
  {connect6, sockRelease, tcpRetransmit, tcpLossProbe, dnsRecvmsg, udpRecvmsgExit, udpSendmsg,
    quicEgress, tcpSendmsgFentry, tcpCleanupRbufFentry, tcpSendmsg, tcpCleanupRbuf}

/-- `pruneOptionalPrograms`, by the two feature probes. -/
def pruneOptionalPrograms (haveFentry haveTCX : Bool) (spec : Programs) : Programs :=
  let spec :=
    if !haveFentry then
      spec \ {tcpRetransmit, tcpLossProbe, dnsRecvmsg, udpRecvmsgExit, udpSendmsg,
        tcpSendmsgFentry, tcpCleanupRbufFentry}
    else spec \ {tcpSendmsg, tcpCleanupRbuf}
  if !haveTCX then spec.erase quicEgress else spec

/-! ### Loading -/

/-- Which one of the rejected programs an attempt reports. -/
structure Reporting where
  pick : ℕ → Programs → BpfProgram
  pick_mem : ∀ attempt found, found.Nonempty → pick attempt found ∈ found

/-- The error for a program that the verifier rejects. -/
def errorText (prog : BpfProgram) : List Char :=
  "program ".toList ++ prog.name ++ ": load program: invalid argument".toList

/-- `ebpf.NewCollection`. -/
def newCollection (rejected : Programs) (reporting : Reporting) (attempt : ℕ) (spec : Programs) :
    Except (List Char) Programs :=
  if spec ∩ rejected = ∅ then .ok spec
  else .error (errorText (reporting.pick attempt (spec ∩ rejected)))

def containsProgName (errMsg progName : List Char) : Bool :=
  !errMsg.isEmpty && !progName.isEmpty && Strings.hasInfix ("program ".toList ++ progName) errMsg

/-- The loop of `loadCollectionWithFallback` and the attempt after it.  Each attempt ranges
over the optional programs in an order of its own. -/
def loadLoop (rejected : Programs) (reporting : Reporting) (order : ℕ → RangeOrder BpfProgram) :
    ℕ → ℕ → Programs → Except (List Char) Programs
  | 0, attempt, spec => newCollection rejected reporting attempt spec
  | n + 1, attempt, spec =>
    match newCollection rejected reporting attempt spec with
    | .ok coll => .ok coll
    | .error err =>
      match ((order attempt).keys optionalPrograms).find? fun prog =>
          decide (prog ∈ spec) && containsProgName err prog.name with
      | none => .error err
      | some prog => loadLoop rejected reporting order n (attempt + 1) (spec.erase prog)

def loadCollectionWithFallback (rejected : Programs) (reporting : Reporting)
    (order : ℕ → RangeOrder BpfProgram) (spec : Programs) : Except (List Char) Programs :=
  loadLoop rejected reporting order 5 0 spec

/-! ### Attaching -/

/-- What the kernel does with the programs: what the probes say, what the verifier rejects
and what can be attached. -/
structure ProgramSupport where
  haveFentry : Bool
  haveTCX : Bool
  rejected : Programs
  link : BpfProgram → Bool

/-- `attachFentry`, `attachKprobe` and `attachCgroupProg`: the program has to be in the
collection. -/
def ProgramSupport.attach (k : ProgramSupport) (coll : Programs) (prog : BpfProgram) : Bool :=
  decide (prog ∈ coll) && k.link prog

/-- The program if it can be attached, for the attachments that may fail. -/
def ProgramSupport.tryAttach (k : ProgramSupport) (coll : Programs) (prog : BpfProgram) :
    List BpfProgram :=
  if k.attach coll prog then [prog] else []

/-- `attachByteCountingHooks`: the programs attached.  An fentry program stays attached when
the other one cannot be. -/
def attachByteCountingHooks (k : ProgramSupport) (coll : Programs) : Option (List BpfProgram) :=
  let fentry :=
    if k.haveFentry then k.tryAttach coll tcpSendmsgFentry ++ k.tryAttach coll tcpCleanupRbufFentry
    else []
  if k.haveFentry && k.attach coll tcpSendmsgFentry && k.attach coll tcpCleanupRbufFentry then
    some fentry
  else if k.attach coll tcpSendmsg then
    if k.attach coll tcpCleanupRbuf then some (fentry ++ [tcpSendmsg, tcpCleanupRbuf]) else none
  else none

/-- `Start` up to the byte counting hooks: the programs attached, nothing if it fails. -/
def start (k : ProgramSupport) (reporting : Reporting) (order : ℕ → RangeOrder BpfProgram) :
    Option (List BpfProgram) :=
  match loadCollectionWithFallback k.rejected reporting order
      (pruneOptionalPrograms k.haveFentry k.haveTCX objectPrograms) with
  | .error _ => none
  | .ok coll =>
    if k.attach coll connect4 && k.attach coll sockops then
      (attachByteCountingHooks k coll).map fun counting =>
        [connect4] ++ k.tryAttach coll connect6 ++ [sockops] ++ k.tryAttach coll sockRelease
          ++ counting
    else none

/-! ### What an error names -/

theorem prefix_of_prefix_append_cons {α : Type*} {xs ys zs : List α} {c : α} (hc : c ∉ xs)
    (h : xs <+: ys ++ c :: zs) : xs <+: ys := by
  rcases List.prefix_or_prefix_of_prefix h (List.prefix_append _ _) with hshort | ⟨ws, rfl⟩
  · exact hshort
  · rw [List.prefix_append_right_inj] at h
    cases ws with
    | nil => exact List.prefix_rfl.trans (by rw [List.append_nil])
    | cons w ws =>
      rw [List.cons_prefix_cons] at h
      exact absurd (List.mem_append_right ys (h.1 ▸ List.mem_cons_self)) hc

theorem prefix_or_infix_tail {α : Type*} {xs ys : List α} (h : xs <:+: ys) :
    xs <+: ys ∨ xs <:+: ys.tail := by
  cases ys with
  | nil => exact Or.inr h
  | cons y ys => exact List.infix_cons_iff.mp h

/-- What holds of the characters of a text. -/
theorem of_chars {P : List Char → Prop} {cs : List Char} (h : P cs) : P (String.ofList cs).toList := by
  rwa [String.toList_ofList]

theorem name_ne_nil (prog : BpfProgram) : prog.name ≠ [] := by
  cases prog <;> exact of_chars (P := fun cs => cs ≠ []) (List.cons_ne_nil _ _)

theorem colon_notMem_name (prog : BpfProgram) : ':' ∉ prog.name := by
  cases prog <;> exact of_chars (P := fun cs => ':' ∉ cs) (by decide)

/-- The word in front of the name stands nowhere else in the error. -/
theorem word_once (prog : BpfProgram) :
    Strings.hasInfix "program ".toList (errorText prog).tail = false := by
  unfold errorText
  rw [String.toList_ofList, String.toList_ofList]
  cases prog <;>
  · refine of_chars (P := fun cs => Strings.hasInfix _ (_ ++ cs ++ _).tail = false) ?_
    decide +kernel

/-- The error for a program names those whose name its name begins with. -/
theorem containsProgName_errorText (prog other : BpfProgram) :
    containsProgName (errorText prog) other.name = other.name.isPrefixOf prog.name := by
  obtain ⟨rest, hrest⟩ : ∃ rest, ": load program: invalid argument".toList = ':' :: rest :=
    ⟨_, String.toList_ofList⟩
  have htext : errorText prog = "program ".toList ++ (prog.name ++ ':' :: rest) := by
    unfold errorText
    rw [hrest, List.append_assoc]
  have hsome : (errorText prog).isEmpty = false := by
    rw [htext, String.toList_ofList]
    rfl
  have hother : other.name.isEmpty = false := by
    rw [Bool.eq_false_iff, Ne, List.isEmpty_iff]
    exact name_ne_nil other
  have hcontains : containsProgName (errorText prog) other.name
      = Strings.hasInfix ("program ".toList ++ other.name) (errorText prog) := by
    unfold containsProgName
    rw [hsome, hother, Bool.not_false, Bool.true_and, Bool.true_and]
  rw [hcontains, Bool.eq_iff_iff, Strings.hasInfix_iff, List.isPrefixOf_iff_prefix]
  constructor
  · intro hin
    rcases prefix_or_infix_tail hin with hfirst | hlater
    · rw [htext, List.prefix_append_right_inj] at hfirst
      exact prefix_of_prefix_append_cons (colon_notMem_name other) hfirst
    · have hword := (List.prefix_append _ _).isInfix.trans hlater
      rw [← Strings.hasInfix_iff, word_once] at hword
      exact absurd hword Bool.false_ne_true
  · intro hname
    rw [htext]
    exact ((List.prefix_append_right_inj _).mpr
      (hname.trans (List.prefix_append _ _))).isInfix

/-- No error for a program that is there and rejected names another that is not. -/
def NamesRejected (rejected spec : Programs) : Prop :=
  ∀ prog ∈ spec ∩ rejected, ∀ other ∈ spec ∩ optionalPrograms,
    other.name.isPrefixOf prog.name = true → other ∈ rejected

instance (rejected spec : Programs) : Decidable (NamesRejected rejected spec) :=
  inferInstanceAs (Decidable (∀ _ ∈ _, ∀ _ ∈ _, _ → _))

section
variable {rejected spec : Programs} {reporting : Reporting} {order : ℕ → RangeOrder BpfProgram}
  {attempt : ℕ}

theorem newCollection_of_empty (h : spec ∩ rejected = ∅) :
    newCollection rejected reporting attempt spec = .ok spec := if_pos h

theorem newCollection_of_nonempty (reporting : Reporting) (attempt : ℕ)
    (h : (spec ∩ rejected).Nonempty) :
    ∃ prog ∈ spec ∩ rejected, newCollection rejected reporting attempt spec
      = .error (errorText prog) :=
  ⟨_, reporting.pick_mem attempt _ h, if_neg h.ne_empty⟩

/-- The program that an error makes the loop take out. -/
def removed (order : RangeOrder BpfProgram) (spec : Programs) (prog : BpfProgram) :
    Option BpfProgram :=
  (order.keys optionalPrograms).find? fun other =>
    decide (other ∈ spec) && containsProgName (errorText prog) other.name

theorem removed_spec {ord : RangeOrder BpfProgram} {prog other : BpfProgram}
    (h : removed ord spec prog = some other) :
    other ∈ spec ∩ optionalPrograms ∧ other.name.isPrefixOf prog.name = true := by
  have hmem := (ord.mem_keys _ _).mp (List.mem_of_find?_eq_some h)
  have hnamed := List.find?_some h
  rw [Bool.and_eq_true, decide_eq_true_iff, containsProgName_errorText] at hnamed
  exact ⟨Finset.mem_inter.mpr ⟨hnamed.1, hmem⟩, hnamed.2⟩

/-- A rejected program that is optional is named itself, so something is taken out. -/
theorem exists_removed (ord : RangeOrder BpfProgram) {prog : BpfProgram} (hspec : prog ∈ spec)
    (hopt : prog ∈ optionalPrograms) : ∃ other, removed ord spec prog = some other := by
  refine Option.isSome_iff_exists.mp (List.find?_isSome.mpr ⟨prog, ?_, ?_⟩)
  · exact (ord.mem_keys _ _).mpr hopt
  · rw [Bool.and_eq_true, decide_eq_true_iff, containsProgName_errorText]
    exact ⟨hspec, List.isPrefixOf_iff_prefix.mpr (List.prefix_refl _)⟩

theorem loadLoop_of_empty (n : ℕ) (h : spec ∩ rejected = ∅) :
    loadLoop rejected reporting order n attempt spec = .ok spec := by
  cases n with
  | zero => exact newCollection_of_empty h
  | succ n => rw [loadLoop, newCollection_of_empty h]

theorem loadLoop_of_removed {n : ℕ} {prog other : BpfProgram}
    (herr : newCollection rejected reporting attempt spec = .error (errorText prog))
    (hother : removed (order attempt) spec prog = some other) :
    loadLoop rejected reporting order (n + 1) attempt spec
      = loadLoop rejected reporting order n (attempt + 1) (spec.erase other) := by
  rw [removed] at hother
  rw [loadLoop, herr]
  dsimp only
  rw [hother]

theorem loadLoop_of_not_removed {n : ℕ} {prog : BpfProgram}
    (herr : newCollection rejected reporting attempt spec = .error (errorText prog))
    (hnone : removed (order attempt) spec prog = none) :
    loadLoop rejected reporting order (n + 1) attempt spec = .error (errorText prog) := by
  rw [removed] at hnone
  rw [loadLoop, herr]
  dsimp only
  rw [hnone]

/-- What is loaded has nothing that is rejected, and an attempt takes out one program. -/
theorem loadLoop_ok {n : ℕ} {coll : Programs}
    (h : loadLoop rejected reporting order n attempt spec = .ok coll) :
    coll ⊆ spec ∧ coll ∩ rejected = ∅ ∧ (spec \ coll).card ≤ n := by
  induction n generalizing attempt spec with
  | zero =>
    rw [loadLoop, newCollection] at h
    split_ifs at h with hempty
    cases h
    exact ⟨Finset.Subset.refl _, hempty, by rw [Finset.sdiff_self]; exact Nat.le_refl 0⟩
  | succ n ih =>
    rcases (spec ∩ rejected).eq_empty_or_nonempty with hempty | hsome
    · rw [loadLoop_of_empty _ hempty] at h
      cases h
      exact ⟨Finset.Subset.refl _, hempty, by rw [Finset.sdiff_self]; exact Nat.zero_le _⟩
    · obtain ⟨prog, -, herr⟩ := newCollection_of_nonempty reporting attempt hsome
      cases hother : removed (order attempt) spec prog with
      | none =>
        rw [loadLoop_of_not_removed herr hother] at h
        cases h
      | some other =>
        rw [loadLoop_of_removed herr hother] at h
        obtain ⟨hsub, hgood, hcard⟩ := ih h
        refine ⟨hsub.trans (Finset.erase_subset _ _), hgood, ?_⟩
        have hinsert : spec \ coll ⊆ insert other (spec.erase other \ coll) := by
          intro p hp
          obtain ⟨hspec, hcoll⟩ := Finset.mem_sdiff.mp hp
          by_cases heq : p = other
          · exact heq ▸ Finset.mem_insert_self _ _
          · exact Finset.mem_insert_of_mem
              (Finset.mem_sdiff.mpr ⟨Finset.mem_erase.mpr ⟨heq, hspec⟩, hcoll⟩)
        exact (Finset.card_le_card hinsert).trans
          ((Finset.card_insert_le _ _).trans (Nat.succ_le_succ hcard))

/-- **The loop** takes out what is rejected, one program an attempt, as long as no error
names another. -/
theorem loadLoop_eq {n : ℕ} (hopt : rejected ⊆ optionalPrograms)
    (hcard : (spec ∩ rejected).card ≤ n) (hnames : NamesRejected rejected spec) :
    loadLoop rejected reporting order n attempt spec = .ok (spec \ rejected) := by
  have hdone : ∀ {spec : Programs}, spec ∩ rejected = ∅ → spec = spec \ rejected := fun h =>
    (Finset.sdiff_eq_self_of_disjoint (Finset.disjoint_iff_inter_eq_empty.mpr h)).symm
  induction n generalizing attempt spec with
  | zero =>
    have hempty : spec ∩ rejected = ∅ := Finset.card_eq_zero.mp (Nat.le_zero.mp hcard)
    rw [loadLoop_of_empty _ hempty, ← hdone hempty]
  | succ n ih =>
    rcases (spec ∩ rejected).eq_empty_or_nonempty with hempty | hsome
    · rw [loadLoop_of_empty _ hempty, ← hdone hempty]
    · obtain ⟨prog, hprog, herr⟩ := newCollection_of_nonempty reporting attempt hsome
      obtain ⟨hspec, hrej⟩ := Finset.mem_inter.mp hprog
      obtain ⟨other, hother⟩ := exists_removed (order attempt) hspec (hopt hrej)
      obtain ⟨hin, hbegins⟩ := removed_spec hother
      have hbad : other ∈ rejected := hnames prog hprog other hin hbegins
      have hinter : spec.erase other ∩ rejected = (spec ∩ rejected).erase other :=
        Finset.erase_inter other spec rejected
      have hless : (spec.erase other ∩ rejected).card ≤ n := by
        rw [hinter, Finset.card_erase_of_mem
          (Finset.mem_inter.mpr ⟨(Finset.mem_inter.mp hin).1, hbad⟩)]
        omega
      have hnames' : NamesRejected rejected (spec.erase other) := by
        intro p hp q hq
        exact hnames p (Finset.inter_subset_inter_right (Finset.erase_subset _ _) hp) q
          (Finset.inter_subset_inter_right (Finset.erase_subset _ _) hq)
      rw [loadLoop_of_removed herr hother, ih hless hnames', Finset.erase_sdiff_comm,
        Finset.erase_eq_of_notMem fun hmem => (Finset.mem_sdiff.mp hmem).2 hbad]

/-- The rejected programs are taken out and no others, whatever is reported and in whatever
order the optional programs are tried. -/
def Loads (rejected spec : Programs) : Prop :=
  ∀ reporting order, loadCollectionWithFallback rejected reporting order spec
    = .ok (spec \ rejected)

/-- Any rejected program may be the one that is reported. -/
theorem exists_reporting (prog : BpfProgram) :
    ∃ reporting : Reporting,
      ∀ attempt found, prog ∈ found → reporting.pick attempt found = prog := by
  classical
  refine ⟨⟨fun _ found => if prog ∈ found then prog else
    if h : found.Nonempty then h.choose else prog, fun _ found h => ?_⟩, fun _ _ h => if_pos h⟩
  by_cases hprog : prog ∈ found
  · rw [if_pos hprog]
    exact hprog
  · rw [if_neg hprog, dif_pos h]
    exact h.choose_spec

/-- **Which rejections the loader copes with**: five programs at most, none of them with an
error that names one that is not rejected. -/
theorem loads_iff (hopt : rejected ⊆ optionalPrograms) :
    Loads rejected spec ↔ (spec ∩ rejected).card ≤ 5 ∧ NamesRejected rejected spec := by
  constructor
  · intro hloads
    constructor
    · obtain ⟨reporting, -⟩ := exists_reporting connect4
      obtain ⟨ord⟩ := RangeOrder.nonempty (κ := BpfProgram)
      have hcard := (loadLoop_ok (hloads reporting fun _ => ord)).2.2
      rwa [Finset.sdiff_sdiff_self_left] at hcard
    · intro prog hprog other hother hbegins
      by_contra hgood
      obtain ⟨hspec, hmem⟩ := Finset.mem_inter.mp hother
      -- the first error names the other one too, and that one is tried first
      obtain ⟨reporting, hpick⟩ := exists_reporting prog
      obtain ⟨ord, rest, hfirst⟩ := RangeOrder.exists_first hmem
      have herr : newCollection rejected reporting 0 spec = .error (errorText prog) := by
        rw [newCollection, if_neg (Finset.ne_empty_of_mem hprog), hpick _ _ hprog]
      have hremoved : removed ord spec prog = some other := by
        rw [removed, hfirst]
        refine List.find?_cons_of_pos ?_
        rw [Bool.and_eq_true, decide_eq_true_iff, containsProgName_errorText]
        exact ⟨hspec, hbegins⟩
      have hresult := hloads reporting fun _ => ord
      rw [loadCollectionWithFallback, loadLoop_of_removed herr hremoved] at hresult
      have hkept := (loadLoop_ok hresult).1 (Finset.mem_sdiff.mpr ⟨hspec, hgood⟩)
      exact Finset.notMem_erase other spec hkept
  · rintro ⟨hcard, hnames⟩ reporting order
    exact loadLoop_eq hopt hcard hnames

end

/-! ### Byte counting -/

/-- A direction of TCP traffic, with its two programs. -/
inductive ByteHook
  | send
  | receive
  deriving DecidableEq, Repr

namespace ByteHook

def fentry : ByteHook → BpfProgram
  | send => tcpSendmsgFentry
  | receive => tcpCleanupRbufFentry

def kprobe : ByteHook → BpfProgram
  | send => tcpSendmsg
  | receive => tcpCleanupRbuf

/-- The programs among these that count this direction. -/
def counting (hook : ByteHook) (attached : List BpfProgram) : List BpfProgram :=
  attached.filter fun prog => prog = hook.fentry ∨ prog = hook.kprobe

end ByteHook

namespace ProgramSupport

variable (k : ProgramSupport)

/-- The fentry program of a hook would load and attach. -/
def FentryGood (hook : ByteHook) : Prop :=
  k.haveFentry = true ∧ hook.fentry ∉ k.rejected ∧ k.link hook.fentry = true

def KprobeGood (hook : ByteHook) : Prop := hook.kprobe ∉ k.rejected ∧ k.link hook.kprobe = true

/-- What is rejected is optional, the required programs attach, and a hook whose fentry
program is no good has a kprobe that is, of which there is one. -/
structure NeedsKprobe : Prop where
  optional : k.rejected ⊆ optionalPrograms
  connect4 : k.link connect4 = true
  sockops : k.link sockops = true
  fentry_bad : ∃ hook, ¬ k.FentryGood hook
  kprobe_good : ∀ hook, ¬ k.FentryGood hook → k.KprobeGood hook

/-- The agent starts, and one attached program counts each direction. -/
def Counted : Prop :=
  ∀ reporting order, ∃ attached, start k reporting order = some attached ∧
    ∀ hook : ByteHook, (hook.counting attached).length = 1

end ProgramSupport

section
variable {k : ProgramSupport} {coll : Programs}

theorem attach_eq_true {prog : BpfProgram} :
    k.attach coll prog = true ↔ prog ∈ coll ∧ k.link prog = true := by
  rw [ProgramSupport.attach, Bool.and_eq_true, decide_eq_true_iff]

/-- With fentry the kprobes have been pruned, so a hook without its fentry program fails. -/
theorem attachByteCountingHooks_of_pruned (hkprobe : tcpSendmsg ∉ coll)
    (hfentry : ¬ ∀ hook : ByteHook, k.attach coll hook.fentry = true) :
    attachByteCountingHooks k coll = none := by
  have hboth : ¬ (k.haveFentry && k.attach coll tcpSendmsgFentry
      && k.attach coll tcpCleanupRbufFentry) = true := by
    rw [Bool.and_eq_true, Bool.and_eq_true]
    rintro ⟨⟨-, hsend⟩, hreceive⟩
    refine hfentry fun hook => ?_
    cases hook with
    | send => exact hsend
    | receive => exact hreceive
  have hno : ¬ k.attach coll tcpSendmsg = true := fun h => hkprobe (attach_eq_true.mp h).1
  rw [attachByteCountingHooks, if_neg hboth, if_neg hno]

theorem not_counted_of_haveFentry (h : k.NeedsKprobe) (hfentry : k.haveFentry = true) :
    ¬ k.Counted := by
  intro hcounted
  obtain ⟨reporting, -⟩ := exists_reporting connect4
  obtain ⟨ord⟩ := RangeOrder.nonempty (κ := BpfProgram)
  obtain ⟨attached, hstart, -⟩ := hcounted reporting fun _ => ord
  rw [start] at hstart
  cases hload : loadCollectionWithFallback k.rejected reporting (fun _ => ord)
      (pruneOptionalPrograms k.haveFentry k.haveTCX objectPrograms) with
  | error err =>
    rw [hload] at hstart
    exact Option.some_ne_none _ hstart.symm
  | ok coll =>
    obtain ⟨hsub, hgood, -⟩ := loadLoop_ok hload
    have hkprobe : tcpSendmsg ∉ coll := by
      have hpruned : ∀ tcx, tcpSendmsg ∉ pruneOptionalPrograms true tcx objectPrograms := by
        decide
      exact fun hmem => hpruned k.haveTCX (hfentry ▸ hsub hmem)
    have hbad : ¬ ∀ hook : ByteHook, k.attach coll hook.fentry = true := by
      intro hall
      obtain ⟨hook, hnot⟩ := h.fentry_bad
      obtain ⟨hmem, hlink⟩ := attach_eq_true.mp (hall hook)
      refine hnot ⟨hfentry, fun hrej => ?_, hlink⟩
      exact Finset.notMem_empty hook.fentry (hgood ▸ Finset.mem_inter.mpr ⟨hmem, hrej⟩)
    rw [hload] at hstart
    dsimp only at hstart
    rw [attachByteCountingHooks_of_pruned hkprobe hbad, Option.map_none, ite_self] at hstart
    exact Option.some_ne_none _ hstart.symm

/-- Without fentry five optional programs are left, with names of which none begins another. -/
theorem loads_of_not_haveFentry (hopt : k.rejected ⊆ optionalPrograms) (tcx : Bool) :
    Loads k.rejected (pruneOptionalPrograms false tcx objectPrograms) := by
  have hcard : (pruneOptionalPrograms false tcx objectPrograms ∩ optionalPrograms).card ≤ 5 := by
    cases tcx <;> decide
  have hnames : ∀ prog ∈ pruneOptionalPrograms false tcx objectPrograms ∩ optionalPrograms,
      ∀ other ∈ pruneOptionalPrograms false tcx objectPrograms ∩ optionalPrograms,
        other.name.isPrefixOf prog.name = true → other = prog := by
    cases tcx <;> decide +kernel
  have hsub : pruneOptionalPrograms false tcx objectPrograms ∩ k.rejected
      ⊆ pruneOptionalPrograms false tcx objectPrograms ∩ optionalPrograms :=
    Finset.inter_subset_inter (Finset.Subset.refl _) hopt
  refine (loads_iff hopt).mpr ⟨(Finset.card_le_card hsub).trans hcard, ?_⟩
  intro prog hprog other hother hbegins
  rw [hnames prog (hsub hprog) other hother hbegins]
  exact (Finset.mem_inter.mp hprog).2

theorem counting_append (hook : ByteHook) (l l' : List BpfProgram) :
    hook.counting (l ++ l') = hook.counting l ++ hook.counting l' := List.filter_append ..

/-- What a hook's direction is counted by does not depend on the other attachments. -/
theorem counting_tryAttach (hook : ByteHook) {prog : BpfProgram} (hf : prog ≠ hook.fentry)
    (hk : prog ≠ hook.kprobe) (coll : Programs) : hook.counting (k.tryAttach coll prog) = [] := by
  rw [ProgramSupport.tryAttach]
  split_ifs
  · exact List.filter_cons_of_neg (by simp [hf, hk])
  · rfl

theorem counted_of_not_haveFentry (h : k.NeedsKprobe) (hfentry : k.haveFentry = false) :
    k.Counted := by
  intro reporting order
  have hno : ∀ hook, ¬ k.FentryGood hook := fun hook hgood =>
    Bool.false_ne_true (hfentry.symm.trans hgood.1)
  have hin : ∀ tcx, connect4 ∈ pruneOptionalPrograms false tcx objectPrograms ∧
      sockops ∈ pruneOptionalPrograms false tcx objectPrograms ∧
      tcpSendmsg ∈ pruneOptionalPrograms false tcx objectPrograms ∧
      tcpCleanupRbuf ∈ pruneOptionalPrograms false tcx objectPrograms := by
    decide
  obtain ⟨hconnect4, hsockops, hsend, hreceive⟩ := hin k.haveTCX
  set spec := pruneOptionalPrograms false k.haveTCX objectPrograms with hspec
  have hload : loadCollectionWithFallback k.rejected reporting order
      (pruneOptionalPrograms k.haveFentry k.haveTCX objectPrograms) = .ok (spec \ k.rejected) := by
    rw [hfentry]
    exact loads_of_not_haveFentry h.optional k.haveTCX reporting order
  have hattach : ∀ {prog}, prog ∈ spec → prog ∉ k.rejected → k.link prog = true →
      k.attach (spec \ k.rejected) prog = true := fun hmem hgood hlink =>
    attach_eq_true.mpr ⟨Finset.mem_sdiff.mpr ⟨hmem, hgood⟩, hlink⟩
  have hc4 := hattach hconnect4 (fun hrej => absurd (h.optional hrej) (by decide)) h.connect4
  have hso := hattach hsockops (fun hrej => absurd (h.optional hrej) (by decide)) h.sockops
  have hks := hattach hsend (h.kprobe_good .send (hno .send)).1 (h.kprobe_good .send (hno .send)).2
  have hkr := hattach hreceive (h.kprobe_good .receive (hno .receive)).1
    (h.kprobe_good .receive (hno .receive)).2
  have hhooks : attachByteCountingHooks k (spec \ k.rejected)
      = some [tcpSendmsg, tcpCleanupRbuf] := by
    rw [attachByteCountingHooks, hfentry]
    simp only [Bool.false_and, Bool.false_eq_true, if_false, hks, hkr, if_true, List.nil_append]
  refine ⟨_, by rw [start, hload]; dsimp only; rw [hc4, hso, hhooks]; rfl, fun hook => ?_⟩
  have hc6 : hook.counting (k.tryAttach (spec \ k.rejected) connect6) = [] := by
    cases hook <;> exact counting_tryAttach _ (by decide) (by decide) _
  have hsr : hook.counting (k.tryAttach (spec \ k.rejected) sockRelease) = [] := by
    cases hook <;> exact counting_tryAttach _ (by decide) (by decide) _
  rw [counting_append, counting_append, counting_append, counting_append, hc6, hsr]
  cases hook <;> rfl

/-- **The kprobes stand in** exactly where there is no fentry at all. -/
theorem counted_iff (h : k.NeedsKprobe) : k.Counted ↔ k.haveFentry = false := by
  constructor
  · intro hcounted
    by_contra hnot
    exact not_counted_of_haveFentry h (Bool.eq_true_of_not_eq_false hnot) hcounted
  · exact counted_of_not_haveFentry h

end

/-- **Optional programs** are taken out and no others exactly when at most five are rejected
and none of their errors names one that is not; and a kprobe stands in for an fentry program
exactly where there is no fentry at all. -/
theorem optional_fallback_iff {rejected : Programs} (hopt : rejected ⊆ optionalPrograms)
    (spec : Programs) {k : ProgramSupport} (hneeds : k.NeedsKprobe) :
    (Loads rejected spec ↔ (spec ∩ rejected).card ≤ 5 ∧ NamesRejected rejected spec) ∧
      (k.Counted ↔ k.haveFentry = false) :=
  ⟨loads_iff hopt, counted_iff hneeds⟩

/-- On an old kernel that rejects a program of its own, both come out well. -/
theorem fallback_without_fentry :
    Loads {quicEgress} (pruneOptionalPrograms false true objectPrograms) ∧
      ProgramSupport.Counted ⟨false, true, {quicEgress}, fun _ => true⟩ := by
  have hneeds : ProgramSupport.NeedsKprobe ⟨false, true, {quicEgress}, fun _ => true⟩ :=
    ⟨by decide, rfl, rfl, ⟨.send, fun hgood => Bool.false_ne_true hgood.1⟩,
      fun hook _ => ⟨by cases hook <;> decide, rfl⟩⟩
  have hboth := optional_fallback_iff hneeds.optional
    (pruneOptionalPrograms false true objectPrograms) hneeds
  exact ⟨hboth.1.mpr ⟨by decide, by decide +kernel⟩, hboth.2.mpr rfl⟩

/-- Six of the programs that a kernel with fentry is given are rejected; and one with fentry
to which the program on sends cannot be attached. -/
theorem fallback_fails :
    ¬ Loads {tcpRetransmit, tcpLossProbe, dnsRecvmsg, udpRecvmsgExit, udpSendmsg, quicEgress}
        (pruneOptionalPrograms true true objectPrograms) ∧
      ¬ ProgramSupport.Counted ⟨true, true, ∅, fun prog => prog != tcpSendmsgFentry⟩ := by
  refine ⟨fun hloads => ?_, ?_⟩
  · have hcard := ((loads_iff (by decide)).mp hloads).1
    exact absurd hcard (by decide)
  · refine not_counted_of_haveFentry ⟨by decide, rfl, rfl, ⟨.send, ?_⟩, fun hook hbad => ?_⟩ rfl
    · exact fun hgood => Bool.false_ne_true hgood.2.2
    · cases hook <;> exact ⟨by decide, rfl⟩

end ProgramFallback
