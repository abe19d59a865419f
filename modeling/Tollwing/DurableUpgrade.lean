/-
Binding a durable consumer (`pkg/nats/subscriber.go`).

`subscribeWithDurableUpgrade` subscribes with the delivery cap, upgrades a consumer
that lacks it, and else subscribes without.  The server keeps one consumer
configuration; how it answers a call is a `Behaviour`, which may depend on all the
calls before.  A subscription may create the consumer but never changes one, and an
update that fails may have been applied.  `printed` is which characters beyond Latin-1
`%q` prints as they are.

* `RunForm` — what a run calls, and what becomes of the consumer;
* `DurableServer.run_settled` — every run has one outcome, updates at most once and
  falls back last; after an applied update no later run updates again.
-/
import Mathlib.Data.List.Basic
import Mathlib.Tactic.SplitIfs
import Tollwing.Quote

/-- A consumer's configuration: the cap, and the fields that the upgrade keeps. -/
structure ConsumerConfig (ρ : Type) where
  maxDeliver : Int64
  rest : ρ
  deriving DecidableEq

/-- A call to the server: with the cap or not, with the configuration that the server has
and the one it is given, and whether it was applied and failed. -/
inductive MgrCall (ρ : Type)
  | subscribe (withMaxDeliver failed : Bool)
  | consumerInfo (failed : Bool)
  | updateConsumer (server : Option (ConsumerConfig ρ)) (cfg : ConsumerConfig ρ)
      (applied failed : Bool)
  deriving DecidableEq

namespace MgrCall

variable {ρ : Type}

def updates : MgrCall ρ → Bool
  | .updateConsumer .. => true
  | _ => false

/-- The updates that the server applied. -/
def updated : MgrCall ρ → Bool
  | .updateConsumer _ _ applied _ => applied
  | _ => false

end MgrCall

/-- How the server answers: with a subscription or an error, and with an error or not.
It chooses what a subscription creates, and whether a failed update is lost. -/
structure Behaviour (ρ S : Type) where
  subscribe : List (MgrCall ρ) → Bool → Option S × Option String
  subscribe_one : ∀ log capped,
    (subscribe log capped).1.isSome = !(subscribe log capped).2.isSome
  creates : List (MgrCall ρ) → Bool → Option (ConsumerConfig ρ)
  consumerInfo : List (MgrCall ρ) → Option String
  notFound : String
  updateConsumer : List (MgrCall ρ) → ConsumerConfig ρ → Option String
  lost : List (MgrCall ρ) → Bool

/-- The server: its configuration of the consumer, if there is one, and the calls so far. -/
structure DurableServer (ρ : Type) where
  consumer : Option (ConsumerConfig ρ)
  log : List (MgrCall ρ)

namespace DurableServer

variable {ρ S : Type} (printed : Char → Bool)

/-- The subscription of a client, with the cap or without. -/
def subscribe (srv : DurableServer ρ) (b : Behaviour ρ S) (withMaxDeliver : Bool) :
    (Option S × Option String) × DurableServer ρ :=
  let answer := b.subscribe srv.log withMaxDeliver
  (answer,
    { consumer := srv.consumer.or (b.creates srv.log withMaxDeliver)
      log := srv.log ++ [.subscribe withMaxDeliver answer.2.isSome] })

/-- `ConsumerInfo`. -/
def consumerInfo (srv : DurableServer ρ) (b : Behaviour ρ S) :
    Except String (ConsumerConfig ρ) × DurableServer ρ :=
  match b.consumerInfo srv.log, srv.consumer with
  | none, some cfg => (.ok cfg, { srv with log := srv.log ++ [.consumerInfo false] })
  | none, none => (.error b.notFound, { srv with log := srv.log ++ [.consumerInfo true] })
  | some err, _ => (.error err, { srv with log := srv.log ++ [.consumerInfo true] })

/-- `UpdateConsumer`. -/
def updateConsumer (srv : DurableServer ρ) (b : Behaviour ρ S) (cfg : ConsumerConfig ρ) :
    Option String × DurableServer ρ :=
  let err := b.updateConsumer srv.log cfg
  let applied := err.isNone || !b.lost srv.log
  (err,
    { consumer := if applied then some cfg else srv.consumer
      log := srv.log ++ [.updateConsumer srv.consumer cfg applied err.isSome] })

/-- `upgradeDurableMaxDeliver`: the error, if any. -/
def upgradeDurableMaxDeliver (srv : DurableServer ρ) (b : Behaviour ρ S) (durable : String)
    (maxDeliver : Int64) : Option String × DurableServer ρ :=
  match srv.consumerInfo b with
  | (.error err, srv) => (some ("consumer info: " ++ err), srv)
  | (.ok cfg, srv) =>
    if cfg.maxDeliver = maxDeliver then
      (some ("consumer " ++ String.ofList (Quote.quote printed durable)
        ++ " already has max_deliver=" ++ toString maxDeliver
        ++ "; the subscribe failure has another cause"), srv)
    else
      match srv.updateConsumer b { cfg with maxDeliver := maxDeliver } with
      | (some err, srv) => (some ("update consumer: " ++ err), srv)
      | (none, srv) => (none, srv)

/-- The last resort: a subscription without the cap, or the error from before. -/
def subscribeUncapped (srv : DurableServer ρ) (b : Behaviour ρ S) (err : String) :
    (Option S × Option String) × DurableServer ρ :=
  match srv.subscribe b false with
  | ((_, some _), srv) => ((none, some err), srv)
  | ((sub, none), srv) => ((sub, none), srv)

/-- `subscribeWithDurableUpgrade`. -/
def subscribeWithDurableUpgrade (srv : DurableServer ρ) (b : Behaviour ρ S) (durable : String)
    (maxDeliver : Int64) : (Option S × Option String) × DurableServer ρ :=
  match srv.subscribe b true with
  | ((sub, none), srv) => ((sub, none), srv)
  | ((_, some err), srv) =>
    match srv.upgradeDurableMaxDeliver printed b durable maxDeliver with
    | (some _, srv) => srv.subscribeUncapped b err
    | (none, srv) =>
      match srv.subscribe b true with
      | ((sub, none), srv) => ((sub, none), srv)
      | ((_, some retryErr), srv) => srv.subscribeUncapped b retryErr

end DurableServer

/-! ### The form of a run -/

section

variable {ρ S : Type}

/-- A configuration that is there stays as it is. -/
def Keeps (o o' : Option (ConsumerConfig ρ)) : Prop := ∀ cfg, o = some cfg → o' = some cfg

/-- What an upgrade calls and does, and whether it fails. -/
inductive UpgradeForm (maxDeliver : Int64) :
    Option (ConsumerConfig ρ) → Option (ConsumerConfig ρ) → List (MgrCall ρ) → Bool → Prop
  | refused (o : Option (ConsumerConfig ρ)) (failed : Bool) :
      UpgradeForm maxDeliver o o [.consumerInfo failed] true
  | tried (cfg : ConsumerConfig ρ) (applied failed : Bool) (hcap : cfg.maxDeliver ≠ maxDeliver)
      (happlied : failed = false → applied = true) :
      UpgradeForm maxDeliver (some cfg)
        (some (if applied then { cfg with maxDeliver := maxDeliver } else cfg))
        [.consumerInfo false,
          .updateConsumer (some cfg) { cfg with maxDeliver := maxDeliver } applied failed]
        failed

/-- What a run calls and does, and what it returns. -/
inductive RunForm (maxDeliver : Int64) :
    Option (ConsumerConfig ρ) → Option (ConsumerConfig ρ) → List (MgrCall ρ) →
      Option S × Option String → Prop
  | bound {o o' : Option (ConsumerConfig ρ)} (hkeep : Keeps o o') (sub : S) :
      RunForm maxDeliver o o' [.subscribe true false] (some sub, none)
  | upgraded {o o₁ o₂ o' : Option (ConsumerConfig ρ)} {upgrade : List (MgrCall ρ)}
      (hkeep : Keeps o o₁) (hupgrade : UpgradeForm maxDeliver o₁ o₂ upgrade false)
      (hkeep' : Keeps o₂ o') (sub : S) :
      RunForm maxDeliver o o' (.subscribe true true :: upgrade ++ [.subscribe true false])
        (some sub, none)
  | uncapped {o o₁ o₂ o' : Option (ConsumerConfig ρ)} {upgrade retry : List (MgrCall ρ)}
      {failed : Bool} (hkeep : Keeps o o₁) (hupgrade : UpgradeForm maxDeliver o₁ o₂ upgrade failed)
      (hretry : retry = [] ∨ retry = [.subscribe true true]) (hkeep' : Keeps o₂ o') (sub : S) :
      RunForm maxDeliver o o'
        (.subscribe true true :: upgrade ++ retry ++ [.subscribe false false]) (some sub, none)
  | refused {o o₁ o₂ o' : Option (ConsumerConfig ρ)} {upgrade retry : List (MgrCall ρ)}
      {failed : Bool} (hkeep : Keeps o o₁) (hupgrade : UpgradeForm maxDeliver o₁ o₂ upgrade failed)
      (hretry : retry = [] ∨ retry = [.subscribe true true]) (hkeep' : Keeps o₂ o')
      (err : String) :
      RunForm maxDeliver o o'
        (.subscribe true true :: upgrade ++ retry ++ [.subscribe false true]) (none, some err)

end

namespace DurableServer

variable {ρ S : Type} (printed : Char → Bool)

/-- One subscription: with a subscription or an error, and whatever consumer was there. -/
theorem subscribe_cases (srv : DurableServer ρ) (b : Behaviour ρ S) (capped : Bool) :
    ∃ o, Keeps srv.consumer o ∧
      ((∃ sub, srv.subscribe b capped
          = ((some sub, none), ⟨o, srv.log ++ [.subscribe capped false]⟩)) ∨
        ∃ err, srv.subscribe b capped
          = ((none, some err), ⟨o, srv.log ++ [.subscribe capped true]⟩)) := by
  refine ⟨srv.consumer.or (b.creates srv.log capped), fun cfg hcfg => by rw [hcfg]; rfl, ?_⟩
  have hone := b.subscribe_one srv.log capped
  rw [subscribe]
  rcases h : b.subscribe srv.log capped with ⟨_ | sub, _ | err⟩
  · simp [h] at hone
  · exact Or.inr ⟨err, rfl⟩
  · exact Or.inl ⟨sub, rfl⟩
  · simp [h] at hone

/-- One upgrade. -/
theorem upgrade_form (srv : DurableServer ρ) (b : Behaviour ρ S) (durable : String)
    (maxDeliver : Int64) :
    ∃ upErr o upgrade, srv.upgradeDurableMaxDeliver printed b durable maxDeliver
        = (upErr, ⟨o, srv.log ++ upgrade⟩) ∧
      UpgradeForm maxDeliver srv.consumer o upgrade upErr.isSome := by
  rw [upgradeDurableMaxDeliver, consumerInfo]
  cases hinfo : b.consumerInfo srv.log with
  | some err => exact ⟨_, _, _, rfl, .refused _ _⟩
  | none =>
    cases hconsumer : srv.consumer with
    | none => exact ⟨_, _, _, rfl, .refused _ _⟩
    | some cfg =>
      by_cases hcap : cfg.maxDeliver = maxDeliver
      · simp only [if_pos hcap]
        exact ⟨_, _, _, rfl, .refused _ _⟩
      · simp only [if_neg hcap, updateConsumer, List.append_assoc]
        -- whether it failed, and whether it was applied nonetheless
        cases herr : b.updateConsumer (srv.log ++ [.consumerInfo false])
            { cfg with maxDeliver := maxDeliver } with
        | none => exact ⟨_, _, _, rfl, .tried cfg true false hcap fun _ => rfl⟩
        | some err =>
          cases hlost : b.lost (srv.log ++ [.consumerInfo false]) with
          | true => exact ⟨_, _, _, rfl, .tried cfg false true hcap nofun⟩
          | false => exact ⟨_, _, _, rfl, .tried cfg true true hcap nofun⟩

/-- **The form of a run.** -/
theorem run_form (srv : DurableServer ρ) (b : Behaviour ρ S) (durable : String)
    (maxDeliver : Int64) :
    ∃ result o calls, srv.subscribeWithDurableUpgrade printed b durable maxDeliver
        = (result, ⟨o, srv.log ++ calls⟩) ∧
      RunForm maxDeliver srv.consumer o calls result := by
  rw [subscribeWithDurableUpgrade]
  obtain ⟨o₁, hkeep, ⟨sub, hfirst⟩ | ⟨err, hfirst⟩⟩ := srv.subscribe_cases b true
  · rw [hfirst]
    exact ⟨_, _, _, rfl, .bound hkeep sub⟩
  obtain ⟨upErr, o₂, upgrade, hup, hupgrade⟩ := upgrade_form printed
    ⟨o₁, srv.log ++ [MgrCall.subscribe true true]⟩ b durable maxDeliver
  simp only [hfirst, hup]
  have hlog : ∀ (retry : List (MgrCall ρ)) (call : MgrCall ρ),
      srv.log ++ [MgrCall.subscribe true true] ++ upgrade ++ retry ++ [call]
        = srv.log ++ (MgrCall.subscribe true true :: upgrade ++ retry ++ [call]) := by
    intro retry call
    simp only [List.append_assoc, List.cons_append, List.nil_append]
  -- the last resort, after a retry or without one
  have huncapped : ∀ (o₃ : Option (ConsumerConfig ρ)) (retry : List (MgrCall ρ)) err,
      Keeps o₂ o₃ → (retry = [] ∨ retry = [.subscribe true true]) →
      ∃ result o calls,
        subscribeUncapped ⟨o₃, srv.log ++ [.subscribe true true] ++ upgrade ++ retry⟩ b err
          = (result, ⟨o, srv.log ++ calls⟩) ∧
        RunForm maxDeliver srv.consumer o calls result := by
    intro o₃ retry err hkeep' hretry
    rw [subscribeUncapped]
    obtain ⟨o, hkeep'', ⟨sub, hlast⟩ | ⟨err', hlast⟩⟩ := subscribe_cases
      ⟨o₃, srv.log ++ [.subscribe true true] ++ upgrade ++ retry⟩ b false
    · simp only [hlast, hlog]
      exact ⟨_, _, _, rfl,
        .uncapped hkeep hupgrade hretry (fun cfg hcfg => hkeep'' cfg (hkeep' cfg hcfg)) sub⟩
    · simp only [hlast, hlog]
      exact ⟨_, _, _, rfl,
        .refused hkeep hupgrade hretry (fun cfg hcfg => hkeep'' cfg (hkeep' cfg hcfg)) err⟩
  cases upErr with
  | some upErr =>
    obtain ⟨result, o, calls, hrun, hform⟩ := huncapped o₂ [] err (fun _ h => h) (Or.inl rfl)
    rw [List.append_nil] at hrun
    exact ⟨result, o, calls, hrun, hform⟩
  | none =>
    obtain ⟨o₃, hkeep', ⟨sub, hretry⟩ | ⟨retryErr, hretry⟩⟩ := subscribe_cases
      ⟨o₂, srv.log ++ [.subscribe true true] ++ upgrade⟩ b true
    · simp only [hretry]
      simp only [List.append_assoc, List.cons_append, List.nil_append]
      exact ⟨_, _, _, rfl, .upgraded hkeep hupgrade hkeep' sub⟩
    · simp only [hretry]
      exact huncapped o₃ [.subscribe true true] retryErr hkeep' (Or.inr rfl)

end DurableServer

/-! ### What the form of a run tells -/

section

variable {ρ S : Type} {maxDeliver : Int64}

/-- The consumer has the cap. -/
def Capped (maxDeliver : Int64) (o : Option (ConsumerConfig ρ)) : Prop :=
  ∃ cfg, o = some cfg ∧ cfg.maxDeliver = maxDeliver

theorem Capped.keep {o o' : Option (ConsumerConfig ρ)} (h : Capped maxDeliver o)
    (hkeep : Keeps o o') : Capped maxDeliver o' := by
  obtain ⟨cfg, hcfg, hcap⟩ := h
  exact ⟨cfg, hkeep cfg hcfg, hcap⟩

/-- The updates of an upgrade: at most one, of what the server has. -/
theorem UpgradeForm.updates {o o' : Option (ConsumerConfig ρ)} {upgrade : List (MgrCall ρ)}
    {failed : Bool} (h : UpgradeForm maxDeliver o o' upgrade failed) :
    upgrade.countP MgrCall.updates ≤ 1 ∧
      (∀ server cfg applied failed, .updateConsumer server cfg applied failed ∈ upgrade →
        ∃ c, server = some c ∧ cfg = { c with maxDeliver := maxDeliver }) ∧
      ∀ capped failed, .subscribe capped failed ∉ upgrade := by
  cases h with
  | refused => exact ⟨Nat.zero_le 1, by simp, by simp⟩
  | tried c =>
    refine ⟨Nat.le_refl 1, fun server cfg applied failed hmem => ?_, by simp⟩
    simp only [List.mem_cons, List.not_mem_nil, or_false, reduceCtorEq, false_or,
      MgrCall.updateConsumer.injEq] at hmem
    obtain ⟨rfl, rfl, -, -⟩ := hmem
    exact ⟨c, rfl, rfl⟩

/-- An update that is applied leaves the cap. -/
theorem UpgradeForm.capped_of_updated {o o' : Option (ConsumerConfig ρ)}
    {upgrade : List (MgrCall ρ)} {failed : Bool}
    (h : UpgradeForm maxDeliver o o' upgrade failed)
    (hupdated : ∃ call ∈ upgrade, call.updated = true) : Capped maxDeliver o' := by
  obtain ⟨call, hcall, hup⟩ := hupdated
  cases h with
  | refused failed =>
    rw [List.mem_singleton.mp hcall] at hup
    exact absurd hup nofun
  | tried cfg applied failed =>
    simp only [List.mem_cons, List.not_mem_nil, or_false] at hcall
    rcases hcall with rfl | rfl
    · exact absurd hup nofun
    · have happlied : applied = true := hup
      rw [happlied]
      exact ⟨_, rfl, rfl⟩

/-- A consumer that has the cap is not updated. -/
theorem UpgradeForm.of_capped {o o' : Option (ConsumerConfig ρ)} {upgrade : List (MgrCall ρ)}
    {failed : Bool} (h : UpgradeForm maxDeliver o o' upgrade failed) (ho : Capped maxDeliver o) :
    (∀ call ∈ upgrade, call.updates = false) ∧ o' = o := by
  cases h with
  | refused failed => exact ⟨fun call hcall => by rw [List.mem_singleton.mp hcall]; rfl, rfl⟩
  | tried cfg applied failed hcap =>
    obtain ⟨cfg', hcfg, hcap'⟩ := ho
    rw [Option.some_inj.mp hcfg] at hcap
    exact absurd hcap' hcap

/-- The outcome of a run: a subscription or an error; at most one update, of what the
server has up to the cap; the uncapped subscription as the last resort, after capped
ones that all failed; and an error only if that failed too. -/
structure SettledRun (maxDeliver : Int64) (calls : List (MgrCall ρ))
    (result : Option S × Option String) : Prop where
  one : result.1.isSome = !result.2.isSome
  updates : calls.countP MgrCall.updates ≤ 1
  onlyCap : ∀ server cfg applied failed, .updateConsumer server cfg applied failed ∈ calls →
    ∃ c, server = some c ∧ cfg = { c with maxDeliver := maxDeliver }
  lastResort : ∀ failed, .subscribe false failed ∈ calls →
    ∃ front, calls = front ++ [.subscribe false failed] ∧ .subscribe true true ∈ front ∧
      .subscribe true false ∉ front
  refusal : result.2.isSome = true → .subscribe false true ∈ calls

/-- The parts of a run with an upgrade that ends with the last resort. -/
theorem SettledRun.of_lastResort {o o' : Option (ConsumerConfig ρ)}
    {upgrade retry : List (MgrCall ρ)} {upFailed failed : Bool}
    (hupgrade : UpgradeForm maxDeliver o o' upgrade upFailed)
    (hretry : retry = [] ∨ retry = [.subscribe true true]) {result : Option S × Option String}
    (hone : result.1.isSome = !result.2.isSome)
    (hrefusal : result.2.isSome = true → failed = true) :
    SettledRun maxDeliver (.subscribe true true :: upgrade ++ retry ++ [.subscribe false failed])
      result := by
  obtain ⟨hcount, honly, hsubscribe⟩ := hupgrade.updates
  have hretry' : ∀ call ∈ retry, call = .subscribe true true := by
    rcases hretry with rfl | rfl
    · exact nofun
    · exact fun call hcall => List.mem_singleton.mp hcall
  have hretries : retry.countP MgrCall.updates = 0 :=
    List.countP_eq_zero.mpr fun call hcall => by
      rw [hretry' call hcall]
      exact Bool.false_ne_true
  refine ⟨hone, ?_, fun server cfg applied failed hmem => ?_, fun failed' hmem => ?_,
    fun herr => ?_⟩
  · rw [List.countP_append, List.countP_append, List.countP_cons, hretries]
    exact hcount
  · simp only [List.mem_append, List.mem_cons, List.not_mem_nil, or_false, reduceCtorEq,
      false_or] at hmem
    rcases hmem with hmem | hmem
    · exact honly server cfg applied failed hmem
    · exact absurd (hretry' _ hmem) nofun
  · refine ⟨.subscribe true true :: upgrade ++ retry, ?_, List.mem_append_left _ List.mem_cons_self,
      fun hfront => ?_⟩
    · -- no earlier subscription is without the cap
      simp only [List.mem_append, List.mem_cons, List.not_mem_nil, or_false,
        MgrCall.subscribe.injEq, Bool.false_eq_true, false_and, true_and, false_or] at hmem
      rcases hmem with (hmem | hmem) | rfl
      · exact absurd hmem (hsubscribe false failed')
      · exact absurd (hretry' _ hmem) (by simp)
      · rfl
    · simp only [List.mem_append, List.mem_cons, MgrCall.subscribe.injEq, Bool.false_eq_true,
        and_false, false_or] at hfront
      rcases hfront with hfront | hfront
      · exact hsubscribe true false hfront
      · exact absurd (hretry' _ hfront) (by simp)
  · rw [hrefusal herr]
    exact List.mem_append_right _ (List.mem_singleton.mpr rfl)

/-- Every run settles. -/
theorem RunForm.settled {o o' : Option (ConsumerConfig ρ)} {calls : List (MgrCall ρ)}
    {result : Option S × Option String} (h : RunForm maxDeliver o o' calls result) :
    SettledRun maxDeliver calls result := by
  cases h with
  | bound hkeep sub =>
    exact ⟨rfl, Nat.zero_le 1, by simp, by simp, nofun⟩
  | upgraded hkeep hupgrade hkeep' sub =>
    obtain ⟨hcount, honly, hsubscribe⟩ := hupgrade.updates
    refine ⟨rfl, ?_, fun server cfg applied failed hmem => ?_, fun failed hmem => ?_, nofun⟩
    · rw [List.countP_append, List.countP_cons]
      exact hcount
    · simp only [List.mem_append, List.mem_cons, List.not_mem_nil, or_false, reduceCtorEq,
        false_or] at hmem
      exact honly server cfg applied failed hmem
    · simp only [List.mem_append, List.mem_cons, List.not_mem_nil, or_false,
        MgrCall.subscribe.injEq, Bool.false_eq_true, false_and, false_or] at hmem
      exact absurd hmem (hsubscribe false failed)
  | uncapped hkeep hupgrade hretry hkeep' sub =>
    exact .of_lastResort hupgrade hretry rfl nofun
  | refused hkeep hupgrade hretry hkeep' err =>
    exact .of_lastResort hupgrade hretry rfl fun _ => rfl

/-- Only the upgrade of a run updates. -/
theorem exists_updated_append (front back : List (MgrCall ρ)) {upgrade : List (MgrCall ρ)}
    (hfront : ∀ call ∈ front, call.updated = false) (hback : ∀ call ∈ back, call.updated = false)
    (h : ∃ call ∈ front ++ upgrade ++ back, call.updated = true) :
    ∃ call ∈ upgrade, call.updated = true := by
  obtain ⟨call, hcall, hup⟩ := h
  rcases List.mem_append.mp hcall with hcall | hcall
  · rcases List.mem_append.mp hcall with hcall | hcall
    · exact absurd (hup.symm.trans (hfront call hcall)) nofun
    · exact ⟨call, hcall, hup⟩
  · exact absurd (hup.symm.trans (hback call hcall)) nofun

/-- A run whose update is applied leaves the cap. -/
theorem RunForm.capped_of_updated {o o' : Option (ConsumerConfig ρ)} {calls : List (MgrCall ρ)}
    {result : Option S × Option String} (h : RunForm maxDeliver o o' calls result)
    (hupdated : ∃ call ∈ calls, call.updated = true) : Capped maxDeliver o' := by
  have hlast : ∀ {upgrade retry : List (MgrCall ρ)} {failed : Bool},
      (retry = [] ∨ retry = [.subscribe true true]) →
      (∃ call : MgrCall ρ, call ∈ MgrCall.subscribe true true :: upgrade ++ retry
        ++ [MgrCall.subscribe false failed] ∧ call.updated = true) →
      ∃ call ∈ upgrade, call.updated = true := by
    intro upgrade retry failed hretry hcalls
    refine exists_updated_append [.subscribe true true] (retry ++ [.subscribe false failed])
      (by simp [MgrCall.updated]) ?_ ?_
    · rcases hretry with rfl | rfl <;> simp [MgrCall.updated]
    · rwa [← List.append_assoc]
  cases h with
  | bound hkeep sub => simp [MgrCall.updated] at hupdated
  | upgraded hkeep hupgrade hkeep' sub =>
    refine (hupgrade.capped_of_updated ?_).keep hkeep'
    exact exists_updated_append [.subscribe true true] _ (by simp [MgrCall.updated])
      (by simp [MgrCall.updated]) hupdated
  | uncapped hkeep hupgrade hretry hkeep' sub =>
    exact (hupgrade.capped_of_updated (hlast hretry hupdated)).keep hkeep'
  | refused hkeep hupgrade hretry hkeep' err =>
    exact (hupgrade.capped_of_updated (hlast hretry hupdated)).keep hkeep'

/-- A run on a consumer that has the cap updates nothing and leaves the cap. -/
theorem RunForm.of_capped {o o' : Option (ConsumerConfig ρ)} {calls : List (MgrCall ρ)}
    {result : Option S × Option String} (h : RunForm maxDeliver o o' calls result)
    (ho : Capped maxDeliver o) :
    (∀ call ∈ calls, call.updates = false) ∧ Capped maxDeliver o' := by
  have hlast : ∀ {upgrade retry : List (MgrCall ρ)} {failed : Bool},
      (∀ call ∈ upgrade, call.updates = false) →
      (retry = [] ∨ retry = [.subscribe true true]) →
      ∀ call : MgrCall ρ, call ∈ MgrCall.subscribe true true :: upgrade ++ retry
        ++ [MgrCall.subscribe false failed] → call.updates = false := by
    intro upgrade retry failed hupgrade hretry
    simp only [List.forall_mem_append, List.forall_mem_cons]
    refine ⟨⟨⟨rfl, hupgrade⟩, ?_⟩, rfl, nofun⟩
    rcases hretry with rfl | rfl <;> simp [MgrCall.updates]
  cases h with
  | bound hkeep sub => exact ⟨by simp [MgrCall.updates], ho.keep hkeep⟩
  | upgraded hkeep hupgrade hkeep' sub =>
    obtain ⟨hnone, rfl⟩ := hupgrade.of_capped (ho.keep hkeep)
    refine ⟨?_, (ho.keep hkeep).keep hkeep'⟩
    simp only [List.forall_mem_append, List.forall_mem_cons]
    exact ⟨⟨rfl, hnone⟩, rfl, nofun⟩
  | uncapped hkeep hupgrade hretry hkeep' sub =>
    obtain ⟨hnone, rfl⟩ := hupgrade.of_capped (ho.keep hkeep)
    exact ⟨hlast hnone hretry, (ho.keep hkeep).keep hkeep'⟩
  | refused hkeep hupgrade hretry hkeep' err =>
    obtain ⟨hnone, rfl⟩ := hupgrade.of_capped (ho.keep hkeep)
    exact ⟨hlast hnone hretry, (ho.keep hkeep).keep hkeep'⟩

end

namespace DurableServer

variable {ρ S : Type} (printed : Char → Bool)

/-- Restarts: a run for each behaviour. -/
def runs (srv : DurableServer ρ) (bs : List (Behaviour ρ S)) (durable : String)
    (maxDeliver : Int64) : DurableServer ρ :=
  bs.foldl (fun srv b => (srv.subscribeWithDurableUpgrade printed b durable maxDeliver).2) srv

/-- Restarts on a consumer that has the cap update nothing. -/
theorem runs_of_capped (bs : List (Behaviour ρ S)) (durable : String) {maxDeliver : Int64}
    (srv : DurableServer ρ) (h : Capped maxDeliver srv.consumer) :
    ∃ calls, (srv.runs printed bs durable maxDeliver).log = srv.log ++ calls ∧
      ∀ call ∈ calls, call.updates = false := by
  induction bs generalizing srv with
  | nil => exact ⟨[], (List.append_nil _).symm, nofun⟩
  | cons b bs ih =>
    obtain ⟨result, o, calls, hrun, hform⟩ := srv.run_form printed b durable maxDeliver
    obtain ⟨hnone, hcapped⟩ := hform.of_capped h
    obtain ⟨later, hlog, hlater⟩ := ih ⟨o, srv.log ++ calls⟩ hcapped
    refine ⟨calls ++ later, ?_, List.forall_mem_append.mpr ⟨hnone, hlater⟩⟩
    rw [runs, List.foldl_cons, hrun, ← List.append_assoc]
    exact hlog

/-- **The durable upgrade.**  Whatever the server answers, every run settles; and after a
run whose update was applied no later run updates again. -/
theorem run_settled (srv : DurableServer ρ) (b : Behaviour ρ S) (durable : String)
    (maxDeliver : Int64) :
    ∃ result srv' calls,
      srv.subscribeWithDurableUpgrade printed b durable maxDeliver = (result, srv') ∧
      srv'.log = srv.log ++ calls ∧ SettledRun maxDeliver calls result ∧
      ((∃ call ∈ calls, call.updated = true) →
        ∀ bs : List (Behaviour ρ S), ∃ later,
          (srv'.runs printed bs durable maxDeliver).log = srv'.log ++ later ∧
            ∀ call ∈ later, call.updates = false) := by
  obtain ⟨result, o, calls, hrun, hform⟩ := srv.run_form printed b durable maxDeliver
  refine ⟨result, _, calls, hrun, rfl, hform.settled, fun hupdated bs => ?_⟩
  exact runs_of_capped printed bs durable _ (hform.capped_of_updated hupdated)

/-- A server that rejects the cap until the consumer has it. -/
def strict : Behaviour Unit Unit where
  subscribe log capped :=
    if capped && !log.any MgrCall.updated then (none, some "configuration mismatch")
    else (some (), none)
  subscribe_one log capped := by split <;> rfl
  creates _ _ := none
  consumerInfo _ := none
  notFound := "consumer not found"
  updateConsumer _ _ := none
  lost _ := false

/-- A consumer from before the cap is upgraded in place. -/
example :
    (subscribeWithDurableUpgrade (fun _ => true) ⟨some ⟨-1, ()⟩, []⟩ strict "tollwing-server" 5).2
      = ⟨some ⟨5, ()⟩, [.subscribe true true, .consumerInfo false,
        .updateConsumer (some ⟨-1, ()⟩) ⟨5, ()⟩ true false, .subscribe true false]⟩ := rfl

end DurableServer
