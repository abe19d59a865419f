/-
The subject of the NATS publisher (`pkg/nats/publisher.go`), and how NATS matches it
against the filters of the consumer and of the stream.

* `tokens_subject` — the tokens of a subject are those of its parts;
* `validateSubjectToken_ok_iff` — what the check accepts, character by character;
* `accepted_iff_publishable` — the names that are accepted are those that give a
  publishable subject.
-/
import Tollwing.Quote

namespace Subjects

/-! ### The publisher -/

/-- `PublisherConfig`, as far as the subject is made of it. -/
structure PublisherConfig where
  cluster : String
  node : String

def flowSubject : String := "tollwing.flows"

section
variable (printed : Char → Bool)

/-- `%q`. -/
def quoted (s : String) : String := String.ofList (Quote.quote printed s)

/-- A round of the inner loop of `ValidateSubjectToken`, over the characters of a part. -/
def checkRune (v : String) (r : Char) : Except String Unit :=
  if r = '*' ∨ r = '>' then
    .error ("subject token " ++ quoted printed v ++ " contains NATS wildcard "
      ++ quoted printed (String.singleton r))
  else if r = ' ' ∨ r = '\t' ∨ r = '\n' ∨ r = '\r' ∨ r.toNat < 0x20 ∨ r.toNat = 0x7f then
    .error ("subject token " ++ quoted printed v ++ " contains whitespace or a control character")
  else .ok ()

/-- And of the outer one, over the parts between the dots. -/
def checkPart (v : String) (part : List Char) : Except String Unit :=
  if part = [] then
    .error ("subject token " ++ quoted printed v ++ " has an empty dot-delimited part")
  else forM part (checkRune printed v)

def validateSubjectToken (v : String) : Except String Unit :=
  if v = "" then .error "empty subject token"
  else forM (v.toList.splitOn '.') (checkPart printed v)

/-- `validate`. -/
def PublisherConfig.validate (c : PublisherConfig) : Except String Unit :=
  match validateSubjectToken printed c.cluster with
  | .error err => .error ("cluster: " ++ err)
  | .ok () =>
    match validateSubjectToken printed c.node with
    | .error err => .error ("node: " ++ err)
    | .ok () => .ok ()

/-- The subject of a new publisher. -/
def PublisherConfig.subject (c : PublisherConfig) : String :=
  flowSubject ++ "." ++ c.cluster ++ "." ++ c.node

/-- `NewPublisher`, as far as the subject goes. -/
def newPublisher (c : PublisherConfig) : Except String String :=
  match c.validate printed with
  | .error err => .error ("nats publisher config: " ++ err)
  | .ok () => .ok c.subject

end

/-! ### Matching -/

/-- The tokens of a subject or a filter. -/
def tokens (s : String) : List (List Char) := s.toList.splitOn '.'

/-- Whether a filter matches a subject: a star stands for a token, and the last token may
stand for one or more. -/
def covers : List (List Char) → List (List Char) → Bool
  | [], [] => true
  | [['>']], _ :: _ => true
  | f :: fs, t :: ts => (f = ['*'] || f = t) && covers fs ts
  | _, _ => false

/-- The filters of the consumer and of the stream. -/
def consumerFilter : String := flowSubject ++ ".>"

def streamFilter : String := "tollwing.>"

/-- White space and control characters of ASCII. -/
def isBlankOrControl (c : Char) : Bool := c.toNat ≤ 0x20 || c.toNat = 0x7f

/-- A subject that is published, kept and delivered: no token is empty, no character is a
wildcard or blank, and both filters match it. -/
structure Publishable (subject : String) : Prop where
  nonempty : ∀ token ∈ tokens subject, token ≠ []
  plain : ∀ c ∈ subject.toList, c ≠ '*' ∧ c ≠ '>' ∧ isBlankOrControl c = false
  delivered : covers (tokens consumerFilter) (tokens subject) = true
  kept : covers (tokens streamFilter) (tokens subject) = true

/-! ### What the check accepts -/

theorem forM_ok_iff {α : Type*} {check : α → Except String Unit} (l : List α) :
    forM l check = .ok () ↔ ∀ a ∈ l, check a = .ok () := by
  induction l with
  | nil => exact iff_of_true rfl fun a ha => absurd ha List.not_mem_nil
  | cons a l ih =>
    rw [List.forM_cons, List.forall_mem_cons, ← ih]
    cases check a with
    | error err => exact iff_of_false (by rintro h; cases h) (by rintro ⟨h, -⟩; cases h)
    | ok u => exact (and_iff_right rfl).symm

section
variable (printed : Char → Bool)

theorem checkRune_ok_iff (v : String) (r : Char) : checkRune printed v r = .ok () ↔
    r ≠ '*' ∧ r ≠ '>' ∧ isBlankOrControl r = false := by
  have hblank : r = ' ' ∨ r = '\t' ∨ r = '\n' ∨ r = '\r' ∨ r.toNat < 0x20 ∨ r.toNat = 0x7f ↔
      isBlankOrControl r = true := by
    rw [isBlankOrControl, Bool.or_eq_true, decide_eq_true_eq, decide_eq_true_eq]
    constructor
    · rintro (rfl | rfl | rfl | rfl | hlow | hdel)
      · exact Or.inl (by decide)
      · exact Or.inl (by decide)
      · exact Or.inl (by decide)
      · exact Or.inl (by decide)
      · exact Or.inl hlow.le
      · exact Or.inr hdel
    · rintro (hlow | hdel)
      · rcases Nat.lt_or_eq_of_le hlow with hlt | heq
        · simp [hlt]
        · exact Or.inl (Char.toNat_inj.mp heq)
      · simp [hdel]
  rw [checkRune]
  split_ifs with hwild hctl
  · refine iff_of_false (by rintro h; cases h) fun h => ?_
    exact hwild.elim h.1 h.2.1
  · refine iff_of_false (by rintro h; cases h) fun h => ?_
    exact Bool.false_ne_true (h.2.2.symm.trans (hblank.mp hctl))
  · exact iff_of_true rfl ⟨fun h => hwild (Or.inl h), fun h => hwild (Or.inr h),
      Bool.eq_false_iff.mpr fun h => hctl (hblank.mpr h)⟩

/-- A dot is none of the characters that are refused. -/
theorem dot_plain : '.' ≠ '*' ∧ '.' ≠ '>' ∧ isBlankOrControl '.' = false := by decide

theorem checkPart_ok_iff (v : String) (part : List Char) : checkPart printed v part = .ok () ↔
    part ≠ [] ∧ ∀ c ∈ part, c ≠ '*' ∧ c ≠ '>' ∧ isBlankOrControl c = false := by
  rw [checkPart]
  split_ifs with hempty
  · exact iff_of_false (by rintro h; cases h) fun h => h.1 hempty
  · rw [forM_ok_iff, and_iff_right hempty]
    exact forall₂_congr fun c _ => checkRune_ok_iff printed v c

end

/-- The characters of a text are those of its parts, and dots. -/
theorem forall_mem_splitOn {cs : List Char} {p : Char → Prop} (hdot : p '.') :
    (∀ part ∈ cs.splitOn '.', ∀ c ∈ part, p c) ↔ ∀ c ∈ cs, p c := by
  induction cs with
  | nil => simp
  | cons c cs ih =>
    rw [List.forall_mem_cons, ← ih, List.splitOn_cons_eq_if_modifyHead]
    obtain ⟨part, parts, hparts⟩ := List.exists_cons_of_ne_nil (List.splitOn_ne_nil '.' cs)
    rw [hparts]
    by_cases hc : c = '.'
    · rw [if_pos (by simp [hc]), hc, List.forall_mem_cons]
      exact ⟨fun h => ⟨hdot, h.2⟩, fun h => ⟨fun c hc => absurd hc List.not_mem_nil, h.2⟩⟩
    · rw [if_neg (by simp [hc]), List.modifyHead_cons, List.forall_mem_cons,
        List.forall_mem_cons, List.forall_mem_cons, and_assoc]

section
variable (printed : Char → Bool)

/-- The check accepts what has no empty part, wildcard or blank. -/
theorem validateSubjectToken_ok_iff (v : String) : validateSubjectToken printed v = .ok () ↔
    (∀ part ∈ tokens v, part ≠ []) ∧
      ∀ c ∈ v.toList, c ≠ '*' ∧ c ≠ '>' ∧ isBlankOrControl c = false := by
  rw [← forall_mem_splitOn dot_plain, ← tokens, ← forall₂_and, validateSubjectToken]
  split_ifs with hempty
  · -- the empty text has an empty part
    refine iff_of_false (by rintro h; cases h) fun h => ?_
    rw [hempty] at h
    exact (h [] (by decide)).1 rfl
  · rw [forM_ok_iff, ← tokens]
    exact forall₂_congr fun part _ => checkPart_ok_iff printed v part

end

/-! ### The subject -/

theorem toList_subject (c : PublisherConfig) : c.subject.toList
    = "tollwing.flows".toList ++ '.' :: (c.cluster.toList ++ '.' :: c.node.toList) := by
  simp [PublisherConfig.subject, flowSubject, String.toList_append]

/-- The tokens of a subject are its prefix and those of its parts. -/
theorem tokens_subject (c : PublisherConfig) : tokens c.subject
    = ["tollwing".toList, "flows".toList] ++ (tokens c.cluster ++ tokens c.node) := by
  rw [tokens, toList_subject, List.splitOn_append_cons_self, List.splitOn_append_cons_self]
  rfl

/-- Both filters match every subject: whatever follows the prefix is a token at least. -/
theorem covers_subject (c : PublisherConfig) :
    covers (tokens consumerFilter) (tokens c.subject) = true ∧
      covers (tokens streamFilter) (tokens c.subject) = true := by
  have hconsumer : tokens consumerFilter = ["tollwing".toList, "flows".toList, ['>']] := by
    decide +kernel
  have hstream : tokens streamFilter = ["tollwing".toList, ['>']] := by decide +kernel
  obtain ⟨part, parts, hparts⟩ :=
    List.exists_cons_of_ne_nil (List.splitOn_ne_nil '.' c.cluster.toList)
  rw [tokens_subject, hconsumer, hstream, tokens, hparts]
  exact ⟨rfl, rfl⟩

theorem validateSubjectToken_both_iff (printed : Char → Bool) (c : PublisherConfig) :
    (validateSubjectToken printed c.cluster = .ok () ∧
      validateSubjectToken printed c.node = .ok ()) ↔ Publishable c.subject := by
  rw [validateSubjectToken_ok_iff, validateSubjectToken_ok_iff]
  have hbegins : ∀ token ∈ ["tollwing".toList, "flows".toList], token ≠ [] := by decide
  have hflow : ∀ x ∈ "tollwing.flows".toList, x ≠ '*' ∧ x ≠ '>' ∧ isBlankOrControl x = false := by
    have hall : "tollwing.flows".toList.all
        (fun x => x ≠ '*' && x ≠ '>' && !isBlankOrControl x) = true := rfl
    intro x hx
    simpa [and_assoc] using List.all_eq_true.mp hall x hx
  constructor
  · rintro ⟨⟨hcluster, hclusterPlain⟩, hnode, hnodePlain⟩
    refine ⟨?_, ?_, (covers_subject c).1, (covers_subject c).2⟩
    · rw [tokens_subject, List.forall_mem_append, List.forall_mem_append]
      exact ⟨hbegins, hcluster, hnode⟩
    · rw [toList_subject, List.forall_mem_append, List.forall_mem_cons, List.forall_mem_append,
        List.forall_mem_cons]
      exact ⟨hflow, dot_plain, hclusterPlain, dot_plain, hnodePlain⟩
  · intro h
    have hnonempty := h.nonempty
    have hplain := h.plain
    rw [tokens_subject, List.forall_mem_append, List.forall_mem_append] at hnonempty
    rw [toList_subject, List.forall_mem_append, List.forall_mem_cons, List.forall_mem_append,
      List.forall_mem_cons] at hplain
    exact ⟨⟨hnonempty.2.1, hplain.2.2.1⟩, hnonempty.2.2, hplain.2.2.2.2⟩

theorem validate_ok_iff (printed : Char → Bool) (c : PublisherConfig) :
    c.validate printed = .ok () ↔ validateSubjectToken printed c.cluster = .ok () ∧
      validateSubjectToken printed c.node = .ok () := by
  rw [PublisherConfig.validate]
  cases validateSubjectToken printed c.cluster with
  | error err => exact iff_of_false (by rintro h; cases h) (by rintro ⟨h, -⟩; cases h)
  | ok u =>
    cases validateSubjectToken printed c.node with
    | error err => exact iff_of_false (by rintro h; cases h) (by rintro ⟨-, h⟩; cases h)
    | ok u => exact iff_of_true rfl ⟨rfl, rfl⟩

/-- The names of a cluster and a node are accepted just when their subject is publishable;
a publisher is made for these, and publishes under that subject. -/
theorem accepted_iff_publishable (printed : Char → Bool) (c : PublisherConfig) :
    (validateSubjectToken printed c.cluster = .ok () ∧
        validateSubjectToken printed c.node = .ok () ↔ Publishable c.subject) ∧
      ∀ subject, newPublisher printed c = .ok subject ↔
        subject = c.subject ∧ Publishable c.subject := by
  refine ⟨validateSubjectToken_both_iff printed c, fun subject => ?_⟩
  rw [← validateSubjectToken_both_iff printed c, ← validate_ok_iff, newPublisher]
  cases c.validate printed with
  | error err => exact iff_of_false (by rintro h; cases h) (by rintro ⟨-, h⟩; cases h)
  | ok u => exact ⟨fun h => ⟨(Except.ok.inj h).symm, rfl⟩, fun h => congrArg Except.ok h.1.symm⟩

end Subjects
