/-
Exactly-once accounting.

Charges are posted to accounts, and an account is now and then closed into a
statement and removed; it is opened again by the next charge.  A charge can
also be refused (no account could be opened, and the refusal is counted) or
missed (it is posted nowhere and nothing is counted).  This file has both
readings of such a system, for any account keys, charges and amounts:

* `Ledger` — which charges sit where.  `Ledger.all_step` says that the charges
  so far are, as a multiset, split over open accounts, statements, refusals and
  misses, so that no charge is lost or filed twice;
* `Book` — what a program keeps of it: balances, statement totals and a count
  of refusals.  `Ledger.book_step` says that the book of a ledger moves as the
  ledger does;
* `Ledger.mem_account_step` — what an account holds is old or the move's;
* `Ledger.sum_all` — the amounts add up accordingly, also over the charges of
  some keys only (`Ledger.sum_all_of_filed`).
-/
import Mathlib.Algebra.BigOperators.Group.Multiset.Basic
import Tollwing.FinMap

/-- What becomes of a charge when it is posted. -/
inductive Posting
  | kept
  | refused
  | missed
  deriving DecidableEq, Repr

/-- One step of an accounting system with charges in `C`. -/
inductive Move (κ C : Type*)
  | idle
  /-- Make sure that the account is open. -/
  | seed (k : κ)
  /-- An account could not be opened, without a charge being involved. -/
  | reject
  | post (k : κ) (c : C) (p : Posting)
  /-- Close the account into a statement, if it is open. -/
  | close (k : κ)

namespace Move

variable {κ C M : Type*}

/-- The charge a move brings in. -/
def charge : Move κ C → Multiset C
  | .post _ c _ => {c}
  | .idle | .seed _ | .reject | .close _ => 0

/-- The charge a move brings in and files nowhere. -/
def miss : Move κ C → Multiset C
  | .post _ c .missed => {c}
  | .post _ _ .kept | .post _ _ .refused | .idle | .seed _ | .reject | .close _ => 0

theorem miss_post_of_ne {k : κ} {c : C} {p : Posting} (h : p ≠ .missed) :
    (Move.post k c p).miss = 0 := by
  cases p with
  | missed => exact absurd rfl h
  | kept => rfl
  | refused => rfl

theorem mem_miss_post {k : κ} {c c' : C} {p : Posting} (h : c' ∈ (Move.post k c p).miss) :
    p = .missed ∧ c' = c := by
  cases p with
  | missed => exact ⟨rfl, Multiset.mem_singleton.mp h⟩
  | kept => exact absurd h (Multiset.notMem_zero c')
  | refused => exact absurd h (Multiset.notMem_zero c')

/-- The same move on other charges. -/
def map (f : C → M) : Move κ C → Move κ M
  | .idle => .idle
  | .seed k => .seed k
  | .reject => .reject
  | .post k c p => .post k (f c) p
  | .close k => .close k

/-- A posting goes to the account of its charge. -/
def Filed (keyOf : C → κ) : Move κ C → Prop
  | .post k c _ => k = keyOf c
  | .idle | .seed _ | .reject | .close _ => True

/-- A move without a charge is a move on any charges. -/
theorem exists_map_of_charge_eq_zero (f : C → M) (keyOf : C → κ) {mv : Move κ M}
    (h : mv.charge = 0) :
    ∃ mv' : Move κ C, mv'.map f = mv ∧ mv'.charge = 0 ∧ mv'.miss = 0 ∧ mv'.Filed keyOf := by
  cases mv with
  | idle => exact ⟨.idle, rfl, rfl, rfl, trivial⟩
  | seed k => exact ⟨.seed k, rfl, rfl, rfl, trivial⟩
  | reject => exact ⟨.reject, rfl, rfl, rfl, trivial⟩
  | post k m p => exact absurd h (Multiset.singleton_ne_zero m)
  | close k => exact ⟨.close k, rfl, rfl, rfl, trivial⟩

end Move

/-- Which charges sit in which account, in which statement, or nowhere. -/
structure Ledger (κ C : Type*) where
  accounts : FinMap κ (Multiset C)
  statements : List (κ × Multiset C)
  refused : Multiset C
  rejected : ℕ
  missed : Multiset C

/-- The totals of a ledger: balances, statement amounts and refusals. -/
structure Book (κ M D : Type*) where
  balance : κ → Option M
  statements : List (κ × M)
  refusals : D

namespace Ledger

variable {κ C M D : Type*} [DecidableEq κ]

def empty : Ledger κ C := ⟨∅, [], 0, 0, 0⟩

def step (l : Ledger κ C) : Move κ C → Ledger κ C
  | .idle => l
  | .seed k => { l with accounts := l.accounts.insert k ((l.accounts.lookup k).getD 0) }
  | .reject => { l with rejected := l.rejected + 1 }
  | .post k c .kept =>
    { l with accounts := l.accounts.insert k ({c} + (l.accounts.lookup k).getD 0) }
  | .post _ c .refused => { l with refused := {c} + l.refused }
  | .post _ c .missed => { l with missed := {c} + l.missed }
  | .close k =>
    match l.accounts.lookup k with
    | none => l
    | some cs =>
      { l with accounts := l.accounts.erase k, statements := l.statements ++ [(k, cs)] }

/-- Every charge of the ledger, wherever it sits. -/
def all (l : Ledger κ C) : Multiset C :=
  l.accounts.sum (fun _ cs => cs) + (l.statements.map Prod.snd).sum + l.refused + l.missed

/-! ### No charge is lost or filed twice -/

theorem sum_accounts_insert (m : FinMap κ (Multiset C)) (k : κ) (cs : Multiset C) :
    FinMap.sum (m.insert k (cs + (m.lookup k).getD 0)) (fun _ cs => cs)
      = cs + m.sum fun _ cs => cs := by
  rw [FinMap.sum_insert]
  cases h : m.lookup k with
  | none => rw [FinMap.erase_of_lookup_none h, Option.getD_none, add_zero]
  | some cs' => rw [FinMap.sum_eq_add_erase h, Option.getD_some, add_assoc]

/-- A move brings in its own charge and loses none. -/
theorem all_step (l : Ledger κ C) (mv : Move κ C) : (l.step mv).all = mv.charge + l.all := by
  cases mv with
  | idle => exact (zero_add _).symm
  | reject => exact (zero_add _).symm
  | seed k =>
    have h := sum_accounts_insert l.accounts k 0
    rw [zero_add, zero_add] at h
    rw [step, all, h, Move.charge, zero_add, all]
  | post k c p =>
    cases p with
    | kept =>
      rw [step, all, sum_accounts_insert, Move.charge, all]
      simp only [add_assoc]
    | refused =>
      rw [step, all, Move.charge, all]
      simp only [add_assoc, add_left_comm]
    | missed =>
      rw [step, all, Move.charge, all]
      simp only [add_assoc, add_left_comm]
  | close k =>
    rw [step, Move.charge, zero_add]
    cases h : l.accounts.lookup k with
    | none => rfl
    | some cs =>
      rw [all, all, FinMap.sum_eq_add_erase h, List.map_append, List.sum_append]
      simp only [List.map_cons, List.map_nil, List.sum_cons, List.sum_nil, add_zero]
      ac_rfl

/-- Where a charge can sit. -/
theorem mem_all {l : Ledger κ C} {c : C} :
    c ∈ l.all ↔ (∃ k cs, l.accounts.lookup k = some cs ∧ c ∈ cs) ∨
      (∃ s ∈ l.statements, c ∈ s.2) ∨ c ∈ l.refused ∨ c ∈ l.missed := by
  have haccounts : c ∈ l.accounts.sum (fun _ cs => cs) ↔
      ∃ k cs, l.accounts.lookup k = some cs ∧ c ∈ cs := by
    rw [FinMap.sum]
    refine Multiset.mem_join.trans ⟨?_, ?_⟩
    · rintro ⟨cs, hcs, hc⟩
      obtain ⟨e, he, rfl⟩ := Multiset.mem_map.mp hcs
      exact ⟨e.1, e.2, Finmap.mem_lookup_iff.mpr he, hc⟩
    · rintro ⟨k, cs, hcs, hc⟩
      exact ⟨cs, Multiset.mem_map.mpr ⟨⟨k, cs⟩, Finmap.mem_lookup_iff.mp hcs, rfl⟩, hc⟩
  have hstatements : c ∈ (l.statements.map Prod.snd).sum ↔ ∃ s ∈ l.statements, c ∈ s.2 := by
    rw [← Multiset.sum_coe]
    refine Multiset.mem_join.trans ⟨?_, ?_⟩
    · rintro ⟨cs, hcs, hc⟩
      obtain ⟨s, hs, rfl⟩ := List.mem_map.mp (Multiset.mem_coe.mp hcs)
      exact ⟨s, hs, hc⟩
    · rintro ⟨s, hs, hc⟩
      exact ⟨s.2, Multiset.mem_coe.mpr (List.mem_map_of_mem hs), hc⟩
  rw [all, Multiset.mem_add, Multiset.mem_add, Multiset.mem_add, haccounts, hstatements, or_assoc,
    or_assoc]

/-- The misses of a step are those of its move. -/
theorem missed_step (l : Ledger κ C) (mv : Move κ C) :
    (l.step mv).missed = mv.miss + l.missed := by
  cases mv with
  | post k c p => cases p <;> simp [step, Move.miss]
  | close k =>
    rw [step, Move.miss, zero_add]
    cases l.accounts.lookup k <;> rfl
  | _ => exact (zero_add _).symm

/-- What an account holds was there before the move or came with it. -/
theorem mem_account_step {l : Ledger κ C} {mv : Move κ C} {k : κ} {cs : Multiset C} {c : C}
    (h : (l.step mv).accounts.lookup k = some cs) (hc : c ∈ cs) :
    c ∈ mv.charge ∨ ∃ cs', l.accounts.lookup k = some cs' ∧ c ∈ cs' := by
  -- an account that is written to: what is new, and what it held
  have hinsert : ∀ k' new,
      (l.accounts.insert k' (new + (l.accounts.lookup k').getD 0)).lookup k = some cs →
      c ∈ new ∨ ∃ cs', l.accounts.lookup k = some cs' ∧ c ∈ cs' := by
    intro k' new hlookup
    rcases FinMap.lookup_insert_eq_some.mp hlookup with ⟨rfl, rfl⟩ | ⟨-, hold⟩
    · rcases Multiset.mem_add.mp hc with hc | hc
      · exact Or.inl hc
      · cases hwas : l.accounts.lookup k with
        | none => simp [hwas] at hc
        | some cs' => exact Or.inr ⟨cs', rfl, by simpa [hwas] using hc⟩
    · exact Or.inr ⟨cs, hold, hc⟩
  cases mv with
  | idle => exact Or.inr ⟨cs, h, hc⟩
  | reject => exact Or.inr ⟨cs, h, hc⟩
  | seed k' =>
    refine (hinsert k' 0 ?_).imp_left fun hnone => absurd hnone (Multiset.notMem_zero c)
    rw [zero_add]
    exact h
  | post k' c' p =>
    cases p with
    | kept => exact hinsert k' {c'} h
    | refused => exact Or.inr ⟨cs, h, hc⟩
    | missed => exact Or.inr ⟨cs, h, hc⟩
  | close k' =>
    rw [step] at h
    cases hk : l.accounts.lookup k' with
    | none =>
      rw [hk] at h
      exact Or.inr ⟨cs, h, hc⟩
    | some closed =>
      rw [hk] at h
      exact Or.inr ⟨cs, (FinMap.lookup_erase_eq_some.mp h).2, hc⟩

/-! ### The book of a ledger -/

/-- What a set of charges amounts to. -/
def total [AddCommMonoid M] (amount : C → M) (cs : Multiset C) : M := (cs.map amount).sum

section
variable [AddCommMonoid M] [AddMonoid D] [One D] (amount : C → M)

@[simp] theorem total_singleton (c : C) : total amount {c} = amount c := by
  rw [total, Multiset.map_singleton, Multiset.sum_singleton]

@[simp] theorem total_add (cs cs' : Multiset C) :
    total amount (cs + cs') = total amount cs + total amount cs' := by
  rw [total, Multiset.map_add, Multiset.sum_add, total, total]

/-- The totals a program keeps of a ledger. -/
def book (l : Ledger κ C) : Book κ M D :=
  { balance := fun k => (l.accounts.lookup k).map (total amount)
    statements := l.statements.map fun s => (s.1, total amount s.2)
    refusals := (l.refused.card + l.rejected) • (1 : D) }

end
end Ledger

namespace Book

variable {κ M D : Type*} [DecidableEq κ] [AddCommMonoid M] [AddMonoid D] [One D]

def step (b : Book κ M D) : Move κ M → Book κ M D
  | .idle => b
  | .seed k => { b with balance := Function.update b.balance k (some ((b.balance k).getD 0)) }
  | .reject => { b with refusals := b.refusals + 1 }
  | .post k m .kept =>
    { b with balance := Function.update b.balance k (some (m + (b.balance k).getD 0)) }
  | .post _ _ .refused => { b with refusals := b.refusals + 1 }
  | .post _ _ .missed => b
  | .close k =>
    match b.balance k with
    | none => b
    | some m =>
      { b with
        balance := Function.update b.balance k none
        statements := b.statements ++ [(k, m)] }

end Book

namespace Ledger

variable {κ C M D : Type*} [DecidableEq κ] [AddCommMonoid M] [AddMonoid D] [One D]
  (amount : C → M)

theorem total_getD (o : Option (Multiset C)) :
    total amount (o.getD 0) = (o.map (total amount)).getD 0 := by
  cases o <;> rfl

/-- The book moves as the ledger does. -/
theorem book_step (l : Ledger κ C) (mv : Move κ C) :
    ((l.step mv).book amount : Book κ M D) = (l.book amount).step (mv.map amount) := by
  cases mv with
  | idle => rfl
  | seed k =>
    rw [step, book, FinMap.map_lookup_insert, total_getD]
    rfl
  | reject =>
    simp only [step, book, Book.step, Move.map, ← add_assoc, succ_nsmul]
  | post k c p =>
    cases p with
    | kept =>
      rw [step, book, FinMap.map_lookup_insert, total_add, total_singleton, total_getD]
      rfl
    | refused =>
      have hcard : ({c} + l.refused).card + l.rejected = l.refused.card + l.rejected + 1 := by
        rw [Multiset.card_add, Multiset.card_singleton]
        omega
      simp only [step, book, Book.step, Move.map, hcard, succ_nsmul]
    | missed => rfl
  | close k =>
    simp only [step, Move.map, Book.step]
    cases h : l.accounts.lookup k with
    | none => simp [book, h]
    | some cs =>
      have hk : (l.book amount : Book κ M D).balance k = some (total amount cs) := by
        show (l.accounts.lookup k).map (total amount) = _
        rw [h]
        rfl
      rw [hk, book, FinMap.map_lookup_erase, List.map_append]
      rfl

end Ledger

/-! ### Totals -/

namespace Ledger

variable {κ C M : Type*} [AddCommMonoid M] (amount : C → M)

/-- The amounts of all charges, by where they sit. -/
theorem sum_all (l : Ledger κ C) :
    total amount l.all
      = l.accounts.sum (fun _ cs => total amount cs)
        + (l.statements.map fun s => total amount s.2).sum
        + total amount l.refused + total amount l.missed := by
  have hmap : ∀ cs : Multiset C, (Multiset.sumAddMonoidHom.comp
      (Multiset.mapAddMonoidHom amount)) cs = total amount cs := fun _ => rfl
  rw [all, total_add, total_add, total_add]
  congr 3
  · rw [← hmap, FinMap.map_sum]
    rfl
  · rw [← hmap, map_list_sum, List.map_map]
    rfl

/-- A total depends on the amounts of its charges only. -/
theorem total_congr {amount amount' : C → M} {cs : Multiset C}
    (h : ∀ c ∈ cs, amount c = amount' c) : total amount cs = total amount' cs :=
  congrArg Multiset.sum (Multiset.map_congr rfl h)

/-- Every charge sits with an account or statement of its own key. -/
def Filed [DecidableEq κ] (keyOf : C → κ) (l : Ledger κ C) : Prop :=
  (∀ k cs, l.accounts.lookup k = some cs → ∀ c ∈ cs, keyOf c = k) ∧
    ∀ s ∈ l.statements, ∀ c ∈ s.2, keyOf c = s.1

theorem filed_empty [DecidableEq κ] (keyOf : C → κ) : (empty : Ledger κ C).Filed keyOf :=
  ⟨fun _ _ h => absurd h (by simp [empty]), fun _ h => absurd h List.not_mem_nil⟩

/-- Charges of a key can be added to its account. -/
theorem Filed.insert [DecidableEq κ] {keyOf : C → κ} {l : Ledger κ C} (h : l.Filed keyOf) {k : κ}
    {new : Multiset C} (hnew : ∀ c ∈ new, keyOf c = k) :
    Filed keyOf
      { l with accounts := l.accounts.insert k (new + (l.accounts.lookup k).getD 0) } := by
  obtain ⟨hacc, hstmt⟩ := h
  refine ⟨FinMap.forall_lookup_insert hacc fun c hc => ?_, hstmt⟩
  rcases Multiset.mem_add.mp hc with hc | hc
  · exact hnew c hc
  · -- an old charge of the account, which was there
    cases hlookup : l.accounts.lookup k with
    | none => simp [hlookup] at hc
    | some cs => exact hacc k cs hlookup c (by simpa [hlookup] using hc)

/-- Closing an account moves its charges into a statement of the same key. -/
theorem Filed.close [DecidableEq κ] {keyOf : C → κ} {l : Ledger κ C} (h : l.Filed keyOf) {k : κ}
    {cs : Multiset C} (hk : l.accounts.lookup k = some cs) :
    Filed keyOf
      { l with accounts := l.accounts.erase k, statements := l.statements ++ [(k, cs)] } := by
  obtain ⟨hacc, hstmt⟩ := h
  constructor
  · exact FinMap.forall_lookup_erase hacc
  · intro s hs
    rcases List.mem_append.mp hs with hs | hs
    · exact hstmt s hs
    · rw [List.mem_singleton.mp hs]
      exact hacc k cs hk

theorem Filed.step [DecidableEq κ] {keyOf : C → κ} {l : Ledger κ C} (h : l.Filed keyOf)
    {mv : Move κ C} (hmv : mv.Filed keyOf) : (l.step mv).Filed keyOf := by
  cases mv with
  | idle => exact h
  | reject => exact h
  | seed k =>
    have hnone : ∀ c ∈ (0 : Multiset C), keyOf c = k := fun c hc =>
      absurd hc (Multiset.notMem_zero c)
    have hseed := h.insert hnone
    rwa [zero_add] at hseed
  | post k c p =>
    cases p with
    | kept =>
      refine h.insert fun c' hc' => ?_
      rw [Multiset.mem_singleton.mp hc']
      exact hmv.symm
    | refused => exact h
    | missed => exact h
  | close k =>
    rw [Ledger.step]
    cases hk : l.accounts.lookup k with
    | none => exact h
    | some cs => exact h.close hk

/-- In a filed ledger the amounts of the keys in `P` are found with accounts and
statements of those keys. -/
theorem sum_all_of_filed [DecidableEq κ] {keyOf : C → κ} {l : Ledger κ C} (h : l.Filed keyOf)
    (P : κ → Prop) [DecidablePred P] :
    total (fun c => if P (keyOf c) then amount c else 0) l.all
      = l.accounts.sum (fun k cs => if P k then total amount cs else 0)
        + (l.statements.map fun s => if P s.1 then total amount s.2 else 0).sum
        + total (fun c => if P (keyOf c) then amount c else 0) l.refused
        + total (fun c => if P (keyOf c) then amount c else 0) l.missed := by
  obtain ⟨hacc, hstmt⟩ := h
  -- every charge of an account or statement has its key
  have hsame : ∀ k cs, (∀ c ∈ cs, keyOf c = k) →
      total (fun c => if P (keyOf c) then amount c else 0) cs
        = if P k then total amount cs else 0 := by
    intro k cs hcs
    by_cases hP : P k
    · rw [if_pos hP]
      refine total_congr fun c hc => ?_
      rw [hcs c hc, if_pos hP]
    · rw [if_neg hP]
      refine Multiset.sum_eq_zero fun x hx => ?_
      obtain ⟨c, hc, rfl⟩ := Multiset.mem_map.mp hx
      rw [hcs c hc, if_neg hP]
  rw [sum_all]
  congr 3
  · exact FinMap.sum_congr fun k cs hk => hsame k cs (hacc k cs hk)
  · exact congrArg List.sum (List.map_congr_left fun s hs => hsame s.1 s.2 (hstmt s hs))

end Ledger
