/-
Reading an account and closing it later.

A reader that cannot read an account and close it at once hands on what it read and closes
the account afterwards.  What was posted to the account in between is closed with it and
handed on to nobody.  This file says for any bookkeeping system what such a reader hands on
and what is lost:

* `Ledger.closeAs` — an account closed into a statement of what it held earlier;
* `Bookkeeping.exists_ledger_open` — while an account is not closed it keeps what it holds;
* `TornReader.Drains` — the loop that drains a shared table, as a run of such reads;
* `TornReader.exists_ledger` — a run of such reads has a ledger of everything but the charges
  that were posted to an account between its read and its closing.
-/
import Tollwing.Bookkeeping
import Tollwing.SharedTable

/-- A charge of the try's key from between its read and its deletion, when the try begins with
step number `i`. -/
def KeyTry.Loses {E κ C : Type*} (t : KeyTry E κ) (keyOf : C → κ) (number : C → ℕ) (i : ℕ)
    (c : C) : Prop :=
  keyOf c = t.key ∧ i + t.before.length ≤ number c ∧
    number c < i + t.before.length + t.gap.length

/-- Only a failing try loses charges. -/
theorem KeyTry.Loses.fails {E κ C : Type*} {t : KeyTry E κ} {keyOf : C → κ} {number : C → ℕ}
    {i : ℕ} {c : C} (h : t.Loses keyOf number i c) : t.fails = true := by
  obtain ⟨-, hlo, hhi⟩ := h
  cases hfails : t.fails with
  | true => rfl
  | false =>
    have hgap : t.gap = [] := by simp [gap, hfails]
    rw [hgap, List.length_nil] at hhi
    omega

/-! ### Closing an account as it was -/

namespace Book

variable {κ M D : Type*} [DecidableEq κ]

/-- Close an account into a statement of an earlier balance, if there was one. -/
def closeAs (b : Book κ M D) (k : κ) (old : Option M) : Book κ M D :=
  { b with
    balance := Function.update b.balance k none
    statements := b.statements ++ (old.map fun m => (k, m)).toList }

end Book

namespace Ledger

variable {κ C M D : Type*} [DecidableEq κ]

/-- The same with charges. -/
def closeAs (l : Ledger κ C) (k : κ) (old : Option (Multiset C)) : Ledger κ C :=
  { l with
    accounts := l.accounts.erase k
    statements := l.statements ++ (old.map fun cs => (k, cs)).toList }

theorem book_closeAs [AddCommMonoid M] [AddMonoid D] [One D] (amount : C → M) (l : Ledger κ C)
    (k : κ) (old : Option (Multiset C)) :
    ((l.closeAs k old).book amount : Book κ M D)
      = (l.book amount).closeAs k (old.map (total amount)) := by
  have hstatements : (l.statements ++ (old.map fun cs => (k, cs)).toList).map
        (fun s => (s.1, total amount s.2))
      = l.statements.map (fun s => (s.1, total amount s.2))
        ++ ((old.map (total amount)).map fun m => (k, m)).toList := by
    rw [List.map_append]
    cases old <;> rfl
  rw [closeAs, book, FinMap.map_lookup_erase, hstatements]
  rfl

/-- The charges that the account got since are in no statement. -/
theorem all_closeAs {l : Ledger κ C} {k : κ} {old : Option (Multiset C)} {new : Multiset C}
    (h : (l.accounts.lookup k).getD 0 = new + old.getD 0) :
    (l.closeAs k old).all + new = l.all := by
  have haccounts : FinMap.sum l.accounts (fun _ cs => cs)
      = (new + old.getD 0) + FinMap.sum (l.accounts.erase k) fun _ cs => cs := by
    rw [← h]
    cases hk : l.accounts.lookup k with
    | none => rw [FinMap.erase_of_lookup_none hk, Option.getD_none, zero_add]
    | some cs => rw [FinMap.sum_eq_add_erase hk, Option.getD_some]
  have hstatements : ((old.map fun cs => (k, cs)).toList.map Prod.snd).sum = old.getD 0 := by
    cases old with
    | none => rfl
    | some cs => exact List.sum_singleton
  rw [all, all, closeAs, haccounts]
  dsimp only
  rw [List.map_append, List.sum_append, hstatements]
  ac_rfl

theorem Filed.closeAs {keyOf : C → κ} {l : Ledger κ C} (h : l.Filed keyOf) {k : κ}
    {old : Option (Multiset C)} (hold : ∀ cs ∈ old, ∀ c ∈ cs, keyOf c = k) :
    (l.closeAs k old).Filed keyOf := by
  refine ⟨FinMap.forall_lookup_erase h.1, fun s hs => ?_⟩
  rcases List.mem_append.mp hs with hs | hs
  · exact h.2 s hs
  · obtain ⟨cs, hcs, rfl⟩ := Option.map_eq_some_iff.mp (Option.mem_toList.mp hs)
    exact hold cs hcs

/-- An account that a move does not close keeps what it holds. -/
theorem account_step (l : Ledger κ C) (mv : Move κ C) {k : κ}
    (hkeep : l.accounts.lookup k ≠ none → (l.step mv).accounts.lookup k ≠ none) :
    ∃ new ≤ mv.charge,
      ((l.step mv).accounts.lookup k).getD 0 = new + (l.accounts.lookup k).getD 0 := by
  cases mv with
  | idle => exact ⟨0, Multiset.zero_le _, (zero_add _).symm⟩
  | reject => exact ⟨0, Multiset.zero_le _, (zero_add _).symm⟩
  | seed k' =>
    refine ⟨0, Multiset.zero_le _, ?_⟩
    rw [step, zero_add]
    dsimp only
    rw [FinMap.lookup_insert_ite]
    split_ifs with hk
    · rw [hk, Option.getD_some]
    · rfl
  | post k' c p =>
    cases p with
    | kept =>
      by_cases hk : k = k'
      · refine ⟨{c}, le_rfl, ?_⟩
        rw [step, hk]
        dsimp only
        rw [Finmap.lookup_insert, Option.getD_some]
      · refine ⟨0, Multiset.zero_le _, ?_⟩
        rw [step, zero_add]
        dsimp only
        rw [Finmap.lookup_insert_of_ne _ hk]
    | refused => exact ⟨0, Multiset.zero_le _, (zero_add _).symm⟩
    | missed => exact ⟨0, Multiset.zero_le _, (zero_add _).symm⟩
  | close k' =>
    refine ⟨0, Multiset.zero_le _, ?_⟩
    rw [step] at hkeep ⊢
    cases hk' : l.accounts.lookup k' with
    | none => exact (zero_add _).symm
    | some cs =>
      rw [hk'] at hkeep
      dsimp only at hkeep ⊢
      rw [FinMap.lookup_erase_ite] at hkeep ⊢
      by_cases hk : k = k'
      · -- the account itself is not closed
        rw [if_pos hk, hk, hk'] at hkeep
        exact absurd rfl (hkeep (Option.some_ne_none cs))
      · rw [if_neg hk, zero_add]

end Ledger

/-! ### An account that stays open -/

namespace Bookkeeping

variable {S E κ C M D : Type*} [DecidableEq κ] [AddCommMonoid M] [AddMonoid D] [One D]
  (K : Bookkeeping S E κ C M D)

/-- While no step closes an account, it keeps what it holds and gets charges of the run. -/
theorem exists_ledger_open (run : List E) (s : S) (i : ℕ) (L : Ledger κ C)
    (hbook : L.book K.amount = K.book s) (hfiled : L.Filed K.keyOf) {k : κ}
    (hkeep : ∀ s, ∀ e ∈ run,
      (K.book s).balance k ≠ none → (K.book (K.step s e)).balance k ≠ none) :
    ∃ (L' : Ledger κ C) (new : Multiset C),
      L'.book K.amount = K.book (run.foldl K.step s) ∧ L'.Filed K.keyOf ∧
      L'.all = (K.chargesFrom s i run : Multiset C) + L.all ∧
      (∀ c ∈ L'.missed, c ∈ L.missed ∨ K.late c) ∧
      (L'.accounts.lookup k).getD 0 = new + (L.accounts.lookup k).getD 0 ∧
      ∀ c ∈ new, c ∈ K.chargesFrom s i run := by
  have hopen : ∀ (s : S) (L : Ledger κ C), L.book K.amount = K.book s →
      (L.accounts.lookup k ≠ none ↔ (K.book s).balance k ≠ none) := by
    intro s L hbook
    rw [← hbook]
    show _ ↔ (L.accounts.lookup k).map (Ledger.total K.amount) ≠ none
    rw [Ne, Ne, Option.map_eq_none_iff]
  induction run generalizing s i L with
  | nil =>
    exact ⟨L, 0, hbook, hfiled, (zero_add _).symm, fun c hc => Or.inl hc, (zero_add _).symm,
      fun c hc => absurd hc (Multiset.notMem_zero c)⟩
  | cons e run ih =>
    obtain ⟨mv, hmove, hcharge, hmv, hlate, -⟩ := K.exists_move s i e
    have hbook' : (L.step mv).book K.amount = K.book (K.step s e) := by
      rw [Ledger.book_step, hbook, hmove]
    obtain ⟨now, hnow, hstep⟩ := L.account_step mv fun hk =>
      (hopen _ _ hbook').mpr (hkeep s e List.mem_cons_self ((hopen s L hbook).mp hk))
    obtain ⟨L', new, h₁, h₂, hall, hmissed, haccount, hnew⟩ :=
      ih (K.step s e) (i + 1) (L.step mv) hbook' (hfiled.step hmv)
        fun s e he => hkeep s e (List.mem_cons_of_mem _ he)
    refine ⟨L', new + now, h₁, h₂, ?_, fun c hc => ?_, ?_, fun c hc => ?_⟩
    · rw [hall, Ledger.all_step, hcharge, chargesFrom, ← Multiset.coe_add]
      exact (add_left_comm _ _ _).trans (add_assoc _ _ _).symm
    · refine (hmissed c hc).elim (fun hc => ?_) Or.inr
      rw [Ledger.missed_step] at hc
      exact (Multiset.mem_add.mp hc).elim (fun hc => Or.inr (hlate c hc)) Or.inl
    · rw [haccount, hstep, add_assoc]
    · rcases Multiset.mem_add.mp hc with hc | hc
      · exact List.mem_append_right _ (hnew c hc)
      · have hcharges := Multiset.mem_of_le hnow hc
        rw [hcharge] at hcharges
        exact List.mem_append_left _ hcharges

/-- The charges of a run have the numbers of its steps. -/
theorem number_lt (run : List E) (s : S) (i : ℕ) :
    ∀ c ∈ K.chargesFrom s i run, K.number c < i + run.length := by
  induction run generalizing s i with
  | nil => exact fun c hc => absurd hc List.not_mem_nil
  | cons e run ih =>
    intro c hc
    rw [List.length_cons]
    rcases List.mem_append.mp hc with hc | hc
    · have := K.number_charges s i e c hc
      omega
    · have := ih (K.step s e) (i + 1) c hc
      omega

end Bookkeeping

/-! ### The reader -/

/-- A reader of the accounts of a system.  The others take steps `other b`; the reader reads
an account's content, whose amount is its balance, and closes it as it was read.  In the
system's own terms the closing is the step `take k`, up to what was handed on, of which the
`view` of a state is free. -/
structure TornReader {S E κ C M D : Type*} [DecidableEq κ] [AddCommMonoid M] [AddMonoid D]
    [One D] (K : Bookkeeping S E κ C M D) (B ν V : Type*) where
  other : B → E
  take : κ → E
  read : S → κ → Option ν
  value : ν → M
  closeAs : S → κ → Option ν → S
  view : S → V
  balance : ∀ s k, (K.book s).balance k = (read s k).map value
  book_closeAs : ∀ s k v, K.book (closeAs s k v) = (K.book s).closeAs k (v.map value)
  keep : ∀ s b k,
    (K.book s).balance k ≠ none → (K.book (K.step s (other b))).balance k ≠ none
  view_closeAs : ∀ s k v, view (closeAs s k v) = view (K.step s (take k))
  view_other : ∀ s s' b, view s = view s' → view (K.step s (other b)) = view (K.step s' (other b))
  view_take : ∀ s s' k, view s = view s' → view (K.step s (take k)) = view (K.step s' (take k))
  charges_other : ∀ s s' i b, view s = view s' →
    K.charges s i (other b) = K.charges s' i (other b)
  charges_take : ∀ s i k, K.charges s i (take k) = []

namespace TornReader

variable {S E κ C M D B ν V : Type*} [DecidableEq κ] [AddCommMonoid M] [AddMonoid D] [One D]
  {K : Bookkeeping S E κ C M D} (R : TornReader K B ν V)

/-- Where a try reads. -/
def atRead (s : S) (t : KeyTry B κ) : S := (t.before.map R.other).foldl K.step s

/-- One try: read, and close as it was read. -/
def tryKey (s : S) (t : KeyTry B κ) : S :=
  R.closeAs ((t.gap.map R.other).foldl K.step (R.atRead s t)) t.key (R.read (R.atRead s t) t.key)

/-- The steps that a try comes to. -/
def steps (t : KeyTry B κ) : List E :=
  t.before.map R.other ++ t.gap.map R.other ++ [R.take t.key]

/-! The view of a run. -/

theorem view_others (es : List B) {s s' : S} (h : R.view s = R.view s') :
    R.view ((es.map R.other).foldl K.step s) = R.view ((es.map R.other).foldl K.step s') := by
  induction es generalizing s s' with
  | nil => exact h
  | cons b es ih => exact ih (R.view_other s s' b h)

theorem view_steps (t : KeyTry B κ) {s s' : S} (h : R.view s = R.view s') :
    R.view ((R.steps t).foldl K.step s) = R.view ((R.steps t).foldl K.step s') := by
  rw [steps, List.foldl_append, List.foldl_append, List.foldl_append, List.foldl_append]
  exact R.view_take _ _ _ (R.view_others _ (R.view_others _ h))

/-- **A try is its steps**, up to what is handed on. -/
theorem view_tryKey (s : S) (t : KeyTry B κ) :
    R.view (R.tryKey s t) = R.view ((R.steps t).foldl K.step s) := by
  rw [tryKey, R.view_closeAs, steps, List.foldl_append, List.foldl_append]
  rfl

theorem view_tries (tries : List (KeyTry B κ)) {s s' : S} (h : R.view s = R.view s') :
    R.view (tries.foldl R.tryKey s) = R.view ((tries.flatMap R.steps).foldl K.step s') := by
  induction tries generalizing s s' with
  | nil => exact h
  | cons t tries ih =>
    rw [List.flatMap_cons, List.foldl_append, List.foldl_cons]
    exact ih ((R.view_tryKey s t).trans (R.view_steps t h))

/-- The charges of others depend on the view. -/
theorem charges_others (es : List B) {s s' : S} (i : ℕ) (h : R.view s = R.view s') :
    K.chargesFrom s i (es.map R.other) = K.chargesFrom s' i (es.map R.other) := by
  induction es generalizing s s' i with
  | nil => rfl
  | cons b es ih =>
    rw [List.map_cons, Bookkeeping.chargesFrom, Bookkeeping.chargesFrom,
      R.charges_other s s' i b h, ih (i + 1) (R.view_other s s' b h)]

/-- The charges of a try's steps. -/
theorem charges_steps (t : KeyTry B κ) (s : S) (i : ℕ) :
    K.chargesFrom s i (R.steps t)
      = K.chargesFrom s i (t.before.map R.other)
        ++ K.chargesFrom (R.atRead s t) (i + t.before.length) (t.gap.map R.other) := by
  rw [steps, Bookkeeping.chargesFrom_append, Bookkeeping.chargesFrom_append, List.length_map,
    Bookkeeping.chargesFrom, R.charges_take, List.nil_append, Bookkeeping.chargesFrom,
    List.append_nil]
  rfl

theorem charges_tries (tries : List (KeyTry B κ)) {s s' : S} (i : ℕ) (h : R.view s = R.view s') :
    K.chargesFrom s i (tries.flatMap R.steps) = K.chargesFrom s' i (tries.flatMap R.steps) := by
  induction tries generalizing s s' i with
  | nil => rfl
  | cons t tries ih =>
    have hread : R.view (R.atRead s t) = R.view (R.atRead s' t) := R.view_others t.before h
    rw [List.flatMap_cons, Bookkeeping.chargesFrom_append, Bookkeeping.chargesFrom_append,
      charges_steps, charges_steps, R.charges_others t.before i h,
      R.charges_others t.gap _ hread, ih _ (R.view_steps t h)]

/-! ### Tables -/

/-- The reader drains a shared table, and what it took is kept beside the state. -/
structure Drains {A : Type*} (R : TornReader K B ν V) (T : SharedTable S B κ ν)
    (beside : S → List A → S) (snapshot : κ → ν → A) : Prop where
  other : ∀ s taken b, K.step (beside s taken) (R.other b) = beside (T.other s b) taken
  read : ∀ s taken k, R.read (beside s taken) k = (T.table s).lookup k
  closeAs : ∀ s taken k v, R.closeAs (beside s taken) k v
    = beside (T.erase s k) (taken ++ (v.map (snapshot k)).toList)

namespace Drains

variable {A : Type*} {R} {T : SharedTable S B κ ν} {beside : S → List A → S}
  {snapshot : κ → ν → A} {put : S → FinMap κ ν → S}

theorem others (h : R.Drains T beside snapshot) (es : List B) (s : S) (taken : List A) :
    (es.map R.other).foldl K.step (beside s taken) = beside (es.foldl T.other s) taken := by
  induction es generalizing s with
  | nil => rfl
  | cons b es ih => rw [List.map_cons, List.foldl_cons, h.other, ih, List.foldl_cons]

/-- A try of the loop is a try of the reader. -/
theorem tryKey (h : R.Drains T beside snapshot) (hT : T.Stored put) (s : S) (taken : List A)
    (t : KeyTry B κ) :
    R.tryKey (beside s taken) t
      = beside (T.tryKey s t).1 (taken ++ (T.tryKey s t).2.map fun e => snapshot e.1 e.2) := by
  have hread : R.atRead (beside s taken) t = beside (t.before.foldl T.other s) taken :=
    h.others t.before s taken
  rw [hT.tryKey_eq, TornReader.tryKey, hread, h.others, h.read, h.closeAs]
  cases (T.table (t.before.foldl T.other s)).lookup t.key <;> rfl

/-- **The loop of a poller is the reader's.** -/
theorem tryKeys (h : R.Drains T beside snapshot) (hT : T.Stored put) (tries : List (KeyTry B κ))
    (s : S) (taken : List A) :
    tries.foldl R.tryKey (beside s taken)
      = beside (T.tryKeys s tries).1
          (taken ++ (T.tryKeys s tries).2.map fun e => snapshot e.1 e.2) := by
  induction tries generalizing s taken with
  | nil => exact congrArg (beside s) (List.append_nil taken).symm
  | cons t tries ih =>
    rw [List.foldl_cons, h.tryKey hT, ih, List.append_assoc, ← List.map_append]
    rfl

end Drains

/-! ### The ledger -/

/-- One try: what its key's account got between the read and the closing is lost. -/
theorem exists_ledger_try (s : S) (i : ℕ) (L : Ledger κ C) (hbook : L.book K.amount = K.book s)
    (hfiled : L.Filed K.keyOf) (t : KeyTry B κ) :
    ∃ (L' : Ledger κ C) (lost : Multiset C),
      L'.book K.amount = K.book (R.tryKey s t) ∧ L'.Filed K.keyOf ∧
      L'.all + lost = (K.chargesFrom s i (R.steps t) : Multiset C) + L.all ∧
      (∀ c ∈ L'.missed, c ∈ L.missed ∨ K.late c) ∧
      ∀ c ∈ lost, t.Loses K.keyOf K.number i c := by
  -- up to the read, and up to the closing
  obtain ⟨L₁, hbook₁, hfiled₁, hall₁, hmissed₁, -⟩ :=
    K.exists_ledger_from (t.before.map R.other) s i L hbook hfiled
  have hopen : ∀ s, ∀ e ∈ t.gap.map R.other,
      (K.book s).balance t.key ≠ none → (K.book (K.step s e)).balance t.key ≠ none := by
    intro s e he
    obtain ⟨b, -, rfl⟩ := List.mem_map.mp he
    exact R.keep s b t.key
  obtain ⟨L₂, lost, hbook₂, hfiled₂, hall₂, hmissed₂, haccount, hlost⟩ :=
    K.exists_ledger_open (t.gap.map R.other) (R.atRead s t) (i + t.before.length) L₁ hbook₁
      hfiled₁ hopen
  -- what was read is what the account held then
  have hread : (L₁.accounts.lookup t.key).map (Ledger.total K.amount)
      = (R.read (R.atRead s t) t.key).map R.value := by
    have h := congrArg (fun b => b.balance t.key) hbook₁
    exact h.trans (R.balance (R.atRead s t) t.key)
  refine ⟨L₂.closeAs t.key (L₁.accounts.lookup t.key), lost, ?_, ?_, ?_, fun c hc => ?_,
    fun c hc => ?_⟩
  · rw [Ledger.book_closeAs, hbook₂, hread, tryKey, R.book_closeAs]
  · exact hfiled₂.closeAs fun cs hcs => hfiled₁.1 t.key cs hcs
  · rw [Ledger.all_closeAs haccount, hall₂, hall₁, charges_steps, ← Multiset.coe_add, add_assoc]
    exact add_left_comm _ _ _
  · exact (hmissed₂ c hc).elim (hmissed₁ c) Or.inr
  · have hcharge := hlost c hc
    have hge := K.le_number _ _ _ c hcharge
    have hlt := K.number_lt _ _ _ c hcharge
    rw [List.length_map] at hlt
    refine ⟨?_, hge, hlt⟩
    -- it is in the account of the key
    have hmem : c ∈ (L₂.accounts.lookup t.key).getD 0 := by
      rw [haccount]
      exact Multiset.mem_add.mpr (Or.inl hc)
    cases hcs : L₂.accounts.lookup t.key with
    | none =>
      rw [hcs] at hmem
      exact absurd hmem (Multiset.notMem_zero c)
    | some cs =>
      rw [hcs] at hmem
      exact hfiled₂.1 t.key cs hcs c hmem

/-- **Every run of tries has a ledger** of the charges recorded along its steps, less those
that were posted to an account between its read and its closing. -/
theorem exists_ledger (tries : List (KeyTry B κ)) (s : S) (i : ℕ) (L : Ledger κ C)
    (hbook : L.book K.amount = K.book s) (hfiled : L.Filed K.keyOf) :
    ∃ (L' : Ledger κ C) (lost : Multiset C),
      L'.book K.amount = K.book (tries.foldl R.tryKey s) ∧ L'.Filed K.keyOf ∧
      L'.all + lost = (K.chargesFrom s i (tries.flatMap R.steps) : Multiset C) + L.all ∧
      (∀ c ∈ L'.missed, c ∈ L.missed ∨ K.late c) ∧
      ∀ c ∈ lost, ∃ pre t post, tries = pre ++ t :: post ∧
        t.Loses K.keyOf K.number (i + (pre.flatMap R.steps).length) c := by
  induction tries generalizing s i L with
  | nil =>
    exact ⟨L, 0, hbook, hfiled, (add_zero _).trans (zero_add _).symm, fun c hc => Or.inl hc,
      fun c hc => absurd hc (Multiset.notMem_zero c)⟩
  | cons t tries ih =>
    obtain ⟨L₁, lost, hbook₁, hfiled₁, hall₁, hmissed₁, hlost⟩ :=
      R.exists_ledger_try s i L hbook hfiled t
    obtain ⟨L₂, lost', hbook₂, hfiled₂, hall₂, hmissed₂, hlost'⟩ :=
      ih (R.tryKey s t) (i + (R.steps t).length) L₁ hbook₁ hfiled₁
    refine ⟨L₂, lost' + lost, hbook₂, hfiled₂, ?_, fun c hc => ?_, fun c hc => ?_⟩
    · rw [← add_assoc, hall₂, add_assoc, hall₁, List.flatMap_cons, K.chargesFrom_append,
        R.charges_tries tries _ (R.view_tryKey s t), ← Multiset.coe_add, ← add_assoc,
        add_comm (Multiset.ofList (K.chargesFrom _ _ (tries.flatMap R.steps)))]
    · exact (hmissed₂ c hc).elim (hmissed₁ c) Or.inr
    · rcases Multiset.mem_add.mp hc with hc | hc
      · obtain ⟨pre, t', post, rfl, hin⟩ := hlost' c hc
        refine ⟨t :: pre, t', post, rfl, ?_⟩
        rw [List.flatMap_cons, List.length_append, ← Nat.add_assoc]
        exact hin
      · exact ⟨[], t, tries, rfl, hlost c hc⟩

end TornReader
