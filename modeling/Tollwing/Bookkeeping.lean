/-
Systems that keep books.

A system takes steps, records charges as it goes, and keeps a book of them.  If
every step is one move of the book that brings in the step's charges
(`Bookkeeping`), then after any run the book is the book of a ledger of the
charges recorded along it:

* `Bookkeeping.exists_ledger` — the ledger of a run, with what it may miss;
* `Bookkeeping.exists_ledger_after` — what is closed later on holds no old charge;
* `Bookkeeping.nodup_chargesFrom` — its charges are distinct;
* `Bookkeeping.charges_of_inv` — what they satisfy, by an invariant of the run.
-/
import Tollwing.History
import Tollwing.Ledger

/-- A system with states in `S` and steps in `E` that keeps a book of charges.
`late` are the charges it may miss, and a step that is `prompt` misses none. -/
structure Bookkeeping (S E κ C M D : Type*) [DecidableEq κ] [AddCommMonoid M] [AddMonoid D]
    [One D] where
  step : S → E → S
  book : S → Book κ M D
  /-- The charges of a step with its number in the run. -/
  charges : S → ℕ → E → List C
  amount : C → M
  keyOf : C → κ
  number : C → ℕ
  late : C → Prop
  prompt : S → E → Prop
  number_charges : ∀ s i e, ∀ c ∈ charges s i e, number c = i
  nodup_charges : ∀ s i e, (charges s i e).Nodup
  exists_move : ∀ s i e, ∃ mv : Move κ C,
    book (step s e) = (book s).step (mv.map amount) ∧
    mv.charge = (charges s i e : Multiset C) ∧ mv.Filed keyOf ∧
    (∀ c ∈ mv.miss, late c) ∧ (prompt s e → mv.miss = 0)

namespace Bookkeeping

variable {S E κ C M D : Type*} [DecidableEq κ] [AddCommMonoid M] [AddMonoid D] [One D]
  (K : Bookkeeping S E κ C M D)

/-- The charges recorded along a run whose first step has number `i`. -/
def chargesFrom : S → ℕ → List E → List C
  | _, _, [] => []
  | s, i, e :: run => K.charges s i e ++ chargesFrom (K.step s e) (i + 1) run

theorem chargesFrom_append (run later : List E) (s : S) (i : ℕ) :
    K.chargesFrom s i (run ++ later)
      = K.chargesFrom s i run ++ K.chargesFrom (run.foldl K.step s) (i + run.length) later := by
  induction run generalizing s i with
  | nil => rfl
  | cons e run ih =>
    rw [List.cons_append, chargesFrom, ih, chargesFrom, List.append_assoc, List.foldl_cons,
      List.length_cons, Nat.add_assoc, Nat.add_comm 1]

/-- A ledger that explains the book before a run is carried to one that explains it
afterwards.  A charge from before the run is still in an account only if the account has
been open ever since. -/
theorem exists_ledger_since (run : List E) (s : S) (i : ℕ) (L : Ledger κ C)
    (hbook : L.book K.amount = K.book s) (hfiled : L.Filed K.keyOf) :
    ∃ L' : Ledger κ C,
      (L'.book K.amount = K.book (run.foldl K.step s) ∧ L'.Filed K.keyOf ∧
        L'.all = (K.chargesFrom s i run : Multiset C) + L.all ∧
        (∀ c ∈ L'.missed, c ∈ L.missed ∨ K.late c) ∧
        (History.Along K.step K.prompt s run → L'.missed = L.missed)) ∧
      ∀ k cs c, L'.accounts.lookup k = some cs → c ∈ cs → i ≤ K.number c ∨
        (∃ cs', L.accounts.lookup k = some cs' ∧ c ∈ cs') ∧
          ∀ r r', run = r ++ r' → (K.book (r.foldl K.step s)).balance k ≠ none := by
  have hopen : ∀ (s : S) (L : Ledger κ C), L.book K.amount = K.book s → ∀ k cs,
      L.accounts.lookup k = some cs → (K.book s).balance k ≠ none := by
    intro s L hbook k cs hcs
    rw [← hbook]
    show (L.accounts.lookup k).map (Ledger.total K.amount) ≠ none
    rw [hcs]
    exact Option.some_ne_none _
  induction run generalizing s i L with
  | nil =>
    refine ⟨L, ⟨hbook, hfiled, (zero_add _).symm, fun c hc => Or.inl hc, fun _ => rfl⟩,
      fun k cs c hcs hc => Or.inr ⟨⟨cs, hcs, hc⟩, fun r r' hr => ?_⟩⟩
    obtain ⟨rfl, -⟩ := List.append_eq_nil_iff.mp hr.symm
    exact hopen s L hbook k cs hcs
  | cons e run ih =>
    obtain ⟨mv, hmove, hcharge, hmv, hlate, hprompt⟩ := K.exists_move s i e
    have hbook' : (L.step mv).book K.amount = K.book (K.step s e) := by
      rw [Ledger.book_step, hbook, hmove]
    obtain ⟨L', ⟨h₁, h₂, hall, hmissed, halong⟩, hold⟩ :=
      ih (K.step s e) (i + 1) (L.step mv) hbook' (hfiled.step hmv)
    refine ⟨L', ⟨h₁, h₂, ?_, ?_, ?_⟩, fun k cs c hcs hc => ?_⟩
    · rw [hall, Ledger.all_step, hcharge, chargesFrom, ← Multiset.coe_add]
      exact (add_left_comm _ _ _).trans (add_assoc _ _ _).symm
    · intro c hc
      rcases hmissed c hc with hc | hc
      · rw [Ledger.missed_step] at hc
        rcases Multiset.mem_add.mp hc with hc | hc
        · exact Or.inr (hlate c hc)
        · exact Or.inl hc
      · exact Or.inr hc
    · rintro ⟨he, hrun⟩
      rw [halong hrun, Ledger.missed_step, hprompt he, zero_add]
    · rcases hold k cs c hcs hc with hnew | ⟨⟨cs', hcs', hc'⟩, hstayed⟩
      · exact Or.inl (Nat.le_of_succ_le hnew)
      rcases Ledger.mem_account_step hcs' hc' with hnow | ⟨cs₀, hcs₀, hc₀⟩
      · rw [hcharge] at hnow
        exact Or.inl (K.number_charges s i e c hnow).ge
      -- an old charge: its account is open before this step, and after it
      refine Or.inr ⟨⟨cs₀, hcs₀, hc₀⟩, fun r r' hr => ?_⟩
      cases r with
      | nil => exact hopen s L hbook k cs₀ hcs₀
      | cons e' r =>
        obtain ⟨rfl, hrun⟩ := List.cons_eq_cons.mp hr
        exact hstayed r r' hrun

/-- The ledger alone. -/
theorem exists_ledger_from (run : List E) (s : S) (i : ℕ) (L : Ledger κ C)
    (hbook : L.book K.amount = K.book s) (hfiled : L.Filed K.keyOf) :
    ∃ L' : Ledger κ C,
      L'.book K.amount = K.book (run.foldl K.step s) ∧ L'.Filed K.keyOf ∧
      L'.all = (K.chargesFrom s i run : Multiset C) + L.all ∧
      (∀ c ∈ L'.missed, c ∈ L.missed ∨ K.late c) ∧
      (History.Along K.step K.prompt s run → L'.missed = L.missed) := by
  obtain ⟨L', hL', -⟩ := K.exists_ledger_since run s i L hbook hfiled
  exact ⟨L', hL'⟩

/-- **Every run from an empty book has a ledger** of the charges recorded along
it. -/
theorem exists_ledger {s : S} (hs : (Ledger.empty.book K.amount : Book κ M D) = K.book s)
    (run : List E) :
    ∃ L : Ledger κ C,
      L.book K.amount = K.book (run.foldl K.step s) ∧ L.Filed K.keyOf ∧
      L.all = (K.chargesFrom s 0 run : Multiset C) ∧
      (∀ c ∈ L.missed, K.late c) ∧
      (History.Along K.step K.prompt s run → L.missed = 0) := by
  obtain ⟨L, hbook, hfiled, hall, hmissed, halong⟩ :=
    K.exists_ledger_from run s 0 Ledger.empty hs (Ledger.filed_empty K.keyOf)
  refine ⟨L, hbook, hfiled, ?_, ?_, halong⟩
  · rw [hall]
    exact add_zero _
  · exact fun c hc => (hmissed c hc).resolve_left (Multiset.notMem_zero c)

/-- **A closed account starts afresh.**  If an account is closed at some time after a
run, it holds none of the run's charges any more. -/
theorem exists_ledger_after {s : S} (hs : (Ledger.empty.book K.amount : Book κ M D) = K.book s)
    (run later : List E) :
    ∃ L : Ledger κ C,
      L.book K.amount = K.book ((run ++ later).foldl K.step s) ∧ L.Filed K.keyOf ∧
      L.all = (K.chargesFrom s 0 (run ++ later) : Multiset C) ∧
      (∀ c ∈ L.missed, K.late c) ∧
      ∀ k, (∃ r r', later = r ++ r' ∧ (K.book ((run ++ r).foldl K.step s)).balance k = none) →
        ∀ cs, L.accounts.lookup k = some cs → ∀ c ∈ cs, run.length ≤ K.number c := by
  obtain ⟨L₀, hbook, hfiled, hall, hlate, -⟩ := K.exists_ledger hs run
  obtain ⟨L, ⟨hbook', hfiled', hall', hlate', -⟩, hold⟩ :=
    K.exists_ledger_since later (run.foldl K.step s) run.length L₀ hbook hfiled
  refine ⟨L, ?_, hfiled', ?_, fun c hc => (hlate' c hc).elim (hlate c) id, ?_⟩
  · rw [hbook', List.foldl_append]
  · rw [hall', hall, chargesFrom_append, Nat.zero_add, ← Multiset.coe_add, add_comm]
  · rintro k ⟨r, r', hlater, hnone⟩ cs hcs c hc
    refine (hold k cs c hcs hc).resolve_right fun hopen => hopen.2 r r' hlater ?_
    rw [← List.foldl_append]
    exact hnone

/-- An account is closed at some time after a run, if it is closed at its end or a later
step closes it. -/
theorem exists_closed {e : E} {k : κ} (hclose : ∀ s, (K.book (K.step s e)).balance k = none)
    {s : S} {run later : List E}
    (h : (K.book (run.foldl K.step s)).balance k ≠ none → e ∈ later) :
    ∃ r r', later = r ++ r' ∧ (K.book ((run ++ r).foldl K.step s)).balance k = none := by
  cases hk : (K.book (run.foldl K.step s)).balance k with
  | none =>
    refine ⟨[], later, rfl, ?_⟩
    rw [List.append_nil]
    exact hk
  | some m =>
    obtain ⟨r, r', rfl⟩ := List.append_of_mem (h (by simp [hk]))
    refine ⟨r ++ [e], r', List.append_cons r e r', ?_⟩
    rw [← List.append_assoc, List.foldl_append]
    exact hclose _

/-- What the charges of every step satisfy, the charges of a run do: `Inv` is
kept by the steps, and `P` follows from it. -/
theorem charges_of_inv (Inv : S → Prop) {P : C → Prop} (hstep : ∀ s e, Inv s → Inv (K.step s e))
    (hcharges : ∀ s i e, Inv s → ∀ c ∈ K.charges s i e, P c) {s : S} (hs : Inv s) (i : ℕ)
    (run : List E) : ∀ c ∈ K.chargesFrom s i run, P c := by
  induction run generalizing s i with
  | nil => exact fun c hc => absurd hc List.not_mem_nil
  | cons e run ih =>
    intro c hc
    rcases List.mem_append.mp hc with hc | hc
    · exact hcharges s i e hs c hc
    · exact ih (hstep s e hs) (i + 1) c hc

/-- The charges of a run have the numbers of its steps. -/
theorem le_number (run : List E) (s : S) (i : ℕ) : ∀ c ∈ K.chargesFrom s i run, i ≤ K.number c := by
  induction run generalizing s i with
  | nil => exact fun c hc => absurd hc List.not_mem_nil
  | cons e run ih =>
    intro c hc
    rcases List.mem_append.mp hc with hc | hc
    · exact (K.number_charges s i e c hc).ge
    · exact (Nat.le_succ i).trans (ih (K.step s e) (i + 1) c hc)

/-- No charge is recorded twice along a run. -/
theorem nodup_chargesFrom (run : List E) (s : S) (i : ℕ) : (K.chargesFrom s i run).Nodup := by
  induction run generalizing s i with
  | nil => exact List.nodup_nil
  | cons e run ih =>
    refine List.Nodup.append (K.nodup_charges s i e) (ih (K.step s e) (i + 1)) fun c hc hc' => ?_
    have hnow := K.number_charges s i e c hc
    have hlater := K.le_number run (K.step s e) (i + 1) c hc'
    omega

end Bookkeeping
