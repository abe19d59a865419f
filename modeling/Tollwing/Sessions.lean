/-
Sessions and what they are charged.

A session is opened, is charged while it is open, and is ended at some point,
after which the next one can be opened.  `Sessions.read` reads a list of such
events: the session that is open at the end with what it was charged since it
was opened, and the sessions that were ended, in order.

* `Sessions.foldl_charged` — charges add up on the open session;
* `Sessions.step_charged_of_none`, `Sessions.step_ended_of_none` — without an
  open session there is nothing to charge or to end.
-/
import Mathlib.Algebra.BigOperators.Group.List.Defs

/-- What happens to the sessions of one owner. -/
inductive SessionEvent (α M : Type*)
  | opened (a : α)
  | charged (m : M)
  | ended

/-- The open session and the ended ones, each with its charges. -/
structure Sessions (α M : Type*) where
  current : Option (α × M)
  closed : List (α × M)

namespace Sessions

variable {α M : Type*} [AddMonoid M]

def step (s : Sessions α M) : SessionEvent α M → Sessions α M
  | .opened a => { s with current := some (a, 0) }
  | .charged m => { s with current := s.current.map fun c => (c.1, c.2 + m) }
  | .ended => { current := none, closed := s.closed ++ s.current.toList }

/-- The sessions of a list of events. -/
def read (es : List (SessionEvent α M)) : Sessions α M := es.foldl step ⟨none, []⟩

@[simp] theorem step_charged_zero (s : Sessions α M) : s.step (.charged 0) = s := by
  cases s
  simp [step]

theorem step_charged_of_none {s : Sessions α M} (h : s.current = none) (m : M) :
    s.step (.charged m) = s := by
  cases s
  cases h
  rfl

theorem step_ended_of_none {s : Sessions α M} (h : s.current = none) : s.step .ended = s := by
  cases s
  cases h
  simp [step]

/-- Charges add up on the open session. -/
theorem foldl_charged (ms : List M) (s : Sessions α M) :
    (ms.map SessionEvent.charged).foldl step s
      = { s with current := s.current.map fun c => (c.1, c.2 + ms.sum) } := by
  induction ms generalizing s with
  | nil => simp
  | cons m ms ih =>
    rw [List.map_cons, List.foldl_cons, ih, step, List.sum_cons]
    simp [Function.comp_def, add_assoc]

end Sessions
