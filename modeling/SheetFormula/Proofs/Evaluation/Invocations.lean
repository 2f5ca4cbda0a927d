import SheetFormula.Proofs.Evaluation.Calls
import SheetFormula.Session

/-!
# The calls that a formula makes

A session whose functions write down the calls of them (`Session.recording`) executes formulas as
the session does, with the same outcome and the same state of the host functions
(`Session.execute_recording`). Its record is the sequence of host functions called, each with the
values of its arguments (`Session.invocations`).

This carries `SheetFormula.Proofs.Evaluation.Calls` from trees to formulas. A formula that is not
parsed makes no call (`Session.invocations_of_parse_eq_error`), and one that is parsed makes those
of its tree. With the record two executions can be compared not only in what they come to, but in
how they come to it: `SheetFormula.Proofs.HigherLimit` and
`SheetFormula.Proofs.Evaluation.MentionedNames` say of two sessions that they make the same calls.

The record begins empty with each formula, and is a part of the host state. A session that goes on
from one formula to the next is described by `SheetFormula.Proofs.History`.
-/

namespace SheetFormula.Session

variable {σ : Type}

/-- The session with functions that write down the calls of them, none of which has been made. -/
def recording (s : Session σ) : Session (σ × List HostInvocation) :=
  ⟨s.bindings.recording, s.limit, (s.host, [])⟩

/-- The calls of host functions that executing a formula makes, in order. -/
def invocations (s : Session σ) (formula : String) : List HostInvocation :=
  (s.recording.execute formula).2.host.2

/-- A formula without a tree makes no call. -/
theorem invocations_of_parse_eq_error {s : Session σ} {formula : String} {e : Error}
    (h : s.parse formula = .error e) : s.invocations formula = [] := by
  have failed : s.recording.parse formula = .error e := h
  rw [invocations, execute_of_parse_eq_error failed]
  rfl

/-- Recording changes nothing but the record. -/
theorem execute_recording (s : Session σ) (formula : String) :
    (s.recording.execute formula).1 = (s.execute formula).1 ∧
      (s.recording.execute formula).2.host =
        ((s.execute formula).2.host, s.invocations formula) := by
  have parsed : s.recording.parse formula = s.parse formula := rfl
  simp only [invocations, execute, parsed]
  split
  · next e _ =>
    have performs : Performs (e.performed s.bindings s.limit s.limit) e.calls
        (e.guardedEval s.bindings.recording s.limit s.limit)
        (e.guardedEval s.bindings s.limit s.limit) := e.performs s.limit
    have recorded := performs.recorded s.host []
    rw [← Expr.value_eq_guardedEval, ← Expr.value_eq_guardedEval] at recorded
    simp [recording, recorded]
  · exact ⟨rfl, rfl⟩

end SheetFormula.Session
