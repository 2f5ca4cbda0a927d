import SheetFormula.Proofs.Evaluation.Guarded

/-!
# One evaluator for many expressions

Every evaluation leaves the levels it has opened, whatever it comes to, so it begins and ends at
the same depth (`Expr.depth_run_eval`). The state of the host functions is the only thing that
passes from one evaluation to the next. Where the results of these functions depend on their
arguments alone (`Bindings.ResultsFromArguments`), it does not matter either: an evaluator that has
been used, and may have failed, gives what a fresh one gives (`Expr.evalInTurn_eq_fresh`).

The depth is a matter of `Expr.simulatesGuarded`, as a computation that is simulated comes back to
where it was. This says nothing of a depth that is already beyond the limit, but there an
evaluation opens nothing.

The state is a matter of `SameOutcome`: two computations come to the same whatever states they
begin in. It says nothing about the states that they leave, and so it is kept by two computations
one after the other (`SameOutcome.bind`), because the second one is asked for every state. Calls
are the only steps that look at the state, hence guarded evaluation comes to the same from every
one (`Expr.guardedEval_sameOutcome`).

`Expr.evalInTurn` evaluates the expressions of a list with one evaluator, and what is said about it
goes by induction on the list.
-/

namespace SheetFormula

variable {σ α β : Type}

/-- The results of the functions depend on nothing but their arguments. The functions may still
change their state. -/
def Bindings.ResultsFromArguments (bindings : Bindings σ) : Prop :=
  ∀ name f, bindings.function? name = some f → ∀ arguments host host',
    (f arguments host).1 = (f arguments host').1

/-- Two computations come to the same, whatever the states of the host functions they begin in. -/
def SameOutcome (x y : HostAction σ α) : Prop :=
  ∀ host host', (x.run host).1 = (y.run host').1

namespace SameOutcome

theorem pure (a : α) : SameOutcome (Pure.pure a : HostAction σ α) (Pure.pure a) :=
  fun _ _ => rfl

theorem throw (e : Error) : SameOutcome (MonadExcept.throw e : HostAction σ α)
    (MonadExcept.throw e) :=
  fun _ _ => rfl

theorem ofExcept (x : Except Error α) :
    SameOutcome (MonadExcept.ofExcept x : HostAction σ α) (MonadExcept.ofExcept x) := by
  intro host host'
  rw [run_ofExcept, run_ofExcept]

theorem bind {x y : HostAction σ α} {f g : α → HostAction σ β} (first : SameOutcome x y)
    (rest : ∀ a, SameOutcome (f a) (g a)) : SameOutcome (x >>= f) (y >>= g) := by
  intro host host'
  have same := first host host'
  rw [run_bind, run_bind]
  generalize x.run host = outcome at same ⊢
  generalize y.run host' = outcome' at same ⊢
  obtain ⟨result, after⟩ := outcome
  obtain ⟨result', after'⟩ := outcome'
  obtain rfl : result = result' := same
  cases result with
  | ok a => exact rest a after after'
  | error e => rfl

end SameOutcome

namespace Expr

variable {bindings : Bindings σ} {limit : Nat}

/-! ## The state of the host functions -/

mutual

/-- Under functions whose results depend only on their arguments an evaluation comes to the same
from every state. -/
theorem guardedEval_sameOutcome (pure : bindings.ResultsFromArguments) :
    ∀ (e : Expr) (room : Nat), SameOutcome (e.guardedEval bindings limit room)
      (e.guardedEval bindings limit room)
  | e, 0 => by
    rw [guardedEval]
    exact .throw _
  | .number .., room + 1 => by
    rw [guardedEval]
    exact .ofExcept _
  | .string .., room + 1 => by
    rw [guardedEval]
    exact .pure _
  | .reference name position, room + 1 => by
    rw [guardedEval]
    cases bindings.value? name with
    | some value => exact .pure value
    | none => exact .throw _
  | .unary sign operand position, room + 1 => by
    rw [guardedEval]
    exact (guardedEval_sameOutcome pure operand room).bind fun value => .ofExcept _
  | .binary op left right position, room + 1 => by
    rw [guardedEval]
    refine (guardedEval_sameOutcome pure left _).bind fun x => ?_
    exact (guardedEval_sameOutcome pure right room).bind fun y => .ofExcept _
  | .call name arguments position, room + 1 => by
    rw [guardedEval]
    cases found : bindings.function? name with
    | some f => exact (guardedEvalAll_sameOutcome pure arguments room).bind (pure name f found)
    | none => exact .throw _

theorem guardedEvalAll_sameOutcome (pure : bindings.ResultsFromArguments) :
    ∀ (es : List Expr) (room : Nat), SameOutcome (guardedEvalAll bindings limit room es)
      (guardedEvalAll bindings limit room es)
  | [], room => by
    rw [guardedEvalAll]
    exact .pure []
  | e :: others, room => by
    rw [guardedEvalAll]
    refine (guardedEval_sameOutcome pure e room).bind fun value => ?_
    exact (guardedEvalAll_sameOutcome pure others room).bind fun values => .pure _

end

theorem value_sameOutcome (pure : bindings.ResultsFromArguments) (limit : Nat) (e : Expr)
    (host host' : σ) : (e.value bindings limit host).1 = (e.value bindings limit host').1 := by
  rw [value_eq_guardedEval, value_eq_guardedEval]
  exact guardedEval_sameOutcome pure e limit host host'

/-! ## The depth -/

/-- An evaluation leaves all levels that it has opened, whatever it comes to. -/
theorem depth_run_eval (bindings : Bindings σ) (limit : Nat) (e : Expr) (s : EvalState σ) :
    ((e.eval bindings limit).run s).2.depth = s.depth := by
  by_cases within : s.depth ≤ limit
  · have simulated : e.SimulatesGuarded bindings limit := e.simulatesGuarded
    rw [(simulated s.depth (limit - s.depth) (by omega)).1 s.host]
  · rw [Expr.eval.eq_def, Evaluation.run_nested, if_neg (by omega)]

/-- An evaluation from no open level, with the state it leaves. -/
theorem run_eval_zero (bindings : Bindings σ) (limit : Nat) (e : Expr) (host : σ) :
    (e.eval bindings limit).run ⟨0, host⟩ =
      ((e.value bindings limit host).1, ⟨0, (e.value bindings limit host).2⟩) :=
  Prod.ext rfl (congrArg (EvalState.mk · _) (depth_run_eval bindings limit e ⟨0, host⟩))

/-! ## One expression after another -/

/-- The expressions of a list evaluated in turn by one evaluator: what each of them comes to, with
the state after it, in which the next evaluation begins. -/
def evalInTurn (bindings : Bindings σ) (limit : Nat) :
    List Expr → EvalState σ → List (Except Error Value × EvalState σ)
  | [], _ => []
  | e :: others, s =>
    let run := (e.eval bindings limit).run s
    run :: evalInTurn bindings limit others run.2

theorem map_depth_evalInTurn (bindings : Bindings σ) (limit : Nat) (es : List Expr)
    (s : EvalState σ) :
    (evalInTurn bindings limit es s).map (·.2.depth) = List.replicate es.length s.depth := by
  induction es generalizing s with
  | nil => rfl
  | cons e others ih =>
    rw [evalInTurn, List.map_cons, ih, depth_run_eval]
    rfl

/-- Each expression has the value it has in the state that those before it leave. -/
theorem map_fst_evalInTurn (pure : bindings.ResultsFromArguments) (limit : Nat) (fresh : σ)
    (es : List Expr) (host : σ) : (evalInTurn bindings limit es ⟨0, host⟩).map Prod.fst =
      es.map fun e => (e.value bindings limit fresh).1 := by
  induction es generalizing host with
  | nil => rfl
  | cons e others ih =>
    rw [evalInTurn, run_eval_zero, List.map_cons, ih, List.map_cons,
      value_sameOutcome pure limit e fresh host]

/-- An evaluation leaves no trace in the evaluator. Its depth is what it was before, after every
evaluation of any expression from any state, and so after each of a sequence. If the results of the
functions depend only on their arguments, each expression of a sequence comes to what a fresh
evaluator under the same limit makes of it alone, in whatever states the functions are. -/
theorem evalInTurn_eq_fresh (pure : bindings.ResultsFromArguments) (limit : Nat)
    (es : List Expr) :
    (∀ (e : Expr) (s : EvalState σ), ((e.eval bindings limit).run s).2.depth = s.depth) ∧
      (∀ s : EvalState σ, (evalInTurn bindings limit es s).map (·.2.depth) =
        List.replicate es.length s.depth) ∧
      ∀ host fresh : σ, (evalInTurn bindings limit es ⟨0, host⟩).map Prod.fst =
        es.map fun e => (e.value bindings limit fresh).1 :=
  ⟨depth_run_eval bindings limit, map_depth_evalInTurn bindings limit es,
    fun host fresh => map_fst_evalInTurn pure limit fresh es host⟩

/-- A function that always fails and writes down that it was called. -/
def refuser : HostFunction (List String) :=
  fun _ log => (.error (.function "no value"), log ++ ["refused"])

/-- The function `F` is true and the function `G` fails. -/
def recorderAndRefuser : Bindings (List String) :=
  (Bindings.empty.setFunction "F" recorder).setFunction "G" refuser

/-- The trees of `F(F(F("a")))`, `F("a";G())` and `F(F("a"))`, with a chain before the last. -/
def failingCalls : List Expr :=
  [.call "F" [.call "F" [.call "F" [.string "a" 7] 5] 3] 1,
    .call "F" [.string "a" 3, .call "G" [] 7] 1, mixedChain,
    .call "F" [.call "F" [.string "a" 5] 3] 1]

/-- Evaluations that exceed the limit within three calls, fail in a function or fail at an operator
leave the evaluator as good as new for the last one, although the functions remember them. -/
theorem evalInTurn_failingCalls :
    recorderAndRefuser.ResultsFromArguments ∧
      (evalInTurn recorderAndRefuser 3 failingCalls ⟨0, ["begun"]⟩).map Prod.fst =
        [.error (.nestingTooDeep 3 7), .error (.function "no value"),
          .error (.typeMismatch "<" "number or string" .boolean 14), .ok (.boolean true)] := by
  have pure : recorderAndRefuser.ResultsFromArguments := by
    intro name f found arguments host host'
    rw [recorderAndRefuser, Bindings.function?_setFunction, Bindings.function?_setFunction,
      Bindings.function?_empty] at found
    split at found
    · cases found
      rfl
    · split at found <;> cases found
      rfl
  refine ⟨pure, ?_⟩
  rw [(evalInTurn_eq_fresh pure 3 failingCalls).2.2 ["begun"] []]
  simp only [failingCalls, List.map_cons, List.map_nil, value_eq_guardedEval]
  rfl

end Expr

end SheetFormula
