import SheetFormula.Expr.Eval

/-!
# Plain evaluation

Evaluation by recursion on the tree alone, without chains and without a limit: the left operand,
the right operand, then the operator; the function, the arguments from left to right, then the
call; and nothing after the first error (`Expr.plainEval`). It is what the language says an
expression comes to, and the measure for everything that is proved about evaluation.

`Expr.eval` differs from it in two ways. It lays out a chain of operators and works it off in a
loop, where plain evaluation follows the left operands; and it counts the levels that are open and
fails where there are more than the limit allows. `SheetFormula.Proofs.Evaluation.Unfolding` deals
with the chains and `SheetFormula.Proofs.Evaluation.Levels` with the levels, and
`SheetFormula.Proofs.Evaluation.Refinement` concludes that the two agree within the limit.

A computation has an outcome and the state of the host functions after it, which is kept if the
computation fails (`HostAction`). So what is said about plain evaluation covers the effects of
calls that were made before an error.
-/

namespace SheetFormula

/-- A computation that may fail and may change the state of the host functions. The state is kept
on failure. -/
abbrev HostAction (σ α : Type) := ExceptT Error (StateM σ) α

/-- The call of a host function. -/
def HostAction.call {σ : Type} (f : HostFunction σ) (arguments : List Value) :
    HostAction σ Value :=
  ExceptT.mk (f arguments)

namespace Expr

variable {σ : Type} (bindings : Bindings σ)

mutual

/-- The value of `e` by recursion on the tree. -/
def plainEval : Expr → HostAction σ Value
  | .number text position => ofExcept (literalValue text position)
  | .string text _ => pure (.string text)
  | .reference name position =>
    match bindings.value? name with
    | some value => pure value
    | none => throw (.unknownVariable name position)
  | .unary sign operand position => do
    let value ← plainEval operand
    ofExcept (sign.apply value position)
  | .binary op left right position => do
    let x ← plainEval left
    let y ← plainEval right
    ofExcept (op.apply x y position)
  | .call name arguments position =>
    match bindings.function? name with
    | some f => do
      let values ← plainEvalAll arguments
      HostAction.call f values
    | none => throw (.unknownFunction name position)

/-- The values of a list of expressions, in order. -/
def plainEvalAll : List Expr → HostAction σ (List Value)
  | [] => pure []
  | e :: others => do
    let value ← plainEval e
    let values ← plainEvalAll others
    pure (value :: values)

end

/-- The value of `e` with host state `host`, and the host state after it. -/
def plainValue (e : Expr) (host : σ) : Except Error Value × σ :=
  (e.plainEval bindings).run host

end Expr

end SheetFormula
