import SheetFormula.Bindings
import SheetFormula.Expr.Chain
import SheetFormula.Number.Numeral
import SheetFormula.Value.Operation

/-!
# Evaluating expressions

An expression is evaluated from left to right against bindings, and the first error ends the
evaluation. A function is looked up before its arguments are evaluated; all of them are evaluated,
in order, before it is called.

Every node opens a level while it is evaluated, and no more levels may be open at once than the
limit allows (`nested`). Only the operators of one chain share a level: a chain is evaluated flat
(`Link.evalAll`), and its operands are one level below it however many there are. Every level that
was opened is left again, whatever the outcome.

An evaluation is a computation that may fail and that keeps its state when it does (`Evaluation`):
how many levels are open, and what the host functions have made of their own state. `Expr.value`
begins with no level open.

The recursion goes over chains and not over trees. `SheetFormula.Proofs.Evaluation.Unfolding` gives
the equation of each node from that, and `SheetFormula.Proofs.Evaluation.Plain` the evaluation of
trees without levels and chains to which this one comes wherever the limit is not reached.
-/

namespace SheetFormula

/-- The state of an evaluation. -/
structure EvalState (σ : Type) where
  /-- The number of levels that are open. -/
  depth : Nat
  /-- The state of the host functions. -/
  host : σ

/-- A computation that may fail and may call host functions. Their state is kept on failure. -/
abbrev Evaluation (σ α : Type) := ExceptT Error (StateM (EvalState σ)) α

/-- The value of a number literal, in which a comma stands for the decimal point. -/
def literalValue (text : String) (position : Nat) : Except Error Value :=
  match Number.readComma? text.toList with
  | some x => .ok (.number x)
  | none => .error (.invalidNumber text position)

namespace Evaluation

variable {σ α : Type}

/-- Call a host function. -/
@[inline]
def callHost (f : HostFunction σ) (arguments : List Value) : Evaluation σ Value :=
  ExceptT.mk fun s =>
    let (outcome, host) := f arguments s.host
    (outcome, { s with host })

/-- Do `body` one level further in, and leave the level whatever the outcome. If the limit is
reached, `body` is not begun. -/
@[inline]
def nested (limit position : Nat) (body : Evaluation σ α) : Evaluation σ α :=
  ExceptT.mk fun s =>
    if s.depth < limit then
      let (outcome, after) := body.run { s with depth := s.depth + 1 }
      (outcome, { after with depth := after.depth - 1 })
    else (.error (.nestingTooDeep limit position), s)

end Evaluation

open Evaluation

mutual

/-- The value of `e`. -/
def Expr.eval {σ : Type} (bindings : Bindings σ) (limit : Nat) (e : Expr) : Evaluation σ Value :=
  nested limit e.position <|
    match e with
    | .number text position => ofExcept (literalValue text position)
    | .string text _ => pure (.string text)
    | .reference name position =>
      match bindings.value? name with
      | some value => pure value
      | none => throw (.unknownVariable name position)
    | .unary sign operand position => do
      let value ← operand.eval bindings limit
      ofExcept (sign.apply value position)
    | .binary op left right position => do
      let chain := Chain.ofExpr (.binary op left right position)
      let value ← chain.head.eval bindings limit
      Link.evalAll bindings limit value chain.links
    | .call name arguments position =>
      match bindings.function? name with
      | some f => do
        let values ← Expr.evalAll bindings limit arguments
        callHost f values
      | none => throw (.unknownFunction name position)
termination_by e.size
decreasing_by
  · simp only [Expr.size]
    omega
  · exact Chain.size_head_lt op left right position
  · exact Chain.linksSize_ofExpr_lt _
  · simp only [Expr.size]
    omega

/-- The values of a list of expressions, in order. -/
def Expr.evalAll {σ : Type} (bindings : Bindings σ) (limit : Nat) :
    List Expr → Evaluation σ (List Value)
  | [] => pure []
  | e :: others => do
    let value ← e.eval bindings limit
    let values ← Expr.evalAll bindings limit others
    pure (value :: values)
termination_by es => Expr.sizeAll es
decreasing_by
  · simp only [Expr.sizeAll]
    omega
  · simp only [Expr.sizeAll]
    omega

/-- The value of applying a list of operators to `value` one after another. -/
def Link.evalAll {σ : Type} (bindings : Bindings σ) (limit : Nat) (value : Value) :
    List Link → Evaluation σ Value
  | [] => pure value
  | link :: others => do
    let right ← link.right.eval bindings limit
    let value ← ofExcept (link.op.apply value right link.position)
    Link.evalAll bindings limit value others
termination_by links => Chain.linksSize links
decreasing_by
  · simp only [Chain.linksSize]
    omega
  · simp only [Chain.linksSize]
    omega

end

/-- The value of `e` against `bindings` with host state `host`, and the host state after it. -/
def Expr.value {σ : Type} (bindings : Bindings σ) (limit : Nat) (e : Expr) (host : σ) :
    Except Error Value × σ :=
  let (outcome, after) := (e.eval bindings limit).run ⟨0, host⟩
  (outcome, after.host)

end SheetFormula
