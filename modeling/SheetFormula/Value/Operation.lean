import SheetFormula.Error
import SheetFormula.Expr

/-!
# What operators do to values

Signs and arithmetic take numbers. Equality takes any two values and never fails. The orderings
take two numbers or two strings, compared code point by code point; a number that is not a number
is in no order with any other.

Operands are checked from left to right, and the error names the first that is of a wrong kind,
with the symbol of the operator, the kind that it takes and the kind that it got (`Value.operand`,
`Comparison.order?`). On two numbers only a division can fail, by a zero of either sign.

The orderings differ only in the orders in which they hold (`Comparison.holds`); in which order two
values are is found in one way for all of them (`Comparison.order?`), so that what they have in
common is proved once, in `SheetFormula.Proofs.Evaluation.Comparisons`. `Operator.apply` is what
evaluation uses.
-/

namespace SheetFormula

/-- The number that the operand `v` of `operator` is. -/
def Value.operand (operator : Symbol) (position : Nat) (v : Value) : Except Error Float :=
  match v with
  | .number x => .ok x
  | v => .error (.typeMismatch operator.text "number" v.kind position)

/-- The value of a sign before a value. -/
def Sign.apply (sign : Sign) (v : Value) (position : Nat) : Except Error Value := do
  let x ← v.operand sign.symbol position
  match sign with
  | .plus => .ok (.number x)
  | .minus => .ok (.number (-x))

namespace Arithmetic

/-- The result on two numbers, none for a division by zero. -/
def compute? (op : Arithmetic) (x y : Float) : Option Float :=
  match op with
  | .add => some (x + y)
  | .subtract => some (x - y)
  | .multiply => some (x * y)
  | .divide => if y == 0 then none else some (x / y)
  | .power => some (x.pow y)

/-- The result on two values; the left one is checked first. -/
def apply (op : Arithmetic) (left right : Value) (position : Nat) : Except Error Value := do
  let x ← left.operand op.symbol position
  let y ← right.operand op.symbol position
  match op.compute? x y with
  | some z => .ok (.number z)
  | none => .error (.divisionByZero position)

end Arithmetic

/-- The order of two numbers, none if one of them is not a number. -/
def numberOrder? (x y : Float) : Option Ordering :=
  if x < y then some .lt else if y < x then some .gt else if x == y then some .eq else none

namespace Comparison

/-- Whether the comparison holds of two values in a given order. -/
def holds : Comparison → Ordering → Bool
  | .equal, order => order == .eq
  | .less, order => order == .lt
  | .greater, order => order == .gt
  | .lessEqual, order => order != .gt
  | .greaterEqual, order => order != .lt

/-- The order of two values of a kind that has one; there may be none between two numbers. -/
def order? (op : Comparison) (left right : Value) (position : Nat) :
    Except Error (Option Ordering) :=
  match left, right with
  | .number x, .number y => .ok (numberOrder? x y)
  | .string s, .string t => .ok (some (compare s t))
  | .number _, other => .error (.typeMismatch op.symbol.text "number" other.kind position)
  | .string _, other => .error (.typeMismatch op.symbol.text "string" other.kind position)
  | other, _ => .error (.typeMismatch op.symbol.text "number or string" other.kind position)

/-- The result on two values. -/
def apply (op : Comparison) (left right : Value) (position : Nat) : Except Error Value :=
  match op with
  | .equal => .ok (.boolean (left == right))
  | op => do
    let order ← op.order? left right position
    .ok (.boolean (order.any op.holds))

end Comparison

/-- The result of an operator on two values. -/
def Operator.apply : Operator → Value → Value → Nat → Except Error Value
  | .arithmetic op => op.apply
  | .comparison op => op.apply

end SheetFormula
