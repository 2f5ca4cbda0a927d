import SheetFormula.Token

/-!
# Expressions

The tree of a formula: literals, references to variables, signs, binary operators and function
calls, each with the place in the text it was read from. Parentheses leave no trace. A binary
operator is an arithmetic one or a comparison, and its tightness says which of two neighbouring
operators takes the operand between them; division is tighter than multiplication.

A literal keeps the text it was written with. Whether that text is a number is found out only when
it is evaluated.

Which symbol writes which operator is said once, from the operator to the symbol; that reading
turns it round is `Operator.ofSymbol?_eq_some_iff`. `Expr.size` counts the nodes of a tree, an
argument twice, so that the trees of an argument list and the list itself are smaller than the
call: recursion over trees and lists of trees at once ends by it.
-/

namespace SheetFormula

/-- The signs that may stand before an operand. -/
inductive Sign where
  | plus
  | minus
  deriving DecidableEq

/-- The arithmetic operators. -/
inductive Arithmetic where
  | add
  | subtract
  | multiply
  | divide
  | power
  deriving DecidableEq

/-- The comparisons. -/
inductive Comparison where
  | equal
  | less
  | greater
  | lessEqual
  | greaterEqual
  deriving DecidableEq

/-- The binary operators. -/
inductive Operator where
  | arithmetic (op : Arithmetic)
  | comparison (op : Comparison)
  deriving DecidableEq

/-- The symbol a sign is written with. -/
def Sign.symbol : Sign → Symbol
  | .plus => .plus
  | .minus => .minus

/-- The symbol an arithmetic operator is written with. -/
def Arithmetic.symbol : Arithmetic → Symbol
  | .add => .plus
  | .subtract => .minus
  | .multiply => .star
  | .divide => .slash
  | .power => .caret

/-- The symbol a comparison is written with. -/
def Comparison.symbol : Comparison → Symbol
  | .equal => .equal
  | .less => .less
  | .greater => .greater
  | .lessEqual => .lessEqual
  | .greaterEqual => .greaterEqual

namespace Operator

/-- The symbol an operator is written with. -/
def symbol : Operator → Symbol
  | .arithmetic op => op.symbol
  | .comparison op => op.symbol

/-- The operator that a symbol stands for between two operands. -/
def ofSymbol? : Symbol → Option Operator
  | .plus => some (.arithmetic .add)
  | .minus => some (.arithmetic .subtract)
  | .star => some (.arithmetic .multiply)
  | .slash => some (.arithmetic .divide)
  | .caret => some (.arithmetic .power)
  | .equal => some (.comparison .equal)
  | .less => some (.comparison .less)
  | .greater => some (.comparison .greater)
  | .lessEqual => some (.comparison .lessEqual)
  | .greaterEqual => some (.comparison .greaterEqual)
  | .leftParen | .rightParen | .semicolon => none

/-- How tightly an operator binds: comparisons least, then sums, products, quotients and powers. -/
def tightness : Operator → Nat
  | .comparison _ => 0
  | .arithmetic .add | .arithmetic .subtract => 1
  | .arithmetic .multiply => 2
  | .arithmetic .divide => 3
  | .arithmetic .power => 4

theorem ofSymbol?_eq_some_iff {s : Symbol} {op : Operator} :
    ofSymbol? s = some op ↔ op.symbol = s := by
  rcases op with op | op <;> cases op <;> cases s <;> decide

end Operator

/-- The tree of a formula, each node with its place in the text; the place of a binary node is
that of its operator. -/
inductive Expr where
  | number (text : String) (position : Nat)
  | string (text : String) (position : Nat)
  | reference (name : String) (position : Nat)
  | unary (sign : Sign) (operand : Expr) (position : Nat)
  | binary (op : Operator) (left right : Expr) (position : Nat)
  | call (name : String) (arguments : List Expr) (position : Nat)

namespace Expr

/-- The place in the text that a node was read from. -/
def position : Expr → Nat
  | .number _ position | .string _ position | .reference _ position | .unary _ _ position
  | .binary _ _ _ position | .call _ _ position => position

mutual

/-- The number of nodes of a tree, an argument counted twice. -/
def size : Expr → Nat
  | .number .. | .string .. | .reference .. => 1
  | .unary _ operand _ => operand.size + 1
  | .binary _ left right _ => left.size + right.size + 1
  | .call _ arguments _ => sizeAll arguments + 1

/-- The number of nodes of an argument list. -/
def sizeAll : List Expr → Nat
  | [] => 0
  | e :: others => e.size + sizeAll others + 1

end

theorem size_pos (e : Expr) : 0 < e.size := by
  cases e <;> simp [size]

end Expr

end SheetFormula
