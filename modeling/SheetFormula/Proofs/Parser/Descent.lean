import SheetFormula.Proofs.Parser.SuccessiveCalls

/-!
# Parsing by descent

The grammar can be read with one function for each of its levels. The functions call each other,
move an index over all tokens, the end of the input included, and count the levels that are open.
Here every step checks what it takes for granted and stops with a fault if it does not hold
(`Fault`): that there is a token at the index, that taking a token other than the end of the input
moves the index on, that a level which is left was open, that the count stays within a ceiling and
that the calls come to an end. An error is something else: it is an outcome, and it leaves the
index and the count as they are.

The functions are written over a few steps on one token or one level (`Descent.take`,
`Descent.expect`, `Descent.openLevel`, `Descent.closeLevel`), and only these can fault. The five
levels of binary operators are one function with the tightness as an argument
(`Descent.operation`). How deep the functions may still call each other is an argument as well;
`descendInTurn` allows for nine calls for each token.

`Parser.parse` does without the index and the calls. `SheetFormula.Proofs.Parser.Safety` proves
that a descent comes to what it comes to, without a fault.
-/

namespace SheetFormula.Parser

/-- What must not happen in a descent. -/
inductive Fault where
  /-- A token is looked at or taken where there is none. -/
  | outOfRange
  /-- A token other than the end of the input is taken and the index stays where it is. -/
  | standstill
  /-- A level is left and none is open. -/
  | noLevel
  /-- More levels are open than the ceiling allows. -/
  | tooManyLevels
  /-- More functions have called each other than was foreseen. -/
  | unfinished
  deriving DecidableEq

/-- How far a descent has come. -/
structure Cursor where
  /-- The index of the next token. -/
  index : Nat
  /-- The number of levels that are open. -/
  depth : Nat
  deriving DecidableEq

/-- What a descent does not change. -/
structure Descent where
  /-- All tokens, the end of the input included. -/
  tokens : List Token
  /-- The number of levels that may be open at once without an error. -/
  limit : Nat
  /-- The number of levels that may be open at once without a fault. -/
  ceiling : Nat

/-- A part of a descent. An error leaves the cursor where it arises, a fault leaves nothing. -/
abbrev Descending := ExceptT Error (StateT Cursor (Except Fault))

namespace Descent

/-- The bounds of a parser that counts on from the levels left open. -/
def bounds (d : Descent) : Bounds :=
  ⟨d.limit, d.limit⟩

/-! ## One token and one level -/

/-- Go on only if nothing is wrong. -/
def check (right : Prop) [Decidable right] (fault : Fault) : Descending Unit :=
  if right then pure () else throwThe Fault fault

/-- The next token. -/
def lookahead (d : Descent) : Descending Token := do
  match d.tokens[(← get).index]? with
  | some t => return t
  | none => throwThe Fault .outOfRange

/-- The token after the next, if there is one. -/
def peek? (d : Descent) : Descending (Option Token) := do
  return d.tokens[(← get).index + 1]?

/-- Take the next token and move on, unless it is the last of all. -/
def bump (d : Descent) : Descending Token := do
  let t ← d.lookahead
  modify fun c => if c.index + 1 < d.tokens.length then { c with index := c.index + 1 } else c
  return t

/-- Take the next token, which must move the index unless it is an end of the input. -/
def take (d : Descent) : Descending Token := do
  let before ← get
  let t ← d.bump
  let after ← get
  check (t.lexeme = .endOfInput ∨ before.index < after.index) .standstill
  return t

/-- Fail at the next token, in place of which something else was expected. -/
def refuse {α : Type} (d : Descent) (expected : String) : Descending α := do
  let t ← d.lookahead
  throwThe Error (.unexpectedToken expected t.kind t.position)

/-- Take the next token, which must be `lexeme`. -/
def expect (d : Descent) (lexeme : Lexeme) (expected : String) : Descending Token := do
  if (← d.lookahead).lexeme = lexeme then d.take
  else d.refuse expected

/-- Open a level. It counts as open even if the limit does not allow it. -/
def openLevel (d : Descent) : Descending Unit := do
  let c ← get
  check (c.depth < d.ceiling) .tooManyLevels
  set { c with depth := c.depth + 1 }
  if c.depth < d.limit then return ()
  else
    let t ← d.lookahead
    throwThe Error (.nestingTooDeep d.limit t.position)

/-- Leave a level. -/
def closeLevel : Descending Unit := do
  let c ← get
  check (0 < c.depth) .noLevel
  set { c with depth := c.depth - 1 }

/-! ## The levels of the grammar -/

/-- The operator of tightness `n` that a token is. -/
def operatorOf? (n : Nat) (t : Token) : Option Operator :=
  (Surroundings.operator? t).filter (·.tightness = n)

/-- The sign that a token is. -/
def sign? (t : Token) : Option Sign :=
  match t.lexeme with
  | .symbol .plus => some .plus
  | .symbol .minus => some .minus
  | _ => none

mutual

/-- An expression, which opens a level of its own. -/
def expression (d : Descent) : Nat → Descending Expr
  | 0 => throwThe Fault .unfinished
  | fuel + 1 => do
    d.openLevel
    let e ← d.operation fuel 0
    closeLevel
    return e

/-- Operators of tightness `n` with their operands. No operator binds as tightly as a sign. -/
def operation (d : Descent) : Nat → Nat → Descending Expr
  | 0, _ => throwThe Fault .unfinished
  | fuel + 1, n =>
    if n < 5 then do
      let first ← d.operation fuel (n + 1)
      d.repetition fuel n first
    else d.signed fuel

/-- All further operators of tightness `n`, with `left` as the left operand of the first. -/
def repetition (d : Descent) : Nat → Nat → Expr → Descending Expr
  | 0, _, _ => throwThe Fault .unfinished
  | fuel + 1, n, left => do
    match operatorOf? n (← d.lookahead) with
    | some op =>
      let t ← d.take
      let right ← d.operation fuel (n + 1)
      d.repetition fuel n (.binary op left right t.position)
    | none => return left

/-- An operand with the signs before it, each of which opens a level. -/
def signed (d : Descent) : Nat → Descending Expr
  | 0 => throwThe Fault .unfinished
  | fuel + 1 => do
    match sign? (← d.lookahead) with
    | some sign =>
      let t ← d.take
      d.openLevel
      let operand ← d.signed fuel
      closeLevel
      return .unary sign operand t.position
    | none => d.operand fuel

/-- A literal, a name, a call or an expression in parentheses. -/
def operand (d : Descent) : Nat → Descending Expr
  | 0 => throwThe Fault .unfinished
  | fuel + 1 => do
    match (← d.lookahead).lexeme with
    | .number text =>
      let t ← d.take
      return .number text t.position
    | .string text =>
      let t ← d.take
      return .string text t.position
    | .symbol .leftParen =>
      let _ ← d.take
      let e ← d.expression fuel
      let _ ← d.expect (.symbol .rightParen) "')'"
      return e
    | .identifier name =>
      if (← d.peek?).map Token.lexeme = some (.symbol .leftParen) then
        let t ← d.take
        let _ ← d.take
        let arguments ← d.arguments fuel
        return .call name arguments t.position
      else
        let t ← d.take
        return .reference name t.position
    | _ => d.refuse "expression"

/-- The arguments of a call after the opening parenthesis, and the closing one. -/
def arguments (d : Descent) : Nat → Descending (List Expr)
  | 0 => throwThe Fault .unfinished
  | fuel + 1 => do
    if (← d.lookahead).lexeme = .symbol .rightParen then
      let _ ← d.take
      return []
    else d.furtherArguments fuel []

/-- An argument and all after it, where those before it are `done`, the last first. -/
def furtherArguments (d : Descent) : Nat → List Expr → Descending (List Expr)
  | 0, _ => throwThe Fault .unfinished
  | fuel + 1, done => do
    let e ← d.expression fuel
    match (← d.lookahead).lexeme with
    | .symbol .semicolon =>
      let _ ← d.take
      d.furtherArguments fuel (e :: done)
    | .symbol .rightParen =>
      let _ ← d.take
      return (e :: done).reverse
    | _ => d.refuse "';' or ')'"

end

/-- An expression and the end of the input, which is passed over unless it is the last token. -/
def formula (d : Descent) (fuel : Nat) : Descending Expr := do
  let e ← d.expression fuel
  let _ ← d.expect .endOfInput "end of input"
  return e

end Descent

/-- What a descent through the tokens comes to that is asked for one expression after another, and
its cursor after that. In each call the ceiling is as many levels above those open at its beginning
as there are tokens, and one, and functions may call each other nine deep for each token. -/
def descendInTurn (tokens : List Token) (limit : Nat) :
    Nat → Except Fault (List (Except Error Expr) × Cursor)
  | 0 => .ok ([], ⟨0, 0⟩)
  | calls + 1 => do
    let (outcomes, c) ← descendInTurn tokens limit calls
    let d : Descent := ⟨closed tokens, limit, c.depth + tokens.length + 1⟩
    let (outcome, after) ← (d.formula (9 * (closed tokens).length)).run c
    return (outcomes ++ [outcome], after)

end SheetFormula.Parser
