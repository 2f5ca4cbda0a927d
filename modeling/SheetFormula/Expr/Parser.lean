import SheetFormula.Expr
import SheetFormula.Token.Lexer

/-!
# Building expressions from tokens

Tokens are read one at a time against a stack of the constructs that have begun and are not
complete: signs, operators that lack their right operand, parentheses and argument lists. An
operator first completes the operators before it that bind at least as tightly
(`Surroundings.reduce`), so operators of one tightness group to the left, powers included. A sign
binds more tightly than any operator and is completed by the operand right after it
(`Surroundings.applySigns`).

What may follow depends on what has just been read (`Phase`) and on the innermost construct that is
not complete. `Progress.step` reads one token, `Progress.finish` says what an end of the input
means, and `Progress.run` puts them together; a token that is refused is left over.

A level is opened by the whole formula, by a parenthesis, by each argument and by each sign, and is
left when that is complete. No more levels may be open at once than the limit allows (`Bounds`). A
parser can be asked for one expression after another (`Parser.parse`); it keeps its place and,
after an error, the levels that the error left open.

The grammar that is read is `SheetFormula.Proofs.Grammar`. That exactly its formulas are accepted
is `Expr.ofTokens_eq_ok_iff`, in `SheetFormula.Proofs.Parser.Acceptance`.
-/

namespace SheetFormula

namespace Parser

/-! ## Places within an expression -/

/-- A construct that has begun and is not complete. -/
inductive Frame where
  | sign (sign : Sign) (position : Nat)
  /-- An operator with its left operand. -/
  | operation (left : Expr) (op : Operator) (position : Nat)
  /-- An opening parenthesis. -/
  | group
  /-- A call with the arguments before the present one, the last first. -/
  | call (name : String) (position : Nat) (done : List Expr)

/-- The constructs around a place in a formula. -/
structure Surroundings where
  /-- The incomplete constructs, the innermost first. -/
  stack : List Frame
  /-- The number of levels that are open. -/
  opened : Nat

/-- What has been read just before a place in a formula, and so what may follow. -/
inductive Phase where
  /-- The beginning of a level: an operand follows, once the level is opened. -/
  | level
  /-- An operator: an operand follows. -/
  | operand
  /-- A name: a call if a parenthesis follows, otherwise a reference. -/
  | name (name : String) (position : Nat)
  /-- A name and a parenthesis: an argument follows or the end of the call. -/
  | arguments (name : String) (position : Nat)
  /-- A complete operand: an operator follows or the end of what encloses it. -/
  | complete (e : Expr)

/-- How far the reading of an expression has come. -/
structure Progress where
  phase : Phase
  around : Surroundings

/-- How many levels may be opened, and the limit that an error names. -/
structure Bounds where
  room : Nat
  limit : Nat
  deriving DecidableEq

/-- Why no expression could be read, and how many levels were open then. -/
structure Refusal where
  error : Error
  opened : Nat
  deriving DecidableEq

/-! ## Reading one token -/

namespace Surroundings

/-- The operand `e` under the signs right before it, each of which leaves its level. -/
def applySigns (e : Expr) : List Frame → Nat → Expr × Surroundings
  | .sign sign position :: stack, opened => applySigns (.unary sign e position) stack (opened - 1)
  | stack, opened => (e, ⟨stack, opened⟩)

/-- The operators before `e` that bind at least as tightly as `tightness`, completed by it. -/
def reduce (tightness : Nat) (e : Expr) : List Frame → Expr × List Frame
  | .operation left op position :: stack =>
    if tightness ≤ op.tightness then reduce tightness (.binary op left e position) stack
    else (e, .operation left op position :: stack)
  | stack => (e, stack)

/-- What could have stood here instead of a token that neither continues nor ends the expression,
given the constructs around the expression. -/
def expectedAfter : List Frame → String
  | .group :: _ => "')'"
  | .call .. :: _ => "';' or ')'"
  | _ => "end of input"

/-- The place after the operand `e`. -/
def withOperand (s : Surroundings) (e : Expr) : Progress :=
  let (e, around) := applySigns e s.stack s.opened
  ⟨.complete e, around⟩

/-- Open a level at `position`. -/
def openLevel (s : Surroundings) (bounds : Bounds) (position : Nat) :
    Except Refusal Surroundings :=
  if s.opened < bounds.room then .ok { s with opened := s.opened + 1 }
  else .error ⟨.nestingTooDeep bounds.limit position, s.opened + 1⟩

/-- Read `t` where an operand begins. -/
def readOperand (s : Surroundings) (t : Token) : Except Refusal Progress :=
  match t.lexeme with
  | .number text => .ok (s.withOperand (.number text t.position))
  | .string text => .ok (s.withOperand (.string text t.position))
  | .identifier name => .ok ⟨.name name t.position, s⟩
  | .symbol .plus => .ok ⟨.level, { s with stack := .sign .plus t.position :: s.stack }⟩
  | .symbol .minus => .ok ⟨.level, { s with stack := .sign .minus t.position :: s.stack }⟩
  | .symbol .leftParen => .ok ⟨.level, { s with stack := .group :: s.stack }⟩
  | _ => .error ⟨.unexpectedToken "expression" t.kind t.position, s.opened⟩

/-- Read `t`, which is no operator, after the expression `e` within `stack`, at whose end `opened`
levels are left. -/
def readClosing (e : Expr) (stack : List Frame) (opened : Nat) (t : Token) :
    Except Refusal Progress :=
  match stack, t.lexeme with
  | .group :: stack, .symbol .rightParen => .ok (withOperand ⟨stack, opened⟩ e)
  | .call name position done :: stack, .symbol .rightParen =>
    .ok (withOperand ⟨stack, opened⟩ (.call name (e :: done).reverse position))
  | .call name position done :: stack, .symbol .semicolon =>
    .ok ⟨.level, ⟨.call name position (e :: done) :: stack, opened⟩⟩
  | stack, _ => .error ⟨.unexpectedToken (expectedAfter stack) t.kind t.position, opened⟩

/-- The operator that `t` is. -/
def operator? (t : Token) : Option Operator :=
  match t.lexeme with
  | .symbol s => Operator.ofSymbol? s
  | _ => none

/-- Read `t` after the operand `e`. -/
def readAfter (s : Surroundings) (e : Expr) (t : Token) : Except Refusal Progress :=
  match operator? t with
  | some op =>
    let (left, stack) := reduce op.tightness e s.stack
    .ok ⟨.operand, { s with stack := .operation left op t.position :: stack }⟩
  | none =>
    let (e, stack) := reduce 0 e s.stack
    readClosing e stack (s.opened - 1) t

/-- The whole expression, if the input ends at `position` after the operand `e`. -/
def finishAfter (s : Surroundings) (e : Expr) (position : Nat) : Except Refusal Expr :=
  match reduce 0 e s.stack with
  | (e, []) => .ok e
  | (_, stack) =>
    .error ⟨.unexpectedToken (expectedAfter stack) .endOfInput position, s.opened - 1⟩

end Surroundings

namespace Progress

/-- The beginning of a formula. -/
def start : Progress :=
  ⟨.level, ⟨[], 0⟩⟩

/-- Read the token `t`, which is not the end of the input. -/
def step (bounds : Bounds) (p : Progress) (t : Token) : Except Refusal Progress :=
  match p.phase with
  | .level => do (← p.around.openLevel bounds t.position).readOperand t
  | .operand => p.around.readOperand t
  | .name name position =>
    if t.lexeme = .symbol .leftParen then .ok ⟨.arguments name position, p.around⟩
    else
      let (e, around) :=
        Surroundings.applySigns (.reference name position) p.around.stack p.around.opened
      around.readAfter e t
  | .arguments name position =>
    if t.lexeme = .symbol .rightParen then .ok (p.around.withOperand (.call name [] position))
    else do
      let within := { p.around with stack := .call name position [] :: p.around.stack }
      (← within.openLevel bounds t.position).readOperand t
  | .complete e => p.around.readAfter e t

/-- The expression, if the input ends at `position`. -/
def finish (bounds : Bounds) (p : Progress) (position : Nat) : Except Refusal Expr :=
  match p.phase with
  | .level | .arguments .. => do
    let around ← p.around.openLevel bounds position
    .error ⟨.unexpectedToken "expression" .endOfInput position, around.opened⟩
  | .operand => .error ⟨.unexpectedToken "expression" .endOfInput position, p.around.opened⟩
  | .name name place =>
    let (e, around) :=
      Surroundings.applySigns (.reference name place) p.around.stack p.around.opened
    around.finishAfter e position
  | .complete e => p.around.finishAfter e position

/-! ## Reading all tokens -/

/-- Read tokens up to the end of the expression, with the tokens left over. The input ends at the
first token that says so, which is then used up, or after all tokens at `ending`. A token that is
refused is left over. -/
def run (bounds : Bounds) (ending : Nat) :
    Progress → List Token → Except Refusal Expr × List Token
  | p, [] => (p.finish bounds ending, [])
  | p, t :: rest =>
    if t.lexeme = .endOfInput then
      match p.finish bounds t.position with
      | .ok e => (.ok e, rest)
      | .error refusal => (.error refusal, t :: rest)
    else
      match p.step bounds t with
      | .ok p => run bounds ending p rest
      | .error refusal => (.error refusal, t :: rest)

end Progress

end Parser

/-- The number of levels that may be open at once unless another limit is set. -/
def defaultLimit : Nat := 128

/-- A place in a list of tokens from which expressions are read. -/
structure Parser where
  /-- The tokens from here on, without the end of the input that closes the list. -/
  rest : List Token
  /-- The place of the end of the input. -/
  ending : Nat
  /-- The number of levels that earlier errors left open. -/
  depth : Nat
  /-- The number of levels that may be open at once. -/
  limit : Nat
  deriving DecidableEq

namespace Parser

/-- The beginning of `tokens`. If the last of them is not the end of the input, the input ends one
character after it starts. -/
def ofTokens (tokens : List Token) (limit : Nat) : Parser :=
  match tokens.getLast? with
  | none => ⟨[], 1, 0, limit⟩
  | some t =>
    if t.lexeme = .endOfInput then ⟨tokens.dropLast, t.position, 0, limit⟩
    else ⟨tokens, t.position + 1, 0, limit⟩

/-- The expression from here to the end of the input, and the parser after it. -/
def parse (p : Parser) : Except Error Expr × Parser :=
  let bounds : Bounds := ⟨p.limit - p.depth, p.limit⟩
  match Progress.start.run bounds p.ending p.rest with
  | (.ok e, rest) => (.ok e, { p with rest })
  | (.error refusal, rest) =>
    (.error refusal.error, { p with rest, depth := p.depth + refusal.opened })

end Parser

/-- The expression that `tokens` form. -/
def Expr.ofTokens (tokens : List Token) (limit : Nat) : Except Error Expr :=
  (Parser.ofTokens tokens limit).parse.1

/-- The expression that a formula is. -/
def Expr.ofString (text : String) (limit : Nat) : Except Error Expr := do
  Expr.ofTokens (← tokenize text) limit

end SheetFormula
