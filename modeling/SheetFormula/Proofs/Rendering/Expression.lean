import SheetFormula.Expr
import SheetFormula.Proofs.Lexer.Spelling

/-!
# Writing expressions

An expression is written with a space between two tokens and with parentheses only where the
tightness of the operators needs them: around a left operand that is looser than its operator,
around a right operand that is no tighter than its operator, and around an operation that has a
sign before it (`Expr.lexemes`, `Expr.text`). The tightness of an expression is that of its
operator; an expression with a sign holds together more tightly than any operation, and a literal,
a name or a call more tightly than that (`Expr.level`).

`Expr.writtenDepth` says how deep the text is nested, in the measure of the grammar: parentheses,
if they are written, argument lists with an argument, and signs count, and links of a chain do not.

Not every expression can be written, since a tree may hold any text as a literal or a name. Those
that can be have only texts that are tokens (`Expr.Lexable`), and then all of their lexemes are
(`Expr.Lexable.wellFormed`).

Positions are not written, so two expressions count as the same if they differ in nothing else.
This is said by setting all positions to zero (`Expr.withoutPositions`), which makes it an
equation; the lemmas about it tell the outermost part of an expression from that of the one without
positions.
-/

namespace SheetFormula

/-- Lexemes in parentheses, if those are needed. -/
def Lexeme.parenthesize (needed : Bool) (lexemes : List Lexeme) : List Lexeme :=
  if needed then .symbol .leftParen :: (lexemes ++ [.symbol .rightParen]) else lexemes

namespace Expr

/-- How tightly an expression holds together: as its operator does, more tightly with a sign, and
most tightly without either. -/
def level : Expr → Nat
  | .binary op .. => op.tightness
  | .unary .. => 5
  | _ => 6

mutual

/-- The lexemes that an expression is written with. -/
def lexemes : Expr → List Lexeme
  | .number text _ => [.number text]
  | .string text _ => [.string text]
  | .reference name _ => [.identifier name]
  | .unary sign operand _ =>
    .symbol sign.symbol :: Lexeme.parenthesize (operand.level < 5) operand.lexemes
  | .binary op left right _ =>
    Lexeme.parenthesize (left.level < op.tightness) left.lexemes ++
      .symbol op.symbol :: Lexeme.parenthesize (right.level ≤ op.tightness) right.lexemes
  | .call name arguments _ =>
    .identifier name :: .symbol .leftParen :: (lexemesAll arguments ++ [.symbol .rightParen])

/-- The lexemes of an argument list, with a semicolon between two arguments. -/
def lexemesAll : List Expr → List Lexeme
  | [] => []
  | [e] => e.lexemes
  | e :: next :: others => e.lexemes ++ .symbol .semicolon :: lexemesAll (next :: others)

end

/-- An expression as text, with a space between two tokens. -/
def text (e : Expr) : String :=
  " ".intercalate (e.lexemes.map Lexeme.text)

mutual

/-- The largest number of written parentheses, argument lists with an argument and signs around one
place of the text. -/
def writtenDepth : Expr → Nat
  | .number .. | .string .. | .reference .. => 0
  | .unary _ operand _ => operand.writtenDepth + (decide (operand.level < 5)).toNat + 1
  | .binary op left right _ =>
    max (left.writtenDepth + (decide (left.level < op.tightness)).toNat)
      (right.writtenDepth + (decide (right.level ≤ op.tightness)).toNat)
  | .call _ arguments _ => if arguments.isEmpty then 0 else writtenDepthAll arguments + 1

/-- The depth of the deepest argument. -/
def writtenDepthAll : List Expr → Nat
  | [] => 0
  | e :: others => max e.writtenDepth (writtenDepthAll others)

end

mutual

/-- Whether every literal and every name of an expression can be written as a token. -/
def Lexable : Expr → Prop
  | .number text _ => (Lexeme.number text).WellFormed
  | .string text _ => (Lexeme.string text).WellFormed
  | .reference name _ => (Lexeme.identifier name).WellFormed
  | .unary _ operand _ => operand.Lexable
  | .binary _ left right _ => left.Lexable ∧ right.Lexable
  | .call name arguments _ => (Lexeme.identifier name).WellFormed ∧ LexableAll arguments

/-- Whether all expressions of a list can be written. -/
def LexableAll : List Expr → Prop
  | [] => True
  | e :: others => e.Lexable ∧ LexableAll others

end

mutual

/-- The expression with all positions set to zero. -/
def withoutPositions : Expr → Expr
  | .number text _ => .number text 0
  | .string text _ => .string text 0
  | .reference name _ => .reference name 0
  | .unary sign operand _ => .unary sign operand.withoutPositions 0
  | .binary op left right _ => .binary op left.withoutPositions right.withoutPositions 0
  | .call name arguments _ => .call name (withoutPositionsAll arguments) 0

/-- The expressions of a list with all positions set to zero. -/
def withoutPositionsAll : List Expr → List Expr
  | [] => []
  | e :: others => e.withoutPositions :: withoutPositionsAll others

end

theorem eq_number_of_withoutPositions {e : Expr} {text : String}
    (h : e.withoutPositions = .number text 0) : ∃ position, e = .number text position := by
  cases e with
  | number text' position =>
    cases h
    exact ⟨position, rfl⟩
  | _ => cases h

theorem eq_binary_of_withoutPositions {e left right : Expr} {op : Operator}
    (h : e.withoutPositions = .binary op left right 0) :
    ∃ left' right' position, e = .binary op left' right' position ∧
      left'.withoutPositions = left ∧ right'.withoutPositions = right := by
  cases e with
  | binary op' left' right' position =>
    obtain ⟨rfl, hleft, hright, -⟩ := Expr.binary.inj h
    exact ⟨left', right', position, rfl, hleft, hright⟩
  | _ => cases h

theorem eq_call_of_withoutPositions {e argument : Expr} {name : String}
    (h : e.withoutPositions = .call name [argument] 0) :
    ∃ argument' position, e = .call name [argument'] position ∧
      argument'.withoutPositions = argument := by
  cases e with
  | call name' arguments position =>
    obtain ⟨rfl, hall, -⟩ := Expr.call.inj h
    match arguments, hall with
    | [argument'], hall =>
      exact ⟨argument', position, rfl, (List.cons.inj hall).1⟩
  | _ => cases h

end Expr

/-! ## Lexemes of what can be written -/

theorem Lexeme.wellFormed_of_parenthesize {needed : Bool} {lexemes : List Lexeme}
    (h : ∀ l ∈ lexemes, l.WellFormed) :
    ∀ l ∈ Lexeme.parenthesize needed lexemes, l.WellFormed := by
  intro l mem
  unfold Lexeme.parenthesize at mem
  split at mem
  · simp only [List.mem_cons, List.mem_append, List.not_mem_nil, or_false] at mem
    rcases mem with rfl | mem | rfl
    · trivial
    · exact h l mem
    · trivial
  · exact h l mem

namespace Expr

mutual

/-- What can be written is written with well-formed lexemes. -/
theorem Lexable.wellFormed : ∀ {e : Expr}, e.Lexable → ∀ l ∈ e.lexemes, l.WellFormed
  | .number .., h, l, mem | .string .., h, l, mem | .reference .., h, l, mem => by
    rw [lexemes, List.mem_singleton] at mem
    exact mem ▸ h
  | .unary sign operand position, h, l, mem => by
    rw [lexemes, List.mem_cons] at mem
    rcases mem with rfl | mem
    · trivial
    · have inner : operand.Lexable := h
      exact Lexeme.wellFormed_of_parenthesize inner.wellFormed l mem
  | .binary op left right position, h, l, mem => by
    rw [lexemes, List.mem_append, List.mem_cons] at mem
    rcases mem with mem | rfl | mem
    · exact Lexeme.wellFormed_of_parenthesize (Lexable.wellFormed h.1) l mem
    · trivial
    · exact Lexeme.wellFormed_of_parenthesize (Lexable.wellFormed h.2) l mem
  | .call name arguments position, h, l, mem => by
    rw [lexemes, List.mem_cons, List.mem_cons, List.mem_append, List.mem_singleton] at mem
    rcases mem with rfl | rfl | mem | rfl
    · exact h.1
    · trivial
    · exact LexableAll.wellFormed h.2 l mem
    · trivial

theorem LexableAll.wellFormed : ∀ {es : List Expr}, LexableAll es →
    ∀ l ∈ lexemesAll es, l.WellFormed
  | [], _, l, mem => by
    simp [lexemesAll] at mem
  | [_], h, l, mem => Lexable.wellFormed h.1 l mem
  | e :: next :: others, h, l, mem => by
    rw [lexemesAll, List.mem_append, List.mem_cons] at mem
    rcases mem with mem | rfl | mem
    · exact Lexable.wellFormed h.1 l mem
    · trivial
    · exact LexableAll.wellFormed h.2 l mem

end

end Expr

end SheetFormula
