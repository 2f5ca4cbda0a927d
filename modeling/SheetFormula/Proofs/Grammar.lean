import SheetFormula.Expr.Chain
import SheetFormula.Token

/-!
# The grammar of formulas

A derivation says how the grammar yields a list of tokens. The grammar has seven levels, the
loosest first :

* level 0, comparisons: level 1, then `=`, `<`, `>`, `<=` or `>=` and level 1, repeated;
* level 1, sums: level 2, then `+` or `-` and level 2, repeated;
* level 2, products: level 3, then `*` and level 3, repeated;
* level 3, quotients: level 4, then `/` and level 4, repeated;
* level 4, powers: level 5, then `^` and level 5, repeated;
* level 5, signs : `+` or `-` and level 5, or level 6;
* level 6, operands: a number, a string, a name, a name with arguments in parentheses, or level 0
  in parentheses.

The level of a repetition is the tightness of its operators. Arguments are of level 0 with a
semicolon between two of them. `Derivation.tokens` is the list of tokens derived,
`Derivation.tree` the tree they form, each repetition grouped to the left, and
`Derivation.nesting` how deep they are nested. The tokens determine the derivation
(`Derivation.eq_of_tokens_eq`).
-/

namespace SheetFormula

mutual

/-- A derivation from one level of the grammar. -/
inductive Derivation : Nat → Type where
  /-- An operand of the next level and a repetition of operators of this one. -/
  | chain {n : Nat} (binary : n < 5) (first : Derivation (n + 1)) (rest : Repetition n) :
    Derivation n
  | unsigned (operand : Derivation 6) : Derivation 5
  | signed (sign : Sign) (position : Nat) (operand : Derivation 5) : Derivation 5
  | number (text : String) (position : Nat) : Derivation 6
  | string (text : String) (position : Nat) : Derivation 6
  | reference (name : String) (position : Nat) : Derivation 6
  | group (opening : Nat) (inner : Derivation 0) (closing : Nat) : Derivation 6
  | emptyCall (name : String) (position opening closing : Nat) : Derivation 6
  | call (name : String) (position opening : Nat) (arguments : ArgumentList) (closing : Nat) :
    Derivation 6

/-- Operators of one tightness, each with its right operand. -/
inductive Repetition : Nat → Type where
  | nil {n : Nat} : Repetition n
  | cons {n : Nat} (op : Operator) (tight : op.tightness = n) (position : Nat)
      (operand : Derivation (n + 1)) (rest : Repetition n) : Repetition n

/-- One argument or more. -/
inductive ArgumentList : Type where
  | single (argument : Derivation 0) : ArgumentList
  | cons (argument : Derivation 0) (separator : Nat) (rest : ArgumentList) : ArgumentList

end

/-! ## What a derivation derives -/

mutual

/-- The tokens that a derivation derives. -/
def Derivation.tokens : {n : Nat} → Derivation n → List Token
  | _, .chain _ first rest => first.tokens ++ rest.tokens
  | _, .unsigned operand => operand.tokens
  | _, .signed sign position operand => ⟨.symbol sign.symbol, position⟩ :: operand.tokens
  | _, .number text position => [⟨.number text, position⟩]
  | _, .string text position => [⟨.string text, position⟩]
  | _, .reference name position => [⟨.identifier name, position⟩]
  | _, .group opening inner closing =>
    ⟨.symbol .leftParen, opening⟩ :: (inner.tokens ++ [⟨.symbol .rightParen, closing⟩])
  | _, .emptyCall name position opening closing =>
    [⟨.identifier name, position⟩, ⟨.symbol .leftParen, opening⟩,
      ⟨.symbol .rightParen, closing⟩]
  | _, .call name position opening arguments closing =>
    ⟨.identifier name, position⟩ :: ⟨.symbol .leftParen, opening⟩ ::
      (arguments.tokens ++ [⟨.symbol .rightParen, closing⟩])

/-- The tokens of a repetition. -/
def Repetition.tokens : {n : Nat} → Repetition n → List Token
  | _, .nil => []
  | _, .cons op _ position operand rest =>
    ⟨.symbol op.symbol, position⟩ :: (operand.tokens ++ rest.tokens)

/-- The tokens of an argument list, without its parentheses. -/
def ArgumentList.tokens : ArgumentList → List Token
  | .single argument => argument.tokens
  | .cons argument separator rest =>
    argument.tokens ++ ⟨.symbol .semicolon, separator⟩ :: rest.tokens

end

mutual

/-- The tree that the derived tokens form. A repetition is grouped to the left. -/
def Derivation.tree : {n : Nat} → Derivation n → Expr
  | _, .chain _ first rest => (Chain.mk first.tree rest.links).toExpr
  | _, .unsigned operand => operand.tree
  | _, .signed sign position operand => .unary sign operand.tree position
  | _, .number text position => .number text position
  | _, .string text position => .string text position
  | _, .reference name position => .reference name position
  | _, .group _ inner _ => inner.tree
  | _, .emptyCall name position _ _ => .call name [] position
  | _, .call name position _ arguments _ => .call name arguments.trees position

/-- The operators of a repetition with the trees of their right operands. -/
def Repetition.links : {n : Nat} → Repetition n → List Link
  | _, .nil => []
  | _, .cons op _ position operand rest => ⟨op, operand.tree, position⟩ :: rest.links

/-- The trees of the arguments, in order. -/
def ArgumentList.trees : ArgumentList → List Expr
  | .single argument => [argument.tree]
  | .cons argument _ rest => argument.tree :: rest.trees

end

mutual

/-- The largest number of parentheses, argument lists with an argument and signs around one place
of the derived tokens. -/
def Derivation.depth : {n : Nat} → Derivation n → Nat
  | _, .chain _ first rest => max first.depth rest.depth
  | _, .unsigned operand => operand.depth
  | _, .signed _ _ operand => operand.depth + 1
  | _, .number .. | _, .string .. | _, .reference .. => 0
  | _, .group _ inner _ => inner.depth + 1
  | _, .emptyCall .. => 0
  | _, .call _ _ _ arguments _ => arguments.depth + 1

/-- The depth of the deepest right operand of a repetition. -/
def Repetition.depth : {n : Nat} → Repetition n → Nat
  | _, .nil => 0
  | _, .cons _ _ _ operand rest => max operand.depth rest.depth

/-- The depth of the deepest argument. -/
def ArgumentList.depth : ArgumentList → Nat
  | .single argument => argument.depth
  | .cons argument _ rest => max argument.depth rest.depth

end

/-- How deep the derived tokens are nested, the formula itself counted. -/
def Derivation.nesting (d : Derivation 0) : Nat :=
  d.depth + 1

/-! ## Operators and signs by their symbols -/

namespace Operator

theorem tightness_lt (op : Operator) : op.tightness < 5 := by
  rcases op with op | op <;> cases op <;> decide

theorem symbol_injective {op op' : Operator} (h : op.symbol = op'.symbol) : op = op' := by
  have hop := ofSymbol?_eq_some_iff.mpr h
  have hop' := ofSymbol?_eq_some_iff.mpr (rfl : op'.symbol = op'.symbol)
  exact Option.some.inj (hop.symm.trans hop')

end Operator

theorem Sign.symbol_injective {sign sign' : Sign} (h : sign.symbol = sign'.symbol) :
    sign = sign' := by
  cases sign <;> cases sign' <;> first | rfl | cases h

/-! ## Building derivations -/

/-- A derivation of a tight level is one of each looser level. -/
theorem Derivation.exists_looser {n m : Nat} (d : Derivation m) (le : n ≤ m) (five : m ≤ 5) :
    ∃ d' : Derivation n, d'.tokens = d.tokens ∧ d'.tree = d.tree ∧ d'.depth = d.depth := by
  obtain ⟨k, rfl⟩ := Nat.exists_eq_add_of_le le
  induction k with
  | zero => exact ⟨d, rfl, rfl, rfl⟩
  | succ k ih =>
    obtain ⟨d', htokens, htree, hdepth⟩ :=
      ih (.chain (by omega) d .nil) (by omega) (by omega)
    refine ⟨d', ?_, ?_, ?_⟩
    · simpa [Derivation.tokens, Repetition.tokens] using htokens
    · simpa [Derivation.tree, Repetition.links, Chain.toExpr] using htree
    · simpa [Derivation.depth, Repetition.depth] using hdepth

/-- A repetition may go on with one more operator. -/
theorem Repetition.exists_snoc {n : Nat} (op : Operator) (tight : op.tightness = n)
    (position : Nat) (operand : Derivation (n + 1)) : ∀ s : Repetition n, ∃ s' : Repetition n,
      s'.tokens = s.tokens ++ ⟨.symbol op.symbol, position⟩ :: operand.tokens ∧
        s'.links = s.links ++ [⟨op, operand.tree, position⟩] ∧
        s'.depth = max s.depth operand.depth
  | .nil => ⟨.cons op tight position operand .nil, by simp [tokens], by simp [links],
      by simp [depth]⟩
  | .cons op₀ tight₀ position₀ operand₀ rest => by
    obtain ⟨s', htokens, hlinks, hdepth⟩ := rest.exists_snoc op tight position operand
    refine ⟨.cons op₀ tight₀ position₀ operand₀ s', ?_, ?_, ?_⟩
    · simp [tokens, htokens]
    · simp [links, hlinks]
    · simp [depth, hdepth, Nat.max_assoc]

/-- A derivation of the level of an operator may go on with the operator and an operand. -/
theorem Derivation.exists_extend {n : Nat} (d : Derivation n) (op : Operator)
    (tight : op.tightness = n) (position : Nat) (operand : Derivation (n + 1)) :
    ∃ d' : Derivation n,
      d'.tokens = d.tokens ++ ⟨.symbol op.symbol, position⟩ :: operand.tokens ∧
        d'.tree = .binary op d.tree operand.tree position ∧
        d'.depth = max d.depth operand.depth := by
  cases d with
  | chain binary first rest =>
    obtain ⟨rest', htokens, hlinks, hdepth⟩ := rest.exists_snoc op tight position operand
    refine ⟨.chain binary first rest', ?_, ?_, ?_⟩
    · simp [tokens, htokens]
    · simp [tree, hlinks, Chain.toExpr]
    · simp [depth, hdepth, Nat.max_assoc]
  | _ =>
    have := op.tightness_lt
    omega

/-! ## First tokens -/

/-- The lexemes that an expression can begin with. -/
def Lexeme.beginsExpression : Lexeme → Bool
  | .number _ | .string _ | .identifier _ => true
  | .symbol s => s = .leftParen ∨ s = .plus ∨ s = .minus
  | .endOfInput => false

/-- What is derived begins with a token that an expression can begin with. -/
theorem Derivation.exists_tokens_eq_cons : {n : Nat} → (d : Derivation n) →
    ∃ t others, d.tokens = t :: others ∧ t.lexeme.beginsExpression = true
  | _, .chain _ first rest => by
    obtain ⟨t, others, h, ht⟩ := first.exists_tokens_eq_cons
    exact ⟨t, others ++ rest.tokens, by simp [tokens, h], ht⟩
  | _, .unsigned operand => operand.exists_tokens_eq_cons
  | _, .signed sign position operand =>
    ⟨_, _, rfl, by cases sign <;> rfl⟩
  | _, .number .. | _, .string .. | _, .reference .. | _, .group .. | _, .emptyCall ..
  | _, .call .. => ⟨_, _, rfl, rfl⟩

theorem ArgumentList.exists_tokens_eq_cons (l : ArgumentList) :
    ∃ t others, l.tokens = t :: others ∧ t.lexeme.beginsExpression = true := by
  cases l with
  | single argument => exact argument.exists_tokens_eq_cons
  | cons argument separator rest =>
    obtain ⟨t, others, h, ht⟩ := argument.exists_tokens_eq_cons
    exact ⟨t, others ++ ⟨.symbol .semicolon, separator⟩ :: rest.tokens, by simp [tokens, h], ht⟩

theorem Derivation.tokens_ne_nil {n : Nat} (d : Derivation n) : d.tokens ≠ [] := by
  obtain ⟨t, others, h, -⟩ := d.exists_tokens_eq_cons
  simp [h]

theorem ArgumentList.tokens_ne_nil (l : ArgumentList) : l.tokens ≠ [] := by
  obtain ⟨t, others, h, -⟩ := l.exists_tokens_eq_cons
  simp [h]

end SheetFormula
