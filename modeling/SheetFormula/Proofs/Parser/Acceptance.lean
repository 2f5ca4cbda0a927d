import SheetFormula.Proofs.Grammar.Unambiguous
import SheetFormula.Proofs.Parser.Completeness
import SheetFormula.Proofs.Parser.Soundness

/-!
# What the parser accepts

The parser accepts exactly what the grammar derives within the limit of nesting, and the expression
it gives is the tree of the derivation (`Expr.ofTokens_eq_ok_iff`). One direction is
`Parser.reads_formula`: every derivation is read. The other is
`Parser.Describes.exists_derivation`: whatever is read is derived. Both are about reading tokens
one after another, which accepting is by `Parser.Progress.run_eq_ok_iff`.

The limit is on both sides. A derivation says itself how deep it is nested (`Derivation.nesting`),
and it is read if there is room for that; and the levels that are open while tokens are read never
exceed the limit, so what is read is not nested deeper.

As the tokens have one derivation only (`SheetFormula.Proofs.Grammar.Unambiguous`), the tree is the
one tree that they have (`Expr.ofTokens_eq_ok_iff_unique_derivation`). The grammar lets a chain of
operators of one tightness be a list of links, and its tree leans to the left, as the parser makes
it.
-/

namespace SheetFormula

/-- The parser accepts exactly the tokens that have a derivation nested within the limit, and gives
the tree of the derivation. -/
theorem Expr.ofTokens_eq_ok_iff {tokens : List Token} {ending : Token}
    (inner : ∀ t ∈ tokens, t.lexeme ≠ .endOfInput) (last : ending.lexeme = .endOfInput)
    {limit : Nat} {e : Expr} : Expr.ofTokens (tokens ++ [ending]) limit = .ok e ↔
      ∃ d : Derivation 0, d.tokens = tokens ∧ d.nesting ≤ limit ∧ d.tree = e := by
  have hrun : Expr.ofTokens (tokens ++ [ending]) limit = .ok e ↔
      (Parser.Progress.start.run ⟨limit, limit⟩ ending.position tokens).1 = .ok e := by
    simp only [Expr.ofTokens, Parser.ofTokens, List.getLast?_concat, last, if_true,
      List.dropLast_concat, Parser.parse, Nat.sub_zero]
    split
    · next e' _ h => simp [h]
    · next refusal _ h => simp [h]
  rw [hrun, Parser.Progress.run_eq_ok_iff inner]
  constructor
  · rintro ⟨q, hq, hfinish⟩
    have described : Parser.Describes limit .start [] := .start
    exact (described.reads hq).exists_derivation hfinish
  · rintro ⟨d, rfl, room, rfl⟩
    exact Parser.reads_formula d room ending.position

/-- The parser accepts exactly the tokens that have a derivation nested within the limit, and gives
its tree. No tokens have two derivations. -/
theorem Expr.ofTokens_eq_ok_iff_unique_derivation {tokens : List Token} {ending : Token}
    (inner : ∀ t ∈ tokens, t.lexeme ≠ .endOfInput) (last : ending.lexeme = .endOfInput)
    (limit : Nat) (e : Expr) :
    (Expr.ofTokens (tokens ++ [ending]) limit = .ok e ↔
      ∃ d : Derivation 0, d.tokens = tokens ∧ d.nesting ≤ limit ∧ d.tree = e) ∧
      ∀ d d' : Derivation 0, d.tokens = tokens → d'.tokens = tokens → d = d' :=
  ⟨Expr.ofTokens_eq_ok_iff inner last,
    fun _ _ hd hd' => Derivation.eq_of_tokens_eq (hd.trans hd'.symm)⟩

/-- The tokens of `2^3^F(-x)`. -/
def powersOfCall : List Token :=
  [⟨.number "2", 1⟩, ⟨.symbol .caret, 2⟩, ⟨.number "3", 3⟩, ⟨.symbol .caret, 4⟩,
    ⟨.identifier "F", 5⟩, ⟨.symbol .leftParen, 6⟩, ⟨.symbol .minus, 7⟩, ⟨.identifier "x", 8⟩,
    ⟨.symbol .rightParen, 9⟩]

/-- Powers group to the left, and the sign in the argument is nested three deep. -/
theorem powersOfCall_derivation :
    (∀ t ∈ powersOfCall, t.lexeme ≠ .endOfInput) ∧ (Token.ending 10).lexeme = .endOfInput ∧
      ∃ d : Derivation 0, d.tokens = powersOfCall ∧ d.nesting ≤ 3 ∧ d.tree =
        .binary (.arithmetic .power)
          (.binary (.arithmetic .power) (.number "2" 1) (.number "3" 3) 2)
          (.call "F" [.unary .minus (.reference "x" 8) 7] 5) 4 :=
  ⟨by decide, rfl,
    (Expr.ofTokens_eq_ok_iff_unique_derivation (by decide) rfl 3 _).1.mp
      (rfl : Expr.ofTokens (powersOfCall ++ [Token.ending 10]) 3 = _)⟩

end SheetFormula
