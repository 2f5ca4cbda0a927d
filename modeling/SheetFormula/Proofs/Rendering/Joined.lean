import SheetFormula.Proofs.Evaluation.Positions
import SheetFormula.Proofs.Lexer.Joined
import SheetFormula.Proofs.Rendering.RoundTrip
import SheetFormula.Session

/-!
# Executing formulas written without gaps

An expression can be written in more than one way, since an operand may stand in parentheses that
it does not need. `Expr.IsWritten` says that tokens with certain lexemes form an expression, up to
positions and no deeper than a number says, and it is what matters about a way of writing. The
lexemes of `Expr.lexemes` are one (`Expr.isWritten_lexemes`). For an operation both operands may be
chosen to stand in parentheses or, if they are tight enough, without them
(`Expr.isWritten_binary`).

Whatever way is chosen, a text of its lexemes without gaps is executed as plain evaluation of the
expression, if the limit leaves room for the nesting of both (`Session.execute_joined`). It needs
that no lexeme goes on into the next one (`Lexeme.Joinable`): then the text has these tokens by
`SheetFormula.Proofs.Lexer.Joined`, the tokens have a derivation, and the parser gives its tree.

Positions do not come into it. The tree that is read has others than the expression, and by
`SheetFormula.Proofs.Evaluation.Positions` a value does not depend on them. Therefore the theorem
is about formulas that have a value. An error may hold a position, and then it is one of the text.
-/

namespace SheetFormula

variable {σ : Type}

/-- Tokens with these lexemes form `e` up to positions, nested no deeper than `depth`. -/
def Expr.IsWritten (e : Expr) (lexemes : List Lexeme) (depth : Nat) : Prop :=
  ∀ ts : List Token, ts.map Token.lexeme = lexemes → ∃ d : Derivation 0,
    d.tokens = ts ∧ d.tree.withoutPositions = e.withoutPositions ∧ d.depth ≤ depth

theorem Expr.isWritten_lexemes (e : Expr) : e.IsWritten e.lexemes e.writtenDepth := by
  intro ts hts
  have plain : ts.map Token.lexeme = Lexeme.parenthesize false e.lexemes := hts
  obtain ⟨d, tokens, tree, depth⟩ :=
    e.isDerived.operand (Nat.zero_le 6) (fun _ => Nat.zero_le _) plain
  exact ⟨d, tokens, tree, depth.le⟩

/-- An operation is written with its operands in parentheses or, if they are tight enough, without
them. -/
theorem Expr.isWritten_binary (op : Operator) (left right : Expr) (around around' : Bool)
    (leftTight : around = false → op.tightness ≤ left.level)
    (rightTight : around' = false → op.tightness + 1 ≤ right.level) :
    (Expr.binary op left right 0).IsWritten
      (Lexeme.parenthesize around left.lexemes ++
        .symbol op.symbol :: Lexeme.parenthesize around' right.lexemes)
      (max (left.writtenDepth + around.toNat) (right.writtenDepth + around'.toNat)) := by
  have below := op.tightness_lt
  intro ts hts
  obtain ⟨ls, ts, rfl, hls, hts⟩ := List.map_eq_append_iff.mp hts
  obtain ⟨t, rs, rfl, ht, hrs⟩ := List.map_eq_cons_iff.mp hts
  obtain ⟨l, rfl, ltree, ldepth⟩ := left.isDerived.operand (by omega) leftTight hls
  obtain ⟨r, rfl, rtree, rdepth⟩ := right.isDerived.operand (by omega) rightTight hrs
  obtain ⟨d, tokens, tree, depth⟩ := l.exists_extend op rfl t.position r
  obtain ⟨d', tokens', tree', depth'⟩ := d.exists_looser (Nat.zero_le _) below.le
  refine ⟨d', ?_, ?_, ?_⟩
  · rw [tokens', tokens, ← ht]
  · rw [tree', tree, withoutPositions, withoutPositions, ltree, rtree]
  · rw [depth', depth, ldepth, rdepth]

/-- A text of joined lexemes is executed as the expression that these form, if the limit leaves room
for it. -/
theorem Session.execute_joined {s : Session σ} {text : String} {lexemes : List Lexeme} {e : Expr}
    {depth : Nat} {v : Value} (joinable : Lexeme.Joinable lexemes)
    (spelled : text.toList = Lexeme.joined lexemes) (written : e.IsWritten lexemes depth)
    (within : depth < s.limit) (levels : e.levels ≤ s.limit)
    (value : e.plainValue s.bindings s.host = (.ok v, s.host)) : s.execute text = (.ok v, s) := by
  obtain ⟨ts, tokenized, hts⟩ := tokenize_joined joinable spelled
  obtain ⟨d, rfl, tree, nested⟩ := written ts hts
  have parsed : s.parse text = .ok d.tree :=
    Expr.ofString_eq_ok_iff.mpr ⟨d, tokenized, Nat.succ_le_of_lt (nested.trans_lt within), rfl⟩
  have guarded := Expr.value_of_reach_le ((e.reach_le_levels s.bindings s.host).trans levels)
  rw [Session.execute_of_parse_eq_ok parsed,
    Expr.value_eq_ok_of_withoutPositions tree (guarded.trans value)]

end SheetFormula
