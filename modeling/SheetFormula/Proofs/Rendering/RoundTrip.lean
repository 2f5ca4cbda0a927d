import SheetFormula.Proofs.Formula
import SheetFormula.Proofs.Rendering.Expression

/-!
# Reading what was written

Reading undoes writing. The text of an expression is read as the expression again, up to positions,
under every limit that the nesting of the text allows, and two expressions with the same text are
the same up to positions (`Expr.ofString_text`).

The heart of it is that tokens with the lexemes of a written expression have a derivation whose
tree is the expression up to positions, as deep as the text is nested (`Expr.isDerived`). It goes
by induction on the expression, and for argument lists by induction on the list
(`Expr.areDerived`). The derivation is one of the level of the expression, which is the loosest
place where the expression can stand without parentheses. An operand is derived from the level that
its place has (`Expr.IsDerived.operand`): in parentheses from any level, and without them because a
derivation of a tight level is also one of each looser level (`Derivation.exists_of_level_le`).

A chain of operators of one tightness is a single derivation in the grammar and a tree that leans
to the left here. So the derivation of an operation is that of its left operand with one more link.

That the text has these tokens is what `SheetFormula.Proofs.Lexer.Spelling` says about well-formed
lexemes with spaces between them (`Expr.tokenize_text`), and that the parser gives the tree of the
derivation is its acceptance (`Expr.exists_derivation_text`).
-/

namespace SheetFormula

open Unicode (isBlank)

/-! ## Derivations of written expressions -/

/-- A derivation of a tight level is one of each looser level, operands included. -/
theorem Derivation.exists_of_level_le {n m : Nat} (d : Derivation m) (le : n ≤ m) (six : m ≤ 6) :
    ∃ d' : Derivation n, d'.tokens = d.tokens ∧ d'.tree = d.tree ∧ d'.depth = d.depth := by
  by_cases five : m ≤ 5
  · exact d.exists_looser le five
  · obtain rfl : m = 6 := by omega
    by_cases same : n = 6
    · subst same
      exact ⟨d, rfl, rfl, rfl⟩
    · exact (Derivation.unsigned d).exists_looser (by omega) (Nat.le_refl 5)

namespace Expr

theorem level_le (e : Expr) : e.level ≤ 6 := by
  cases e with
  | binary op =>
    have := op.tightness_lt
    simp only [level]
    omega
  | _ => simp [level]

/-- Tokens with the lexemes of `e` are derived from the level of `e`, and form `e` up to
positions. -/
def IsDerived (e : Expr) : Prop :=
  ∀ ts : List Token, ts.map Token.lexeme = e.lexemes → ∃ d : Derivation e.level,
    d.tokens = ts ∧ d.tree.withoutPositions = e.withoutPositions ∧ d.depth = e.writtenDepth

/-- Written in parentheses where its level demands it, an expression is derived from the level that
its place has. -/
theorem IsDerived.operand {e : Expr} (derived : e.IsDerived) {n : Nat} (le : n ≤ 6)
    {needed : Bool} (tight : needed = false → n ≤ e.level) {ts : List Token}
    (hts : ts.map Token.lexeme = Lexeme.parenthesize needed e.lexemes) :
    ∃ d : Derivation n, d.tokens = ts ∧ d.tree.withoutPositions = e.withoutPositions ∧
      d.depth = e.writtenDepth + needed.toNat := by
  cases needed with
  | false =>
    obtain ⟨d, htokens, htree, hdepth⟩ := derived ts hts
    obtain ⟨d', htokens', htree', hdepth'⟩ := d.exists_of_level_le (tight rfl) e.level_le
    exact ⟨d', htokens'.trans htokens, by rw [htree', htree], by simp [hdepth', hdepth]⟩
  | true =>
    simp only [Lexeme.parenthesize, if_true] at hts
    obtain ⟨opening, ts, rfl, hopening, hts⟩ := List.map_eq_cons_iff.mp hts
    obtain ⟨inner, ts', rfl, hinner, hts'⟩ := List.map_eq_append_iff.mp hts
    obtain ⟨closing, none, rfl, hclosing, hnone⟩ := List.map_eq_cons_iff.mp hts'
    obtain rfl := List.map_eq_nil_iff.mp hnone
    obtain ⟨d, rfl, htree, hdepth⟩ := derived inner hinner
    obtain ⟨d₀, htokens₀, htree₀, hdepth₀⟩ :=
      d.exists_of_level_le (Nat.zero_le e.level) e.level_le
    obtain ⟨d', htokens', htree', hdepth'⟩ :=
      (Derivation.group opening.position d₀ closing.position).exists_of_level_le le
        (Nat.le_refl 6)
    refine ⟨d', ?_, ?_, ?_⟩
    · rw [htokens', Derivation.tokens, htokens₀, ← hopening, ← hclosing]
    · rw [htree', Derivation.tree, htree₀, htree]
    · simp [hdepth', Derivation.depth, hdepth₀, hdepth]

/-- Tokens with the lexemes of an argument list form its arguments up to positions. -/
def AreDerived (es : List Expr) : Prop :=
  ∀ ts : List Token, ts.map Token.lexeme = lexemesAll es → ∃ l : ArgumentList,
    l.tokens = ts ∧ withoutPositionsAll l.trees = withoutPositionsAll es ∧
      l.depth = writtenDepthAll es

mutual

/-- Every expression is derived as it is written. -/
theorem isDerived : ∀ e : Expr, e.IsDerived
  | .number text position, ts, hts => by
    obtain ⟨t, rfl, ht⟩ := List.map_eq_singleton_iff.mp hts
    exact ⟨.number text t.position, by simp [Derivation.tokens, ← ht], rfl, rfl⟩
  | .string text position, ts, hts => by
    obtain ⟨t, rfl, ht⟩ := List.map_eq_singleton_iff.mp hts
    exact ⟨.string text t.position, by simp [Derivation.tokens, ← ht], rfl, rfl⟩
  | .reference name position, ts, hts => by
    obtain ⟨t, rfl, ht⟩ := List.map_eq_singleton_iff.mp hts
    exact ⟨.reference name t.position, by simp [Derivation.tokens, ← ht], rfl, rfl⟩
  | .unary sign operand position, ts, hts => by
    obtain ⟨t, ts, rfl, ht, hts⟩ := List.map_eq_cons_iff.mp hts
    have tight : decide (operand.level < 5) = false → 5 ≤ operand.level := by simp
    obtain ⟨d, rfl, htree, hdepth⟩ := operand.isDerived.operand (by omega) tight hts
    refine ⟨.signed sign t.position d, ?_, ?_, ?_⟩
    · simp [Derivation.tokens, ← ht]
    · simp [Derivation.tree, withoutPositions, htree]
    · simp [Derivation.depth, writtenDepth, hdepth]
  | .binary op left right position, ts, hts => by
    have hop := op.tightness_lt
    obtain ⟨ls, ts, rfl, hls, hts⟩ := List.map_eq_append_iff.mp hts
    obtain ⟨t, rs, rfl, ht, hrs⟩ := List.map_eq_cons_iff.mp hts
    have leftTight : decide (left.level < op.tightness) = false → op.tightness ≤ left.level := by
      simp
    have rightTight : decide (right.level ≤ op.tightness) = false →
        op.tightness + 1 ≤ right.level := by
      intro h
      have := of_decide_eq_false h
      omega
    obtain ⟨l, rfl, hltree, hldepth⟩ := left.isDerived.operand (by omega) leftTight hls
    obtain ⟨r, rfl, hrtree, hrdepth⟩ := right.isDerived.operand (by omega) rightTight hrs
    obtain ⟨d, htokens, htree, hdepth⟩ := l.exists_extend op rfl t.position r
    -- The level of a binary node is the tightness of its operator.
    change ∃ d : Derivation op.tightness, d.tokens = _ ∧ d.tree.withoutPositions = _ ∧ d.depth = _
    refine ⟨d, ?_, ?_, ?_⟩
    · rw [htokens, ← ht]
    · simp [htree, withoutPositions, hltree, hrtree]
    · simp [hdepth, writtenDepth, hldepth, hrdepth]
  | .call name arguments position, ts, hts => by
    obtain ⟨t, ts, rfl, ht, hts⟩ := List.map_eq_cons_iff.mp hts
    obtain ⟨opening, ts, rfl, hopening, hts⟩ := List.map_eq_cons_iff.mp hts
    obtain ⟨inner, ts', rfl, hinner, hts'⟩ := List.map_eq_append_iff.mp hts
    obtain ⟨closing, rfl, hclosing⟩ := List.map_eq_singleton_iff.mp hts'
    have derived := areDerived arguments
    cases arguments with
    | nil =>
      obtain rfl := List.map_eq_nil_iff.mp hinner
      refine ⟨.emptyCall name t.position opening.position closing.position, ?_, ?_, ?_⟩
      · simp [Derivation.tokens, ← ht, ← hopening, ← hclosing]
      · rfl
      · rfl
    | cons e others =>
      obtain ⟨l, rfl, htrees, hdepth⟩ := derived (List.cons_ne_nil e others) inner hinner
      refine ⟨.call name t.position opening.position l closing.position, ?_, ?_, ?_⟩
      · simp [Derivation.tokens, ← ht, ← hopening, ← hclosing]
      · simp [Derivation.tree, withoutPositions, htrees]
      · simp [Derivation.depth, writtenDepth, hdepth]

theorem areDerived : ∀ es : List Expr, es ≠ [] → AreDerived es
  | [], nonempty, _, _ => absurd rfl nonempty
  | [e], _, ts, hts => by
    have hts : ts.map Token.lexeme = Lexeme.parenthesize false e.lexemes := hts
    obtain ⟨d, rfl, htree, hdepth⟩ :=
      e.isDerived.operand (Nat.zero_le 6) (fun _ => Nat.zero_le _) hts
    refine ⟨.single d, rfl, ?_, ?_⟩
    · simp [ArgumentList.trees, withoutPositionsAll, htree]
    · simp [ArgumentList.depth, writtenDepthAll, hdepth]
  | e :: next :: others, _, ts, hts => by
    obtain ⟨first, ts, rfl, hfirst, hts⟩ := List.map_eq_append_iff.mp hts
    obtain ⟨t, rest, rfl, ht, hrest⟩ := List.map_eq_cons_iff.mp hts
    have hfirst : first.map Token.lexeme = Lexeme.parenthesize false e.lexemes := hfirst
    obtain ⟨d, rfl, htree, hdepth⟩ :=
      e.isDerived.operand (Nat.zero_le 6) (fun _ => Nat.zero_le _) hfirst
    obtain ⟨l, rfl, htrees, hldepth⟩ :=
      areDerived (next :: others) (List.cons_ne_nil next others) rest hrest
    refine ⟨.cons d t.position l, ?_, ?_, ?_⟩
    · simp [ArgumentList.tokens, ← ht]
    · simpa [ArgumentList.trees, withoutPositionsAll, htree] using htrees
    · simpa [ArgumentList.depth, writtenDepthAll, hdepth] using congrArg _ hldepth

end

/-! ## Texts -/

/-- The tokens of a text are the lexemes it was written with. -/
theorem tokenize_text {e : Expr} (lexable : e.Lexable) :
    ∃ ts : List Token, tokenize e.text = .ok (ts ++ [Token.ending (e.text.length + 1)]) ∧
      ts.map Token.lexeme = e.lexemes := by
  refine ⟨Lexeme.place 0 (Lexeme.spaced e.lexemes), ?_, ?_⟩
  · have spelled : e.text.toList = Lexeme.spell (Lexeme.spaced e.lexemes) :=
      Lexeme.toList_intercalate_text e.lexemes
    rw [tokenize, Lexer.ofString, spelled, Lexer.tokens_spaced lexable.wellFormed, ← spelled,
      String.length_toList, Nat.zero_add]
  · rw [Lexeme.map_lexeme_place, Lexeme.map_snd_spaced]

/-- The text of an expression has a derivation that is nested as deep as the text, and the parser
gives its tree, the expression up to positions. -/
theorem exists_derivation_text {e : Expr} (lexable : e.Lexable) :
    ∃ d : Derivation 0, tokenize e.text = .ok (d.tokens ++ [Token.ending (e.text.length + 1)]) ∧
      d.nesting = e.writtenDepth + 1 ∧ d.tree.withoutPositions = e.withoutPositions ∧
      ∀ limit, e.writtenDepth + 1 ≤ limit → Expr.ofString e.text limit = .ok d.tree := by
  obtain ⟨ts, tokenized, hts⟩ := tokenize_text lexable
  obtain ⟨d, rfl, htree, hdepth⟩ := e.isDerived ts hts
  obtain ⟨d₀, htokens₀, htree₀, hdepth₀⟩ := d.exists_of_level_le (Nat.zero_le e.level) e.level_le
  have nesting : d₀.nesting = e.writtenDepth + 1 := by
    rw [Derivation.nesting, hdepth₀, hdepth]
  rw [← htokens₀] at tokenized
  refine ⟨d₀, tokenized, nesting, by rw [htree₀, htree], fun limit within => ?_⟩
  exact ofString_eq_ok_iff.mpr ⟨d₀, tokenized, Nat.le_trans (Nat.le_of_eq nesting) within, rfl⟩

/-- The text of an expression is read as the expression, up to positions, under every limit that the
nesting of the text allows, and expressions with the same text are the same. -/
theorem ofString_text {e : Expr} (lexable : e.Lexable) :
    (∃ d : Derivation 0,
        tokenize e.text = .ok (d.tokens ++ [Token.ending (e.text.length + 1)]) ∧
        d.nesting = e.writtenDepth + 1 ∧ d.tree.withoutPositions = e.withoutPositions ∧
        ∀ limit, e.writtenDepth + 1 ≤ limit → Expr.ofString e.text limit = .ok d.tree) ∧
      ∀ e' : Expr, e'.Lexable → e'.text = e.text →
        e'.withoutPositions = e.withoutPositions := by
  refine ⟨exists_derivation_text lexable, fun e' lexable' same => ?_⟩
  obtain ⟨d, -, -, htree, parsed⟩ := exists_derivation_text lexable
  obtain ⟨d', -, -, htree', parsed'⟩ := exists_derivation_text lexable'
  have both := parsed (max e.writtenDepth e'.writtenDepth + 1) (by omega)
  have both' := parsed' (max e.writtenDepth e'.writtenDepth + 1) (by omega)
  rw [same, both] at both'
  rw [← htree', ← htree, Except.ok.inj both']

/-- The product of the negated sum of two numbers and a call. -/
def negatedSumTimesCall : Expr :=
  .binary (.arithmetic .multiply)
    (.unary .minus (.binary (.arithmetic .add) (.number "1" 0) (.number "2,5" 0) 0) 0)
    (.call "F" [.reference "x" 0, .string "a b" 0] 0) 0

/-- The sum is written in parentheses, and the text, nested three deep, is read as it was. -/
theorem negatedSumTimesCall_text :
    negatedSumTimesCall.Lexable ∧
      negatedSumTimesCall.text = "- ( 1 + 2,5 ) * F ( x ; \"a b\" )" ∧
      ∃ e : Expr, e.withoutPositions = negatedSumTimesCall ∧
        Expr.ofString "- ( 1 + 2,5 ) * F ( x ; \"a b\" )" 3 = .ok e := by
  have written : negatedSumTimesCall.text = "- ( 1 + 2,5 ) * F ( x ; \"a b\" )" := by
    decide +kernel
  have lexable : negatedSumTimesCall.Lexable := by
    have five : Unicode.isNumeric '5' = true := by decide
    refine ⟨⟨?_, ?_⟩, ?_, ?_, ?_, trivial⟩
    · exact ⟨'1', [], rfl, by decide, by simp, by simp⟩
    · exact ⟨'2', [',', '5'], rfl, by decide, by simp [five], by simp⟩
    · exact ⟨'F', [], rfl, by decide, by decide, by simp⟩
    · exact ⟨'x', [], rfl, by decide, by decide, by simp⟩
    · change '"' ∉ "a b".toList
      decide
  obtain ⟨⟨d, -, -, htree, parsed⟩, -⟩ := ofString_text lexable
  refine ⟨lexable, written, d.tree, htree, ?_⟩
  rw [← written]
  exact parsed 3 (by decide)

end Expr

end SheetFormula
