import SheetFormula.Proofs.Lexer.Places
import SheetFormula.Proofs.Parser.Acceptance
import SheetFormula.Proofs.Parser.Refusal

/-!
# Formulas and their trees

A formula has a tree exactly if its text is read as tokens that have a derivation nested within the
limit, and it is the tree of this derivation (`Expr.ofString_eq_ok_iff`). The tokens of a text end
with the end of the input and have none before it, which is what the grammar asks for
(`exists_inner_of_tokenize`); the rest is what the parser accepts.

Otherwise the lexer fails on the text, or the parser on the tokens (`Expr.ofString_eq_error_iff`),
and then it is one of the tokens that it refuses: the error names this token, or it is that of the
limit at its place (`Expr.exists_refused_of_ofTokens`). There is no other way to fail. The end of
the input is a token as well, so an error at the end of a text is not a case of its own.

With these three everything that is proved about the grammar and about derivations becomes a
statement about texts. They are what the results about formulas begin with, be it that a written
expression is read again (`SheetFormula.Proofs.Rendering.RoundTrip`) or that an error points to its
place (`SheetFormula.Proofs.ErrorPlaces`), and none of those looks at how the lexer and the parser
work.
-/

namespace SheetFormula.Expr

variable {text : String} {limit : Nat}

/-- The tree of a formula is that of the derivation of its tokens. -/
theorem ofString_eq_ok_iff {e : Expr} : ofString text limit = .ok e ↔
    ∃ d : Derivation 0, tokenize text = .ok (d.tokens ++ [Token.ending (text.length + 1)]) ∧
      d.nesting ≤ limit ∧ d.tree = e := by
  cases read : tokenize text with
  | error e' => simp [ofString, read, Bind.bind, Except.bind]
  | ok ts =>
    obtain ⟨inner, rfl, wellFormed⟩ := exists_inner_of_tokenize read
    have parsed : ofString text limit =
        ofTokens (inner ++ [Token.ending (text.length + 1)]) limit := by
      rw [ofString, read]
      rfl
    rw [parsed, ofTokens_eq_ok_iff (fun t mem => (wellFormed t mem).ne_endOfInput) rfl]
    simp [eq_comm]

/-- A formula has no tree if the lexer fails, or the parser on what the lexer reads. -/
theorem ofString_eq_error_iff {e : Error} : ofString text limit = .error e ↔
    tokenize text = .error e ∨
      ∃ ts, tokenize text = .ok ts ∧ ofTokens ts limit = .error e := by
  cases read : tokenize text <;> simp [ofString, read, Bind.bind, Except.bind]

/-- The parser fails at a token that cannot stand where it does, or where the limit is reached. -/
theorem exists_refused_of_ofTokens {ts : List Token} {e : Error} (read : tokenize text = .ok ts)
    (h : ofTokens ts limit = .error e) : ∃ t ∈ ts,
      (∃ expected, e = .unexpectedToken expected t.kind t.position) ∨
        e = .nestingTooDeep limit t.position := by
  obtain ⟨inner, rfl, wellFormed⟩ := exists_inner_of_tokenize read
  rw [ofTokens, Parser.parse_ofTokens rfl] at h
  split at h
  · cases h
  · next refusal rest hrun =>
    cases h
    obtain ⟨seen, q, t, unread, hts, -, -, -, refused⟩ :=
      Parser.Progress.exists_refuses rfl (fun t mem => (wellFormed t mem).ne_endOfInput) hrun
    refine ⟨t, ?_, refused.names⟩
    rw [hts]
    exact List.mem_append_right _ List.mem_cons_self

end SheetFormula.Expr
