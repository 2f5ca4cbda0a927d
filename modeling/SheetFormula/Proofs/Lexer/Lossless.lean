import SheetFormula.Proofs.Lexer.Places

/-!
# Lexing is lossless

A text that the lexer reads is cut into pieces, one for each token but the end of the input: blank
characters, and after them the characters that the token was read from. The pieces and the blank
characters after the last of them are the text (`tokenize_lossless`), so no character is lost, read
twice or given to two tokens. Only the last piece can be written in another way than in full, if it
is a string without its closing quote.

The cut is there in `Tokenized` already, one constructor for each piece; what is new is that the
pieces are data that can be put together again. They are collected by induction
(`Tokenized.exists_pieces`). Where a piece stands is said by the characters before it
(`StandInTurn`), which is kept when a piece is put in front (`StandInTurn.cons`).

That places increase from token to token (`Tokenized.increasing`) is a second induction; it rests
on every lexeme being written with some character (`Lexeme.Written.ne_nil`).
-/

namespace SheetFormula

open Unicode (isBlank)

/-! ## Pieces of a text -/

/-- A token with the characters it was read from and the blank characters before them. -/
structure Piece where
  gap : List Char
  written : List Char
  token : Token

/-- All characters of a piece. -/
def Piece.chars (p : Piece) : List Char :=
  p.gap ++ p.written

/-- After `offset` characters comes the piece: its token begins where it says and is written in
full. Only at the end of the text a string may lack its closing quote. -/
structure Piece.StandsAfter (offset : Nat) (atEnd : Prop) (p : Piece) : Prop where
  blank : ∀ c ∈ p.gap, isBlank c = true
  position : p.token.position = offset + p.gap.length + 1
  wellFormed : p.token.lexeme.WellFormed
  spelled : p.written = p.token.lexeme.text.toList ∨
    ∃ text, p.token.lexeme = .string text ∧ p.written = '"' :: text.toList ∧ atEnd

/-- Each of the pieces comes after those before it, the first of them after `offset` characters. -/
def StandInTurn (offset : Nat) (pieces : List Piece) (trailing : List Char) : Prop :=
  ∀ before p after, pieces = before ++ p :: after →
    p.StandsAfter (offset + (before.flatMap Piece.chars).length) (after = [] ∧ trailing = [])

theorem StandInTurn.nil (offset : Nat) (trailing : List Char) : StandInTurn offset [] trailing := by
  intro before p after split
  simp at split

theorem StandInTurn.cons {offset : Nat} {p : Piece} {pieces : List Piece} {trailing : List Char}
    (first : p.StandsAfter offset (pieces = [] ∧ trailing = []))
    (others : StandInTurn (offset + p.chars.length) pieces trailing) :
    StandInTurn offset (p :: pieces) trailing := by
  intro before q after split
  cases before with
  | nil =>
    obtain ⟨rfl, rfl⟩ := List.cons.inj split
    exact first
  | cons p' before =>
    obtain ⟨rfl, inner⟩ := List.cons.inj split
    have stands := others before q after inner
    rwa [Nat.add_assoc, ← List.length_append, ← List.flatMap_cons] at stands

/-! ## Pieces and tokens -/

namespace Tokenized

variable {offset : Nat} {rest : List Char} {ts : List Token}

/-- The text is cut into pieces, one for each token but the last. -/
theorem exists_pieces (h : Tokenized offset rest ts) : ∃ pieces trailing,
    rest = pieces.flatMap Piece.chars ++ trailing ∧
      ts = pieces.map Piece.token ++ [Token.ending (offset + rest.length + 1)] ∧
      (∀ c ∈ trailing, isBlank c = true) ∧ StandInTurn offset pieces trailing ∧
      (rest = [] → pieces = []) := by
  induction h with
  | @ending offset gap blank =>
    exact ⟨[], gap, by simp, by simp, blank, .nil offset gap, fun _ => rfl⟩
  | @token offset gap written rest lexeme ts blank here others ih =>
    obtain ⟨pieces, trailing, hrest, rfl, hblank, stand, empty⟩ := ih
    let first : Piece := ⟨gap, written, ⟨lexeme, offset + gap.length + 1⟩⟩
    have chars : offset + first.chars.length = offset + gap.length + written.length := by
      rw [Piece.chars, List.length_append, Nat.add_assoc]
    refine ⟨first :: pieces, trailing, ?_, ?_, hblank, .cons ?_ (chars ▸ stand), ?_⟩
    · rw [List.flatMap_cons, List.append_assoc, ← hrest, Piece.chars, List.append_assoc]
    · simp [first, Nat.add_assoc]
    · refine ⟨blank, rfl, here.wellFormed, here.spelled.imp_right ?_⟩
      -- The rest of the text is empty after a string without its closing quote.
      rintro ⟨text, string, spelling, rfl⟩
      have last := empty rfl
      refine ⟨text, string, spelling, last, ?_⟩
      simpa [last] using hrest.symm
    · intro nothing
      exact absurd nothing (by simp [here.ne_nil])

/-- Each token begins after those before it. -/
theorem increasing (h : Tokenized offset rest ts) :
    (∀ t ∈ ts, offset < t.position) ∧ ts.Pairwise fun t u => t.position < u.position := by
  induction h with
  | @ending offset gap blank =>
    refine ⟨fun t mem => ?_, List.pairwise_singleton _ _⟩
    obtain rfl := List.mem_singleton.mp mem
    simp only [Token.ending]
    omega
  | @token offset gap written rest lexeme ts blank here others ih =>
    obtain ⟨beyond, ordered⟩ := ih
    have nonempty : 0 < written.length := List.length_pos_iff.mpr here.ne_nil
    refine ⟨fun t mem => ?_, List.pairwise_cons.mpr ⟨fun t mem => ?_, ordered⟩⟩
    · rcases List.mem_cons.mp mem with rfl | mem
      · dsimp only
        omega
      · have := beyond t mem
        omega
    · have := beyond t mem
      dsimp only
      omega

end Tokenized

/-- A text that is read is the pieces its tokens were read from, one after another, and blank
characters. The pieces begin where the tokens say, counted in characters from one, each further on
than the one before, and the end of the input comes right after the text. -/
theorem tokenize_lossless {text : String} {ts : List Token} (h : tokenize text = .ok ts) :
    ∃ (pieces : List Piece) (trailing : List Char),
      text.toList = pieces.flatMap Piece.chars ++ trailing ∧
        ts = pieces.map Piece.token ++ [Token.ending (text.length + 1)] ∧
        (∀ c ∈ trailing, isBlank c = true) ∧ StandInTurn 0 pieces trailing ∧
        (∀ p ∈ pieces, p.token.lexeme ≠ .endOfInput) ∧
        ts.Pairwise fun t u => t.position < u.position := by
  have tokenized := tokenize_eq_ok_iff.mp h
  obtain ⟨pieces, trailing, htext, hts, blank, stand, -⟩ := tokenized.exists_pieces
  refine ⟨pieces, trailing, htext, ?_, blank, stand, fun p mem ended => ?_, tokenized.increasing.2⟩
  · rw [hts, String.length_toList, Nat.zero_add]
  · obtain ⟨before, after, split⟩ := List.append_of_mem mem
    have wellFormed := (stand before p after split).wellFormed
    rw [ended] at wellFormed
    exact wellFormed

/-- The text ` ö<=2,5+"a` ends within a string, and its second blank is not the one of the space
bar. -/
theorem openString_lossless :
    tokenize " ö<=\u00a02,5+\"a" = .ok [⟨.identifier "ö", 2⟩, ⟨.symbol .lessEqual, 3⟩,
        ⟨.number "2,5", 6⟩, ⟨.symbol .plus, 9⟩, ⟨.string "a", 10⟩, Token.ending 12] ∧
      ∃ (pieces : List Piece) (trailing : List Char),
        " ö<=\u00a02,5+\"a".toList = pieces.flatMap Piece.chars ++ trailing ∧
          StandInTurn 0 pieces trailing ∧ pieces.length = 5 := by
  have read : tokenize " ö<=\u00a02,5+\"a" = .ok [⟨.identifier "ö", 2⟩, ⟨.symbol .lessEqual, 3⟩,
      ⟨.number "2,5", 6⟩, ⟨.symbol .plus, 9⟩, ⟨.string "a", 10⟩, Token.ending 12] := by cbv
  obtain ⟨pieces, trailing, htext, hts, -, stand, -, -⟩ := tokenize_lossless read
  refine ⟨read, pieces, trailing, htext, stand, ?_⟩
  have length := congrArg List.length hts
  simpa using length.symm

end SheetFormula
