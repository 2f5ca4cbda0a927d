import SheetFormula.Proofs.Lexer.Places

/-!
# Writing and reading lexemes

Reading undoes writing: well-formed lexemes that are written one after another, with blank
characters between them, are read as they are, each at the place where it is written. And nothing
else is read, for every token of a text but the end of the input can be written (`tokenize_spell`).

The first half is `tokenized_spell`: such a text is one that the lexer reads. It names the tokens
by a function that places the lexemes (`Lexeme.place`), and `Lexeme.getElem?_place` says what that
function means, that a lexeme begins right behind the characters that are written before it. The
second half is `exists_inner_of_tokenize`.

One blank character between two lexemes is enough for any two of them, and it is asked for even
where none would be needed. What lexemes may do without it is the subject of
`SheetFormula.Proofs.Lexer.Joined`. Before the first lexeme and after the last one there may be
blank characters or none.

What makes a lexeme well-formed is not that it is read, which would say nothing, but which
characters it is made of (`Lexeme.WellFormed`).
-/

namespace SheetFormula

open Unicode (isBlank isNumeric)

/-- A lexeme has the place at which it is written. -/
theorem Lexeme.getElem?_place {before after : List (List Char × Lexeme)} {gap : List Char}
    {lexeme : Lexeme} (offset : Nat) :
    (place offset (before ++ (gap, lexeme) :: after))[before.length]? =
      some ⟨lexeme, offset + (spell before ++ gap).length + 1⟩ := by
  have length : (place offset before).length = before.length := by
    simpa using congrArg List.length (map_lexeme_place before offset)
  rw [place_append, List.getElem?_append_right (Nat.le_of_eq length), length, Nat.sub_self]
  simp [place, Nat.add_assoc]

/-- Well-formed lexemes, written one after another with at least one blank character between two of
them, are read as these lexemes in order. Each is at the place where it is written, counted in
characters from one, and the end of the input follows them. All tokens that are read from any text,
but for the end of the input, have well-formed lexemes. -/
theorem tokenize_spell :
    (∀ (written : List (List Char × Lexeme)) (trailing : List Char),
      (∀ p ∈ written, (∀ c ∈ p.1, isBlank c = true) ∧ p.2.WellFormed) →
      (∀ p ∈ written.tail, p.1 ≠ []) → (∀ c ∈ trailing, isBlank c = true) →
      ∃ ts : List Token,
        tokenize (String.ofList (Lexeme.spell written ++ trailing)) =
            .ok (ts ++ [Token.ending ((Lexeme.spell written ++ trailing).length + 1)]) ∧
          ts.map Token.lexeme = written.map Prod.snd ∧
          ∀ before gap lexeme after, written = before ++ (gap, lexeme) :: after →
            ts[before.length]? = some ⟨lexeme, (Lexeme.spell before ++ gap).length + 1⟩) ∧
    ∀ (text : String) (ts : List Token), tokenize text = .ok ts →
      ∃ inner position, ts = inner ++ [Token.ending position] ∧
        ∀ t ∈ inner, t.lexeme.WellFormed := by
  constructor
  · intro written trailing wellFormed gaps blank
    refine ⟨Lexeme.place 0 written, ?_, Lexeme.map_lexeme_place written 0, ?_⟩
    · have tokenized := tokenized_spell blank written 0 wellFormed gaps
      rw [tokenize_eq_ok_iff, String.toList_ofList]
      rwa [Nat.zero_add] at tokenized
    · rintro before gap lexeme after rfl
      rw [Lexeme.getElem?_place, Nat.zero_add]
  · intro text ts read
    obtain ⟨inner, hts, wellFormed⟩ := exists_inner_of_tokenize read
    exact ⟨inner, text.length + 1, hts, wellFormed⟩

/-- Numerals that are letters begin a number and may go on a name, and the comma ends neither the
string nor, as the first one, the number. -/
def letterNumerals : List (List Char × Lexeme) :=
  [([], .number "Ⅷ,5"), (['\t'], .identifier "öⅧ"), ([' ', '\u00a0'], .symbol .lessEqual),
    ([' '], .string "a,b")]

/-- The text `Ⅷ,5 öⅧ <= "a,b"`, with a tab for its first blank, is read as it was written. -/
theorem tokenize_letterNumerals :
    (∀ p ∈ letterNumerals, (∀ c ∈ p.1, isBlank c = true) ∧ p.2.WellFormed) ∧
      (∀ p ∈ letterNumerals.tail, p.1 ≠ []) ∧
      ∃ ts : List Token, tokenize "Ⅷ,5\töⅧ \u00a0<= \"a,b\"" = .ok (ts ++ [Token.ending 17]) ∧
        ts.map Token.lexeme =
          [.number "Ⅷ,5", .identifier "öⅧ", .symbol .lessEqual, .string "a,b"] ∧
        ts[2]? = some ⟨.symbol .lessEqual, 9⟩ ∧ ∀ t ∈ ts, t.lexeme.WellFormed := by
  have tab : isBlank '\t' = true := by decide
  have space : isBlank ' ' = true := by decide
  have noBreakSpace : isBlank '\u00a0' = true := by decide
  have blank : ∀ p ∈ letterNumerals, ∀ c ∈ p.1, isBlank c = true := by
    simp [letterNumerals, tab, space, noBreakSpace]
  have gaps : ∀ p ∈ letterNumerals.tail, p.1 ≠ [] := by decide
  have five : isNumeric '5' = true := by decide
  have eight : isNumeric 'Ⅷ' = true := by decide
  have wellFormed : ∀ p ∈ letterNumerals, p.2.WellFormed := by
    simp only [letterNumerals, List.forall_mem_cons]
    refine ⟨⟨'Ⅷ', [',', '5'], rfl, eight, by simp [five], by simp⟩,
      ⟨'ö', ['Ⅷ'], rfl, by decide, by decide, by simp [eight]⟩, trivial, ?_, by simp⟩
    change '"' ∉ "a,b".toList
    decide
  have both : ∀ p ∈ letterNumerals, (∀ c ∈ p.1, isBlank c = true) ∧ p.2.WellFormed :=
    fun p mem => ⟨blank p mem, wellFormed p mem⟩
  obtain ⟨ts, read, lexemes, places⟩ := tokenize_spell.1 letterNumerals [] both gaps (by simp)
  have third := places (letterNumerals.take 2) [' ', '\u00a0'] (.symbol .lessEqual)
    (letterNumerals.drop 3) rfl
  obtain ⟨inner, position, hts, readable⟩ := tokenize_spell.2 _ _ read
  obtain ⟨rfl, -⟩ := List.append_inj' hts rfl
  exact ⟨both, gaps, ts, read, lexemes, third, readable⟩

end SheetFormula
