import Mathlib.Algebra.Ring.Parity
import SheetFormula.Proofs.Lexer.Places

/-!
# Texts one after another

Where a token begins does not change what it is, so a text that comes after others is read as by
itself, its tokens and its error further on (`Lexer.tokens_shift`). This is said of one call first
(`Lexer.next_shift`), and then of all of them by the recursion of the lexer.

The lexer brings nothing with it across blank characters but a string that has no closing quote. A
text that is read ends in such a string exactly if its number of quotes is odd
(`Tokenized.odd_count_quote_iff`): quotes come in pairs in every lexeme that is written in full
(`Lexeme.WellFormed.even_count_quote`), since only strings have any, and there are none in gaps.

After any other text and a gap reading begins anew (`tokenize_append_blanks`). A lexeme that is
complete in the first text stays so with a gap behind it (`Lexeme.Complete.append`), so the tokens
of the first text are found as before, without the end of the input, and then the second text is
what is left (`Tokenized.collect_append`). Its tokens, or its error, are further on by the length
of what comes before, by `Lexer.tokens_shift`.
-/

namespace SheetFormula

open Unicode (isBlank)

/-! ## Reading further on -/

/-- The token `n` characters further on. -/
def Token.shift (n : Nat) (t : Token) : Token :=
  { t with position := n + t.position }

/-- The error `n` characters further on, if it names a place. -/
def Error.shift (n : Nat) : Error → Error
  | .unexpectedChar c position => .unexpectedChar c (n + position)
  | .invalidComparison run position => .invalidComparison run (n + position)
  | .unexpectedToken expected found position => .unexpectedToken expected found (n + position)
  | .unknownVariable name position => .unknownVariable name (n + position)
  | .unknownFunction name position => .unknownFunction name (n + position)
  | .typeMismatch operator expected found position =>
    .typeMismatch operator expected found (n + position)
  | .divisionByZero position => .divisionByZero (n + position)
  | .invalidNumber text position => .invalidNumber text (n + position)
  | .nestingTooDeep limit position => .nestingTooDeep limit (n + position)
  | .function message => .function message
  | .json message => .json message

namespace Lexer

/-- The same text `n` characters further on. -/
def shift (n : Nat) (l : Lexer) : Lexer :=
  { l with offset := n + l.offset }

theorem next_shift (n : Nat) (l : Lexer) : (l.shift n).next =
    ((l.next.1.map (Option.map (Token.shift n))).mapError (Error.shift n),
      l.next.2.shift n) := by
  have here : (l.shift n).skipBlanks = l.skipBlanks.shift n := by
    simp [shift, skipBlanks, skip, Nat.add_assoc]
  unfold next
  rw [here]
  obtain ⟨offset, rest⟩ := l.skipBlanks
  cases rest with
  | nil => rfl
  | cons c rest =>
    simp only [shift]
    cases Scan.ofChars c rest <;>
      simp [Except.map, Except.mapError, Token.shift, Error.shift, skip, Nat.add_assoc]

/-- The tokens of a text have their places further on if the text has. -/
theorem collect_shift (n : Nat) (l : Lexer) (found : List Token) :
    (l.shift n).collect (found.map (Token.shift n)) =
      ((l.collect found).map (List.map (Token.shift n))).mapError (Error.shift n) := by
  fun_induction collect l found with
  | case1 l found t after hnext ih =>
    rw [collect_eq, next_shift, hnext]
    exact ih
  | case2 l found after hnext =>
    rw [collect_eq, next_shift, hnext]
    simp [Except.map, Except.mapError, Token.ending, Token.shift, shift, Nat.add_assoc]
  | case3 l found e after hnext =>
    rw [collect_eq, next_shift, hnext]
    rfl

theorem tokens_shift (n : Nat) (l : Lexer) : (l.shift n).tokens =
    (l.tokens.map (List.map (Token.shift n))).mapError (Error.shift n) :=
  l.collect_shift n []

theorem collect_append (l : Lexer) (found before : List Token) :
    l.collect (found ++ before) = (l.collect found).map (before.reverse ++ ·) := by
  fun_induction collect l found with
  | case1 l found t after hnext ih =>
    rw [collect_eq, hnext]
    exact ih
  | case2 l found after hnext =>
    rw [collect_eq, hnext]
    simp [Except.map]
  | case3 l found e after hnext =>
    rw [collect_eq, hnext]
    rfl

/-- The tokens found before come before those that are collected. -/
theorem collect_eq_map_tokens (l : Lexer) (found : List Token) :
    l.collect found = l.tokens.map (found.reverse ++ ·) :=
  l.collect_append [] found

end Lexer

/-! ## Quotes -/

/-- The quotes of a lexeme that is written in full come in pairs. -/
theorem Lexeme.WellFormed.even_count_quote {lexeme : Lexeme} (wellFormed : lexeme.WellFormed) :
    Even (lexeme.text.toList.count '"') := by
  cases lexeme with
  | endOfInput => exact wellFormed.elim
  | symbol s => cases s <;> decide
  | number text =>
    obtain ⟨c, tail, htext, numeric, within, -⟩ := wellFormed
    have none : '"' ∉ text.toList := by
      rw [htext, List.mem_cons]
      rintro (rfl | mem)
      · exact absurd numeric (by decide)
      · exact absurd (within _ mem) (by decide)
    simp [Lexeme.text, List.count_eq_zero.mpr none]
  | string text =>
    have none : text.toList.count '"' = 0 := List.count_eq_zero.mpr wellFormed
    have two : (Lexeme.string text).text.toList.count '"' = 2 := by simp [Lexeme.text, none]
    rw [two]
    exact even_two
  | identifier name =>
    obtain ⟨c, tail, hname, alphabetic, -, within⟩ := wellFormed
    have none : '"' ∉ name.toList := by
      rw [hname, List.mem_cons]
      rintro (rfl | mem)
      · exact absurd alphabetic (by decide)
      · exact absurd (within _ mem) (by decide)
    simp [Lexeme.text, List.count_eq_zero.mpr none]

theorem count_quote_of_blank {gap : List Char} (blank : ∀ c ∈ gap, isBlank c = true) :
    gap.count '"' = 0 := by
  refine List.count_eq_zero.mpr fun mem => ?_
  exact absurd (blank _ mem) (by decide)

/-- The last token before the end of the input is a string that goes on to the end of the text,
which has `length` characters: no closing quote comes after it. -/
def EndsInString (length : Nat) (ts : List Token) : Prop :=
  ∃ inner text position ending,
    ts = inner ++ [⟨.string text, position⟩, ending] ∧ position + text.length = length

theorem not_endsInString_singleton (length : Nat) (t : Token) : ¬EndsInString length [t] := by
  rintro ⟨inner, text, position, ending, hts, -⟩
  have := congrArg List.length hts
  simp at this

theorem EndsInString.cons {length : Nat} {ts : List Token} (h : EndsInString length ts)
    (t : Token) : EndsInString length (t :: ts) := by
  obtain ⟨inner, text, position, ending, rfl, hlength⟩ := h
  exact ⟨t :: inner, text, position, ending, rfl, hlength⟩

/-- If the first token is not a string up to the end, a later one is. -/
theorem EndsInString.of_cons {length : Nat} {t : Token} {ts : List Token}
    (h : EndsInString length (t :: ts))
    (closed : ∀ text, t.lexeme = .string text → t.position + text.length < length) :
    EndsInString length ts := by
  obtain ⟨inner, text, position, ending, hts, hlength⟩ := h
  cases inner with
  | nil =>
    obtain ⟨rfl, -⟩ := List.cons.inj hts
    have := closed text rfl
    dsimp only at this
    omega
  | cons t' inner =>
    obtain ⟨-, rfl⟩ := List.cons.inj hts
    exact ⟨inner, text, position, ending, rfl, hlength⟩

namespace Tokenized

variable {offset : Nat} {rest : List Char} {ts : List Token}

theorem ne_nil (h : Tokenized offset rest ts) : ts ≠ [] := by
  cases h <;> simp

theorem eq_singleton_of_nil (h : Tokenized offset [] ts) : ts = [Token.ending (offset + 1)] := by
  generalize hrest : ([] : List Char) = rest at h
  cases h with
  | ending blank => simp [← hrest]
  | token blank here others => exact absurd hrest.symm (by simp [here.ne_nil])

/-- A text ends in a string without its closing quote exactly if its number of quotes is odd. -/
theorem odd_count_quote_iff (h : Tokenized offset rest ts) :
    Odd (rest.count '"') ↔ EndsInString (offset + rest.length) ts := by
  induction h with
  | ending blank =>
    rw [count_quote_of_blank blank]
    exact iff_of_false (by decide) (not_endsInString_singleton _ _)
  | @token offset gap written rest lexeme ts blank here others ih =>
    have total : offset + (gap ++ (written ++ rest)).length =
        offset + gap.length + written.length + rest.length := by
      simp only [List.length_append]
      omega
    rw [List.count_append, List.count_append, count_quote_of_blank blank, total]
    rcases here.spelled with rfl | ⟨text, rfl, rfl, rfl⟩
    · have even := Nat.even_iff.mp here.wellFormed.even_count_quote
      have parity : Odd (0 + (lexeme.text.toList.count '"' + rest.count '"')) ↔
          Odd (rest.count '"') := by
        rw [Nat.odd_iff, Nat.odd_iff]
        omega
      rw [parity, ih]
      refine ⟨fun h => h.cons _, fun h => h.of_cons ?_⟩
      rintro text rfl
      have length : (Lexeme.string text).text.toList.length = text.length + 2 := by
        simp [Lexeme.text, String.length_toList]
      dsimp only
      omega
    · have none : text.toList.count '"' = 0 := List.count_eq_zero.mpr here.wellFormed
      obtain rfl := others.eq_singleton_of_nil
      refine iff_of_true (by simp [none]) ⟨[], text, offset + gap.length + 1, _, rfl, ?_⟩
      simp [String.length_toList]
      omega

end Tokenized

/-! ## Reading on after a gap -/

namespace Tokenized

variable {offset : Nat} {rest gap : List Char} {ts : List Token}

/-- After a text whose quotes come in pairs, and a gap, what follows is read as by itself. -/
theorem collect_append (h : Tokenized offset rest ts) (closed : Even (rest.count '"'))
    (blank : ∀ c ∈ gap, isBlank c = true) (nonempty : gap ≠ []) (later : List Char)
    (found : List Token) : (Lexer.mk offset (rest ++ (gap ++ later))).collect found =
      (Lexer.mk (offset + rest.length + gap.length) later).collect
        (ts.dropLast.reverse ++ found) := by
  have separated : Separated (gap ++ later) := by
    obtain ⟨c, gap, rfl⟩ := List.exists_cons_of_ne_nil nonempty
    intro d mem
    obtain rfl : c = d := by simpa using mem
    exact blank c List.mem_cons_self
  induction h generalizing found with
  | ending passed =>
    rw [Lexer.collect_eq, Lexer.next_append_of_blank passed, Lexer.next_append_of_blank blank,
      ← Lexer.collect_eq]
    rfl
  | @token offset before written rest lexeme ts passed here others ih =>
    rw [List.count_append, List.count_append, count_quote_of_blank passed, Nat.zero_add] at closed
    rcases here.spelled with rfl | ⟨text, rfl, rfl, rfl⟩
    · have inner : Even (rest.count '"') :=
        (Nat.even_add.mp closed).mp here.wellFormed.even_count_quote
      have written : lexeme.Written lexeme.text.toList (rest ++ (gap ++ later)) :=
        ⟨here.wellFormed, here.complete.append here.wellFormed separated, .inl rfl⟩
      have next := Lexer.next_of_written passed written offset
      rw [List.append_assoc, List.append_assoc, Lexer.collect_eq, next]
      simp only [ih inner, List.dropLast_cons_of_ne_nil others.ne_nil]
      simp [Nat.add_assoc]
    · -- A string without its closing quote has the only quote of the text.
      have none : text.toList.count '"' = 0 := List.count_eq_zero.mpr here.wellFormed
      simp [none] at closed

end Tokenized

/-- Let a text be read, and let a gap of blank characters and another text come after it. If the
number of quotes of the first text is even, the second one is read as by itself: its tokens come
after those of the first without the end of the input, or its error is the error, and their places
are further on by the length of what comes before. If the number is odd, and only then, the first
text ends in a string without its closing quote. -/
theorem tokenize_append_blanks {first gap : String} {ts : List Token}
    (read : tokenize first = .ok ts) (blank : ∀ c ∈ gap.toList, isBlank c = true)
    (nonempty : gap ≠ "") (second : String) :
    (Even (first.toList.count '"') →
      (∀ us, tokenize second = .ok us → tokenize (first ++ gap ++ second) =
        .ok (ts.dropLast ++ us.map (Token.shift (first ++ gap).length))) ∧
      ∀ e, tokenize second = .error e → tokenize (first ++ gap ++ second) =
        .error (e.shift (first ++ gap).length)) ∧
    (Odd (first.toList.count '"') ↔ EndsInString first.length ts) := by
  have tokenized := tokenize_eq_ok_iff.mp read
  refine ⟨fun closed => ?_, ?_⟩
  · have chars : (first ++ gap ++ second).toList =
        first.toList ++ (gap.toList ++ second.toList) := by simp
    have place : Lexer.mk (0 + first.toList.length + gap.toList.length) second.toList =
        (Lexer.ofString second).shift (first ++ gap).length := by
      simp [Lexer.ofString, Lexer.shift, String.length_toList, String.length_append]
    have onward : tokenize (first ++ gap ++ second) =
        ((Lexer.ofString second).shift (first ++ gap).length).tokens.map (ts.dropLast ++ ·) := by
      have nonempty : gap.toList ≠ [] := by simpa using nonempty
      rw [tokenize, Lexer.ofString, chars, Lexer.tokens,
        tokenized.collect_append closed blank nonempty, place, Lexer.collect_eq_map_tokens]
      simp
    rw [onward, Lexer.tokens_shift]
    refine ⟨fun us h => ?_, fun e h => ?_⟩ <;> unfold tokenize at h <;> rw [h] <;> rfl
  · simpa [String.length_toList] using tokenized.odd_count_quote_iff

/-- After `"ö"<` and an em space the sign `=` is no longer of one comparison with the sign before the
gap, and the error of `=<>` is the seventh character. The text `1+"ö` ends in a string. -/
theorem tokenize_stringLess_append :
    tokenize "\"ö\"<" = .ok [⟨.string "ö", 1⟩, ⟨.symbol .less, 4⟩, Token.ending 5] ∧
      (∀ c ∈ "\u2003".toList, isBlank c = true) ∧ "\u2003" ≠ "" ∧
      Even ("\"ö\"<".toList.count '"') ∧
      tokenize "\"ö\"<\u2003=1" = .ok [⟨.string "ö", 1⟩, ⟨.symbol .less, 4⟩, ⟨.symbol .equal, 6⟩,
        ⟨.number "1", 7⟩, Token.ending 8] ∧
      tokenize "\"ö\"<\u2003=<>" = .error (.invalidComparison "<>" 7) ∧
      tokenize "1+\"ö" =
        .ok [⟨.number "1", 1⟩, ⟨.symbol .plus, 2⟩, ⟨.string "ö", 3⟩, Token.ending 5] ∧
      EndsInString 4 [⟨.number "1", 1⟩, ⟨.symbol .plus, 2⟩, ⟨.string "ö", 3⟩, Token.ending 5] := by
  have read : tokenize "\"ö\"<" = .ok [⟨.string "ö", 1⟩, ⟨.symbol .less, 4⟩, Token.ending 5] := by
    cbv
  have openRead : tokenize "1+\"ö" =
      .ok [⟨.number "1", 1⟩, ⟨.symbol .plus, 2⟩, ⟨.string "ö", 3⟩, Token.ending 5] := by cbv
  have emSpace : isBlank '\u2003' = true := by decide
  have blank : ∀ c ∈ "\u2003".toList, isBlank c = true := by simp [emSpace]
  have nonempty : "\u2003" ≠ "" := by decide
  have closed : Even ("\"ö\"<".toList.count '"') := by decide
  have onward := (tokenize_append_blanks read blank nonempty "=1").1 closed
  have failing := (tokenize_append_blanks read blank nonempty "=<>").1 closed
  have ended := (tokenize_append_blanks openRead blank nonempty "").2
  refine ⟨read, blank, nonempty, closed, ?_, ?_, openRead, ended.mp (by decide)⟩
  · exact onward.1 [⟨.symbol .equal, 1⟩, ⟨.number "1", 2⟩, Token.ending 3] (by cbv)
  · exact failing.2 (.invalidComparison "<>" 2) (by cbv)

end SheetFormula
