import SheetFormula.Proofs.Lexer.Places

/-!
# The first place that cannot be read

A text that is not read stops the lexer at a character that begins no lexeme, or at a run of
comparison signs that is no comparison. What stands before that place is read by itself, and what
comes after the place is of no account: all texts that go on in another way fail with the same
error (`tokenize_error_prefix`).

Both follow from how little of a text a lexeme depends on. It is complete or not by one character
after it (`Lexeme.Written.of_head`), and it is complete where the text is cut off
(`Lexeme.Written.of_append`). So the text before the place is made up of lexemes whatever comes
after the next character, which is what `TokenizedBefore` says. It can be read up to its end
(`TokenizedBefore.tokenized`), and in any longer text the lexer comes to that character with the
same tokens (`TokenizedBefore.collect`).

Where the lexer stops is found by its recursion (`Lexer.exists_stop`). Which characters stop it is
said without the lexer: one that is no letter, no numeric character, no quote and of no symbol
(`Scan.ofChars_eq_unexpected_iff`), or a run that begins with one of two signs and is not among the
four comparisons (`Scan.ofChars_eq_badComparison_iff`).
-/

namespace SheetFormula

open Unicode (isAlphabetic isBlank isNumeric)

/-! ## One character after a lexeme -/

theorem EndsRun.of_append {p : Char → Bool} {rest later : List Char}
    (h : EndsRun p (rest ++ later)) : EndsRun p rest := by
  intro c mem
  refine h c ?_
  rw [List.head?_append, Option.mem_def.mp mem]
  rfl

theorem EndsRun.of_head {p : Char → Bool} {rest rest' : List Char} (h : EndsRun p rest)
    (same : rest'.head? = rest.head?) : EndsRun p rest' := by
  intro c mem
  exact h c (same ▸ mem)

namespace Lexeme

variable {lexeme : Lexeme} {written rest later : List Char}

/-- A lexeme that is complete within a text is complete where the text is cut off. -/
theorem Complete.of_append (complete : lexeme.Complete (rest ++ later)) : lexeme.Complete rest := by
  cases lexeme with
  | endOfInput => exact (List.append_eq_nil_iff.mp complete).1
  | symbol s => exact fun mem => (complete mem).of_append
  | number text => exact complete.imp EndsRun.of_append (Or.imp_right EndsRun.of_append)
  | string text => trivial
  | identifier name => exact EndsRun.of_append complete

/-- A lexeme that is written before a character is written before it whatever comes later. -/
theorem Written.of_head {stop : Char} (h : lexeme.Written written (rest ++ stop :: later))
    (after : List Char) : lexeme.Written written (rest ++ stop :: after) := by
  have same : (rest ++ stop :: after).head? = (rest ++ stop :: later).head? := by
    cases rest <;> rfl
  have wellFormed := h.wellFormed
  have complete := h.complete
  refine ⟨wellFormed, ?_, h.spelled.imp_right ?_⟩
  · cases lexeme with
    | endOfInput => exact wellFormed.elim
    | symbol s => exact fun mem => (complete mem).of_head same
    | number text =>
      exact complete.imp (EndsRun.of_head · same) (Or.imp_right (EndsRun.of_head · same))
    | string text => trivial
    | identifier name => exact EndsRun.of_head complete same
  · rintro ⟨text, -, -, nothing⟩
    simp at nothing

/-- A lexeme before which a text is cut off is written there in full. -/
theorem Written.of_append (h : lexeme.Written written (rest ++ later)) (nonempty : later ≠ []) :
    lexeme.Written written rest := by
  refine ⟨h.wellFormed, h.complete.of_append, h.spelled.imp_right ?_⟩
  rintro ⟨text, -, -, nothing⟩
  exact absurd (List.append_eq_nil_iff.mp nothing).2 nonempty

end Lexeme

/-! ## Characters that stop the lexer -/

theorem Symbol.ofChar?_eq_none_iff {c : Char} :
    Symbol.ofChar? c = none ↔ c ∉ ['(', ')', '+', '-', '*', '/', '^', ';', '='] := by
  constructor
  · intro none mem
    simp only [List.mem_cons, List.not_mem_nil, or_false] at mem
    rcases mem with rfl | rfl | rfl | rfl | rfl | rfl | rfl | rfl | rfl <;> cases none
  · intro other
    unfold ofChar?
    split <;> first | rfl | simp at other

namespace Scan

variable {c : Char} {rest run : List Char}

/-- The characters that belong to symbols, and the quote. -/
def signs : List Char :=
  ['(', ')', '+', '-', '*', '/', '^', ';', '=', '<', '>', '"']

theorem notMem_signs_iff : c ∉ signs ↔
    Symbol.ofChar? c = none ∧ ¬(c = '<' ∨ c = '>') ∧ c ≠ '"' := by
  rw [Symbol.ofChar?_eq_none_iff]
  simp [signs, and_assoc]

theorem comparison_ne_unexpected : comparison c rest ≠ .unexpected := by
  unfold comparison
  dsimp only
  split <;> simp

/-- No lexeme begins with a character that is no letter, no numeric character, no quote and of no
symbol. What comes after it does not matter. -/
theorem ofChars_eq_unexpected_iff : ofChars c rest = .unexpected ↔
    c ∉ signs ∧ isNumeric c = false ∧ isAlphabetic c = false := by
  rw [notMem_signs_iff]
  constructor
  · intro h
    unfold ofChars at h
    split at h
    · cases h
    · next notSymbol =>
      split at h
      · exact absurd h comparison_ne_unexpected
      · next notSign =>
        split at h
        · cases h
        · next notQuote =>
          split at h
          · cases h
          · next notNumeric =>
            split at h
            · cases h
            · next notAlphabetic =>
              exact ⟨⟨notSymbol, notSign, notQuote⟩, Bool.eq_false_iff.mpr notNumeric,
                Bool.eq_false_iff.mpr notAlphabetic⟩
  · rintro ⟨⟨notSymbol, notSign, notQuote⟩, notNumeric, notAlphabetic⟩
    simp [ofChars, notSymbol, notSign, notQuote, notNumeric, notAlphabetic]

/-- A run of comparison signs that begins with `<` or `>` stops the lexer if it is no comparison. -/
theorem ofChars_eq_badComparison_iff : ofChars c rest = .badComparison run ↔
    (c = '<' ∨ c = '>') ∧ run = c :: rest.takeWhile isComparisonSign ∧
      Symbol.ofComparison? run = none := by
  constructor
  · intro h
    unfold ofChars at h
    split at h
    · cases h
    · split at h
      · next sign =>
        unfold comparison at h
        dsimp only at h
        split at h
        · cases h
        · next unknown =>
          cases h
          exact ⟨sign, rfl, unknown⟩
      · split at h
        · cases h
        · split at h
          · cases h
          · split at h <;> cases h
  · rintro ⟨sign, rfl, unknown⟩
    have noSymbol : Symbol.ofChar? c = none := by rcases sign with rfl | rfl <;> rfl
    simp [ofChars, noSymbol, sign, comparison, unknown]

/-- The lexer stops with an error at the character `c`, which is at `position` and comes before
`rest`. -/
inductive StopsWith (c : Char) (rest : List Char) (position : Nat) : Error → Prop where
  | unexpected (h : ofChars c rest = .unexpected) :
    StopsWith c rest position (.unexpectedChar c position)
  | badComparison {run : List Char} (h : ofChars c rest = .badComparison run) :
    StopsWith c rest position (.invalidComparison (String.ofList run) position)

end Scan

/-! ## The text before an error -/

/-- The text from `offset` on is made up of the lexemes of the tokens and blank characters, whatever
comes after the character `stop`, which is the next one. -/
inductive TokenizedBefore (stop : Char) : Nat → List Char → List Token → Prop where
  | gap {offset : Nat} {gap : List Char} (blank : ∀ c ∈ gap, isBlank c = true) :
    TokenizedBefore stop offset gap []
  | token {offset : Nat} {gap written rest : List Char} {lexeme : Lexeme} {ts : List Token}
      (blank : ∀ c ∈ gap, isBlank c = true)
      (here : ∀ after, lexeme.Written written (rest ++ stop :: after))
      (others : TokenizedBefore stop (offset + gap.length + written.length) rest ts) :
    TokenizedBefore stop offset (gap ++ (written ++ rest))
      (⟨lexeme, offset + gap.length + 1⟩ :: ts)

namespace TokenizedBefore

variable {stop : Char} {offset : Nat} {before : List Char} {ts : List Token}

/-- What stands before the character is read by itself. -/
theorem tokenized (h : TokenizedBefore stop offset before ts) :
    Tokenized offset before (ts ++ [Token.ending (offset + before.length + 1)]) := by
  induction h with
  | gap blank => exact .ending blank
  | @token offset gap written rest lexeme ts blank here others ih =>
    have whole := Tokenized.token blank ((here []).of_append (List.cons_ne_nil stop [])) ih
    simpa [Nat.add_assoc] using whole

/-- The lexer comes to the character with the tokens before it. -/
theorem collect (h : TokenizedBefore stop offset before ts) (after : List Char)
    (found : List Token) : (Lexer.mk offset (before ++ stop :: after)).collect found =
      (Lexer.mk (offset + before.length) (stop :: after)).collect (ts.reverse ++ found) := by
  induction h generalizing found with
  | gap blank =>
    rw [Lexer.collect_eq, Lexer.next_append_of_blank blank, ← Lexer.collect_eq]
    rfl
  | @token offset gap written rest lexeme ts blank here others ih =>
    have next := Lexer.next_of_written blank (here after) offset
    rw [List.append_assoc, List.append_assoc, Lexer.collect_eq, next]
    dsimp only
    rw [ih]
    simp [Nat.add_assoc]

end TokenizedBefore

namespace Lexer

variable {l after : Lexer} {c : Char} {rest : List Char} {e : Error}

theorem rest_skipBlanks (l : Lexer) : l.skipBlanks.rest = l.rest.dropWhile isBlank := by
  calc l.rest.drop (l.rest.takeWhile isBlank).length
      = (l.rest.takeWhile isBlank ++ l.rest.dropWhile isBlank).drop
          (l.rest.takeWhile isBlank).length := by rw [List.takeWhile_append_dropWhile]
    _ = l.rest.dropWhile isBlank := List.drop_left

/-- A character that is not blank and at which the lexer stops is where it fails. -/
theorem next_of_stopsWith {offset : Nat} (notBlank : isBlank c = false)
    (h : Scan.StopsWith c rest (offset + 1) e) :
    (Lexer.mk offset (c :: rest)).next.1 = .error e := by
  have here : (Lexer.mk offset (c :: rest)).skipBlanks = ⟨offset, c :: rest⟩ := by
    simp [skipBlanks, skip, notBlank]
  unfold next
  rw [here]
  cases h with
  | unexpected scanned | badComparison scanned => simp only [scanned]

/-- A lexer that fails stops at a character after blank ones. -/
theorem stopsWith_of_next (h : l.next = (.error e, after)) : ∃ gap c rest,
    (∀ d ∈ gap, isBlank d = true) ∧ l.rest = gap ++ c :: rest ∧ isBlank c = false ∧
      Scan.StopsWith c rest (l.offset + gap.length + 1) e := by
  obtain ⟨gap, blank, hrest, hoffset⟩ := l.exists_gap
  have notBlank : EndsRun isBlank l.skipBlanks.rest :=
    l.rest_skipBlanks ▸ endsRun_dropWhile isBlank l.rest
  unfold next at h
  dsimp only at h
  split at h
  · cases h
  · next c rest here =>
    rw [here] at hrest notBlank
    refine ⟨gap, c, rest, blank, hrest, notBlank c rfl, hoffset ▸ ?_⟩
    split at h
    · cases h
    · next run scanned =>
      cases h
      exact .badComparison scanned
    · next scanned =>
      cases h
      exact .unexpected scanned

/-- A text that the lexer fails to read is read up to the character at which it stops. -/
theorem exists_stop {found : List Token} (h : l.collect found = .error e) :
    ∃ before c rest ts, l.rest = before ++ c :: rest ∧ TokenizedBefore c l.offset before ts ∧
      isBlank c = false ∧ Scan.StopsWith c rest (l.offset + before.length + 1) e := by
  fun_induction collect l found with
  | case1 l found t after hnext ih =>
    obtain ⟨before, c, rest, ts, hafter, tokenized, notBlank, stops⟩ := ih h
    obtain ⟨gap, written, blank, hrest, here, hposition, hoffset⟩ := written_of_next hnext
    obtain ⟨lexeme, position⟩ := t
    obtain rfl : position = _ := hposition
    rw [hafter] at hrest here
    rw [hoffset] at tokenized stops
    refine ⟨gap ++ (written ++ before), c, rest, _, by simp [hrest],
      .token blank here.of_head tokenized, notBlank, ?_⟩
    simpa [Nat.add_assoc] using stops
  | case2 l found after hnext => cases h
  | case3 l found e' after hnext =>
    cases h
    obtain ⟨gap, c, rest, blank, hrest, notBlank, stops⟩ := stopsWith_of_next hnext
    exact ⟨gap, c, rest, [], hrest, .gap blank, notBlank, stops⟩

end Lexer

/-- A text that goes on with a character at which the lexer stops fails there. -/
theorem TokenizedBefore.tokenize_eq_error {before rest : List Char} {c : Char} {ts : List Token}
    {e : Error} (h : TokenizedBefore c 0 before ts) (notBlank : isBlank c = false)
    (stops : Scan.StopsWith c rest (before.length + 1) e) {text : String}
    (htext : text.toList = before ++ c :: rest) : tokenize text = .error e := by
  rw [← Nat.zero_add before.length] at stops
  have failed := Lexer.next_of_stopsWith notBlank stops
  rw [tokenize, Lexer.ofString, Lexer.tokens, htext, h.collect, Lexer.collect_eq]
  generalize Lexer.next _ = step at failed ⊢
  obtain ⟨outcome, after⟩ := step
  obtain rfl : outcome = .error e := failed
  rfl

/-! ## Texts that are not read -/

/-- A run of comparison signs that is none of the comparisons. -/
structure BadComparison (run : List Char) : Prop where
  begins : run.head? = some '<' ∨ run.head? = some '>'
  signs : ∀ c ∈ run, isComparisonSign c = true
  unknown : run ∉ [['<'], ['>'], ['<', '='], ['>', '=']]

theorem Scan.badComparison_of_ofChars {c : Char} {rest run : List Char}
    (h : ofChars c rest = .badComparison run) : BadComparison run := by
  obtain ⟨sign, rfl, unknown⟩ := ofChars_eq_badComparison_iff.mp h
  refine ⟨by simpa using sign, ?_, fun mem => ?_⟩
  · intro d mem
    rcases List.mem_cons.mp mem with rfl | mem
    · exact (run_of_badComparison h).1
    · exact List.mem_takeWhile_imp mem
  · simp only [List.mem_cons, List.not_mem_nil, or_false] at mem
    rcases mem with known | known | known | known <;> simp [known, Symbol.ofComparison?] at unknown

/-- A text that is not read has a first place where reading stops, and what stands before it is read
by itself. Either a character stands there that is not blank and that no lexeme begins with, and
then every text with the same characters up to this one fails with the same error. Or it is a run of
comparison signs that is no comparison, as long as it goes, and then every text in which the same
run ends there fails with the same error, after the same characters. -/
theorem tokenize_error_prefix {text : String} {e : Error} (h : tokenize text = .error e) :
    ∃ before after : List Char, (∃ ts, tokenize (String.ofList before) = .ok ts) ∧
      ((∃ c, e = .unexpectedChar c (before.length + 1) ∧ text.toList = before ++ c :: after ∧
          isBlank c = false ∧ isNumeric c = false ∧ isAlphabetic c = false ∧ c ∉ Scan.signs ∧
          ∀ other : String, before ++ [c] <+: other.toList → tokenize other = .error e) ∨
        ∃ run, e = .invalidComparison (String.ofList run) (before.length + 1) ∧
          text.toList = before ++ (run ++ after) ∧ EndsRun isComparisonSign after ∧
          BadComparison run ∧ ∀ (other : String) (rest : List Char),
            other.toList = before ++ (run ++ rest) → EndsRun isComparisonSign rest →
              tokenize other = .error e) := by
  obtain ⟨before, c, rest, ts, htext, tokenized, notBlank, stops⟩ := Lexer.exists_stop h
  have htext : text.toList = before ++ c :: rest := htext
  have tokenized : TokenizedBefore c 0 before ts := tokenized
  have alone : ∃ ts, tokenize (String.ofList before) = .ok ts :=
    ⟨_, tokenize_eq_ok_iff.mpr (by rw [String.toList_ofList]; exact tokenized.tokenized)⟩
  simp only [Lexer.ofString, Nat.zero_add] at stops
  cases stops with
  | unexpected scanned =>
    obtain ⟨noSign, notNumeric, notAlphabetic⟩ := Scan.ofChars_eq_unexpected_iff.mp scanned
    refine ⟨before, rest, alone, .inl ⟨c, rfl, htext, notBlank, notNumeric, notAlphabetic, noSign,
      ?_⟩⟩
    rintro other ⟨more, hother⟩
    have scanned' : Scan.ofChars c more = .unexpected :=
      Scan.ofChars_eq_unexpected_iff.mpr ⟨noSign, notNumeric, notAlphabetic⟩
    exact tokenized.tokenize_eq_error notBlank (.unexpected scanned') (by simp [← hother])
  | @badComparison run scanned =>
    obtain ⟨sign, hrun, unknown⟩ := Scan.ofChars_eq_badComparison_iff.mp scanned
    obtain ⟨-, after, hchars, -, ends⟩ := Scan.run_of_badComparison scanned
    refine ⟨before, after, alone, .inr ⟨run, rfl, hchars ▸ htext, ends,
      Scan.badComparison_of_ofChars scanned, ?_⟩⟩
    intro other later hother ends'
    have within : ∀ d ∈ rest.takeWhile isComparisonSign, isComparisonSign d = true :=
      fun d mem => List.mem_takeWhile_imp mem
    have scanned' : Scan.ofChars c (rest.takeWhile isComparisonSign ++ later) =
        .badComparison run := by
      refine Scan.ofChars_eq_badComparison_iff.mpr ⟨sign, ?_, unknown⟩
      rw [ends'.takeWhile_append within, hrun]
    refine tokenized.tokenize_eq_error notBlank (.badComparison scanned') ?_
    rw [hother, hrun, List.cons_append]

/-- In `ö=<=>#` the sign `=` is read by itself and the run after it is no comparison. So fails every
text that goes on after the run with anything but a further sign. -/
theorem tokenize_error_prefix_badRun :
    tokenize "ö=<=>#" = .error (.invalidComparison "<=>" 3) ∧
      (∃ ts, tokenize "ö=" = .ok ts) ∧
      ∀ later : String, EndsRun isComparisonSign later.toList →
        tokenize ("ö=<=>" ++ later) = .error (.invalidComparison "<=>" 3) := by
  have failed : tokenize "ö=<=>#" = .error (.invalidComparison "<=>" 3) := by cbv
  obtain ⟨before, after, alone, ⟨c, other, -⟩ | ⟨run, same, htext, -, -, alike⟩⟩ :=
    tokenize_error_prefix failed
  · cases other
  · obtain ⟨hrun, hlength⟩ := Error.invalidComparison.inj same
    obtain rfl : run = ['<', '=', '>'] := by
      rw [← String.toList_ofList (l := run), ← hrun]
      rfl
    have two : before.length = 2 := by omega
    obtain rfl : before = ['ö', '='] := by
      have cut := congrArg (List.take 2) htext
      rwa [← two, List.take_left, two, eq_comm] at cut
    refine ⟨failed, alone, fun later ends => alike _ later.toList ?_ ends⟩
    rw [String.toList_append]
    rfl

end SheetFormula
