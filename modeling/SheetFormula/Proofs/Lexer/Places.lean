import Mathlib.Data.List.TakeWhile
import SheetFormula.Proofs.Lexer.Spelling

/-!
# Where tokens stand

The texts that the lexer reads are those that are made up of blank characters and of lexemes
written in full, each at the place that its token names (`tokenize_eq_ok_iff`). That such a text is
read is `Lexer.tokens_of_tokenized`. Here it is shown that no other is: each kind of lexeme is read
from a text that begins with it and goes on with something that does not belong to it
(`Scan.begins_of_ofChars`), so a token is read from a gap and its lexeme (`Lexer.written_of_next`),
and all tokens together from such a text (`Lexer.tokenized_of_collect`).

So every token stands in the text where it says (`standsIn_of_tokenize`), the end of the input
comes last and behind all characters, and all other tokens can be written
(`exists_inner_of_tokenize`). What is said of a text in what follows is mostly said of `Tokenized`,
by induction over it.

A text that is not read has a character, or a run of comparison signs, that begins no lexeme, and
the error names it with its place (`namesCharacters_of_tokenize`).
-/

namespace SheetFormula

open Unicode (isAlphabetic isBlank isNumeric)

/-! ## What one lexeme is read from -/

namespace Scan

variable {c : Char} {rest : List Char} {lexeme : Lexeme} {length : Nat}

/-- A lexeme of `length` characters is what a text begins with. -/
def Begins (chars : List Char) (lexeme : Lexeme) (length : Nat) : Prop :=
  ∃ written after, chars = written ++ after ∧ written.length = length ∧
    lexeme.Written written after

theorem begins_symbol {s : Symbol} (h : Symbol.ofChar? c = some s) (rest : List Char) :
    Begins (c :: rest) (.symbol s) 1 := by
  refine ⟨[c], rest, rfl, rfl, trivial, ?_, ?_⟩
  · unfold Symbol.ofChar? at h
    split at h <;> cases h <;> intro mem <;> simp at mem
  · unfold Symbol.ofChar? at h
    split at h <;> cases h <;> exact .inl rfl

theorem text_of_ofComparison? {run : List Char} {s : Symbol}
    (h : Symbol.ofComparison? run = some s) : run = s.text.toList := by
  unfold Symbol.ofComparison? at h
  split at h <;> cases h <;> rfl

theorem begins_comparison (h : comparison c rest = .lexeme lexeme length) :
    Begins (c :: rest) lexeme length := by
  unfold comparison at h
  dsimp only at h
  split at h
  · next s known =>
    cases h
    refine ⟨c :: rest.takeWhile isComparisonSign, rest.dropWhile isComparisonSign, ?_, rfl,
      trivial, ?_, ?_⟩
    · rw [List.cons_append, List.takeWhile_append_dropWhile]
    · exact fun _ => endsRun_dropWhile isComparisonSign rest
    · exact .inl (text_of_ofComparison? known)
  · cases h

/-- A run of signs that is no comparison goes as far as it can. -/
theorem run_of_badComparison {run : List Char} (h : ofChars c rest = .badComparison run) :
    isComparisonSign c = true ∧ ∃ after, c :: rest = run ++ after ∧
      run = c :: rest.takeWhile isComparisonSign ∧ EndsRun isComparisonSign after := by
  unfold ofChars at h
  split at h
  · cases h
  · split at h
    · next sign =>
      refine ⟨by rcases sign with rfl | rfl <;> rfl, rest.dropWhile isComparisonSign, ?_⟩
      unfold comparison at h
      dsimp only at h
      split at h <;> cases h
      refine ⟨?_, rfl, endsRun_dropWhile isComparisonSign rest⟩
      rw [List.cons_append, List.takeWhile_append_dropWhile]
    · split at h
      · cases h
      · split at h
        · cases h
        · split at h <;> cases h

/-- A string takes its closing quote with it, if it has one. -/
theorem begins_string (h : string rest = .lexeme lexeme length) :
    Begins ('"' :: rest) lexeme length := by
  cases h
  have parts := List.takeWhile_append_dropWhile (p := (· != '"')) (l := rest)
  have noQuote : '"' ∉ rest.takeWhile (· != '"') := by
    intro mem
    simpa using List.mem_takeWhile_imp mem
  generalize rest.takeWhile (· != '"') = text at parts noQuote ⊢
  have wellFormed : (Lexeme.string (String.ofList text)).WellFormed := by
    simpa [Lexeme.WellFormed] using noQuote
  cases hafter : rest.dropWhile (· != '"') with
  | nil =>
    obtain rfl : text = rest := by simpa [hafter] using parts
    refine ⟨'"' :: text, [], by simp, by simp, wellFormed, trivial, ?_⟩
    exact .inr ⟨String.ofList text, rfl, by simp, rfl⟩
  | cons d after =>
    have quote : d = '"' := by
      have first := endsRun_dropWhile (· != '"') rest
      simpa [hafter] using first d (by simp [hafter])
    subst quote
    rw [hafter] at parts
    refine ⟨'"' :: (text ++ ['"']), after, by simp [parts], ?_, wellFormed, trivial, ?_⟩
    · simp [← parts]
    · exact .inl (by simp [Lexeme.text])

/-- What is read as a fraction is a comma with numeric characters, or nothing where no comma
comes. -/
theorem fraction_append (h : EndsRun isNumeric rest) : ∃ after, rest = fraction rest ++ after ∧
    EndsRun isNumeric after ∧ (',' ∈ fraction rest ∨ EndsRun (· == ',') after) ∧
      (∀ d ∈ fraction rest, isNumeric d = true ∨ d = ',') ∧ (fraction rest).count ',' ≤ 1 := by
  unfold fraction
  split
  · next decimals =>
    have noComma : ',' ∉ decimals.takeWhile isNumeric := by
      intro mem
      exact absurd (List.mem_takeWhile_imp mem) (by decide)
    refine ⟨decimals.dropWhile isNumeric, ?_, endsRun_dropWhile isNumeric decimals,
      .inl List.mem_cons_self, ?_, ?_⟩
    · rw [List.cons_append, List.takeWhile_append_dropWhile]
    · intro d mem
      rcases List.mem_cons.mp mem with rfl | mem
      · exact .inr rfl
      · exact .inl (List.mem_takeWhile_imp mem)
    · rw [List.count_cons_self, List.count_eq_zero.mpr noComma]
  · next other =>
    refine ⟨rest, rfl, h, .inr ?_, by simp, by simp⟩
    intro d mem
    cases rest with
    | nil => cases mem
    | cons c rest =>
      cases mem
      refine beq_eq_false_iff_ne.mpr ?_
      rintro rfl
      exact other rest rfl

/-- A number takes all numeric characters, and the comma after them with those that follow it. -/
theorem begins_number (numeric : isNumeric c = true) (h : number c rest = .lexeme lexeme length) :
    Begins (c :: rest) lexeme length := by
  cases h
  obtain ⟨after, hfraction, ends, comma, within, commas⟩ :=
    fraction_append (endsRun_dropWhile isNumeric rest)
  have parts := List.takeWhile_append_dropWhile (p := isNumeric) (l := rest)
  generalize fraction (rest.dropWhile isNumeric) = decimals at *
  have noComma : ',' ∉ rest.takeWhile isNumeric := by
    intro mem
    exact absurd (List.mem_takeWhile_imp mem) (by decide)
  refine ⟨c :: (rest.takeWhile isNumeric ++ decimals), after, ?_, by simp, ?_, ?_, ?_⟩
  · rw [List.cons_append, List.append_assoc, ← hfraction, parts]
  · refine ⟨c, rest.takeWhile isNumeric ++ decimals, by simp, numeric, ?_, ?_⟩
    · intro d mem
      rcases List.mem_append.mp mem with mem | mem
      · exact .inl (List.mem_takeWhile_imp mem)
      · exact within d mem
    · rw [List.count_append, List.count_eq_zero.mpr noComma, Nat.zero_add]
      exact commas
  · refine ⟨ends, comma.imp_left fun mem => ?_⟩
    simpa using .inr (.inr mem)
  · exact .inl (by simp [Lexeme.text])

theorem begins_identifier (alphabetic : isAlphabetic c = true) (notNumeric : isNumeric c = false)
    (h : identifier c rest = .lexeme lexeme length) : Begins (c :: rest) lexeme length := by
  cases h
  refine ⟨c :: rest.takeWhile fun d => isAlphabetic d || isNumeric d,
    rest.dropWhile fun d => isAlphabetic d || isNumeric d, ?_, rfl, ?_, ?_, ?_⟩
  · rw [List.cons_append, List.takeWhile_append_dropWhile]
  · refine ⟨c, rest.takeWhile fun d => isAlphabetic d || isNumeric d, by simp, alphabetic,
      notNumeric, fun d mem => ?_⟩
    simpa using List.mem_takeWhile_imp mem
  · exact endsRun_dropWhile _ rest
  · exact .inl (by simp [Lexeme.text])

/-- A lexeme is read from a text that begins with it. -/
theorem begins_of_ofChars (h : ofChars c rest = .lexeme lexeme length) :
    Begins (c :: rest) lexeme length := by
  unfold ofChars at h
  split at h
  · next s known =>
    cases h
    exact begins_symbol known rest
  · split at h
    · exact begins_comparison h
    · split at h
      · next quote =>
        subst quote
        exact begins_string h
      · split at h
        · next numeric => exact begins_number numeric h
        · next notNumeric =>
          split at h
          · next alphabetic =>
            exact begins_identifier alphabetic (Bool.eq_false_iff.mpr notNumeric) h
          · cases h

end Scan

/-! ## All tokens of a text -/

namespace Lexer

variable {l after : Lexer}

/-- The blank characters before the next lexeme are passed over. -/
theorem exists_gap (l : Lexer) : ∃ gap, (∀ c ∈ gap, isBlank c = true) ∧
    l.rest = gap ++ l.skipBlanks.rest ∧ l.skipBlanks.offset = l.offset + gap.length := by
  refine ⟨l.rest.takeWhile isBlank, fun c mem => List.mem_takeWhile_imp mem, ?_, rfl⟩
  exact (List.prefix_iff_eq_append.mp (List.takeWhile_prefix isBlank)).symm

/-- The next token is read from blank characters and its lexeme. -/
theorem written_of_next {t : Token} (h : l.next = (.ok (some t), after)) :
    ∃ gap written, (∀ c ∈ gap, isBlank c = true) ∧ l.rest = gap ++ (written ++ after.rest) ∧
      t.lexeme.Written written after.rest ∧ t.position = l.offset + gap.length + 1 ∧
      after.offset = l.offset + gap.length + written.length := by
  obtain ⟨gap, blank, hrest, hoffset⟩ := l.exists_gap
  unfold next at h
  dsimp only at h
  split at h
  · cases h
  · next c rest here =>
    split at h
    · next lexeme length scanned =>
      obtain ⟨written, others, hchars, rfl, hwritten⟩ := Scan.begins_of_ofChars scanned
      cases h
      have left : (l.skipBlanks.skip written.length).rest = others := by
        rw [skip, here, hchars]
        simp
      rw [left]
      refine ⟨gap, written, blank, ?_, hwritten, ?_, ?_⟩
      · rw [hrest, here, hchars]
      · simp only [hoffset]
      · simp only [skip, hoffset]
    · cases h
    · cases h

/-- At the end only blank characters are left. -/
theorem blank_of_next (h : l.next = (.ok none, after)) :
    (∀ c ∈ l.rest, isBlank c = true) ∧ after.offset = l.offset + l.rest.length := by
  obtain ⟨gap, blank, hrest, hoffset⟩ := l.exists_gap
  unfold next at h
  dsimp only at h
  split at h
  · next here =>
    cases h
    rw [hrest, here, List.append_nil]
    exact ⟨blank, hoffset⟩
  · split at h <;> cases h

/-- The tokens that are collected are those in which the text is written. -/
theorem tokenized_of_collect {found ts : List Token} (h : l.collect found = .ok ts) :
    ∃ us, ts = found.reverse ++ us ∧ Tokenized l.offset l.rest us := by
  fun_induction collect l found with
  | case1 l found t after hnext ih =>
    obtain ⟨us, rfl, others⟩ := ih h
    obtain ⟨gap, written, blank, hrest, here, hposition, hoffset⟩ := written_of_next hnext
    obtain ⟨lexeme, position⟩ := t
    obtain rfl : position = _ := hposition
    refine ⟨⟨lexeme, l.offset + gap.length + 1⟩ :: us, by simp, ?_⟩
    rw [hrest]
    exact .token blank here (hoffset ▸ others)
  | case2 l found after hnext =>
    obtain ⟨blank, hoffset⟩ := blank_of_next hnext
    cases h
    refine ⟨[Token.ending (after.offset + 1)], by simp, ?_⟩
    rw [hoffset]
    exact .ending blank
  | case3 l found e after hnext => cases h

end Lexer

/-- A text is read as the tokens that it is made up of, and as no others. -/
theorem tokenize_eq_ok_iff {text : String} {ts : List Token} :
    tokenize text = .ok ts ↔ Tokenized 0 text.toList ts := by
  constructor
  · intro h
    obtain ⟨us, rfl, tokenized⟩ := Lexer.tokenized_of_collect h
    exact tokenized
  · exact Lexer.tokens_of_tokenized

/-- The end of the input comes last, and all other tokens can be written. -/
theorem Tokenized.exists_inner {offset : Nat} {rest : List Char} {ts : List Token}
    (h : Tokenized offset rest ts) : ∃ inner,
      ts = inner ++ [Token.ending (offset + rest.length + 1)] ∧
        ∀ t ∈ inner, t.lexeme.WellFormed := by
  induction h with
  | ending blank => exact ⟨[], rfl, by simp⟩
  | @token offset gap written rest lexeme ts blank here others ih =>
    obtain ⟨inner, rfl, hinner⟩ := ih
    refine ⟨⟨lexeme, offset + gap.length + 1⟩ :: inner, ?_, ?_⟩
    · simp [Nat.add_assoc]
    · intro t mem
      rcases List.mem_cons.mp mem with rfl | mem
      · exact here.wellFormed
      · exact hinner t mem

theorem exists_inner_of_tokenize {text : String} {ts : List Token} (h : tokenize text = .ok ts) :
    ∃ inner, ts = inner ++ [Token.ending (text.length + 1)] ∧ ∀ t ∈ inner, t.lexeme.WellFormed := by
  obtain ⟨inner, hts, wellFormed⟩ := (tokenize_eq_ok_iff.mp h).exists_inner
  rw [String.length_toList, Nat.zero_add] at hts
  exact ⟨inner, hts, wellFormed⟩

/-! ## The place of a token -/

/-- The token is in the text at the character that its position counts, its lexeme written there in
full. The end of the input comes after the last character. -/
def Token.StandsIn (text : List Char) (t : Token) : Prop :=
  ∃ before rest, text = before ++ rest ∧ t.position = before.length + 1 ∧
    (t.lexeme = .endOfInput ∧ rest = [] ∨
      ∃ written after, rest = written ++ after ∧ t.lexeme.Written written after)

theorem Token.StandsIn.position_bounds {text : List Char} {t : Token} (h : t.StandsIn text) :
    1 ≤ t.position ∧ t.position ≤ text.length + 1 := by
  obtain ⟨before, rest, rfl, hposition, -⟩ := h
  rw [List.length_append]
  omega

/-- The tokens that a text is made up of stand in it, whatever comes before the text. -/
theorem Tokenized.standsIn {offset : Nat} {rest : List Char} {ts : List Token}
    (h : Tokenized offset rest ts) {before : List Char} (hbefore : before.length = offset) :
    ∀ t ∈ ts, t.StandsIn (before ++ rest) := by
  induction h generalizing before with
  | @ending offset gap blank =>
    intro t mem
    obtain rfl := List.mem_singleton.mp mem
    refine ⟨before ++ gap, [], by simp, ?_, .inl ⟨rfl, rfl⟩⟩
    simp [Token.ending, hbefore]
  | @token offset gap written rest lexeme ts blank here others ih =>
    intro t mem
    rcases List.mem_cons.mp mem with rfl | mem
    · refine ⟨before ++ gap, written ++ rest, by simp, ?_, .inr ⟨written, rest, rfl, here⟩⟩
      simp [hbefore]
    · have hlength : (before ++ gap ++ written).length = offset + gap.length + written.length := by
        rw [List.length_append, List.length_append, hbefore]
      simpa using ih hlength t mem

/-- Every token that is read stands in the text. -/
theorem standsIn_of_tokenize {text : String} {ts : List Token} (h : tokenize text = .ok ts) :
    ∀ t ∈ ts, t.StandsIn text.toList := by
  have stands : ∀ t ∈ ts, t.StandsIn ([] ++ text.toList) :=
    (tokenize_eq_ok_iff.mp h).standsIn rfl
  exact stands

/-! ## Texts that are not read -/

/-- The error is about characters of the text, and they are where it says: one that begins no
lexeme, or a whole run of comparison signs. -/
def Error.NamesCharacters (text : List Char) : Error → Prop
  | .unexpectedChar c position =>
    ∃ before after, text = before ++ c :: after ∧ position = before.length + 1
  | .invalidComparison run position =>
    ∃ before after, text = before ++ (run.toList ++ after) ∧ position = before.length + 1 ∧
      run ≠ "" ∧ (∀ c ∈ run.toList, isComparisonSign c = true) ∧ EndsRun isComparisonSign after
  | _ => False

namespace Lexer

variable {l after : Lexer} {e : Error} {before : List Char}

theorem namesCharacters_of_next (h : l.next = (.error e, after))
    (hbefore : before.length = l.offset) : e.NamesCharacters (before ++ l.rest) := by
  obtain ⟨gap, -, hrest, hoffset⟩ := l.exists_gap
  unfold next at h
  dsimp only at h
  split at h
  · cases h
  · next c rest here =>
    have hposition : l.skipBlanks.offset + 1 = (before ++ gap).length + 1 := by
      simp [hoffset, hbefore]
    rw [hrest, here, ← List.append_assoc]
    split at h
    · cases h
    · next run scanned =>
      cases h
      obtain ⟨sign, after, hchars, rfl, ends⟩ := Scan.run_of_badComparison scanned
      refine ⟨before ++ gap, after, ?_, hposition, ?_, ?_, ?_⟩
      · rw [hchars, String.toList_ofList]
      · simp
      · simpa using ⟨sign, fun d mem => List.mem_takeWhile_imp mem⟩
      · exact ends
    · cases h
      exact ⟨before ++ gap, rest, rfl, hposition⟩

/-- An error of the lexer names characters of the text at their place. -/
theorem namesCharacters_of_collect {found : List Token} (h : l.collect found = .error e)
    (hbefore : before.length = l.offset) : e.NamesCharacters (before ++ l.rest) := by
  fun_induction collect l found generalizing before with
  | case1 l found t after hnext ih =>
    obtain ⟨gap, written, -, hrest, -, -, hoffset⟩ := written_of_next hnext
    have hlength : (before ++ gap ++ written).length = after.offset := by
      rw [List.length_append, List.length_append, hbefore, hoffset]
    simpa [hrest] using ih h hlength
  | case2 l found after hnext => cases h
  | case3 l found e' after hnext =>
    cases h
    exact namesCharacters_of_next hnext hbefore

end Lexer

/-- A text that is not read has the characters that the error names. -/
theorem namesCharacters_of_tokenize {text : String} {e : Error} (h : tokenize text = .error e) :
    e.NamesCharacters text.toList := by
  have names : e.NamesCharacters ([] ++ text.toList) := Lexer.namesCharacters_of_collect h rfl
  exact names

end SheetFormula
