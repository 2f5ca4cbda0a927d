import SheetFormula.Proofs.Lexer.Characters

/-!
# Reading what is written

Every lexeme that the lexer can give has a spelling, `Lexeme.text`. A lexeme that is written before
a text none of which belongs to it (`Lexeme.Written`) is what the lexer reads there
(`Scan.gives_of_written`). So a text that is made up of blank characters and of lexemes written in
full (`Tokenized`) is read as these lexemes, each at the place where it is written
(`Lexer.tokens_of_tokenized`). Lexemes that are spelled out one after another with blank characters
between them make up such a text (`tokenized_spell`).

Two conditions are kept apart. Whether a lexeme can be written at all is a matter of its own text
(`Lexeme.WellFormed`): a string has no quote within, a number at most one comma. Whether it ends
where it should is a matter of what comes after it (`Lexeme.Complete`), and a gap always sees to
that (`Lexeme.WellFormed.complete`). The one lexeme with two spellings is a string at the end of
the text, whose closing quote may be missing.

There is one lemma for each kind of lexeme (`Scan.number_append`, `Scan.identifier_append`,
`Scan.string_append`, `Scan.comparison_append`); they are put together in `Scan.gives_text`. What
the lexer then does with a gap and a lexeme is `Lexer.next_of_written`, and all of a text is an
induction over `Tokenized` (`Lexer.collect_of_tokenized`).
-/

namespace SheetFormula

open Unicode (isAlphabetic isBlank isNumeric)

namespace Lexeme

/-- How a lexeme is written. -/
def text : Lexeme → String
  | .endOfInput => ""
  | .symbol s => s.text
  | .number text => text
  | .string text => "\"" ++ text ++ "\""
  | .identifier name => name

/-- The lexemes that can be written: numbers of numeric characters with at most one comma after
the first, strings without a quote, names that begin with a letter, and the symbols. -/
def WellFormed : Lexeme → Prop
  | .endOfInput => False
  | .symbol _ => True
  | .number text => ∃ c tail, text.toList = c :: tail ∧ isNumeric c = true ∧
      (∀ d ∈ tail, isNumeric d = true ∨ d = ',') ∧ tail.count ',' ≤ 1
  | .string text => '"' ∉ text.toList
  | .identifier name => ∃ c tail, name.toList = c :: tail ∧ isAlphabetic c = true ∧
      isNumeric c = false ∧ ∀ d ∈ tail, isAlphabetic d = true ∨ isNumeric d = true

/-- Nothing of `rest`, which comes right after the lexeme, belongs to it. -/
def Complete (rest : List Char) : Lexeme → Prop
  | .endOfInput => rest = []
  | .symbol s =>
    s ∈ [Symbol.less, .greater, .lessEqual, .greaterEqual] → EndsRun isComparisonSign rest
  | .number text => EndsRun isNumeric rest ∧ (',' ∈ text.toList ∨ EndsRun (· == ',') rest)
  | .string _ => True
  | .identifier _ => EndsRun (fun c => isAlphabetic c || isNumeric c) rest

/-- The lexeme is written as `written` before `rest`. A string at the end of a text may lack its
closing quote. -/
structure Written (lexeme : Lexeme) (written rest : List Char) : Prop where
  wellFormed : lexeme.WellFormed
  complete : lexeme.Complete rest
  spelled : written = lexeme.text.toList ∨
    ∃ text, lexeme = .string text ∧ written = '"' :: text.toList ∧ rest = []

/-- Some character is written for every lexeme. -/
theorem Written.ne_nil {lexeme : Lexeme} {written rest : List Char}
    (h : lexeme.Written written rest) : written ≠ [] := by
  rcases h.spelled with rfl | ⟨text, -, rfl, -⟩
  · have wellFormed := h.wellFormed
    cases lexeme with
    | endOfInput => exact wellFormed.elim
    | symbol s => cases s <;> simp [text, Symbol.text]
    | string text => simp [Lexeme.text]
    | number text | identifier text =>
      obtain ⟨c, tail, spelling, -⟩ := wellFormed
      simp [Lexeme.text, spelling]
  · exact List.cons_ne_nil _ _

/-- A lexeme is complete where the text is separated. -/
theorem WellFormed.complete {lexeme : Lexeme} (wellFormed : lexeme.WellFormed) {rest : List Char}
    (separated : Separated rest) : lexeme.Complete rest := by
  cases lexeme with
  | endOfInput => exact wellFormed.elim
  | symbol s => exact fun _ => separated.endsRun fun _ => isComparisonSign_of_isBlank
  | number text =>
    refine ⟨separated.endsRun fun _ => Unicode.isNumeric_of_isBlank, .inr ?_⟩
    refine separated.endsRun fun c blank => beq_eq_false_iff_ne.mpr ?_
    rintro rfl
    exact absurd blank (by decide)
  | string text => trivial
  | identifier name =>
    refine separated.endsRun fun c blank => ?_
    simp [Unicode.isAlphabetic_of_isBlank blank, Unicode.isNumeric_of_isBlank blank]

/-- A lexeme that is complete stays so if something separated is put after the text. -/
theorem Complete.append {lexeme : Lexeme} {rest later : List Char} (complete : lexeme.Complete rest)
    (wellFormed : lexeme.WellFormed) (separated : Separated later) :
    lexeme.Complete (rest ++ later) := by
  cases rest with
  | nil => exact wellFormed.complete separated
  | cons c rest =>
    cases lexeme with
    | endOfInput => exact wellFormed.elim
    | _ => exact complete

theorem WellFormed.ne_endOfInput {lexeme : Lexeme} (wellFormed : lexeme.WellFormed) :
    lexeme ≠ .endOfInput := by
  rintro rfl
  exact wellFormed

/-- Lexemes written one after another, each after a gap. -/
def spell : List (List Char × Lexeme) → List Char
  | [] => []
  | (gap, lexeme) :: others => gap ++ (lexeme.text.toList ++ spell others)

/-- The tokens of lexemes written one after another from `offset` on. -/
def place (offset : Nat) : List (List Char × Lexeme) → List Token
  | [] => []
  | (gap, lexeme) :: others =>
    ⟨lexeme, offset + gap.length + 1⟩ ::
      place (offset + gap.length + lexeme.text.toList.length) others

/-- Lexemes with a space between two of them. -/
def spaced : List Lexeme → List (List Char × Lexeme)
  | [] => []
  | first :: others => ([], first) :: others.map fun lexeme => ([' '], lexeme)

theorem map_lexeme_place (written : List (List Char × Lexeme)) (offset : Nat) :
    (place offset written).map Token.lexeme = written.map Prod.snd := by
  induction written generalizing offset with
  | nil => rfl
  | cons p others ih => simp [place, ih]

/-- The tokens of what is written later have their places after what is written before. -/
theorem place_append (written later : List (List Char × Lexeme)) (offset : Nat) :
    place offset (written ++ later) =
      place offset written ++ place (offset + (spell written).length) later := by
  induction written generalizing offset with
  | nil => rfl
  | cons p others ih => simp [place, spell, ih, Nat.add_assoc]

theorem map_snd_spaced (lexemes : List Lexeme) : (spaced lexemes).map Prod.snd = lexemes := by
  cases lexemes with
  | nil => rfl
  | cons first others => simp [spaced, Function.comp_def]

/-- The texts of lexemes joined by spaces. -/
theorem toList_intercalate_text : ∀ lexemes : List Lexeme,
    (" ".intercalate (lexemes.map text)).toList = spell (spaced lexemes)
  | [] => rfl
  | [first] => by simp [spaced, spell]
  | first :: next :: others => by
    have ih := toList_intercalate_text (next :: others)
    simp only [List.map_cons, String.intercalate_cons_cons, String.toList_append] at ih ⊢
    rw [ih]
    simp [spaced, spell]

end Lexeme

/-! ## One lexeme -/

namespace Scan

/-- A number with at most one comma is read as a whole: the numeric characters, then the
fraction. -/
theorem takeWhile_append_fraction {rest : List Char} (ends : EndsRun isNumeric rest) :
    ∀ {tail : List Char}, (∀ d ∈ tail, isNumeric d = true ∨ d = ',') → tail.count ',' ≤ 1 →
      (',' ∈ tail ∨ EndsRun (· == ',') rest) →
      (tail ++ rest).takeWhile isNumeric ++ fraction ((tail ++ rest).dropWhile isNumeric) = tail
  | [], _, _, comma => by
    have noComma : EndsRun (· == ',') rest := by simpa using comma
    rw [List.nil_append, ends.takeWhile_eq_nil, ends.dropWhile_eq_self, List.nil_append]
    unfold fraction
    split
    · next decimals => exact absurd (noComma ',' rfl) (by decide)
    · rfl
  | d :: tail, within, commas, comma => by
    have inner : ∀ d ∈ tail, isNumeric d = true ∨ d = ',' :=
      fun d h => within d (List.mem_cons_of_mem _ h)
    rcases within d List.mem_cons_self with numeric | rfl
    · have notComma : d ≠ ',' := by
        rintro rfl
        exact absurd numeric (by decide)
      have ih := takeWhile_append_fraction ends inner
        (by simpa [List.count_cons, notComma] using commas)
        (by simpa [notComma.symm] using comma)
      simpa [numeric] using ih
    · -- The first comma begins the fraction, so only numeric characters may follow it.
      have noComma : ',' ∉ tail := by
        simpa [List.count_eq_zero] using commas
      have digits : ∀ d ∈ tail, isNumeric d = true := by
        intro d h
        rcases inner d h with numeric | rfl
        · exact numeric
        · exact absurd h noComma
      have notNumeric : isNumeric ',' = false := by decide
      simp [notNumeric, fraction, ends.takeWhile_append digits]

/-- A number is read up to where it is complete. -/
theorem number_append {c : Char} {tail rest : List Char} (ends : EndsRun isNumeric rest)
    (within : ∀ d ∈ tail, isNumeric d = true ∨ d = ',') (commas : tail.count ',' ≤ 1)
    (comma : ',' ∈ tail ∨ EndsRun (· == ',') rest) : number c (tail ++ rest) =
      .lexeme (.number (String.ofList (c :: tail))) (c :: tail).length := by
  simp only [number, List.cons_append, takeWhile_append_fraction ends within commas comma]

/-- A name is read up to where it is complete. -/
theorem identifier_append {c : Char} {tail rest : List Char}
    (ends : EndsRun (fun d => isAlphabetic d || isNumeric d) rest)
    (within : ∀ d ∈ tail, isAlphabetic d = true ∨ isNumeric d = true) :
    identifier c (tail ++ rest) =
      .lexeme (.identifier (String.ofList (c :: tail))) (c :: tail).length := by
  have letters : ∀ d ∈ tail, (isAlphabetic d || isNumeric d) = true := by
    simpa using within
  simp only [identifier, ends.takeWhile_append letters]

/-- A string ends at its closing quote. -/
theorem string_append {chars rest : List Char} (noQuote : '"' ∉ chars) :
    string (chars ++ '"' :: rest) =
      .lexeme (.string (String.ofList chars)) (chars.length + 2) := by
  have within : ∀ d ∈ chars, (d != '"') = true := by
    intro d h
    simpa using fun equal : d = '"' => noQuote (equal ▸ h)
  simp [string, List.takeWhile_append_of_pos within]

/-- A string without its closing quote goes on to the end of the text. -/
theorem string_of_not_mem {chars : List Char} (noQuote : '"' ∉ chars) :
    string chars = .lexeme (.string (String.ofList chars)) (chars.length + 1) := by
  have within : ∀ d ∈ chars, (d != '"') = true := by
    intro d h
    simpa using fun equal : d = '"' => noQuote (equal ▸ h)
  have whole : (chars ++ []).takeWhile (· != '"') = chars :=
    EndsRun.takeWhile_append (by simp [EndsRun]) within
  rw [List.append_nil] at whole
  simp [string, whole]

/-- A comparison ends where no further sign follows. -/
theorem comparison_append {c : Char} {rest : List Char} (ends : EndsRun isComparisonSign rest)
    {signs : List Char} (within : ∀ d ∈ signs, isComparisonSign d = true) {s : Symbol}
    (known : Symbol.ofComparison? (c :: signs) = some s) :
    comparison c (signs ++ rest) = .lexeme (.symbol s) (c :: signs).length := by
  simp only [comparison, ends.takeWhile_append within, known]

/-- The lexer reads `lexeme` from the first `length` characters of a text. -/
def Gives (text : List Char) (lexeme : Lexeme) (length : Nat) : Prop :=
  ∃ c chars, text = c :: chars ∧ isBlank c = false ∧ ofChars c chars = .lexeme lexeme length

theorem gives_symbol (s : Symbol) {rest : List Char} (complete : (Lexeme.symbol s).Complete rest) :
    Gives (s.text.toList ++ rest) (.symbol s) s.text.toList.length := by
  have none : ∀ d ∈ ([] : List Char), isComparisonSign d = true := by simp
  have equal : ∀ d ∈ ['='], isComparisonSign d = true := by simp [isComparisonSign]
  cases s with
  | less =>
    have ends : EndsRun isComparisonSign rest := complete (by decide)
    exact ⟨'<', rest, rfl, by decide, comparison_append ends none rfl⟩
  | greater =>
    have ends : EndsRun isComparisonSign rest := complete (by decide)
    exact ⟨'>', rest, rfl, by decide, comparison_append ends none rfl⟩
  | lessEqual =>
    have ends : EndsRun isComparisonSign rest := complete (by decide)
    exact ⟨'<', '=' :: rest, rfl, by decide, comparison_append ends equal rfl⟩
  | greaterEqual =>
    have ends : EndsRun isComparisonSign rest := complete (by decide)
    exact ⟨'>', '=' :: rest, rfl, by decide, comparison_append ends equal rfl⟩
  | _ => exact ⟨_, rest, rfl, by decide, rfl⟩

/-- What begins with the spelling of a lexeme that is complete there is read as the lexeme. -/
theorem gives_text {lexeme : Lexeme} (wellFormed : lexeme.WellFormed) {rest : List Char}
    (complete : lexeme.Complete rest) :
    Gives (lexeme.text.toList ++ rest) lexeme lexeme.text.toList.length := by
  cases lexeme with
  | endOfInput => exact wellFormed.elim
  | symbol s => exact gives_symbol s complete
  | number text =>
    obtain ⟨c, tail, htext, numeric, within, commas⟩ := wellFormed
    obtain ⟨ends, comma⟩ := complete
    have notComma : ',' ≠ c := by
      rintro rfl
      exact absurd numeric (by decide)
    have comma : ',' ∈ tail ∨ EndsRun (· == ',') rest := by
      simpa [htext, notComma] using comma
    refine ⟨c, tail ++ rest, by simp [Lexeme.text, htext], ?_, ?_⟩
    · refine Bool.eq_false_iff.mpr fun blank => ?_
      simp [Unicode.isNumeric_of_isBlank blank] at numeric
    · rw [ofChars_of_isAlphanumeric (by simp [numeric]), if_pos numeric,
        number_append ends within commas comma, ← htext]
      simp [Lexeme.text]
  | string text =>
    refine ⟨'"', text.toList ++ '"' :: rest, by simp [Lexeme.text], by decide, ?_⟩
    have quoted : ofChars '"' (text.toList ++ '"' :: rest) =
        string (text.toList ++ '"' :: rest) := rfl
    rw [quoted, string_append wellFormed]
    simp [Lexeme.text]
  | identifier name =>
    obtain ⟨c, tail, hname, alphabetic, notNumeric, within⟩ := wellFormed
    refine ⟨c, tail ++ rest, by simp [Lexeme.text, hname], ?_, ?_⟩
    · refine Bool.eq_false_iff.mpr fun blank => ?_
      simp [Unicode.isAlphabetic_of_isBlank blank] at alphabetic
    · rw [ofChars_of_isAlphanumeric (by simp [alphabetic]), if_neg (by simp [notNumeric]),
        identifier_append complete within, ← hname]
      simp [Lexeme.text]

/-- What is written is read. -/
theorem gives_of_written {lexeme : Lexeme} {written rest : List Char}
    (h : lexeme.Written written rest) : Gives (written ++ rest) lexeme written.length := by
  rcases h.spelled with rfl | ⟨text, rfl, rfl, rfl⟩
  · exact gives_text h.wellFormed h.complete
  · refine ⟨'"', text.toList, by simp, by decide, ?_⟩
    have quoted : ofChars '"' text.toList = string text.toList := rfl
    rw [quoted, string_of_not_mem h.wellFormed]
    simp

end Scan

/-! ## All tokens of a text -/

/-- The text from `offset` on is made up of blank characters and of the lexemes of the tokens, each
written in full where its token says. The end of the input comes last, after the text. -/
inductive Tokenized : Nat → List Char → List Token → Prop where
  | ending {offset : Nat} {gap : List Char} (blank : ∀ c ∈ gap, isBlank c = true) :
    Tokenized offset gap [Token.ending (offset + gap.length + 1)]
  | token {offset : Nat} {gap written rest : List Char} {lexeme : Lexeme} {ts : List Token}
      (blank : ∀ c ∈ gap, isBlank c = true) (here : lexeme.Written written rest)
      (others : Tokenized (offset + gap.length + written.length) rest ts) :
    Tokenized offset (gap ++ (written ++ rest)) (⟨lexeme, offset + gap.length + 1⟩ :: ts)

namespace Lexer

variable {offset : Nat} {gap : List Char}

/-- Blank characters before a text are passed over. -/
theorem next_append_of_blank (blank : ∀ c ∈ gap, isBlank c = true) (offset : Nat)
    (rest : List Char) :
    (Lexer.mk offset (gap ++ rest)).next = (Lexer.mk (offset + gap.length) rest).next := by
  have here : (Lexer.mk offset (gap ++ rest)).skipBlanks =
      (Lexer.mk (offset + gap.length) rest).skipBlanks := by
    simp [skipBlanks, skip, List.takeWhile_append_of_pos blank, Nat.add_assoc]
  unfold next
  rw [here]

/-- A lexeme after a gap is read with its place, and what follows it is left. -/
theorem next_of_written (blank : ∀ c ∈ gap, isBlank c = true) {lexeme : Lexeme}
    {written rest : List Char} (h : lexeme.Written written rest) (offset : Nat) :
    (Lexer.mk offset (gap ++ (written ++ rest))).next =
      (.ok (some ⟨lexeme, offset + gap.length + 1⟩),
        ⟨offset + gap.length + written.length, rest⟩) := by
  obtain ⟨c, chars, htext, nonblank, scanned⟩ := Scan.gives_of_written h
  have here : (Lexer.mk (offset + gap.length) (written ++ rest)).skipBlanks =
      ⟨offset + gap.length, written ++ rest⟩ := by
    simp [skipBlanks, skip, htext, nonblank]
  have after : (Lexer.mk (offset + gap.length) (written ++ rest)).skip written.length =
      ⟨offset + gap.length + written.length, rest⟩ := by
    simp [skip]
  rw [next_append_of_blank blank, ← after]
  unfold next
  rw [here]
  simp only [htext, scanned]

/-- After blank characters alone there is no further token. -/
theorem next_of_blank (blank : ∀ c ∈ gap, isBlank c = true) (offset : Nat) :
    (Lexer.mk offset gap).next = (.ok none, ⟨offset + gap.length, []⟩) := by
  have passed := next_append_of_blank blank offset []
  rw [List.append_nil] at passed
  exact passed

/-- What is collected is decided by what is read next. -/
theorem collect_eq (l : Lexer) (found : List Token) : l.collect found =
    match l.next with
    | (.ok (some t), after) => after.collect (t :: found)
    | (.ok none, after) => .ok (Token.ending (after.offset + 1) :: found).reverse
    | (.error e, _) => .error e := by
  rw [collect]
  split <;> next h => rw [h]

/-- The tokens that a text is made up of are added to those found before. -/
theorem collect_of_tokenized {rest : List Char} {ts : List Token} (h : Tokenized offset rest ts)
    (found : List Token) : (Lexer.mk offset rest).collect found = .ok (found.reverse ++ ts) := by
  induction h generalizing found with
  | ending blank =>
    rw [collect_eq, next_of_blank blank]
    simp
  | token blank here others ih =>
    rw [collect_eq, next_of_written blank here]
    simp [ih]

/-- A text is read as the tokens that it is made up of. -/
theorem tokens_of_tokenized {rest : List Char} {ts : List Token} (h : Tokenized offset rest ts) :
    (Lexer.mk offset rest).tokens = .ok ts :=
  collect_of_tokenized h []

end Lexer

/-! ## A list of lexemes -/

/-- Each gap separates what stands before it. -/
theorem separated_spell {written : List (List Char × Lexeme)} {trailing : List Char}
    (blank : ∀ p ∈ written, ∀ c ∈ p.1, isBlank c = true) (gaps : ∀ p ∈ written, p.1 ≠ [])
    (trailingBlank : ∀ c ∈ trailing, isBlank c = true) :
    Separated (Lexeme.spell written ++ trailing) := by
  cases written with
  | nil => exact fun c mem => trailingBlank c (List.mem_of_mem_head? mem)
  | cons p others =>
    obtain ⟨gap, lexeme⟩ := p
    obtain ⟨d, gap', rfl⟩ := List.exists_cons_of_ne_nil (gaps (gap, lexeme) List.mem_cons_self)
    intro c hc
    obtain rfl : d = c := by simpa [Lexeme.spell] using hc
    exact blank _ List.mem_cons_self d List.mem_cons_self

/-- Lexemes spelled out with blank characters between them make up a text, at whose end further blank
characters may stand. -/
theorem tokenized_spell {trailing : List Char} (trailingBlank : ∀ c ∈ trailing, isBlank c = true) :
    ∀ (written : List (List Char × Lexeme)) (offset : Nat),
      (∀ p ∈ written, (∀ c ∈ p.1, isBlank c = true) ∧ p.2.WellFormed) →
      (∀ p ∈ written.tail, p.1 ≠ []) →
      Tokenized offset (Lexeme.spell written ++ trailing) (Lexeme.place offset written ++
        [Token.ending (offset + (Lexeme.spell written ++ trailing).length + 1)])
  | [], offset, _, _ => .ending trailingBlank
  | (gap, lexeme) :: others, offset, wellFormed, gaps => by
    obtain ⟨blank, here⟩ := wellFormed (gap, lexeme) List.mem_cons_self
    have inner : ∀ p ∈ others, (∀ c ∈ p.1, isBlank c = true) ∧ p.2.WellFormed :=
      fun p mem => wellFormed p (List.mem_cons_of_mem _ mem)
    have separated : Separated (Lexeme.spell others ++ trailing) :=
      separated_spell (fun p mem => (inner p mem).1) gaps trailingBlank
    have rest := tokenized_spell trailingBlank others
      (offset + gap.length + lexeme.text.toList.length) inner
      fun p mem => gaps p (List.mem_of_mem_tail mem)
    have whole := Tokenized.token blank ⟨here, here.complete separated, .inl rfl⟩ rest
    simpa [Lexeme.spell, Lexeme.place, Nat.add_assoc] using whole

/-- Lexemes with a space between two of them are read as they are. -/
theorem Lexer.tokens_spaced {lexemes : List Lexeme} (wellFormed : ∀ l ∈ lexemes, l.WellFormed)
    (offset : Nat) :
    (Lexer.mk offset (Lexeme.spell (Lexeme.spaced lexemes))).tokens =
      .ok (Lexeme.place offset (Lexeme.spaced lexemes) ++
        [Token.ending (offset + (Lexeme.spell (Lexeme.spaced lexemes)).length + 1)]) := by
  have space : isBlank ' ' = true := by decide
  have gaps : ∀ p ∈ (Lexeme.spaced lexemes).tail, p.1 ≠ [] := by
    cases lexemes <;> simp [Lexeme.spaced]
  have blank : ∀ p ∈ Lexeme.spaced lexemes, (∀ c ∈ p.1, isBlank c = true) ∧ p.2.WellFormed := by
    cases lexemes with
    | nil => simp [Lexeme.spaced]
    | cons first others =>
      intro p mem
      simp only [Lexeme.spaced, List.mem_cons, List.mem_map] at mem
      rcases mem with rfl | ⟨lexeme, mem, rfl⟩
      · exact ⟨by simp, wellFormed first List.mem_cons_self⟩
      · exact ⟨by simp [space], wellFormed lexeme (List.mem_cons_of_mem _ mem)⟩
  have none : ∀ c ∈ ([] : List Char), isBlank c = true := by simp
  simpa using tokens_of_tokenized (tokenized_spell none _ offset blank gaps)

end SheetFormula
