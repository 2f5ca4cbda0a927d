import Mathlib.Data.List.Chain
import SheetFormula.Json.Token
import SheetFormula.Proofs.Json.Numbers
import SheetFormula.Proofs.Json.Strings

/-!
# How tokens are written in JSON

`Json.Token.Written` says which texts a token has: brackets, commas and colons have one, and so
have the three words; a string has its characters in quotes, in any of the ways that there are, and
a number any text of parts that have this value. A text is made up of tokens, each written in full,
with white space between them (`Json.Spelled`).

Such a text is read as these tokens, unless two numbers meet (`Json.tokens?_of_spelled`), and
nothing else is read (`Json.spelled_of_tokens?`). Two numbers without a gap between them are read
as one number or not at all, and no tree has such tokens side by side.

The first character decides what kind of token is read. That no two kinds begin with the same one
is `Json.Token.of_beginsNumber` and what `Json.Token.punctuation?_eq_some` and
`Json.Token.word?_eq_some` say of the others, and it gives the two lemmas about one token,
`Json.Token.read?_of_written` and `Json.Token.exists_of_read?`. The text as a whole follows from
these by induction on how it is made up, or along the reading. In the first case a number needs to
know that nothing goes on with it, which is so because the next token is no number or a gap stands
before it (`Json.Spelled.endsRun`).
-/

namespace SheetFormula.Json

namespace Token

/-- How a token is written. A number must be within the range of doubles. -/
inductive Written : List Char → Token → Prop where
  | punctuation {c : Char} {t : Token} (known : punctuation? c = some t) : Written [c] t
  | word {c : Char} {letters : List Char} {value : Json} (known : word? c = some (letters, value)) :
      Written (c :: letters) (.scalar value)
  | string {written chars : List Char} (body : WritesString written chars) :
      Written ('"' :: (written ++ ['"'])) (.string (String.ofList chars))
  | number {n : NumberText} {x : Float} (wellFormed : n.WellFormed) (value : n.value? = some x) :
      Written n.text (.scalar (.number x))

/-- Whether a token is a number. -/
def isNumber : Token → Bool
  | .scalar (.number _) => true
  | _ => false

end Token

/-- The text is made up of the tokens of a list, with white space around them. -/
inductive Spelled : List Char → List Token → Prop where
  | ending {gap : List Char} (space : ∀ c ∈ gap, isSpace c = true) : Spelled gap []
  | token {gap written rest : List Char} {t : Token} {ts : List Token}
      (space : ∀ c ∈ gap, isSpace c = true) (first : t.Written written)
      (others : Spelled rest ts) : Spelled (gap ++ (written ++ rest)) (t :: ts)

theorem Spelled.nil : Spelled [] [] :=
  .ending (List.forall_mem_nil _)

/-- A token at the beginning of a text. -/
theorem Spelled.cons {written rest : List Char} {t : Token} {ts : List Token}
    (others : Spelled rest ts) (first : t.Written written) :
    Spelled (written ++ rest) (t :: ts) := by
  have spelled := Spelled.token (List.forall_mem_nil _) first others
  simpa using spelled

/-! ## One token -/

namespace Token

variable {c : Char} {written rest after : List Char} {t : Token}

theorem punctuation?_eq_some (h : punctuation? c = some t) :
    isSpace c = false ∧ continuesNumber c = false ∧ t.isNumber = false := by
  unfold punctuation? at h
  split at h <;> cases h <;> exact ⟨by decide, by decide, rfl⟩

theorem word?_eq_some {letters : List Char} {value : Json} (h : word? c = some (letters, value)) :
    isSpace c = false ∧ continuesNumber c = false ∧ punctuation? c = none ∧ c ≠ '"' := by
  unfold word? at h
  split at h <;> cases h <;> exact ⟨by decide, by decide, by decide, by decide⟩

/-- No other token begins like a number. -/
theorem of_beginsNumber (h : c = '-' ∨ c.isDigit = true) :
    isSpace c = false ∧ punctuation? c = none ∧ c ≠ '"' ∧ word? c = none := by
  have other {d : Char} (hd : ¬(d = '-' ∨ d.isDigit = true)) : c ≠ d := by
    rintro rfl
    exact hd h
  refine ⟨?_, ?_, other (by decide), ?_⟩
  · simp [isSpace, other (d := ' ') (by decide), other (d := '\t') (by decide),
      other (d := '\n') (by decide), other (d := '\r') (by decide)]
  · unfold punctuation?
    split <;> first | rfl | exact absurd rfl (other (by decide))
  · unfold word?
    split <;> first | rfl | exact absurd rfl (other (by decide))

theorem exists_text_eq_cons {n : NumberText} (wellFormed : n.WellFormed) :
    ∃ c text, n.text = c :: text ∧ (c = '-' ∨ c.isDigit = true) := by
  obtain ⟨d, digits, hwhole⟩ := List.exists_cons_of_ne_nil wellFormed.whole_ne_nil
  unfold NumberText.text
  cases n.negative with
  | true => exact ⟨'-', n.magnitudeText, rfl, .inl rfl⟩
  | false =>
    refine ⟨d, digits ++ (fractionText n.fraction ++ exponentText n.exponent), ?_, .inr ?_⟩
    · simp [NumberText.magnitudeText, hwhole]
    · exact wellFormed.isDigit_whole d (hwhole ▸ List.mem_cons_self)

/-- A token is written with at least one character, which is no white space, and goes on no number
unless it begins one. -/
theorem Written.exists_eq_cons (h : t.Written written) : ∃ c text, written = c :: text ∧
    isSpace c = false ∧ (t.isNumber = false → continuesNumber c = false) := by
  cases h with
  | punctuation known =>
    obtain ⟨space, continues, -⟩ := punctuation?_eq_some known
    exact ⟨_, [], rfl, space, fun _ => continues⟩
  | word known =>
    obtain ⟨space, continues, -⟩ := word?_eq_some known
    exact ⟨_, _, rfl, space, fun _ => continues⟩
  | string body => exact ⟨'"', _, rfl, by decide, fun _ => by decide⟩
  | number wellFormed value =>
    obtain ⟨c, text, htext, begins⟩ := exists_text_eq_cons wellFormed
    exact ⟨c, text, htext, (of_beginsNumber begins).1, fun other => by cases other⟩

/-- A token that is written is read, where a number is not gone on with. -/
theorem read?_of_written (h : t.Written (c :: written))
    (ends : t.isNumber = true → EndsRun continuesNumber rest) :
    read? c (written ++ rest) = some (t, rest) := by
  generalize hw : c :: written = whole at h
  cases h with
  | punctuation known =>
    cases hw
    simp [read?, known]
  | word known =>
    cases hw
    obtain ⟨-, -, noPunctuation, notQuote⟩ := word?_eq_some known
    simp [read?, noPunctuation, notQuote, known, afterWord?]
  | string body =>
    cases hw
    have none : punctuation? '"' = none := rfl
    have read := readString?_append body [] rest
    simp [read?, none, read]
  | number wellFormed value =>
    obtain ⟨d, text, htext, begins⟩ := exists_text_eq_cons wellFormed
    rw [htext] at hw
    cases hw
    obtain ⟨-, noPunctuation, notQuote, noWord⟩ := of_beginsNumber begins
    have read := NumberText.readNumber?_append wellFormed (ends rfl)
    rw [htext, value] at read
    simp only [List.cons_append] at read
    simp [read?, noPunctuation, notQuote, noWord, read]

theorem exists_of_afterWord? {word text : List Char} (h : afterWord? word text = some rest) :
    text = word ++ rest := by
  unfold afterWord? at h
  split at h
  · next isPrefix =>
    cases h
    obtain ⟨rest, rfl⟩ := List.isPrefixOf_iff_prefix.mp isPrefix
    simp
  · cases h

/-- Only what is written as a token is read. -/
theorem exists_of_read? (h : read? c rest = some (t, after)) :
    ∃ written, c :: rest = written ++ after ∧ t.Written written := by
  unfold read? at h
  split at h
  · next known =>
    cases h
    exact ⟨[c], rfl, .punctuation known⟩
  · split at h
    · next quote =>
      obtain ⟨⟨s, text⟩, read, found⟩ := Option.map_eq_some_iff.mp h
      obtain ⟨written, chars, rfl, body, rfl⟩ := exists_of_readString? read
      cases found
      exact ⟨'"' :: (written ++ ['"']), by simp [quote], .string body⟩
    · split at h
      · next letters value known =>
        obtain ⟨text, read, found⟩ := Option.map_eq_some_iff.mp h
        cases found
        exact ⟨c :: letters, by simp [exists_of_afterWord? read], .word known⟩
      · obtain ⟨⟨x, text⟩, read, found⟩ := Option.map_eq_some_iff.mp h
        obtain ⟨n, wellFormed, htext, value⟩ := NumberText.exists_of_readNumber? read
        cases found
        exact ⟨n.text, htext, .number wellFormed value⟩

end Token

/-! ## All tokens of a text -/

/-- White space before a text is passed over. -/
theorem tokens?_append_of_space {gap : List Char} (space : ∀ c ∈ gap, isSpace c = true)
    (found : List Token) (text : List Char) : tokens? found (gap ++ text) = tokens? found text := by
  induction gap with
  | nil => rfl
  | cons c gap ih =>
    rw [List.cons_append, tokens?, if_pos (space c List.mem_cons_self)]
    exact ih fun d mem => space d (List.mem_cons_of_mem _ mem)

/-- White space may stand before a text. -/
theorem Spelled.cons_space {c : Char} (space : isSpace c = true) {text : List Char}
    {ts : List Token} (h : Spelled text ts) : Spelled (c :: text) ts := by
  cases h with
  | ending blank => exact .ending (List.forall_mem_cons.mpr ⟨space, blank⟩)
  | token blank first others =>
    exact .token (List.forall_mem_cons.mpr ⟨space, blank⟩) first others

/-- Every token of a text stands somewhere in it. -/
theorem Spelled.exists_written {text : List Char} {t : Token} {ts : List Token}
    (h : Spelled text ts) (mem : t ∈ ts) : ∃ written, t.Written written := by
  induction h with
  | ending => cases mem
  | token _ first _ ih =>
    cases mem with
    | head => exact ⟨_, first⟩
    | tail _ mem => exact ih mem

/-- What follows a number goes on no number, unless it is one. -/
theorem Spelled.endsRun {text : List Char} {ts : List Token} (h : Spelled text ts)
    (noNumber : ∀ t ∈ ts.head?, t.isNumber = false) : EndsRun continuesNumber text := by
  have space {c : Char} (h : isSpace c = true) : continuesNumber c = false := by
    simp only [isSpace, Bool.or_eq_true, beq_iff_eq] at h
    rcases h with ((rfl | rfl) | rfl) | rfl <;> decide
  cases h with
  | ending blank => exact fun c mem => space (blank c (List.mem_of_mem_head? mem))
  | @token gap written rest t ts blank first others =>
    cases gap with
    | nil =>
      obtain ⟨c, text, rfl, -, continues⟩ := first.exists_eq_cons
      rintro d ⟨⟩
      exact continues (noNumber t rfl)
    | cons c gap =>
      rintro d ⟨⟩
      exact space (blank c List.mem_cons_self)

/-- A text that is made up of tokens is read as these, if no number meets another. -/
theorem tokens?_of_spelled {text : List Char} {ts : List Token} (h : Spelled text ts)
    (apart : ts.IsChain fun t t' => t.isNumber = true → t'.isNumber = false)
    (found : List Token) : tokens? found text = some (found.reverse ++ ts) := by
  induction h generalizing found with
  | @ending gap space =>
    have passed := tokens?_append_of_space space found []
    rw [List.append_nil] at passed
    simp [passed, tokens?]
  | @token gap written rest t ts space first others ih =>
    obtain ⟨c, text, rfl, notSpace, -⟩ := first.exists_eq_cons
    have ends : t.isNumber = true → EndsRun continuesNumber rest := by
      intro number
      refine others.endsRun fun t' mem => ?_
      cases ts with
      | nil => cases mem
      | cons u us =>
        cases mem
        exact (List.isChain_cons_cons.mp apart).1 number
    have read := Token.read?_of_written first ends
    have rest := ih apart.tail (t :: found)
    rw [tokens?_append_of_space space, List.cons_append, tokens?, if_neg (by simp [notSpace])]
    split
    · next read' =>
      rw [read] at read'
      cases read'
      simpa using rest
    · next refused =>
      rw [read] at refused
      cases refused

/-- A text is read only as tokens that it is made up of. -/
theorem spelled_of_tokens? {found ts : List Token} {text : List Char}
    (h : tokens? found text = some ts) : ∃ us, ts = found.reverse ++ us ∧ Spelled text us := by
  fun_induction tokens? found text with
  | case1 found =>
    cases h
    exact ⟨[], by simp, .ending (by simp)⟩
  | case2 found c rest space ih =>
    obtain ⟨us, hts, spelled⟩ := ih h
    exact ⟨us, hts, spelled.cons_space space⟩
  | case3 found c rest notSpace t after read ih =>
    obtain ⟨us, rfl, others⟩ := ih h
    obtain ⟨written, hrest, first⟩ := Token.exists_of_read? read
    refine ⟨t :: us, by simp, ?_⟩
    rw [hrest]
    exact .token (List.forall_mem_nil _) first others
  | case4 => cases h

end SheetFormula.Json
