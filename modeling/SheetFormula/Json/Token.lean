import SheetFormula.Json
import SheetFormula.Json.Number
import SheetFormula.Json.Quoted

/-!
# Tokens of JSON

A JSON text is a list of punctuation and of values without parts, with white space anywhere between
them. Only the space, the tabulator and the two line ends are white space, not what Unicode counts
as such.

The first character of a token decides what it can be (`Token.read?`): punctuation, a string, one
of the three words, or else a number. A token goes as far as it can, so a number ends at the first
character that does not continue it. A word has no such end: what follows its letters is read as
the next token, and it is the tree that refuses it there.

`tokens?` reads all of a text. It comes to an end because each token leaves less text, which is
shown part by part: for words, fractions, exponents, numbers and strings
(`length_le_of_afterWord?`, `length_lt_of_readNumber?`, `length_lt_of_readString?`), and for any
token from these (`Token.length_le_of_read?`). With this it is a function of the text alone, and
needs no bound on how many tokens there can be.

A token that cannot be read refuses the whole text. Which texts are made up of which tokens is said
in `SheetFormula.Proofs.Json.Tokens`, where the same parts have a lemma each.
-/

namespace SheetFormula.Json

/-- The tokens of JSON. A string may be a value or the name of a member; a scalar is any other
value without parts. -/
inductive Token where
  | leftBrace
  | rightBrace
  | leftBracket
  | rightBracket
  | colon
  | comma
  | string (s : String)
  | scalar (value : Json)

/-- White space between tokens. -/
def isSpace (c : Char) : Bool :=
  c == ' ' || c == '\t' || c == '\n' || c == '\r'

/-- What follows `word` at the beginning of a text. -/
def afterWord? (word text : List Char) : Option (List Char) :=
  if word.isPrefixOf text then some (text.drop word.length) else none

namespace Token

/-- The tokens of one character. -/
def punctuation? : Char → Option Token
  | '\x7b' => some .leftBrace
  | '\x7d' => some .rightBrace
  | '[' => some .leftBracket
  | ']' => some .rightBracket
  | ':' => some .colon
  | ',' => some .comma
  | _ => none

/-- The value that a word stands for, by its first letter, and the other letters of the word. -/
def word? : Char → Option (List Char × Json)
  | 'n' => some (['u', 'l', 'l'], .null)
  | 't' => some (['r', 'u', 'e'], .boolean true)
  | 'f' => some (['a', 'l', 's', 'e'], .boolean false)
  | _ => none

/-- The token at the beginning of a text whose first character is `c`, and what follows it. -/
def read? (c : Char) (rest : List Char) : Option (Token × List Char) :=
  match punctuation? c with
  | some t => some (t, rest)
  | none =>
    if c = '"' then (readString? [] rest).map fun (s, after) => (.string s, after)
    else
      match word? c with
      | some (letters, value) =>
        (afterWord? letters rest).map fun after => (.scalar value, after)
      | none => (readNumber? (c :: rest)).map fun (x, after) => (.scalar (.number x), after)

end Token

theorem length_le_of_afterWord? {word text rest : List Char}
    (h : afterWord? word text = some rest) : rest.length ≤ text.length := by
  unfold afterWord? at h
  split at h
  · simp only [Option.some.injEq] at h
    simp only [← h, List.length_drop]
    omega
  · simp at h

theorem length_dropWhile_le (p : Char → Bool) (text : List Char) :
    (text.dropWhile p).length ≤ text.length :=
  (List.dropWhile_suffix p).length_le

theorem length_le_of_fractionPart? {text digits rest : List Char}
    (h : fractionPart? text = some (digits, rest)) : rest.length ≤ text.length := by
  unfold fractionPart? at h
  split at h
  · split at h <;> simp only [Option.some.injEq, Prod.mk.injEq, reduceCtorEq] at h
    rw [← h.2, List.length_cons]
    exact Nat.le_succ_of_le (length_dropWhile_le _ _)
  · simp only [Option.some.injEq, Prod.mk.injEq] at h
    exact Nat.le_of_eq (congrArg List.length h.2.symm)

theorem length_splitSign_le (text : List Char) :
    (Number.splitSign text).2.length ≤ text.length := by
  unfold Number.splitSign
  split <;> simp

theorem length_le_of_exponentPart? {text rest : List Char} {exponent : Int}
    (h : exponentPart? text = some (exponent, rest)) : rest.length ≤ text.length := by
  unfold exponentPart? at h
  split at h
  · next mark after =>
    split at h
    · dsimp only at h
      split at h <;> simp only [Option.some.injEq, Prod.mk.injEq, reduceCtorEq] at h
      have := length_dropWhile_le Char.isDigit (Number.splitSign after).2
      have := length_splitSign_le after
      rw [← h.2, List.length_cons]
      omega
    · simp only [Option.some.injEq, Prod.mk.injEq] at h
      exact Nat.le_of_eq (congrArg List.length h.2.symm)
  · simp only [Option.some.injEq, Prod.mk.injEq] at h
    simp [← h.2]

theorem length_lt_of_readMagnitude? {text rest : List Char} {x : Float}
    (h : readMagnitude? text = some (x, rest)) : rest.length < text.length := by
  unfold readMagnitude? at h
  dsimp only at h
  split at h
  · simp at h
  · next whole =>
    obtain ⟨⟨fraction, afterFraction⟩, fractionRead, h⟩ := Option.bind_eq_some_iff.mp h
    obtain ⟨⟨exponent, after⟩, exponentRead, h⟩ := Option.bind_eq_some_iff.mp h
    obtain ⟨y, -, h⟩ := Option.bind_eq_some_iff.mp h
    simp only [Option.some.injEq, Prod.mk.injEq] at h
    have := length_le_of_fractionPart? fractionRead
    have : after.length ≤ afterFraction.length := length_le_of_exponentPart? exponentRead
    have split := congrArg List.length
      (List.takeWhile_append_dropWhile (p := Char.isDigit) (l := text))
    have : 0 < (text.takeWhile Char.isDigit).length := by
      apply List.length_pos_iff.mpr
      intro none
      simp [none] at whole
    simp only [List.length_append] at split
    rw [← h.2]
    omega

theorem length_lt_of_readNumber? {text rest : List Char} {x : Float}
    (h : readNumber? text = some (x, rest)) : rest.length < text.length := by
  unfold readNumber? at h
  split at h
  · obtain ⟨⟨y, after⟩, read, h⟩ := Option.map_eq_some_iff.mp h
    have := length_lt_of_readMagnitude? read
    simp only [Prod.mk.injEq] at h
    rw [← h.2, List.length_cons]
    omega
  · exact length_lt_of_readMagnitude? h

/-- What follows a token is no longer than what follows its first character. -/
theorem Token.length_le_of_read? {c : Char} {rest after : List Char} {t : Token}
    (h : Token.read? c rest = some (t, after)) : after.length ≤ rest.length := by
  unfold Token.read? at h
  split at h
  · simp only [Option.some.injEq, Prod.mk.injEq] at h
    exact Nat.le_of_eq (congrArg List.length h.2.symm)
  · split at h
    · obtain ⟨⟨s, text⟩, read, h⟩ := Option.map_eq_some_iff.mp h
      simp only [Prod.mk.injEq] at h
      rw [← h.2]
      exact Nat.le_of_lt (length_lt_of_readString? read)
    · split at h
      · obtain ⟨text, read, h⟩ := Option.map_eq_some_iff.mp h
        simp only [Prod.mk.injEq] at h
        rw [← h.2]
        exact length_le_of_afterWord? read
      · obtain ⟨⟨x, text⟩, read, h⟩ := Option.map_eq_some_iff.mp h
        simp only [Prod.mk.injEq] at h
        rw [← h.2]
        exact Nat.le_of_lt_succ (length_lt_of_readNumber? read)

/-- The tokens of a text, after those in `found`, which come last first. -/
def tokens? (found : List Token) (text : List Char) : Option (List Token) :=
  match text with
  | [] => some found.reverse
  | c :: rest =>
    if isSpace c then tokens? found rest
    else
      match _ : Token.read? c rest with
      | some (t, after) => tokens? (t :: found) after
      | none => none
termination_by text.length
decreasing_by
  · simp
  · exact Nat.lt_succ_of_le (Token.length_le_of_read? ‹_›)

end SheetFormula.Json
