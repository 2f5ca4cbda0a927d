import SheetFormula.Error
import SheetFormula.Unicode.Alphabetic
import SheetFormula.Unicode.Blank
import SheetFormula.Unicode.Numeric

/-!
# Reading tokens

A lexer is a place in the text of a formula. `Lexer.next` skips blank characters and reads one
token: a symbol, a run of comparison signs, a string between double quotes, a number with at most
one decimal comma, or a name of letters and digits. `Lexer.tokens` reads them all and closes the
list with the end of the input; `tokenize` does so from the beginning of a text.

What a text begins with is found without its place (`Scan.ofChars`), by its first character: that
decides which kind of token it can only be, and the token goes as far as its characters do. A
string goes to the next quote or else to the end of the text. `Lexer.next` adds the places.

There are two ways to fail. A character that begins no token is not passed over, so that asking
again fails again; a run of comparison signs that is no comparison is passed over as a whole.

Each token that is read leaves less text (`Lexer.rest_lt_of_next`), since every lexeme takes up
some character (`Scan.length_pos_of_ofChars`); so reading them all comes to an end.
-/

namespace SheetFormula

open Unicode (isAlphabetic isBlank isNumeric)

/-- The symbols of one character, without the two that may begin a longer one. -/
def Symbol.ofChar? : Char → Option Symbol
  | '(' => some .leftParen
  | ')' => some .rightParen
  | '+' => some .plus
  | '-' => some .minus
  | '*' => some .star
  | '/' => some .slash
  | '^' => some .caret
  | ';' => some .semicolon
  | '=' => some .equal
  | _ => none

/-- The comparison that a run of signs is. -/
def Symbol.ofComparison? : List Char → Option Symbol
  | ['<'] => some .less
  | ['>'] => some .greater
  | ['<', '='] => some .lessEqual
  | ['>', '='] => some .greaterEqual
  | _ => none

/-- The signs that comparisons are made of. -/
def isComparisonSign (c : Char) : Bool :=
  c == '<' || c == '>' || c == '='

/-- What the text at some place begins with. -/
inductive Scan where
  /-- A lexeme that takes up `length` characters. -/
  | lexeme (lexeme : Lexeme) (length : Nat)
  /-- A run of comparison signs that is no comparison. -/
  | badComparison (run : List Char)
  /-- No lexeme begins with the character. -/
  | unexpected

namespace Scan

/-- A run of comparison signs, as long as it goes. -/
def comparison (c : Char) (rest : List Char) : Scan :=
  let run := c :: rest.takeWhile isComparisonSign
  match Symbol.ofComparison? run with
  | some s => .lexeme (.symbol s) run.length
  | none => .badComparison run

/-- The string after an opening quote: everything up to the next quote, which it takes with it, or
to the end of the text. -/
def string (rest : List Char) : Scan :=
  let text := rest.takeWhile (· != '"')
  let closing := if text.length < rest.length then 1 else 0
  .lexeme (.string (String.ofList text)) (text.length + 1 + closing)

/-- The decimal comma, if the text begins with one, and the numeric characters after it. -/
def fraction : List Char → List Char
  | ',' :: rest => ',' :: rest.takeWhile isNumeric
  | _ => []

/-- Numeric characters with at most one comma after the first; a second comma is left alone. -/
def number (c : Char) (rest : List Char) : Scan :=
  let whole := c :: rest.takeWhile isNumeric
  let text := whole ++ fraction (rest.dropWhile isNumeric)
  .lexeme (.number (String.ofList text)) text.length

/-- A run of alphabetic and numeric characters. -/
def identifier (c : Char) (rest : List Char) : Scan :=
  let name := c :: rest.takeWhile fun d => isAlphabetic d || isNumeric d
  .lexeme (.identifier (String.ofList name)) name.length

/-- What a text begins with whose first character is `c`. -/
def ofChars (c : Char) (rest : List Char) : Scan :=
  match Symbol.ofChar? c with
  | some s => .lexeme (.symbol s) 1
  | none =>
    if c = '<' ∨ c = '>' then comparison c rest
    else if c = '"' then string rest
    else if isNumeric c then number c rest
    else if isAlphabetic c then identifier c rest
    else .unexpected

/-- Every lexeme takes up some character. -/
theorem length_pos_of_ofChars {c : Char} {rest : List Char} {lexeme : Lexeme} {length : Nat}
    (h : ofChars c rest = .lexeme lexeme length) : 0 < length := by
  unfold ofChars at h
  split at h
  · cases h
    exact Nat.one_pos
  · split at h
    · unfold comparison at h
      dsimp only at h
      split at h <;> cases h
      exact Nat.succ_pos _
    · split at h
      · cases h
        omega
      · split at h
        · cases h
          simp
        · split at h <;> cases h
          exact Nat.succ_pos _

end Scan

/-- A place in the text of a formula. -/
structure Lexer where
  /-- How many characters stand before the place. -/
  offset : Nat
  /-- The characters from the place on. -/
  rest : List Char

namespace Lexer

/-- The beginning of `text`. -/
def ofString (text : String) : Lexer :=
  ⟨0, text.toList⟩

/-- The place `n` characters further on. -/
def skip (l : Lexer) (n : Nat) : Lexer :=
  ⟨l.offset + n, l.rest.drop n⟩

/-- The place of the next character that is not blank. -/
def skipBlanks (l : Lexer) : Lexer :=
  l.skip (l.rest.takeWhile isBlank).length

/-- The next token, or `none` at the end of the text, and the place after it. A character that
begins no token is not passed over; a run of comparison signs that is no comparison is. -/
def next (l : Lexer) : Except Error (Option Token) × Lexer :=
  let here := l.skipBlanks
  match here.rest with
  | [] => (.ok none, here)
  | c :: rest =>
    match Scan.ofChars c rest with
    | .lexeme lexeme length => (.ok (some ⟨lexeme, here.offset + 1⟩), here.skip length)
    | .badComparison run =>
      (.error (.invalidComparison (String.ofList run) (here.offset + 1)), here.skip run.length)
    | .unexpected => (.error (.unexpectedChar c (here.offset + 1)), here)

/-- Reading a token leaves less text. -/
theorem rest_lt_of_next {l after : Lexer} {t : Token} (h : l.next = (.ok (some t), after)) :
    after.rest.length < l.rest.length := by
  unfold next at h
  dsimp only at h
  have blanks : l.skipBlanks.rest.length ≤ l.rest.length := by
    simp only [skipBlanks, skip, List.length_drop]
    omega
  split at h
  · simp at h
  · next c rest here =>
    split at h
    · next lexeme length scanned =>
      have := Scan.length_pos_of_ofChars scanned
      obtain ⟨-, rfl⟩ := Prod.mk.inj h
      simp only [skip, List.length_drop, here, List.length_cons] at blanks ⊢
      omega
    · simp at h
    · simp at h

/-- The tokens from here to the end of the text, after those in `found`, which come last first. -/
def collect (l : Lexer) (found : List Token) : Except Error (List Token) :=
  match h : l.next with
  | (.ok (some t), after) => collect after (t :: found)
  | (.ok none, after) => .ok (Token.ending (after.offset + 1) :: found).reverse
  | (.error e, _) => .error e
termination_by l.rest.length
decreasing_by exact rest_lt_of_next h

/-- The tokens from here to the end of the text, the last of them the end of the input. -/
def tokens (l : Lexer) : Except Error (List Token) :=
  l.collect []

end Lexer

/-- The tokens of a formula, the last of them the end of the input. -/
def tokenize (text : String) : Except Error (List Token) :=
  (Lexer.ofString text).tokens

end SheetFormula
