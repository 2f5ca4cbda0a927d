/-!
# Tokens

A formula is read as a list of tokens: symbols, numbers, strings and names, each with the place
where it starts, and the end of the input as a token of its own, one behind the last character.

A lexeme is what a token is without its place. Its text is kept where its kind does not fix it: the
digits of a number as they stand in the formula, a name as it stands, and of a string what stands
between its quotes. So a number keeps its decimal comma, and whether it has a value is found out
when it is evaluated. A kind is what a token is without its text as well; errors name kinds, by
`Token.Kind.display`.

The symbols are the operators and the punctuation, with no mark for what they do: the same minus
stands before an operand and between two, and the same parentheses stand around an expression and
around arguments. The expression has the signs and the operators apart.

How tokens are read is said in `SheetFormula.Token.Lexer`, and which lists of them make up a
formula in `SheetFormula.Proofs.Grammar`.
-/

namespace SheetFormula

/-- The operators and the punctuation of formulas. -/
inductive Symbol where
  | leftParen
  | rightParen
  | semicolon
  | plus
  | minus
  | star
  | slash
  | caret
  | equal
  | less
  | greater
  | lessEqual
  | greaterEqual
  deriving DecidableEq

/-- The characters of a symbol. -/
def Symbol.text : Symbol → String
  | .leftParen => "("
  | .rightParen => ")"
  | .semicolon => ";"
  | .plus => "+"
  | .minus => "-"
  | .star => "*"
  | .slash => "/"
  | .caret => "^"
  | .equal => "="
  | .less => "<"
  | .greater => ">"
  | .lessEqual => "<="
  | .greaterEqual => ">="

/-- What a token is, with its text where its kind does not fix it. The text of a string is what
stands between its quotes. -/
inductive Lexeme where
  | endOfInput
  | symbol (s : Symbol)
  | number (text : String)
  | string (text : String)
  | identifier (name : String)
  deriving DecidableEq

/-- A lexeme and its place in the input, counted in characters from one. -/
structure Token where
  lexeme : Lexeme
  position : Nat
  deriving DecidableEq

/-- What a token is, without its text. -/
inductive Token.Kind where
  | endOfInput
  | symbol (s : Symbol)
  | number
  | string
  | identifier
  deriving DecidableEq

/-- The kind of a lexeme. -/
def Lexeme.kind : Lexeme → Token.Kind
  | .endOfInput => .endOfInput
  | .symbol s => .symbol s
  | .number _ => .number
  | .string _ => .string
  | .identifier _ => .identifier

namespace Token

/-- The name of a kind in messages. -/
def Kind.display : Kind → String
  | .endOfInput => "end of input"
  | .symbol s => "'" ++ s.text ++ "'"
  | .number => "number"
  | .string => "string"
  | .identifier => "identifier"

/-- The kind of a token. -/
def kind (t : Token) : Kind :=
  t.lexeme.kind

/-- The end of the input at `position`. -/
def ending (position : Nat) : Token :=
  ⟨.endOfInput, position⟩

end Token

end SheetFormula
