import SheetFormula.Token
import SheetFormula.Value

/-!
# Errors

Everything that can go wrong with a formula, each cause with what its message needs. Positions are
places in the text of the formula, counted in characters from one.

A cause belongs to a stage of the work (`Error.stage`): characters that make up no token, tokens
that make up no expression, and everything that comes later. The limit of nesting is a matter of
resources, so it belongs to the last stage even where the parser meets it. Which stage fails with
what is said in `SheetFormula.Proofs.Stages`.

Most causes name a place (`Error.position?`); what a host function reports and what is wrong with
JSON have none. That the place is one of the text, and that what else the error names stands there,
is said in `SheetFormula.Proofs.ErrorPlaces`.

`Error.message` is the text of an error. Nothing decides by it: causes are compared as data, and
the theorems on places, stages and limits speak of causes.
-/

namespace SheetFormula

/-- Why a formula has no value. -/
inductive Error where
  /-- No token begins with `c`. -/
  | unexpectedChar (c : Char) (position : Nat)
  /-- A run of comparison signs is no operator. -/
  | invalidComparison (run : String) (position : Nat)
  /-- A token cannot stand where it does. -/
  | unexpectedToken (expected : String) (found : Token.Kind) (position : Nat)
  | unknownVariable (name : String) (position : Nat)
  | unknownFunction (name : String) (position : Nat)
  /-- An operand is of a kind the operator does not take. -/
  | typeMismatch (operator : String) (expected : String) (found : Value.Kind) (position : Nat)
  | divisionByZero (position : Nat)
  /-- A number literal has no value. -/
  | invalidNumber (text : String) (position : Nat)
  /-- More levels are nested in each other than `limit`. -/
  | nestingTooDeep (limit : Nat) (position : Nat)
  /-- A function refused its arguments. -/
  | function (message : String)
  /-- A text gives no variables. -/
  | json (message : String)
  deriving DecidableEq

namespace Error

/-- The stage of the work at which an error arises. -/
inductive Stage where
  | lexical
  | syntactic
  | runtime
  deriving DecidableEq

/-- The stage an error belongs to. Too deep nesting is a matter of resources, so it counts as a
runtime error even where it is found while parsing. -/
def stage : Error → Stage
  | .unexpectedChar .. | .invalidComparison .. => .lexical
  | .unexpectedToken .. => .syntactic
  | _ => .runtime

/-- The place in the formula that an error names, if it names one. -/
def position? : Error → Option Nat
  | .unexpectedChar _ position | .invalidComparison _ position | .unexpectedToken _ _ position
  | .unknownVariable _ position | .unknownFunction _ position | .typeMismatch _ _ _ position
  | .divisionByZero position | .invalidNumber _ position | .nestingTooDeep _ position =>
    some position
  | .function _ | .json _ => none

/-- The text of an error. -/
def message : Error → String
  | .unexpectedChar c position =>
    "unexpected character '" ++ c.toString ++ "' at position " ++ toString position
  | .invalidComparison run position =>
    "unknown comparison '" ++ run ++ "' at position " ++ toString position
  | .unexpectedToken expected found position =>
    "invalid syntax at position " ++ toString position ++
      " (expected " ++ expected ++ ", got " ++ found.display ++ ")"
  | .unknownVariable name position =>
    "variable '" ++ name ++ "' not found at position " ++ toString position
  | .unknownFunction name position =>
    "function '" ++ name ++ "' not found at position " ++ toString position
  | .typeMismatch operator expected found position =>
    "operator '" ++ operator ++ "' expected " ++ expected ++ ", got " ++ found.name ++
      " at position " ++ toString position
  | .divisionByZero position => "division by zero at position " ++ toString position
  | .invalidNumber text position =>
    "invalid number '" ++ text ++ "' at position " ++ toString position
  | .nestingTooDeep limit position =>
    "expression nested deeper than " ++ toString limit ++ " levels at position " ++
      toString position
  | .function message => message
  | .json message => "invalid JSON variables: " ++ message

end Error

end SheetFormula
