import SheetFormula.Number.Numeral
import SheetFormula.Value

/-!
# Assignments on the command line

An argument `NAME=VALUE` gives a variable its value. The name ends at the first equals sign and
must not be empty; what stands behind the sign may hold others.

Text between quotes of one kind is a string as it stands, so every string can be written. The words
`true` and `false` in any case are booleans, plain decimal numbers with either decimal separator
are numbers, and all other text is a string (`Assignment.value`). The rules are tried in this
order.

The last rule but one reads only what `isPlainNumber` has accepted, which is never refused: the
words and exponents that numbers can also be written with are strings here. This and what else the
rules mean is proved in `SheetFormula.Proofs.CommandLine.Assignments`.
-/

namespace SheetFormula

namespace Assignment

/-- Whether `text` is a number without exponent: an optional sign, digits, and optionally one
decimal separator with digits after it. -/
def isPlainNumber (text : List Char) : Bool :=
  let size := (Number.splitSign text).2
  let whole := size.takeWhile Char.isDigit
  !whole.isEmpty &&
    match size.dropWhile Char.isDigit with
    | [] => true
    | mark :: fraction =>
      (mark == '.' || mark == ',') && !fraction.isEmpty && fraction.all Char.isDigit

/-- The text between the quotes that `text` begins and ends with. -/
def unquote? (text : List Char) : Option (List Char) :=
  match text with
  | first :: rest =>
    if (first = '"' ∨ first = '\'') ∧ rest.getLast? = some first then some rest.dropLast else none
  | [] => none

/-- The boolean that a word is. No letters but those of ASCII have these in lower case. -/
def boolean? (text : List Char) : Option Bool :=
  match String.ofList (text.map Char.toLower) with
  | "true" => some true
  | "false" => some false
  | _ => none

/-- The value that `text` writes. -/
def value (text : List Char) : Value :=
  match unquote? text with
  | some inner => .string (String.ofList inner)
  | none =>
    match boolean? text with
    | some b => .boolean b
    | none =>
      match if isPlainNumber text then Number.readComma? text else none with
      | some x => .number x
      | none => .string (String.ofList text)

/-- The name and the value that `text` assigns, or what is wrong with it. -/
def read (text : String) : Except String (String × Value) :=
  let name := text.toList.takeWhile (· != '=')
  match text.toList.dropWhile (· != '=') with
  | [] => .error ("invalid variable assignment '" ++ text ++ "', use NAME=VALUE")
  | _ :: rest =>
    if name.isEmpty then .error ("missing variable name in '" ++ text ++ "'")
    else .ok (String.ofList name, value rest)

end Assignment

end SheetFormula
