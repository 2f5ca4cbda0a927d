import SheetFormula.Number.Layout

/-!
# Values

A formula computes with numbers, which are doubles, with strings and with booleans. Two values are
equal if they are of one kind and equal there, so that a number that is not a number differs from
itself (`Value.equal`).

No kind is ever turned into another. A value can be asked for the number, the string or the boolean
that it is, and answers for its own kind only (`asNumber?`, `asString?`, `asBoolean?`).

`Value.display` is the text that a value is shown as. It does not tell the kind: a string stands
without quotes, a boolean is a word. A number is set out by `numberLayout`, without an exponent
whatever its size and in the fewest digits that are read back as the same double. What values are
in JSON is said in `SheetFormula.Value.Json`, where the layout is another one.
-/

namespace SheetFormula

/-- What a formula computes with. -/
inductive Value where
  | number (x : Float)
  | string (s : String)
  | boolean (b : Bool)

namespace Value

/-- The kinds of values. -/
inductive Kind where
  | number
  | string
  | boolean
  deriving DecidableEq

/-- The name of a kind in messages. -/
def Kind.name : Kind → String
  | .number => "number"
  | .string => "string"
  | .boolean => "boolean"

/-- The kind of a value. -/
def kind : Value → Kind
  | .number _ => .number
  | .string _ => .string
  | .boolean _ => .boolean

/-- The number that a value is, if it is one. -/
def asNumber? : Value → Option Float
  | .number x => some x
  | _ => none

/-- The string that a value is, if it is one. -/
def asString? : Value → Option String
  | .string s => some s
  | _ => none

/-- The boolean that a value is, if it is one. -/
def asBoolean? : Value → Option Bool
  | .boolean b => some b
  | _ => none

/-- Equality within one kind; values of two kinds are never equal. -/
def equal : Value → Value → Bool
  | .number x, .number y => x == y
  | .string s, .string t => s == t
  | .boolean a, .boolean b => a == b
  | _, _ => false

instance : BEq Value := ⟨equal⟩

/-- Numbers are shown without an exponent whatever their size, and whole numbers without a
decimal point; of two equally near decimals the larger one is shown. -/
def numberLayout : Number.Layout where
  tie := .away
  positional := fun _ => true
  wholeEnd := ""
  exponentSign := ""
  nan := "NaN"
  infinity := "inf"
  negativeInfinity := "-inf"

example : numberLayout.text 1e21 = "1000000000000000000000" := by decide +kernel

example : numberLayout.text (-0.1) = "-0.1" := by decide +kernel

example : numberLayout.text 1125899906842624.25 = "1125899906842624.3" := by decide +kernel

/-- The text of a boolean. -/
def booleanText (b : Bool) : String :=
  if b then "true" else "false"

/-- The text a value is shown as; a string is shown without quotes. -/
def display : Value → String
  | .number x => numberLayout.text x
  | .string s => s
  | .boolean b => booleanText b

end Value

end SheetFormula
