import Std.Data.TreeMap.Basic
import SheetFormula.Error
import SheetFormula.Json.Tree

/-!
# Values as JSON

A value is written as a JSON value of its kind; a number that is not finite has no JSON form and
becomes `null` (`Value.jsonText`).

Variables are read from a JSON object whose members are numbers, strings and booleans
(`Json.readVariables`). Of members with one name only the last counts, and they count in the order
of their names (`Json.finalMembers`); of several that are no values the error names the first in
that order.

A text that is not JSON is refused in words that say what is wrong with it and where. They are
those of whoever reads JSON, and no part of what is decided here: `Json.readVariables` takes them
as a function of the text, `explain`.

That a value is read back as it was written is said in `SheetFormula.Proofs.Json.RoundTrip`, and
which texts give variables in `SheetFormula.Proofs.Json.Variables`.
-/

namespace SheetFormula

namespace Value

/-- Numbers are written with a decimal point or an exponent, without an exponent if the first
digit has a weight from `10 ^ -5` to `10 ^ 15`. -/
def jsonNumberLayout : Number.Layout where
  tie := .toEven
  positional := fun n => -5 ≤ n && n ≤ 15
  wholeEnd := ".0"
  exponentSign := "+"
  nan := "null"
  infinity := "null"
  negativeInfinity := "null"

example : jsonNumberLayout.text 100000 = "100000.0" := by decide +kernel

example : jsonNumberLayout.text 1e16 = "1e+16" := by decide +kernel

example : jsonNumberLayout.text 1.5e-6 = "1.5e-6" := by decide +kernel

/-- The JSON text of a value. -/
def jsonText : Value → String
  | .number x => jsonNumberLayout.text x
  | .string s => Json.quote s
  | .boolean b => booleanText b

/-- The value that the member `name` of an object has. -/
def ofMember (name : String) : Json → Except Error Value
  | .boolean b => .ok (.boolean b)
  | .string s => .ok (.string s)
  | .number x => .ok (.number x)
  | .null => .error (.json ("'" ++ name ++ "' is null"))
  | .array _ | .object _ =>
    .error (.json ("'" ++ name ++ "' must be a number, string or boolean"))

end Value

namespace Json

/-- The members of an object that count, in the order of their names. -/
def finalMembers (members : List (String × Json)) : List (String × Json) :=
  (members.foldl (fun final member => final.insert member.1 member.2)
    (∅ : Std.TreeMap String Json)).toList

/-- The variables that a JSON text gives, in the order of their names. A text that is not JSON is
refused in the words of `explain`. -/
def readVariables (explain : String → String) (text : String) :
    Except Error (List (String × Value)) :=
  match ofString? text with
  | none => .error (.json (explain text))
  | some (.object members) =>
    (finalMembers members).mapM fun (name, value) => do
      .ok (name, ← Value.ofMember name value)
  | some _ => .error (.json "JSON must be an object with key-value pairs")

end Json

end SheetFormula
