import SheetFormula.Bindings
import SheetFormula.Unicode.Printable

/-!
# Bindings on one line

A summary of bindings for people: the variables with their values and the names of the functions,
both in the order of names. What the functions do is not shown.

Texts are quoted so that every character can be told. A character that has no shape of its own, or
that joins the one before it, is shown by its code, and so are the quote, the backslash and the
usual controls by their short forms. Which characters these are is a matter of the version of
Unicode that `SheetFormula.Unicode.Printable` names.

Numbers always show a decimal point or an exponent, so that a number and a string of digits look
different even without the name of the kind before them. The exponent begins where the text would
otherwise be long: beyond sixteen digits before the point, and with four zeros or more behind it.
-/

namespace SheetFormula

namespace Summary

/-- The hexadecimal code of a character, in braces. -/
def codeText (c : Char) : String :=
  "\\u\x7b" ++ String.ofList (Nat.toDigits 16 c.toNat) ++ "\x7d"

/-- A character as it is shown between quotes. -/
def characterText (c : Char) : String :=
  match c with
  | '\x00' => "\\0"
  | '\t' => "\\t"
  | '\r' => "\\r"
  | '\n' => "\\n"
  | '"' => "\\\""
  | '\\' => "\\\\"
  | c =>
    if Unicode.extendsGrapheme c || !Unicode.isPrintable c then codeText c else c.toString

/-- A text between quotes. -/
def quoted (s : String) : String :=
  "\"" ++ String.join (s.toList.map characterText) ++ "\""

/-- Numbers show an exponent if they are smaller than `10 ^ -4` or not smaller than `10 ^ 16`. -/
def numberLayout : Number.Layout where
  tie := .away
  positional := fun n => -4 ≤ n && n < 16
  wholeEnd := ".0"
  exponentSign := ""
  nan := "NaN"
  infinity := "inf"
  negativeInfinity := "-inf"

example : numberLayout.text 1e15 = "1000000000000000.0" := by decide +kernel

example : numberLayout.text 1e16 = "1e16" := by decide +kernel

example : numberLayout.text 0.00001 = "1e-5" := by decide +kernel

/-- A value with its kind. -/
def valueText : Value → String
  | .number x => "Number(" ++ numberLayout.text x ++ ")"
  | .string s => "String(" ++ quoted s ++ ")"
  | .boolean b => "Boolean(" ++ Value.booleanText b ++ ")"

/-- A variable with its value. -/
def entryText (entry : String × Value) : String :=
  quoted entry.1 ++ ": " ++ valueText entry.2

end Summary

/-- The variables and the functions of bindings on one line. -/
def Bindings.summary {σ : Type} (b : Bindings σ) : String :=
  "Environment \x7b variables: \x7b" ++
    ", ".intercalate (b.variableEntries.map Summary.entryText) ++ "\x7d, functions: [" ++
    ", ".intercalate (b.functionNames.map Summary.quoted) ++ "] \x7d"

end SheetFormula
