/-!
# Reading decimal numbers

A number is an optional sign and then either one of the words `inf`, `infinity` and `nan`, in any
case, or a decimal numeral: digits with at most one decimal point among them, at least one digit in
all, and an optional exponent. Its value is the double nearest to the numeral, a half going to the
even neighbour.

Reading has two halves. `Numeral.ofChars?` takes a text apart into a whole number and a power of
ten, which is exact; `Numeral.toFloat` rounds that once. Exponents far outside the range of doubles
are decided before any power is computed, so a short text is never slow to read.

A comma may stand for the decimal point where formulas are concerned (`readComma?`). What can be
read there is said in `SheetFormula.Proofs.Number.PlainNumbers`, and that no numeral is read as NaN
in `SheetFormula.Proofs.Number.NaN`.
-/

namespace SheetFormula.Number

/-- The number greater than all others. -/
def infinity : Float := 1 / 0

/-- The double that stands for no number. -/
def notANumber : Float := 0 / 0

/-- A decimal numeral without sign, `significand · 10 ^ exponent`. -/
structure Numeral where
  significand : Nat
  exponent : Int
  deriving DecidableEq

/-- The whole number that `digits` writes after `start`. -/
def wholeNumber (start : Nat) (digits : List Char) : Nat :=
  digits.foldl (fun n d => 10 * n + (d.toNat - '0'.toNat)) start

/-- An optional sign, true for a minus, and what follows it. -/
def splitSign : List Char → Bool × List Char
  | '-' :: text => (true, text)
  | '+' :: text => (false, text)
  | text => (false, text)

/-- The exponent at the end of a numeral, zero if there is none. -/
def exponentPart? : List Char → Option Int
  | [] => some 0
  | mark :: text =>
    let (negative, digits) := splitSign text
    if (mark = 'e' ∨ mark = 'E') ∧ digits ≠ [] ∧ digits.all Char.isDigit then
      let size : Int := wholeNumber 0 digits
      some (if negative then -size else size)
    else none

namespace Numeral

/-- The numeral written by `text`. -/
def ofChars? (text : List Char) : Option Numeral :=
  let whole := text.takeWhile Char.isDigit
  let afterWhole := text.dropWhile Char.isDigit
  let (fraction, afterFraction) :=
    match afterWhole with
    | '.' :: rest => (rest.takeWhile Char.isDigit, rest.dropWhile Char.isDigit)
    | rest => ([], rest)
  if whole = [] ∧ fraction = [] then none
  else
    (exponentPart? afterFraction).map fun exponent =>
      ⟨wholeNumber 0 (whole ++ fraction), exponent - fraction.length⟩

/-- The double nearest to the numeral. Exponents far outside the range of doubles are decided
without computing the power of ten. -/
def toFloat (n : Numeral) : Float :=
  if n.significand = 0 then 0
  else if 400 < n.exponent then infinity
  else if n.exponent + n.significand.log2 < -400 then 0
  else Float.ofScientific n.significand (n.exponent < 0) n.exponent.natAbs

end Numeral

/-- The double for a word that stands for a number. -/
def word? (text : List Char) : Option Float :=
  match String.ofList (text.map Char.toLower) with
  | "inf" | "infinity" => some infinity
  | "nan" => some notANumber
  | _ => none

/-- The double written by `text`. -/
def read? (text : List Char) : Option Float :=
  let (negative, size) := splitSign text
  let magnitude := (word? size).or ((Numeral.ofChars? size).map Numeral.toFloat)
  magnitude.map fun x => if negative then -x else x

/-- The double written by `text` with a comma for the decimal point. -/
def readComma? (text : List Char) : Option Float :=
  read? (text.map fun c => if c = ',' then '.' else c)

end SheetFormula.Number
