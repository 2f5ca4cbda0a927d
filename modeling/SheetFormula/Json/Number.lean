import SheetFormula.Number.Numeral

/-!
# Numbers in JSON

A JSON number is a whole part without needless zeros, then optionally a point with digits and an
exponent. A number beyond the range of doubles is refused, and one that is too small becomes zero.

Its double is computed quickly rather than to the nearest. As many leading digits as fit into
sixty-four bits give a whole number (`absorb`), the others only move the decimal point, and one
power of ten scales the result (`scale?`); where one power is not enough because it would not be a
double, the number is divided in steps (`shrink`). So a number that is written from a double need
not be read as the same double.

Each part of a number has a function that reads it from the beginning of a text and gives what
follows it (`fractionPart?`, `exponentPart?`, `readMagnitude?`). A part that may be missing is read
as nothing, and one that has begun and lacks its digits refuses the number.

What can be relied on is said in `SheetFormula.Proofs.Json.Numbers` and
`SheetFormula.Proofs.Json.Range`: which texts are numbers, and that what is written for a finite
double is never refused.
-/

namespace SheetFormula.Json

/-- The largest significand that is kept exactly. -/
def significandLimit : Nat := 0xFFFFFFFFFFFFFFFF

/-- Take digits into `significand` as long as it stays within the limit, and give the digits that
are left over from the first one that does not fit. -/
def absorb (significand : Nat) : List Char → Nat × List Char
  | [] => (significand, [])
  | d :: digits =>
    let longer := 10 * significand + (d.toNat - '0'.toNat)
    if longer ≤ significandLimit then absorb longer digits else (significand, d :: digits)

/-- The double `10 ^ n`. -/
def powerOfTen (n : Nat) : Float :=
  Float.ofScientific 1 false n

/-- `x` divided by `10 ^ n`, in steps of the largest power of ten that is a double. -/
def shrink (x : Float) (n : Nat) : Float :=
  if n ≤ 308 then x / powerOfTen n
  else if x == 0 then x
  else shrink (x / powerOfTen 308) (n - 308)
termination_by n

/-- The double for `significand · 10 ^ exponent`, none if it is too large. -/
def scale? (significand : Nat) (exponent : Int) : Option Float :=
  let x := Float.ofNat significand
  if exponent < 0 then some (shrink x exponent.natAbs)
  else if 308 < exponent then if x == 0 then some x else none
  else
    let y := x * powerOfTen exponent.natAbs
    if y.isInf then none else some y

/-- The digits after a decimal point at the beginning of a text, none of them if there is no
point, and what follows them; none at all if a point has no digits after it. -/
def fractionPart? : List Char → Option (List Char × List Char)
  | '.' :: text =>
    if (text.takeWhile Char.isDigit).isEmpty then none
    else some (text.takeWhile Char.isDigit, text.dropWhile Char.isDigit)
  | text => some ([], text)

/-- The exponent at the beginning of a text, zero if there is none, and what follows it; none at
all if an exponent has no digits. -/
def exponentPart? (text : List Char) : Option (Int × List Char) :=
  match text with
  | mark :: after =>
    if mark = 'e' ∨ mark = 'E' then
      let (negative, rest) := Number.splitSign after
      let digits := rest.takeWhile Char.isDigit
      let size : Int := Number.wholeNumber 0 digits
      if digits.isEmpty then none
      else some (if negative then -size else size, rest.dropWhile Char.isDigit)
    else some (0, text)
  | [] => some (0, [])

/-- The number without a sign at the beginning of a text, and what follows it. -/
def readMagnitude? (text : List Char) : Option (Float × List Char) := do
  let whole := text.takeWhile Char.isDigit
  if whole.isEmpty ∨ (whole.head? = some '0' ∧ whole ≠ ['0']) then none
  else
    let (fraction, afterFraction) ← fractionPart? (text.dropWhile Char.isDigit)
    let (exponent, rest) ← exponentPart? afterFraction
    let (leading, dropped) := absorb 0 whole
    let (significand, ignored) := absorb leading fraction
    let point : Int := dropped.length - (fraction.length - ignored.length : Nat)
    let x ← scale? significand (point + exponent)
    some (x, rest)

/-- The number at the beginning of a text, and what follows it. -/
def readNumber? : List Char → Option (Float × List Char)
  | '-' :: text => (readMagnitude? text).map fun (x, rest) => (-x, rest)
  | text => readMagnitude? text

end SheetFormula.Json
