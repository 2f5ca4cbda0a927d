import SheetFormula.Number.Shortest

/-!
# Number text

The text of a double is its shortest decimal in a `Layout`, which says when an exponent is written,
how whole numbers end and what stands for the values that are not finite.

The layouts differ in nothing else. `Value.numberLayout` shows results, `Value.jsonNumberLayout`
writes JSON, and `Summary.numberLayout` is for people who look at bindings. The digits are chosen
in `SheetFormula.Number.Shortest` before any layout is looked at; of two equally near decimals the
layout says which is taken (`Tie`).

Setting out the digits adds zeros and a point, or an exponent, and changes nothing about the
number. For the layout of JSON this is `Json.magnitudeValue_decimalNumber`, together with
`Json.text_decimalNumber`, which says that the text is a number of that format.
-/

namespace SheetFormula.Number

/-- How the digits of a number are set out. -/
structure Layout where
  /-- Which of two equally near decimals is shown. -/
  tie : Tie
  /-- Whether a number whose first digit has the weight `10 ^ n` is written without exponent. -/
  positional : Int → Bool
  /-- What follows a whole number that is written without exponent. -/
  wholeEnd : String
  /-- The sign of an exponent that is not negative. -/
  exponentSign : String
  nan : String
  infinity : String
  negativeInfinity : String

namespace Layout

/-- The digits with the decimal point among them, filled up with zeros as far as it. -/
def positionalText (layout : Layout) (d : Decimal) : String :=
  if d.point ≤ 0 then
    "0." ++ String.ofList (List.replicate (-d.point).toNat '0' ++ d.digits)
  else if d.digits.length ≤ d.point then
    String.ofList (d.digits ++ List.replicate (d.point.toNat - d.digits.length) '0') ++
      layout.wholeEnd
  else
    String.ofList (d.digits.take d.point.toNat) ++ "." ++
      String.ofList (d.digits.drop d.point.toNat)

/-- The first digit, the others after a decimal point, and the exponent. -/
def exponentText (layout : Layout) (d : Decimal) : String :=
  let others := d.digits.drop 1
  let exponent := d.point - 1
  String.ofList (d.digits.take 1) ++
    (if others.isEmpty then "" else "." ++ String.ofList others) ++ "e" ++
    (if exponent < 0 then "-" else layout.exponentSign) ++ toString exponent.natAbs

/-- The text of a positive decimal. -/
def decimalText (layout : Layout) (d : Decimal) : String :=
  if layout.positional (d.point - 1) then layout.positionalText d else layout.exponentText d

/-- The text of `x`. -/
def text (layout : Layout) (x : Float) : String :=
  match Binary.ofFloat x with
  | .nan => layout.nan
  | .infinite false => layout.infinity
  | .infinite true => layout.negativeInfinity
  | .finite negative m =>
    (if negative then "-" else "") ++ layout.decimalText (m.shortest layout.tie)

end Layout

end SheetFormula.Number
