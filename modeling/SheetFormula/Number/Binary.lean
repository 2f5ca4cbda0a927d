/-!
# The parts of a double

A double is taken apart into its sign and its magnitude `significand · 2 ^ exponent`, in exact
integers, so that decimal text can be chosen by integer comparisons alone.

`Binary.ofBits` reads the parts off the bit pattern. Below the doubles with a leading one come
those with exponent zero, and at every power of two the spacing changes: there the next smaller
double is half as far away as the next larger one, which matters for the decimals that read back as
the double (`Magnitude.closerBelow`). The least of the doubles with a leading one is no such power,
since those below it are spaced as it is.

Zero is a finite double with significand zero, with either sign. All bit patterns that stand for no
number are one here, because nothing tells them apart in a text.
-/

namespace SheetFormula.Number

/-- A finite double without its sign, `significand · 2 ^ exponent`. -/
structure Magnitude where
  /-- The binary digits of the double as a whole number. -/
  significand : Nat
  /-- The weight of the last binary digit, as a power of two. -/
  exponent : Int
  /-- Whether the next smaller double is half as far away as the next larger one, as it is at a
  power of two. -/
  closerBelow : Bool
  deriving DecidableEq

/-- A double by its parts. -/
inductive Binary where
  | nan
  | infinite (negative : Bool)
  | finite (negative : Bool) (magnitude : Magnitude)
  deriving DecidableEq

/-- The parts of the double with the bit pattern `bits`: one sign bit, eleven bits of exponent and
fifty-two of fraction. Exponent zero holds the doubles without a leading one. -/
def Binary.ofBits (bits : Nat) : Binary :=
  let negative := bits / 0x8000000000000000 % 2 == 1
  let exponent : Nat := bits / 0x10000000000000 % 2048
  let fraction := bits % 0x10000000000000
  if exponent = 2047 then
    if fraction = 0 then .infinite negative else .nan
  else if exponent = 0 then .finite negative ⟨fraction, -1074, false⟩
  else
    let closerBelow := fraction == 0 && 1 < exponent
    .finite negative ⟨0x10000000000000 + fraction, (exponent : Int) - 1075, closerBelow⟩

/-- The parts of `x`. -/
def Binary.ofFloat (x : Float) : Binary :=
  .ofBits x.toBits.toNat

end SheetFormula.Number
