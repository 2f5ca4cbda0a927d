import SheetFormula.Number.Binary

/-!
# The shortest decimal that reads back

A double stands for every real number that rounds to it: those up to half way to its neighbours,
the half-way points included if its significand is even. Among the decimals in that interval the
shortest are those on the coarsest grid of multiples of a power of ten that meets it, and of them
the one nearest to the double is taken. On any grid only the two points beside the double have to
be tried, since one of them lies in the interval whenever some point does.

Everything is in whole numbers. The double, the ends of its interval and the step of the grid are
brought to one unit (`Magnitude.grid`), so small that the half-way points are whole as well. The
grids are tried from that of one digit on, one digit more at a time (`Magnitude.shortest`), and
seventeen digits always suffice.

That the digits are well formed, and that no decimal is larger than the interval allows, is in
`SheetFormula.Proofs.Number.Shortest`.
-/

namespace SheetFormula.Number

/-- A positive decimal `0.d₁d₂…dₙ · 10 ^ point`, or zero as the single digit `0`. -/
structure Decimal where
  /-- The digits, without zeros at the end. -/
  digits : List Char
  /-- The place of the decimal point, counted from before the first digit. -/
  point : Int
  deriving DecidableEq

/-- Which of two equally near decimals is taken. -/
inductive Tie where
  | toEven
  | away
  deriving DecidableEq

/-- A double among the multiples of `step`, all in one unit: the double itself and the ends of
the interval that rounds to it. -/
structure Grid where
  value : Nat
  low : Nat
  high : Nat
  step : Nat
  /-- Whether the ends of the interval belong to it. -/
  closed : Bool

namespace Grid

/-- Whether the multiple `c` of the step reads back as the double. -/
def holds (g : Grid) (c : Nat) : Bool :=
  if g.closed then g.low ≤ c * g.step && c * g.step ≤ g.high
  else g.low < c * g.step && c * g.step < g.high

/-- The multiple next to the double that reads back, the nearer one if both do. -/
def nearest? (g : Grid) (tie : Tie) : Option Nat :=
  let below := g.value / g.step
  let above := below + 1
  match g.holds below, g.holds above with
  | false, false => none
  | true, false => some below
  | false, true => some above
  | true, true =>
    match compare (g.value - below * g.step) (above * g.step - g.value), tie with
    | .lt, _ => some below
    | .gt, _ => some above
    | .eq, .away => some above
    | .eq, .toEven => some (if below % 2 = 0 then below else above)

end Grid

namespace Magnitude

/-- The double as a fraction of whole numbers, in quarters of the weight of its last binary
digit, so that the half-way points to its neighbours are whole as well. -/
def quarter (m : Magnitude) : Nat × Nat :=
  (Nat.pow 2 (m.exponent - 2).toNat, Nat.pow 2 (2 - m.exponent).toNat)

/-- The double among the multiples of `10 ^ power`. -/
def grid (m : Magnitude) (power : Int) : Grid :=
  let unit := m.quarter.1 * Nat.pow 10 (-power).toNat
  let value := 4 * m.significand
  { value := value * unit
    low := (value - if m.closerBelow then 1 else 2) * unit
    high := (value + 2) * unit
    step := m.quarter.2 * Nat.pow 10 power.toNat
    closed := m.significand % 2 == 0 }

/-- Whether the double is at least `10 ^ power`. -/
def reaches (m : Magnitude) (power : Int) : Bool :=
  let g := m.grid power
  g.step ≤ g.value

/-- The number of digits before the decimal point, negative for zeros after it. The binary length
gives it up to one, and a comparison decides. -/
def decimalOrder (m : Magnitude) : Int :=
  let estimate := (m.significand.log2 + m.exponent) * 30103 / 100000
  if m.reaches (estimate + 1) then estimate + 2 else estimate + 1

/-- The decimal `c · 10 ^ power`. -/
def decimalOf (c : Nat) (power : Int) : Decimal :=
  let digits := Nat.toDigits 10 c
  ⟨(digits.reverse.dropWhile (· == '0')).reverse, power + digits.length⟩

/-- The shortest decimal that reads back as the double, the nearest one of that length. Seventeen
digits always suffice. -/
def shortest (m : Magnitude) (tie : Tie) : Decimal :=
  if m.significand = 0 then ⟨['0'], 1⟩
  else
    let order := m.decimalOrder
    let found := (List.range 17).findSome? fun (n : Nat) =>
      let power := order - (n + 1)
      ((m.grid power).nearest? tie).map (decimalOf · power)
    found.getD ⟨['0'], 1⟩

end Magnitude

end SheetFormula.Number
