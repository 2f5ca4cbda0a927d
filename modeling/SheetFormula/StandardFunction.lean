import SheetFormula.Bindings
import SheetFormula.Number.Numeral

/-!
# The standard functions

Ten functions over numbers and booleans that bindings can be given. Each checks the number and the
kinds of its arguments itself, and says in its error what it expects and what it got.

`And`, `Or` and `Ifs` look at their conditions in order, up to the first one that decides, and do
not check what comes after it: `and`, `or` and `firstTrue` are recursions over the arguments that
stop there. What decides, and what follows from it, is said in
`SheetFormula.Proofs.StandardFunction.Deciding`.

`Sum` and `Mean` add from left to right, beginning with the zero that changes no number it is added
to, which is the negative one (`total`). So the sum of no numbers is that zero, and a sum begins
with its first number just as a formula of pluses does; see
`SheetFormula.Proofs.StandardFunction.Totals`. `Min` and `Max` pass over what is not a number.
-/

namespace SheetFormula

namespace StandardFunction

/-- The number that an argument is. -/
def number (v : Value) : Except Error Float :=
  match v with
  | .number x => .ok x
  | v => .error (.function ("expected number, got " ++ v.kind.name))

/-- The boolean that an argument is. -/
def boolean (v : Value) : Except Error Bool :=
  match v with
  | .boolean b => .ok b
  | v => .error (.function ("expected boolean, got " ++ v.kind.name))

/-- The numbers that all arguments are. -/
def numbers (arguments : List Value) : Except Error (List Float) :=
  arguments.mapM number

/-- The sum from left to right; the sum of no numbers is the zero that changes no number it is
added to, which is the negative one. -/
def total (xs : List Float) : Float :=
  xs.foldl (· + ·) (-0.0)

/-- The smaller of two numbers; one that is not a number gives way to the other. -/
def lesser (x y : Float) : Float :=
  if x.isNaN then y else if y < x then y else x

/-- The larger of two numbers; one that is not a number gives way to the other. -/
def greater (x y : Float) : Float :=
  if x.isNaN then y else if x < y then y else x

/-- The error of a function that was called without arguments and needs some. -/
def noArguments (name atLeast : String) : Error :=
  .function (name ++ " expects " ++ atLeast ++ " or more args, got 0")

/-- The sum of the arguments. -/
def sum (arguments : List Value) : Except Error Value := do
  .ok (.number (total (← numbers arguments)))

/-- The number of arguments, whatever they are. -/
def len (arguments : List Value) : Except Error Value :=
  .ok (.number (Float.ofNat arguments.length))

/-- The sum of the arguments divided by their number. -/
def mean (arguments : List Value) : Except Error Value :=
  if arguments.isEmpty then .error (noArguments "Mean" "1")
  else do
    let xs ← numbers arguments
    .ok (.number (total xs / Float.ofNat xs.length))

/-- The smallest of the arguments. -/
def min (arguments : List Value) : Except Error Value :=
  if arguments.isEmpty then .error (noArguments "Min" "1")
  else do .ok (.number ((← numbers arguments).foldl lesser Number.infinity))

/-- The largest of the arguments. -/
def max (arguments : List Value) : Except Error Value :=
  if arguments.isEmpty then .error (noArguments "Max" "1")
  else do .ok (.number ((← numbers arguments).foldl greater (-Number.infinity)))

/-- Whether all arguments are true, decided at the first that is not. -/
def and : List Value → Except Error Value
  | [] => .ok (.boolean true)
  | v :: others => do if ← boolean v then and others else .ok (.boolean false)

/-- Whether some argument is true, decided at the first that is. -/
def or : List Value → Except Error Value
  | [] => .ok (.boolean false)
  | v :: others => do if ← boolean v then .ok (.boolean true) else or others

/-- The second argument if the first is true, and the third if it is false. -/
def choose : List Value → Except Error Value
  | [condition, yes, no] => do .ok (if ← boolean condition then yes else no)
  | arguments => .error (.function ("If expects 3 args, got " ++ toString arguments.length))

/-- The value after the first true condition among pairs of a condition and a value. -/
def firstTrue : List Value → Except Error Value
  | condition :: value :: others => do if ← boolean condition then .ok value else firstTrue others
  | _ => .error (.function "Ifs: none of the conditions is true")

/-- The value after the first true condition, if the arguments are pairs of a condition and a
value. -/
def chooseAmong (arguments : List Value) : Except Error Value :=
  if arguments.isEmpty then .error (noArguments "Ifs" "2")
  else if arguments.length % 2 ≠ 0 then
    .error (.function ("Ifs expects an even number of args, got " ++ toString arguments.length))
  else firstTrue arguments

/-- `x` rounded to `precision` places after the decimal point, a half away from zero. -/
def roundTo (x precision : Float) : Except Error Value :=
  if precision < 0 then
    let shown := (Value.number precision).display
    .error (.function ("Round precision should be >= 0, got " ++ shown))
  else
    let factor := (10 : Float).pow precision
    .ok (.number ((x * factor).round / factor))

/-- The first argument rounded to as many places as the second says, or to a whole number. -/
def round : List Value → Except Error Value
  | [v] => do roundTo (← number v) 0
  | [v, places] => do
    let x ← number v
    roundTo x (← number places)
  | arguments =>
    .error (.function ("Round expects 1 or 2 args, got " ++ toString arguments.length))

/-- The standard functions with their names. -/
def all : List (String × (List Value → Except Error Value)) :=
  [("Sum", sum), ("Len", len), ("Mean", mean), ("Min", min), ("Max", max), ("And", and),
    ("Or", or), ("If", choose), ("Ifs", chooseAmong), ("Round", round)]

/-- The standard function of a name. -/
def ofName? (name : String) : Option (List Value → Except Error Value) :=
  all.lookup name

end StandardFunction

/-- Let the names of the standard functions stand for them. -/
def Bindings.addStandard {σ : Type} (b : Bindings σ) : Bindings σ :=
  StandardFunction.all.foldl (fun b entry => b.setFunction entry.1 (.ofPure entry.2)) b

end SheetFormula
