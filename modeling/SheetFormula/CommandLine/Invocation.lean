import SheetFormula.CommandLine.Assignment
import SheetFormula.Expr.Parser

/-!
# Command lines

A command line holds a formula, then assignments, and options among them. Two options take a value,
in the same argument behind an equals sign or as the next argument, and none may be given twice.
Behind the argument `--` there are no options. A formula may begin with a minus: where the formula
is still to come, an argument that looks like an option and is none is not refused.

The limit of nesting comes from its option, or else from the environment, or else it is the usual
one (`chooseLimit`).

Arguments are read one after another (`Progress.step`), each by its looks (`Argument.ofString`) and
by what has been read before it. Assignments are only collected at first and checked where the next
option begins or the command line ends (`Progress.settle`), so that a wrong one is reported before
an option behind it that asks for no evaluation.

`SheetFormula.Proofs.CommandLine.Reading` says what an accepted command line asks for, without its
order of reading.
-/

namespace SheetFormula

/-- What a command line asks for. -/
structure Invocation where
  formula : String
  /-- The variables that are set, in order. -/
  assignments : List (String × Value)
  /-- The text of a JSON object with more variables. -/
  json : Option String
  /-- Whether the result is shown as a JSON object. -/
  asJson : Bool
  /-- The limit of nesting. -/
  limit : Nat

namespace Invocation

/-- Why a command line asks for no evaluation. -/
inductive Refusal where
  /-- It is wrong; for a bad assignment, `detail` says how. -/
  | usage (detail : Option String)
  /-- It asks for the help text. -/
  | help
  /-- It asks for the version. -/
  | version

/-- The options that take a value. -/
inductive Setting where
  | json
  | limit

/-- The options that take no value. -/
inductive Flag where
  | asJson
  | help
  | version

/-- The option that takes a value and has a given long name. -/
def Setting.ofName? : String → Option Setting
  | "json" => some .json
  | "max-depth" => some .limit
  | _ => none

/-- The option that takes no value and has a given long name. -/
def Flag.ofName? : String → Option Flag
  | "output-json" => some .asJson
  | "help" => some .help
  | "version" => some .version
  | _ => none

/-- The option of a given letter. -/
def Flag.ofLetter? : Char → Option Flag
  | 'h' => some .help
  | 'V' => some .version
  | _ => none

/-- An argument by its looks. -/
inductive Argument where
  /-- The mark behind which there are no options. -/
  | separator
  /-- The long name of an option, with what stands behind an equals sign. -/
  | long (name : String) (value : Option String)
  /-- The letters of options, at least one. -/
  | letters (first : Char) (others : List Char)
  | plain

/-- What `text` looks like. -/
def Argument.ofString (text : String) : Argument :=
  match text.toList with
  | ['-', '-'] => .separator
  | '-' :: '-' :: rest =>
    let name := String.ofList (rest.takeWhile (· != '='))
    match rest.dropWhile (· != '=') with
    | [] => .long name none
    | _ :: value => .long name (some (String.ofList value))
  | '-' :: first :: others => .letters first others
  | _ => .plain

/-- How far the reading of a command line has come. -/
structure Progress where
  formula : Option String
  assignments : List (String × Value)
  /-- Assignments that are not yet checked, the last first. -/
  unchecked : List String
  json : Option String
  asJson : Bool
  limit : Option Nat
  /-- The option whose value is the next argument. -/
  awaiting : Option Setting
  /-- Whether there are no more options. -/
  trailing : Bool

/-- The whole number that `text` writes, with an optional plus, if it fits into sixty-four
bits. -/
def readLimit? (text : String) : Option Nat :=
  let digits :=
    match text.toList with
    | '+' :: rest => rest
    | rest => rest
  let n := Number.wholeNumber 0 digits
  if digits ≠ [] ∧ digits.all Char.isDigit ∧ n ≤ 0xFFFFFFFFFFFFFFFF then some n else none

/-- A wrong command line. -/
def wrong {α : Type} : Except Refusal α :=
  .error (.usage none)

/-- Read an assignment. -/
def readAssignment (text : String) : Except Refusal (String × Value) :=
  match Assignment.read text with
  | .ok entry => .ok entry
  | .error detail => .error (.usage (some detail))

namespace Progress

/-- Nothing has been read. -/
def start : Progress :=
  ⟨none, [], [], none, false, none, none, false⟩

/-- Refuse an option that still lacks its value, and check the assignments read so far. -/
def settle (p : Progress) : Except Refusal Progress :=
  match p.awaiting with
  | some _ => wrong
  | none => do
    let entries ← p.unchecked.reverse.mapM readAssignment
    .ok { p with assignments := p.assignments ++ entries, unchecked := [] }

/-- Give an option its value. -/
def set (p : Progress) (setting : Setting) (value : String) : Except Refusal Progress :=
  match setting, p.json, p.limit with
  | .json, none, _ => .ok { p with json := some value, awaiting := none }
  | .limit, _, none =>
    match readLimit? value with
    | some n => .ok { p with limit := some n, awaiting := none }
    | none => wrong
  | _, _, _ => wrong

/-- Take note of an option without value. -/
def raise (p : Progress) (flag : Flag) : Except Refusal Progress := do
  let p ← p.settle
  match flag with
  | .asJson => if p.asJson then wrong else .ok { p with asJson := true }
  | .help => .error .help
  | .version => .error .version

/-- Take an argument as the formula or as an assignment. -/
def position (p : Progress) (text : String) : Except Refusal Progress :=
  if p.awaiting.isSome then wrong
  else
    match p.formula with
    | none => .ok { p with formula := some text }
    | some _ => .ok { p with unchecked := text :: p.unchecked }

/-- Take an argument as the value of an option that lacks it, or else by its position. -/
def value (p : Progress) (text : String) : Except Refusal Progress :=
  match p.awaiting with
  | some setting => p.set setting text
  | none => p.position text

/-- Read the option with the long name `name`, if there is one. -/
def long (p : Progress) (text name : String) (attached : Option String) :
    Except Refusal Progress :=
  match Setting.ofName? name, Flag.ofName? name, attached with
  | some setting, _, some value => do (← p.settle).set setting value
  | some setting, _, none => do .ok { (← p.settle) with awaiting := some setting }
  | none, some flag, none => p.raise flag
  | none, some _, some _ => wrong
  | none, none, _ => if p.formula.isNone then p.value text else wrong

/-- Read the options with the letters `first` and `others`. The first of them decides, since
each of the known ones ends the reading. -/
def letters (p : Progress) (text : String) (first : Char) (others : List Char) :
    Except Refusal Progress :=
  if p.formula.isNone && (first :: others).any fun c => (Flag.ofLetter? c).isNone then
    p.value text
  else
    match Flag.ofLetter? first with
    | some flag => p.raise flag
    | none => wrong

/-- Read an argument. -/
def step (p : Progress) (text : String) : Except Refusal Progress :=
  if p.trailing then p.position text
  else
    match Argument.ofString text with
    | .separator => .ok { p with trailing := true }
    | .long name attached => p.long text name attached
    | .letters first others => p.letters text first others
    | .plain => p.value text

end Progress

/-- The limit of nesting, from the option or else from the environment. -/
def chooseLimit : Option Nat → Option String → Except Refusal Nat
  | some n, _ => .ok n
  | none, some text =>
    match readLimit? text with
    | some n => .ok n
    | none => wrong
  | none, none => .ok defaultLimit

/-- What the command line `arguments` asks for, where the environment gives the limit of nesting
as `limitText`. -/
def ofArguments (arguments : List String) (limitText : Option String) :
    Except Refusal Invocation := do
  let read ← arguments.foldlM Progress.step Progress.start
  let read ← read.settle
  let limit ← chooseLimit read.limit limitText
  match read.formula with
  | none => wrong
  | some formula => .ok ⟨formula, read.assignments, read.json, read.asJson, limit⟩

end Invocation

end SheetFormula
