import SheetFormula.CommandLine.Invocation
import SheetFormula.Session

/-!
# Running a command line

The standard functions are there, the JSON variables are set first and the assignments after them,
and then the formula is evaluated (`Invocation.session`, `Invocation.evaluate`). A JSON text that
is refused ends everything before the formula is looked at.

What is written follows from the outcome alone (`Report.ofOutcome`), but for two things that are
not decided here and so are arguments: the time that the evaluation took, and the words in which a
text that is not JSON is refused, `explain`.

A result is written as its text, or with its kind and the time as a JSON object
(`Report.objectText`). An error is written to the other output, with another exit code. See
`SheetFormula.Proofs.CommandLine.Outcome` for what this comes to.
-/

namespace SheetFormula

/-- What a program writes, and how it ends. -/
structure Report where
  exitCode : UInt8
  output : String
  errors : String
  deriving DecidableEq

namespace Invocation

/-- The session in which the formula is evaluated. A text that is not JSON is refused in the words
of `explain`. -/
def session (explain : String → String) (i : Invocation) : Except Error (Session Unit) := do
  let fresh : Session Unit := (Session.new i.limit ()).modify (·.addStandard)
  let loaded ←
    match i.json with
    | some text => Json.readVariables explain text
    | none => .ok []
  .ok ((fresh.modify (·.setVariables loaded)).modify (·.setVariables i.assignments))

/-- The value of the formula. -/
def evaluate (explain : String → String) (i : Invocation) : Except Error Value := do
  ((← i.session explain).execute i.formula).1

end Invocation

namespace Report

/-- A value with its kind and the time it took, as a JSON object. -/
def objectText (v : Value) (time : String) : String :=
  "\x7b\n  \"execution_time\": " ++ Json.quote time ++ ",\n  \"result\": " ++ v.jsonText ++
    ",\n  \"type\": " ++ Json.quote v.kind.name ++ "\n\x7d"

/-- The report of an outcome that took a given time. -/
def ofOutcome (asJson : Bool) (time : String) : Except Error Value → Report
  | .ok v => ⟨0, (if asJson then objectText v time else v.display) ++ "\n", ""⟩
  | .error e => ⟨2, "", "Error: " ++ e.message ++ "\n"⟩

end Report

end SheetFormula
