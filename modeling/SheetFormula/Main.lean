import SheetFormula.CommandLine.Report

/-!
# The command line program

Reads the command line and the environment, evaluates the formula, and writes the report.

Everything is decided in `SheetFormula.CommandLine.Invocation` and
`SheetFormula.CommandLine.Report`. What is left to this module comes from outside: the clock, the
environment, the help text, and the words for a JSON text that cannot be read.
-/

namespace SheetFormula

/-- How the program is called. -/
def usageText : String :=
  "Usage: formula [OPTIONS] <EXPRESSION> [NAME=VALUE]...\n\n" ++
  "Options:\n" ++
  "      --json <OBJECT>          Flat JSON object of variable values\n" ++
  "      --output-json            Output result in JSON format with type and timing\n" ++
  "      --max-depth <MAX_DEPTH>  Deepest expression nesting accepted\n" ++
  "  -h, --help                   Print help\n" ++
  "  -V, --version                Print version\n"

/-- A time in milliseconds with two decimal places. -/
def millisecondText (nanoseconds : Nat) : String :=
  let hundredths := (nanoseconds + 5000) / 10000
  let places := toString (hundredths % 100)
  toString (hundredths / 100) ++ "." ++ (if places.length < 2 then "0" else "") ++ places ++ " ms"

/-- What is said of a text that is not JSON. The reader does not say where it fails. -/
def malformed (_ : String) : String :=
  "malformed text"

end SheetFormula

open SheetFormula in
/-- Answer one command line. -/
def main (arguments : List String) : IO UInt32 := do
  let limitText ← IO.getEnv "FORMULA_MAX_DEPTH"
  match Invocation.ofArguments arguments limitText with
  | .error .help =>
    IO.print usageText
    return 0
  | .error .version =>
    IO.println "formula 0.1.0"
    return 0
  | .error (.usage detail) =>
    IO.eprint ("error: " ++ detail.getD "bad command line" ++ "\n\n" ++ usageText)
    return 2
  | .ok invocation =>
    let started ← IO.monoNanosNow
    let outcome ← IO.lazyPure fun _ => invocation.evaluate malformed
    let ended ← IO.monoNanosNow
    let report := Report.ofOutcome invocation.asJson (millisecondText (ended - started)) outcome
    IO.print report.output
    IO.eprint report.errors
    return report.exitCode.toUInt32
