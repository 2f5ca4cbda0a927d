import SheetFormula.Main
import SheetFormula.Proofs.Grammar
import SheetFormula.Proofs.Grammar.Unambiguous
import SheetFormula.Proofs.Parser.Reading
import SheetFormula.Proofs.Parser.Completeness
import SheetFormula.Proofs.Parser.Soundness
import SheetFormula.Proofs.Parser.Acceptance
import SheetFormula.Proofs.Parser.Refusal
import SheetFormula.Proofs.Parser.ViablePrefix
import SheetFormula.Proofs.Lexer.Characters
import SheetFormula.Proofs.Lexer.Spelling
import SheetFormula.Proofs.Lexer.Places
import SheetFormula.Proofs.Lexer.Lossless
import SheetFormula.Proofs.Lexer.RoundTrip
import SheetFormula.Proofs.Lexer.Concatenation
import SheetFormula.Proofs.Formula
import SheetFormula.Proofs.Rendering.Expression
import SheetFormula.Proofs.Rendering.RoundTrip
import SheetFormula.Proofs.Evaluation.Plain
import SheetFormula.Proofs.Evaluation.Unfolding
import SheetFormula.Proofs.Evaluation.Refinement
import SheetFormula.Proofs.Evaluation.Failure
import SheetFormula.Proofs.Evaluation.NestingLimit
import SheetFormula.Proofs.Evaluation.LevelFactor
import SheetFormula.Proofs.Evaluation.Guarded
import SheetFormula.Proofs.Evaluation.DepthGuard
import SheetFormula.Proofs.Evaluation.Calls
import SheetFormula.Proofs.Evaluation.Invocations
import SheetFormula.Proofs.Evaluation.MentionedNames
import SheetFormula.Proofs.Evaluation.Kinds
import SheetFormula.Proofs.ErrorPlaces
import SheetFormula.Proofs.HigherLimit
import SheetFormula.Proofs.Stages
import SheetFormula.Proofs.Json.Strings
import SheetFormula.Proofs.Json.Numbers
import SheetFormula.Proofs.Json.Tokens
import SheetFormula.Proofs.Json.Trees
import SheetFormula.Proofs.Json.Variables
import SheetFormula.Proofs.History
import SheetFormula.Proofs.Json.NumberTexts
import SheetFormula.Proofs.Json.Range
import SheetFormula.Proofs.Json.RoundTrip
import SheetFormula.Proofs.CommandLine.Outcome
import SheetFormula.Proofs.Evaluation.Reuse
import SheetFormula.Proofs.Evaluation.Substitution
import SheetFormula.Proofs.Lexer.FirstError
import SheetFormula.Proofs.Parser.CountingOn
import SheetFormula.Proofs.Parser.SuccessiveCalls
import SheetFormula.Proofs.Number.NaN
import SheetFormula.Proofs.Number.Order
import SheetFormula.Proofs.Number.PlainNumbers
import SheetFormula.Proofs.Evaluation.Comparisons
import SheetFormula.Proofs.Evaluation.Literals
import SheetFormula.Proofs.CommandLine.Assignments
import SheetFormula.Proofs.CommandLine.Numbers
import SheetFormula.Proofs.Evaluation.Positions
import SheetFormula.Proofs.Lexer.Joined
import SheetFormula.Proofs.Lexer.Stepping
import SheetFormula.Proofs.Number.Zero
import SheetFormula.Proofs.Parser.MissingEnd
import SheetFormula.Proofs.Rendering.Joined
import SheetFormula.Proofs.StandardFunction.Deciding
import SheetFormula.Proofs.StandardFunction.Totals
import SheetFormula.Proofs.Parser.Descent
import SheetFormula.Proofs.Parser.Descent.Steps
import SheetFormula.Proofs.Parser.Safety
