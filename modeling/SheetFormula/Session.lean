import SheetFormula.Bindings.Summary
import SheetFormula.Expr.Eval
import SheetFormula.Expr.Parser
import SheetFormula.StandardFunction
import SheetFormula.Value.Json

/-!
# Sessions

A session keeps bindings and a limit of nesting, and evaluates formulas against them. Evaluating
changes neither; it may change the state of the host functions.

A formula is parsed and its tree evaluated under the same limit (`Session.execute`): if parsing
fails its error is the outcome and nothing is evaluated (`Session.execute_of_parse_eq_error`), and
otherwise the outcome is that of the tree (`Session.execute_of_parse_eq_ok`).

`Session.perform` answers a request of any kind and gives the session after it. A JSON text is
loaded as a whole or not at all. For one that is not JSON the reader has words of its own, which
are not decided here: they are an argument, `explain`, and what is proved of requests holds for all
of them.

What a session remembers of its requests is said in `SheetFormula.Proofs.History`, and what loading
does in `SheetFormula.Proofs.Json.Variables`.
-/

namespace SheetFormula

/-- Bindings with a limit of nesting and the state of the host functions. -/
structure Session (σ : Type) where
  bindings : Bindings σ
  limit : Nat
  host : σ

/-- What can be asked of a session. -/
inductive Request (σ : Type) where
  | setVariable (name : String) (value : Value)
  /-- Forget all variables and set these instead. -/
  | replaceVariables (entries : List (String × Value))
  | clearVariables
  /-- Set the variables that a JSON text gives; none of them if there is any error. -/
  | loadJson (text : String)
  | setFunction (name : String) (f : HostFunction σ)
  | addStandardFunctions
  | variableValue (name : String)
  | variableEntries
  | hasFunction (name : String)
  | functionNames
  | limit
  | summary
  /-- Call a function directly. -/
  | call (name : String) (arguments : List Value)
  | parse (formula : String)
  | execute (formula : String)

/-- What a session answers. -/
inductive Reply where
  | done
  | failed (e : Error)
  | value (v : Value)
  | absent
  | tree (e : Expr)
  | entries (entries : List (String × Value))
  | flag (b : Bool)
  | names (names : List String)
  | count (n : Nat)
  | text (s : String)

/-- The answer for a value or an error. -/
def Reply.ofOutcome : Except Error Value → Reply
  | .ok v => .value v
  | .error e => .failed e

namespace Session

variable {σ : Type}

/-- A session without bindings. -/
def new (limit : Nat) (host : σ) : Session σ :=
  ⟨.empty, limit, host⟩

/-- The tree of a formula. -/
def parse (s : Session σ) (formula : String) : Except Error Expr :=
  Expr.ofString formula s.limit

/-- The value of a formula, and the session after evaluating it. -/
def execute (s : Session σ) (formula : String) : Except Error Value × Session σ :=
  match s.parse formula with
  | .ok e =>
    let (outcome, host) := e.value s.bindings s.limit s.host
    (outcome, { s with host })
  | .error e => (.error e, s)

/-- A formula without a tree fails with the error of parsing and leaves everything as it is. -/
theorem execute_of_parse_eq_error {s : Session σ} {formula : String} {e : Error}
    (h : s.parse formula = .error e) : s.execute formula = (.error e, s) := by
  simp only [execute, h]

/-- A formula with a tree comes to what the tree comes to. -/
theorem execute_of_parse_eq_ok {s : Session σ} {formula : String} {tree : Expr}
    (h : s.parse formula = .ok tree) :
    s.execute formula = ((tree.value s.bindings s.limit s.host).1,
      { s with host := (tree.value s.bindings s.limit s.host).2 }) := by
  simp only [execute, h]

/-- Change the bindings. -/
def modify (s : Session σ) (change : Bindings σ → Bindings σ) : Session σ :=
  { s with bindings := change s.bindings }

/-- Answer a request, and refuse a text that is not JSON in the words of `explain`. -/
def perform (explain : String → String) (s : Session σ) : Request σ → Reply × Session σ
  | .setVariable name value => (.done, s.modify (·.setVariable name value))
  | .replaceVariables entries => (.done, s.modify (·.replaceVariables entries))
  | .clearVariables => (.done, s.modify (·.clearVariables))
  | .loadJson text =>
    match Json.readVariables explain text with
    | .ok entries => (.done, s.modify (·.setVariables entries))
    | .error e => (.failed e, s)
  | .setFunction name f => (.done, s.modify (·.setFunction name f))
  | .addStandardFunctions => (.done, s.modify (·.addStandard))
  | .variableValue name =>
    match s.bindings.value? name with
    | some v => (.value v, s)
    | none => (.absent, s)
  | .variableEntries => (.entries s.bindings.variableEntries, s)
  | .hasFunction name => (.flag (s.bindings.hasFunction name), s)
  | .functionNames => (.names s.bindings.functionNames, s)
  | .limit => (.count s.limit, s)
  | .summary => (.text s.bindings.summary, s)
  | .call name arguments =>
    match s.bindings.function? name with
    | some f =>
      let (outcome, host) := f arguments s.host
      (.ofOutcome outcome, { s with host })
    | none => (.absent, s)
  | .parse formula =>
    match s.parse formula with
    | .ok e => (.tree e, s)
    | .error e => (.failed e, s)
  | .execute formula =>
    let (outcome, after) := s.execute formula
    (.ofOutcome outcome, after)

end Session

end SheetFormula
