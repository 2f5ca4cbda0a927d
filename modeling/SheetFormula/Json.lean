/-!
# JSON trees

The values of JSON. The members of an object are kept in the order in which they are written, a
repeated name included; `Json.finalMembers` says which of them count.

Texts are read in two steps, each in a module of its own: characters to tokens
(`SheetFormula.Json.Token`, with `SheetFormula.Json.Quoted` and `SheetFormula.Json.Number` for the
two kinds of tokens that have parts), and tokens to a tree (`SheetFormula.Json.Tree`).
-/

namespace SheetFormula

/-- A value of JSON. Numbers are doubles. -/
inductive Json where
  | null
  | boolean (b : Bool)
  | number (x : Float)
  | string (s : String)
  | array (items : List Json)
  | object (members : List (String × Json))

end SheetFormula
