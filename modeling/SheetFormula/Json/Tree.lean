import SheetFormula.Json.Token

/-!
# JSON trees from tokens

Tokens are read one at a time against a stack of the arrays and objects that have begun. No more
than 127 of them may be open at once (`nestingLimit`), and empty ones count as well.

What may follow depends on what has just been read (`Phase`), and a value that is complete becomes
an item or a member of the innermost array or object (`afterValue`). A bracket that closes is not a
value of its own, so a comma before it is refused; right behind the opening one it is not, and that
is what sets the first item and the first name apart from the later ones.

A token that cannot follow refuses the whole text, and so does a text that ends before its value is
complete (`Progress.result?`). Nothing is said about the reason.

A step does not call itself: what a value is part of stands on the stack. So reading is a fold over
the tokens, and what it keeps can be shown for one step and then for all of them. Which texts are
accepted, and that each of them writes one tree only, is said in `SheetFormula.Proofs.Json.Trees`,
by the tokens that a tree has.
-/

namespace SheetFormula.Json

/-- An array or an object that has begun, with what stands in it before the present value, the
last first. -/
inductive Open where
  | array (done : List Json)
  | member (done : List (String × Json)) (name : String)

/-- What has been read just before a place in a JSON text. -/
inductive Phase where
  /-- A value must follow. -/
  | value
  /-- An array has begun. -/
  | firstItem
  /-- An object has begun. -/
  | firstName
  /-- The name of another member must follow. -/
  | nextName (done : List (String × Json))
  /-- The colon behind a name must follow. -/
  | colon (done : List (String × Json)) (name : String)
  /-- A value is complete. -/
  | complete (value : Json)

/-- How far the reading of a JSON text has come. -/
structure Progress where
  stack : List Open
  phase : Phase

/-- How many arrays and objects may be open at once. -/
def nestingLimit : Nat := 127

namespace Progress

/-- Read `t` where a value begins. -/
def begin (stack : List Open) (t : Token) : Option Progress :=
  match t with
  | .scalar value => some ⟨stack, .complete value⟩
  | .string s => some ⟨stack, .complete (.string s)⟩
  | .leftBracket => if stack.length < nestingLimit then some ⟨stack, .firstItem⟩ else none
  | .leftBrace => if stack.length < nestingLimit then some ⟨stack, .firstName⟩ else none
  | _ => none

/-- Read `t` after a complete value. -/
def afterValue (stack : List Open) (value : Json) (t : Token) : Option Progress :=
  match stack, t with
  | .array done :: stack, .comma => some ⟨.array (value :: done) :: stack, .value⟩
  | .array done :: stack, .rightBracket =>
    some ⟨stack, .complete (.array (value :: done).reverse)⟩
  | .member done name :: stack, .comma => some ⟨stack, .nextName ((name, value) :: done)⟩
  | .member done name :: stack, .rightBrace =>
    some ⟨stack, .complete (.object ((name, value) :: done).reverse)⟩
  | _, _ => none

/-- Read a token. -/
def step (p : Progress) (t : Token) : Option Progress :=
  match p.phase, t with
  | .value, t => begin p.stack t
  | .firstItem, .rightBracket => some ⟨p.stack, .complete (.array [])⟩
  | .firstItem, t => begin (.array [] :: p.stack) t
  | .firstName, .rightBrace => some ⟨p.stack, .complete (.object [])⟩
  | .firstName, .string name => some ⟨p.stack, .colon [] name⟩
  | .nextName done, .string name => some ⟨p.stack, .colon done name⟩
  | .colon done name, .colon => some ⟨.member done name :: p.stack, .value⟩
  | .complete value, t => afterValue p.stack value t
  | _, _ => none

/-- The value, if all of it has been read. -/
def result? (p : Progress) : Option Json :=
  match p.stack, p.phase with
  | [], .complete value => some value
  | _, _ => none

end Progress

/-- The value that `text` writes. -/
def ofString? (text : String) : Option Json := do
  let tokens ← tokens? [] text.toList
  let finished ← tokens.foldlM Progress.step ⟨[], .value⟩
  finished.result?

end SheetFormula.Json
