import SheetFormula.Proofs.Evaluation.DepthGuard
import SheetFormula.Proofs.Formula
import SheetFormula.Session

/-!
# The places of errors

An error of a formula names a place in its text, and what it says of the place is so
(`Session.execute_error_pointsInto`). An error of the lexer names characters of the text
(`Error.NamesCharacters`). Every later error names a token (`Error.Names`): the parser the token
that it refuses, and evaluation the token that a node of the tree was read from (`Expr.ReadFrom`).

A token names its place and its text, and for a token of a text both are right, since the lexer
puts it where it stands (`SheetFormula.Proofs.Lexer.Places`). So all that is left for the later
errors is which tokens they are about.

A tree is read from tokens if each of its nodes has the place and the text of one: a literal, a
name or a call of its own token, and a sign or an operation of its symbol. The tree of a derivation
is read from the tokens of the derivation (`Derivation.readFrom_tree`), by induction on it. An
error of plain evaluation arises at a node, and the error of the limit has the place of a node that
evaluation reaches; in both cases the node is one of the tree, and its token is what the error
names (`Expr.Raises.names`, `Expr.Reaches.readFrom`).

The functions of a session may fail only with messages of their own here, because the place in any
other error would be of their choice.
-/

namespace SheetFormula

variable {σ : Type} {ts us : List Token}

/-! ## Errors and tokens -/

/-- The error is about a token, of which it names the place, and the text or the kind where it says
so. The message of a function is about no token. -/
def Error.Names (IsToken : Token → Prop) : Error → Prop
  | .unexpectedToken _ found position => ∃ t, IsToken t ∧ t.kind = found ∧ t.position = position
  | .unknownVariable name position | .unknownFunction name position =>
    IsToken ⟨.identifier name, position⟩
  | .typeMismatch operator _ _ position =>
    ∃ op : Operator, op.symbol.text = operator ∧ IsToken ⟨.symbol op.symbol, position⟩
  | .divisionByZero position => IsToken ⟨.symbol .slash, position⟩
  | .invalidNumber text position => IsToken ⟨.number text, position⟩
  | .nestingTooDeep _ position => ∃ t, IsToken t ∧ t.position = position
  | .function _ => True
  | .unexpectedChar .. | .invalidComparison .. | .json _ => False

theorem Error.Names.mono {P Q : Token → Prop} (le : ∀ t, P t → Q t) :
    ∀ {e : Error}, e.Names P → e.Names Q
  | .unexpectedToken .., ⟨t, token, kind, position⟩ => ⟨t, le t token, kind, position⟩
  | .unknownVariable .., token | .unknownFunction .., token | .divisionByZero _, token
  | .invalidNumber .., token => le _ token
  | .typeMismatch .., ⟨op, symbol, token⟩ => ⟨op, symbol, le _ token⟩
  | .nestingTooDeep .., ⟨t, token, position⟩ => ⟨t, le t token, position⟩
  | .function _, _ => trivial

/-- An error that names a token names its place. -/
theorem Error.Names.exists_position {P : Token → Prop} {position : Nat} :
    ∀ {e : Error}, e.Names P → e.position? = some position → ∃ t, P t ∧ t.position = position
  | .unexpectedToken .., ⟨t, token, _, place⟩, rfl => ⟨t, token, place⟩
  | .unknownVariable .., token, rfl | .unknownFunction .., token, rfl | .divisionByZero _, token, rfl
  | .invalidNumber .., token, rfl => ⟨_, token, rfl⟩
  | .typeMismatch .., ⟨_, _, token⟩, rfl => ⟨_, token, rfl⟩
  | .nestingTooDeep .., ⟨t, token, place⟩, rfl => ⟨t, token, place⟩

/-! ## Trees and tokens -/

/-- Every node of the tree was read from one of the tokens, and has its place and its text: a sign
or an operator from its symbol, a call from its name. -/
inductive Expr.ReadFrom (ts : List Token) : Expr → Prop where
  | number {text : String} {position : Nat} (mem : ⟨.number text, position⟩ ∈ ts) :
    ReadFrom ts (.number text position)
  | string {text : String} {position : Nat} (mem : ⟨.string text, position⟩ ∈ ts) :
    ReadFrom ts (.string text position)
  | reference {name : String} {position : Nat} (mem : ⟨.identifier name, position⟩ ∈ ts) :
    ReadFrom ts (.reference name position)
  | unary {sign : Sign} {operand : Expr} {position : Nat}
      (mem : ⟨.symbol sign.symbol, position⟩ ∈ ts) (inner : ReadFrom ts operand) :
    ReadFrom ts (.unary sign operand position)
  | binary {op : Operator} {left right : Expr} {position : Nat}
      (mem : ⟨.symbol op.symbol, position⟩ ∈ ts) (first : ReadFrom ts left)
      (second : ReadFrom ts right) : ReadFrom ts (.binary op left right position)
  | call {name : String} {arguments : List Expr} {position : Nat}
      (mem : ⟨.identifier name, position⟩ ∈ ts)
      (inner : ∀ argument ∈ arguments, ReadFrom ts argument) :
    ReadFrom ts (.call name arguments position)

namespace Expr.ReadFrom

theorem mono {e : Expr} (h : e.ReadFrom ts) (le : ∀ t ∈ ts, t ∈ us) : e.ReadFrom us := by
  induction h with
  | number mem => exact .number (le _ mem)
  | string mem => exact .string (le _ mem)
  | reference mem => exact .reference (le _ mem)
  | unary mem _ operand => exact .unary (le _ mem) operand
  | binary mem _ _ left right => exact .binary (le _ mem) left right
  | call mem _ arguments => exact .call (le _ mem) arguments

theorem operand {sign : Sign} {e : Expr} {position : Nat}
    (h : (Expr.unary sign e position).ReadFrom ts) : e.ReadFrom ts := by
  cases h
  assumption

theorem left {op : Operator} {e e' : Expr} {position : Nat}
    (h : (Expr.binary op e e' position).ReadFrom ts) : e.ReadFrom ts := by
  cases h
  assumption

theorem right {op : Operator} {e e' : Expr} {position : Nat}
    (h : (Expr.binary op e e' position).ReadFrom ts) : e'.ReadFrom ts := by
  cases h
  assumption

theorem argument {name : String} {arguments : List Expr} {e : Expr} {position : Nat}
    (h : (Expr.call name arguments position).ReadFrom ts) (mem : e ∈ arguments) :
    e.ReadFrom ts := by
  cases h with
  | call _ inner => exact inner e mem

/-- A node has the place of a token. -/
theorem exists_position {e : Expr} (h : e.ReadFrom ts) : ∃ t ∈ ts, t.position = e.position := by
  cases h with
  | number mem | string mem | reference mem | unary mem | binary mem | call mem =>
    exact ⟨_, mem, rfl⟩

/-- Operators with their right operands after an expression. -/
theorem toExpr {links : List Link} (within : ∀ link ∈ links,
    ⟨.symbol link.op.symbol, link.position⟩ ∈ ts ∧ link.right.ReadFrom ts) {head : Expr}
    (h : head.ReadFrom ts) : (Chain.mk head links).toExpr.ReadFrom ts := by
  induction links generalizing head with
  | nil => exact h
  | cons link links ih =>
    obtain ⟨mem, right⟩ := within link List.mem_cons_self
    exact ih (fun link mem => within link (List.mem_cons_of_mem _ mem)) (.binary mem h right)

end Expr.ReadFrom

mutual

/-- The tree of a derivation is read from the tokens derived. -/
theorem Derivation.readFrom_tree : ∀ {n : Nat} (d : Derivation n), d.tree.ReadFrom d.tokens
  | _, .chain _ first rest => by
    rw [Derivation.tree, Derivation.tokens]
    have head := first.readFrom_tree.mono fun _ => List.mem_append_left rest.tokens
    refine Expr.ReadFrom.toExpr (fun link mem => ?_) head
    obtain ⟨symbol, right⟩ := rest.readFrom_links link mem
    exact ⟨List.mem_append_right _ symbol, right.mono fun _ => List.mem_append_right _⟩
  | _, .unsigned operand => operand.readFrom_tree
  | _, .signed sign position operand => by
    rw [Derivation.tree, Derivation.tokens]
    exact .unary List.mem_cons_self (operand.readFrom_tree.mono fun _ => List.mem_cons_of_mem _)
  | _, .number .. => .number List.mem_cons_self
  | _, .string .. => .string List.mem_cons_self
  | _, .reference .. => .reference List.mem_cons_self
  | _, .group opening inner closing => by
    rw [Derivation.tree, Derivation.tokens]
    exact inner.readFrom_tree.mono fun _ mem =>
      List.mem_cons_of_mem _ (List.mem_append_left _ mem)
  | _, .emptyCall .. => .call List.mem_cons_self fun _ mem => absurd mem List.not_mem_nil
  | _, .call name position opening arguments closing => by
    rw [Derivation.tree, Derivation.tokens]
    refine .call List.mem_cons_self fun argument mem => ?_
    exact (arguments.readFrom_trees argument mem).mono fun _ mem =>
      List.mem_cons_of_mem _ (List.mem_cons_of_mem _ (List.mem_append_left _ mem))

theorem Repetition.readFrom_links : ∀ {n : Nat} (s : Repetition n), ∀ link ∈ s.links,
    ⟨.symbol link.op.symbol, link.position⟩ ∈ s.tokens ∧ link.right.ReadFrom s.tokens
  | _, .nil, link, mem => by
    rw [Repetition.links] at mem
    exact absurd mem List.not_mem_nil
  | _, .cons op _ position operand rest, link, mem => by
    rw [Repetition.links] at mem
    rw [Repetition.tokens]
    rcases List.mem_cons.mp mem with rfl | mem
    · exact ⟨List.mem_cons_self, operand.readFrom_tree.mono fun _ mem =>
        List.mem_cons_of_mem _ (List.mem_append_left _ mem)⟩
    · have le : ∀ t ∈ rest.tokens,
          t ∈ ⟨.symbol op.symbol, position⟩ :: (operand.tokens ++ rest.tokens) :=
        fun t mem => List.mem_cons_of_mem _ (List.mem_append_right _ mem)
      obtain ⟨symbol, right⟩ := rest.readFrom_links link mem
      exact ⟨le _ symbol, right.mono le⟩

theorem ArgumentList.readFrom_trees : ∀ (l : ArgumentList), ∀ e ∈ l.trees, e.ReadFrom l.tokens
  | .single argument, e, mem => by
    rw [ArgumentList.trees] at mem
    obtain rfl := List.mem_singleton.mp mem
    exact argument.readFrom_tree
  | .cons argument separator rest, e, mem => by
    rw [ArgumentList.trees] at mem
    rw [ArgumentList.tokens]
    rcases List.mem_cons.mp mem with rfl | mem
    · exact argument.readFrom_tree.mono fun _ => List.mem_append_left _
    · exact (rest.readFrom_trees e mem).mono fun _ mem =>
        List.mem_append_right _ (List.mem_cons_of_mem _ mem)

end

/-! ## Errors of evaluation -/

namespace Expr

variable {bindings : Bindings σ}

/-- The nodes that evaluation comes to are nodes of the tree. -/
theorem Reaches.readFrom {e d : Expr} {host there : σ} {n : Nat}
    (h : e.Reaches bindings host n d there) (whole : e.ReadFrom ts) : d.ReadFrom ts := by
  induction h with
  | self => exact whole
  | operand _ _ _ ih => exact ih whole.operand
  | left _ _ _ _ _ ih => exact ih whole.left
  | right _ _ _ _ ih => exact ih whole.right
  | argument _ _ _ _ _ ih =>
    exact ih (whole.argument (List.mem_append_right _ List.mem_cons_self))

/-- An error that arises at a node is about the token of the node. -/
theorem Raises.names (messages : bindings.FailsWithMessages) {e : Expr} {error : Error}
    (h : e.Raises bindings error) (whole : e.ReadFrom ts) : error.Names (· ∈ ts) := by
  induction h with
  | number | reference | unknown =>
    cases whole
    assumption
  | sign sign operand position found =>
    cases whole with
    | unary mem _ =>
      cases sign with
      | plus => exact ⟨.arithmetic .add, rfl, mem⟩
      | minus => exact ⟨.arithmetic .subtract, rfl, mem⟩
  | operator op left right position expected found =>
    cases whole with
    | binary mem _ _ => exact ⟨op, rfl, mem⟩
  | division left right position =>
    cases whole with
    | binary mem _ _ => exact mem
  | host found values host failed arguments position =>
    obtain ⟨message, rfl⟩ := messages _ _ found values host _ failed
    trivial
  | operand _ _ _ ih => exact ih whole.operand
  | left _ _ _ _ ih => exact ih whole.left
  | right _ _ _ _ ih => exact ih whole.right
  | argument mem _ _ _ ih => exact ih (whole.argument mem)

/-- Evaluation under a limit fails with an error that arises in the tree, or at a node one level
beyond the limit. -/
theorem raises_or_reaches_of_value {e : Expr} {limit : Nat} {host : σ} {error : Error}
    (h : (e.value bindings limit host).1 = .error error) : e.Raises bindings error ∨
      ∃ d there, e.Reaches bindings host (limit + 1) d there ∧
        error = .nestingTooDeep limit d.position := by
  rw [value_eq_guardedEval] at h
  rcases e.stopsAt_guardedEval limit host with same | ⟨_, after, ⟨d, there, reached, rfl⟩, failed⟩
  · rw [same] at h
    exact .inl (raises_of_plainEval (Prod.ext h rfl))
  · rw [failed] at h
    cases h
    exact .inr ⟨d, there, reached, rfl⟩

/-- Evaluation under a limit fails with an error about a token that the tree was read from. -/
theorem names_of_value (messages : bindings.FailsWithMessages) {e : Expr} {limit : Nat} {host : σ}
    {error : Error} (h : (e.value bindings limit host).1 = .error error)
    (whole : e.ReadFrom ts) : error.Names (· ∈ ts) := by
  rcases raises_or_reaches_of_value h with raised | ⟨d, there, reached, rfl⟩
  · exact raised.names messages whole
  · exact (reached.readFrom whole).exists_position

end Expr

/-! ## Errors of formulas -/

/-- The token is one of those that the text is read as, and it stands in the text where it says. -/
structure Token.IsIn (text : String) (t : Token) : Prop where
  read : ∃ ts, tokenize text = .ok ts ∧ t ∈ ts
  stands : t.StandsIn text.toList

/-- What the error says of a place in the text is so: it is about characters that are there, or
about a token that is. -/
def Error.PointsInto (text : String) (e : Error) : Prop :=
  e.NamesCharacters text.toList ∨ e.Names (Token.IsIn text)

theorem Error.NamesCharacters.position_bounds {text : List Char} {position : Nat} :
    ∀ {e : Error}, e.NamesCharacters text → e.position? = some position →
      1 ≤ position ∧ position ≤ text.length + 1
  | .unexpectedChar .., ⟨before, after, htext, hplace⟩, rfl
  | .invalidComparison .., ⟨before, after, htext, hplace, _⟩, rfl => by
    rw [htext, hplace, List.length_append]
    omega

theorem Error.PointsInto.position_bounds {text : String} {e : Error} (h : e.PointsInto text)
    {position : Nat} (hposition : e.position? = some position) :
    1 ≤ position ∧ position ≤ text.length + 1 := by
  rw [← String.length_toList]
  rcases h with characters | token
  · exact characters.position_bounds hposition
  · obtain ⟨t, here, rfl⟩ := token.exists_position hposition
    exact here.stands.position_bounds

/-- A token that is read is in the text, so an error about it points into the text. -/
theorem Error.PointsInto.of_names {text : String} {e : Error} (read : tokenize text = .ok ts)
    (names : e.Names (· ∈ ts)) : e.PointsInto text :=
  .inr (names.mono fun t mem => ⟨⟨ts, read, mem⟩, standsIn_of_tokenize read t mem⟩)

theorem Expr.readFrom_of_ofString {text : String} {limit : Nat} {e : Expr}
    (h : Expr.ofString text limit = .ok e) : ∃ ts, tokenize text = .ok ts ∧ e.ReadFrom ts := by
  obtain ⟨d, read, -, rfl⟩ := Expr.ofString_eq_ok_iff.mp h
  exact ⟨_, read, d.readFrom_tree.mono fun _ => List.mem_append_left _⟩

theorem Expr.pointsInto_of_ofString {text : String} {limit : Nat} {e : Error}
    (h : Expr.ofString text limit = .error e) : e.PointsInto text := by
  rcases Expr.ofString_eq_error_iff.mp h with failed | ⟨ts, read, failed⟩
  · exact .inl (namesCharacters_of_tokenize failed)
  · obtain ⟨t, mem, ⟨expected, rfl⟩ | rfl⟩ := Expr.exists_refused_of_ofTokens read failed
    · exact .of_names read ⟨t, mem, rfl, rfl⟩
    · exact .of_names read ⟨t, mem, rfl⟩

/-- What an error of a formula says of a place in it is so. -/
theorem Session.execute_error_pointsInto {s after : Session σ}
    (messages : s.bindings.FailsWithMessages) {formula : String} {e : Error}
    (h : s.execute formula = (.error e, after)) :
    e.PointsInto formula ∧
      ∀ position, e.position? = some position → 1 ≤ position ∧ position ≤ formula.length + 1 := by
  suffices points : e.PointsInto formula from ⟨points, fun _ => points.position_bounds⟩
  unfold execute at h
  split at h
  · next tree parsed =>
    obtain ⟨ts, read, whole⟩ := Expr.readFrom_of_ofString parsed
    have failed : (tree.value s.bindings s.limit s.host).1 = .error e := congrArg Prod.fst h
    exact .of_names read (Expr.names_of_value messages failed whole)
  · next e' parsed =>
    cases h
    exact Expr.pointsInto_of_ofString parsed

/-- The quotient of a string within a product fails at its own operator, the seventh character. -/
theorem Session.execute_quotientOfString_pointsInto :
    (Session.new 8 ()).bindings.FailsWithMessages ∧
      (Session.new 8 ()).execute "1*(\"ö\"/2)" =
        (.error (.typeMismatch "/" "number" .string 7), Session.new 8 ()) ∧
      Error.PointsInto "1*(\"ö\"/2)" (.typeMismatch "/" "number" .string 7) := by
  have messages : (Session.new 8 ()).bindings.FailsWithMessages := by
    intro name f found
    simp [Session.new] at found
  have parsed : (Session.new 8 ()).parse "1*(\"ö\"/2)" =
      .ok (.binary (.arithmetic .multiply) (.number "1" 1)
        (.binary (.arithmetic .divide) (.string "ö" 4) (.number "2" 8) 7) 2) := by cbv
  have failed : (Session.new 8 ()).execute "1*(\"ö\"/2)" =
      (.error (.typeMismatch "/" "number" .string 7), Session.new 8 ()) := by
    simp only [execute, parsed, Expr.value_eq_guardedEval]
    rfl
  exact ⟨messages, failed, (execute_error_pointsInto messages failed).1⟩

end SheetFormula
