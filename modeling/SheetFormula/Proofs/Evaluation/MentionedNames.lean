import SheetFormula.Proofs.Evaluation.Invocations

/-!
# The names that a formula mentions

A formula depends on no other names than those in its tree, the variables it refers to
(`Expr.references`) and the functions it calls (`Expr.callees`). Under bindings that agree on these
(`Bindings.AgreeOn`) a tree is evaluated in the same way (`Expr.guardedEval_congr`), so executing
the formula comes to the same value or the same error after the same calls
(`Session.executeAlike_of_agreeOn`). The two kinds of names do not meet, and a text without a tree
does not depend on any name.

Agreement on the names of a node is agreement on those of its operands, and for a reference or a
call on its own name. So the proof goes along the tree, and what it says is that the two guarded
evaluations are one and the same computation. It holds of recording functions as well, because
bindings that agree do so with a record (`Bindings.AgreeOn.recording`), which gives the calls.

Variables and functions that a formula does not mention can therefore be set to anything, and they
can be missing: bindings that differ in one name agree on every list without it
(`Bindings.agreeOn_setVariable`, `Bindings.agreeOn_setFunction`). What the names are is read off
the tree, so `Session.executeAlike_of_mentioned_names` asks only for what the parser gives.
-/

namespace SheetFormula

variable {σ : Type}

namespace Expr

mutual

/-- The names of the variables that a tree refers to, from left to right. -/
def references : Expr → List String
  | .number .. | .string .. => []
  | .reference name _ => [name]
  | .unary _ operand _ => operand.references
  | .binary _ left right _ => left.references ++ right.references
  | .call _ arguments _ => referencesAll arguments

/-- The names of the variables that the trees of a list refer to. -/
def referencesAll : List Expr → List String
  | [] => []
  | e :: others => e.references ++ referencesAll others

end

/-- The names of the functions that a tree calls, in post-order. -/
def callees (e : Expr) : List String :=
  e.calls.map CallNode.name

/-- The names of the functions that the trees of a list call. -/
def calleesAll (es : List Expr) : List String :=
  (callsAll es).map CallNode.name

theorem callees_binary (op : Operator) (left right : Expr) (position : Nat) :
    (Expr.binary op left right position).callees = left.callees ++ right.callees :=
  List.map_append

theorem callees_call (name : String) (arguments : List Expr) (position : Nat) :
    (Expr.call name arguments position).callees = calleesAll arguments ++ [name] :=
  List.map_append

theorem calleesAll_cons (e : Expr) (others : List Expr) :
    calleesAll (e :: others) = e.callees ++ calleesAll others :=
  List.map_append

end Expr

namespace Bindings

/-- Each of the names stands for the same in both, the ones as variables and the others as
functions, or for nothing in either. -/
structure AgreeOn (b b' : Bindings σ) (references callees : List String) : Prop where
  value?_eq : ∀ name ∈ references, b.value? name = b'.value? name
  function?_eq : ∀ name ∈ callees, b.function? name = b'.function? name

variable {b b' : Bindings σ} {references references' callees callees' : List String}

theorem AgreeOn.mono (h : b.AgreeOn b' references callees) (fewer : references' ⊆ references)
    (fewer' : callees' ⊆ callees) : b.AgreeOn b' references' callees' where
  value?_eq name mem := h.value?_eq name (fewer mem)
  function?_eq name mem := h.function?_eq name (fewer' mem)

theorem AgreeOn.left (h : b.AgreeOn b' (references ++ references') (callees ++ callees')) :
    b.AgreeOn b' references callees :=
  h.mono (List.subset_append_left _ _) (List.subset_append_left _ _)

theorem AgreeOn.right (h : b.AgreeOn b' (references ++ references') (callees ++ callees')) :
    b.AgreeOn b' references' callees' :=
  h.mono (List.subset_append_right _ _) (List.subset_append_right _ _)

/-- Bindings that agree still do so when all functions write down the calls of them. -/
theorem AgreeOn.recording (h : b.AgreeOn b' references callees) :
    b.recording.AgreeOn b'.recording references callees where
  value?_eq := h.value?_eq
  function?_eq name mem := by
    rw [function?_recording, function?_recording, h.function?_eq name mem]

/-- A variable is of no account where no variable of its name is referred to. -/
theorem agreeOn_setVariable (b : Bindings σ) {name : String} (absent : name ∉ references)
    (value : Value) (callees : List String) :
    (b.setVariable name value).AgreeOn b references callees where
  value?_eq other mem := by
    rw [value?_setVariable, if_neg]
    rintro rfl
    exact absent mem
  function?_eq other _ := b.function?_setVariable name other value

/-- A function is of no account where no function of its name is called. -/
theorem agreeOn_setFunction (b : Bindings σ) {name : String} (absent : name ∉ callees)
    (f : HostFunction σ) (references : List String) :
    (b.setFunction name f).AgreeOn b references callees where
  value?_eq other _ := b.value?_setFunction name other f
  function?_eq other mem := by
    rw [function?_setFunction, if_neg]
    rintro rfl
    exact absent mem

end Bindings

namespace Expr

variable {b b' : Bindings σ} {limit : Nat}

mutual

/-- An expression is evaluated in the same way under bindings that agree on the names in it. -/
theorem guardedEval_congr : ∀ {e : Expr} (room : Nat), b.AgreeOn b' e.references e.callees →
    e.guardedEval b limit room = e.guardedEval b' limit room
  | _, 0, _ => by rw [guardedEval, guardedEval]
  | .number .., room + 1, _ | .string .., room + 1, _ => by rw [guardedEval, guardedEval]
  | .reference name position, room + 1, agree => by
    rw [guardedEval, guardedEval, agree.value?_eq name List.mem_cons_self]
  | .unary sign operand position, room + 1, agree => by
    have inner : b.AgreeOn b' operand.references operand.callees := agree
    rw [guardedEval, guardedEval, guardedEval_congr room inner]
  | .binary op left right position, room + 1, agree => by
    rw [references, callees_binary] at agree
    rw [guardedEval, guardedEval, guardedEval_congr _ agree.left,
      guardedEval_congr room agree.right]
  | .call name arguments position, room + 1, agree => by
    rw [references, callees_call] at agree
    have inner : b.AgreeOn b' (referencesAll arguments) (calleesAll arguments) :=
      agree.mono (List.Subset.refl _) (List.subset_append_left _ _)
    have called : name ∈ calleesAll arguments ++ [name] :=
      List.mem_append_right _ List.mem_cons_self
    rw [guardedEval, guardedEval, agree.function?_eq name called, guardedEvalAll_congr room inner]

theorem guardedEvalAll_congr : ∀ {es : List Expr} (room : Nat),
    b.AgreeOn b' (referencesAll es) (calleesAll es) →
      guardedEvalAll b limit room es = guardedEvalAll b' limit room es
  | [], room, _ => by rw [guardedEvalAll, guardedEvalAll]
  | e :: others, room, agree => by
    rw [referencesAll, calleesAll_cons] at agree
    rw [guardedEvalAll, guardedEvalAll, guardedEval_congr room agree.left,
      guardedEvalAll_congr room agree.right]

end

theorem value_congr {e : Expr} (agree : b.AgreeOn b' e.references e.callees) (host : σ) :
    e.value b limit host = e.value b' limit host := by
  rw [value_eq_guardedEval, value_eq_guardedEval, guardedEval_congr limit agree]

end Expr

namespace Session

/-- Executing the formula comes to the same in both sessions: the value or the error, the calls of
host functions in their order, and the state that these are left in. -/
structure ExecuteAlike (s s' : Session σ) (formula : String) : Prop where
  outcome : (s.execute formula).1 = (s'.execute formula).1
  invocations : s.invocations formula = s'.invocations formula
  host : (s.execute formula).2.host = (s'.execute formula).2.host

variable {b b' : Bindings σ} {limit : Nat} {formula : String}

/-- The outcome and the state after it depend on nothing but the names in the tree. -/
theorem execute_congr (agree : ∀ e, Expr.ofString formula limit = .ok e →
    b.AgreeOn b' e.references e.callees) (host : σ) :
    (Session.execute ⟨b, limit, host⟩ formula).1 = (Session.execute ⟨b', limit, host⟩ formula).1 ∧
      (Session.execute ⟨b, limit, host⟩ formula).2.host =
        (Session.execute ⟨b', limit, host⟩ formula).2.host := by
  unfold execute parse
  cases parsed : Expr.ofString formula limit with
  | error e => exact ⟨rfl, rfl⟩
  | ok e =>
    have same : e.value b limit host = e.value b' limit host :=
      Expr.value_congr (agree e parsed) host
    simp only [same, and_self]

/-- Sessions whose bindings agree on the names in the tree of a formula, if it has one, execute it
alike. -/
theorem executeAlike_of_agreeOn (agree : ∀ e, Expr.ofString formula limit = .ok e →
    b.AgreeOn b' e.references e.callees) (host : σ) :
    ExecuteAlike ⟨b, limit, host⟩ ⟨b', limit, host⟩ formula := by
  obtain ⟨outcome, after⟩ := execute_congr agree host
  have recorded := execute_congr (fun e parsed => (agree e parsed).recording) (host, [])
  exact ⟨outcome, congrArg Prod.snd recorded.2, after⟩

/-- A formula depends only on the names it mentions. Bindings that agree on the variables that its
tree refers to and on the functions that it calls give it the same value or the same error after the
same calls. A variable whose name is not referred to does not matter, though it be called, and
neither does a function whose name is not called, though it be referred to. A formula without a tree
depends on no bindings at all. -/
theorem executeAlike_of_mentioned_names (formula : String) (limit : Nat) (host : σ) :
    (∀ e, Expr.ofString formula limit = .ok e →
      (∀ b b' : Bindings σ, b.AgreeOn b' e.references e.callees →
        ExecuteAlike ⟨b, limit, host⟩ ⟨b', limit, host⟩ formula) ∧
      (∀ (b : Bindings σ) name value, name ∉ e.references →
        ExecuteAlike ⟨b.setVariable name value, limit, host⟩ ⟨b, limit, host⟩ formula) ∧
      ∀ (b : Bindings σ) name f, name ∉ e.callees →
        ExecuteAlike ⟨b.setFunction name f, limit, host⟩ ⟨b, limit, host⟩ formula) ∧
    ∀ error, Expr.ofString formula limit = .error error → ∀ b b' : Bindings σ,
      ExecuteAlike ⟨b, limit, host⟩ ⟨b', limit, host⟩ formula := by
  constructor
  · intro e parsed
    have alike {b b' : Bindings σ} (agree : b.AgreeOn b' e.references e.callees) :
        ExecuteAlike ⟨b, limit, host⟩ ⟨b', limit, host⟩ formula := by
      refine executeAlike_of_agreeOn (fun e' parsed' => ?_) host
      rw [parsed] at parsed'
      obtain rfl := Except.ok.inj parsed'
      exact agree
    refine ⟨fun b b' => alike, fun b name value absent => ?_, fun b name f absent => ?_⟩
    · exact alike (b.agreeOn_setVariable absent value e.callees)
    · exact alike (b.agreeOn_setFunction absent f e.references)
  · intro error failed b b'
    refine executeAlike_of_agreeOn (fun e parsed => ?_) host
    rw [failed] at parsed
    cases parsed

/-- The function `F` and the variable `x`. -/
def functionAndVariable : Bindings (List String) :=
  (Bindings.empty.setFunction "F" Expr.recorder).setVariable "x" (.string "a")

/-- The same with a variable `F` and a function `x`. -/
def crossedNames : Bindings (List String) :=
  (functionAndVariable.setVariable "F" (.boolean false)).setFunction "x" Expr.recorder

/-- The formula `F(x)` calls the function `F` and refers to the variable `x`, and it makes no
difference that there are a variable `F` and a function `x` too. -/
theorem executeAlike_crossedNames :
    Expr.ofString "F(x)" 3 = .ok (.call "F" [.reference "x" 3] 1) ∧
      crossedNames.AgreeOn functionAndVariable ["x"] ["F"] ∧
      ExecuteAlike ⟨crossedNames, 3, []⟩ ⟨functionAndVariable, 3, []⟩ "F(x)" ∧
      (Session.execute ⟨crossedNames, 3, []⟩ "F(x)").1 = .ok (.boolean true) := by
  have parsed : Expr.ofString "F(x)" 3 = .ok (.call "F" [.reference "x" 3] 1) := by cbv
  have agree : crossedNames.AgreeOn functionAndVariable ["x"] ["F"] := by
    constructor <;> intro name mem
    · obtain rfl := List.mem_singleton.mp mem
      simp [crossedNames, Bindings.value?_setVariable]
    · obtain rfl := List.mem_singleton.mp mem
      simp [crossedNames, Bindings.function?_setFunction]
  have alike := ((executeAlike_of_mentioned_names "F(x)" 3 []).1 _ parsed).1 _ _ agree
  refine ⟨parsed, agree, alike, ?_⟩
  have reparsed : Session.parse ⟨functionAndVariable, 3, []⟩ "F(x)" =
      .ok (.call "F" [.reference "x" 3] 1) := parsed
  rw [alike.outcome]
  simp only [execute, reparsed, Expr.value_eq_guardedEval]
  rfl

end Session

end SheetFormula
