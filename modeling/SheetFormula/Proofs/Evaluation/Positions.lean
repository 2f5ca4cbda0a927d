import SheetFormula.Proofs.Evaluation.Guarded
import SheetFormula.Proofs.Rendering.Expression

/-!
# Positions in evaluation

The positions in a tree are only there for the messages of errors. Trees that differ in nothing
else have the same value under every limit, fail with errors that differ in nothing else, and leave
the host functions in the same state (`Expr.value_upToPositions`), so where the tokens of a formula
stand does not matter for what it comes to. A tree without positions has all of them set to zero
(`Expr.withoutPositions`), and so has an error (`Error.withoutPosition`).

Two outcomes are the same up to positions if they are equal without them (`SameUpToPosition`).
Signs and operators look at the kinds and the values of their operands and pass the position on, so
at different positions they give such outcomes (`SameUpToPosition.signApply`,
`SameUpToPosition.operatorApply`). `AgreeUpToPositions` is the same for two computations that also
leave one state, and `AgreeUpToPositions.bind` runs two of them one after the other.

Guarded evaluation of a tree and of the tree without positions agree in this sense
(`Expr.guardedEval_upToPositions`), by induction on the tree. It needs that a left operand is of
the chain of its operator in both or in neither (`Expr.leftStep_withoutPositions`). A value has no
positions, so two such trees have the same value (`Expr.value_eq_ok_of_withoutPositions`).
-/

namespace SheetFormula

variable {σ α β : Type}

/-- The error with its position set to zero, if it names one. -/
def Error.withoutPosition : Error → Error
  | .unexpectedChar c _ => .unexpectedChar c 0
  | .invalidComparison run _ => .invalidComparison run 0
  | .unexpectedToken expected found _ => .unexpectedToken expected found 0
  | .unknownVariable name _ => .unknownVariable name 0
  | .unknownFunction name _ => .unknownFunction name 0
  | .typeMismatch operator expected found _ => .typeMismatch operator expected found 0
  | .divisionByZero _ => .divisionByZero 0
  | .invalidNumber text _ => .invalidNumber text 0
  | .nestingTooDeep limit _ => .nestingTooDeep limit 0
  | .function message => .function message
  | .json message => .json message

/-! ## Outcomes that differ in positions only -/

/-- The same result, or errors that differ in nothing but their positions. -/
def SameUpToPosition (x y : Except Error α) : Prop :=
  x.mapError Error.withoutPosition = y.mapError Error.withoutPosition

namespace SameUpToPosition

theorem literalValue (text : String) (position position' : Nat) :
    SameUpToPosition (literalValue text position) (literalValue text position') := by
  unfold SheetFormula.literalValue
  cases Number.readComma? text.toList <;> rfl

theorem operand (operator : Symbol) (v : Value) (position position' : Nat) :
    SameUpToPosition (v.operand operator position) (v.operand operator position') := by
  cases v <;> rfl

theorem bind {x y : Except Error α} {f g : α → Except Error β} (first : SameUpToPosition x y)
    (rest : ∀ a, SameUpToPosition (f a) (g a)) : SameUpToPosition (x >>= f) (y >>= g) := by
  cases x with
  | error e =>
    cases y with
    | error e' => exact congrArg Except.error (Except.error.inj first)
    | ok b => cases first
  | ok a =>
    cases y with
    | error e' => cases first
    | ok b =>
      obtain rfl : a = b := Except.ok.inj first
      exact rest a

theorem signApply (sign : Sign) (v : Value) (position position' : Nat) :
    SameUpToPosition (sign.apply v position) (sign.apply v position') :=
  (operand sign.symbol v position position').bind fun _ => rfl

theorem operatorApply (op : Operator) (x y : Value) (position position' : Nat) :
    SameUpToPosition (op.apply x y position) (op.apply x y position') := by
  cases op with
  | arithmetic op =>
    refine (operand op.symbol x position position').bind fun a => ?_
    refine (operand op.symbol y position position').bind fun b => ?_
    cases op.compute? a b <;> rfl
  | comparison op =>
    have order : SameUpToPosition (op.order? x y position) (op.order? x y position') := by
      cases x <;> cases y <;> rfl
    cases op with
    | equal => rfl
    | _ => exact order.bind fun _ => rfl

end SameUpToPosition

/-- Two computations leave the same state, with outcomes that differ in positions only. -/
def AgreeUpToPositions (x y : HostAction σ α) : Prop :=
  ∀ host, SameUpToPosition (x.run host).1 (y.run host).1 ∧ (x.run host).2 = (y.run host).2

namespace AgreeUpToPositions

theorem refl (x : HostAction σ α) : AgreeUpToPositions x x :=
  fun _ => ⟨rfl, rfl⟩

theorem ofExcept {x y : Except Error α} (same : SameUpToPosition x y) :
    AgreeUpToPositions (MonadExcept.ofExcept x : HostAction σ α) (MonadExcept.ofExcept y) := by
  intro host
  rw [run_ofExcept, run_ofExcept]
  exact ⟨same, rfl⟩

theorem throw {e e' : Error} (same : e.withoutPosition = e'.withoutPosition) :
    AgreeUpToPositions (MonadExcept.throw e : HostAction σ α) (MonadExcept.throw e') :=
  fun _ => ⟨congrArg Except.error same, rfl⟩

theorem bind {x y : HostAction σ α} {f g : α → HostAction σ β} (first : AgreeUpToPositions x y)
    (rest : ∀ a, AgreeUpToPositions (f a) (g a)) : AgreeUpToPositions (x >>= f) (y >>= g) := by
  intro host
  obtain ⟨same, state⟩ := first host
  rw [run_bind, run_bind]
  generalize x.run host = outcome at same state ⊢
  generalize y.run host = outcome' at same state ⊢
  obtain ⟨result, after⟩ := outcome
  obtain ⟨result', after'⟩ := outcome'
  obtain rfl : after = after' := state
  cases result with
  | error e =>
    cases result' with
    | error e' => exact ⟨congrArg Except.error (Except.error.inj same), rfl⟩
    | ok b => cases same
  | ok a =>
    cases result' with
    | error e' => cases same
    | ok b =>
      obtain rfl : a = b := Except.ok.inj same
      exact rest a after

end AgreeUpToPositions

/-! ## Expressions -/

namespace Expr

variable {bindings : Bindings σ} {limit : Nat}

theorem leftStep_withoutPositions (e : Expr) : e.withoutPositions.leftStep = e.leftStep := by
  cases e <;> rfl

mutual

/-- Evaluation does not look at positions. -/
theorem guardedEval_upToPositions : ∀ (e : Expr) (room : Nat),
    AgreeUpToPositions (e.guardedEval bindings limit room)
      (e.withoutPositions.guardedEval bindings limit room)
  | e, 0 => by
    rw [guardedEval, guardedEval]
    exact .throw rfl
  | .number text position, room + 1 => by
    rw [withoutPositions, guardedEval, guardedEval]
    exact .ofExcept (.literalValue text position 0)
  | .string .., room + 1 => by
    rw [withoutPositions, guardedEval, guardedEval]
    exact .refl _
  | .reference name position, room + 1 => by
    rw [withoutPositions, guardedEval, guardedEval]
    cases bindings.value? name with
    | some value => exact .refl _
    | none => exact .throw rfl
  | .unary sign operand position, room + 1 => by
    rw [withoutPositions, guardedEval, guardedEval]
    exact (operand.guardedEval_upToPositions room).bind fun value =>
      .ofExcept (.signApply sign value position 0)
  | .binary op left right position, room + 1 => by
    rw [withoutPositions, guardedEval, guardedEval, leftStep_withoutPositions]
    refine (left.guardedEval_upToPositions _).bind fun x => ?_
    exact (right.guardedEval_upToPositions room).bind fun y =>
      .ofExcept (.operatorApply op x y position 0)
  | .call name arguments position, room + 1 => by
    rw [withoutPositions, guardedEval, guardedEval]
    cases bindings.function? name with
    | some f => exact (guardedEvalAll_upToPositions arguments room).bind fun values => .refl _
    | none => exact .throw rfl

theorem guardedEvalAll_upToPositions : ∀ (es : List Expr) (room : Nat),
    AgreeUpToPositions (guardedEvalAll bindings limit room es)
      (guardedEvalAll bindings limit room (withoutPositionsAll es))
  | [], room => by
    rw [withoutPositionsAll]
    exact .refl _
  | e :: others, room => by
    rw [withoutPositionsAll, guardedEvalAll, guardedEvalAll]
    refine (e.guardedEval_upToPositions room).bind fun value => ?_
    exact (guardedEvalAll_upToPositions others room).bind fun values => .refl _

end

/-- What an expression comes to does not depend on its positions, but for those in the error. -/
theorem value_upToPositions (bindings : Bindings σ) (limit : Nat) {e e' : Expr}
    (same : e.withoutPositions = e'.withoutPositions) (host : σ) :
    SameUpToPosition (e.value bindings limit host).1 (e'.value bindings limit host).1 ∧
      (e.value bindings limit host).2 = (e'.value bindings limit host).2 := by
  have agree (e : Expr) : AgreeUpToPositions (e.guardedEval bindings limit limit) _ :=
    e.guardedEval_upToPositions limit
  obtain ⟨left, leftState⟩ := agree e host
  obtain ⟨right, rightState⟩ := agree e' host
  rw [same] at left leftState
  rw [value_eq_guardedEval, value_eq_guardedEval]
  exact ⟨left.trans right.symm, leftState.trans rightState.symm⟩

/-- Trees that differ in positions only have the same value, or neither has one. -/
theorem value_eq_ok_of_withoutPositions {e e' : Expr} {host after : σ} {v : Value}
    (same : e.withoutPositions = e'.withoutPositions)
    (h : e'.value bindings limit host = (.ok v, after)) :
    e.value bindings limit host = (.ok v, after) := by
  obtain ⟨outcome, state⟩ := value_upToPositions bindings limit same host
  rw [h] at outcome state
  refine Prod.ext ?_ state
  cases hv : (e.value bindings limit host).1 with
  | ok v' =>
    rw [hv] at outcome
    exact congrArg Except.ok (Except.ok.inj outcome)
  | error e =>
    rw [hv] at outcome
    cases outcome

end Expr

end SheetFormula
