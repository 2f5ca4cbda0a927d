import SheetFormula.Proofs.Evaluation.Refinement

/-!
# Guarded evaluation

Evaluation by recursion on the tree with the limit as a guard before each node: a node with no room
left fails because of the limit, and otherwise its operands have one level less room, except that a
left operand of the same chain keeps the room of its operator (`Expr.guardedEval`). It does all
that evaluation does, as to the outcome and the state of the host functions
(`Expr.value_eq_guardedEval`), so that what holds under a limit can be shown along the tree.

Plain evaluation does not serve for this. Where the limit is exceeded it says nothing about the
calls that were made before, nor about the place of the error.

`Simulates` states it for one computation: at some depth it does what another one does that knows
of no depth, and it comes back to where it was. It is kept by `Simulates.bind`, by opening a level
if there is room for it (`Simulates.nested`), and without room by failing
(`Simulates.nested_of_le`).

An expression is simulated by itself and as the left operand of an operator at once, since a chain
needs both of its left part (`Expr.SimulatesGuarded`). A node opens a level for something, and then
it is enough to look at what is done there (`Expr.SimulatesGuarded.of_body`); only a binary node
needs more (`Expr.SimulatesGuarded.binary`). Together these give `Expr.simulatesGuarded`.
-/

namespace SheetFormula

variable {σ α β : Type}

namespace Expr

variable (bindings : Bindings σ) (limit : Nat)

mutual

/-- The value of `e` by recursion on the tree, with `room` levels left of the limit. -/
def guardedEval : (room : Nat) → Expr → HostAction σ Value
  | 0, e => throw (.nestingTooDeep limit e.position)
  | _ + 1, .number text position => ofExcept (literalValue text position)
  | _ + 1, .string text _ => pure (.string text)
  | _ + 1, .reference name position =>
    match bindings.value? name with
    | some value => pure value
    | none => throw (.unknownVariable name position)
  | room + 1, .unary sign operand position => do
    let value ← guardedEval room operand
    ofExcept (sign.apply value position)
  | room + 1, .binary op left right position => do
    let x ← guardedEval (room + 1 - left.leftStep) left
    let y ← guardedEval room right
    ofExcept (op.apply x y position)
  | room + 1, .call name arguments position =>
    match bindings.function? name with
    | some f => do
      let values ← guardedEvalAll room arguments
      HostAction.call f values
    | none => throw (.unknownFunction name position)

/-- The values of a list of expressions, in order, with `room` levels left for each. -/
def guardedEvalAll : (room : Nat) → List Expr → HostAction σ (List Value)
  | _, [] => pure []
  | room, e :: others => do
    let value ← guardedEval room e
    let values ← guardedEvalAll room others
    pure (value :: values)

end

end Expr

/-! ## One computation -/

/-- At `depth`, `action` does what `plain` does and comes back to `depth`. -/
def Simulates (depth : Nat) (action : Evaluation σ α) (plain : HostAction σ α) : Prop :=
  ∀ host, action.run ⟨depth, host⟩ = ((plain.run host).1, ⟨depth, (plain.run host).2⟩)

namespace Simulates

variable {limit depth : Nat}

theorem ofExcept (x : Except Error α) :
    Simulates depth (MonadExcept.ofExcept x) (MonadExcept.ofExcept x : HostAction σ α) := by
  cases x <;> exact fun _ => rfl

theorem bind {x : Evaluation σ α} {p : HostAction σ α} {f : α → Evaluation σ β}
    {g : α → HostAction σ β} (first : Simulates depth x p)
    (rest : ∀ a, Simulates depth (f a) (g a)) : Simulates depth (x >>= f) (p >>= g) := by
  intro host
  rw [run_bind, run_bind, first host]
  generalize p.run host = outcome
  obtain ⟨_ | a, after⟩ := outcome
  · rfl
  · exact rest a after

/-- A level is opened if there is room for it. -/
theorem nested {x : Evaluation σ α} {p : HostAction σ α} (position : Nat) (room : depth < limit)
    (body : Simulates (depth + 1) x p) :
    Simulates depth (Evaluation.nested limit position x) p := by
  intro host
  rw [Evaluation.run_nested, if_pos room, body host]
  rfl

/-- Without room a level is not opened. -/
theorem nested_of_le (x : Evaluation σ α) (position : Nat) (full : limit ≤ depth) :
    Simulates depth (Evaluation.nested limit position x)
      (throw (.nestingTooDeep limit position)) := by
  intro host
  rw [Evaluation.run_nested, if_neg (Nat.not_lt.mpr full)]
  rfl

end Simulates

/-! ## Expressions -/

namespace Expr

variable (bindings : Bindings σ) (limit : Nat)

/-- With `room` levels left an expression is evaluated as by guarded evaluation, both by itself and
as the left operand of an operator. -/
def SimulatesGuarded (e : Expr) : Prop :=
  ∀ depth room, depth + room = limit →
    Simulates depth (e.eval bindings limit) (e.guardedEval bindings limit room) ∧
      Simulates depth (e.evalOperand bindings limit)
        (e.guardedEval bindings limit (room + 1 - e.leftStep))

variable {bindings limit}

/-- An expression that opens a level for `body` is evaluated as by guarded evaluation if `body` is
what that does with room left. -/
theorem simulates_of_body {e : Expr} {body : Evaluation σ Value}
    (opens : e.eval bindings limit = Evaluation.nested limit e.position body)
    (h : ∀ depth room, depth + room + 1 = limit →
      Simulates (depth + 1) body (e.guardedEval bindings limit (room + 1)))
    {depth room : Nat} (total : depth + room = limit) :
    Simulates depth (e.eval bindings limit) (e.guardedEval bindings limit room) := by
  rw [opens]
  cases room with
  | zero =>
    rw [guardedEval]
    exact Simulates.nested_of_le body e.position (by omega)
  | succ room => exact (h depth room total).nested e.position (by omega)

/-- An expression that is no binary node is evaluated in the same way in both places. -/
theorem SimulatesGuarded.of_body {e : Expr} {body : Evaluation σ Value}
    (unfolded : ∀ links, Chain.unfold e links = ⟨e, links⟩) (step : e.leftStep = 1)
    (opens : e.eval bindings limit = Evaluation.nested limit e.position body)
    (h : ∀ depth room, depth + room + 1 = limit →
      Simulates (depth + 1) body (e.guardedEval bindings limit (room + 1))) :
    e.SimulatesGuarded bindings limit := by
  intro depth room total
  have simulated := simulates_of_body opens h total
  refine ⟨simulated, ?_⟩
  rw [evalOperand_of_unfold bindings limit unfolded, step, Nat.add_sub_cancel]
  exact simulated

/-- A binary node is evaluated as by guarded evaluation if its operands are. -/
theorem SimulatesGuarded.binary {op : Operator} {left right : Expr} {position : Nat}
    (hleft : left.SimulatesGuarded bindings limit)
    (hright : right.SimulatesGuarded bindings limit) :
    (Expr.binary op left right position).SimulatesGuarded bindings limit := by
  have operand (depth room : Nat) (total : depth + room = limit) :
      Simulates depth ((Expr.binary op left right position).evalOperand bindings limit)
        ((Expr.binary op left right position).guardedEval bindings limit (room + 1)) := by
    rw [evalOperand_binary, guardedEval]
    refine (hleft depth room total).2.bind fun x => ?_
    exact (hright depth room total).1.bind fun y => Simulates.ofExcept (op.apply x y position)
  intro depth room total
  refine ⟨?_, operand depth room total⟩
  exact simulates_of_body (eval_binary bindings limit op left right position)
    (fun depth room total => operand (depth + 1) room (by omega)) total

mutual

/-- Every expression is evaluated as by guarded evaluation. -/
theorem simulatesGuarded : ∀ e : Expr, e.SimulatesGuarded bindings limit
  | .number text position =>
    .of_body (fun _ => rfl) rfl (eval_number bindings limit text position) fun _ _ _ =>
      Simulates.ofExcept _
  | .string text position =>
    .of_body (fun _ => rfl) rfl (eval_string bindings limit text position) fun _ _ _ _ => rfl
  | .reference name position =>
    .of_body (fun _ => rfl) rfl (eval_reference bindings limit name position) fun _ _ _ => by
      rw [guardedEval]
      cases bindings.value? name <;> exact fun _ => rfl
  | .unary sign operand position =>
    .of_body (fun _ => rfl) rfl (eval_unary bindings limit sign operand position)
      fun depth room total => by
        rw [guardedEval]
        exact (operand.simulatesGuarded (depth + 1) room (by omega)).1.bind fun value =>
          Simulates.ofExcept (sign.apply value position)
  | .binary op left right position => .binary left.simulatesGuarded right.simulatesGuarded
  | .call name arguments position =>
    .of_body (fun _ => rfl) rfl (eval_call bindings limit name arguments position)
      fun depth room total => by
        rw [guardedEval]
        cases bindings.function? name with
        | some f =>
          exact (simulatesGuarded_all arguments (depth + 1) room (by omega)).bind
            fun values _ => rfl
        | none => exact fun _ => rfl

theorem simulatesGuarded_all : ∀ (es : List Expr) (depth room : Nat), depth + room = limit →
    Simulates depth (Expr.evalAll bindings limit es) (guardedEvalAll bindings limit room es)
  | [], depth, room, _ => by
    rw [Expr.evalAll, guardedEvalAll]
    exact fun _ => rfl
  | e :: others, depth, room, total => by
    rw [Expr.evalAll, guardedEvalAll]
    refine (e.simulatesGuarded depth room total).1.bind fun value => ?_
    exact (simulatesGuarded_all others depth room total).bind fun values _ => rfl

end

/-- Evaluation is guarded evaluation with all levels of the limit as room. -/
theorem value_eq_guardedEval (bindings : Bindings σ) (limit : Nat) (e : Expr) (host : σ) :
    e.value bindings limit host = (e.guardedEval bindings limit limit).run host := by
  have simulated : e.SimulatesGuarded bindings limit := e.simulatesGuarded
  have h := (simulated 0 limit (by omega)).1 host
  simp only [value, h]
  rfl

end Expr

end SheetFormula
