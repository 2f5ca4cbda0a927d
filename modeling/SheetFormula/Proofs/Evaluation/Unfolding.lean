import SheetFormula.Expr.Eval

/-!
# Evaluation by the structure of expressions

`Expr.eval` lays out a chain of operators and works it off. Here it is unfolded along the tree: a
binary node evaluates its left operand, its right operand and the operator, where a left operand
that is itself a binary node belongs to the same chain and opens no level of its own. There is one
equation for each kind of node (`Expr.eval_number` and those after it), and nothing further on
looks at how chains are worked off.

An expression is therefore evaluated in two ways, by itself and as the left operand of an operator.
`Expr.evalOperand` is the second one: a chain without the level that belongs to it. For a binary
node it has an equation of its own (`Expr.evalOperand_binary`), while any other node is a chain
without operators and both ways are the same (`Expr.evalOperand_of_unfold`).

Laying out a chain takes the operators of a left operand before those that are already there. That
working them off in this order evaluates the left operand first is `Expr.eval_unfold`, by induction
on the expression with any links behind it.

The steps of an evaluation are taken one after the other (`run_bind`), which is how the lemmas
about single computations in the modules after this one are put together.
-/

namespace SheetFormula

open Evaluation

/-- The outcome of two steps, the second one taken only if the first succeeds. -/
theorem run_bind {τ α β : Type} (x : ExceptT Error (StateM τ) α)
    (f : α → ExceptT Error (StateM τ) β) (s : τ) :
    (x >>= f).run s =
      match x.run s with
      | (.ok a, after) => (f a).run after
      | (.error e, after) => (.error e, after) := by
  change (match x.run s with
    | (a, after) => (ExceptT.bindCont f a) after) = _
  split
  · next a after h =>
    cases a <;> rw [h] <;> rfl

/-- Two steps fail together if the first fails, or if it succeeds and the second fails. -/
theorem run_bind_eq_error {τ α β : Type} {x : ExceptT Error (StateM τ) α}
    {f : α → ExceptT Error (StateM τ) β} {s after : τ} {e : Error} :
    (x >>= f).run s = (.error e, after) ↔ x.run s = (.error e, after) ∨
      ∃ a between, x.run s = (.ok a, between) ∧ (f a).run between = (.error e, after) := by
  rw [run_bind]
  constructor
  · intro h
    split at h
    · next a between hx => exact .inr ⟨a, between, hx, h⟩
    · next e' between hx =>
      cases h
      exact .inl hx
  · rintro (hx | ⟨a, between, hx, hf⟩)
    · rw [hx]
    · rw [hx]
      exact hf

/-- Two steps succeed together if both do. -/
theorem run_bind_eq_ok {τ α β : Type} {x : ExceptT Error (StateM τ) α}
    {f : α → ExceptT Error (StateM τ) β} {s after : τ} {b : β} :
    (x >>= f).run s = (.ok b, after) ↔
      ∃ a between, x.run s = (.ok a, between) ∧ (f a).run between = (.ok b, after) := by
  rw [run_bind]
  constructor
  · intro h
    split at h
    · next a between hx => exact ⟨a, between, hx, h⟩
    · cases h
  · rintro ⟨a, between, hx, hf⟩
    rw [hx]
    exact hf

theorem run_ofExcept {τ α : Type} (x : Except Error α) (s : τ) :
    (ofExcept x : ExceptT Error (StateM τ) α).run s = (x, s) := by
  cases x <;> rfl

namespace Expr

variable {σ : Type} (bindings : Bindings σ) (limit : Nat)

/-- The value of an expression as the left operand of an operator. The operators of a chain share
the level that the last of them has opened. -/
def evalOperand (e : Expr) : Evaluation σ Value := do
  let chain := Chain.ofExpr e
  let value ← chain.head.eval bindings limit
  Link.evalAll bindings limit value chain.links

/-- An expression that is no binary node is a chain without operators. -/
theorem evalOperand_of_unfold {e : Expr} (h : ∀ links, Chain.unfold e links = ⟨e, links⟩) :
    e.evalOperand bindings limit = e.eval bindings limit := by
  simp [evalOperand, Chain.ofExpr, h, Link.evalAll]

/-- The operators of a chain that is laid out before further ones are applied before them. -/
theorem eval_unfold : ∀ (e : Expr) (links : List Link),
    (do
      let value ← (Chain.unfold e links).head.eval bindings limit
      Link.evalAll bindings limit value (Chain.unfold e links).links) =
    (do
      let value ← e.evalOperand bindings limit
      Link.evalAll bindings limit value links)
  | .binary op left right position, links => by
    calc _ = (do
          let value ← left.evalOperand bindings limit
          Link.evalAll bindings limit value (⟨op, right, position⟩ :: links)) :=
          eval_unfold left (⟨op, right, position⟩ :: links)
      _ = ((do
          let value ← left.evalOperand bindings limit
          Link.evalAll bindings limit value [⟨op, right, position⟩]) >>=
            fun value => Link.evalAll bindings limit value links) := by
          simp [Link.evalAll]
      _ = _ := by
          rw [← eval_unfold left [⟨op, right, position⟩]]
          rfl
  | .number .., links | .string .., links | .reference .., links | .unary .., links
  | .call .., links => by
    rw [evalOperand_of_unfold bindings limit fun _ => rfl]
    rfl

/-- Within a chain an operator is applied to its left operand, from the same chain, and then to its
right one. -/
theorem evalOperand_binary (op : Operator) (left right : Expr) (position : Nat) :
    (Expr.binary op left right position).evalOperand bindings limit = (do
      let x ← left.evalOperand bindings limit
      let y ← right.eval bindings limit
      ofExcept (op.apply x y position)) := by
  have := eval_unfold bindings limit left [⟨op, right, position⟩]
  simpa [Link.evalAll, evalOperand, Chain.ofExpr, Chain.unfold] using this

/-! ## One node -/

theorem eval_number (text : String) (position : Nat) :
    (Expr.number text position).eval bindings limit =
      nested limit position (ofExcept (literalValue text position)) := by
  rw [Expr.eval]
  rfl

theorem eval_string (text : String) (position : Nat) :
    (Expr.string text position).eval bindings limit =
      nested limit position (pure (.string text)) := by
  rw [Expr.eval]
  rfl

theorem eval_reference (name : String) (position : Nat) :
    (Expr.reference name position).eval bindings limit =
      nested limit position (match bindings.value? name with
        | some value => pure value
        | none => throw (.unknownVariable name position)) := by
  rw [Expr.eval]
  rfl

theorem eval_unary (sign : Sign) (operand : Expr) (position : Nat) :
    (Expr.unary sign operand position).eval bindings limit =
      nested limit position (do
        let value ← operand.eval bindings limit
        ofExcept (sign.apply value position)) := by
  rw [Expr.eval]
  rfl

/-- A binary node opens one level for its whole chain. -/
theorem eval_binary (op : Operator) (left right : Expr) (position : Nat) :
    (Expr.binary op left right position).eval bindings limit =
      nested limit position ((Expr.binary op left right position).evalOperand bindings limit) := by
  rw [Expr.eval]
  rfl

theorem eval_call (name : String) (arguments : List Expr) (position : Nat) :
    (Expr.call name arguments position).eval bindings limit =
      nested limit position (match bindings.function? name with
        | some f => do
          let values ← Expr.evalAll bindings limit arguments
          callHost f values
        | none => throw (.unknownFunction name position)) := by
  rw [Expr.eval]
  rfl

end Expr

end SheetFormula
