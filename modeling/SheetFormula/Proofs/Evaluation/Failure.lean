import SheetFormula.Proofs.Evaluation.Plain
import SheetFormula.Proofs.Evaluation.Unfolding

/-!
# What evaluation fails with

Every error of plain evaluation arises at some node of the tree, and the node tells what error it
is (`Expr.Raises`, `Expr.raises_of_plainEval`). A literal, a reference and a call without its
function fail by themselves, a sign or an operator fails on the values of its operands, and a call
passes on what the function fails with.

A sign fails on a value that is no number and on nothing else (`Sign.apply_eq_error`). An operator
fails on a value of the wrong kind, or it is a division by zero (`Operator.apply_eq_error`). In
each case the position is that of the node and the text that of its operator.

That an error arises in the tree goes by induction on it. Of two steps one after the other the
first fails, or else the second does (`run_bind_eq_error`), so that the error of a node is that of
an operand or of its own step. For the arguments of a call there is the same statement about a list
(`Expr.exists_raises_of_plainEvalAll`).

The error of the limit is not among those that arise here, unless a function fails with it. What a
function may fail with is a condition on the bindings, such as `Bindings.FailsWithMessages`.
-/

namespace SheetFormula

/-- Every function of the bindings fails with a message of its own. -/
def Bindings.FailsWithMessages {σ : Type} (bindings : Bindings σ) : Prop :=
  ∀ name f, bindings.function? name = some f → ∀ arguments host e,
    (f arguments host).1 = .error e → ∃ message, e = .function message

/-- The errors that can arise in a tree. -/
inductive Expr.Raises {σ : Type} (bindings : Bindings σ) : Expr → Error → Prop where
  | number (text : String) (position : Nat) :
    Raises bindings (.number text position) (.invalidNumber text position)
  | reference (name : String) (position : Nat) :
    Raises bindings (.reference name position) (.unknownVariable name position)
  | sign (sign : Sign) (operand : Expr) (position : Nat) (found : Value.Kind) :
    Raises bindings (.unary sign operand position)
      (.typeMismatch sign.symbol.text "number" found position)
  | operator (op : Operator) (left right : Expr) (position : Nat) (expected : String)
      (found : Value.Kind) :
    Raises bindings (.binary op left right position)
      (.typeMismatch op.symbol.text expected found position)
  | division (left right : Expr) (position : Nat) :
    Raises bindings (.binary (.arithmetic .divide) left right position) (.divisionByZero position)
  | unknown (name : String) (arguments : List Expr) (position : Nat) :
    Raises bindings (.call name arguments position) (.unknownFunction name position)
  | host {name : String} {f : HostFunction σ} (found : bindings.function? name = some f)
      (values : List Value) (host : σ) {e : Error} (failed : (f values host).1 = .error e)
      (arguments : List Expr) (position : Nat) :
    Raises bindings (.call name arguments position) e
  | operand {operand : Expr} {e : Error} (inner : Raises bindings operand e) (sign : Sign)
      (position : Nat) : Raises bindings (.unary sign operand position) e
  | left {left : Expr} {e : Error} (inner : Raises bindings left e) (op : Operator) (right : Expr)
      (position : Nat) : Raises bindings (.binary op left right position) e
  | right {right : Expr} {e : Error} (inner : Raises bindings right e) (op : Operator)
      (left : Expr) (position : Nat) : Raises bindings (.binary op left right position) e
  | argument {argument : Expr} {arguments : List Expr} {e : Error} (mem : argument ∈ arguments)
      (inner : Raises bindings argument e) (name : String) (position : Nat) :
    Raises bindings (.call name arguments position) e

/-! ## Operators on values -/

theorem literalValue_eq_error {text : String} {position : Nat} {e : Error}
    (h : literalValue text position = .error e) : e = .invalidNumber text position := by
  unfold literalValue at h
  split at h <;> cases h
  rfl

theorem Value.operand_eq_error {symbol : Symbol} {position : Nat} {v : Value} {e : Error}
    (h : v.operand symbol position = .error e) :
    e = .typeMismatch symbol.text "number" v.kind position := by
  unfold Value.operand at h
  split at h <;> cases h
  rfl

/-- A sign fails only on a value that is no number. -/
theorem Sign.apply_eq_error {sign : Sign} {v : Value} {position : Nat} {e : Error}
    (h : sign.apply v position = .error e) :
    e = .typeMismatch sign.symbol.text "number" v.kind position := by
  unfold Sign.apply at h
  cases hv : v.operand sign.symbol position with
  | error e' =>
    rw [hv] at h
    cases h
    exact Value.operand_eq_error hv
  | ok x =>
    rw [hv] at h
    cases sign <;> cases h

/-- An operator fails on a value of the wrong kind, or it is a division by zero. -/
theorem Operator.apply_eq_error {op : Operator} {x y : Value} {position : Nat} {e : Error}
    (h : op.apply x y position = .error e) :
    (∃ expected found, e = .typeMismatch op.symbol.text expected found position) ∨
      op = .arithmetic .divide ∧ e = .divisionByZero position := by
  cases op with
  | arithmetic op =>
    simp only [Operator.apply, Arithmetic.apply] at h
    cases hx : x.operand op.symbol position with
    | error e' =>
      rw [hx] at h
      cases h
      exact .inl ⟨_, _, Value.operand_eq_error hx⟩
    | ok x' =>
      cases hy : y.operand op.symbol position with
      | error e' =>
        rw [hx, hy] at h
        cases h
        exact .inl ⟨_, _, Value.operand_eq_error hy⟩
      | ok y' =>
        rw [hx, hy] at h
        have computed : op.compute? x' y' = none ∧ e = .divisionByZero position := by
          cases hz : op.compute? x' y' <;> simp_all [Bind.bind, Except.bind]
        refine .inr ⟨?_, computed.2⟩
        cases op <;> simp [Arithmetic.compute?] at computed
        rfl
  | comparison op =>
    have ordered : op.order? x y position = .error e := by
      cases op <;> simp only [Operator.apply, Comparison.apply] at h
      · cases h
      all_goals
        revert h
        cases Comparison.order? _ x y position <;> simp [Bind.bind, Except.bind]
    unfold Comparison.order? at ordered
    split at ordered <;> cases ordered <;> exact .inl ⟨_, _, rfl⟩

/-! ## Trees -/

namespace Expr

variable {σ : Type} {bindings : Bindings σ}

mutual

/-- What plain evaluation fails with arises in the tree. -/
theorem raises_of_plainEval : ∀ {e : Expr} {host after : σ} {error : Error},
    (e.plainEval bindings).run host = (.error error, after) → e.Raises bindings error
  | .number text position, host, after, error, h => by
    rw [plainEval, run_ofExcept] at h
    rw [literalValue_eq_error (Prod.mk.inj h).1]
    exact .number text position
  | .string .., _, _, _, h => by
    rw [plainEval] at h
    cases h
  | .reference name position, _, _, _, h => by
    rw [plainEval] at h
    split at h <;> cases h
    exact .reference name position
  | .unary sign operand position, _, _, _, h => by
    rw [plainEval] at h
    rcases run_bind_eq_error.mp h with h | ⟨v, between, -, h⟩
    · exact (raises_of_plainEval h).operand sign position
    · rw [run_ofExcept] at h
      rw [Sign.apply_eq_error (Prod.mk.inj h).1]
      exact .sign sign operand position v.kind
  | .binary op left right position, _, _, _, h => by
    rw [plainEval] at h
    rcases run_bind_eq_error.mp h with h | ⟨x, between, -, h⟩
    · exact (raises_of_plainEval h).left op right position
    · rcases run_bind_eq_error.mp h with h | ⟨y, between, -, h⟩
      · exact (raises_of_plainEval h).right op left position
      · rw [run_ofExcept] at h
        rcases Operator.apply_eq_error (Prod.mk.inj h).1 with ⟨expected, found, rfl⟩ | ⟨rfl, rfl⟩
        · exact .operator op left right position expected found
        · exact .division left right position
  | .call name arguments position, _, _, _, h => by
    rw [plainEval] at h
    split at h
    · next f found =>
      rcases run_bind_eq_error.mp h with h | ⟨values, between, -, h⟩
      · obtain ⟨argument, mem, inner⟩ := exists_raises_of_plainEvalAll h
        exact inner.argument mem name position
      · exact .host found values between (congrArg Prod.fst h) arguments position
    · cases h
      exact .unknown name arguments position

theorem exists_raises_of_plainEvalAll : ∀ {es : List Expr} {host after : σ} {error : Error},
    (plainEvalAll bindings es).run host = (.error error, after) →
      ∃ e ∈ es, e.Raises bindings error
  | [], _, _, _, h => by
    rw [plainEvalAll] at h
    cases h
  | e :: others, _, _, _, h => by
    rw [plainEvalAll] at h
    rcases run_bind_eq_error.mp h with h | ⟨value, between, -, h⟩
    · exact ⟨e, List.mem_cons_self, raises_of_plainEval h⟩
    · rcases run_bind_eq_error.mp h with h | ⟨values, between, -, h⟩
      · obtain ⟨e', mem, raised⟩ := exists_raises_of_plainEvalAll h
        exact ⟨e', List.mem_cons_of_mem e mem, raised⟩
      · cases h

end

end Expr

end SheetFormula
