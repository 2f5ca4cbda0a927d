import SheetFormula.Proofs.Evaluation.Levels

/-!
# Evaluation under a limit is plain evaluation

Under a limit that is not exceeded an expression has the value that plain evaluation gives, or
fails with the same error, and it leaves the host functions in the same state; the error is that of
the limit as soon as the limit is exceeded (`Expr.value_eq_plainValue_or_nestingTooDeep`). What
decides is the highest level that evaluation reaches, and this is at most the number of levels of
the tree.

`Refines` states both for one computation, at any depth: it does what a plain one does as long as
the levels that it reaches above the depth are within the limit, it fails because of the limit
otherwise, and it comes back to the depth that it began at. This is kept by running two
computations one after the other (`Refines.bind`), where the levels reached are those of
`Expr.reachThen`, and by opening a level around a computation (`Refines.nested`), which reaches one
level more.

Every expression is so evaluated, by itself and as the left operand of an operator
(`Expr.refinesPlain`). The proof goes along the tree and takes one step for each node, with the
equations of `SheetFormula.Proofs.Evaluation.Unfolding`. At depth zero the two parts of `Refines`
are `Expr.value_of_reach_le` and `Expr.value_of_lt_reach`.
-/

namespace SheetFormula

open Evaluation

variable {σ α β : Type} {limit depth : Nat}

/-- At `depth`, `action` does what `plain` does as long as the levels it reaches, `reach` of them
above `depth`, are within the limit, and otherwise it fails because of the limit. It always comes
back to `depth`. -/
def Refines (limit depth : Nat) (reach : σ → Nat) (action : Evaluation σ α)
    (plain : HostAction σ α) : Prop :=
  ∀ host, (depth + reach host ≤ limit →
      action.run ⟨depth, host⟩ = ((plain.run host).1, ⟨depth, (plain.run host).2⟩)) ∧
    (depth ≤ limit → limit < depth + reach host → ∃ position after,
      action.run ⟨depth, host⟩ = (.error (.nestingTooDeep limit position), ⟨depth, after⟩))

/-- A level is opened if the limit allows it, and left again. -/
theorem Evaluation.run_nested (position : Nat) (x : Evaluation σ α) (s : EvalState σ) :
    (nested limit position x).run s =
      if s.depth < limit then
        ((x.run ⟨s.depth + 1, s.host⟩).1,
          ⟨(x.run ⟨s.depth + 1, s.host⟩).2.depth - 1, (x.run ⟨s.depth + 1, s.host⟩).2.host⟩)
      else (.error (.nestingTooDeep limit position), s) := by
  change (if s.depth < limit then _ else _) = _
  split <;> rfl

namespace Refines

/-- A computation that opens no level. -/
theorem of_run_eq {action : Evaluation σ α} {plain : HostAction σ α}
    (h : ∀ host, action.run ⟨depth, host⟩ = ((plain.run host).1, ⟨depth, (plain.run host).2⟩)) :
    Refines limit depth (fun _ => 0) action plain :=
  fun host => ⟨fun _ => h host, fun within exceeded => absurd exceeded (Nat.not_lt.mpr within)⟩

theorem pure (a : α) : Refines limit depth (fun _ : σ => 0) (Pure.pure a) (Pure.pure a) :=
  of_run_eq fun _ => rfl

theorem ofExcept (x : Except Error α) : Refines limit depth (fun _ : σ => 0)
    (MonadExcept.ofExcept x) (MonadExcept.ofExcept x) := by
  cases x <;> exact of_run_eq fun _ => rfl

theorem throw (e : Error) : Refines limit depth (fun _ : σ => 0) (α := α)
    (MonadExcept.throw e) (MonadExcept.throw e) :=
  of_run_eq fun _ => rfl

theorem callHost (f : HostFunction σ) (arguments : List Value) :
    Refines limit depth (fun _ => 0) (Evaluation.callHost f arguments)
      (HostAction.call f arguments) :=
  of_run_eq fun _ => rfl

theorem bind {reach next : σ → Nat} {x : Evaluation σ α} {p : HostAction σ α}
    {f : α → Evaluation σ β} {g : α → HostAction σ β} (first : Refines limit depth reach x p)
    (rest : ∀ a, Refines limit depth next (f a) (g a)) :
    Refines limit depth (Expr.reachThen reach p next) (x >>= f) (p >>= g) := by
  intro host
  obtain ⟨done, stopped⟩ := first host
  rw [run_bind, run_bind]
  unfold Expr.reachThen
  generalize p.run host = outcome at done ⊢
  obtain ⟨_ | a, after⟩ := outcome
  · constructor
    · intro within
      rw [done within]
    · intro below exceeded
      obtain ⟨position, last, hx⟩ := stopped below exceeded
      rw [hx]
      exact ⟨position, last, rfl⟩
  · dsimp only at done ⊢
    constructor
    · intro within
      rw [done (by omega)]
      exact (rest a after).1 (by omega)
    · intro below exceeded
      by_cases here : depth + reach host ≤ limit
      · rw [done here]
        exact (rest a after).2 below (by omega)
      · obtain ⟨position, last, hx⟩ := stopped below (by omega)
        rw [hx]
        exact ⟨position, last, rfl⟩

/-- After a computation a second one that opens no level reaches nothing further. -/
theorem bind_flat {reach : σ → Nat} {x : Evaluation σ α} {p : HostAction σ α}
    {f : α → Evaluation σ β} {g : α → HostAction σ β} (first : Refines limit depth reach x p)
    (rest : ∀ a, Refines limit depth (fun _ => 0) (f a) (g a)) :
    Refines limit depth reach (x >>= f) (p >>= g) := by
  rw [← Expr.reachThen_zero reach p]
  exact first.bind rest

/-- A level that is opened around a computation is one more level reached. -/
theorem nested {reach : σ → Nat} {x : Evaluation σ α} {p : HostAction σ α} (position : Nat)
    (body : Refines limit (depth + 1) reach x p) :
    Refines limit depth (fun host => reach host + 1) (Evaluation.nested limit position x) p := by
  intro host
  obtain ⟨done, stopped⟩ := body host
  rw [Evaluation.run_nested]
  dsimp only
  constructor
  · intro within
    rw [if_pos (by omega), done (by omega)]
    rfl
  · intro below exceeded
    split
    · obtain ⟨position, after, hx⟩ := stopped (by omega) (by omega)
      rw [hx]
      exact ⟨position, after, rfl⟩
    · exact ⟨position, host, rfl⟩

end Refines

/-! ## Expressions -/

namespace Expr

variable (bindings : Bindings σ) (limit : Nat)

/-- At any depth an expression is evaluated as by plain evaluation, both by itself and as the left
operand of an operator. -/
def RefinesPlain (e : Expr) : Prop :=
  ∀ depth, Refines limit depth (e.reach bindings) (e.eval bindings limit)
      (e.plainEval bindings) ∧
    Refines limit depth (e.operandReach bindings) (e.evalOperand bindings limit)
      (e.plainEval bindings)

variable {bindings limit}

/-- An expression that is no binary node is evaluated in the same way in both places. -/
theorem RefinesPlain.of_eval {e : Expr} (unfolded : ∀ links, Chain.unfold e links = ⟨e, links⟩)
    (step : e.leftStep = 1)
    (eval : ∀ depth, Refines limit depth (e.reach bindings) (e.eval bindings limit)
      (e.plainEval bindings)) : e.RefinesPlain bindings limit := by
  refine fun depth => ⟨eval depth, ?_⟩
  have : e.operandReach bindings = e.reach bindings := by
    funext host
    simp [operandReach, step]
  rw [evalOperand_of_unfold bindings limit unfolded, this]
  exact eval depth

/-- A binary node is evaluated as by plain evaluation if its operands are. -/
theorem RefinesPlain.binary {op : Operator} {left right : Expr} {position : Nat}
    (hleft : left.RefinesPlain bindings limit) (hright : right.RefinesPlain bindings limit) :
    (Expr.binary op left right position).RefinesPlain bindings limit := by
  have operand (depth : Nat) : Refines limit depth
      (reachThen (left.operandReach bindings) (left.plainEval bindings) (right.reach bindings))
      ((Expr.binary op left right position).evalOperand bindings limit)
      ((Expr.binary op left right position).plainEval bindings) := by
    rw [evalOperand_binary, plainEval]
    refine (hleft depth).2.bind fun x => ?_
    exact (hright depth).1.bind_flat fun y => Refines.ofExcept (op.apply x y position)
  intro depth
  constructor
  · rw [eval_binary, funext (reach_binary bindings op left right position)]
    exact (operand (depth + 1)).nested position
  · have : (Expr.binary op left right position).operandReach bindings =
        reachThen (left.operandReach bindings) (left.plainEval bindings)
          (right.reach bindings) := by
      funext host
      rw [operandReach, reach_binary]
      simp [leftStep]
    rw [this]
    exact operand depth

mutual

/-- Every expression is evaluated as by plain evaluation. -/
theorem refinesPlain : ∀ e : Expr, e.RefinesPlain bindings limit
  | .number text position => .of_eval (fun _ => rfl) rfl fun depth => by
    rw [eval_number]
    exact (Refines.ofExcept _).nested position
  | .string text position => .of_eval (fun _ => rfl) rfl fun depth => by
    rw [eval_string]
    exact (Refines.pure _).nested position
  | .reference name position => .of_eval (fun _ => rfl) rfl fun depth => by
    rw [eval_reference, plainEval]
    cases bindings.value? name with
    | some value => exact (Refines.pure value).nested position
    | none => exact (Refines.throw _).nested position
  | .unary sign operand position => .of_eval (fun _ => rfl) rfl fun depth => by
    rw [eval_unary, plainEval]
    have body := (operand.refinesPlain (depth + 1)).1.bind_flat fun value =>
      Refines.ofExcept (sign.apply value position)
    exact body.nested position
  | .binary op left right position => .binary left.refinesPlain right.refinesPlain
  | .call name arguments position => .of_eval (fun _ => rfl) rfl fun depth => by
    rw [eval_call, plainEval]
    cases hf : bindings.function? name with
    | some f =>
      have hreach : (Expr.call name arguments position).reach bindings =
          fun host => reachAll bindings arguments host + 1 :=
        funext fun host => by rw [reach, hf]
      have body := (refinesPlain_all arguments (depth + 1)).bind_flat fun values =>
        Refines.callHost f values
      rw [hreach]
      exact body.nested position
    | none =>
      have hreach : (Expr.call name arguments position).reach bindings = fun _ => 1 :=
        funext fun host => by rw [reach, hf]
      rw [hreach]
      exact (Refines.throw _).nested position

theorem refinesPlain_all : ∀ (es : List Expr) (depth : Nat),
    Refines limit depth (reachAll bindings es) (Expr.evalAll bindings limit es)
      (plainEvalAll bindings es)
  | [], depth => by
    rw [Expr.evalAll]
    exact Refines.pure []
  | e :: others, depth => by
    rw [Expr.evalAll, plainEvalAll]
    refine (e.refinesPlain depth).1.bind fun value => ?_
    exact (refinesPlain_all others depth).bind_flat fun values => Refines.pure (value :: values)

end

/-- Within the limit the value and the state of the host functions are those of plain
evaluation. -/
theorem value_of_reach_le {e : Expr} {host : σ} (within : e.reach bindings host ≤ limit) :
    e.value bindings limit host = e.plainValue bindings host := by
  have refined : e.RefinesPlain bindings limit := e.refinesPlain
  have done := ((refined 0).1 host).1 (by omega)
  simp only [value, done]
  rfl

/-- Beyond the limit there is no value. -/
theorem value_of_lt_reach {e : Expr} {host : σ} (exceeded : limit < e.reach bindings host) :
    ∃ position after,
      e.value bindings limit host = (.error (.nestingTooDeep limit position), after) := by
  have refined : e.RefinesPlain bindings limit := e.refinesPlain
  obtain ⟨position, after, h⟩ := ((refined 0).1 host).2 (Nat.zero_le _) (by omega)
  exact ⟨position, after, by simp only [value, h]⟩

/-- Evaluation under a limit is plain evaluation, as to the value, the error and the state of the
host functions, unless the levels it reaches exceed the limit; then it fails because of the limit.
It never reaches more levels than the expression has. -/
theorem value_eq_plainValue_or_nestingTooDeep (bindings : Bindings σ) (e : Expr) (host : σ) :
    (∀ limit, e.reach bindings host ≤ limit →
        e.value bindings limit host = e.plainValue bindings host) ∧
      (∀ limit, limit < e.reach bindings host → ∃ position after,
        e.value bindings limit host = (.error (.nestingTooDeep limit position), after)) ∧
      e.reach bindings host ≤ e.levels :=
  ⟨fun _ => value_of_reach_le, fun _ => value_of_lt_reach, e.reach_le_levels bindings host⟩

/-- A function that is true and writes down its arguments. -/
def recorder : HostFunction (List String) :=
  fun arguments log => (.ok (.boolean true), log ++ arguments.map Value.display)

/-- The chain `F("a")=F("b")<F("c")`. -/
def mixedChain : Expr :=
  .binary (.comparison .less)
    (.binary (.comparison .equal) (.call "F" [.string "a" 3] 1) (.call "F" [.string "b" 10] 8) 7)
    (.call "F" [.string "c" 17] 15) 14

/-- The calls of a mixed chain are made from left to right before its last operator fails. -/
theorem mixedChain_value :
    mixedChain.reach (Bindings.empty.setFunction "F" recorder) [] ≤ 3 ∧
      mixedChain.value (Bindings.empty.setFunction "F" recorder) 3 [] =
        (.error (.typeMismatch "<" "number or string" .boolean 14), ["a", "b", "c"]) := by
  have within : mixedChain.reach (Bindings.empty.setFunction "F" recorder) [] ≤ 3 := by
    decide +kernel
  refine ⟨within, ?_⟩
  rw [(value_eq_plainValue_or_nestingTooDeep _ mixedChain []).1 3 within]
  rfl

end Expr

end SheetFormula
