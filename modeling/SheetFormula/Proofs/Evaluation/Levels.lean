import SheetFormula.Proofs.Evaluation.Plain
import SheetFormula.Proofs.Evaluation.Unfolding

/-!
# Levels

Evaluation under a limit counts levels. A literal or a name needs one level, a sign, a call and a
chain of operators need one more than what is in them, and the operators of a chain share theirs.
`Expr.levels` is the number of levels of a tree. A left operand that is an operation itself belongs
to the chain of its operator, so it lies no level below it (`Expr.leftStep`).

`Expr.reach` is the highest level that evaluation gets to before it ends. It depends on the
bindings and on the state of the host functions, since an error ends an evaluation: what comes
after an error is not reached (`Expr.reachThen`). Evaluation never reaches more levels than the
tree has (`Expr.reach_le_levels`), and all of them if there is no error (`Expr.reach_eq_levels`).
Both go by induction on the tree, with a companion for the lists of arguments.

As the left operand of an operator an expression has no level of its own. `Expr.operandReach` is
what it reaches there, and with it a binary node reaches one level more than its operands do
(`Expr.reach_binary`), which is the form in which levels meet the equations of
`SheetFormula.Proofs.Evaluation.Unfolding`.
-/

namespace SheetFormula

namespace Expr

variable {σ α : Type} (bindings : Bindings σ)

/-- How many levels a left operand lies below its operator: none if it is an operation itself, for
then the two are of one chain. -/
def leftStep : Expr → Nat
  | .binary .. => 0
  | _ => 1

theorem leftStep_le_one (e : Expr) : e.leftStep ≤ 1 := by
  cases e <;> simp [leftStep]

mutual

/-- The number of levels of a tree: those of its operands, and one for a chain of operators, a
sign or a call. -/
def levels : Expr → Nat
  | .number .. | .string .. | .reference .. => 1
  | .unary _ operand _ => operand.levels + 1
  | .binary _ left right _ => max (left.levels + left.leftStep) (right.levels + 1)
  | .call _ arguments _ => levelsAll arguments + 1

/-- The number of levels of the expression of a list that has most. -/
def levelsAll : List Expr → Nat
  | [] => 0
  | e :: others => max e.levels (levelsAll others)

end

/-- The higher of what is reached before an action and, if the action succeeds, what is reached
after it. -/
def reachThen (before : σ → Nat) (action : HostAction σ α) (next : σ → Nat)
    (host : σ) : Nat :=
  match action.run host with
  | (.ok _, after) => max (before host) (next after)
  | (.error _, _) => before host

mutual

/-- The highest level of a node that is evaluated when `e` is, its own level being one. -/
def reach : Expr → σ → Nat
  | .number .., _ | .string .., _ | .reference .., _ => 1
  | .unary _ operand _, host => reach operand host + 1
  | .binary _ left right _, host =>
    reachThen (fun host => reach left host + left.leftStep) (left.plainEval bindings)
      (fun host => reach right host + 1) host
  | .call name arguments _, host =>
    match bindings.function? name with
    | some _ => reachAll arguments host + 1
    | none => 1

/-- The highest level of a node that is evaluated when the expressions of a list are. -/
def reachAll : List Expr → σ → Nat
  | [], _ => 0
  | e :: others, host => reachThen (reach e) (e.plainEval bindings) (reachAll others) host

end

/-! ## One action after another -/

theorem reachThen_le {before next : σ → Nat} {action : HostAction σ α} {host : σ}
    {m n : Nat} (hbefore : before host ≤ m) (hnext : ∀ after, next after ≤ n) :
    reachThen before action next host ≤ max m n := by
  unfold reachThen
  split
  · next after _ =>
    have := hnext after
    omega
  · omega

/-- What is reached is not changed by an action that opens no level. -/
theorem reachThen_zero (before : σ → Nat) (action : HostAction σ α) :
    reachThen before action (fun _ => 0) = before := by
  funext host
  unfold reachThen
  split
  · exact Nat.max_zero _
  · rfl

theorem reachThen_of_ok {before next : σ → Nat} {action : HostAction σ α}
    {host after : σ} {a : α} (h : action.run host = (.ok a, after)) :
    reachThen before action next host = max (before host) (next after) := by
  simp [reachThen, h]

/-! ## Trees -/

mutual

/-- Evaluation reaches no higher level than the tree has. -/
theorem reach_le_levels : ∀ (e : Expr) (host : σ), e.reach bindings host ≤ e.levels
  | .number .., _ | .string .., _ | .reference .., _ => Nat.le_refl 1
  | .unary _ operand _, host => Nat.succ_le_succ (operand.reach_le_levels host)
  | .binary _ left right _, host =>
    reachThen_le (Nat.add_le_add_right (left.reach_le_levels host) _)
      fun after => Nat.succ_le_succ (right.reach_le_levels after)
  | .call name arguments _, host => by
    have := reachAll_le_levelsAll arguments host
    simp only [reach, levels]
    split <;> omega

theorem reachAll_le_levelsAll : ∀ (es : List Expr) (host : σ),
    reachAll bindings es host ≤ levelsAll es
  | [], _ => Nat.le_refl 0
  | e :: others, host => reachThen_le (e.reach_le_levels host) (reachAll_le_levelsAll others)

end

/-- Some level is reached. -/
theorem reach_pos (e : Expr) (host : σ) : 0 < e.reach bindings host := by
  cases e with
  | number | string | reference => exact Nat.one_pos
  | unary => exact Nat.succ_pos _
  | binary op left right position =>
    have := left.reach_pos host
    simp only [reach, reachThen]
    split <;> omega
  | call =>
    simp only [reach]
    split <;> omega

/-- What an expression reaches above the level that its chain has opened. -/
def operandReach (e : Expr) (host : σ) : Nat :=
  e.reach bindings host + e.leftStep - 1

/-- The level of a chain is opened once, by the last of its operators. -/
theorem reach_binary (op : Operator) (left right : Expr) (position : Nat) (host : σ) :
    (Expr.binary op left right position).reach bindings host =
      reachThen (left.operandReach bindings) (left.plainEval bindings) (right.reach bindings)
        host + 1 := by
  have := left.reach_pos bindings host
  simp only [reach, reachThen, operandReach]
  split <;> omega

variable {bindings}

mutual

/-- An evaluation that succeeds reaches all levels of the tree. -/
theorem reach_eq_levels : ∀ {e : Expr} {host after : σ} {v : Value},
    (e.plainEval bindings).run host = (.ok v, after) → e.reach bindings host = e.levels
  | .number .., _, _, _, _ | .string .., _, _, _, _ | .reference .., _, _, _, _ => rfl
  | .unary sign operand position, _, _, _, h => by
    rw [plainEval] at h
    obtain ⟨x, between, hx, -⟩ := run_bind_eq_ok.mp h
    rw [reach, levels, reach_eq_levels hx]
  | .binary op left right position, _, _, _, h => by
    rw [plainEval] at h
    obtain ⟨x, between, hx, h⟩ := run_bind_eq_ok.mp h
    obtain ⟨y, last, hy, -⟩ := run_bind_eq_ok.mp h
    rw [reach, levels, reachThen_of_ok hx, reach_eq_levels hx, reach_eq_levels hy]
  | .call name arguments position, _, _, _, h => by
    rw [plainEval] at h
    cases found : bindings.function? name with
    | none =>
      rw [found] at h
      cases h
    | some f =>
      rw [found] at h
      obtain ⟨values, between, hvalues, -⟩ := run_bind_eq_ok.mp h
      simp only [reach, levels, found, reachAll_eq_levelsAll hvalues]

theorem reachAll_eq_levelsAll : ∀ {es : List Expr} {host after : σ} {vs : List Value},
    (plainEvalAll bindings es).run host = (.ok vs, after) →
      reachAll bindings es host = levelsAll es
  | [], _, _, _, _ => rfl
  | e :: others, _, _, _, h => by
    rw [plainEvalAll] at h
    obtain ⟨v, between, hv, h⟩ := run_bind_eq_ok.mp h
    obtain ⟨vs, last, hvs, -⟩ := run_bind_eq_ok.mp h
    rw [reachAll, levelsAll, reachThen_of_ok hv, reach_eq_levels hv, reachAll_eq_levelsAll hvs]

end

end Expr

end SheetFormula
