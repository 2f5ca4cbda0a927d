import SheetFormula.Proofs.Evaluation.MentionedNames
import SheetFormula.Proofs.Evaluation.Reuse

/-!
# Naming a part of an expression

A variable that has the value of an expression may stand for it: putting the expression in the
place of the variable changes neither the value nor the error (`Expr.value_substitute`). The
functions may be called more often, so their results must depend on their arguments alone. Put
before an operator, an operation becomes part of the chain and its operators share the level of the
chain; elsewhere it opens a level. So the limit is not that of the expression with the variable,
and each of the two expressions is given one that its levels do not exceed.

Within such a limit evaluation is plain evaluation, and for that the equality is proved by
induction on the tree (`Expr.plainEval_substitute`). It is an equality of outcomes, from whatever
states the two begin in (`SameOutcome`), because the states differ after the first place where the
expression stands. At this place the expression comes to its value and so does the variable; that
the expression has its value from every state, without a limit, follows from one state and one
limit in which it has it (`Expr.plainEval_sameOutcome_pure`).

If the expression does not refer to the variable itself, it does not matter whether the variable is
bound before: under `Bindings.AgreeOn` the expression with the variable put in comes to the same
with any value for it.
-/

namespace SheetFormula

variable {σ : Type}

/-- Of two values that a variable is set to only the later one counts. -/
theorem Bindings.agreeOn_setVariable_twice (b : Bindings σ) (name : String) (earlier later : Value)
    (references callees : List String) :
    ((b.setVariable name earlier).setVariable name later).AgreeOn (b.setVariable name later)
      references callees where
  value?_eq other _ := by
    rw [value?_setVariable, value?_setVariable, value?_setVariable]
    split <;> rfl
  function?_eq _ _ := rfl

namespace Expr

/-! ## One expression in the place of a variable -/

mutual

/-- The expression with `part` in the place of each reference to the variable `name`. -/
def substitute (e : Expr) (name : String) (part : Expr) : Expr :=
  match e with
  | .number text position => .number text position
  | .string text position => .string text position
  | .reference other position => if other = name then part else .reference other position
  | .unary sign operand position => .unary sign (operand.substitute name part) position
  | .binary op left right position =>
    .binary op (left.substitute name part) (right.substitute name part) position
  | .call function arguments position =>
    .call function (substituteAll arguments name part) position

/-- The expressions of a list with `part` in the place of each reference to `name`. -/
def substituteAll (es : List Expr) (name : String) (part : Expr) : List Expr :=
  match es with
  | [] => []
  | e :: others => e.substitute name part :: substituteAll others name part

end

variable {bindings : Bindings σ} {name : String} {part : Expr} {v : Value}

mutual

/-- Without a limit an expression comes to the same with a variable and with what the variable
stands for. -/
theorem plainEval_substitute (pure : bindings.ResultsFromArguments)
    (named : SameOutcome (part.plainEval bindings) (Pure.pure v)) : ∀ e : Expr,
    SameOutcome ((e.substitute name part).plainEval bindings)
      (e.plainEval (bindings.setVariable name v))
  | .number .. => by
    rw [substitute, plainEval, plainEval]
    exact .ofExcept _
  | .string .. => by
    rw [substitute, plainEval, plainEval]
    exact .pure _
  | .reference other position => by
    rw [substitute, plainEval, Bindings.value?_setVariable]
    by_cases same : other = name
    · rw [if_pos same, if_pos same.symm]
      exact named
    · rw [if_neg same, if_neg (Ne.symm same), plainEval]
      cases bindings.value? other with
      | some value => exact .pure value
      | none => exact .throw _
  | .unary sign operand position => by
    rw [substitute, plainEval, plainEval]
    exact (plainEval_substitute pure named operand).bind fun value => .ofExcept _
  | .binary op left right position => by
    rw [substitute, plainEval, plainEval]
    refine (plainEval_substitute pure named left).bind fun x => ?_
    exact (plainEval_substitute pure named right).bind fun y => .ofExcept _
  | .call function arguments position => by
    rw [substitute, plainEval, plainEval, Bindings.function?_setVariable]
    cases found : bindings.function? function with
    | some f =>
      exact (plainEvalAll_substitute pure named arguments).bind (pure function f found)
    | none => exact .throw _

theorem plainEvalAll_substitute (pure : bindings.ResultsFromArguments)
    (named : SameOutcome (part.plainEval bindings) (Pure.pure v)) : ∀ es : List Expr,
    SameOutcome (plainEvalAll bindings (substituteAll es name part))
      (plainEvalAll (bindings.setVariable name v) es)
  | [] => by
    rw [substituteAll, plainEvalAll, plainEvalAll]
    exact .pure []
  | e :: others => by
    rw [substituteAll, plainEvalAll, plainEvalAll]
    refine (plainEval_substitute pure named e).bind fun value => ?_
    exact (plainEvalAll_substitute pure named others).bind fun values => .pure _

end

/-- An expression that has a value under some limit has it without a limit, in every state. -/
theorem plainEval_sameOutcome_pure (pure : bindings.ResultsFromArguments) {limit : Nat}
    {host : σ} (h : (part.value bindings limit host).1 = .ok v) :
    SameOutcome (part.plainEval bindings) (Pure.pure v) := by
  intro host' _
  have plain : (part.plainValue bindings host).1 = .ok v := by
    have run : (part.guardedEval bindings limit limit).run host =
        (.ok v, (part.value bindings limit host).2) := by
      rw [← value_eq_guardedEval, ← h]
    exact congrArg Prod.fst (plainEval_of_guardedEval run)
  calc ((part.plainEval bindings).run host').1
      = (part.value bindings part.levels host').1 := by
        rw [value_of_reach_le (part.reach_le_levels bindings host')]
        rfl
    _ = (part.value bindings part.levels host).1 := value_sameOutcome pure _ part host' host
    _ = .ok v := by rw [value_of_reach_le (part.reach_le_levels bindings host), plain]

/-! ## Under a limit -/

/-- Within the limits an expression comes to the same with a variable and with what the variable
stands for. -/
theorem value_substitute_of_levels_le (pure : bindings.ResultsFromArguments) {limit₀ : Nat}
    {host₀ : σ} (named : (part.value bindings limit₀ host₀).1 = .ok v) {e : Expr}
    {limit limit' : Nat} (within : (e.substitute name part).levels ≤ limit)
    (within' : e.levels ≤ limit') (host host' : σ) :
    ((e.substitute name part).value bindings limit host).1 =
      (e.value (bindings.setVariable name v) limit' host').1 := by
  rw [value_of_reach_le (Nat.le_trans (reach_le_levels bindings _ host) within),
    value_of_reach_le (Nat.le_trans (reach_le_levels _ e host') within')]
  exact plainEval_substitute pure (plainEval_sameOutcome_pure pure named) e host host'

/-- Let `part` have a value, and let the variable `name` be given that value. Then an expression
that refers to the variable has the same value or the same error as the expression with `part` in
the place of each reference, under any limits that the levels of the two do not exceed. If `part`
does not refer to the variable, it does not matter what the variable stands for where `part` is in
its place. -/
theorem value_substitute (pure : bindings.ResultsFromArguments) {limit₀ : Nat} {host₀ : σ}
    (named : (part.value bindings limit₀ host₀).1 = .ok v) (e : Expr) {limit limit' : Nat}
    (within : (e.substitute name part).levels ≤ limit) (within' : e.levels ≤ limit')
    (host host' : σ) :
    ((e.substitute name part).value bindings limit host).1 =
        (e.value (bindings.setVariable name v) limit' host').1 ∧
      (name ∉ part.references → ∀ other,
        ((e.substitute name part).value (bindings.setVariable name other) limit host).1 =
          (e.value (bindings.setVariable name v) limit' host').1) := by
  refine ⟨value_substitute_of_levels_le pure named within within' host host',
    fun absent other => ?_⟩
  have pure' : (bindings.setVariable name other).ResultsFromArguments := pure
  have named' : (part.value (bindings.setVariable name other) limit₀ host₀).1 = .ok v := by
    rw [value_congr (bindings.agreeOn_setVariable absent other part.callees), named]
  rw [value_substitute_of_levels_le pure' named' within within' host host',
    value_congr (bindings.agreeOn_setVariable_twice name other v _ _)]

/-- The tree of `x=F(x)<x`. -/
def comparisonOfVariable : Expr :=
  .binary (.comparison .less)
    (.binary (.comparison .equal) (.reference "x" 1) (.call "F" [.reference "x" 5] 3) 2)
    (.reference "x" 8) 7

/-- The tree of `"a"="b"`. -/
def unequalStrings : Expr :=
  .binary (.comparison .equal) (.string "a" 1) (.string "b" 5) 4

/-- The comparison `"a"="b"` is false. In the place of `x` it becomes the beginning of the chain
`x=F(x)<x`, an argument and a right operand, and the chain fails at its last operator as it does
where `x` is false. -/
theorem value_substitute_comparisonOfVariable :
    (Bindings.empty.setFunction "F" recorder).ResultsFromArguments ∧
      "x" ∉ unequalStrings.references ∧
      (unequalStrings.value (Bindings.empty.setFunction "F" recorder) 2 []).1 =
        .ok (.boolean false) ∧
      (comparisonOfVariable.substitute "x" unequalStrings).levels = 4 ∧
      comparisonOfVariable.levels = 3 ∧
      ((comparisonOfVariable.substitute "x" unequalStrings).value
          (Bindings.empty.setFunction "F" recorder) 4 []).1 =
        .error (.typeMismatch "<" "number or string" .boolean 7) := by
  have pure : (Bindings.empty.setFunction "F" recorder).ResultsFromArguments := by
    intro name f found arguments host host'
    rw [Bindings.function?_setFunction, Bindings.function?_empty] at found
    split at found <;> cases found
    rfl
  have named : (unequalStrings.value (Bindings.empty.setFunction "F" recorder) 2 []).1 =
      .ok (.boolean false) := by
    rw [value_eq_guardedEval]
    rfl
  have four : (comparisonOfVariable.substitute "x" unequalStrings).levels = 4 := by decide
  have three : comparisonOfVariable.levels = 3 := by decide
  refine ⟨pure, by decide, named, four, three, ?_⟩
  rw [(value_substitute pure named comparisonOfVariable (Nat.le_of_eq four)
      (Nat.le_of_eq three) [] []).1,
    value_eq_guardedEval]
  rfl

end Expr

end SheetFormula
