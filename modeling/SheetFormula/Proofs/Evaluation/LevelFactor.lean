import SheetFormula.Proofs.Evaluation.NestingLimit
import SheetFormula.Proofs.Rendering.RoundTrip

/-!
# Six levels of evaluation for one of the parser

A formula that parses under a limit is never nested too deep for evaluation under six times that
limit, and no lower factor will do, whatever the limit (`Expr.value_six_mul_limit_sharp`).

The first half is `Derivation.levels_tree_le_six_mul`, since a parsed formula is the tree of a
derivation that is nested within the limit (`Expr.levels_le_of_ofString_eq_ok`). Evaluation reaches
no more levels than the tree has.

For the second half there must be a formula for each limit. The factor is reached by an operator of
each tightness, each as the right operand of the next looser one (`Expr.climb`): such an expression
is five levels above its operand (`Expr.reach_climb`), and written down it needs no parentheses, so
it costs the parser nothing (`Expr.writtenDepth_climb`). Around a call, whose argument is such an
expression again, this makes six levels for one (`Expr.tower`). By induction on the number of calls
the tower can be written and is nested as deep as there are calls (`Expr.writtenDepth_tower`), and
evaluation reaches six levels for each of them and for the formula itself (`Expr.reach_tower`).

The formula is the text of the tower. It is read as the tower up to positions
(`Expr.ofString_text`), which is why the levels are those of any tree that is the tower but for its
positions.
-/

namespace SheetFormula

variable {σ : Type}

namespace Expr

/-! ## A formula that needs all six levels -/

/-- Operators of all tightnesses around `operand`, each to the right of a looser one, as in
`1=1+1*1/1^operand`. -/
def climb (operand : Expr) : Expr :=
  .binary (.comparison .equal) (.number "1" 0)
    (.binary (.arithmetic .add) (.number "1" 0)
      (.binary (.arithmetic .multiply) (.number "1" 0)
        (.binary (.arithmetic .divide) (.number "1" 0)
          (.binary (.arithmetic .power) (.number "1" 0) operand 0) 0) 0) 0) 0

/-- `n` calls within each other, with operators of all tightnesses around each of them and around
the number in the innermost: `1=1+1*1/1^F(1=1+1*1/1^F(…))`. -/
def tower : Nat → Expr
  | 0 => climb (.number "1" 0)
  | n + 1 => climb (.call "F" [tower n] 0)

example : (tower 1).text = "1 = 1 + 1 * 1 / 1 ^ F ( 1 = 1 + 1 * 1 / 1 ^ 1 )" := by decide +kernel

theorem lexable_climb {operand : Expr} (lexable : operand.Lexable) : (climb operand).Lexable := by
  have one : (Expr.number "1" 0).Lexable := ⟨'1', [], rfl, by decide, by simp, by simp⟩
  exact ⟨one, one, one, one, one, lexable⟩

theorem lexable_tower : ∀ n : Nat, (tower n).Lexable
  | 0 => lexable_climb ⟨'1', [], rfl, by decide, by simp, by simp⟩
  | n + 1 => lexable_climb ⟨⟨'F', [], rfl, by decide, by decide, by simp⟩, lexable_tower n, trivial⟩

/-- An operand that is no operation is written without parentheses. -/
theorem writtenDepth_climb {operand : Expr} (six : operand.level = 6) :
    (climb operand).writtenDepth = operand.writtenDepth := by
  have binary (op : Operator) (left right : Expr) :
      (Expr.binary op left right 0).level = op.tightness := rfl
  have number : (Expr.number "1" 0).level = 6 := rfl
  simp [climb, writtenDepth, binary, number, Operator.tightness, six]

theorem writtenDepth_tower : ∀ n : Nat, (tower n).writtenDepth = n
  | 0 => writtenDepth_climb rfl
  | n + 1 => by
    have call : (Expr.call "F" [tower n] 0).writtenDepth = n + 1 := by
      simp [writtenDepth, writtenDepthAll, writtenDepth_tower n]
    rw [tower, writtenDepth_climb rfl, call]

theorem withoutPositions_tower : ∀ n : Nat, (tower n).withoutPositions = tower n
  | 0 => rfl
  | n + 1 => by
    have below : (tower (n + 1)).withoutPositions =
        climb (.call "F" [(tower n).withoutPositions] 0) := rfl
    rw [below, withoutPositions_tower n, tower]

/-! ## Its levels -/

section Levels

variable {bindings : Bindings σ} {e operand : Expr}

/-- An operator after the number one is a level above its right operand. -/
theorem reach_operator {op : Operator}
    (h : e.withoutPositions = .binary op (.number "1" 0) operand 0) :
    ∃ right : Expr, right.withoutPositions = operand ∧
      ∀ host, e.reach bindings host = right.reach bindings host + 1 := by
  obtain ⟨left, right, position, rfl, hleft, hright⟩ := eq_binary_of_withoutPositions h
  obtain ⟨place, rfl⟩ := eq_number_of_withoutPositions hleft
  refine ⟨right, hright, fun host => ?_⟩
  obtain ⟨v, literal⟩ : ∃ v, literalValue "1" place = .ok v := ⟨_, rfl⟩
  have first : ((Expr.number "1" place).plainEval bindings).run host = (.ok v, host) := by
    rw [plainEval, run_ofExcept, literal]
  have left : (Expr.number "1" place).reach bindings host = 1 := rfl
  have step : (Expr.number "1" place).leftStep = 1 := rfl
  have := right.reach_pos bindings host
  rw [reach, reachThen_of_ok first, left, step]
  omega

/-- Operators of all tightnesses are five levels above their operand. -/
theorem reach_climb (h : e.withoutPositions = climb operand) :
    ∃ inner : Expr, inner.withoutPositions = operand ∧
      ∀ host, e.reach bindings host = inner.reach bindings host + 5 := by
  obtain ⟨sum, hsum, comparison⟩ := reach_operator h
  obtain ⟨product, hproduct, sum⟩ := reach_operator hsum
  obtain ⟨quotient, hquotient, product⟩ := reach_operator hproduct
  obtain ⟨power, hpower, quotient⟩ := reach_operator hquotient
  obtain ⟨inner, hinner, power⟩ := reach_operator hpower
  refine ⟨inner, hinner, fun host => ?_⟩
  rw [comparison, sum, product, quotient, power]

/-- Evaluation reaches six levels for each call and for the formula itself. -/
theorem reach_tower {f : HostFunction σ} (found : bindings.function? "F" = some f) :
    ∀ {n : Nat} {e : Expr}, e.withoutPositions = tower n → ∀ host,
      e.reach bindings host = 6 * (n + 1)
  | 0, e, h, host => by
    obtain ⟨inner, hinner, levels⟩ := reach_climb h
    obtain ⟨position, rfl⟩ := eq_number_of_withoutPositions hinner
    rw [levels]
    rfl
  | n + 1, e, h, host => by
    obtain ⟨inner, hinner, levels⟩ := reach_climb h
    obtain ⟨argument, position, rfl, hargument⟩ := eq_call_of_withoutPositions hinner
    have below := reach_tower found hargument host
    rw [levels, reach, found]
    simp only [reachAll]
    rw [reachThen_zero, below]
    omega

end Levels

/-! ## The factor -/

theorem levels_le_of_ofString_eq_ok {formula : String} {limit : Nat} {e : Expr}
    (parsed : Expr.ofString formula limit = .ok e) : e.levels ≤ 6 * limit := by
  obtain ⟨d, -, within, rfl⟩ := ofString_eq_ok_iff.mp parsed
  exact Nat.le_trans d.levels_tree_le_six_mul (Nat.mul_le_mul_left 6 within)

/-- Bindings in which `F` is one whatever its arguments are. -/
def oneFunction : Bindings Unit :=
  Bindings.empty.setFunction "F" (HostFunction.ofPure fun _ => .ok (.number 1))

theorem oneFunction_neverTooDeep : oneFunction.NeverTooDeep := by
  intro name f found arguments host limit position
  rw [oneFunction, Bindings.function?_setFunction] at found
  split at found
  · cases found
    exact fun h => by cases h
  · simp at found

/-- A formula that parses under a limit is evaluated under every limit that is at least six times as
high without an error of the limit. For every limit but zero there is a formula that parses under it
and is nested too deep to be evaluated under one less than six times the limit. -/
theorem value_six_mul_limit_sharp :
    (∀ {σ : Type} (bindings : Bindings σ), bindings.NeverTooDeep →
      ∀ (limit : Nat) (formula : String) (e : Expr), Expr.ofString formula limit = .ok e →
        ∀ limit', 6 * limit ≤ limit' → ∀ host l position,
          (e.value bindings limit' host).1 ≠ .error (.nestingTooDeep l position)) ∧
    ∀ limit, 1 ≤ limit → ∃ (formula : String) (e : Expr) (bindings : Bindings Unit),
      Expr.ofString formula limit = .ok e ∧ bindings.NeverTooDeep ∧
        ∃ position, (e.value bindings (6 * limit - 1) ()).1 =
          .error (.nestingTooDeep (6 * limit - 1) position) := by
  constructor
  · intro σ bindings never limit formula e parsed limit' le host l position failed
    have exceeded := (value_nestingTooDeep_iff never e host limit').mp ⟨l, position, failed⟩
    have := e.reach_le_levels bindings host
    have := levels_le_of_ofString_eq_ok parsed
    omega
  · intro limit positive
    obtain ⟨n, rfl⟩ := Nat.exists_eq_add_of_le' positive
    obtain ⟨d, -, -, htree, parsed⟩ := exists_derivation_text (lexable_tower n)
    rw [writtenDepth_tower] at parsed
    refine ⟨(tower n).text, d.tree, oneFunction, parsed (n + 1) (Nat.le_refl _),
      oneFunction_neverTooDeep, ?_⟩
    have found : oneFunction.function? "F" =
        some (HostFunction.ofPure fun _ => .ok (.number 1)) := by
      simp [oneFunction, Bindings.function?_setFunction]
    have exceeded : 6 * (n + 1) - 1 < d.tree.reach oneFunction () := by
      rw [reach_tower found (htree.trans (withoutPositions_tower n))]
      omega
    obtain ⟨position, after, failed⟩ := value_of_lt_reach exceeded
    exact ⟨position, congrArg Prod.fst failed⟩

/-- Six levels are enough for `1=1+1*1/1^1`, which parses under the limit one, and for some formula
that parses under the limit two eleven levels are not. -/
theorem value_climb_six_levels :
    oneFunction.NeverTooDeep ∧
      (∃ e : Expr, Expr.ofString "1=1+1*1/1^1" 1 = .ok e ∧ 6 * 1 ≤ 6 ∧
        ∀ l position, (e.value oneFunction 6 ()).1 ≠ .error (.nestingTooDeep l position)) ∧
      1 ≤ 2 ∧ ∃ (formula : String) (e : Expr) (bindings : Bindings Unit),
        Expr.ofString formula 2 = .ok e ∧ bindings.NeverTooDeep ∧
          ∃ position, (e.value bindings 11 ()).1 = .error (.nestingTooDeep 11 position) := by
  have parsed : Expr.ofString "1=1+1*1/1^1" 1 =
      .ok (.binary (.comparison .equal) (.number "1" 1)
        (.binary (.arithmetic .add) (.number "1" 3)
          (.binary (.arithmetic .multiply) (.number "1" 5)
            (.binary (.arithmetic .divide) (.number "1" 7)
              (.binary (.arithmetic .power) (.number "1" 9) (.number "1" 11) 10) 8) 6) 4) 2) := by
    cbv
  have evaluated := value_six_mul_limit_sharp.1 oneFunction oneFunction_neverTooDeep 1 _ _ parsed 6
    (by decide) ()
  exact ⟨oneFunction_neverTooDeep, ⟨_, parsed, by decide, evaluated⟩, by decide,
    value_six_mul_limit_sharp.2 2 (by decide)⟩

end Expr

end SheetFormula
