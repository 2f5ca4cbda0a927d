import SheetFormula.Proofs.Evaluation.Failure
import SheetFormula.Proofs.Evaluation.Refinement
import SheetFormula.Proofs.Parser.Acceptance
import SheetFormula.Session

/-!
# Two readings of the nesting limit

The parser counts parentheses, arguments and signs against the limit, and no operators. Evaluation
counts the operands of a chain as one level below it, so a formula may parse under a limit and then
exceed it. Executing a parsed formula fails because of the limit exactly if the levels reached
exceed it (`Session.execute_nestingTooDeep_iff`), and already `1+1` does so under the limit one
(`Session.execute_sum_limit_one`).

Beyond the limit there is the error of the limit by `SheetFormula.Proofs.Evaluation.Refinement`.
Within it evaluation is plain evaluation, which knows of no limit: every error of it arises in the
tree, and none of those is the error of the limit (`Expr.plainValue_ne_nestingTooDeep`). This needs
that no function fails with that error (`Bindings.NeverTooDeep`), which a function could do.

Between two levels of the parser there can be an operator of each tightness and one level more, so
six times as many levels always suffice (`Derivation.levels_tree_le_six_mul`). The induction is on
the derivation and keeps account of the tightness: from a tighter level on there are fewer
operators to come before the next level of the parser (`Derivation.levels_tree_le`). A chain counts
as one level above its operands, however many links it has (`Chain.levels_toExpr_le`).
-/

namespace SheetFormula

variable {σ : Type}

/-- No function fails with the error that belongs to the limit. -/
def Bindings.NeverTooDeep (bindings : Bindings σ) : Prop :=
  ∀ name f, bindings.function? name = some f → ∀ arguments host limit position,
    (f arguments host).1 ≠ .error (.nestingTooDeep limit position)

namespace Expr

variable {bindings : Bindings σ}

theorem Raises.ne_nestingTooDeep (never : bindings.NeverTooDeep) {e : Expr} {error : Error}
    (raised : e.Raises bindings error) (limit position : Nat) :
    error ≠ .nestingTooDeep limit position := by
  induction raised with
  | host found values host failed =>
    rintro rfl
    exact never _ _ found values host limit position failed
  | operand _ _ _ ih | left _ _ _ _ ih | right _ _ _ _ ih | argument _ _ _ _ ih => exact ih
  | _ => simp

/-- Without a limit there is no error of the limit. -/
theorem plainValue_ne_nestingTooDeep (never : bindings.NeverTooDeep) (e : Expr) (host : σ)
    (limit position : Nat) :
    (e.plainValue bindings host).1 ≠ .error (.nestingTooDeep limit position) := by
  intro h
  have failed : (e.plainEval bindings).run host =
      (.error (.nestingTooDeep limit position), (e.plainValue bindings host).2) :=
    Prod.ext h rfl
  have raised := raises_of_plainEval failed
  exact raised.ne_nestingTooDeep never limit position rfl

/-- Evaluation fails because of the limit exactly if the levels it reaches exceed the limit. -/
theorem value_nestingTooDeep_iff (never : bindings.NeverTooDeep) (e : Expr) (host : σ)
    (limit : Nat) :
    (∃ l position, (e.value bindings limit host).1 = .error (.nestingTooDeep l position)) ↔
      limit < e.reach bindings host := by
  constructor
  · rintro ⟨l, position, h⟩
    refine Nat.lt_of_not_le fun within => ?_
    rw [value_of_reach_le within] at h
    exact plainValue_ne_nestingTooDeep never e host l position h
  · intro exceeded
    obtain ⟨position, after, h⟩ := value_of_lt_reach exceeded
    exact ⟨limit, position, by rw [h]⟩

end Expr

/-! ## Levels of the parser and of evaluation -/

/-- A chain has one level more than its operands, or no more than its head if there is nothing
else. -/
theorem Chain.levels_toExpr_le {m : Nat} : ∀ (links : List Link) {head : Expr},
    head.levels + head.leftStep ≤ m → (∀ link ∈ links, link.right.levels + 1 ≤ m) →
      (Chain.mk head links).toExpr.levels ≤ m
  | [], head, hhead, _ => by
    simp only [Chain.toExpr, List.foldl_nil]
    omega
  | link :: others, head, hhead, hlinks => by
    have hright := hlinks link List.mem_cons_self
    have first : (Expr.binary link.op head link.right link.position).levels +
        (Expr.binary link.op head link.right link.position).leftStep ≤ m := by
      change max (head.levels + head.leftStep) (link.right.levels + 1) ≤ m
      omega
    exact levels_toExpr_le others first fun l hl => hlinks l (List.mem_cons_of_mem link hl)

mutual

/-- Each parenthesis, argument list or sign is worth at most six levels. -/
theorem Derivation.levels_tree_le : ∀ {n : Nat} (d : Derivation n),
    d.tree.levels ≤ 6 * d.depth + (6 - min n 5)
  | n, .chain binary first rest => by
    have hfirst := first.levels_tree_le
    have hstep := first.tree.leftStep_le_one
    simp only [Derivation.tree, Derivation.depth]
    -- The operands are of the next level, so the chain adds one to what they may have.
    refine Chain.levels_toExpr_le rest.links (by omega) fun link mem => ?_
    have hlink := rest.levels_links_le link mem
    omega
  | _, .unsigned operand => by
    have := operand.levels_tree_le
    simp only [Derivation.tree, Derivation.depth]
    omega
  | _, .signed sign position operand => by
    have := operand.levels_tree_le
    simp only [Derivation.tree, Derivation.depth, Expr.levels]
    omega
  | _, .number .. | _, .string .. | _, .reference .. => by
    simp [Derivation.tree, Derivation.depth, Expr.levels]
  | _, .group opening inner closing => by
    have := inner.levels_tree_le
    simp only [Derivation.tree, Derivation.depth]
    omega
  | _, .emptyCall .. => by
    simp [Derivation.tree, Derivation.depth, Expr.levels, Expr.levelsAll]
  | _, .call name position opening arguments closing => by
    have := arguments.levels_trees_le
    simp only [Derivation.tree, Derivation.depth, Expr.levels]
    omega

theorem Repetition.levels_links_le : ∀ {n : Nat} (rest : Repetition n), ∀ link ∈ rest.links,
    link.right.levels + 1 ≤ 6 * rest.depth + (6 - n)
  | _, .nil, _, mem => by
    simp [Repetition.links] at mem
  | n, .cons op tight position operand rest, link, mem => by
    have hop := op.tightness_lt
    simp only [Repetition.links, List.mem_cons] at mem
    simp only [Repetition.depth]
    rcases mem with rfl | mem
    · have := operand.levels_tree_le
      simp only
      omega
    · have := rest.levels_links_le link mem
      omega

theorem ArgumentList.levels_trees_le : ∀ arguments : ArgumentList,
    Expr.levelsAll arguments.trees ≤ 6 * arguments.depth + 6
  | .single argument => by
    have := argument.levels_tree_le
    simp only [ArgumentList.trees, ArgumentList.depth, Expr.levelsAll]
    omega
  | .cons argument separator rest => by
    have := argument.levels_tree_le
    have := rest.levels_trees_le
    simp only [ArgumentList.trees, ArgumentList.depth, Expr.levelsAll]
    omega

end

/-- A tree has at most six levels for each level that its derivation is nested. -/
theorem Derivation.levels_tree_le_six_mul (d : Derivation 0) : d.tree.levels ≤ 6 * d.nesting := by
  have := d.levels_tree_le
  simp only [Derivation.nesting]
  omega

/-! ## Formulas -/

/-- Executing a formula that parses fails because of the limit exactly if the levels that its
evaluation reaches exceed the limit. It reaches no more levels than the tree has, and all of them
if it succeeds without a limit. -/
theorem Session.execute_nestingTooDeep_iff {s : Session σ} (never : s.bindings.NeverTooDeep)
    {formula : String} {e : Expr} (parsed : s.parse formula = .ok e) :
    ((∃ limit position, (s.execute formula).1 = .error (.nestingTooDeep limit position)) ↔
        s.limit < e.reach s.bindings s.host) ∧
      e.reach s.bindings s.host ≤ e.levels ∧
      ∀ v after, e.plainValue s.bindings s.host = (.ok v, after) →
        e.reach s.bindings s.host = e.levels := by
  have executed : (s.execute formula).1 = (e.value s.bindings s.limit s.host).1 := by
    simp only [Session.execute, parsed]
  rw [executed]
  exact ⟨Expr.value_nestingTooDeep_iff never e s.host s.limit,
    e.reach_le_levels s.bindings s.host, fun _ _ => Expr.reach_eq_levels⟩

/-- The tree of `1+2*3`. -/
def sumWithProduct : Expr :=
  .binary (.arithmetic .add) (.number "1" 1)
    (.binary (.arithmetic .multiply) (.number "2" 3) (.number "3" 5) 4) 2

/-- A product within a sum exceeds the limit two, although it has no parentheses. -/
theorem Session.execute_sumWithProduct_limit_two :
    (Session.new 2 ()).bindings.NeverTooDeep ∧
      (Session.new 2 ()).parse "1+2*3" = .ok sumWithProduct ∧
      ∃ limit position,
        ((Session.new 2 ()).execute "1+2*3").1 = .error (.nestingTooDeep limit position) := by
  have never : (Session.new 2 ()).bindings.NeverTooDeep := by
    intro name f found
    simp [Session.new] at found
  have parsed : (Session.new 2 ()).parse "1+2*3" = .ok sumWithProduct := by cbv
  exact ⟨never, parsed,
    (Session.execute_nestingTooDeep_iff never parsed).1.mpr (by decide +kernel)⟩

/-- The sum of two numbers parses under the limit one and exceeds it when it is executed. -/
theorem Session.execute_sum_limit_one :
    (Session.new 1 ()).parse "1+1" =
        .ok (.binary (.arithmetic .add) (.number "1" 1) (.number "1" 3) 2) ∧
      ((Session.new 1 ()).execute "1+1").1 = .error (.nestingTooDeep 1 1) := by
  have parsed : (Session.new 1 ()).parse "1+1" =
      .ok (.binary (.arithmetic .add) (.number "1" 1) (.number "1" 3) 2) := by cbv
  refine ⟨parsed, ?_⟩
  simp only [Session.execute, parsed, Expr.value]
  rw [Expr.eval_binary, Evaluation.run_nested, Expr.evalOperand_binary, run_bind,
    Expr.evalOperand_of_unfold _ _ fun _ => rfl, Expr.eval_number, Evaluation.run_nested]
  rfl

end SheetFormula
