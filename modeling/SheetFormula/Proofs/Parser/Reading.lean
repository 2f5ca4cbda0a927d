import SheetFormula.Expr.Parser
import SheetFormula.Proofs.Grammar

/-!
# Reading tokens one after another

`Reads` takes a parser from one place in a formula to another through the tokens between them. It
is what all else about the parser is stated with, since it can be put together and taken apart
where tokens are (`Reads.append`, `Reads.snoc`). An expression is read from tokens without an end
of the input exactly if the parser reads all of them and can finish there
(`Progress.run_eq_ok_iff`).

What stands before a place where an operand is complete is described by `Progress.Holds`: the
operand together with the operators before it that bind at least as tightly as some level. It is
all that the next token depends on, whichever phase the parser is in. An operator takes what is
held for its tightness as its left operand (`Progress.Holds.step_operator`), a token that is no
operator closes what is held as a whole (`Progress.Holds.step_closing`), and where nothing is
around it the expression can end (`Progress.Holds.finish`).

The parser completes operators late, only when the next token asks for it. Two facts make that
harmless: operators that are too loose are left alone (`reduce_of_loose`), and completing them for
a tight level first and for a looser one then is completing them for the looser one
(`reduce_reduce`). So what is held for one level is held for each looser one with more operators
taken (`Progress.Holds.loosen`), which is how the levels of the grammar follow one another.
-/

namespace SheetFormula.Parser

variable {bounds : Bounds}

/-- Reading the tokens of a list takes the parser from one place to another. -/
inductive Reads (bounds : Bounds) : Progress → List Token → Progress → Prop where
  | nil (p : Progress) : Reads bounds p [] p
  | cons {p q r : Progress} {t : Token} {ts : List Token} (first : p.step bounds t = .ok q)
      (rest : Reads bounds q ts r) : Reads bounds p (t :: ts) r

namespace Reads

theorem append {p q r : Progress} {ts us : List Token} (h : Reads bounds p ts q)
    (h' : Reads bounds q us r) : Reads bounds p (ts ++ us) r := by
  induction h with
  | nil => exact h'
  | cons first _ ih => exact .cons first (ih h')

theorem snoc {p q r : Progress} {ts : List Token} {t : Token} (h : Reads bounds p ts q)
    (last : q.step bounds t = .ok r) : Reads bounds p (ts ++ [t]) r :=
  h.append (.cons last (.nil r))

/-- Reading at the beginning of a level opens the level and goes on as at an operand. -/
theorem of_operand {stack : List Frame} {opened : Nat} {q : Progress} {ts : List Token}
    (h : Reads bounds ⟨.operand, ⟨stack, opened + 1⟩⟩ ts q) (hts : ts ≠ [])
    (room : opened < bounds.room) : Reads bounds ⟨.level, ⟨stack, opened⟩⟩ ts q := by
  cases h with
  | nil => exact absurd rfl hts
  | cons first rest =>
    refine .cons ?_ rest
    simp only [Progress.step, Surroundings.openLevel, room, if_true]
    exact first

/-- Unless the call ends at once, its first argument is read like any operand. -/
theorem of_argument {name : String} {position : Nat} {stack : List Frame} {opened : Nat}
    {q : Progress} {t : Token} {ts : List Token}
    (h : Reads bounds ⟨.operand, ⟨.call name position [] :: stack, opened + 1⟩⟩ (t :: ts) q)
    (ht : t.lexeme ≠ .symbol .rightParen) (room : opened < bounds.room) :
    Reads bounds ⟨.arguments name position, ⟨stack, opened⟩⟩ (t :: ts) q := by
  cases h with
  | cons first rest =>
    refine .cons ?_ rest
    simp only [Progress.step, if_neg ht, Surroundings.openLevel, room, if_true]
    exact first

end Reads

/-- Tokens without an end of the input are read as an expression exactly if the parser gets through
all of them to a place where the expression can end. -/
theorem Progress.run_eq_ok_iff {ending : Nat} {ts : List Token}
    (inner : ∀ t ∈ ts, t.lexeme ≠ .endOfInput) {p : Progress} {e : Expr} :
    (p.run bounds ending ts).1 = .ok e ↔
      ∃ q, Reads bounds p ts q ∧ q.finish bounds ending = .ok e := by
  induction ts generalizing p with
  | nil =>
    constructor
    · intro h
      exact ⟨p, .nil p, h⟩
    · rintro ⟨q, hq, h⟩
      cases hq
      exact h
  | cons t ts ih =>
    have ht := inner t List.mem_cons_self
    have ih := fun p => ih (fun t h => inner t (List.mem_cons_of_mem _ h)) (p := p)
    rw [run, if_neg ht]
    split
    · next q hq =>
      rw [ih]
      constructor
      · rintro ⟨r, hr, h⟩
        exact ⟨r, .cons hq hr, h⟩
      · rintro ⟨r, hr, h⟩
        cases hr with
        | cons first rest =>
          obtain rfl := Except.ok.inj (hq.symm.trans first)
          exact ⟨r, rest, h⟩
    · next refusal hq =>
      constructor
      · intro h
        cases h
      · rintro ⟨r, hr, -⟩
        cases hr with
        | cons first rest => cases hq.symm.trans first

/-! ## Completing operators -/

namespace Surroundings

/-- The operator right before a place, if there is one, binds less tightly than `n`, and it is not
a sign that stands there. -/
def Loose (n : Nat) : List Frame → Prop
  | .operation _ op _ :: _ => op.tightness < n
  | .sign .. :: _ => False
  | _ => True

theorem Loose.mono {n m : Nat} {stack : List Frame} (h : Loose n stack) (le : n ≤ m) :
    Loose m stack := by
  unfold Loose at h ⊢
  split at h <;> first | trivial | exact Nat.lt_of_lt_of_le h le

theorem reduce_of_loose {n : Nat} {stack : List Frame} (h : Loose n stack) (e : Expr) :
    reduce n e stack = (e, stack) := by
  unfold reduce
  split
  · exact if_neg (Nat.not_le.mpr h)
  · rfl

theorem applySigns_of_loose {n : Nat} {stack : List Frame} (h : Loose n stack) (e : Expr)
    (opened : Nat) : applySigns e stack opened = (e, ⟨stack, opened⟩) := by
  unfold applySigns
  split
  · exact h.elim
  · rfl

/-- Operators taken for one tightness and then for a looser one are those taken for the looser. -/
theorem reduce_reduce {n m : Nat} (le : n ≤ m) (e : Expr) (stack : List Frame) :
    reduce n (reduce m e stack).1 (reduce m e stack).2 = reduce n e stack := by
  fun_induction reduce m e stack with
  | case1 e left op position stack tight ih =>
    rw [ih, reduce, if_pos (Nat.le_trans le tight)]
  | case2 => rfl
  | case3 => rfl

theorem operator?_eq_some_iff {t : Token} {op : Operator} :
    operator? t = some op ↔ t.lexeme = .symbol op.symbol := by
  unfold operator?
  split
  · next s hs => rw [hs, Operator.ofSymbol?_eq_some_iff, Lexeme.symbol.injEq, eq_comm]
  · next hs =>
    constructor
    · intro h
      cases h
    · intro h
      exact absurd h (hs _)

/-- No operator is as tight as level five. -/
theorem reduce_five {n : Nat} (five : 5 ≤ n) (e : Expr) (stack : List Frame) :
    reduce n e stack = (e, stack) := by
  unfold reduce
  split
  · next left op position stack =>
    have := op.tightness_lt
    exact if_neg (by omega)
  · rfl

end Surroundings

/-! ## Complete operands -/

namespace Progress

/-- The operand that is complete at a place, with the signs before it, and what is around it. -/
def operand? (p : Progress) : Option (Expr × Surroundings) :=
  match p.phase with
  | .name name position =>
    some (Surroundings.applySigns (.reference name position) p.around.stack p.around.opened)
  | .complete e => some (e, p.around)
  | _ => none

/-- An operand is complete which, with the operators before it that bind at least as tightly as
`n`, is `e` within `around`. -/
def Holds (n : Nat) (p : Progress) (e : Expr) (around : Surroundings) : Prop :=
  ∃ operand s, p.operand? = some (operand, s) ∧ s.opened = around.opened ∧
    Surroundings.reduce n operand s.stack = (e, around.stack)

/-- A token that is no opening parenthesis is read after the operand. -/
theorem step_of_operand? {p : Progress} {e : Expr} {s : Surroundings} {t : Token}
    (h : p.operand? = some (e, s)) (ht : t.lexeme ≠ .symbol .leftParen) :
    p.step bounds t = s.readAfter e t := by
  obtain ⟨phase, around⟩ := p
  cases phase with
  | name name position =>
    simp only [step, if_neg ht, Option.some.inj h]
  | complete e' =>
    obtain ⟨rfl, rfl⟩ := Prod.mk.inj (Option.some.inj h)
    rfl
  | _ => cases h

theorem finish_of_operand? {p : Progress} {e : Expr} {s : Surroundings} {position : Nat}
    (h : p.operand? = some (e, s)) : p.finish bounds position = s.finishAfter e position := by
  obtain ⟨phase, around⟩ := p
  cases phase with
  | name name place => simp only [finish, Option.some.inj h]
  | complete e' =>
    obtain ⟨rfl, rfl⟩ := Prod.mk.inj (Option.some.inj h)
    rfl
  | _ => cases h

/-- A formula can only end after a complete operand. -/
theorem exists_operand?_of_finish_eq_ok {p : Progress} {e : Expr} {position : Nat}
    (h : p.finish bounds position = .ok e) : ∃ operand s, p.operand? = some (operand, s) := by
  obtain ⟨phase, around⟩ := p
  cases phase with
  | name | complete => exact ⟨_, _, rfl⟩
  | operand => cases h
  | level | arguments =>
    simp only [finish, Surroundings.openLevel] at h
    split at h <;> cases h

namespace Holds

variable {n m : Nat} {p : Progress} {e : Expr} {around : Surroundings}

theorem of_complete (five : 5 ≤ n) : Holds n ⟨.complete e, around⟩ e around :=
  ⟨e, around, rfl, rfl, Surroundings.reduce_five five e around.stack⟩

/-- A looser level takes more operators. -/
theorem loosen (h : p.Holds m e around) (le : n ≤ m) :
    p.Holds n (Surroundings.reduce n e around.stack).1
      { around with stack := (Surroundings.reduce n e around.stack).2 } := by
  obtain ⟨operand, s, hp, hopened, hreduce⟩ := h
  refine ⟨operand, s, hp, hopened, ?_⟩
  have := Surroundings.reduce_reduce le operand s.stack
  rw [hreduce] at this
  exact this.symm

/-- An operator takes what is held for its tightness as its left operand. -/
theorem step_operator {op : Operator} (h : p.Holds op.tightness e around) (bounds : Bounds)
    (position : Nat) :
    p.step bounds ⟨.symbol op.symbol, position⟩ =
      .ok ⟨.operand, { around with stack := .operation e op position :: around.stack }⟩ := by
  obtain ⟨operand, s, hp, hopened, hreduce⟩ := h
  have hop : Surroundings.operator? ⟨.symbol op.symbol, position⟩ = some op :=
    Surroundings.operator?_eq_some_iff.mpr rfl
  rw [step_of_operand? hp, Surroundings.readAfter, hop]
  · simp [hreduce, hopened]
  · intro hparen
    have := Lexeme.symbol.inj hparen
    rcases op with op | op <;> cases op <;> cases this

/-- A token that is no operator and opens no parenthesis closes what is held as a whole. -/
theorem step_closing {t : Token} (h : p.Holds 0 e around) (bounds : Bounds)
    (ht : t.lexeme ≠ .symbol .leftParen) (hop : Surroundings.operator? t = none) :
    p.step bounds t = Surroundings.readClosing e around.stack (around.opened - 1) t := by
  obtain ⟨operand, s, hp, hopened, hreduce⟩ := h
  rw [step_of_operand? hp ht, Surroundings.readAfter, hop]
  simp [hreduce, hopened]

/-- What is held as a whole within nothing is the expression. -/
theorem finish (h : p.Holds 0 e around) (outermost : around.stack = []) (position : Nat) :
    p.finish bounds position = .ok e := by
  obtain ⟨operand, s, hp, hopened, hreduce⟩ := h
  rw [finish_of_operand? hp, Surroundings.finishAfter, hreduce, outermost]

end Holds

end Progress

end SheetFormula.Parser
