import SheetFormula.Proofs.Parser.ViablePrefix

/-!
# Levels that are left open

A parser that refuses a token leaves the levels open that have been entered before it and not been
left. The tokens before it say which these are (`LeavesOpen`): the level of the formula, one for
each parenthesis and argument list that is not closed and one for each sign that lacks its operand.
If the operand where the token stands is complete, the level that it completes has been left as
well.

A refusal counts the levels at its place (`Progress.Refuses.opened_eq`); this follows the functions
of the parser, whatever the token is. These are the levels that the tokens leave open
(`Describes.leavesOpen`), by the description of the tokens that soundness has.

There is only one such number for a list of tokens (`LeavesOpen.unique`), so the relation is a
function, although nothing in it says how to compute the number. The reason is that the parser is
one: tokens that leave levels open in the sense of the relation are read to a place where that many
are open (`LeavesOpen.reads`), and no two places are reached by the same tokens
(`Reads.deterministic`). To read them is to go through what is pending, construct by construct
(`Pending.reads`), with what completeness says of the derived parts.
-/

namespace SheetFormula.Parser

open Surroundings

variable {bounds : Bounds} {room opened : Nat} {stack : List Frame} {ts : List Token}

/-- After the tokens `seen` the given number of levels have been entered and not left. Either an
operand has to follow, whose level is one of them, or an expression is complete with all the
operators before it and its level has just been left. -/
inductive LeavesOpen (room : Nat) (seen : List Token) : Nat → Prop where
  | operand {stack : List Frame} {opened : Nat} (pending : Pending room stack opened seen) :
    LeavesOpen room seen opened
  | expression {stack : List Frame} {opened : Nat} {e : Expr}
      (ends : Ends room 0 ⟨stack, opened + 1⟩ e seen) : LeavesOpen room seen opened

/-- How many levels the constructs of a stack have opened. Operators open none. -/
def openLevels : List Frame → Nat
  | [] => 0
  | .operation .. :: stack => openLevels stack
  | .sign .. :: stack | .group :: stack | .call .. :: stack => openLevels stack + 1

/-- Besides the level of the formula each parenthesis, call and sign has opened one. -/
theorem Pending.opened_eq (h : Pending room stack opened ts) : opened = openLevels stack + 1 := by
  induction h with
  | start => rfl
  | operation _ _ _ _ _ _ ih | argument _ _ _ _ ih => exact ih
  | sign _ _ _ ih | group _ _ ih | call _ _ _ _ ih => exact congrArg Nat.succ ih

/-! ## What a refusal counts -/

namespace Progress

/-- The number of levels that are open at a place if the next token is refused there. -/
def leftOpen (p : Progress) : Nat :=
  match p.phase with
  | .level | .arguments .. => p.around.opened + 1
  | .operand => p.around.opened
  | .name name position =>
    (applySigns (.reference name position) p.around.stack p.around.opened).2.opened - 1
  | .complete _ => p.around.opened - 1

end Progress

variable {s : Surroundings} {t : Token} {refusal : Refusal}

theorem Surroundings.opened_of_openLevel {position : Nat}
    (h : s.openLevel bounds position = .error refusal) : refusal.opened = s.opened + 1 := by
  unfold openLevel at h
  split at h <;> cases h
  rfl

theorem Surroundings.opened_of_readOperand (h : s.readOperand t = .error refusal) :
    refusal.opened = s.opened := by
  unfold readOperand at h
  split at h <;> cases h
  rfl

theorem Surroundings.opened_of_readAfter {e : Expr} (h : s.readAfter e t = .error refusal) :
    refusal.opened = s.opened - 1 := by
  unfold readAfter at h
  split at h
  · cases h
  · dsimp only at h
    unfold readClosing at h
    split at h <;> cases h
    rfl

theorem Surroundings.opened_of_finishAfter {e : Expr} {position : Nat}
    (h : s.finishAfter e position = .error refusal) : refusal.opened = s.opened - 1 := by
  unfold finishAfter at h
  split at h <;> cases h
  rfl

namespace Progress

variable {q : Progress}

/-- A level that cannot be opened counts like one that a refused operand has opened. -/
theorem opened_of_level {s : Surroundings} {position : Nat} {α : Type}
    {f : Surroundings → Except Refusal α} (h : s.openLevel bounds position >>= f = .error refusal)
    (inner : ∀ s', f s' = .error refusal → refusal.opened = s'.opened) :
    refusal.opened = s.opened + 1 := by
  rcases bind_eq_error h with h | ⟨s', hs, h⟩
  · exact opened_of_openLevel h
  · obtain ⟨-, rfl⟩ := openLevel_eq_ok hs
    exact inner _ h

/-- A refusal counts the levels that are open at its place. -/
theorem Refuses.opened_eq (h : q.Refuses bounds t refusal) : refusal.opened = q.leftOpen := by
  obtain ⟨phase, around⟩ := q
  unfold Refuses at h
  split at h
  · cases phase with
    | level | arguments =>
      refine opened_of_level (s := around) h fun _ h => ?_
      cases h
      rfl
    | operand =>
      cases h
      rfl
    | name name place => exact opened_of_finishAfter h
    | complete e => exact opened_of_finishAfter h
  · cases phase with
    | level => exact opened_of_level h fun _ => opened_of_readOperand
    | operand => exact opened_of_readOperand h
    | name name position =>
      simp only [step] at h
      split at h
      · cases h
      · exact opened_of_readAfter h
    | arguments name position =>
      simp only [step] at h
      split at h
      · cases h
      · have opened := opened_of_level h fun _ => opened_of_readOperand
        exact opened
    | complete e => exact opened_of_readAfter h

end Progress

/-- With the operators before it an operand is an expression, whose level is left. -/
theorem Ends.leavesOpen {e : Expr} (h : Ends room 5 s e ts) :
    LeavesOpen room ts (s.opened - 1) := by
  obtain ⟨before, d, pending, loose, rfl, rfl, within⟩ := h
  have whole := pending.ends_reduce d loose (Nat.zero_le 5) (Nat.le_refl 5) within
  rw [← Nat.sub_add_cancel pending.opened_pos] at whole
  exact .expression whole

/-- The levels that are open at a place are those that the tokens before it leave open. -/
theorem Describes.leavesOpen {q : Progress} (h : Describes room q ts) :
    LeavesOpen room ts q.leftOpen := by
  obtain ⟨phase, stack, opened⟩ := q
  cases phase with
  | level => exact .operand h
  | operand => exact .operand h.2
  | arguments name position =>
    obtain ⟨-, before, opening, pending, rfl⟩ := h
    exact .operand (pending.call name position opening)
  | name name position => exact (h.ends rfl).leavesOpen
  | complete e => exact Ends.leavesOpen h

/-! ## The tokens determine the number -/

/-- No two places are reached by the same tokens. -/
theorem Reads.deterministic {p q q' : Progress} (h : Reads bounds p ts q)
    (h' : Reads bounds p ts q') : q = q' := by
  induction h with
  | nil => cases h' with
    | nil => rfl
  | cons first rest ih => cases h' with
    | cons first' rest' =>
      obtain rfl := Except.ok.inj (first.symm.trans first')
      exact ih rest'

namespace Progress

/-- What is around the operand that has to follow at a place, with its level open. -/
def awaits? (p : Progress) : Option Surroundings :=
  match p.phase with
  | .level => some { p.around with opened := p.around.opened + 1 }
  | .operand => some p.around
  | .arguments name position =>
    some ⟨.call name position [] :: p.around.stack, p.around.opened + 1⟩
  | .name .. | .complete _ => none

theorem leftOpen_of_awaits? {p : Progress} (h : p.awaits? = some s) : p.leftOpen = s.opened := by
  obtain ⟨phase, around⟩ := p
  cases phase <;> cases h <;> rfl

/-- What holds an expression leaves all levels open but that of the expression. -/
theorem Holds.leftOpen {p : Progress} {n : Nat} {e : Expr} (h : p.Holds n e s) :
    p.leftOpen = s.opened - 1 := by
  obtain ⟨operand, around, hp, hopened, -⟩ := h
  obtain ⟨phase, stack, opened⟩ := p
  cases phase with
  | name name position => simp only [Progress.leftOpen, Option.some.inj hp, hopened]
  | complete e =>
    cases hp
    exact congrArg (· - 1) hopened
  | _ => cases hp

/-- An operand is read where it has to follow, if the bounds allow its level. -/
theorem step_of_awaits? {p : Progress} (h : p.awaits? = some s) (within : s.opened ≤ bounds.room)
    (ht : t.lexeme ≠ .symbol .rightParen) : p.step bounds t = s.readOperand t := by
  obtain ⟨phase, stack, opened⟩ := p
  cases phase with
  | level =>
    cases h
    simp only [step, openLevel, if_pos (Nat.lt_of_succ_le within)]
    rfl
  | operand =>
    cases h
    rfl
  | arguments name position =>
    cases h
    simp only [step, if_neg ht, openLevel, if_pos (Nat.lt_of_succ_le within)]
    rfl
  | _ => cases h

end Progress

/-- A derivation is read where an operand has to follow. -/
theorem Reads.of_awaits? {p q : Progress} {n : Nat} (h : p.awaits? = some s)
    (within : s.opened ≤ bounds.room) {d : Derivation n}
    (hread : Reads bounds ⟨.operand, s⟩ d.tokens q) : Reads bounds p d.tokens q := by
  obtain ⟨t, others, htokens, begins⟩ := d.exists_tokens_eq_cons
  have ht : t.lexeme ≠ .symbol .rightParen := by
    intro closing
    simp [closing, Lexeme.beginsExpression] at begins
  rw [htokens] at hread ⊢
  cases hread with
  | cons first rest => exact .cons ((Progress.step_of_awaits? h within ht).trans first) rest

/-- What is pending is read within wide bounds. -/
theorem Pending.reads (wide : room ≤ bounds.room) (h : Pending room stack opened ts)
    (within : opened ≤ bounds.room) :
    ∃ q, Reads bounds .start ts q ∧ q.awaits? = some ⟨stack, opened⟩ := by
  induction h with
  | start => exact ⟨.start, .nil _, rfl⟩
  | @sign stack opened ts before sign position ih =>
    obtain ⟨q, hq, awaits⟩ := ih (by omega)
    have next : q.step bounds ⟨.symbol sign.symbol, position⟩ =
        .ok ⟨.level, ⟨.sign sign position :: stack, opened⟩⟩ := by
      rw [Progress.step_of_awaits? awaits (Nat.le_of_succ_le within)
        (by cases sign <;> simp [Sign.symbol])]
      cases sign <;> rfl
    exact ⟨_, hq.snoc next, rfl⟩
  | @operation stack opened ts before op loose left within' position ih =>
    obtain ⟨q, hq, awaits⟩ := ih within
    obtain ⟨r, hr, held⟩ := reads_derivation left stack opened (Nat.le_trans within' wide)
      fun _ => loose
    rw [applySigns_of_loose loose] at held
    have hr := Reads.of_awaits? awaits within hr
    exact ⟨_, (hq.append hr).snoc (held.step_operator bounds position), rfl⟩
  | @group stack opened ts before opening ih =>
    obtain ⟨q, hq, awaits⟩ := ih (by omega)
    have next : q.step bounds ⟨.symbol .leftParen, opening⟩ =
        .ok ⟨.level, ⟨.group :: stack, opened⟩⟩ :=
      Progress.step_of_awaits? awaits (Nat.le_of_succ_le within) (by simp)
    exact ⟨_, hq.snoc next, rfl⟩
  | @call stack opened ts before name position opening ih =>
    obtain ⟨q, hq, awaits⟩ := ih (by omega)
    have first : q.step bounds ⟨.identifier name, position⟩ =
        .ok ⟨.name name position, ⟨stack, opened⟩⟩ :=
      Progress.step_of_awaits? awaits (Nat.le_of_succ_le within) (by simp)
    exact ⟨⟨.arguments name position, ⟨stack, opened⟩⟩,
      hq.append (.cons first (.cons rfl (.nil _))), rfl⟩
  | @argument stack opened ts name position done before d within' separator ih =>
    have loose : Loose 0 (.call name position done :: stack) := trivial
    obtain ⟨q, hq, awaits⟩ := ih within
    obtain ⟨r, hr, held⟩ := reads_derivation d (.call name position done :: stack) opened
      (Nat.le_trans within' wide) fun _ => loose
    rw [applySigns_of_loose loose] at held
    have hr := Reads.of_awaits? awaits within hr
    have next := held.step_closing bounds (t := ⟨.symbol .semicolon, separator⟩) (by simp) rfl
    refine ⟨_, (hq.append hr).snoc next, ?_⟩
    simp [Progress.awaits?, Nat.sub_add_cancel before.opened_pos]

/-- The tokens before a complete operand are read to a place that holds it. -/
theorem Ends.reads {n : Nat} {e : Expr} (wide : room ≤ bounds.room) (h : Ends room n s e ts) :
    ∃ q, Reads bounds .start ts q ∧ q.Holds n e s := by
  obtain ⟨before, d, pending, loose, rfl, rfl, within⟩ := h
  have inside : s.opened + d.depth ≤ bounds.room := Nat.le_trans within wide
  have around : s.opened ≤ bounds.room := Nat.le_of_add_right_le inside
  obtain ⟨q, hq, awaits⟩ := pending.reads wide around
  obtain ⟨r, hr, held⟩ := reads_derivation d s.stack s.opened inside fun _ => loose
  rw [applySigns_of_loose loose] at held
  exact ⟨r, hq.append (Reads.of_awaits? awaits around hr), held⟩

/-- Tokens that leave some levels open are read to a place where as many are open. -/
theorem LeavesOpen.reads {m : Nat} (wide : room ≤ bounds.room) (long : ts.length < bounds.room)
    (h : LeavesOpen room ts m) : ∃ q, Reads bounds .start ts q ∧ q.leftOpen = m := by
  cases h with
  | operand pending =>
    obtain ⟨q, hq, awaits⟩ := pending.reads wide (Nat.le_trans pending.opened_le long)
    exact ⟨q, hq, Progress.leftOpen_of_awaits? awaits⟩
  | expression ends =>
    obtain ⟨q, hq, held⟩ := ends.reads wide
    exact ⟨q, hq, held.leftOpen⟩

/-- Tokens leave only one number of levels open. -/
theorem LeavesOpen.unique {room' m m' : Nat} (h : LeavesOpen room ts m)
    (h' : LeavesOpen room' ts m') : m = m' := by
  let bounds : Bounds := ⟨max room room' + ts.length + 1, 0⟩
  have wide : room ≤ bounds.room ∧ room' ≤ bounds.room ∧ ts.length < bounds.room := by
    simp only [bounds]
    omega
  obtain ⟨q, hq, rfl⟩ := h.reads wide.1 wide.2.2
  obtain ⟨q', hq', rfl⟩ := h'.reads wide.2.1 wide.2.2
  rw [hq.deterministic hq']

end SheetFormula.Parser
