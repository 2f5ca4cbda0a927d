import SheetFormula.Proofs.Parser.Descent

/-!
# The steps of a descent beside those of a parser

A descent and a parser read the same tokens. The parser completes operators and signs only when the
next token asks for it, so it can be at several places that come to the same: only the next token
and the end of the input tell two places apart (`Progress.run_congr`). Where a descent has
completed an operation the parser may take it as complete as well if no tighter operator follows
(`Progress.run_operation`), and the same goes for a name that is not called and for a level that is
opened before its first token (`Progress.run_name`, `Progress.run_level_of_lt`).

The descent is where the parser is if its cursor stands before the tokens that the parser has left,
with as many levels open (`Descent.Stands`). Each step on one token or one level is computed there
(`Descent.run_take_cons`, `Descent.run_openLevel_of_lt`, `Descent.run_closeLevel`), and no check
stops it.

A part of the descent follows the parser if it has no fault and either gives something, with which
the parser goes on, or fails where the parser fails (`Descent.Follows`). This is kept by doing one
part after another (`Descent.Follows.bind`), and the steps have it in a form that carries the rest
with it (`Descent.Follows.of_take`, `Descent.Follows.of_expect`, `Descent.Follows.of_openLevel`).
-/

namespace SheetFormula.Parser

open Surroundings

variable {α β : Type} {bounds : Bounds} {ending opened n : Nat} {ts : List Token}
  {stack : List Frame} {t : Token} {e : Expr} {refusal : Refusal}

/-! ## The next token -/

/-- The next token, which is the end of the input if there is no other. -/
def upcoming (ending : Nat) (ts : List Token) : Token :=
  ts.headD (.ending ending)

/-- A token that is not the end of the input is the first of those left. -/
theorem exists_eq_cons {lexeme : Lexeme} (h : (upcoming ending ts).lexeme = lexeme)
    (inside : lexeme ≠ .endOfInput) : ∃ position us, ts = ⟨lexeme, position⟩ :: us := by
  cases ts with
  | nil => exact (inside h.symm).elim
  | cons t us =>
    obtain rfl : t.lexeme = lexeme := h
    exact ⟨t.position, us, rfl⟩

/-- The token is no operator of tightness `n` or tighter. -/
def Settled (n : Nat) (t : Token) : Prop :=
  ∀ op, operator? t = some op → op.tightness < n

theorem settled_five (t : Token) : Settled 5 t :=
  fun op _ => op.tightness_lt

theorem Settled.operator?_eq_none (h : Settled 0 t) : operator? t = none :=
  Option.eq_none_iff_forall_ne_some.mpr fun op found => Nat.not_lt_zero _ (h op found)

/-! ## Places that come to the same -/

theorem withOperand_of_loose (loose : Loose n stack) (e : Expr) :
    withOperand ⟨stack, opened⟩ e = ⟨.complete e, ⟨stack, opened⟩⟩ := by
  rw [withOperand, applySigns_of_loose loose]

namespace Progress

variable {p q : Progress}

theorem run_of_step (inside : t.lexeme ≠ .endOfInput) (next : p.step bounds t = .ok q) :
    p.run bounds ending (t :: ts) = q.run bounds ending ts := by
  rw [run, if_neg inside, next]

/-- Where the next token is refused the tokens from it on are left over. -/
theorem run_of_refuses_upcoming (h : p.Refuses bounds (upcoming ending ts) refusal) :
    p.run bounds ending ts = (.error refusal, ts) := by
  cases ts with
  | nil =>
    have ends : (upcoming ending []).lexeme = .endOfInput := rfl
    rw [Refuses, if_pos ends] at h
    exact congrArg (·, []) h
  | cons t ts =>
    exact run_of_refuses (.nil p) (fun _ mem => absurd mem List.not_mem_nil) h ending ts

/-- Only the next token and the end of the input tell two places apart. -/
theorem run_congr (steps : p.step bounds (upcoming ending ts) = q.step bounds (upcoming ending ts))
    (finishes : ∀ position, p.finish bounds position = q.finish bounds position) :
    p.run bounds ending ts = q.run bounds ending ts := by
  cases ts with
  | nil => rw [run, run, finishes]
  | cons t ts =>
    have steps : p.step bounds t = q.step bounds t := steps
    rw [run, run, finishes, steps]

/-- A level that may be opened is opened, and an operand follows. -/
theorem run_level_of_lt (room : opened < bounds.room) :
    run bounds ending ⟨.level, ⟨stack, opened⟩⟩ ts =
      run bounds ending ⟨.operand, ⟨stack, opened + 1⟩⟩ ts := by
  refine run_congr ?_ fun position => ?_
  · simp only [step, openLevel, if_pos room]
    rfl
  · simp only [finish, openLevel, if_pos room]
    rfl

theorem run_level_of_le (full : bounds.room ≤ opened) :
    run bounds ending ⟨.level, ⟨stack, opened⟩⟩ ts =
      (.error ⟨.nestingTooDeep bounds.limit (upcoming ending ts).position, opened + 1⟩, ts) := by
  refine run_of_refuses_upcoming ?_
  unfold Refuses
  split
  · simp only [finish, openLevel, if_neg (Nat.not_lt.mpr full)]
    rfl
  · simp only [step, openLevel, if_neg (Nat.not_lt.mpr full)]
    rfl

/-- Unless the call ends at once, its first argument follows. -/
theorem run_arguments {name : String} {position : Nat}
    (notClosing : (upcoming ending ts).lexeme ≠ .symbol .rightParen) :
    run bounds ending ⟨.arguments name position, ⟨stack, opened⟩⟩ ts =
      run bounds ending ⟨.level, ⟨.call name position [] :: stack, opened⟩⟩ ts := by
  refine run_congr ?_ fun place => ?_
  · simp only [step, if_neg notClosing]
  · simp only [finish, openLevel]
    split <;> rfl

/-- A name without an opening parenthesis after it is an operand. -/
theorem run_name {name : String} {position : Nat} {s : Surroundings}
    (notCall : (upcoming ending ts).lexeme ≠ .symbol .leftParen) :
    run bounds ending ⟨.name name position, s⟩ ts =
      run bounds ending (s.withOperand (.reference name position)) ts :=
  run_congr (by simp only [step, if_neg notCall, withOperand]) fun _ => rfl

/-- An operator has its right operand if none that binds more tightly follows. -/
theorem run_operation {left : Expr} {op : Operator} {position : Nat}
    (settled : Settled (op.tightness + 1) (upcoming ending ts)) :
    run bounds ending ⟨.complete e, ⟨.operation left op position :: stack, opened⟩⟩ ts =
      run bounds ending ⟨.complete (.binary op left e position), ⟨stack, opened⟩⟩ ts := by
  have reduced {m : Nat} (looser : m ≤ op.tightness) :
      reduce m e (.operation left op position :: stack) =
        reduce m (.binary op left e position) stack := by
    rw [reduce, if_pos looser]
  refine run_congr ?_ fun place => ?_
  · simp only [step, readAfter, reduced (Nat.zero_le _)]
    cases next : operator? (upcoming ending ts) with
    | none => rfl
    | some op' => simp only [reduced (Nat.le_of_lt_succ (settled op' next))]
  · simp only [finish, finishAfter, reduced (Nat.zero_le _)]

/-- A token that begins no operand is refused where one is missing. -/
theorem run_operand_of_error {s : Surroundings}
    (refused : s.readOperand (upcoming ending ts) =
      .error ⟨.unexpectedToken "expression" (upcoming ending ts).kind
        (upcoming ending ts).position, s.opened⟩) :
    run bounds ending ⟨.operand, s⟩ ts =
      (.error ⟨.unexpectedToken "expression" (upcoming ending ts).kind
        (upcoming ending ts).position, s.opened⟩, ts) := by
  refine run_of_refuses_upcoming ?_
  unfold Refuses
  split
  · next ends =>
    have kind : (upcoming ending ts).kind = .endOfInput := congrArg Lexeme.kind ends
    rw [kind]
    rfl
  · exact refused

/-! ### After an expression -/

/-- A token that is no operator closes what is around the expression, whose level is left. -/
theorem step_complete (loose : Loose 0 stack) (settled : Settled 0 t) :
    step bounds ⟨.complete e, ⟨stack, opened + 1⟩⟩ t = readClosing e stack opened t := by
  simp only [step, readAfter, settled.operator?_eq_none, reduce_of_loose loose,
    Nat.add_sub_cancel]

theorem run_complete (loose : Loose 0 stack) (settled : Settled 0 (upcoming ending (t :: ts)))
    (inside : t.lexeme ≠ .endOfInput) (closes : readClosing e stack opened t = .ok q) :
    run bounds ending ⟨.complete e, ⟨stack, opened + 1⟩⟩ (t :: ts) = q.run bounds ending ts :=
  run_of_step inside ((step_complete loose settled).trans closes)

/-- A token that does not close what is around the expression is refused. -/
theorem run_complete_of_error (loose : Loose 0 stack) (settled : Settled 0 (upcoming ending ts))
    (refused : readClosing e stack opened (upcoming ending ts) =
      .error ⟨.unexpectedToken (expectedAfter stack) (upcoming ending ts).kind
        (upcoming ending ts).position, opened⟩)
    (notEnd : stack = [] → (upcoming ending ts).lexeme ≠ .endOfInput) :
    run bounds ending ⟨.complete e, ⟨stack, opened + 1⟩⟩ ts =
      (.error ⟨.unexpectedToken (expectedAfter stack) (upcoming ending ts).kind
        (upcoming ending ts).position, opened⟩, ts) := by
  refine run_of_refuses_upcoming ?_
  unfold Refuses
  split
  · next ends =>
    have kind : (upcoming ending ts).kind = .endOfInput := congrArg Lexeme.kind ends
    simp only [finish, finishAfter, reduce_of_loose loose, kind, Nat.add_sub_cancel]
    cases stack with
    | nil => exact (notEnd rfl ends).elim
    | cons => rfl
  · rw [step_complete loose settled, refused]

/-- With nothing around it the expression ends at an end of the input, which is passed over. -/
theorem run_complete_of_ends (ends : (upcoming ending ts).lexeme = .endOfInput) :
    run bounds ending ⟨.complete e, ⟨[], opened⟩⟩ ts = (.ok e, ts.tail) := by
  cases ts with
  | nil => rfl
  | cons t ts =>
    have ends : t.lexeme = .endOfInput := ends
    rw [run, if_pos ends]
    rfl

end Progress

/-! ## Where a descent stands -/

namespace Descent

variable {d : Descent} {whole : Except Refusal Expr × List Token} {c : Cursor} {m : Nat}

/-- The index is before `ts` and the end of the input, and `opened` levels are open. -/
structure Stands (d : Descent) (ending : Nat) (c : Cursor) (ts : List Token) (opened : Nat) :
    Prop where
  drop_eq : d.tokens.drop c.index = ts ++ [.ending ending]
  depth_eq : c.depth = opened

namespace Stands

theorem getElem? (h : d.Stands ending c ts opened) :
    d.tokens[c.index]? = some (upcoming ending ts) := by
  rw [← List.head?_drop, h.drop_eq]
  cases ts <;> rfl

theorem index_add_length (h : d.Stands ending c ts opened) :
    c.index + (ts.length + 1) = d.tokens.length := by
  have left := congrArg List.length h.drop_eq
  simp only [List.length_drop, List.length_append, List.length_singleton] at left
  omega

theorem advance (h : d.Stands ending c (t :: ts) opened) :
    d.Stands ending { c with index := c.index + 1 } ts opened where
  drop_eq := by rw [← List.tail_drop, h.drop_eq, List.cons_append, List.tail_cons]
  depth_eq := h.depth_eq

theorem withDepth (h : d.Stands ending c ts opened) (m : Nat) :
    d.Stands ending { c with depth := m } ts m where
  drop_eq := h.drop_eq
  depth_eq := rfl

end Stands

/-! ## One step -/

theorem run_bind (x : Descending α) (f : α → Descending β) (c : Cursor) :
    (x >>= f).run c =
      match x.run c with
      | .ok (.ok a, after) => (f a).run after
      | .ok (.error e, after) => .ok (.error e, after)
      | .error fault => .error fault := by
  simp only [ExceptT.run, bind, ExceptT.bind, ExceptT.mk, StateT.bind, Except.bind]
  cases x c with
  | error fault => rfl
  | ok result =>
    obtain ⟨outcome, after⟩ := result
    cases outcome <;> rfl

theorem run_get (c : Cursor) : (get : Descending Cursor).run c = .ok (.ok c, c) :=
  rfl

theorem run_set (c c' : Cursor) : (set c' : Descending Unit).run c = .ok (.ok (), c') :=
  rfl

theorem run_check {right : Prop} [Decidable right] (h : right) (fault : Fault) (c : Cursor) :
    (check right fault).run c = .ok (.ok (), c) := by
  rw [check, if_pos h]
  rfl

theorem run_lookahead (h : d.Stands ending c ts opened) :
    d.lookahead.run c = .ok (.ok (upcoming ending ts), c) := by
  simp only [lookahead, run_bind, run_get, h.getElem?]
  rfl

theorem run_peek? (h : d.Stands ending c (t :: ts) opened) :
    d.peek?.run c = .ok (.ok (some (upcoming ending ts)), c) := by
  simp only [peek?, run_bind, run_get, h.advance.getElem?]
  rfl

theorem run_bump (h : d.Stands ending c ts opened) : d.bump.run c = .ok (.ok (upcoming ending ts),
    if c.index + 1 < d.tokens.length then { c with index := c.index + 1 } else c) := by
  rw [bump, run_bind, run_lookahead h]
  rfl

/-- A token that is not the last of all is passed over. -/
theorem run_take_cons (h : d.Stands ending c (t :: ts) opened) :
    d.take.run c = .ok (.ok t, { c with index := c.index + 1 }) := by
  have left := h.index_add_length
  rw [List.length_cons] at left
  have inside : c.index + 1 < d.tokens.length := by omega
  have moves : t.lexeme = .endOfInput ∨ c.index < c.index + 1 := .inr (Nat.lt_succ_self _)
  have bumped : d.bump.run c = .ok (.ok t, { c with index := c.index + 1 }) := by
    rw [run_bump h, if_pos inside]
    rfl
  simp only [take, run_bind, run_get, bumped, run_check moves]
  rfl

/-- The last token of all is taken and is still the next. It is an end of the input. -/
theorem run_take_nil (h : d.Stands ending c [] opened) :
    d.take.run c = .ok (.ok (.ending ending), c) := by
  have left := h.index_add_length
  rw [List.length_nil] at left
  have last : ¬c.index + 1 < d.tokens.length := by omega
  have ends : (Token.ending ending).lexeme = .endOfInput ∨ c.index < c.index := .inl rfl
  have bumped : d.bump.run c = .ok (.ok (.ending ending), c) := by
    rw [run_bump h, if_neg last]
    rfl
  simp only [take, run_bind, run_get, bumped, run_check ends]
  rfl

theorem run_refuse (h : d.Stands ending c ts opened) (expected : String) :
    (d.refuse expected : Descending α).run c =
      .ok (.error (.unexpectedToken expected (upcoming ending ts).kind
        (upcoming ending ts).position), c) := by
  simp only [refuse, run_bind, run_lookahead h]
  rfl

theorem run_openLevel_of_lt (h : d.Stands ending c ts opened) (below : opened < d.ceiling)
    (room : opened < d.limit) :
    d.openLevel.run c = .ok (.ok (), { c with depth := opened + 1 }) := by
  rw [← h.depth_eq] at below room ⊢
  simp only [openLevel, run_bind, run_get, run_check below, run_set, if_pos room]
  rfl

theorem run_openLevel_of_le (h : d.Stands ending c ts opened) (below : opened < d.ceiling)
    (full : d.limit ≤ opened) : d.openLevel.run c =
      .ok (.error (.nestingTooDeep d.limit (upcoming ending ts).position),
        { c with depth := opened + 1 }) := by
  have opens := h.withDepth (opened + 1)
  rw [← h.depth_eq] at below full opens ⊢
  simp only [openLevel, run_bind, run_get, run_check below, run_set, if_neg (Nat.not_lt.mpr full),
    run_lookahead opens]
  rfl

theorem run_closeLevel (h : d.Stands ending c ts (opened + 1)) :
    closeLevel.run c = .ok (.ok (), { c with depth := opened }) := by
  have isOpen : 0 < c.depth := h.depth_eq ▸ Nat.succ_pos opened
  simp only [closeLevel, run_bind, run_get, run_check isOpen, run_set, h.depth_eq,
    Nat.add_sub_cancel]

/-! ## One part after another -/

/-- From `c` on, where `ts` are left, `x` has no fault. If it gives something, `opened` levels are
open then and it is good together with the tokens that are left. If it fails, the parser, which
comes to `whole`, fails with the same error, leaves the same tokens and has as many levels open. -/
def Follows (d : Descent) (ending : Nat) (whole : Except Refusal Expr × List Token)
    (x : Descending α) (c : Cursor) (ts : List Token) (opened : Nat)
    (good : α → List Token → Prop) : Prop :=
  ∃ outcome after left, x.run c = .ok (outcome, after) ∧
    match outcome with
    | .ok a => d.Stands ending after left opened ∧ left.length ≤ ts.length ∧ good a left
    | .error e => d.Stands ending after left after.depth ∧
      whole = (.error ⟨e, after.depth⟩, left)

namespace Follows

variable {x : Descending α} {f : α → Descending β} {good : α → List Token → Prop}
  {better : β → List Token → Prop} {a : α} {c' : Cursor} {us : List Token}

theorem pure (stands : d.Stands ending c ts opened) (h : good a ts) :
    Follows d ending whole (Pure.pure a) c ts opened good :=
  ⟨.ok a, c, ts, rfl, stands, Nat.le_refl _, h⟩

theorem mono {good' : α → List Token → Prop} (h : Follows d ending whole x c ts opened good)
    (weaker : ∀ a left, good a left → good' a left) :
    Follows d ending whole x c ts opened good' := by
  obtain ⟨outcome, after, left, hrun, h⟩ := h
  refine ⟨outcome, after, left, hrun, ?_⟩
  cases outcome with
  | ok a => exact ⟨h.1, h.2.1, weaker a left h.2.2⟩
  | error e => exact h

/-- A step that gives something is followed by the rest. -/
theorem of_run (first : x.run c = .ok (.ok a, c')) (shorter : us.length ≤ ts.length)
    (rest : Follows d ending whole (f a) c' us m better) :
    Follows d ending whole (x >>= f) c ts m better := by
  obtain ⟨outcome, last, left, hrun, h⟩ := rest
  refine ⟨outcome, last, left, ?_, ?_⟩
  · rw [run_bind, first]
    exact hrun
  · cases outcome with
    | ok b => exact ⟨h.1, Nat.le_trans h.2.1 shorter, h.2.2⟩
    | error e => exact h

theorem bind (first : Follows d ending whole x c ts opened good)
    (rest : ∀ a c' us, d.Stands ending c' us opened → us.length ≤ ts.length → good a us →
      Follows d ending whole (f a) c' us m better) :
    Follows d ending whole (x >>= f) c ts m better := by
  obtain ⟨outcome, after, left, hrun, h⟩ := first
  cases outcome with
  | ok a =>
    obtain ⟨stands, shorter, hgood⟩ := h
    exact of_run hrun shorter (rest a after left stands shorter hgood)
  | error e =>
    refine ⟨.error e, after, left, ?_, h⟩
    rw [run_bind, hrun]

theorem of_lookahead {f : Token → Descending β} (stands : d.Stands ending c ts opened)
    (rest : Follows d ending whole (f (upcoming ending ts)) c ts m better) :
    Follows d ending whole (d.lookahead >>= f) c ts m better :=
  of_run (run_lookahead stands) (Nat.le_refl _) rest

theorem of_take {f : Token → Descending β} (stands : d.Stands ending c (t :: ts) opened)
    (rest : ∀ c', d.Stands ending c' ts opened → Follows d ending whole (f t) c' ts m better) :
    Follows d ending whole (d.take >>= f) c (t :: ts) m better :=
  of_run (run_take_cons stands) (Nat.le_succ _) (rest _ stands.advance)

theorem of_openLevel {f : Unit → Descending β} (stands : d.Stands ending c ts opened)
    (below : opened < d.ceiling)
    (here : Progress.run d.bounds ending ⟨.level, ⟨stack, opened⟩⟩ ts = whole)
    (rest : ∀ c', d.Stands ending c' ts (opened + 1) →
      Progress.run d.bounds ending ⟨.operand, ⟨stack, opened + 1⟩⟩ ts = whole →
      Follows d ending whole (f ()) c' ts m better) :
    Follows d ending whole (d.openLevel >>= f) c ts m better := by
  have opens := stands.withDepth (opened + 1)
  rcases Nat.lt_or_ge opened d.limit with room | full
  · rw [Progress.run_level_of_lt room] at here
    exact of_run (run_openLevel_of_lt stands below room) (Nat.le_refl _) (rest _ opens here)
  · rw [Progress.run_level_of_le full] at here
    refine ⟨.error (.nestingTooDeep d.limit (upcoming ending ts).position), _, ts, ?_, opens,
      here.symm⟩
    rw [run_bind, run_openLevel_of_le stands below full]

theorem of_closeLevel {f : Unit → Descending β} (stands : d.Stands ending c ts (opened + 1))
    (rest : ∀ c', d.Stands ending c' ts opened → Follows d ending whole (f ()) c' ts m better) :
    Follows d ending whole (closeLevel >>= f) c ts m better :=
  of_run (run_closeLevel stands) (Nat.le_refl _) (rest _ (stands.withDepth opened))

theorem refuse {expected : String} (stands : d.Stands ending c ts opened)
    (refused : whole = (.error ⟨.unexpectedToken expected (upcoming ending ts).kind
      (upcoming ending ts).position, opened⟩, ts)) :
    Follows d ending whole (d.refuse expected) c ts m good := by
  obtain ⟨drop_eq, rfl⟩ := stands
  have stands : d.Stands ending c ts c.depth := ⟨drop_eq, rfl⟩
  exact ⟨_, c, ts, run_refuse stands expected, stands, refused⟩

/-- Either the next token is the one expected, or the parser refuses it as well. -/
theorem of_expect {f : Token → Descending β} {lexeme : Lexeme} {expected : String}
    (stands : d.Stands ending c ts opened)
    (refused : (upcoming ending ts).lexeme ≠ lexeme →
      whole = (.error ⟨.unexpectedToken expected (upcoming ending ts).kind
        (upcoming ending ts).position, opened⟩, ts))
    (rest : (upcoming ending ts).lexeme = lexeme → ∀ c', d.Stands ending c' ts.tail opened →
      Follows d ending whole (f (upcoming ending ts)) c' ts.tail m better) :
    Follows d ending whole (d.expect lexeme expected >>= f) c ts m better := by
  rw [expect, bind_assoc]
  refine of_lookahead stands ?_
  split
  · next found =>
    cases ts with
    | nil => exact of_run (run_take_nil stands) (Nat.le_refl _) (rest found c stands)
    | cons t us => exact of_take stands (rest found)
  · next other =>
    have failed : Follows d ending whole (d.refuse expected) c ts opened
        fun (_ : Token) _ => False :=
      refuse stands (refused other)
    exact failed.bind fun _ _ _ _ _ given => given.elim

end Follows

end Descent

end SheetFormula.Parser
