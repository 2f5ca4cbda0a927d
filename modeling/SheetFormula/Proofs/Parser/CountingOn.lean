import SheetFormula.Proofs.Parser.OpenLevels

/-!
# Counting on

A parser that begins with `k` levels open under a limit does what it does with none open under the
limit less `k`. It counts `k` levels more at every place, and the error of the limit names the
limit itself (`Progress.run_shift`, `Progress.run_of_opened`).

What changes is said once, by two functions: `Progress.shift` opens `k` further levels around a
place, and `counted` does the same to an outcome and puts the limit into its error. Each function
of the parser is then shown to commute with them (`openLevel_shift`, `readOperand_shift`,
`readAfter_shift` and so on up to `Progress.step_shift` and `Progress.finish_shift`), and `bind`
does as well (`counted_bind`).

Leaving a level is where this could go wrong, because a count of zero has no predecessor. It does
not, since the count never runs below the levels that the constructs around the place have opened
(`Progress.CountsLevels`). Every place that is reached from the beginning counts in this way
(`Describes.countsLevels`), so the run lemma carries the description of the tokens read so far
along with it.
-/

namespace SheetFormula

/-- The error with `limit` as the limit it names, if it names one. -/
def Error.withLimit (limit : Nat) : Error → Error
  | .nestingTooDeep _ position => .nestingTooDeep limit position
  | e => e

namespace Parser

open Surroundings

variable {narrow wide : Bounds} {k : Nat} {stack : List Frame} {opened : Nat} {α β : Type}

/-! ## Levels that are open from the beginning -/

/-- The place with `k` further levels open around it. -/
def Surroundings.shift (k : Nat) (s : Surroundings) : Surroundings :=
  { s with opened := s.opened + k }

/-- The place with `k` further levels open around it. -/
def Progress.shift (k : Nat) (p : Progress) : Progress :=
  { p with around := p.around.shift k }

/-- What reading comes to with `k` further levels open, where `moved` is what it comes to if it
succeeds. An error of the limit names `limit`. -/
def counted (limit k : Nat) (moved : α → α) : Except Refusal α → Except Refusal α
  | .ok a => .ok (moved a)
  | .error refusal => .error ⟨refusal.error.withLimit limit, refusal.opened + k⟩

theorem counted_bind {limit : Nat} {moved : α → α} {moved' : β → β} {x : Except Refusal α}
    {f f' : α → Except Refusal β}
    (rest : ∀ a, x = .ok a → f' (moved a) = counted limit k moved' (f a)) :
    counted limit k moved x >>= f' = counted limit k moved' (x >>= f) := by
  cases x with
  | ok a => exact rest a rfl
  | error refusal => rfl

/-! ## One token -/

namespace Surroundings

theorem openLevel_shift (less : narrow.room = wide.room - k) (s : Surroundings) (position : Nat) :
    (s.shift k).openLevel wide position =
      counted wide.limit k (shift k) (s.openLevel narrow position) := by
  unfold openLevel
  by_cases room : s.opened < narrow.room
  · have room' : (s.shift k).opened < wide.room := by
      simp only [shift]
      omega
    rw [if_pos room, if_pos room']
    simp [counted, shift, Nat.add_right_comm]
  · have full : ¬(s.shift k).opened < wide.room := by
      simp only [shift]
      omega
    rw [if_neg room, if_neg full]
    simp [counted, shift, Error.withLimit, Nat.add_right_comm]

theorem applySigns_shift (e : Expr) (h : openLevels stack ≤ opened) :
    applySigns e stack (opened + k) =
      ((applySigns e stack opened).1, (applySigns e stack opened).2.shift k) := by
  fun_induction applySigns e stack opened with
  | case1 e sign position stack opened ih =>
    simp only [openLevels] at h
    have left : opened + k - 1 = opened - 1 + k := by omega
    rw [applySigns, left]
    exact ih (by omega)
  | case2 e stack opened notSign =>
    unfold applySigns
    split
    · next sign position stack => exact (notSign sign position stack rfl).elim
    · rfl

theorem withOperand_shift (e : Expr) {s : Surroundings} (h : openLevels s.stack ≤ s.opened) :
    (s.shift k).withOperand e = (s.withOperand e).shift k := by
  simp only [withOperand, shift, applySigns_shift e h]
  rfl

theorem readOperand_shift (limit : Nat) (t : Token) {s : Surroundings}
    (h : openLevels s.stack ≤ s.opened) :
    (s.shift k).readOperand t = counted limit k (Progress.shift k) (s.readOperand t) := by
  unfold readOperand
  split
  · exact congrArg Except.ok (withOperand_shift _ h)
  · exact congrArg Except.ok (withOperand_shift _ h)
  all_goals rfl

theorem openLevels_reduce (n : Nat) (e : Expr) (stack : List Frame) :
    openLevels (reduce n e stack).2 = openLevels stack := by
  fun_induction reduce n e stack with
  | case1 e left op position stack tight ih => exact ih
  | case2 | case3 => rfl

theorem readClosing_shift (limit : Nat) (e : Expr) (t : Token) (h : openLevels stack ≤ opened) :
    readClosing e stack (opened + k) t =
      counted limit k (Progress.shift k) (readClosing e stack opened t) := by
  obtain ⟨lexeme, position⟩ := t
  unfold readClosing
  split
  · next stack _ =>
    exact congrArg Except.ok (withOperand_shift e (s := ⟨stack, opened⟩) (Nat.le_of_succ_le h))
  · next name place done stack _ =>
    exact congrArg Except.ok (withOperand_shift _ (s := ⟨stack, opened⟩) (Nat.le_of_succ_le h))
  · rfl
  · rfl

/-- A level that is left after an expression is one that was opened for it. -/
theorem opened_shift_sub_one {s : Surroundings} (h : openLevels s.stack < s.opened) :
    (s.shift k).opened - 1 = s.opened - 1 + k := by
  simp only [shift]
  omega

theorem readAfter_shift (limit : Nat) (e : Expr) (t : Token) {s : Surroundings}
    (h : openLevels s.stack < s.opened) :
    (s.shift k).readAfter e t = counted limit k (Progress.shift k) (s.readAfter e t) := by
  have same : (s.shift k).stack = s.stack := rfl
  unfold readAfter
  split
  · rfl
  · rw [same, opened_shift_sub_one h]
    refine readClosing_shift limit _ t ?_
    rw [openLevels_reduce]
    exact Nat.le_sub_one_of_lt h

theorem finishAfter_shift (limit : Nat) (e : Expr) (position : Nat) {s : Surroundings}
    (h : openLevels s.stack < s.opened) :
    (s.shift k).finishAfter e position = counted limit k id (s.finishAfter e position) := by
  have same : (s.shift k).stack = s.stack := rfl
  unfold finishAfter
  rw [opened_shift_sub_one h, same]
  split <;> rfl

/-- Each sign leaves the level that it opened. -/
theorem openLevels_applySigns (e : Expr) (h : openLevels stack < opened) :
    openLevels (applySigns e stack opened).2.stack < (applySigns e stack opened).2.opened := by
  fun_induction applySigns e stack opened with
  | case1 e sign position stack opened ih => exact ih (Nat.lt_sub_of_add_lt h)
  | case2 => exact h

end Surroundings

/-! ## All tokens -/

namespace Progress

/-- The place counts the levels that the constructs around it have opened and, unless a level begins
there, one more. -/
def CountsLevels (p : Progress) : Prop :=
  match p.phase with
  | .level => openLevels p.around.stack ≤ p.around.opened
  | _ => openLevels p.around.stack < p.around.opened

end Progress

/-- The levels that the tokens before a place have opened are counted there. -/
theorem Describes.countsLevels {room : Nat} {p : Progress} {ts : List Token}
    (h : Describes room p ts) : p.CountsLevels := by
  obtain ⟨phase, stack, opened⟩ := p
  cases phase with
  | level => exact Nat.le_of_eq (Nat.succ.inj (Pending.opened_eq h)).symm
  | operand => exact Nat.lt_of_lt_of_eq (Nat.lt_succ_self _) h.2.opened_eq.symm
  | name name position =>
    obtain ⟨-, before, pending, -⟩ := h
    exact Nat.lt_of_lt_of_eq (Nat.lt_succ_self _) pending.opened_eq.symm
  | arguments name position =>
    obtain ⟨-, before, opening, pending, -⟩ := h
    exact Nat.lt_of_lt_of_eq (Nat.lt_succ_self _) pending.opened_eq.symm
  | complete e =>
    obtain ⟨before, d, pending, -⟩ := h
    exact Nat.lt_of_lt_of_eq (Nat.lt_succ_self _) pending.opened_eq.symm

namespace Progress

/-- A level is opened and an operand read in it, with further levels open as without them. -/
theorem openLevel_readOperand_shift (less : narrow.room = wide.room - k) {s : Surroundings}
    (h : openLevels s.stack ≤ s.opened) (t : Token) :
    (do (← (s.shift k).openLevel wide t.position).readOperand t) =
      counted wide.limit k (shift k) (do (← s.openLevel narrow t.position).readOperand t) := by
  rw [openLevel_shift less]
  refine counted_bind fun s' opens => ?_
  obtain ⟨-, rfl⟩ := openLevel_eq_ok opens
  exact readOperand_shift wide.limit t (Nat.le_succ_of_le h)

theorem step_shift (less : narrow.room = wide.room - k) {p : Progress} (h : p.CountsLevels)
    (t : Token) :
    (p.shift k).step wide t = counted wide.limit k (shift k) (p.step narrow t) := by
  obtain ⟨phase, around⟩ := p
  cases phase with
  | level => exact openLevel_readOperand_shift less h t
  | operand => exact readOperand_shift wide.limit t (Nat.le_of_lt h)
  | name name position =>
    by_cases paren : t.lexeme = .symbol .leftParen
    · simp only [step, if_pos paren]
      rfl
    · have signs := applySigns_shift (.reference name position) (Nat.le_of_lt h) (k := k)
      simp only [step, if_neg paren]
      refine Eq.trans ?_ (readAfter_shift wide.limit _ t (openLevels_applySigns _ h))
      simp only [shift, Surroundings.shift] at signs ⊢
      rw [signs]
  | arguments name position =>
    by_cases paren : t.lexeme = .symbol .rightParen
    · simp only [step, if_pos paren]
      exact congrArg Except.ok (withOperand_shift _ (Nat.le_of_lt h))
    · simp only [step, if_neg paren]
      exact openLevel_readOperand_shift less
        (s := { around with stack := .call name position [] :: around.stack }) h t
  | complete e => exact readAfter_shift wide.limit e t h

theorem finish_shift (less : narrow.room = wide.room - k) {p : Progress} (h : p.CountsLevels)
    (position : Nat) :
    (p.shift k).finish wide position = counted wide.limit k id (p.finish narrow position) := by
  obtain ⟨phase, around⟩ := p
  cases phase with
  | level | arguments =>
    have opens := openLevel_shift less around position
    refine (congrArg (· >>= _) opens).trans ?_
    exact counted_bind fun _ _ => rfl
  | operand => rfl
  | name name place =>
    have signs := applySigns_shift (.reference name place) (Nat.le_of_lt h) (k := k)
    simp only [finish]
    refine Eq.trans ?_ (finishAfter_shift wide.limit _ position (openLevels_applySigns _ h))
    simp only [shift, Surroundings.shift] at signs ⊢
    rw [signs]
  | complete e => exact finishAfter_shift wide.limit e position h

/-- With `k` levels open from the beginning a parser reads what it reads with none open and `k`
fewer allowed, and counts `k` more if it fails. -/
theorem run_shift (less : narrow.room = wide.room - k) (ending : Nat) :
    ∀ (ts : List Token) {p : Progress} {seen : List Token}, Describes narrow.room p seen →
      (p.shift k).run wide ending ts =
        (counted wide.limit k id (p.run narrow ending ts).1, (p.run narrow ending ts).2)
  | [], p, seen, described => by
    simp only [run, finish_shift less described.countsLevels]
  | t :: ts, p, seen, described => by
    rw [run, run]
    split
    · rw [finish_shift less described.countsLevels]
      cases p.finish narrow t.position <;> rfl
    · rw [step_shift less described.countsLevels]
      cases next : p.step narrow t with
      | ok q => exact run_shift less ending ts (described.step next)
      | error refusal => rfl

/-- A parser with `k` levels open at the beginning of its tokens does what a fresh one does there
under the limit less `k`, whatever limit that one names. -/
theorem run_of_opened (wide : Bounds) (k limit ending : Nat) (ts : List Token) :
    run wide ending ⟨.level, ⟨[], k⟩⟩ ts =
      (counted wide.limit k id (start.run ⟨wide.room - k, limit⟩ ending ts).1,
        (start.run ⟨wide.room - k, limit⟩ ending ts).2) := by
  have beginning : start.shift k = ⟨.level, ⟨[], k⟩⟩ := by
    simp only [shift, start, Surroundings.shift, Nat.zero_add]
  have described : Describes (wide.room - k) start [] := .start
  rw [← beginning]
  exact run_shift rfl ending ts described

end Progress
end Parser
end SheetFormula
