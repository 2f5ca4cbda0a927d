import SheetFormula.Proofs.Parser.Reading

/-!
# Whatever is read is derived

Where a formula can end, all tokens that have been read derive it, and their nesting is within the
bounds (`Describes.exists_derivation`).

`Pending` describes the tokens before a place where an operand can stand by the constructs that
have begun there and are not complete: every complete part of them is derived, and the levels that
are open are counted. `Ends` adds an expression at the end of them that is derived at some level of
the grammar. `Describes` says for each phase of the parser which of the two its place is.

Each token that is read keeps such a description of the tokens so far (`Describes.step`), so it
holds wherever reading has led (`Describes.reads`). A step does one of three things. It begins a
construct, which is pending then (`describes_readOperand`). It completes an operand, and the signs
right before it make a longer one (`ends_applySigns`, `describes_withOperand`). Or it comes after
an operand: then operators that are tight enough make a longer expression with it (`ends_reduce`),
and a closing token makes an operand of that (`describes_readClosing`), for which the arguments
before a semicolon are put together with the last one (`exists_arguments`).
-/

namespace SheetFormula.Parser

open Surroundings

variable {bounds : Bounds}

/-- The tokens of the list end where an operand can stand, the constructs of the stack have begun
in them and are not complete, and `opened` levels are open. -/
inductive Pending (room : Nat) : List Frame → Nat → List Token → Prop where
  | start : Pending room [] 1 []
  | sign {stack : List Frame} {opened : Nat} {ts : List Token}
      (before : Pending room stack opened ts) (sign : Sign) (position : Nat) :
    Pending room (.sign sign position :: stack) (opened + 1)
      (ts ++ [⟨.symbol sign.symbol, position⟩])
  | operation {stack : List Frame} {opened : Nat} {ts : List Token}
      (before : Pending room stack opened ts) (op : Operator) (loose : Loose op.tightness stack)
      (left : Derivation op.tightness) (within : opened + left.depth ≤ room) (position : Nat) :
    Pending room (.operation left.tree op position :: stack) opened
      (ts ++ left.tokens ++ [⟨.symbol op.symbol, position⟩])
  | group {stack : List Frame} {opened : Nat} {ts : List Token}
      (before : Pending room stack opened ts) (opening : Nat) :
    Pending room (.group :: stack) (opened + 1) (ts ++ [⟨.symbol .leftParen, opening⟩])
  | call {stack : List Frame} {opened : Nat} {ts : List Token}
      (before : Pending room stack opened ts) (name : String) (position opening : Nat) :
    Pending room (.call name position [] :: stack) (opened + 1)
      (ts ++ [⟨.identifier name, position⟩, ⟨.symbol .leftParen, opening⟩])
  /-- An argument after the first. -/
  | argument {stack : List Frame} {opened : Nat} {ts : List Token} {name : String} {position : Nat}
      {done : List Expr} (before : Pending room (.call name position done :: stack) opened ts)
      (d : Derivation 0) (within : opened + d.depth ≤ room) (separator : Nat) :
    Pending room (.call name position (d.tree :: done) :: stack) opened
      (ts ++ d.tokens ++ [⟨.symbol .semicolon, separator⟩])

/-- The tokens of the list end with what a derivation of level `n` derives, whose tree is `e`, and
before it the constructs of `s` are pending, the last operator of them too loose to take it. -/
def Ends (room n : Nat) (s : Surroundings) (e : Expr) (ts : List Token) : Prop :=
  ∃ (before : List Token) (d : Derivation n), Pending room s.stack s.opened before ∧
    Loose n s.stack ∧ ts = before ++ d.tokens ∧ d.tree = e ∧ s.opened + d.depth ≤ room

/-- The tokens read so far are what the place says they are. -/
def Describes (room : Nat) (p : Progress) (ts : List Token) : Prop :=
  match p.phase with
  | .level => Pending room p.around.stack (p.around.opened + 1) ts
  | .operand => p.around.opened ≤ room ∧ Pending room p.around.stack p.around.opened ts
  | .name name position => p.around.opened ≤ room ∧ ∃ before,
      Pending room p.around.stack p.around.opened before ∧
        ts = before ++ [⟨.identifier name, position⟩]
  | .arguments name position => p.around.opened ≤ room ∧ ∃ before opening,
      Pending room p.around.stack p.around.opened before ∧
        ts = before ++ [⟨.identifier name, position⟩, ⟨.symbol .leftParen, opening⟩]
  | .complete e => Ends room 5 p.around e ts

/-! ## Opening a level -/

theorem bind_eq_ok {α β : Type} {x : Except Refusal α} {f : α → Except Refusal β} {b : β}
    (h : x >>= f = .ok b) : ∃ a, x = .ok a ∧ f a = .ok b := by
  cases x with
  | ok a => exact ⟨a, rfl, h⟩
  | error refusal => cases h

theorem openLevel_eq_ok {s s' : Surroundings} {position : Nat}
    (h : s.openLevel bounds position = .ok s') :
    s.opened + 1 ≤ bounds.room ∧ s' = { s with opened := s.opened + 1 } := by
  unfold openLevel at h
  split at h
  · next room =>
    cases h
    exact ⟨room, rfl⟩
  · cases h

/-! ## Completing what is pending -/

namespace Pending

variable {room opened : Nat} {stack : List Frame} {ts : List Token}

/-- Nothing before an operand takes it if the last operator there is too loose. -/
theorem ends_of_loose {n k : Nat} (h : Pending room stack opened ts) (d : Derivation k)
    (loose : Loose n stack) (le : n ≤ k) (five : k ≤ 5) (within : opened + d.depth ≤ room) :
    Ends room n ⟨stack, opened⟩ d.tree (ts ++ d.tokens) := by
  obtain ⟨d', htokens, htree, hdepth⟩ := d.exists_looser le five
  exact ⟨ts, d', h, loose, by rw [htokens], htree, hdepth ▸ within⟩

/-- The signs before an operand derive a longer operand with it. -/
theorem ends_applySigns (h : Pending room stack opened ts) (d : Derivation 5)
    (within : opened + d.depth ≤ room) :
    Ends room 5 (applySigns d.tree stack opened).2 (applySigns d.tree stack opened).1
      (ts ++ d.tokens) := by
  induction h generalizing d with
  | sign before sign position ih =>
    have signed := ih (.signed sign position d) (by simp only [Derivation.depth]; omega)
    simpa [applySigns, Derivation.tokens, Derivation.tree] using signed
  | operation before op loose left within' position =>
    exact (operation before op loose left within' position).ends_of_loose d op.tightness_lt
      (Nat.le_refl 5) (Nat.le_refl 5) within
  | start => exact start.ends_of_loose d trivial (Nat.le_refl 5) (Nat.le_refl 5) within
  | group before opening =>
    exact (group before opening).ends_of_loose d trivial (Nat.le_refl 5) (Nat.le_refl 5) within
  | call before name position opening =>
    exact (call before name position opening).ends_of_loose d trivial (Nat.le_refl 5)
      (Nat.le_refl 5) within
  | argument before d' within' separator =>
    exact (argument before d' within' separator).ends_of_loose d trivial (Nat.le_refl 5)
      (Nat.le_refl 5) within

/-- The operators before an operand that bind at least as tightly as `n` derive a longer operand
with it. -/
theorem ends_reduce {n k : Nat} (h : Pending room stack opened ts) (d : Derivation k)
    (loose : Loose k stack) (le : n ≤ k) (five : k ≤ 5) (within : opened + d.depth ≤ room) :
    Ends room n ⟨(reduce n d.tree stack).2, opened⟩ (reduce n d.tree stack).1
      (ts ++ d.tokens) := by
  induction h generalizing k with
  | sign before sign position => exact loose.elim
  | operation before op loose' left within' position ih =>
    have lt : op.tightness < k := loose
    by_cases tight : n ≤ op.tightness
    · -- The operator takes the operand, and what they derive is one for the operators before it.
      obtain ⟨d', htokens, htree, hdepth⟩ := d.exists_looser lt five
      obtain ⟨whole, htokens', htree', hdepth'⟩ := left.exists_extend op rfl position d'
      have := ih whole loose' tight (Nat.le_of_lt op.tightness_lt) (by omega)
      simpa [reduce, tight, htokens, htokens', htree, htree'] using this
    · rw [reduce, if_neg tight]
      exact (operation before op loose' left within' position).ends_of_loose d
        (Nat.not_le.mp tight) le five within
  | start => exact start.ends_of_loose d trivial le five within
  | group before opening => exact (group before opening).ends_of_loose d trivial le five within
  | call before name position opening =>
    exact (call before name position opening).ends_of_loose d trivial le five within
  | argument before d' within' separator =>
    exact (argument before d' within' separator).ends_of_loose d trivial le five within

/-- The arguments of a call and the pending ones before them are one argument list. -/
theorem exists_arguments {name : String} {position : Nat} {done : List Expr}
    (h : Pending room (.call name position done :: stack) opened ts) (l : ArgumentList)
    (within : opened + l.depth ≤ room) : ∃ before opening outer, ∃ l' : ArgumentList,
      Pending room stack outer before ∧ opened = outer + 1 ∧
        ts ++ l.tokens =
          before ++ ⟨.identifier name, position⟩ :: ⟨.symbol .leftParen, opening⟩ :: l'.tokens ∧
        l'.trees = done.reverse ++ l.trees ∧ opened + l'.depth ≤ room := by
  generalize hstack : Frame.call name position done :: stack = frames at h
  induction h generalizing l done with
  | call before name' position' opening _ =>
    cases hstack
    exact ⟨_, opening, _, l, before, rfl, by simp, by simp, within⟩
  | argument before d within' separator ih =>
    cases hstack
    obtain ⟨before, opening, outer, l', hpending, hopened, htokens, htrees, hdepth⟩ :=
      ih (.cons d separator l) (by simp only [ArgumentList.depth]; omega) rfl
    refine ⟨before, opening, outer, l', hpending, hopened, ?_, ?_, hdepth⟩
    · simpa [ArgumentList.tokens] using htokens
    · simpa [ArgumentList.trees] using htrees
  | _ => cases hstack

theorem opened_pos (h : Pending room stack opened ts) : 0 < opened := by
  induction h with
  | start => exact Nat.one_pos
  | operation _ _ _ _ _ _ ih => exact ih
  | argument _ _ _ _ ih => exact ih
  | _ => exact Nat.succ_pos _

/-- Where nothing is pending, nothing has been read. -/
theorem of_nil (h : Pending room [] opened ts) : opened = 1 ∧ ts = [] := by
  cases h
  exact ⟨rfl, rfl⟩

/-- A level that the construct around an operand has opened is left after it. -/
theorem describes_withOperand (h : Pending room stack opened ts) (d : Derivation 6)
    (within : opened + d.depth ≤ room) :
    Describes room (withOperand ⟨stack, opened⟩ d.tree) (ts ++ d.tokens) :=
  h.ends_applySigns (.unsigned d) within

/-! ## What one token does -/

theorem describes_readOperand {t : Token} {q : Progress} (h : Pending room stack opened ts)
    (within : opened ≤ room) (hq : readOperand ⟨stack, opened⟩ t = .ok q) :
    Describes room q (ts ++ [t]) := by
  obtain ⟨lexeme, position⟩ := t
  unfold readOperand at hq
  split at hq
  · next text hlexeme =>
    obtain rfl : lexeme = _ := hlexeme
    cases hq
    exact h.describes_withOperand (.number text position) within
  · next text hlexeme =>
    obtain rfl : lexeme = _ := hlexeme
    cases hq
    exact h.describes_withOperand (.string text position) within
  · next name hlexeme =>
    obtain rfl : lexeme = _ := hlexeme
    cases hq
    exact ⟨within, ts, h, rfl⟩
  · next hlexeme =>
    obtain rfl : lexeme = _ := hlexeme
    cases hq
    exact h.sign .plus position
  · next hlexeme =>
    obtain rfl : lexeme = _ := hlexeme
    cases hq
    exact h.sign .minus position
  · next hlexeme =>
    obtain rfl : lexeme = _ := hlexeme
    cases hq
    exact h.group position
  · cases hq

end Pending

namespace Ends

variable {room : Nat} {s : Surroundings} {e : Expr} {ts : List Token} {t : Token} {q : Progress}

theorem describes_readClosing (h : Ends room 0 s e ts)
    (hq : readClosing e s.stack (s.opened - 1) t = .ok q) : Describes room q (ts ++ [t]) := by
  obtain ⟨stack, opened⟩ := s
  obtain ⟨before, d, pending, -, rfl, rfl, within⟩ := h
  obtain ⟨lexeme, position⟩ := t
  simp only at pending within hq
  unfold readClosing at hq
  split at hq
  · next stack hlexeme =>
    obtain rfl : lexeme = _ := hlexeme
    cases hq
    cases pending with
    | group outer opening =>
      have whole := outer.describes_withOperand (.group opening d position)
        (by simp only [Derivation.depth]; omega)
      simpa [Derivation.tokens, Derivation.tree] using whole
  · next name place done stack hlexeme =>
    obtain rfl : lexeme = _ := hlexeme
    cases hq
    obtain ⟨outside, opening, outer, l, hpending, rfl, htokens, htrees, hdepth⟩ :=
      pending.exists_arguments (.single d) within
    have whole := hpending.describes_withOperand (.call name place opening l position)
      (by simp only [Derivation.depth]; omega)
    simp only [ArgumentList.tokens] at htokens
    simpa [htokens, htrees, Derivation.tokens, Derivation.tree, ArgumentList.trees] using whole
  · next name place done stack hlexeme =>
    obtain rfl : lexeme = _ := hlexeme
    cases hq
    have := pending.opened_pos
    have next := pending.argument d within position
    rwa [← Nat.sub_add_cancel this] at next
  · cases hq

theorem describes_readAfter (h : Ends room 5 s e ts) (hq : s.readAfter e t = .ok q) :
    Describes room q (ts ++ [t]) := by
  obtain ⟨before, d, pending, loose, rfl, rfl, within⟩ := h
  unfold readAfter at hq
  split at hq
  · next op hop =>
    obtain ⟨before', left, pending', loose', htokens, htree, within'⟩ :=
      pending.ends_reduce d loose (Nat.le_of_lt op.tightness_lt) (Nat.le_refl 5) within
    obtain ⟨lexeme, position⟩ := t
    obtain rfl : lexeme = .symbol op.symbol := operator?_eq_some_iff.mp hop
    cases hq
    refine ⟨Nat.le_of_add_right_le within', ?_⟩
    have next := pending'.operation op loose' left within' position
    rw [htree, ← htokens] at next
    exact next
  · have closed := pending.ends_reduce d loose (Nat.zero_le 5) (Nat.le_refl 5) within
    exact closed.describes_readClosing hq

end Ends

namespace Describes

variable {room : Nat} {p q : Progress} {ts us : List Token} {t : Token} {e : Expr}

/-- At a place with a complete operand the tokens end with what derives it. -/
theorem ends {s : Surroundings} (h : Describes room p ts) (hp : p.operand? = some (e, s)) :
    Ends room 5 s e ts := by
  obtain ⟨phase, around⟩ := p
  cases phase with
  | name name position =>
    obtain ⟨within, before, pending, rfl⟩ := h
    have ends := pending.ends_applySigns (.unsigned (.reference name position)) within
    rw [Derivation.tree, Derivation.tree, Option.some.inj hp] at ends
    exact ends
  | complete e' =>
    obtain ⟨rfl, rfl⟩ := Prod.mk.inj (Option.some.inj hp)
    exact h
  | _ => cases hp

/-- A token read is described together with those before it. -/
theorem step (h : Describes bounds.room p ts) (hq : p.step bounds t = .ok q) :
    Describes bounds.room q (ts ++ [t]) := by
  obtain ⟨phase, stack, opened⟩ := p
  cases phase with
  | level =>
    obtain ⟨s, hs, hread⟩ := bind_eq_ok hq
    obtain ⟨within, rfl⟩ := openLevel_eq_ok hs
    exact Pending.describes_readOperand h within hread
  | operand => exact h.2.describes_readOperand h.1 hq
  | name name position =>
    by_cases paren : t.lexeme = .symbol .leftParen
    · obtain ⟨within, before, pending, rfl⟩ := h
      obtain ⟨lexeme, opening⟩ := t
      obtain rfl : lexeme = _ := paren
      cases hq
      exact ⟨within, before, opening, pending, by simp⟩
    · rw [Progress.step_of_operand? rfl paren] at hq
      exact (h.ends rfl).describes_readAfter hq
  | arguments name position =>
    obtain ⟨within, before, opening, pending, rfl⟩ := h
    simp only [Progress.step] at hq
    split at hq
    · next closing =>
      obtain ⟨lexeme, closing⟩ := t
      obtain rfl : lexeme = _ := closing
      cases hq
      have whole := pending.describes_withOperand (.emptyCall name position opening closing) within
      simpa [Derivation.tokens, Derivation.tree] using whole
    · obtain ⟨s, hs, hread⟩ := bind_eq_ok hq
      obtain ⟨within', rfl⟩ := openLevel_eq_ok hs
      exact (pending.call name position opening).describes_readOperand within' hread
  | complete e =>
    exact Ends.describes_readAfter h hq

/-- All tokens read are described together with those before them. -/
theorem reads (h : Describes bounds.room p ts) (hread : Reads bounds p us q) :
    Describes bounds.room q (ts ++ us) := by
  induction hread generalizing ts with
  | nil => simpa using h
  | cons first rest ih => simpa using ih (h.step first)

/-- Where a formula can end, all tokens so far derive it. -/
theorem exists_derivation {position : Nat} (h : Describes bounds.room p ts)
    (hp : p.finish bounds position = .ok e) :
    ∃ d : Derivation 0, d.tokens = ts ∧ d.nesting ≤ bounds.room ∧ d.tree = e := by
  obtain ⟨operand, s, hoperand⟩ := Progress.exists_operand?_of_finish_eq_ok hp
  rw [Progress.finish_of_operand? hoperand, finishAfter] at hp
  obtain ⟨before, d, pending, loose, rfl, rfl, within⟩ := h.ends hoperand
  obtain ⟨before', whole, pending', -, htokens, htree, within'⟩ :=
    pending.ends_reduce d loose (Nat.zero_le 5) (Nat.le_refl 5) within
  split at hp
  · next e' hreduce =>
    cases hp
    rw [hreduce] at pending' htree within'
    obtain ⟨hopened, rfl⟩ := pending'.of_nil
    refine ⟨whole, by simp [htokens], ?_, htree⟩
    simp only [Derivation.nesting]
    omega
  · cases hp

end Describes

end SheetFormula.Parser
