import SheetFormula.Proofs.Parser.Reading

/-!
# Every derivation is read

Every formula whose nesting is within the bounds is read, to a place where its tree can end
(`reads_formula`).

The induction is over derivations, repetitions and argument lists at once, and it is about any
place where an operand can stand, whatever surrounds it. The tokens of a derivation of level `n`
are read there if the levels around it and its own are within the bounds together, and the parser
then holds its tree for level `n`, with the signs before it (`reads_derivation`). The operators
before the place must be too loose to take a part of it, which is the one hypothesis about the
surroundings; a repetition provides it for each of its operands, as its own operator is looser than
they are.

After a repetition its chain is held, one operator longer with each step (`reads_repetition`), and
after an argument list its last argument, with all before it done (`reads_arguments`).
-/

namespace SheetFormula.Parser

open Surroundings

variable {bounds : Bounds}

mutual

/-- The tokens of a derivation of level `n` are read to a place that holds its tree, with the signs
before it. The operators before it must bind less tightly than `n`. -/
theorem reads_derivation : {n : Nat} → (d : Derivation n) → (stack : List Frame) →
    (opened : Nat) → opened + d.depth ≤ bounds.room → (n < 5 → Loose n stack) →
    ∃ q, Reads bounds ⟨.operand, ⟨stack, opened⟩⟩ d.tokens q ∧
      q.Holds n (applySigns d.tree stack opened).1 (applySigns d.tree stack opened).2
  | n, .chain binary first rest, stack, opened, room, loose => by
    have loose := loose binary
    have room : opened + max first.depth rest.depth ≤ bounds.room := room
    obtain ⟨p, hp, held⟩ := reads_derivation first stack opened (by omega)
      fun _ => loose.mono (Nat.le_succ n)
    rw [applySigns_of_loose loose] at held
    have held := held.loosen (Nat.le_succ n)
    rw [reduce_of_loose loose] at held
    obtain ⟨q, hq, held⟩ := reads_repetition rest stack opened (by omega) loose first.tree p held
    refine ⟨q, hp.append hq, ?_⟩
    rw [applySigns_of_loose loose]
    exact held
  | _, .unsigned operand, stack, opened, room, _ => by
    obtain ⟨q, hq, e, s, held⟩ := reads_derivation operand stack opened room (by omega)
    refine ⟨q, hq, e, s, ?_⟩
    rw [reduce_five (by omega)] at held ⊢
    exact held
  | _, .signed sign position operand, stack, opened, room, _ => by
    have room : opened + (operand.depth + 1) ≤ bounds.room := room
    obtain ⟨q, hq, held⟩ := reads_derivation operand (.sign sign position :: stack) (opened + 1)
      (by omega) (by omega)
    refine ⟨q, .cons ?_ (hq.of_operand operand.tokens_ne_nil (by omega)), held⟩
    cases sign <;> rfl
  | _, .number text position, stack, opened, _, _ =>
    ⟨_, .cons rfl (.nil _), .of_complete (by omega)⟩
  | _, .string text position, stack, opened, _, _ =>
    ⟨_, .cons rfl (.nil _), .of_complete (by omega)⟩
  | _, .reference name position, stack, opened, _, _ =>
    ⟨_, .cons rfl (.nil _), _, _, rfl, rfl, reduce_five (by omega) ..⟩
  | _, .group opening inner closing, stack, opened, room, _ => by
    have room : opened + (inner.depth + 1) ≤ bounds.room := room
    obtain ⟨q, hq, held⟩ := reads_derivation inner (.group :: stack) (opened + 1) (by omega)
      fun _ => trivial
    have last := held.step_closing bounds (t := ⟨.symbol .rightParen, closing⟩) (by simp) rfl
    have hq := (hq.of_operand inner.tokens_ne_nil (by omega)).snoc last
    exact ⟨_, .cons rfl hq, .of_complete (by omega)⟩
  | _, .emptyCall name position opening closing, stack, opened, _, _ =>
    ⟨_, .cons rfl (.cons rfl (.cons rfl (.nil _))), .of_complete (by omega)⟩
  | _, .call name position opening arguments closing, stack, opened, room, _ => by
    have room : opened + (arguments.depth + 1) ≤ bounds.room := room
    obtain ⟨q, last, done, hq, held, hdone⟩ :=
      reads_arguments arguments name position [] stack opened (by omega)
    obtain ⟨t, ts, htokens, ht⟩ := arguments.exists_tokens_eq_cons
    have notClosing : t.lexeme ≠ .symbol .rightParen := by
      intro h
      simp [h, Lexeme.beginsExpression] at ht
    rw [htokens] at hq
    have last := held.step_closing bounds (t := ⟨.symbol .rightParen, closing⟩) (by simp) rfl
    have hq := (hq.of_argument notClosing (by omega)).snoc last
    rw [← htokens] at hq
    refine ⟨_, .cons rfl (.cons rfl hq), ?_⟩
    simp only [Surroundings.withOperand, hdone, List.reverse_nil, List.nil_append]
    exact .of_complete (by omega)

/-- The operators of a repetition are read after what holds their left operand. -/
theorem reads_repetition : {n : Nat} → (s : Repetition n) → (stack : List Frame) →
    (opened : Nat) → opened + s.depth ≤ bounds.room → Loose n stack →
    (e : Expr) → (p : Progress) → p.Holds n e ⟨stack, opened⟩ →
    ∃ q, Reads bounds p s.tokens q ∧ q.Holds n (Chain.mk e s.links).toExpr ⟨stack, opened⟩
  | _, .nil, stack, opened, _, _, e, p, held => ⟨p, .nil p, held⟩
  | _, .cons op rfl position operand rest, stack, opened, room, loose, e, p, held => by
    have room : opened + max operand.depth rest.depth ≤ bounds.room := room
    have first := held.step_operator bounds position
    obtain ⟨q, hq, held⟩ := reads_derivation operand (.operation e op position :: stack) opened
      (by omega) fun _ => Nat.lt_succ_self _
    have held := held.loosen (Nat.le_succ op.tightness)
    simp only [applySigns, reduce, Nat.le_refl, if_true, reduce_of_loose loose] at held
    obtain ⟨r, hr, held⟩ := reads_repetition rest stack opened (by omega) loose _ q held
    exact ⟨r, .cons first (hq.append hr), held⟩

/-- The arguments are read to a place that holds the last of them, with those before it done. -/
theorem reads_arguments : (l : ArgumentList) → (name : String) → (position : Nat) →
    (done : List Expr) → (stack : List Frame) → (opened : Nat) →
    opened + 1 + l.depth ≤ bounds.room → ∃ q last done',
      Reads bounds ⟨.operand, ⟨.call name position done :: stack, opened + 1⟩⟩ l.tokens q ∧
        q.Holds 0 last ⟨.call name position done' :: stack, opened + 1⟩ ∧
        (last :: done').reverse = done.reverse ++ l.trees
  | .single argument, name, position, done, stack, opened, room => by
    obtain ⟨q, hq, held⟩ := reads_derivation argument (.call name position done :: stack)
      (opened + 1) room fun _ => trivial
    exact ⟨q, argument.tree, done, hq, held, by simp [ArgumentList.trees]⟩
  | .cons argument separator rest, name, position, done, stack, opened, room => by
    have room : opened + 1 + max argument.depth rest.depth ≤ bounds.room := room
    obtain ⟨p, hp, held⟩ := reads_derivation argument (.call name position done :: stack)
      (opened + 1) (by omega) fun _ => trivial
    have next := held.step_closing bounds (t := ⟨.symbol .semicolon, separator⟩) (by simp) rfl
    obtain ⟨q, last, done', hq, held, hdone⟩ :=
      reads_arguments rest name position (argument.tree :: done) stack opened (by omega)
    refine ⟨q, last, done', ?_, held, ?_⟩
    · exact hp.append (.cons next (hq.of_operand rest.tokens_ne_nil (by omega)))
    · simp [hdone, ArgumentList.trees]

end

/-- From the beginning of a formula a derivation is read to a place where its tree can end. -/
theorem reads_formula (d : Derivation 0) (room : d.nesting ≤ bounds.room) (ending : Nat) :
    ∃ q, Reads bounds .start d.tokens q ∧ q.finish bounds ending = .ok d.tree := by
  have room : d.depth + 1 ≤ bounds.room := room
  obtain ⟨q, hq, held⟩ := reads_derivation d [] 1
    (show 1 + d.depth ≤ bounds.room by omega) fun _ => trivial
  exact ⟨q, hq.of_operand d.tokens_ne_nil (by omega), held.finish rfl ending⟩

end SheetFormula.Parser
