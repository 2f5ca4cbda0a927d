import SheetFormula.Proofs.Grammar

/-!
# The grammar is unambiguous

One list of tokens has at most one derivation (`Derivation.eq_of_tokens_eq`), so it is right to
speak of the tree and of the nesting of a list of tokens.

The induction needs more than that, because a derivation within a longer one does not know where
its tokens end. It is told by what comes after it: `Stops n` says of the tokens behind a derivation
of level `n` that the first of them cannot continue it, since it is no operator as tight as that
and no parenthesis that would make a name a call. Two derivations of one level that begin the same
tokens and are both stopped are equal, and so is what is left (`Derivation.eq_of_append_eq`).

The induction goes over derivations, repetitions and argument lists at once. An operator of a
repetition stops the operand before it (`Repetition.stops`), a closing parenthesis or a semicolon
stops anything (`stops_rightParen`, `stops_semicolon`), and two derivations of different shape
begin with different tokens: a sign begins no operand (`Derivation.append_ne_sign`), and no
argument list with an argument begins with a closing parenthesis
(`ArgumentList.append_ne_rightParen`).
-/

namespace SheetFormula

/-- The first token of `rest`, if there is one, cannot continue a derivation of level `n`. -/
def Stops (n : Nat) (rest : List Token) : Prop :=
  ∀ t ∈ rest.head?, t.lexeme ≠ .symbol .leftParen ∧
    ∀ op : Operator, t.lexeme = .symbol op.symbol → op.tightness < n

theorem stops_nil (n : Nat) : Stops n [] := by
  intro t ht
  simp at ht

theorem stops_rightParen {n position : Nat} {rest : List Token} :
    Stops n (⟨.symbol .rightParen, position⟩ :: rest) := by
  intro t ht
  obtain rfl : _ = t := by simpa using ht
  refine ⟨by simp, fun op hop => ?_⟩
  rcases op with op | op <;> cases op <;> cases hop

theorem stops_semicolon {n position : Nat} {rest : List Token} :
    Stops n (⟨.symbol .semicolon, position⟩ :: rest) := by
  intro t ht
  obtain rfl : _ = t := by simpa using ht
  refine ⟨by simp, fun op hop => ?_⟩
  rcases op with op | op <;> cases op <;> cases hop

theorem not_stops_leftParen {n position : Nat} {rest : List Token} :
    ¬Stops n (⟨.symbol .leftParen, position⟩ :: rest) :=
  fun h => (h _ rfl).1 rfl

theorem Stops.mono {n m : Nat} {rest : List Token} (h : Stops n rest) (le : n ≤ m) :
    Stops m rest :=
  fun t ht => ⟨(h t ht).1, fun op hop => Nat.lt_of_lt_of_le ((h t ht).2 op hop) le⟩

/-- An operator of level `n` stops the operand before it. -/
theorem Repetition.stops {n : Nat} (s : Repetition n) {rest : List Token} (h : Stops n rest) :
    Stops (n + 1) (s.tokens ++ rest) := by
  cases s with
  | nil => exact h.mono (Nat.le_succ n)
  | cons op tight position operand others =>
    intro t ht
    obtain rfl : _ = t := by simpa [tokens] using ht
    refine ⟨fun hop => ?_, fun op' hop => ?_⟩
    · rcases op with op | op <;> cases op <;> cases hop
    · obtain rfl := Operator.symbol_injective (Lexeme.symbol.inj hop)
      omega

/-- An operand does not begin with a sign. -/
theorem Derivation.append_ne_sign (d : Derivation 6) {sign : Sign} {position : Nat}
    {r others : List Token} : d.tokens ++ r ≠ ⟨.symbol sign.symbol, position⟩ :: others := by
  intro h
  cases d with
  | chain binary => omega
  | _ => cases sign <;> simp [tokens, Sign.symbol] at h

theorem ArgumentList.append_ne_rightParen (l : ArgumentList) {position : Nat}
    {r others : List Token} : l.tokens ++ r ≠ ⟨.symbol .rightParen, position⟩ :: others := by
  obtain ⟨t, rest, htokens, ht⟩ := l.exists_tokens_eq_cons
  intro h
  rw [htokens] at h
  obtain rfl : t = _ := (List.cons.inj h).1
  simp [Lexeme.beginsExpression] at ht

mutual

/-- Two derivations of one level that begin the same tokens and are stopped are equal. -/
theorem Derivation.eq_of_append_eq : {n : Nat} → (d d' : Derivation n) → (r r' : List Token) →
    Stops n r → Stops n r' → d.tokens ++ r = d'.tokens ++ r' → d = d' ∧ r = r'
  | _, .chain binary first rest, d', r, r', hr, hr', h => by
    cases d' with
    | chain _ first' rest' =>
      simp only [Derivation.tokens, List.append_assoc] at h
      obtain ⟨rfl, hrest⟩ := first.eq_of_append_eq first' _ _ (rest.stops hr) (rest'.stops hr') h
      obtain ⟨rfl, rfl⟩ := rest.eq_of_append_eq rest' r r' hr hr' hrest
      exact ⟨rfl, rfl⟩
    | _ => omega
  | _, .unsigned operand, d', r, r', hr, hr', h => by
    cases d' with
    | chain binary => omega
    | unsigned operand' =>
      obtain ⟨rfl, rfl⟩ :=
        operand.eq_of_append_eq operand' r r' (hr.mono (by omega)) (hr'.mono (by omega)) h
      exact ⟨rfl, rfl⟩
    | signed sign position operand' => exact absurd h operand.append_ne_sign
  | _, .signed sign position operand, d', r, r', hr, hr', h => by
    cases d' with
    | chain binary => omega
    | unsigned operand' => exact absurd h.symm operand'.append_ne_sign
    | signed sign' position' operand' =>
      simp only [Derivation.tokens, List.cons_append, List.cons.injEq, Token.mk.injEq,
        Lexeme.symbol.injEq] at h
      obtain ⟨⟨hsign, rfl⟩, h⟩ := h
      obtain rfl := Sign.symbol_injective hsign
      obtain ⟨rfl, rfl⟩ := operand.eq_of_append_eq operand' r r' hr hr' h
      exact ⟨rfl, rfl⟩
  | _, .number text position, d', r, r', hr, hr', h => by
    cases d' with
    | chain binary => omega
    | number => simpa [Derivation.tokens, and_assoc] using h
    | _ => simp [Derivation.tokens] at h
  | _, .string text position, d', r, r', hr, hr', h => by
    cases d' with
    | chain binary => omega
    | string => simpa [Derivation.tokens, and_assoc] using h
    | _ => simp [Derivation.tokens] at h
  | _, .reference name position, d', r, r', hr, hr', h => by
    cases d' with
    | chain binary => omega
    | reference => simpa [Derivation.tokens, and_assoc] using h
    | emptyCall =>
      obtain ⟨-, rfl⟩ := List.cons.inj h
      exact absurd hr not_stops_leftParen
    | call =>
      obtain ⟨-, rfl⟩ := List.cons.inj h
      exact absurd hr not_stops_leftParen
    | _ => simp [Derivation.tokens] at h
  | _, .group opening inner closing, d', r, r', hr, hr', h => by
    cases d' with
    | chain binary => omega
    | group opening' inner' closing' =>
      simp only [Derivation.tokens, List.cons_append, List.append_assoc, List.cons.injEq,
        Token.mk.injEq, true_and] at h
      obtain ⟨rfl, h⟩ := h
      obtain ⟨rfl, hrest⟩ := inner.eq_of_append_eq inner' _ _ stops_rightParen stops_rightParen h
      obtain ⟨rfl, rfl⟩ : closing = closing' ∧ r = r' := by simpa using hrest
      exact ⟨rfl, rfl⟩
    | _ => simp [Derivation.tokens] at h
  | _, .emptyCall name position opening closing, d', r, r', hr, hr', h => by
    cases d' with
    | chain binary => omega
    | reference =>
      obtain ⟨-, rfl⟩ := List.cons.inj h
      exact absurd hr' not_stops_leftParen
    | emptyCall => simpa [Derivation.tokens, and_assoc] using h
    | call name' position' opening' arguments' closing' =>
      simp only [Derivation.tokens, List.cons_append, List.append_assoc, List.cons.injEq] at h
      exact absurd h.2.2.symm arguments'.append_ne_rightParen
    | _ => simp [Derivation.tokens] at h
  | _, .call name position opening arguments closing, d', r, r', hr, hr', h => by
    cases d' with
    | chain binary => omega
    | reference =>
      obtain ⟨-, rfl⟩ := List.cons.inj h
      exact absurd hr' not_stops_leftParen
    | emptyCall =>
      simp only [Derivation.tokens, List.cons_append, List.append_assoc, List.cons.injEq] at h
      exact absurd h.2.2 arguments.append_ne_rightParen
    | call name' position' opening' arguments' closing' =>
      simp only [Derivation.tokens, List.cons_append, List.append_assoc, List.cons.injEq,
        Token.mk.injEq, Lexeme.identifier.injEq, true_and, List.nil_append] at h
      obtain ⟨⟨rfl, rfl⟩, rfl, h⟩ := h
      obtain ⟨rfl, rfl, rfl⟩ := arguments.eq_of_append_eq arguments' _ _ _ _ h
      exact ⟨rfl, rfl⟩
    | _ => simp [Derivation.tokens] at h

theorem Repetition.eq_of_append_eq : {n : Nat} → (s s' : Repetition n) → (r r' : List Token) →
    Stops n r → Stops n r' → s.tokens ++ r = s'.tokens ++ r' → s = s' ∧ r = r'
  | _, .nil, s', r, r', hr, hr', h => by
    cases s' with
    | nil => exact ⟨rfl, h⟩
    | cons op tight position operand rest =>
      obtain rfl : r = _ := h
      exact absurd ((hr _ rfl).2 op rfl) (by omega)
  | _, .cons op tight position operand rest, s', r, r', hr, hr', h => by
    cases s' with
    | nil =>
      obtain rfl : _ = r' := h
      exact absurd ((hr' _ rfl).2 op rfl) (by omega)
    | cons op' tight' position' operand' rest' =>
      simp only [Repetition.tokens, List.cons_append, List.append_assoc, List.cons.injEq,
        Token.mk.injEq, Lexeme.symbol.injEq] at h
      obtain ⟨⟨hop, rfl⟩, h⟩ := h
      obtain rfl := Operator.symbol_injective hop
      obtain ⟨rfl, hrest⟩ :=
        operand.eq_of_append_eq operand' _ _ (rest.stops hr) (rest'.stops hr') h
      obtain ⟨rfl, rfl⟩ := rest.eq_of_append_eq rest' r r' hr hr' hrest
      exact ⟨rfl, rfl⟩

theorem ArgumentList.eq_of_append_eq : (l l' : ArgumentList) → (p p' : Nat) →
    (r r' : List Token) → l.tokens ++ ⟨.symbol .rightParen, p⟩ :: r =
      l'.tokens ++ ⟨.symbol .rightParen, p'⟩ :: r' → l = l' ∧ p = p' ∧ r = r'
  | .single argument, l', p, p', r, r', h => by
    cases l' with
    | single argument' =>
      obtain ⟨rfl, hrest⟩ :=
        argument.eq_of_append_eq argument' _ _ stops_rightParen stops_rightParen h
      simpa using hrest
    | cons argument' separator rest =>
      simp only [ArgumentList.tokens, List.append_assoc, List.cons_append] at h
      obtain ⟨rfl, hrest⟩ :=
        argument.eq_of_append_eq argument' _ _ stops_rightParen stops_semicolon h
      simp at hrest
  | .cons argument separator rest, l', p, p', r, r', h => by
    cases l' with
    | single argument' =>
      simp only [ArgumentList.tokens, List.append_assoc, List.cons_append] at h
      obtain ⟨rfl, hrest⟩ :=
        argument.eq_of_append_eq argument' _ _ stops_semicolon stops_rightParen h
      simp at hrest
    | cons argument' separator' rest' =>
      simp only [ArgumentList.tokens, List.append_assoc, List.cons_append] at h
      obtain ⟨rfl, hrest⟩ :=
        argument.eq_of_append_eq argument' _ _ stops_semicolon stops_semicolon h
      simp only [List.cons.injEq, Token.mk.injEq, true_and] at hrest
      obtain ⟨rfl, hothers⟩ := hrest
      obtain ⟨rfl, rfl, rfl⟩ := rest.eq_of_append_eq rest' _ _ _ _ hothers
      exact ⟨rfl, rfl, rfl⟩

end

/-- The tokens determine the derivation. -/
theorem Derivation.eq_of_tokens_eq {n : Nat} {d d' : Derivation n} (h : d.tokens = d'.tokens) :
    d = d' :=
  (d.eq_of_append_eq d' [] [] (stops_nil n) (stops_nil n) (by simp [h])).1

end SheetFormula
