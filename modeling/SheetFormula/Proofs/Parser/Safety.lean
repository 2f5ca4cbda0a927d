import SheetFormula.Proofs.Parser.Descent.Steps

/-!
# A descent is safe

Each function of a descent follows the parser (`Descent.expression_follows` and those with it): on
any tokens that end in an end of the input it has no fault, and it comes to what the parser comes
to. Three things keep faults away. The index stays within the tokens, since the last of them is not
passed over when it is taken, and that one is no operator, sign, parenthesis or semicolon. A level
is left only by the function that has opened it. And each function calls another one only after it
has taken a token or at a tighter level of the grammar, so that nine calls for each token are
enough.

What a function promises is the place at which the parser goes on with what it gives. For an
operation this is the place after an operand, together with the fact that no operator of its
tightness follows (`Settled`); that fact is what lets the function around it go on.

A parser may have been left in the middle of its tokens by an error, with levels open. Its index
and its levels are a cursor (`Parser.cursor`), and a descent from there comes to what
`Parser.parseCountingOn` comes to (`Parser.Within.run_formula`), and so to what `Parser.parse`
comes to. Call after call (`descendInTurn_eq`), a parser that is asked for one expression after
another can be replaced by a descent, whatever its tokens are and whatever errors came before
(`descendInTurn_afterCalls`).
-/

namespace SheetFormula.Parser

open Surroundings

namespace Descent

variable {d : Descent} {whole : Except Refusal Expr × List Token} {ending opened n : Nat}
  {ts : List Token} {t : Token} {e : Expr} {stack : List Frame}

/-! ## What the next token is -/

theorem operatorOf?_eq_some_iff {op : Operator} :
    operatorOf? n t = some op ↔ t.lexeme = .symbol op.symbol ∧ op.tightness = n := by
  simp [operatorOf?, Option.filter_eq_some_iff, operator?_eq_some_iff]

theorem settled_of_operatorOf? (h : operatorOf? n t = none) (looser : Settled (n + 1) t) :
    Settled n t := by
  intro op found
  refine Nat.lt_of_le_of_ne (Nat.le_of_lt_succ (looser op found)) fun same => ?_
  rw [operatorOf?_eq_some_iff.mpr ⟨operator?_eq_some_iff.mp found, same⟩] at h
  cases h

theorem sign?_eq_some_iff {sign : Sign} : sign? t = some sign ↔ t.lexeme = .symbol sign.symbol := by
  obtain ⟨lexeme, position⟩ := t
  cases sign <;> cases lexeme with
  | symbol s => cases s <;> simp [sign?, Sign.symbol]
  | _ => simp [sign?, Sign.symbol]

theorem readOperand_eq_error {s : Surroundings} (notSign : sign? t = none)
    (notNumber : ∀ text, t.lexeme ≠ .number text) (notString : ∀ text, t.lexeme ≠ .string text)
    (notGroup : t.lexeme ≠ .symbol .leftParen) (notName : ∀ name, t.lexeme ≠ .identifier name) :
    s.readOperand t = .error ⟨.unexpectedToken "expression" t.kind t.position, s.opened⟩ := by
  obtain ⟨lexeme, position⟩ := t
  cases lexeme with
  | endOfInput => rfl
  | number text => exact (notNumber text rfl).elim
  | string text => exact (notString text rfl).elim
  | identifier name => exact (notName name rfl).elim
  | symbol s =>
    cases s with
    | plus | minus => cases notSign
    | leftParen => exact (notGroup rfl).elim
    | _ => rfl

theorem readClosing_nil (t : Token) : readClosing e [] opened t =
    .error ⟨.unexpectedToken "end of input" t.kind t.position, opened⟩ :=
  rfl

theorem readClosing_group (other : t.lexeme ≠ .symbol .rightParen) :
    readClosing e (.group :: stack) opened t =
      .error ⟨.unexpectedToken "')'" t.kind t.position, opened⟩ := by
  obtain ⟨lexeme, place⟩ := t
  cases lexeme with
  | symbol s =>
    cases s with
    | rightParen => exact (other rfl).elim
    | _ => rfl
  | _ => rfl

theorem readClosing_call {name : String} {position : Nat} {done : List Expr}
    (notClosing : t.lexeme ≠ .symbol .rightParen)
    (notSeparator : t.lexeme ≠ .symbol .semicolon) :
    readClosing e (.call name position done :: stack) opened t =
      .error ⟨.unexpectedToken "';' or ')'" t.kind t.position, opened⟩ := by
  obtain ⟨lexeme, place⟩ := t
  cases lexeme with
  | symbol s =>
    cases s with
    | rightParen => exact (notClosing rfl).elim
    | semicolon => exact (notSeparator rfl).elim
    | _ => rfl
  | _ => rfl

/-! ## One function after another

The induction is on how deep functions may still call each other. A function that calls another one
before it has taken a token must be allowed one call more than that one, and each token that is
taken makes room for nine. -/

mutual

/-- An expression leaves the level that it has opened. -/
theorem expression_follows : ∀ (fuel : Nat) {c : Cursor} {ts : List Token} {opened : Nat}
    {stack : List Frame}, d.Stands ending c ts opened → 9 * ts.length + 9 ≤ fuel →
    opened + 1 + ts.length ≤ d.ceiling → Loose 0 stack →
    Progress.run d.bounds ending ⟨.level, ⟨stack, opened⟩⟩ ts = whole →
    Follows d ending whole (d.expression fuel) c ts opened fun e left =>
      Progress.run d.bounds ending ⟨.complete e, ⟨stack, opened + 1⟩⟩ left = whole ∧
        Settled 0 (upcoming ending left)
  | 0, _, _, _, _, _, enough, _, _, _ => absurd enough (by omega)
  | fuel + 1, c, ts, opened, stack, stands, enough, room, loose, here => by
    rw [expression]
    refine .of_openLevel stands (by omega) here fun c₁ stands₁ here₁ => ?_
    refine .bind (operation_follows fuel 0 stands₁ (by omega) (by omega) (Nat.zero_le 5)
      (fun _ => loose) here₁) fun e c₂ left stands₂ shorter h => ?_
    refine .of_closeLevel stands₂ fun c₃ stands₃ => ?_
    rw [withOperand_of_loose loose] at h
    exact .pure stands₃ h
termination_by structural fuel => fuel

/-- Operators of tightness `n` end at a token that is none of tightness `n` or more. -/
theorem operation_follows : ∀ (fuel n : Nat) {c : Cursor} {ts : List Token} {opened : Nat}
    {stack : List Frame}, d.Stands ending c ts opened → 9 * ts.length + 8 - n ≤ fuel →
    opened + ts.length ≤ d.ceiling → n ≤ 5 → (n < 5 → Loose n stack) →
    Progress.run d.bounds ending ⟨.operand, ⟨stack, opened⟩⟩ ts = whole →
    Follows d ending whole (d.operation fuel n) c ts opened fun e left =>
      Progress.run d.bounds ending (withOperand ⟨stack, opened⟩ e) left = whole ∧
        Settled n (upcoming ending left)
  | 0, n, _, _, _, _, _, enough, _, five, _, _ => absurd enough (by omega)
  | fuel + 1, n, c, ts, opened, stack, stands, enough, room, five, loose, here => by
    rw [operation]
    by_cases binary : n < 5
    · have loose := loose binary
      rw [if_pos binary]
      refine .bind (operation_follows fuel (n + 1) stands (by omega) room binary
        (fun _ => loose.mono (Nat.le_succ n)) here) fun first c₁ left stands₁ shorter h => ?_
      rw [withOperand_of_loose loose] at h
      simp only [withOperand_of_loose loose]
      exact repetition_follows fuel n first stands₁ (by omega) (by omega) binary loose h.1 h.2
    · obtain rfl : n = 5 := by omega
      rw [if_neg binary]
      refine (signed_follows fuel stands (by omega) room here).mono fun e left h => ?_
      exact ⟨h, settled_five _⟩
termination_by structural fuel => fuel

/-- After all further operators of tightness `n` no operator of that tightness follows. -/
theorem repetition_follows : ∀ (fuel n : Nat) (e : Expr) {c : Cursor} {ts : List Token}
    {opened : Nat} {stack : List Frame}, d.Stands ending c ts opened → 9 * ts.length + 1 ≤ fuel →
    opened + ts.length ≤ d.ceiling → n < 5 → Loose n stack →
    Progress.run d.bounds ending ⟨.complete e, ⟨stack, opened⟩⟩ ts = whole →
    Settled (n + 1) (upcoming ending ts) →
    Follows d ending whole (d.repetition fuel n e) c ts opened fun e left =>
      Progress.run d.bounds ending ⟨.complete e, ⟨stack, opened⟩⟩ left = whole ∧
        Settled n (upcoming ending left)
  | 0, _, _, _, _, _, _, _, enough, _, _, _, _, _ => absurd enough (by omega)
  | fuel + 1, n, e, c, ts, opened, stack, stands, enough, room, binary, loose, here, settled => by
    rw [repetition]
    refine .of_lookahead stands ?_
    cases found : operatorOf? n (upcoming ending ts) with
    | none => exact .pure stands ⟨here, settled_of_operatorOf? found settled⟩
    | some op =>
      obtain ⟨hlexeme, rfl⟩ := operatorOf?_eq_some_iff.mp found
      obtain ⟨place, us, rfl⟩ := exists_eq_cons hlexeme (by simp)
      rw [List.length_cons] at enough room
      have held : Progress.Holds op.tightness ⟨.complete e, ⟨stack, opened⟩⟩ e ⟨stack, opened⟩ :=
        ⟨e, _, rfl, rfl, reduce_of_loose loose e⟩
      rw [Progress.run_of_step (by simp) (held.step_operator d.bounds place)] at here
      refine .of_take stands fun c₁ stands₁ => ?_
      refine .bind (operation_follows fuel (op.tightness + 1) stands₁ (by omega) (by omega) binary
        (fun _ => Nat.lt_succ_self _) here) fun right c₂ left stands₂ shorter h => ?_
      -- No operator that binds more tightly follows: for the parser `op` is complete here as well.
      have here : Progress.run d.bounds ending
        ⟨.complete right, ⟨.operation e op place :: stack, opened⟩⟩ left = whole := h.1
      rw [Progress.run_operation h.2] at here
      exact repetition_follows fuel op.tightness _ stands₂ (by omega) (by omega) binary loose here
        h.2
termination_by structural fuel => fuel

/-- Each sign before an operand leaves the level that it has opened. -/
theorem signed_follows : ∀ (fuel : Nat) {c : Cursor} {ts : List Token} {opened : Nat}
    {stack : List Frame}, d.Stands ending c ts opened → 9 * ts.length + 2 ≤ fuel →
    opened + ts.length ≤ d.ceiling →
    Progress.run d.bounds ending ⟨.operand, ⟨stack, opened⟩⟩ ts = whole →
    Follows d ending whole (d.signed fuel) c ts opened fun e left =>
      Progress.run d.bounds ending (withOperand ⟨stack, opened⟩ e) left = whole
  | 0, _, _, _, _, _, enough, _, _ => absurd enough (by omega)
  | fuel + 1, c, ts, opened, stack, stands, enough, room, here => by
    rw [signed]
    refine .of_lookahead stands ?_
    cases found : sign? (upcoming ending ts) with
    | none => exact operand_follows fuel stands (by omega) room found here
    | some sign =>
      obtain ⟨place, us, rfl⟩ := exists_eq_cons (sign?_eq_some_iff.mp found) (by simp)
      rw [List.length_cons] at enough room
      have step : Progress.step d.bounds ⟨.operand, ⟨stack, opened⟩⟩ ⟨.symbol sign.symbol, place⟩ =
          .ok ⟨.level, ⟨.sign sign place :: stack, opened⟩⟩ := by
        cases sign <;> rfl
      rw [Progress.run_of_step (by simp) step] at here
      refine .of_take stands fun c₁ stands₁ => ?_
      refine .of_openLevel stands₁ (by omega) here fun c₂ stands₂ here₂ => ?_
      refine .bind (signed_follows fuel stands₂ (by omega) (by omega) here₂)
        fun e c₃ left stands₃ shorter h => ?_
      refine .of_closeLevel stands₃ fun c₄ stands₄ => ?_
      exact .pure stands₄ h
termination_by structural fuel => fuel

/-- An operand is left at the level at which it began. -/
theorem operand_follows : ∀ (fuel : Nat) {c : Cursor} {ts : List Token} {opened : Nat}
    {stack : List Frame}, d.Stands ending c ts opened → 9 * ts.length + 1 ≤ fuel →
    opened + ts.length ≤ d.ceiling → sign? (upcoming ending ts) = none →
    Progress.run d.bounds ending ⟨.operand, ⟨stack, opened⟩⟩ ts = whole →
    Follows d ending whole (d.operand fuel) c ts opened fun e left =>
      Progress.run d.bounds ending (withOperand ⟨stack, opened⟩ e) left = whole
  | 0, _, _, _, _, _, enough, _, _, _ => absurd enough (by omega)
  | fuel + 1, c, ts, opened, stack, stands, enough, room, notSign, here => by
    rw [operand]
    refine .of_lookahead stands ?_
    split
    · next text hlexeme =>
      obtain ⟨place, us, rfl⟩ := exists_eq_cons hlexeme (by simp)
      rw [Progress.run_of_step (by simp) rfl] at here
      exact .of_take stands fun c₁ stands₁ => .pure stands₁ here
    · next text hlexeme =>
      obtain ⟨place, us, rfl⟩ := exists_eq_cons hlexeme (by simp)
      rw [Progress.run_of_step (by simp) rfl] at here
      exact .of_take stands fun c₁ stands₁ => .pure stands₁ here
    · next hlexeme =>
      obtain ⟨place, us, rfl⟩ := exists_eq_cons hlexeme (by simp)
      rw [List.length_cons] at enough room
      rw [Progress.run_of_step (q := ⟨.level, ⟨.group :: stack, opened⟩⟩) (by simp) rfl] at here
      refine .of_take stands fun c₁ stands₁ => ?_
      have loose : Loose 0 (.group :: stack) := trivial
      refine .bind (expression_follows fuel stands₁ (by omega) (by omega) loose here)
        fun e c₂ left stands₂ shorter h => ?_
      obtain ⟨here, settled⟩ := h
      refine .of_expect stands₂ (fun notClosing => ?_) fun closing c₃ stands₃ => ?_
      · rw [Progress.run_complete_of_error loose settled (readClosing_group notClosing)
          (by simp)] at here
        exact here.symm
      · obtain ⟨place, us, rfl⟩ := exists_eq_cons closing (by simp)
        rw [Progress.run_complete loose settled (by simp) rfl] at here
        exact .pure stands₃ here
    · next name hlexeme =>
      obtain ⟨place, us, rfl⟩ := exists_eq_cons hlexeme (by simp)
      rw [List.length_cons] at enough room
      rw [Progress.run_of_step (q := ⟨.name name place, ⟨stack, opened⟩⟩) (by simp) rfl] at here
      refine .of_run (run_peek? stands) (Nat.le_refl _) ?_
      split
      · next hcall =>
        obtain ⟨opening, us', rfl⟩ := exists_eq_cons (Option.some.inj hcall) (by simp)
        rw [List.length_cons] at enough room
        rw [Progress.run_of_step (q := ⟨.arguments name place, ⟨stack, opened⟩⟩) (by simp) rfl]
          at here
        refine .of_take stands fun c₁ stands₁ => .of_take stands₁ fun c₂ stands₂ => ?_
        refine .bind (arguments_follows fuel stands₂ (by omega) (by omega) here)
          fun args c₃ left stands₃ shorter h => ?_
        exact .pure stands₃ h
      · next notCall =>
        have notCall : (upcoming ending us).lexeme ≠ .symbol .leftParen := fun h =>
          notCall (congrArg some h)
        rw [Progress.run_name notCall] at here
        exact .of_take stands fun c₁ stands₁ => .pure stands₁ here
    · next notNumber notString notGroup notName =>
      rw [Progress.run_operand_of_error
        (readOperand_eq_error notSign notNumber notString notGroup notName)] at here
      exact .refuse stands here.symm
termination_by structural fuel => fuel

/-- The arguments of a call end at its closing parenthesis. -/
theorem arguments_follows : ∀ (fuel : Nat) {name : String} {position : Nat} {c : Cursor}
    {ts : List Token} {opened : Nat} {stack : List Frame}, d.Stands ending c ts opened →
    9 * ts.length + 11 ≤ fuel → opened + 1 + ts.length ≤ d.ceiling →
    Progress.run d.bounds ending ⟨.arguments name position, ⟨stack, opened⟩⟩ ts = whole →
    Follows d ending whole (d.arguments fuel) c ts opened fun args left =>
      Progress.run d.bounds ending (withOperand ⟨stack, opened⟩ (.call name args position)) left =
        whole
  | 0, _, _, _, _, _, _, _, enough, _, _ => absurd enough (by omega)
  | fuel + 1, name, position, c, ts, opened, stack, stands, enough, room, here => by
    rw [arguments]
    refine .of_lookahead stands ?_
    split
    · next closing =>
      obtain ⟨place, us, rfl⟩ := exists_eq_cons closing (by simp)
      rw [Progress.run_of_step (by simp) rfl] at here
      exact .of_take stands fun c₁ stands₁ => .pure stands₁ here
    · next notClosing =>
      rw [Progress.run_arguments notClosing] at here
      exact furtherArguments_follows fuel [] stands (by omega) room here
termination_by structural fuel => fuel

/-- An argument and all after it end at the closing parenthesis of the call. -/
theorem furtherArguments_follows : ∀ (fuel : Nat) (done : List Expr) {name : String}
    {position : Nat} {c : Cursor} {ts : List Token} {opened : Nat} {stack : List Frame},
    d.Stands ending c ts opened → 9 * ts.length + 10 ≤ fuel → opened + 1 + ts.length ≤ d.ceiling →
    Progress.run d.bounds ending ⟨.level, ⟨.call name position done :: stack, opened⟩⟩ ts = whole →
    Follows d ending whole (d.furtherArguments fuel done) c ts opened fun args left =>
      Progress.run d.bounds ending (withOperand ⟨stack, opened⟩ (.call name args position)) left =
        whole
  | 0, _, _, _, _, _, _, _, _, enough, _, _ => absurd enough (by omega)
  | fuel + 1, done, name, position, c, ts, opened, stack, stands, enough, room, here => by
    rw [furtherArguments]
    have loose : Loose 0 (.call name position done :: stack) := trivial
    refine .bind (expression_follows fuel stands (by omega) room loose here)
      fun e c₁ left stands₁ shorter h => ?_
    obtain ⟨here, settled⟩ := h
    refine .of_lookahead stands₁ ?_
    split
    · next separator =>
      obtain ⟨place, us, rfl⟩ := exists_eq_cons separator (by simp)
      rw [List.length_cons] at shorter
      rw [Progress.run_complete loose settled (by simp) rfl] at here
      refine .of_take stands₁ fun c₂ stands₂ => ?_
      exact furtherArguments_follows fuel (e :: done) stands₂ (by omega) (by omega) here
    · next closing =>
      obtain ⟨place, us, rfl⟩ := exists_eq_cons closing (by simp)
      rw [Progress.run_complete loose settled (by simp) rfl] at here
      exact .of_take stands₁ fun c₂ stands₂ => .pure stands₂ here
    · next notSeparator notClosing =>
      rw [Progress.run_complete_of_error loose settled (readClosing_call notClosing notSeparator)
        (by simp)] at here
      exact .refuse stands₁ here.symm
termination_by structural fuel => fuel

end

/-- An expression and the end of the input. -/
theorem formula_follows {fuel : Nat} (stands : d.Stands ending c ts opened)
    (enough : 9 * ts.length + 9 ≤ fuel) (room : opened + 1 + ts.length ≤ d.ceiling)
    (here : Progress.run d.bounds ending ⟨.level, ⟨[], opened⟩⟩ ts = whole) :
    Follows d ending whole (d.formula fuel) c ts opened fun e left => whole = (.ok e, left) := by
  have loose : Loose 0 [] := trivial
  refine .bind (expression_follows fuel stands enough room loose here)
    fun e c₁ left stands₁ shorter h => ?_
  obtain ⟨here, settled⟩ := h
  refine .of_expect stands₁ (fun inside => ?_) fun ends c₂ stands₂ => ?_
  · rw [Progress.run_complete_of_error loose settled (readClosing_nil _) fun _ => inside] at here
    exact here.symm
  · rw [Progress.run_complete_of_ends ends] at here
    exact .pure stands₂ here.symm

end Descent

/-! ## One call after another -/

theorem LeavesOpen.le_length {room m : Nat} {seen : List Token} (h : LeavesOpen room seen m) :
    m ≤ seen.length + 1 := by
  cases h with
  | operand pending => exact pending.opened_le
  | expression ends =>
    obtain ⟨before, d, pending, -, rfl, -, -⟩ := ends
    have := pending.opened_le
    dsimp only at this
    rw [List.length_append]
    omega

theorem length_closed_le (tokens : List Token) : (closed tokens).length ≤ tokens.length + 1 := by
  unfold closed
  split
  · simp
  · split
    · exact Nat.le_succ _
    · simp

/-- The end of the input that closes the tokens is one place after the last of them, unless it is
one of them. -/
theorem exists_closed_eq {tokens : List Token} {largest : Nat} (one : 1 ≤ largest)
    (small : ∀ t ∈ tokens, t.position < largest) :
    ∃ inner place, closed tokens = inner ++ [.ending place] ∧ place ≤ largest := by
  unfold closed
  split
  · exact ⟨[], 1, rfl, one⟩
  · next t last =>
    have below := small t (List.mem_of_getLast? last)
    split
    · next ends =>
      obtain ⟨inner, rfl⟩ := List.getLast?_eq_some_iff.mp last
      obtain ⟨lexeme, position⟩ := t
      obtain rfl : lexeme = .endOfInput := ends
      exact ⟨inner, position, rfl, Nat.le_of_lt below⟩
    · exact ⟨tokens, t.position + 1, rfl, below⟩

/-- The cursor where a parser of the tokens is. -/
def cursor (tokens : List Token) (p : Parser) : Cursor :=
  ⟨p.index tokens, p.depth⟩

theorem cursor_ofTokens (tokens : List Token) (limit : Nat) :
    (ofTokens tokens limit).cursor tokens = ⟨0, 0⟩ := by
  have start : (ofTokens tokens limit).depth = 0 := by
    unfold ofTokens
    split
    · rfl
    · split <;> rfl
  rw [cursor, index, remaining_ofTokens, Nat.sub_self, start]

/-- A cursor before the tokens that a parser has left is where the parser is. -/
theorem Descent.Stands.eq_cursor {d : Descent} {tokens : List Token} {c : Cursor} {p : Parser}
    (all : d.tokens = closed tokens) (h : d.Stands p.ending c p.rest p.depth) :
    c = p.cursor tokens := by
  obtain ⟨index, depth⟩ := c
  have place := h.index_add_length
  rw [all] at place
  have moved : index = p.index tokens := by
    simp only [Parser.index, remaining, List.length_append, List.length_singleton]
    exact Nat.eq_sub_of_add_eq place
  rw [cursor, moved, ← h.depth_eq]

/-- A descent from the place of a parser has no fault and comes to what the parser comes to. -/
theorem Within.run_formula {tokens : List Token} {limit fuel ceiling : Nat} {p : Parser}
    (h : p.Within tokens limit) (enough : 9 * (closed tokens).length ≤ fuel)
    (room : p.depth + tokens.length + 1 ≤ ceiling) :
    ((Descent.mk (closed tokens) limit ceiling).formula fuel).run (p.cursor tokens) =
      .ok (p.parse.1, p.parse.2.cursor tokens) := by
  obtain rfl := h.limit_eq
  let d : Descent := ⟨closed tokens, p.limit, ceiling⟩
  have stands : d.Stands p.ending (p.cursor tokens) p.rest p.depth :=
    ⟨h.remaining_eq_drop.symm, rfl⟩
  have short := h.remaining_suffix.length_le
  have := length_closed_le tokens
  simp only [remaining, List.length_append, List.length_singleton] at short
  have below : p.depth + 1 + p.rest.length ≤ d.ceiling := show _ ≤ ceiling by omega
  have enough : 9 * p.rest.length + 9 ≤ fuel := by omega
  obtain ⟨outcome, after, left, hrun, follows⟩ :=
    Descent.formula_follows stands enough below rfl
  -- A descent counts on from the levels left open, so the parser is taken in the form that does.
  rw [hrun, ← p.parseCountingOn_eq_resume.trans p.parse_eq_resume.symm, parseCountingOn]
  cases outcome with
  | ok e =>
    obtain ⟨stands', -, whole⟩ := follows
    have whole : Progress.run ⟨p.limit, p.limit⟩ p.ending ⟨.level, ⟨[], p.depth⟩⟩ p.rest =
      (.ok e, left) := whole
    have place := Descent.Stands.eq_cursor (p := { p with rest := left }) rfl stands'
    rw [whole, place]
  | error e =>
    obtain ⟨stands', whole⟩ := follows
    have whole : Progress.run ⟨p.limit, p.limit⟩ p.ending ⟨.level, ⟨[], p.depth⟩⟩ p.rest =
      (.error ⟨e, after.depth⟩, left) := whole
    have place := Descent.Stands.eq_cursor (p := { p with rest := left, depth := after.depth })
      rfl stands'
    rw [whole]
    exact congrArg (fun c => Except.ok (Except.error e, c)) place

/-- A descent that is asked for one expression after another does what a parser does. -/
theorem descendInTurn_eq (tokens : List Token) (limit : Nat) : ∀ calls,
    descendInTurn tokens limit calls =
      .ok ((List.range calls).map fun i => ((ofTokens tokens limit).afterCalls i).parse.1,
        ((ofTokens tokens limit).afterCalls calls).cursor tokens)
  | 0 => by
    rw [descendInTurn, afterCalls, cursor_ofTokens]
    rfl
  | calls + 1 => by
    have within := (ofTokens_within tokens limit).afterCalls calls
    rw [descendInTurn, descendInTurn_eq tokens limit calls, List.range_succ, List.map_append,
      List.map_singleton, afterCalls]
    generalize (ofTokens tokens limit).afterCalls calls = p at within ⊢
    have called := within.run_formula (Nat.le_refl _) (Nat.le_refl _)
    change (((Descent.mk (closed tokens) limit (p.depth + tokens.length + 1)).formula
      (9 * (closed tokens).length)).run (p.cursor tokens) >>= fun result =>
        pure (_ ++ [result.1], result.2)) = _
    rw [called]
    rfl

/-- Whatever the tokens are, the list that a parser reads is not empty and ends in an end of the
input, whose place is no larger than any place may be. After any number of calls the parser is
before one of these tokens. A descent through them that checks every step does without a fault what
the calls do, expression or error, and is then at the same token with as many levels open. Wherever
a call has led the parser, all levels that it has still to leave are open, and they are at most one
more than the tokens it has read. -/
theorem descendInTurn_afterCalls (tokens : List Token) (limit calls : Nat) {largest : Nat}
    (one : 1 ≤ largest) (small : ∀ t ∈ tokens, t.position < largest) {p : Parser}
    (reached : (ofTokens tokens limit).afterCalls calls = p) :
    (∃ inner place, closed tokens = inner ++ [.ending place] ∧ place ≤ largest) ∧
      p.remaining = (closed tokens).drop (p.index tokens) ∧
      p.index tokens < (closed tokens).length ∧
      descendInTurn tokens limit calls =
        .ok ((List.range calls).map fun i => ((ofTokens tokens limit).afterCalls i).parse.1,
          ⟨p.index tokens, p.depth⟩) ∧
      ∀ seen q, Reads ⟨p.limit - p.depth, p.limit⟩ .start seen q →
        q.CountsLevels ∧ q.leftOpen ≤ seen.length + 1 := by
  have within : p.Within tokens limit := reached ▸ (ofTokens_within tokens limit).afterCalls calls
  refine ⟨exists_closed_eq one small, within.remaining_eq_drop, within.index_lt, ?_, ?_⟩
  · rw [descendInTurn_eq, reached]
    rfl
  · intro seen q read
    have atStart : Describes (p.limit - p.depth) .start [] := .start
    have described : Describes (p.limit - p.depth) q ([] ++ seen) := atStart.reads read
    exact ⟨described.countsLevels, described.leavesOpen.le_length⟩

/-- The first call reads the number and the end of the input after it. The other two begin in the
middle of an expression and fail, and leave one level and two more open. -/
theorem descendInTurn_numberThenGroups :
    (ofTokens numberThenGroups 2).afterCalls 3 = ⟨[⟨.number "2", 6⟩], 7, 3, 2⟩ ∧
      (∃ inner place, closed numberThenGroups = inner ++ [.ending place] ∧ place ≤ 7) ∧
      descendInTurn numberThenGroups 2 3 =
        .ok ([.ok (.number "1" 1), .error (.unexpectedToken "')'" (.symbol .leftParen) 5),
          .error (.nestingTooDeep 2 6)], ⟨5, 3⟩) := by
  have reached : (ofTokens numberThenGroups 2).afterCalls 3 = ⟨[⟨.number "2", 6⟩], 7, 3, 2⟩ := by
    decide
  have small : ∀ t ∈ numberThenGroups, t.position < 7 := by
    simp [numberThenGroups, Token.ending]
  obtain ⟨ends, -, -, run, -⟩ :=
    descendInTurn_afterCalls numberThenGroups 2 3 (by decide) small reached
  exact ⟨reached, ends, run⟩

/-- Tokens that do not end in an end of the input can bring a descent to a standstill. -/
example : ((Descent.mk [⟨.number "1", 1⟩, ⟨.symbol .plus, 2⟩] 5 9).formula 40).run ⟨0, 0⟩ =
    .error .standstill :=
  rfl

end SheetFormula.Parser
