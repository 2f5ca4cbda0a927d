import SheetFormula.Proofs.Parser.Acceptance
import SheetFormula.Proofs.Parser.Refusal

/-!
# Errors at the earliest token

A token is refused only if no formula begins with it after the tokens before it, and those can be
completed to a formula: the parser finds an error at the first token where there is one
(`ofTokens_unexpectedToken_earliest`).

What the parser has read can always be completed: an operand where one is missing, and then the
closing parenthesis of each construct that is open, the innermost first
(`Describes.exists_completion`). This is by induction on what is pending, from the inside outwards:
given an operand where it can stand, a sign or an operator takes it and a parenthesis or a call is
closed behind it, which leaves an operand for the construct further out
(`Pending.exists_completion`). The completion needs no more levels than were open, and there are
never more of these than tokens, and one (`Pending.opened_le`).

That no formula begins with the refused token is the other half. Where it is refused, it is refused
whatever comes after it (`Progress.run_of_refuses`) and with any room for levels
(`Progress.run_eq_error_of_room_le`), so no list that begins in this way is accepted under any
limit (`ofTokens_ne_ok_of_refuses`).
-/

namespace SheetFormula

mutual

/-- No token of what is derived is the end of the input. -/
theorem Derivation.lexeme_ne_endOfInput : ∀ {n : Nat} (d : Derivation n), ∀ t ∈ d.tokens,
    t.lexeme ≠ .endOfInput
  | _, .chain _ first rest, t, mem => by
    rw [Derivation.tokens, List.mem_append] at mem
    rcases mem with mem | mem
    · exact first.lexeme_ne_endOfInput t mem
    · exact rest.lexeme_ne_endOfInput t mem
  | _, .unsigned operand, t, mem => operand.lexeme_ne_endOfInput t mem
  | _, .signed sign position operand, t, mem => by
    rw [Derivation.tokens, List.mem_cons] at mem
    rcases mem with rfl | mem
    · simp
    · exact operand.lexeme_ne_endOfInput t mem
  | _, .number .., t, mem | _, .string .., t, mem | _, .reference .., t, mem
  | _, .emptyCall .., t, mem => by
    simp only [Derivation.tokens, List.mem_cons, List.not_mem_nil, or_false] at mem
    rcases mem with rfl | rfl | rfl <;> simp
  | _, .group opening inner closing, t, mem => by
    simp only [Derivation.tokens, List.mem_cons, List.mem_append, List.not_mem_nil, or_false] at mem
    rcases mem with rfl | mem | rfl
    · simp
    · exact inner.lexeme_ne_endOfInput t mem
    · simp
  | _, .call name position opening arguments closing, t, mem => by
    simp only [Derivation.tokens, List.mem_cons, List.mem_append, List.not_mem_nil, or_false] at mem
    rcases mem with rfl | rfl | mem | rfl
    · simp
    · simp
    · exact arguments.lexeme_ne_endOfInput t mem
    · simp

theorem Repetition.lexeme_ne_endOfInput : ∀ {n : Nat} (s : Repetition n), ∀ t ∈ s.tokens,
    t.lexeme ≠ .endOfInput
  | _, .nil, t, mem => by
    rw [Repetition.tokens] at mem
    exact absurd mem List.not_mem_nil
  | _, .cons op tight position operand rest, t, mem => by
    rw [Repetition.tokens, List.mem_cons, List.mem_append] at mem
    rcases mem with rfl | mem | mem
    · simp
    · exact operand.lexeme_ne_endOfInput t mem
    · exact rest.lexeme_ne_endOfInput t mem

theorem ArgumentList.lexeme_ne_endOfInput : ∀ (l : ArgumentList), ∀ t ∈ l.tokens,
    t.lexeme ≠ .endOfInput
  | .single argument, t, mem => argument.lexeme_ne_endOfInput t mem
  | .cons argument separator rest, t, mem => by
    rw [ArgumentList.tokens, List.mem_append, List.mem_cons] at mem
    rcases mem with mem | rfl | mem
    · exact argument.lexeme_ne_endOfInput t mem
    · simp
    · exact rest.lexeme_ne_endOfInput t mem

end

namespace Parser

open Surroundings

variable {bounds : Bounds} {room opened limit : Nat} {stack : List Frame} {ts : List Token}

/-! ## Completing what is pending -/

/-- Each level but the first takes a token to open. -/
theorem Pending.opened_le (h : Pending room stack opened ts) : opened ≤ ts.length + 1 := by
  induction h with
  | start => exact Nat.le_refl 1
  | sign before sign position ih | group before opening ih =>
    simp only [List.length_append, List.length_singleton]
    omega
  | operation before op loose left within position ih
  | call before name position opening ih | argument before d within separator ih =>
    simp only [List.length_append, List.length_cons, List.length_nil]
    omega

/-- With an operand where it can stand, what is pending can be completed: signs and operators take
the operand, and then each parenthesis and each call is closed. -/
theorem Pending.exists_completion : ∀ {stack : List Frame} {opened : Nat} {ts : List Token},
    Pending room stack opened ts → ∀ {k : Nat} (d : Derivation k), k ≤ 5 →
      (k < 5 → Loose k stack) → opened + d.depth ≤ room →
      ∃ (more : List Token) (whole : Derivation 0),
        whole.tokens = ts ++ d.tokens ++ more ∧ whole.nesting ≤ room
  | [], opened, ts, h, k, d, five, loose, within => by
    obtain ⟨rfl, rfl⟩ := h.of_nil
    obtain ⟨whole, htokens, -, hdepth⟩ := d.exists_looser (Nat.zero_le k) five
    refine ⟨[], whole, by simp [htokens], ?_⟩
    rw [Derivation.nesting, hdepth]
    omega
  | .sign mark place :: stack, opened, ts, h, k, d, five, loose, within => by
    obtain rfl : k = 5 := (Nat.lt_or_eq_of_le five).resolve_left loose
    cases h with
    | sign before =>
      obtain ⟨more, whole, htokens, hnesting⟩ := before.exists_completion
        (.signed mark place d) five (by omega) (by rw [Derivation.depth]; omega)
      exact ⟨more, whole, by simpa [Derivation.tokens] using htokens, hnesting⟩
  | .operation _ op position :: stack, opened, ts, h, k, d, five, loose, within => by
    cases h with
    | operation before _ loose' left within' =>
      have tighter : op.tightness + 1 ≤ k := by
        by_cases same : k = 5
        · exact same ▸ op.tightness_lt
        · exact loose (by omega)
      obtain ⟨d', htokens, -, hdepth⟩ := d.exists_looser tighter five
      obtain ⟨operation, htokens', -, hdepth'⟩ := left.exists_extend op rfl position d'
      obtain ⟨more, whole, hwhole, hnesting⟩ := before.exists_completion operation
        (Nat.le_of_lt op.tightness_lt) (fun _ => loose') (by omega)
      exact ⟨more, whole, by simpa [htokens, htokens'] using hwhole, hnesting⟩
  | .group :: stack, opened, ts, h, k, d, five, loose, within => by
    obtain ⟨inner, htokens, -, hdepth⟩ := d.exists_looser (Nat.zero_le k) five
    cases h with
    | group before opening =>
      obtain ⟨more, whole, hwhole, hnesting⟩ := before.exists_completion
        (.unsigned (.group opening inner 0)) (Nat.le_refl 5) (by omega)
        (by simp only [Derivation.depth]; omega)
      refine ⟨⟨.symbol .rightParen, 0⟩ :: more, whole, ?_, hnesting⟩
      simpa [Derivation.tokens, htokens] using hwhole
  | .call name position done :: stack, opened, ts, h, k, d, five, loose, within => by
    obtain ⟨last, htokens, -, hdepth⟩ := d.exists_looser (Nat.zero_le k) five
    obtain ⟨outside, opening, outer, l, before, rfl, hl, -, hldepth⟩ :=
      h.exists_arguments (.single last) (by simp only [ArgumentList.depth]; omega)
    obtain ⟨more, whole, hwhole, hnesting⟩ := before.exists_completion
      (.unsigned (.call name position opening l 0)) (Nat.le_refl 5) (by omega)
      (by simp only [Derivation.depth]; omega)
    refine ⟨⟨.symbol .rightParen, 0⟩ :: more, whole, ?_, hnesting⟩
    simp only [ArgumentList.tokens] at hl
    rw [hwhole, ← htokens, hl]
    simp [Derivation.tokens]

/-- Whatever has been read is the beginning of a formula. -/
theorem Describes.exists_completion {p : Progress} (h : Describes room p ts)
    (long : ts.length < room) : ∃ (more : List Token) (whole : Derivation 0),
      whole.tokens = ts ++ more ∧ whole.nesting ≤ room := by
  obtain ⟨phase, stack, opened⟩ := p
  cases phase with
  | level =>
    have h : Pending room stack (opened + 1) ts := h
    have := h.opened_le
    obtain ⟨more, whole, htokens, hnesting⟩ := h.exists_completion (.unsigned (.number "0" 0))
      (Nat.le_refl 5) (by omega) (by simp only [Derivation.depth]; omega)
    exact ⟨_, whole, by rw [htokens, List.append_assoc], hnesting⟩
  | operand =>
    obtain ⟨more, whole, htokens, hnesting⟩ := h.2.exists_completion (.unsigned (.number "0" 0))
      (Nat.le_refl 5) (by omega) h.1
    exact ⟨_, whole, by rw [htokens, List.append_assoc], hnesting⟩
  | name name position =>
    obtain ⟨within, before, pending, rfl⟩ := h
    obtain ⟨more, whole, htokens, hnesting⟩ := pending.exists_completion
      (.unsigned (.reference name position)) (Nat.le_refl 5) (by omega) within
    exact ⟨more, whole, htokens, hnesting⟩
  | arguments name position =>
    obtain ⟨within, before, opening, pending, rfl⟩ := h
    obtain ⟨more, whole, htokens, hnesting⟩ := pending.exists_completion
      (.unsigned (.emptyCall name position opening 0)) (Nat.le_refl 5) (by omega) within
    refine ⟨⟨.symbol .rightParen, 0⟩ :: more, whole, ?_, hnesting⟩
    simpa [Derivation.tokens] using htokens
  | complete e =>
    obtain ⟨before, d, pending, loose, rfl, -, within⟩ := h
    obtain ⟨more, whole, htokens, hnesting⟩ := pending.exists_completion d (Nat.le_refl 5)
      (by omega) within
    exact ⟨more, whole, htokens, hnesting⟩

/-! ## Parsing a list of tokens -/

/-- An end of the input after all tokens is as good as one among them. -/
theorem Progress.run_concat_endOfInput (ending position : Nat) : ∀ (ts : List Token) (p : Progress),
    (p.run bounds ending (ts ++ [⟨.endOfInput, position⟩])).1 = (p.run bounds position ts).1
  | [], p => by
    rw [List.nil_append, run, run, if_pos rfl]
    cases p.finish bounds position <;> rfl
  | t :: ts, p => by
    rw [List.cons_append, run, run]
    split
    · cases p.finish bounds t.position <;> rfl
    · cases p.step bounds t with
      | ok q => exact run_concat_endOfInput ending position ts q
      | error refusal => rfl

/-- A parser that gives an expression has read it. -/
theorem run_of_parse_eq_ok {p : Parser} {e : Expr} (h : p.parse.1 = .ok e) :
    (Progress.start.run ⟨p.limit - p.depth, p.limit⟩ p.ending p.rest).1 = .ok e := by
  unfold parse at h
  dsimp only at h
  split at h
  · next hrun =>
    obtain rfl := Except.ok.inj h
    rw [hrun]
  · cases h

/-- The expression that tokens form is read from them and an end of the input, if they lack one. -/
theorem exists_run_of_ofTokens_eq_ok {tokens : List Token} {e : Expr}
    (h : Expr.ofTokens tokens limit = .ok e) (ending : Nat) :
    ∃ after, (Progress.start.run ⟨limit, limit⟩ ending (tokens ++ after)).1 = .ok e := by
  have hrun := run_of_parse_eq_ok h
  cases hlast : tokens.getLast? with
  | none =>
    obtain rfl := List.getLast?_eq_none_iff.mp hlast
    refine ⟨[⟨.endOfInput, 1⟩], ?_⟩
    rw [Progress.run_concat_endOfInput]
    exact hrun
  | some t =>
    simp only [ofTokens, hlast] at hrun
    split at hrun
    · next closed =>
      refine ⟨[], ?_⟩
      obtain ⟨lexeme, position⟩ := t
      obtain rfl : lexeme = .endOfInput := closed
      obtain ⟨inner, rfl⟩ := List.getLast?_eq_some_iff.mp hlast
      rw [List.append_nil, Progress.run_concat_endOfInput]
      simpa using hrun
    · refine ⟨[⟨.endOfInput, t.position + 1⟩], ?_⟩
      rw [Progress.run_concat_endOfInput]
      exact hrun

/-- No formula begins with a token where it cannot stand. -/
theorem ofTokens_ne_ok_of_refuses {seen : List Token} {q : Progress} {t : Token}
    {expected : String} {found : Token.Kind} {position opened : Nat}
    (inner : ∀ t ∈ seen, t.lexeme ≠ .endOfInput) (hread : Reads ⟨limit, limit⟩ .start seen q)
    (refused : q.Refuses ⟨limit, limit⟩ t ⟨.unexpectedToken expected found position, opened⟩)
    (more : List Token) (limit' : Nat) (e : Expr) :
    Expr.ofTokens (seen ++ t :: more) limit' ≠ .ok e := by
  intro accepted
  obtain ⟨after, hrun⟩ := exists_run_of_ofTokens_eq_ok accepted 0
  rw [List.append_assoc, List.cons_append] at hrun
  -- With as much room as either limit gives, the same tokens would be both read and refused.
  let wider : Bounds := ⟨max limit limit', 0⟩
  have first : (Bounds.mk limit limit).room ≤ wider.room := Nat.le_max_left limit limit'
  have second : (Bounds.mk limit' limit').room ≤ wider.room := Nat.le_max_right limit limit'
  have read := Progress.run_eq_ok_of_room_le second (Prod.ext hrun rfl)
  have failed := Progress.run_eq_error_of_room_le first
    (Progress.run_of_refuses hread inner refused 0 (more ++ after))
  cases read.symm.trans failed

/-- What has been read can be completed to a formula. -/
theorem exists_ofTokens_eq_ok_of_reads {seen : List Token} {q : Progress}
    (hread : Reads ⟨limit, limit⟩ .start seen q) (short : seen.length < limit) :
    ∃ more e, (∀ u ∈ more, u.lexeme ≠ .endOfInput) ∧ ∀ ending, ending.lexeme = .endOfInput →
      Expr.ofTokens (seen ++ more ++ [ending]) limit = .ok e := by
  have atStart : Describes limit .start [] := .start
  have described : Describes limit q ([] ++ seen) := atStart.reads hread
  obtain ⟨more, whole, htokens, hnesting⟩ := described.exists_completion short
  have inner := whole.lexeme_ne_endOfInput
  rw [htokens] at inner
  refine ⟨more, whole.tree, fun u mem => inner u (List.mem_append_right seen mem), ?_⟩
  intro ending last
  exact (Expr.ofTokens_eq_ok_iff inner last).mpr ⟨whole, htokens, hnesting, rfl⟩

/-- A parser that finds a token where it cannot stand has found the first such token. What stands
before it can be completed to a formula, and no formula begins with it after that. -/
theorem ofTokens_unexpectedToken_earliest {tokens : List Token} {ending : Token}
    (inner : ∀ t ∈ tokens, t.lexeme ≠ .endOfInput) (last : ending.lexeme = .endOfInput)
    (long : tokens.length < limit) {expected : String} {found : Token.Kind} {position : Nat}
    {after : Parser} (h : (ofTokens (tokens ++ [ending]) limit).parse =
      (.error (.unexpectedToken expected found position), after)) :
    ∃ seen t unread, tokens ++ [ending] = seen ++ t :: unread ∧
      after.rest ++ [ending] = t :: unread ∧ found = t.kind ∧ position = t.position ∧
      (∃ more e, (∀ u ∈ more, u.lexeme ≠ .endOfInput) ∧ (t.lexeme = .endOfInput → more ≠ []) ∧
        Expr.ofTokens (seen ++ more ++ [ending]) limit = .ok e) ∧
      ∀ more limit' e, Expr.ofTokens (seen ++ t :: more) limit' ≠ .ok e := by
  rw [parse_ofTokens last] at h
  split at h
  · cases h
  next refusal rest hrun =>
  obtain ⟨error, opened⟩ := refusal
  obtain ⟨herror, rfl⟩ := Prod.mk.inj h
  obtain rfl : error = .unexpectedToken expected found position := Except.error.inj herror
  obtain ⟨seen, q, t, unread, htokens, hrest, inner', hread, refused⟩ :=
    Progress.exists_refuses last inner hrun
  have never := ofTokens_ne_ok_of_refuses inner' hread refused
  have short : seen.length < limit := by
    have := congrArg List.length htokens
    simp only [List.length_append, List.length_cons, List.length_nil] at this
    omega
  obtain ⟨more, e, hmore, accepted⟩ := exists_ofTokens_eq_ok_of_reads hread short
  obtain ⟨hfound, hposition⟩ := refused.names.of_unexpectedToken
  refine ⟨seen, t, unread, htokens, hrest, hfound, hposition, ⟨more, e, hmore, ?_, ?_⟩, never⟩
  · rintro ends rfl
    have complete := accepted t ends
    rw [List.append_nil] at complete
    exact never [] limit e complete
  · exact accepted ending last

/-- The tokens of `-F(1`, a formula without its end. -/
def openCall : List Token :=
  [⟨.symbol .minus, 1⟩, ⟨.identifier "F", 2⟩, ⟨.symbol .leftParen, 3⟩, ⟨.number "1", 4⟩]

/-- In `-F(1 2` the second number is the first token that no formula has there. -/
theorem openCall_number_unexpectedToken :
    (ofTokens (openCall ++ [⟨.number "2", 6⟩] ++ [Token.ending 7]) 6).parse =
        (.error (.unexpectedToken "';' or ')'" .number 6), ⟨[⟨.number "2", 6⟩], 7, 2, 6⟩) ∧
      (∃ more e, Expr.ofTokens (openCall ++ more ++ [Token.ending 7]) 6 = .ok e) ∧
      ∀ more limit e, Expr.ofTokens (openCall ++ ⟨.number "2", 6⟩ :: more) limit ≠ .ok e := by
  have failed : (ofTokens (openCall ++ [⟨.number "2", 6⟩] ++ [Token.ending 7]) 6).parse =
      (.error (.unexpectedToken "';' or ')'" .number 6), ⟨[⟨.number "2", 6⟩], 7, 2, 6⟩) := rfl
  obtain ⟨seen, t, unread, htokens, hrest, -, -, ⟨more, e, -, -, accepted⟩, never⟩ :=
    ofTokens_unexpectedToken_earliest (by decide) rfl (by decide) failed
  obtain ⟨rfl, rfl⟩ := List.cons.inj hrest
  have htokens : openCall ++ [⟨.number "2", 6⟩, Token.ending 7] =
      seen ++ [⟨.number "2", 6⟩, Token.ending 7] := htokens
  obtain rfl := List.append_cancel_right htokens
  exact ⟨failed, ⟨more, e, accepted⟩, never⟩

end Parser

end SheetFormula
