import SheetFormula.Proofs.Parser.CountingOn

/-!
# One expression after another

A parser that is asked for one expression after another carries two things from a call to the next:
its place in the tokens and the number of levels that earlier errors left open. A call does what a
fresh parser of the tokens from its place on does under a limit that is lower by that number. It
never goes back. If it succeeds the number stays as it is, and if it fails the levels are added
that the tokens it has read leave open (`Parser.parse_afterCalls`).

`Parser.parse` counts the levels of each call from zero and lowers the limit instead.
`Parser.parseCountingOn` counts on from the levels left open, under the limit itself. Both are what
`Parser.resume` makes of the same fresh run (`Parser.parse_eq_resume`,
`Parser.parseCountingOn_eq_resume`), which is an instance of `Progress.run_of_opened`.

The place is an index into the tokens, the end of the input included (`closed`, `Parser.index`).
Calls only ever drop tokens from the front (`Parser.Progress.run_suffix`), so wherever a number of
calls has led, the tokens that are left are those from the index on (`Parser.Within`). The levels
are those that a refusal counts (`Parser.depth_parse_of_error`).
-/

namespace SheetFormula.Parser

/-! ## The tokens of a parser -/

/-- The tokens of a list and the end of the input, unless the last of them says so. -/
def closed (tokens : List Token) : List Token :=
  match tokens.getLast? with
  | none => [.ending 1]
  | some t => if t.lexeme = .endOfInput then tokens else tokens ++ [.ending (t.position + 1)]

/-- The tokens from the place of a parser on, with the end of the input that closes them. -/
def remaining (p : Parser) : List Token :=
  p.rest ++ [.ending p.ending]

/-- The place of a parser in the tokens that it was given. -/
def index (tokens : List Token) (p : Parser) : Nat :=
  (closed tokens).length - p.remaining.length

/-- The parser after a number of calls. -/
def afterCalls (p : Parser) : Nat → Parser
  | 0 => p
  | n + 1 => (p.afterCalls n).parse.2

theorem remaining_ofTokens (tokens : List Token) (limit : Nat) :
    (ofTokens tokens limit).remaining = closed tokens := by
  unfold ofTokens closed
  cases last : tokens.getLast? with
  | none => rfl
  | some t =>
    obtain ⟨before, rfl⟩ := List.getLast?_eq_some_iff.mp last
    obtain ⟨lexeme, position⟩ := t
    by_cases ends : lexeme = .endOfInput
    · subst ends
      simp [remaining, Token.ending]
    · simp [remaining, Token.ending, ends]

theorem ofTokens_remaining (p : Parser) (limit : Nat) :
    ofTokens p.remaining limit = ⟨p.rest, p.ending, 0, limit⟩ := by
  simp only [ofTokens, remaining, List.getLast?_concat, Token.ending, if_true,
    List.dropLast_concat]

/-! ## One call -/

/-- What a parser comes to that counts on from the levels that earlier errors left open. -/
def parseCountingOn (p : Parser) : Except Error Expr × Parser :=
  match Progress.run ⟨p.limit, p.limit⟩ p.ending ⟨.level, ⟨[], p.depth⟩⟩ p.rest with
  | (.ok e, rest) => (.ok e, { p with rest })
  | (.error refusal, rest) => (.error refusal.error, { p with rest, depth := refusal.opened })

/-- What a parser makes of what a fresh one comes to in its place. -/
def resume (p : Parser) : Except Refusal Expr × List Token → Except Error Expr × Parser
  | (.ok e, rest) => (.ok e, { p with rest })
  | (.error refusal, rest) =>
    (.error (refusal.error.withLimit p.limit),
      { p with rest, depth := p.depth + refusal.opened })

/-- The levels that a parser may still open, as the limit of a fresh one. -/
def freshBounds (p : Parser) : Bounds :=
  ⟨p.limit - p.depth, p.limit - p.depth⟩

/-- What a fresh parser comes to in the place of another. -/
def freshRun (p : Parser) : Except Refusal Expr × List Token :=
  Progress.start.run p.freshBounds p.ending p.rest

theorem parse_eq_resume (p : Parser) : p.parse = p.resume p.freshRun := by
  have lowered : Progress.start.run ⟨p.limit - p.depth, p.limit⟩ p.ending p.rest =
      (counted p.limit 0 id p.freshRun.1, p.freshRun.2) :=
    Progress.run_of_opened ⟨p.limit - p.depth, p.limit⟩ 0 _ p.ending p.rest
  simp only [parse, lowered]
  cases p.freshRun with
  | mk outcome rest => cases outcome <;> rfl

theorem parseCountingOn_eq_resume (p : Parser) : p.parseCountingOn = p.resume p.freshRun := by
  have countedOn : Progress.run ⟨p.limit, p.limit⟩ p.ending ⟨.level, ⟨[], p.depth⟩⟩ p.rest =
      (counted p.limit p.depth id p.freshRun.1, p.freshRun.2) :=
    Progress.run_of_opened ⟨p.limit, p.limit⟩ p.depth _ p.ending p.rest
  simp only [parseCountingOn, countedOn]
  cases p.freshRun with
  | mk outcome rest =>
    cases outcome with
    | ok e => rfl
    | error refusal => simp only [counted, resume, Nat.add_comm]

/-- Asked for its own tokens a fresh parser gives the same result, but for the limit named. -/
theorem parse_fst (p : Parser) : p.parse.1 =
    (ofTokens p.remaining (p.limit - p.depth)).parse.1.mapError (Error.withLimit p.limit) := by
  rw [parse_eq_resume, ofTokens_remaining]
  simp only [freshRun, freshBounds, parse, Nat.sub_zero]
  cases Progress.start.run ⟨p.limit - p.depth, p.limit - p.depth⟩ p.ending p.rest with
  | mk outcome rest => cases outcome <;> rfl

/-! ## Places -/

/-- A parser has the given limit and has still to read the end of a list of tokens. -/
structure Within (tokens : List Token) (limit : Nat) (p : Parser) : Prop where
  remaining_suffix : p.remaining <:+ closed tokens
  limit_eq : p.limit = limit

theorem ofTokens_within (tokens : List Token) (limit : Nat) :
    (ofTokens tokens limit).Within tokens limit where
  remaining_suffix := remaining_ofTokens tokens limit ▸ List.suffix_refl _
  limit_eq := limit_ofTokens tokens limit

namespace Progress

/-- What is left over are the last of the tokens. -/
theorem run_suffix (bounds : Bounds) (ending : Nat) :
    ∀ (ts : List Token) (p : Progress), (p.run bounds ending ts).2 <:+ ts
  | [], p => List.suffix_refl []
  | t :: ts, p => by
    rw [run]
    split
    · split
      · exact List.suffix_cons t ts
      · exact List.suffix_refl _
    · split
      · next q _ => exact (run_suffix bounds ending ts q).trans (List.suffix_cons t ts)
      · exact List.suffix_refl _

end Progress

/-- A call keeps the limit and the end of the input and leaves the last of the tokens. -/
theorem parse_snd (p : Parser) :
    p.parse.2.rest <:+ p.rest ∧ p.parse.2.ending = p.ending ∧ p.parse.2.limit = p.limit := by
  have left := Progress.run_suffix p.freshBounds p.ending p.rest .start
  rw [parse_eq_resume]
  unfold freshRun
  generalize Progress.start.run p.freshBounds p.ending p.rest = run at left ⊢
  obtain ⟨outcome, rest⟩ := run
  cases outcome <;> exact ⟨left, rfl, rfl⟩

theorem parse_remaining_suffix (p : Parser) : p.parse.2.remaining <:+ p.remaining := by
  obtain ⟨⟨read, left⟩, same, -⟩ := p.parse_snd
  refine ⟨read, ?_⟩
  rw [remaining, remaining, same, ← List.append_assoc, left]

namespace Within

variable {tokens : List Token} {limit : Nat} {p : Parser}

theorem parse (h : p.Within tokens limit) : p.parse.2.Within tokens limit where
  remaining_suffix := p.parse_remaining_suffix.trans h.remaining_suffix
  limit_eq := p.parse_snd.2.2.trans h.limit_eq

theorem afterCalls (h : p.Within tokens limit) (calls : Nat) :
    (p.afterCalls calls).Within tokens limit := by
  induction calls with
  | zero => exact h
  | succ calls ih => exact ih.parse

/-- A parser has still to read the tokens from its place on. -/
theorem remaining_eq_drop (h : p.Within tokens limit) :
    p.remaining = (closed tokens).drop (p.index tokens) :=
  List.suffix_iff_eq_drop.mp h.remaining_suffix

theorem index_add_length (h : p.Within tokens limit) :
    p.index tokens + p.remaining.length = (closed tokens).length :=
  Nat.sub_add_cancel h.remaining_suffix.length_le

/-- The end of the input is always left. -/
theorem index_lt (h : p.Within tokens limit) : p.index tokens < (closed tokens).length := by
  have left : 0 < p.remaining.length := by simp [remaining]
  have := h.index_add_length
  omega

/-- The tokens that a call has read are those between its place and the one after it. -/
theorem index_parse (h : p.Within tokens limit) {read : List Token}
    (all : p.remaining = read ++ p.parse.2.remaining) :
    p.parse.2.index tokens = p.index tokens + read.length := by
  have before := h.index_add_length
  have after := h.parse.index_add_length
  rw [all, List.length_append] at before
  omega

end Within

/-! ## Levels -/

/-- A call that succeeds leaves no level open. -/
theorem depth_parse_of_ok {p : Parser} {e : Expr} (h : p.parse.1 = .ok e) :
    p.parse.2.depth = p.depth := by
  rw [parse_eq_resume] at h ⊢
  generalize p.freshRun = run at h ⊢
  obtain ⟨outcome, rest⟩ := run
  cases outcome with
  | ok e => rfl
  | error refusal => cases h

/-- A call that fails has read some tokens, and adds the levels that these leave open. -/
theorem depth_parse_of_error {p : Parser} {e : Error} (h : p.parse.1 = .error e) :
    ∃ read opened, p.remaining = read ++ p.parse.2.remaining ∧
      LeavesOpen (p.limit - p.depth) read opened ∧ p.parse.2.depth = p.depth + opened := by
  rw [parse_eq_resume] at h ⊢
  cases fresh : p.freshRun with
  | mk outcome rest =>
    rw [fresh] at h
    cases outcome with
    | ok e => cases h
    | error refusal =>
      have failed : Progress.start.run p.freshBounds (Token.ending p.ending).position p.rest =
        (.error refusal, rest) := fresh
      obtain ⟨seen, q, t, more, hts, -, hread, refused⟩ :=
        Progress.exists_refuses_of_run rfl failed
      have described : Describes p.freshBounds.room .start [] := .start
      refine ⟨seen, refusal.opened, ?_, ?_, rfl⟩
      · simp only [remaining, resume, hts, List.append_assoc]
      · rw [refused.opened_eq]
        exact (described.reads hread).leavesOpen

/-! ## Any number of calls -/

/-- A call that is made after any number of calls goes on where the one before it stopped, and does
not go back. It comes to what a parser does that counts on from the levels left open, and that is
what a fresh parser of the tokens from there on comes to under the limit less these levels, but for
the limit that an error names. If it succeeds no further level is left open, and if it fails as many
further levels as the tokens that it has read leave open. -/
theorem parse_afterCalls (tokens : List Token) (limit calls : Nat) {p q : Parser}
    {outcome : Except Error Expr} (reached : (ofTokens tokens limit).afterCalls calls = p)
    (called : p.parse = (outcome, q)) :
    p.parseCountingOn = (outcome, q) ∧
      p.remaining = (closed tokens).drop (p.index tokens) ∧
      outcome = (ofTokens ((closed tokens).drop (p.index tokens))
        (limit - p.depth)).parse.1.mapError (Error.withLimit limit) ∧
      p.index tokens ≤ q.index tokens ∧ q.index tokens < (closed tokens).length ∧
      (∀ e, outcome = .ok e → q.depth = p.depth) ∧
      ∀ e, outcome = .error e → ∀ opened,
        LeavesOpen (limit - p.depth)
          (((closed tokens).drop (p.index tokens)).take (q.index tokens - p.index tokens)) opened ↔
        q.depth = p.depth + opened := by
  have within : p.Within tokens limit := reached ▸ (ofTokens_within tokens limit).afterCalls calls
  have there := within.remaining_eq_drop
  obtain ⟨read, left⟩ := p.parse_remaining_suffix
  have moved := within.index_parse left.symm
  have countingOn := p.parseCountingOn_eq_resume.trans p.parse_eq_resume.symm
  have fresh := p.parse_fst
  have ended := within.parse.index_lt
  rw [within.limit_eq, there] at fresh
  obtain rfl : p.parse.1 = outcome := congrArg Prod.fst called
  obtain rfl : p.parse.2 = q := congrArg Prod.snd called
  refine ⟨countingOn, there, fresh, by omega, ended, fun e => depth_parse_of_ok, ?_⟩
  intro e failed opened
  obtain ⟨read', opened', all, leaves, depth⟩ := depth_parse_of_error failed
  rw [← there, within.index_parse all, Nat.add_sub_cancel_left, all, List.take_left,
    ← within.limit_eq, depth, Nat.add_left_cancel_iff]
  constructor
  · intro h
    exact leaves.unique h
  · rintro rfl
    exact leaves

/-- The tokens of `1` and after an end of the input those of `(1(2`. -/
def numberThenGroups : List Token :=
  [⟨.number "1", 1⟩, .ending 2, ⟨.symbol .leftParen, 3⟩, ⟨.number "1", 4⟩,
    ⟨.symbol .leftParen, 5⟩, ⟨.number "2", 6⟩]

/-- The first call reads the number and the end of the input, and the second one fails at the second
parenthesis and leaves one level open. There the third call exceeds the limit two as a fresh parser
does the limit one. -/
theorem parse_numberThenGroups :
    let p : Parser := ⟨[⟨.symbol .leftParen, 5⟩, ⟨.number "2", 6⟩], 7, 1, 2⟩
    let q : Parser := ⟨[⟨.number "2", 6⟩], 7, 3, 2⟩
    (ofTokens numberThenGroups 2).afterCalls 2 = p ∧
      p.parse = (.error (.nestingTooDeep 2 6), q) ∧
      p.parseCountingOn = (.error (.nestingTooDeep 2 6), q) ∧
      p.index numberThenGroups = 4 ∧ q.index numberThenGroups = 5 ∧
      (ofTokens ((closed numberThenGroups).drop 4) 1).parse.1 = .error (.nestingTooDeep 1 6) ∧
      ∀ opened, LeavesOpen 1 [⟨.symbol .leftParen, 5⟩] opened ↔ 3 = 1 + opened := by
  intro p q
  have reached : (ofTokens numberThenGroups 2).afterCalls 2 = p := by decide
  have called : p.parse = (.error (.nestingTooDeep 2 6), q) := rfl
  obtain ⟨countingOn, -, -, -, -, -, levels⟩ :=
    parse_afterCalls numberThenGroups 2 2 reached called
  exact ⟨reached, called, countingOn, by decide, by decide, rfl, levels _ rfl⟩

end SheetFormula.Parser
