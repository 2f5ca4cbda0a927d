import SheetFormula.Proofs.Parser.Reading

/-!
# Refused tokens

A parser that fails has read some tokens and refuses the next one, which may be the end of the
input (`Progress.exists_refuses_of_run`). The error names the kind and the place of that token, or
it is the error of the limit at that place (`Progress.Refuses.names`). What comes after a refused
token does not matter (`Progress.run_of_refuses`).

`Progress.Refuses` is one notion for both kinds of tokens: a token that cannot be read where the
parser is, and an end of the input where the expression cannot end. What the error names is found
by following the functions of the parser, one lemma for each of them (`names_of_openLevel`,
`names_of_readOperand`, `names_of_readAfter` and so on). The place of the refusal is found by
induction on the tokens: the next one is refused, or it is read and the parser fails later
(`Progress.run_cons_eq_error`).

More room for levels changes nothing but errors of the limit (`Progress.run_eq_or_nestingTooDeep`).
This too is said of one token first, as a relation between two outcomes (`SameOrTooDeep`) that
opening a level has (`Surroundings.openLevel_sameOrTooDeep`), that `bind` keeps
(`SameOrTooDeep.bind`), and that a step therefore has (`Progress.step_sameOrTooDeep`).
-/

namespace SheetFormula.Parser

variable {bounds wider : Bounds} {α β : Type}

/-! ## What an error names -/

/-- The error of a refusal names `kind` and `position`, or it is that of the limit at
`position`. -/
def Refusal.Names (bounds : Bounds) (kind : Token.Kind) (position : Nat) (refusal : Refusal) :
    Prop :=
  (∃ expected, refusal.error = .unexpectedToken expected kind position) ∨
    refusal.error = .nestingTooDeep bounds.limit position

/-- A token that cannot stand where it does is the one that its error names. -/
theorem Refusal.Names.of_unexpectedToken {kind found : Token.Kind} {place position opened : Nat}
    {expected : String}
    (h : Names bounds kind place ⟨.unexpectedToken expected found position, opened⟩) :
    found = kind ∧ position = place := by
  rcases h with ⟨expected', same⟩ | same
  · obtain ⟨-, hfound, hposition⟩ := Error.unexpectedToken.inj same
    exact ⟨hfound, hposition⟩
  · cases same

theorem bind_eq_error {x : Except Refusal α} {f : α → Except Refusal β} {refusal : Refusal}
    (h : x >>= f = .error refusal) :
    x = .error refusal ∨ ∃ a, x = .ok a ∧ f a = .error refusal := by
  cases x with
  | ok a => exact .inr ⟨a, rfl, h⟩
  | error refusal' =>
    cases h
    exact .inl rfl

namespace Surroundings

variable {s : Surroundings} {t : Token} {refusal : Refusal}

theorem names_of_openLevel {position : Nat} (kind : Token.Kind)
    (h : s.openLevel bounds position = .error refusal) : refusal.Names bounds kind position := by
  unfold openLevel at h
  split at h <;> cases h
  exact .inr rfl

theorem names_of_readOperand (h : s.readOperand t = .error refusal) :
    refusal.Names bounds t.kind t.position := by
  unfold readOperand at h
  split at h <;> cases h
  exact .inl ⟨_, rfl⟩

theorem names_of_readClosing {e : Expr} {stack : List Frame} {opened : Nat}
    (h : readClosing e stack opened t = .error refusal) :
    refusal.Names bounds t.kind t.position := by
  unfold readClosing at h
  split at h <;> cases h
  exact .inl ⟨_, rfl⟩

theorem names_of_readAfter {e : Expr} (h : s.readAfter e t = .error refusal) :
    refusal.Names bounds t.kind t.position := by
  unfold readAfter at h
  split at h
  · cases h
  · exact names_of_readClosing h

theorem names_of_finishAfter {e : Expr} {position : Nat}
    (h : s.finishAfter e position = .error refusal) :
    refusal.Names bounds .endOfInput position := by
  unfold finishAfter at h
  split at h <;> cases h
  exact .inl ⟨_, rfl⟩

end Surroundings

namespace Progress

variable {p q : Progress} {t : Token} {refusal : Refusal}

/-- A token that is refused is the one that the error names. -/
theorem names_of_step (h : p.step bounds t = .error refusal) :
    refusal.Names bounds t.kind t.position := by
  obtain ⟨phase, around⟩ := p
  cases phase with
  | level =>
    rcases bind_eq_error h with h | ⟨s, -, h⟩
    · exact Surroundings.names_of_openLevel t.kind h
    · exact Surroundings.names_of_readOperand h
  | operand => exact Surroundings.names_of_readOperand h
  | name name position =>
    simp only [step] at h
    split at h
    · cases h
    · exact Surroundings.names_of_readAfter h
  | arguments name position =>
    simp only [step] at h
    split at h
    · cases h
    · rcases bind_eq_error h with h | ⟨s, -, h⟩
      · exact Surroundings.names_of_openLevel t.kind h
      · exact Surroundings.names_of_readOperand h
  | complete e => exact Surroundings.names_of_readAfter h

/-- An end of the input that comes too early is what the error names. -/
theorem names_of_finish {position : Nat} (h : p.finish bounds position = .error refusal) :
    refusal.Names bounds .endOfInput position := by
  obtain ⟨phase, around⟩ := p
  cases phase with
  | level | arguments =>
    rcases bind_eq_error h with h | ⟨s, -, h⟩
    · exact Surroundings.names_of_openLevel .endOfInput h
    · cases h
      exact .inl ⟨_, rfl⟩
  | operand =>
    cases h
    exact .inl ⟨_, rfl⟩
  | name name place => exact Surroundings.names_of_finishAfter h
  | complete e => exact Surroundings.names_of_finishAfter h

/-! ## The place of the refusal -/

/-- The parser does not go on with `t`, which may be the end of the input. -/
def Refuses (bounds : Bounds) (q : Progress) (t : Token) (refusal : Refusal) : Prop :=
  if t.lexeme = .endOfInput then q.finish bounds t.position = .error refusal
  else q.step bounds t = .error refusal

theorem Refuses.names (h : q.Refuses bounds t refusal) :
    refusal.Names bounds t.kind t.position := by
  unfold Refuses at h
  split at h
  · next ends =>
    have kind : t.kind = .endOfInput := by
      rw [Token.kind, ends]
      rfl
    rw [kind]
    exact names_of_finish h
  · exact names_of_step h

/-- What can be read is read whatever comes after it. -/
theorem run_of_reads {ts : List Token} (h : Reads bounds p ts q)
    (inner : ∀ t ∈ ts, t.lexeme ≠ .endOfInput) (ending : Nat) (us : List Token) :
    p.run bounds ending (ts ++ us) = q.run bounds ending us := by
  induction h with
  | nil => rfl
  | cons first rest ih =>
    rw [List.cons_append, run, if_neg (inner _ List.mem_cons_self), first]
    exact ih fun t mem => inner t (List.mem_cons_of_mem _ mem)

/-- A token that is refused is refused whatever comes after it. -/
theorem run_of_refuses {ts : List Token} (h : Reads bounds p ts q)
    (inner : ∀ t ∈ ts, t.lexeme ≠ .endOfInput) (refused : q.Refuses bounds t refusal)
    (ending : Nat) (us : List Token) :
    p.run bounds ending (ts ++ t :: us) = (.error refusal, t :: us) := by
  rw [run_of_reads h inner, run]
  unfold Refuses at refused
  split at refused
  · next ends => rw [if_pos ends, refused]
  · next inside => rw [if_neg inside, refused]

/-- A parser that fails refuses the next token or reads it and fails later. -/
theorem run_cons_eq_error {ending : Nat} {ts rest : List Token}
    (h : p.run bounds ending (t :: ts) = (.error refusal, rest)) :
    (p.Refuses bounds t refusal ∧ rest = t :: ts) ∨
      ∃ q, p.step bounds t = .ok q ∧ q.run bounds ending ts = (.error refusal, rest) := by
  rw [run] at h
  unfold Refuses
  split at h
  · next ends =>
    rw [if_pos ends]
    split at h <;> cases h
    exact .inl ⟨‹_›, rfl⟩
  · next inside =>
    rw [if_neg inside]
    split at h
    · next q first => exact .inr ⟨q, first, h⟩
    · cases h
      exact .inl ⟨‹_›, rfl⟩

/-- A parser that fails has read the tokens before one that it refuses, and leaves this token and
those after it. -/
theorem exists_refuses_of_run {ending : Token} (last : ending.lexeme = .endOfInput) :
    ∀ {ts rest : List Token} {p : Progress},
      p.run bounds ending.position ts = (.error refusal, rest) → ∃ seen q t more,
        ts = seen ++ rest ∧ rest ++ [ending] = t :: more ∧ Reads bounds p seen q ∧
          q.Refuses bounds t refusal
  | [], rest, p, h => by
    obtain ⟨failed, rfl⟩ := Prod.mk.inj h
    refine ⟨[], p, ending, [], rfl, rfl, .nil p, ?_⟩
    rw [Refuses, if_pos last]
    exact failed
  | t :: ts, rest, p, h => by
    rcases run_cons_eq_error h with ⟨refused, rfl⟩ | ⟨p', first, h⟩
    · exact ⟨[], p, t, ts ++ [ending], rfl, rfl, .nil p, refused⟩
    · obtain ⟨seen, q, t', more, hts, hrest, hread, refused⟩ := exists_refuses_of_run last h
      exact ⟨t :: seen, q, t', more, congrArg (t :: ·) hts, hrest, .cons first hread, refused⟩

/-- Where no end of the input stands among the tokens, none stands before the one refused. -/
theorem exists_refuses {ending : Token} (last : ending.lexeme = .endOfInput) {ts rest : List Token}
    {p : Progress} (inner : ∀ t ∈ ts, t.lexeme ≠ .endOfInput)
    (h : p.run bounds ending.position ts = (.error refusal, rest)) : ∃ seen q t more,
      ts ++ [ending] = seen ++ t :: more ∧ rest ++ [ending] = t :: more ∧
        (∀ t ∈ seen, t.lexeme ≠ .endOfInput) ∧ Reads bounds p seen q ∧
        q.Refuses bounds t refusal := by
  obtain ⟨seen, q, t, more, rfl, hrest, hread, refused⟩ := exists_refuses_of_run last h
  refine ⟨seen, q, t, more, ?_, hrest, ?_, hread, refused⟩
  · rw [List.append_assoc, hrest]
  · exact fun t mem => inner t (List.mem_append_left _ mem)

end Progress

/-! ## Lists of tokens -/

theorem limit_ofTokens (tokens : List Token) (limit : Nat) :
    (ofTokens tokens limit).limit = limit := by
  unfold ofTokens
  split
  · rfl
  · split <;> rfl

/-- The parser of a closed list of tokens reads those before the last. -/
theorem parse_ofTokens {tokens : List Token} {ending : Token}
    (last : ending.lexeme = .endOfInput) (limit : Nat) :
    (ofTokens (tokens ++ [ending]) limit).parse =
      match Progress.start.run ⟨limit, limit⟩ ending.position tokens with
      | (.ok e, rest) => (.ok e, ⟨rest, ending.position, 0, limit⟩)
      | (.error refusal, rest) =>
        (.error refusal.error, ⟨rest, ending.position, refusal.opened, limit⟩) := by
  have parser : ofTokens (tokens ++ [ending]) limit = ⟨tokens, ending.position, 0, limit⟩ := by
    simp only [ofTokens, List.getLast?_concat, last, if_true, List.dropLast_concat]
  rw [parser]
  cases hrun : Progress.start.run ⟨limit, limit⟩ ending.position tokens with
  | mk outcome rest =>
    cases outcome with
    | ok e => simp only [parse, Nat.sub_zero, hrun]
    | error refusal => simp only [parse, Nat.sub_zero, hrun, Nat.zero_add]

/-! ## More room -/

/-- `y` is the same as `x`, unless `x` is an error of the limit. -/
def SameOrTooDeep (x y : Except Refusal α) : Prop :=
  y = x ∨ ∃ limit position opened, x = .error ⟨.nestingTooDeep limit position, opened⟩

theorem SameOrTooDeep.bind {x y : Except Refusal α} (h : SameOrTooDeep x y)
    (f : α → Except Refusal β) : SameOrTooDeep (x >>= f) (y >>= f) := by
  rcases h with rfl | ⟨limit, position, opened, rfl⟩
  · exact .inl rfl
  · exact .inr ⟨limit, position, opened, rfl⟩

theorem Surroundings.openLevel_sameOrTooDeep (le : bounds.room ≤ wider.room) (s : Surroundings)
    (position : Nat) :
    SameOrTooDeep (s.openLevel bounds position) (s.openLevel wider position) := by
  unfold openLevel
  split
  · next room =>
    rw [if_pos (Nat.lt_of_lt_of_le room le)]
    exact .inl rfl
  · exact .inr ⟨_, _, _, rfl⟩

namespace Progress

theorem step_sameOrTooDeep (le : bounds.room ≤ wider.room) (p : Progress) (t : Token) :
    SameOrTooDeep (p.step bounds t) (p.step wider t) := by
  obtain ⟨phase, around⟩ := p
  cases phase with
  | level => exact (Surroundings.openLevel_sameOrTooDeep le around t.position).bind _
  | arguments name position =>
    simp only [step]
    split
    · exact .inl rfl
    · exact (Surroundings.openLevel_sameOrTooDeep le _ t.position).bind _
  | operand | name | complete => exact .inl rfl

theorem finish_sameOrTooDeep (le : bounds.room ≤ wider.room) (p : Progress) (position : Nat) :
    SameOrTooDeep (p.finish bounds position) (p.finish wider position) := by
  obtain ⟨phase, around⟩ := p
  cases phase with
  | level | arguments => exact (Surroundings.openLevel_sameOrTooDeep le around position).bind _
  | operand | name | complete => exact .inl rfl

/-- With more room a parser does the same, unless it failed because of the limit. -/
theorem run_eq_or_nestingTooDeep (le : bounds.room ≤ wider.room) (ending : Nat) :
    ∀ (ts : List Token) (p : Progress), p.run wider ending ts = p.run bounds ending ts ∨
      ∃ limit position opened,
        (p.run bounds ending ts).1 = .error ⟨.nestingTooDeep limit position, opened⟩
  | [], p => by
    rcases p.finish_sameOrTooDeep le ending with same | ⟨limit, position, opened, failed⟩
    · rw [run, run, same]
      exact .inl rfl
    · exact .inr ⟨limit, position, opened, failed⟩
  | t :: ts, p => by
    rw [run, run]
    split
    · rcases p.finish_sameOrTooDeep le t.position with same | ⟨limit, position, opened, failed⟩
      · rw [same]
        exact .inl rfl
      · rw [failed]
        exact .inr ⟨limit, position, opened, rfl⟩
    · rcases p.step_sameOrTooDeep le t with same | ⟨limit, position, opened, failed⟩
      · rw [same]
        split
        · next q hq => exact run_eq_or_nestingTooDeep le ending ts q
        · exact .inl rfl
      · rw [failed]
        exact .inr ⟨limit, position, opened, rfl⟩

/-- An expression that is read is read with more room. -/
theorem run_eq_ok_of_room_le (le : bounds.room ≤ wider.room) {ending : Nat} {ts rest : List Token}
    {p : Progress} {e : Expr} (h : p.run bounds ending ts = (.ok e, rest)) :
    p.run wider ending ts = (.ok e, rest) := by
  rcases run_eq_or_nestingTooDeep le ending ts p with same | ⟨limit, position, opened, failed⟩
  · rw [same, h]
  · rw [h] at failed
    cases failed

/-- A token that cannot stand where it does is refused with more room. -/
theorem run_eq_error_of_room_le (le : bounds.room ≤ wider.room) {ending : Nat}
    {ts rest : List Token} {p : Progress} {expected : String} {found : Token.Kind}
    {position opened : Nat}
    (h : p.run bounds ending ts =
      (.error ⟨.unexpectedToken expected found position, opened⟩, rest)) :
    p.run wider ending ts = (.error ⟨.unexpectedToken expected found position, opened⟩, rest) := by
  rcases run_eq_or_nestingTooDeep le ending ts p with same | ⟨limit, position, opened, failed⟩
  · rw [same, h]
  · rw [h] at failed
    cases failed

end Progress

end SheetFormula.Parser
