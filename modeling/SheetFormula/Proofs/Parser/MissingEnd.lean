import SheetFormula.Proofs.Formula
import SheetFormula.Proofs.Lexer.Lossless

/-!
# Tokens without the end of the input

A parser that is given the tokens of a text without the end of the input closes them itself, right
after the beginning of the last token. That is another place than the end of the text if the last
token is longer than one character or blank characters come after it.

Nothing but the errors that name the place of the end can tell the difference
(`Parser.Progress.run_moveEnd`). What moving the end does to an error is a function,
`Error.moveEnd`. The end of the input is read alike at two places up to this function
(`finish_moveEnd`), and an error before the end names a token that does not stand there, so that
the function leaves it alone (`Refusal.Names.moveEnd_eq`).

In the tokens of a text none stands at the end of the text (`position_lt_of_tokenize`), because
places increase. So the error moves exactly if it is at the end, and then it is one of the two that
there can be: a token that cannot be the end, or a level that cannot be opened there
(`Expr.ofTokens_dropLast`).
-/

namespace SheetFormula

/-- The error with the position `new` instead of `old`, if it names this one and may arise while
parsing. -/
def Error.moveEnd (old new : Nat) : Error → Error
  | .unexpectedToken expected found position =>
    .unexpectedToken expected found (if position = old then new else position)
  | .nestingTooDeep limit position =>
    .nestingTooDeep limit (if position = old then new else position)
  | e => e

namespace Parser

variable {bounds : Bounds} {old new : Nat} {α β : Type}

/-- The refusal with the error moved. -/
def Refusal.moveEnd (old new : Nat) (refusal : Refusal) : Refusal :=
  { refusal with error := refusal.error.moveEnd old new }

/-- An error that names another place stays as it is. -/
theorem Refusal.Names.moveEnd_eq {kind : Token.Kind} {position : Nat} {refusal : Refusal}
    (h : refusal.Names bounds kind position) (other : position ≠ old) (new : Nat) :
    refusal.moveEnd old new = refusal := by
  obtain ⟨e, opened⟩ := refusal
  rcases h with ⟨expected, rfl⟩ | rfl
  · simp only [moveEnd, Error.moveEnd, if_neg other]
  · simp only [moveEnd, Error.moveEnd, if_neg other]

theorem mapError_bind {x : Except Refusal α} {f f' : α → Except Refusal β}
    {move : Refusal → Refusal} (rest : ∀ a, f' a = (f a).mapError move) :
    x.mapError move >>= f' = (x >>= f).mapError move := by
  cases x with
  | ok a => exact rest a
  | error refusal => rfl

/-! ## The end of the input at another place -/

namespace Surroundings

theorem openLevel_moveEnd (s : Surroundings) (old new : Nat) :
    s.openLevel bounds new = (s.openLevel bounds old).mapError (Refusal.moveEnd old new) := by
  unfold openLevel
  split
  · rfl
  · simp [Except.mapError, Refusal.moveEnd, Error.moveEnd]

theorem finishAfter_moveEnd (s : Surroundings) (e : Expr) (old new : Nat) :
    s.finishAfter e new = (s.finishAfter e old).mapError (Refusal.moveEnd old new) := by
  unfold finishAfter
  split
  · rfl
  · simp [Except.mapError, Refusal.moveEnd, Error.moveEnd]

end Surroundings

namespace Progress

/-- The end of the input is read alike at two places, but for the errors that name it. -/
theorem finish_moveEnd (p : Progress) (old new : Nat) :
    p.finish bounds new = (p.finish bounds old).mapError (Refusal.moveEnd old new) := by
  obtain ⟨phase, around⟩ := p
  cases phase with
  | level | arguments =>
    simp only [finish]
    rw [around.openLevel_moveEnd old new]
    refine mapError_bind fun s => ?_
    simp [Except.mapError, Refusal.moveEnd, Error.moveEnd]
  | operand => simp [finish, Except.mapError, Refusal.moveEnd, Error.moveEnd]
  | name name place => exact Surroundings.finishAfter_moveEnd _ _ old new
  | complete e => exact around.finishAfter_moveEnd e old new

/-- Tokens of which none stands at the end of the input are read alike wherever the end is. Only an
error at the end is moved with it. -/
theorem run_moveEnd (old new : Nat) : ∀ (ts : List Token) (p : Progress),
    (∀ t ∈ ts, t.lexeme ≠ .endOfInput ∧ t.position ≠ old) → p.run bounds new ts =
      ((p.run bounds old ts).1.mapError (Refusal.moveEnd old new), (p.run bounds old ts).2)
  | [], p, _ => by rw [run, run, p.finish_moveEnd old new]
  | t :: ts, p, inner => by
    obtain ⟨inside, other⟩ := inner t List.mem_cons_self
    rw [run, run, if_neg inside, if_neg inside]
    cases next : p.step bounds t with
    | ok q => exact run_moveEnd old new ts q fun t mem => inner t (List.mem_cons_of_mem _ mem)
    | error refusal =>
      have same := (names_of_step next).moveEnd_eq other new
      simp only [Except.mapError, same]

end Progress

/-- The place where the input ends after tokens that do not say so: one after the last of them, or
the first place of all. -/
def endAfter (tokens : List Token) : Nat :=
  match tokens.getLast? with
  | none => 1
  | some t => t.position + 1

/-- Tokens without an end of the input are all read, and the input ends after them. -/
theorem ofTokens_of_inner {tokens : List Token} (inner : ∀ t ∈ tokens, t.lexeme ≠ .endOfInput)
    (limit : Nat) : ofTokens tokens limit = ⟨tokens, endAfter tokens, 0, limit⟩ := by
  unfold ofTokens endAfter
  cases last : tokens.getLast? with
  | none =>
    obtain rfl := List.getLast?_eq_none_iff.mp last
    rfl
  | some t => exact if_neg (inner t (List.mem_of_getLast? last))

/-- An end of the input that is missing changes nothing but errors at the end. -/
theorem parse_concat_ending {tokens : List Token}
    (inner : ∀ t ∈ tokens, t.lexeme ≠ .endOfInput ∧ t.position ≠ old) (limit : Nat) :
    (ofTokens tokens limit).parse.1 =
      (ofTokens (tokens ++ [Token.ending old]) limit).parse.1.mapError
        (Error.moveEnd old (endAfter tokens)) := by
  have read : Progress.start.run ⟨limit, limit⟩ (endAfter tokens) tokens = _ :=
    Progress.run_moveEnd old (endAfter tokens) tokens .start inner
  rw [parse_ofTokens rfl, ofTokens_of_inner (fun t mem => (inner t mem).1)]
  simp only [parse, Nat.sub_zero, read, Token.ending]
  cases Progress.start.run ⟨limit, limit⟩ old tokens with
  | mk outcome rest => cases outcome <;> rfl

end Parser

/-! ## The tokens of a text -/

/-- All tokens of a text but the end of the input begin before it. -/
theorem position_lt_of_tokenize {text : String} {inner : List Token}
    (read : tokenize text = .ok (inner ++ [Token.ending (text.length + 1)])) :
    ∀ t ∈ inner, t.position < text.length + 1 := by
  have increasing := (tokenize_eq_ok_iff.mp read).increasing.2
  intro t mem
  exact (List.pairwise_append.mp increasing).2.2 t mem _ (List.mem_singleton_self _)

/-- Without the end of the input the tokens of a text are read as with it. The same tree comes out
or the same error, unless the error is at the end of the text. That is then a token that cannot be
the end of the input or a level that cannot be opened there, and it is found right after the
beginning of the last token instead, or at the first place if there is no token. -/
theorem Expr.ofTokens_dropLast {text : String} {ts : List Token} (read : tokenize text = .ok ts)
    (limit : Nat) :
    ts = ts.dropLast ++ [Token.ending (text.length + 1)] ∧
      Expr.ofTokens ts.dropLast limit = (Expr.ofTokens ts limit).mapError
        (Error.moveEnd (text.length + 1) (Parser.endAfter ts.dropLast)) ∧
      ∀ e, Expr.ofTokens ts limit = .error e → e.position? = some (text.length + 1) →
        (∃ expected, e = .unexpectedToken expected .endOfInput (text.length + 1)) ∨
          e = .nestingTooDeep limit (text.length + 1) := by
  obtain ⟨inner, rfl, wellFormed⟩ := exists_inner_of_tokenize read
  have before := position_lt_of_tokenize read
  rw [List.dropLast_concat]
  refine ⟨rfl, Parser.parse_concat_ending (fun t mem => ⟨(wellFormed t mem).ne_endOfInput,
    (before t mem).ne⟩) limit, fun e failed atEnd => ?_⟩
  obtain ⟨t, mem, named⟩ := Expr.exists_refused_of_ofTokens read failed
  have place : t.position = text.length + 1 := by
    rcases named with ⟨expected, rfl⟩ | rfl <;> exact Option.some.inj atEnd
  rcases List.mem_append.mp mem with mem | mem
  · exact absurd place (before t mem).ne
  · obtain rfl := List.mem_singleton.mp mem
    exact named

/-- In `F(12` with two blanks after it the list of arguments does not end, and the end of the text
is further on than the place after the beginning of the number. -/
theorem Expr.ofTokens_dropLast_openCall :
    tokenize "F(12  " = .ok [⟨.identifier "F", 1⟩, ⟨.symbol .leftParen, 2⟩, ⟨.number "12", 3⟩,
        Token.ending 7] ∧
      Expr.ofTokens [⟨.identifier "F", 1⟩, ⟨.symbol .leftParen, 2⟩, ⟨.number "12", 3⟩,
        Token.ending 7] defaultLimit =
          .error (.unexpectedToken "';' or ')'" .endOfInput 7) ∧
      Expr.ofTokens [⟨.identifier "F", 1⟩, ⟨.symbol .leftParen, 2⟩, ⟨.number "12", 3⟩]
        defaultLimit = .error (.unexpectedToken "';' or ')'" .endOfInput 4) := by
  have read : tokenize "F(12  " = .ok [⟨.identifier "F", 1⟩, ⟨.symbol .leftParen, 2⟩,
      ⟨.number "12", 3⟩, Token.ending 7] := by cbv
  obtain ⟨-, same, -⟩ := Expr.ofTokens_dropLast read defaultLimit
  exact ⟨read, rfl, same⟩

end SheetFormula
