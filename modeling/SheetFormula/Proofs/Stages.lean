import SheetFormula.Proofs.ErrorPlaces
import SheetFormula.Proofs.HigherLimit

/-!
# The stages of errors

The lexer, the parser and evaluation work one after another on a formula, and the stage of an error
tells which of them failed (`Session.execute_stages`): the lexer has only lexical errors, the
parser no lexical ones, and evaluation only errors of the runtime. The error of the limit belongs
to the runtime in the parser too, so it is the one error whose stage does not tell the parser from
evaluation. A formula without a tree makes no call.

What each stage fails with is known by now, so for each the stage of its errors is read off: an
error that names characters is lexical (`Error.NamesCharacters.stage_eq`), a token that is refused
makes a syntactic error or that of the limit (`Expr.stage_of_ofTokens`), and what arises in a tree
belongs to the runtime (`Expr.Raises.stage_eq`). The last one needs functions that fail only with
messages of their own, since a function could name any stage.

Every error of a formula is one of these three (`Session.execute_error_cases`). Since the stages do
not meet, the cases become equivalences: a lexical error is exactly one of the lexer
(`Session.execute_lexical_iff`), and a syntactic error is exactly a token refused by the parser on
what the lexer has read (`Session.execute_syntactic_iff`).
-/

namespace SheetFormula

variable {σ : Type}

/-! ## The errors of each stage -/

/-- An error about characters is one of the lexer. -/
theorem Error.NamesCharacters.stage_eq {text : List Char} :
    ∀ {e : Error}, e.NamesCharacters text → e.stage = .lexical
  | .unexpectedChar .., _ | .invalidComparison .., _ => rfl

theorem stage_of_tokenize {text : String} {e : Error} (h : tokenize text = .error e) :
    e.stage = .lexical :=
  (namesCharacters_of_tokenize h).stage_eq

theorem Error.stage_eq_syntactic_iff {e : Error} : e.stage = .syntactic ↔
    ∃ expected found position, e = .unexpectedToken expected found position := by
  cases e <;> simp [stage]

/-- The parser fails with a syntactic error, or because of its limit. -/
theorem Expr.stage_of_ofTokens {text : String} {tokens : List Token} {limit : Nat} {e : Error}
    (read : tokenize text = .ok tokens) (h : Expr.ofTokens tokens limit = .error e) :
    e.stage = .syntactic ∨ ∃ position, e = .nestingTooDeep limit position := by
  obtain ⟨t, -, ⟨expected, rfl⟩ | rfl⟩ := Expr.exists_refused_of_ofTokens read h
  · exact .inl rfl
  · exact .inr ⟨t.position, rfl⟩

/-- An error that arises in a tree belongs to the runtime. -/
theorem Expr.Raises.stage_eq {bindings : Bindings σ} (messages : bindings.FailsWithMessages)
    {e : Expr} {error : Error} (raised : e.Raises bindings error) : error.stage = .runtime := by
  induction raised with
  | host found values host failed =>
    obtain ⟨message, rfl⟩ := messages _ _ found values host _ failed
    rfl
  | operand _ _ _ ih | left _ _ _ _ ih | right _ _ _ _ ih | argument _ _ _ _ ih => exact ih
  | _ => rfl

/-- Evaluation fails with an error of the runtime. -/
theorem Expr.stage_of_value {bindings : Bindings σ} (messages : bindings.FailsWithMessages)
    {e : Expr} {limit : Nat} {host : σ} {error : Error}
    (h : (e.value bindings limit host).1 = .error error) : error.stage = .runtime := by
  rcases raises_or_reaches_of_value h with raised | ⟨d, there, -, rfl⟩
  · exact raised.stage_eq messages
  · rfl

/-! ## Formulas -/

namespace Session

variable {s : Session σ} {formula : String}

/-- An error of a formula is one of the lexer, of the parser or of evaluation. -/
theorem execute_error_cases (messages : s.bindings.FailsWithMessages) {e : Error}
    (h : (s.execute formula).1 = .error e) :
    tokenize formula = .error e ∧ e.stage = .lexical ∨
      (∃ tokens, tokenize formula = .ok tokens ∧ Expr.ofTokens tokens s.limit = .error e ∧
        e.stage ≠ .lexical) ∨
      (∃ tree, s.parse formula = .ok tree) ∧ e.stage = .runtime := by
  cases parsed : s.parse formula with
  | error e' =>
    rw [execute_of_parse_eq_error parsed] at h
    cases h
    rcases Expr.ofString_eq_error_iff.mp parsed with failed | ⟨tokens, read, failed⟩
    · exact .inl ⟨failed, stage_of_tokenize failed⟩
    · refine .inr (.inl ⟨tokens, read, failed, ?_⟩)
      rcases Expr.stage_of_ofTokens read failed with syntactic | ⟨position, rfl⟩
      · simp [syntactic]
      · simp [Error.stage]
  | ok tree =>
    rw [execute_of_parse_eq_ok parsed] at h
    exact .inr (.inr ⟨⟨tree, rfl⟩, Expr.stage_of_value messages h⟩)

/-- The lexer fails exactly if the formula has a lexical error, which is the one of the lexer. -/
theorem execute_lexical_iff (messages : s.bindings.FailsWithMessages) {e : Error} :
    (s.execute formula).1 = .error e ∧ e.stage = .lexical ↔ tokenize formula = .error e := by
  constructor
  · rintro ⟨h, stage⟩
    rcases execute_error_cases messages h with ⟨failed, -⟩ | ⟨-, -, -, other⟩ | ⟨-, runtime⟩
    · exact failed
    · exact absurd stage other
    · rw [stage] at runtime
      cases runtime
  · intro failed
    have parsed : s.parse formula = .error e := Expr.ofString_eq_error_iff.mpr (.inl failed)
    exact ⟨congrArg Prod.fst (execute_of_parse_eq_error parsed), stage_of_tokenize failed⟩

/-- The parser refuses a token exactly if the formula has a syntactic error, which is the one of the
parser. -/
theorem execute_syntactic_iff (messages : s.bindings.FailsWithMessages) {e : Error} :
    (s.execute formula).1 = .error e ∧ e.stage = .syntactic ↔
      ∃ tokens, tokenize formula = .ok tokens ∧ Expr.ofTokens tokens s.limit = .error e ∧
        ∃ expected found position, e = .unexpectedToken expected found position := by
  constructor
  · rintro ⟨h, stage⟩
    rcases execute_error_cases messages h with
      ⟨-, lexical⟩ | ⟨tokens, read, failed, -⟩ | ⟨-, runtime⟩
    · rw [stage] at lexical
      cases lexical
    · exact ⟨tokens, read, failed, Error.stage_eq_syntactic_iff.mp stage⟩
    · rw [stage] at runtime
      cases runtime
  · rintro ⟨tokens, read, failed, refusal⟩
    have parsed : s.parse formula = .error e :=
      Expr.ofString_eq_error_iff.mpr (.inr ⟨tokens, read, failed⟩)
    exact ⟨congrArg Prod.fst (execute_of_parse_eq_error parsed),
      Error.stage_eq_syntactic_iff.mpr refusal⟩

/-- The stage of an error tells what failed. The lexer comes first, so a bad character counts even
after a token that cannot stand where it does. Without a tree a formula fails with the error of
parsing, makes no call and leaves the session as it is; otherwise it comes to what its tree comes
to, and fails only with errors of the runtime. -/
theorem execute_stages (messages : s.bindings.FailsWithMessages) (formula : String) :
    (∀ e, (s.execute formula).1 = .error e ∧ e.stage = .lexical ↔ tokenize formula = .error e) ∧
      (∀ e, (s.execute formula).1 = .error e ∧ e.stage = .syntactic ↔
        ∃ tokens, tokenize formula = .ok tokens ∧ Expr.ofTokens tokens s.limit = .error e ∧
          ∃ expected found position, e = .unexpectedToken expected found position) ∧
      (∀ e, s.parse formula = .error e →
        s.execute formula = (.error e, s) ∧ s.invocations formula = []) ∧
      ∀ tree, s.parse formula = .ok tree →
        s.execute formula = ((tree.value s.bindings s.limit s.host).1,
            { s with host := (tree.value s.bindings s.limit s.host).2 }) ∧
          ∀ e, (s.execute formula).1 = .error e → e.stage = .runtime := by
  refine ⟨fun e => execute_lexical_iff messages, fun e => execute_syntactic_iff messages, ?_, ?_⟩
  · exact fun e failed => ⟨execute_of_parse_eq_error failed, invocations_of_parse_eq_error failed⟩
  · intro tree parsed
    refine ⟨execute_of_parse_eq_ok parsed, fun e h => ?_⟩
    rw [execute_of_parse_eq_ok parsed] at h
    exact Expr.stage_of_value messages h

/-- After a call a parenthesis cannot stand, but the character that comes next fails first, and
without it the parenthesis does. A level too many is an error of the runtime that parsing has. None
of these makes the call, which is made before a variable is looked up. -/
theorem execute_afterCall_stages :
    (withRecorder 3).bindings.FailsWithMessages ∧
      ((withRecorder 3).execute "F(\"a\"))#" = (.error (.unexpectedChar '#' 8), withRecorder 3) ∧
        (withRecorder 3).invocations "F(\"a\"))#" = []) ∧
      ((withRecorder 3).execute "F(\"a\"))" =
          (.error (.unexpectedToken "end of input" (.symbol .rightParen) 7), withRecorder 3) ∧
        (withRecorder 3).invocations "F(\"a\"))" = []) ∧
      ((withRecorder 3).execute "F(((\"a\")))" = (.error (.nestingTooDeep 3 5), withRecorder 3) ∧
        (withRecorder 3).invocations "F(((\"a\")))" = []) ∧
      (withRecorder 3).execute "F(\"a\")/x" =
        (.error (.unknownVariable "x" 8), { withRecorder 3 with host := ["a"] }) := by
  have messages : (withRecorder 3).bindings.FailsWithMessages := by
    intro name f found arguments host e failed
    simp only [withRecorder, Bindings.function?_setFunction, Bindings.function?_empty] at found
    split at found
    · cases found
      cases failed
    · cases found
  have tree : (withRecorder 3).parse "F(\"a\")/x" = .ok (.binary (.arithmetic .divide)
      (.call "F" [.string "a" 3] 1) (.reference "x" 8) 7) := by cbv
  obtain ⟨-, -, badCharacter, -⟩ := execute_stages messages "F(\"a\"))#"
  obtain ⟨-, -, badToken, -⟩ := execute_stages messages "F(\"a\"))"
  obtain ⟨-, -, tooDeep, -⟩ := execute_stages messages "F(((\"a\")))"
  obtain ⟨-, -, -, evaluated⟩ := execute_stages messages "F(\"a\")/x"
  refine ⟨messages, badCharacter _ (by cbv), badToken _ (by cbv), tooDeep _ (by cbv), ?_⟩
  rw [(evaluated _ tree).1, Expr.value_eq_guardedEval]
  rfl

end Session

end SheetFormula
