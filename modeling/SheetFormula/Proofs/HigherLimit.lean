import SheetFormula.Proofs.Evaluation.Invocations
import SheetFormula.Proofs.Parser.Refusal

/-!
# Raising the limit

A higher limit of nesting changes no answer but the error of the limit. A parser that does not fail
because of its limit reads the same under a higher one (`Parser.parse_of_limit_le`), and so does
evaluation come to the same value or the same error (`Expr.value_of_limit_le`). A formula that is
executed under both limits makes the same calls (`Session.execute_of_limit_le`).

The parser's part is `Progress.run_eq_or_nestingTooDeep`: with more room the run is the same or was
an error of the limit. Only the limit that the parser keeps is another one afterwards, which
`Parser.withLimit` puts right.

Evaluation has a sharper fact behind it. For each tree there is a number of levels that it reaches
(`Expr.reach`); at this limit and above it comes to what plain evaluation comes to, and below it to
the error of the limit (`Expr.value_of_reach_le`, `Expr.value_of_lt_reach`). A limit that was
enough is therefore at least that number, and so is every higher one. The calls are those of the
host functions in a session that writes them down, so what holds of all sessions holds of them.
-/

namespace SheetFormula

variable {σ : Type}

/-- The outcome is not the error of a limit. -/
def NotTooDeep {α : Type} (outcome : Except Error α) : Prop :=
  ∀ limit position, outcome ≠ .error (.nestingTooDeep limit position)

/-! ## Parsing -/

namespace Parser

/-- The parser with another limit. -/
def withLimit (p : Parser) (limit : Nat) : Parser :=
  { p with limit }

theorem ofTokens_withLimit (tokens : List Token) (limit limit' : Nat) :
    (ofTokens tokens limit).withLimit limit' = ofTokens tokens limit' := by
  unfold ofTokens withLimit
  split
  · rfl
  · split <;> rfl

/-- A parser does the same under a higher limit, unless it fails because of its own. -/
theorem parse_of_limit_le {p : Parser} {limit : Nat} (le : p.limit ≤ limit)
    (h : NotTooDeep p.parse.1) :
    (p.withLimit limit).parse = (p.parse.1, p.parse.2.withLimit limit) := by
  have room : (Bounds.mk (p.limit - p.depth) p.limit).room ≤
      (Bounds.mk (limit - p.depth) limit).room := Nat.sub_le_sub_right le _
  rcases Progress.run_eq_or_nestingTooDeep room p.ending p.rest .start with
    same | ⟨l, position, opened, failed⟩
  · simp only [parse, withLimit, same]
    split <;> rfl
  · refine absurd ?_ (h l position)
    simp only [parse]
    split
    · next read =>
      rw [read] at failed
      cases failed
    · next refused =>
      rw [refused] at failed
      cases failed
      rfl

end Parser

namespace Expr

theorem ofTokens_of_limit_le {tokens : List Token} {limit limit' : Nat} (le : limit ≤ limit')
    (h : NotTooDeep (ofTokens tokens limit)) : ofTokens tokens limit' = ofTokens tokens limit := by
  have within : (Parser.ofTokens tokens limit).limit ≤ limit' := by
    rw [Parser.limit_ofTokens]
    exact le
  rw [ofTokens, ← Parser.ofTokens_withLimit tokens limit, Parser.parse_of_limit_le within h]
  rfl

theorem ofString_of_limit_le {text : String} {limit limit' : Nat} (le : limit ≤ limit')
    (h : NotTooDeep (ofString text limit)) : ofString text limit' = ofString text limit := by
  unfold ofString at h ⊢
  cases read : tokenize text with
  | error e => rfl
  | ok ts =>
    rw [read] at h
    exact ofTokens_of_limit_le le h

/-! ## Evaluation -/

/-- Evaluation comes to the same under a higher limit, unless it fails because of its own. -/
theorem value_of_limit_le {bindings : Bindings σ} {e : Expr} {host : σ} {limit limit' : Nat}
    (le : limit ≤ limit') (h : NotTooDeep (e.value bindings limit host).1) :
    e.value bindings limit' host = e.value bindings limit host := by
  have within : e.reach bindings host ≤ limit := by
    refine Nat.le_of_not_lt fun exceeded => ?_
    obtain ⟨position, after, failed⟩ := value_of_lt_reach exceeded
    exact h limit position (congrArg Prod.fst failed)
  rw [value_of_reach_le within, value_of_reach_le (Nat.le_trans within le)]

end Expr

/-! ## Formulas -/

namespace Session

/-- The session with another limit. -/
def withLimit (s : Session σ) (limit : Nat) : Session σ :=
  { s with limit }

/-- Executing a formula gives the same under a higher limit, unless it fails because of the limit of
the session. -/
theorem execute_withLimit {s : Session σ} {formula : String} {limit : Nat} (le : s.limit ≤ limit)
    (h : NotTooDeep (s.execute formula).1) : (s.withLimit limit).execute formula =
      ((s.execute formula).1, (s.execute formula).2.withLimit limit) := by
  have parsed : (s.withLimit limit).parse formula = s.parse formula := by
    refine Expr.ofString_of_limit_le le fun l position failed => h l position ?_
    have failed : s.parse formula = _ := failed
    simp only [execute, failed]
  unfold execute at h ⊢
  rw [parsed]
  cases tree : s.parse formula with
  | error e => rfl
  | ok e =>
    rw [tree] at h
    have same : e.value s.bindings limit s.host = e.value s.bindings s.limit s.host :=
      Expr.value_of_limit_le le h
    simp only [withLimit, same]

/-- A formula that does not fail because of the limit is parsed under every higher limit to the same
tree or with the same error. It is executed under every higher limit with the same value or the same
error, with the same calls of host functions in the same order, and leaves their state the same. -/
theorem execute_of_limit_le (s : Session σ) (formula : String) {limit : Nat}
    (le : s.limit ≤ limit) :
    (NotTooDeep (s.parse formula) → (s.withLimit limit).parse formula = s.parse formula) ∧
      (NotTooDeep (s.execute formula).1 →
        (s.withLimit limit).execute formula =
            ((s.execute formula).1, (s.execute formula).2.withLimit limit) ∧
          (s.withLimit limit).invocations formula = s.invocations formula) := by
  refine ⟨Expr.ofString_of_limit_le le, fun h => ⟨execute_withLimit le h, ?_⟩⟩
  have recorded : NotTooDeep (s.recording.execute formula).1 := by
    rw [(s.execute_recording formula).1]
    exact h
  have same : (s.recording.withLimit limit).execute formula = _ := execute_withLimit le recorded
  exact congrArg (fun run => run.2.host.2) same

/-- A session in which `F` is true and writes down its arguments. -/
def withRecorder (limit : Nat) : Session (List String) :=
  ⟨Bindings.empty.setFunction "F" Expr.recorder, limit, []⟩

/-- The text of `Expr.mixedChain`. -/
def mixedChainText : String :=
  "F(\"a\")=F(\"b\")<F(\"c\")"

/-- The limit three is just enough for the calls in a chain to be made, and the error of the last
operator is the same under the default limit. -/
theorem execute_mixedChain_defaultLimit :
    3 ≤ defaultLimit ∧ NotTooDeep ((withRecorder 3).parse mixedChainText) ∧
      NotTooDeep ((withRecorder 3).execute mixedChainText).1 ∧
      ((withRecorder 3).withLimit defaultLimit).parse mixedChainText = .ok Expr.mixedChain ∧
      ((withRecorder 3).withLimit defaultLimit).execute mixedChainText =
        (.error (.typeMismatch "<" "number or string" .boolean 14),
          { withRecorder defaultLimit with host := ["a", "b", "c"] }) ∧
      ((withRecorder 3).withLimit defaultLimit).invocations mixedChainText =
        [⟨"F", [.string "a"]⟩, ⟨"F", [.string "b"]⟩, ⟨"F", [.string "c"]⟩] := by
  have parsed : (withRecorder 3).parse mixedChainText = .ok Expr.mixedChain := by cbv
  have executed : (withRecorder 3).execute mixedChainText =
      (.error (.typeMismatch "<" "number or string" .boolean 14),
        { withRecorder 3 with host := ["a", "b", "c"] }) := by
    simp only [execute, parsed, Expr.value_eq_guardedEval]
    rfl
  have calls : (withRecorder 3).invocations mixedChainText =
      [⟨"F", [.string "a"]⟩, ⟨"F", [.string "b"]⟩, ⟨"F", [.string "c"]⟩] := by
    have reparsed : (withRecorder 3).recording.parse mixedChainText = .ok Expr.mixedChain := parsed
    simp only [invocations, execute, reparsed, Expr.value_eq_guardedEval]
    rfl
  have read : NotTooDeep ((withRecorder 3).parse mixedChainText) := by
    rw [parsed]
    exact fun _ _ h => by cases h
  have shallow : NotTooDeep ((withRecorder 3).execute mixedChainText).1 := by
    rw [executed]
    exact fun _ _ h => by cases h
  have le : (withRecorder 3).limit ≤ defaultLimit := by decide
  obtain ⟨tree, run⟩ := execute_of_limit_le (withRecorder 3) mixedChainText le
  obtain ⟨run, invocations⟩ := run shallow
  refine ⟨le, read, shallow, (tree read).trans parsed, ?_, invocations.trans calls⟩
  rw [run, executed]
  rfl

end Session

end SheetFormula
