import SheetFormula.Proofs.Lexer.Concatenation
import SheetFormula.Proofs.Lexer.FirstError

/-!
# One token after another

A lexer can be asked for the next token again and again, after an error too. `Lexer.Step` says what
one call does: at the end of the text it stays there, a token and a run of signs that is no
comparison are passed over, and a character that begins no token is not. Every call is such a step
(`Lexer.step_of_next`); this is put together from what is known of tokens, of the end and of
errors, each by a lemma of its own.

So the place never goes back and never leaves the text, a call that passes something over makes the
rest of the text shorter (`Lexer.Step.offset_lt`), and the other calls are repeated for ever
(`Lexer.Step.stays`). Each is read off the four cases of a step.

After any number of calls the lexer has still to read what comes after its place in the text
(`Lexer.Within`). As many calls at most as there are characters pass something over
(`Lexer.offset_add_passed_le`), and the tokens asked for one after another are those that the text
begins with (`Lexer.tokens_eq_map_append`). What a call may come to after any others is
`Lexer.afterCalls_outcomes`; after a run of signs that is no comparison the rest is read as a text
of its own (`Lexer.Within.resumes`).
-/

namespace SheetFormula.Lexer

open Unicode (isBlank)

variable {l after : Lexer} {outcome : Except Error (Option Token)} {offset n : Nat}
  {gap rest : List Char} {c : Char}

/-- The lexer after a number of calls. -/
def afterCalls (l : Lexer) : Nat → Lexer
  | 0 => l
  | n + 1 => (l.afterCalls n).next.2

theorem afterCalls_afterCalls (l : Lexer) (n : Nat) :
    ∀ m, (l.afterCalls n).afterCalls m = l.afterCalls (n + m)
  | 0 => rfl
  | m + 1 => by rw [afterCalls, l.afterCalls_afterCalls n m, ← Nat.add_assoc, afterCalls]

/-! ## One call -/

/-- What a call comes to and where it leaves the lexer. -/
inductive Step : Lexer → Except Error (Option Token) → Lexer → Prop where
  | ending {offset : Nat} {gap : List Char} (blank : ∀ c ∈ gap, isBlank c = true) :
    Step ⟨offset, gap⟩ (.ok none) ⟨offset + gap.length, []⟩
  | token {offset : Nat} {gap written rest : List Char} {lexeme : Lexeme}
      (blank : ∀ c ∈ gap, isBlank c = true) (here : lexeme.Written written rest) :
    Step ⟨offset, gap ++ (written ++ rest)⟩ (.ok (some ⟨lexeme, offset + gap.length + 1⟩))
      ⟨offset + gap.length + written.length, rest⟩
  /-- A whole run of comparison signs is passed over. -/
  | badComparison {offset : Nat} {gap run rest : List Char} (blank : ∀ c ∈ gap, isBlank c = true)
      (bad : BadComparison run) (ends : EndsRun isComparisonSign rest) :
    Step ⟨offset, gap ++ (run ++ rest)⟩
      (.error (.invalidComparison (String.ofList run) (offset + gap.length + 1)))
      ⟨offset + gap.length + run.length, rest⟩
  /-- The lexer stays before the character. -/
  | unexpected {offset : Nat} {gap : List Char} {c : Char} {rest : List Char}
      (blank : ∀ c ∈ gap, isBlank c = true) (notBlank : isBlank c = false)
      (scanned : Scan.ofChars c rest = .unexpected) :
    Step ⟨offset, gap ++ c :: rest⟩ (.error (.unexpectedChar c (offset + gap.length + 1)))
      ⟨offset + gap.length, c :: rest⟩

/-- Where no blank character comes next, the next characters decide. -/
theorem next_of_not_blank (notBlank : isBlank c = false) (offset : Nat) (rest : List Char) :
    (Lexer.mk offset (c :: rest)).next =
      match Scan.ofChars c rest with
      | .lexeme lexeme length =>
        (.ok (some ⟨lexeme, offset + 1⟩), (Lexer.mk offset (c :: rest)).skip length)
      | .badComparison run =>
        (.error (.invalidComparison (String.ofList run) (offset + 1)),
          (Lexer.mk offset (c :: rest)).skip run.length)
      | .unexpected => (.error (.unexpectedChar c (offset + 1)), ⟨offset, c :: rest⟩) := by
  have here : (Lexer.mk offset (c :: rest)).skipBlanks = ⟨offset, c :: rest⟩ := by
    simp [skipBlanks, skip, notBlank]
  cases scanned : Scan.ofChars c rest <;> simp only [next, here, scanned]

theorem next_of_unexpected (notBlank : isBlank c = false)
    (scanned : Scan.ofChars c rest = .unexpected) (offset : Nat) :
    (Lexer.mk offset (c :: rest)).next =
      (.error (.unexpectedChar c (offset + 1)), ⟨offset, c :: rest⟩) := by
  rw [next_of_not_blank notBlank, scanned]

/-- Every call is a step. -/
theorem step_of_next (h : l.next = (outcome, after)) : Step l outcome after := by
  obtain ⟨offset, chars⟩ := l
  cases outcome with
  | ok found => cases found with
    | none =>
      have blank := (blank_of_next h).1
      obtain rfl := (Prod.mk.inj (h.symm.trans (next_of_blank blank offset))).2
      exact .ending blank
    | some t =>
      obtain ⟨gap, written, blank, hrest, here, hposition, hoffset⟩ := written_of_next h
      obtain ⟨lexeme, position⟩ := t
      obtain ⟨place, rest⟩ := after
      dsimp only at hrest hposition hoffset
      subst hrest hposition hoffset
      exact .token blank here
  | error e =>
    obtain ⟨gap, c, rest, blank, hrest, notBlank, stops⟩ := stopsWith_of_next h
    obtain rfl : chars = _ := hrest
    rw [next_append_of_blank blank] at h
    cases stops with
    | unexpected scanned =>
      obtain rfl := (Prod.mk.inj (h.symm.trans (next_of_unexpected notBlank scanned _))).2
      exact .unexpected blank notBlank scanned
    | @badComparison run scanned =>
      obtain ⟨-, later, hchars, -, ends⟩ := Scan.run_of_badComparison scanned
      rw [next_of_not_blank notBlank, scanned] at h
      obtain rfl := (Prod.mk.inj h).2
      rw [hchars, skip, List.drop_left]
      exact .badComparison blank (Scan.badComparison_of_ofChars scanned) ends

theorem step_next (l : Lexer) : Step l l.next.1 l.next.2 :=
  step_of_next rfl

namespace Step

/-- A call passes some characters over. -/
theorem exists_passed (h : Step l outcome after) :
    ∃ passed, l.rest = passed ++ after.rest ∧ after.offset = l.offset + passed.length := by
  cases h with
  | @ending offset gap blank => exact ⟨gap, by simp, rfl⟩
  | @token offset gap written rest lexeme blank here =>
    exact ⟨gap ++ written, by simp, by simp [Nat.add_assoc]⟩
  | @badComparison offset gap run rest blank bad ends =>
    exact ⟨gap ++ run, by simp, by simp [Nat.add_assoc]⟩
  | @unexpected offset gap c rest blank notBlank scanned => exact ⟨gap, rfl, rfl⟩

end Step

/-- Whether a call passes something over: a token, or a run of signs that is no comparison. -/
def passesOver : Except Error (Option Token) → Bool
  | .ok (some _) | .error (.invalidComparison ..) => true
  | _ => false

namespace Step

/-- A call that passes something over leaves less text. -/
theorem offset_lt (h : Step l outcome after) (passes : passesOver outcome = true) :
    l.offset < after.offset := by
  cases h with
  | @token offset gap written rest lexeme blank here =>
    have := List.length_pos_iff.mpr here.ne_nil
    dsimp only
    omega
  | @badComparison offset gap run rest blank bad ends =>
    have begins := bad.begins
    have : 0 < run.length := by
      refine List.length_pos_iff.mpr ?_
      rintro rfl
      simp at begins
    dsimp only
    omega
  | ending | unexpected => cases passes

/-- A call that passes nothing over is repeated by the one after it, which leaves the lexer where it
is. -/
theorem stays (h : Step l outcome after) (stuck : passesOver outcome = false) :
    after.next = (outcome, after) := by
  cases h with
  | token | badComparison => cases stuck
  | ending blank => exact next_of_blank (by simp) _
  | unexpected blank notBlank scanned => exact next_of_unexpected notBlank scanned _

end Step

/-! ## Any number of calls -/

/-- The lexer is at a place in the text and has still to read what comes after it. -/
structure Within (text : String) (l : Lexer) : Prop where
  offset_le : l.offset ≤ text.length
  rest_eq : l.rest = text.toList.drop l.offset

theorem ofString_within (text : String) : (ofString text).Within text :=
  ⟨Nat.zero_le _, rfl⟩

namespace Within

variable {text : String}

theorem step (h : l.Within text) (called : Step l outcome after) : after.Within text := by
  obtain ⟨passed, hrest, hoffset⟩ := called.exists_passed
  have length : (passed ++ after.rest).length = text.length - l.offset := by
    rw [← hrest, h.rest_eq, List.length_drop, String.length_toList]
  rw [List.length_append] at length
  have := h.offset_le
  refine ⟨by omega, ?_⟩
  rw [hoffset, ← List.drop_drop, ← h.rest_eq, hrest, List.drop_left]

theorem afterCalls (h : l.Within text) : ∀ n, (l.afterCalls n).Within text
  | 0 => h
  | n + 1 => (h.afterCalls n).step (step_next _)

end Within

/-- What comes to nothing new once comes to the same ever after. -/
theorem next_afterCalls_of_stays (stays : l.next = (outcome, l)) :
    ∀ n, (l.afterCalls n).next = (outcome, l)
  | 0 => stays
  | n + 1 => by rw [afterCalls, next_afterCalls_of_stays stays n, stays]

/-- How many of the first calls pass something over. -/
def passed (l : Lexer) (n : Nat) : Nat :=
  (List.range n).countP fun i => passesOver (l.afterCalls i).next.1

/-- Each call that passes something over takes at least one character. -/
theorem offset_add_passed_le (l : Lexer) : ∀ n,
    l.offset + l.passed n ≤ (l.afterCalls n).offset
  | 0 => Nat.le_refl _
  | n + 1 => by
    have ih := l.offset_add_passed_le n
    have called := (l.afterCalls n).step_next
    obtain ⟨_, -, hoffset⟩ := called.exists_passed
    have moved := called.offset_lt
    have split : l.passed (n + 1) = l.passed n +
        if passesOver (l.afterCalls n).next.1 = true then 1 else 0 := by
      simp [passed, List.range_succ, List.countP_append, List.countP_singleton]
    rw [afterCalls, split]
    split
    · next passes =>
      have := moved passes
      omega
    · omega

/-- Tokens that are asked for one after another are those that the text begins with. -/
theorem tokens_eq_map_append : ∀ (read : List Token) (l : Lexer),
    (∀ i (h : i < read.length), (l.afterCalls i).next.1 = .ok (some read[i])) →
      l.tokens = (l.afterCalls read.length).tokens.map (read ++ ·)
  | [], l, _ => by
    cases h : l.tokens <;> simp [afterCalls, h, Except.map]
  | t :: read, l, calls => by
    have first : l.next.1 = .ok (some t) := calls 0 (Nat.succ_pos _)
    have one : l.next = (.ok (some t), l.afterCalls 1) := by
      rw [← first]
      rfl
    have ih := tokens_eq_map_append read (l.afterCalls 1) fun i h => by
      rw [afterCalls_afterCalls, Nat.add_comm]
      exact calls (i + 1) (Nat.succ_lt_succ h)
    rw [afterCalls_afterCalls, Nat.add_comm] at ih
    rw [tokens, collect_eq, one]
    dsimp only
    rw [collect_eq_map_tokens, ih]
    cases (l.afterCalls (read.length + 1)).tokens <;> simp [Except.map]

/-- What comes after some characters is read like a text of its own, further on. -/
theorem tokens_mk (offset : Nat) (rest : List Char) : (Lexer.mk offset rest).tokens =
    ((tokenize (String.ofList rest)).map (List.map (Token.shift offset))).mapError
      (Error.shift offset) := by
  rw [tokenize, ← tokens_shift]
  simp [ofString, shift]

/-- A run of signs that is no comparison is passed over as a whole, and reading goes on after it. -/
theorem Within.resumes {text run : String} {position : Nat} (h : l.Within text)
    (called : Step l (.error (.invalidComparison run position)) after) :
    ∃ before rest, text.toList = before ++ (run.toList ++ rest) ∧ position = before.length + 1 ∧
      EndsRun isComparisonSign rest ∧ after = ⟨before.length + run.length, rest⟩ := by
  cases called with
  | @badComparison offset gap run rest blank bad ends =>
    have place : (text.toList.take offset ++ gap).length = offset + gap.length := by
      have := h.offset_le
      rw [List.length_append, List.length_take, String.length_toList]
      dsimp only at this
      omega
    have left : gap ++ (run ++ rest) = text.toList.drop offset := h.rest_eq
    refine ⟨text.toList.take offset ++ gap, rest, ?_, by rw [place], ends, ?_⟩
    · rw [String.toList_ofList, List.append_assoc, left, List.take_append_drop]
    · rw [place, String.length_ofList]

/-- A lexer that has been asked for any number of tokens is asked for another one. It does not go
back and does not leave the text. If it gives a token it goes on. At the end of the text it gives
nothing from then on, and at a character that begins no token the same error from then on. After a
run of signs that is no comparison it goes on, and what follows is read as a text of its own. So no
more tokens and such runs can have been passed over than there are characters. If all calls before
have given tokens, the tokens of the whole text are these and the tokens from there on. -/
theorem afterCalls_outcomes (text : String) (n : Nat) {l after : Lexer}
    {outcome : Except Error (Option Token)} (reached : (ofString text).afterCalls n = l)
    (called : l.next = (outcome, after)) :
    (l.offset ≤ after.offset ∧ after.offset ≤ text.length ∧
        after.rest = text.toList.drop after.offset) ∧
      (∀ t, outcome = .ok (some t) → l.offset + 1 ≤ after.offset) ∧
      (outcome = .ok none → ∀ m, (after.afterCalls m).next.1 = .ok none) ∧
      (∀ c position, outcome = .error (.unexpectedChar c position) →
        ∀ m, (after.afterCalls m).next.1 = .error (.unexpectedChar c position)) ∧
      (∀ run position, outcome = .error (.invalidComparison run position) →
        ∃ before rest, text.toList = before ++ (run.toList ++ rest) ∧
          position = before.length + 1 ∧ EndsRun isComparisonSign rest ∧
          after = ⟨before.length + run.length, rest⟩ ∧
          after.tokens = ((tokenize (String.ofList rest)).map
            (List.map (Token.shift (before.length + run.length)))).mapError
              (Error.shift (before.length + run.length))) ∧
      (ofString text).passed n ≤ text.length ∧
      ∀ read : List Token, read.length = n →
        (∀ i (h : i < read.length), ((ofString text).afterCalls i).next.1 = .ok (some read[i])) →
          tokenize text = l.tokens.map (read ++ ·) ∧
            l.tokens = (tokenize text).map (List.drop n) := by
  have within : l.Within text := reached ▸ (ofString_within text).afterCalls n
  have step := step_of_next called
  have within' := within.step step
  have bound := (ofString text).offset_add_passed_le n
  have stuck (still : passesOver outcome = false) (m : Nat) :
      (after.afterCalls m).next.1 = outcome :=
    congrArg Prod.fst (next_afterCalls_of_stays (step.stays still) m)
  refine ⟨⟨?_, within'.offset_le, within'.rest_eq⟩, ?_, ?_, ?_, ?_, ?_, ?_⟩
  · obtain ⟨_, -, hoffset⟩ := step.exists_passed
    omega
  · rintro t rfl
    exact step.offset_lt rfl
  · rintro rfl
    exact stuck rfl
  · rintro c position rfl
    exact stuck rfl
  · rintro run position rfl
    obtain ⟨before, rest, htext, hposition, ends, rfl⟩ := within.resumes step
    exact ⟨before, rest, htext, hposition, ends, rfl, tokens_mk _ rest⟩
  · have := within.offset_le
    have start : (ofString text).offset = 0 := rfl
    rw [reached] at bound
    omega
  · rintro read rfl calls
    have whole : tokenize text = l.tokens.map (read ++ ·) :=
      reached ▸ tokens_eq_map_append read _ calls
    refine ⟨whole, ?_⟩
    rw [whole]
    cases l.tokens <;> simp [Except.map]

/-- In `a <=> 1#` the run of signs is passed over with the second call. The fourth one stops at the
character that begins no token, and so do all later ones. -/
theorem afterCalls_outcomes_badRun :
    ((ofString "a <=> 1#").afterCalls 1 = ⟨1, " <=> 1#".toList⟩ ∧
      (Lexer.mk 1 " <=> 1#".toList).next =
        (.error (.invalidComparison "<=>" 3), ⟨5, " 1#".toList⟩) ∧
      (ofString "a <=> 1#").passed 1 ≤ "a <=> 1#".length ∧
      ((ofString "a <=> 1#").afterCalls 0).next.1 = .ok (some ⟨.identifier "a", 1⟩) ∧
      tokenize "a <=> 1#" =
        (Lexer.mk 1 " <=> 1#".toList).tokens.map ([⟨.identifier "a", 1⟩] ++ ·)) ∧
    (ofString "a <=> 1#").afterCalls 3 = ⟨7, ['#']⟩ ∧
      (Lexer.mk 7 ['#']).next = (.error (.unexpectedChar '#' 8), ⟨7, ['#']⟩) ∧
      ∀ m, ((Lexer.mk 7 ['#']).afterCalls m).next.1 = .error (.unexpectedChar '#' 8) := by
  have first : (ofString "a <=> 1#").next = (.ok (some ⟨.identifier "a", 1⟩),
      ⟨1, " <=> 1#".toList⟩) := by cbv
  have second : (Lexer.mk 1 " <=> 1#".toList).next =
      (.error (.invalidComparison "<=>" 3), ⟨5, " 1#".toList⟩) := by cbv
  have third : (Lexer.mk 5 " 1#".toList).next =
      (.ok (some ⟨.number "1", 7⟩), ⟨7, ['#']⟩) := by cbv
  have fourth : (Lexer.mk 7 ['#']).next = (.error (.unexpectedChar '#' 8), ⟨7, ['#']⟩) := by cbv
  have reached : (ofString "a <=> 1#").afterCalls 1 = ⟨1, " <=> 1#".toList⟩ := by
    simp only [afterCalls, first]
  have reached' : (ofString "a <=> 1#").afterCalls 3 = ⟨7, ['#']⟩ := by
    simp only [afterCalls, first, second, third]
  obtain ⟨-, -, -, -, -, passed, whole⟩ := afterCalls_outcomes "a <=> 1#" 1 reached second
  obtain ⟨-, -, -, stuck, -⟩ := afterCalls_outcomes "a <=> 1#" 3 reached' fourth
  have read := whole [⟨.identifier "a", 1⟩] rfl fun i lt => by
    obtain rfl : i = 0 := Nat.lt_one_iff.mp lt
    exact congrArg Prod.fst first
  exact ⟨⟨reached, second, passed, congrArg Prod.fst first, read.1⟩, reached', fourth,
    stuck '#' 8 rfl⟩

end SheetFormula.Lexer
