import Mathlib
import SheetFormula.Proofs.ErrorPlaces
import SheetFormula.Proofs.Number.PlainNumbers

/-!
# Number literals

The lexer takes numeric characters of every script, with at most one comma after the first, and
evaluation gives a value to what then is a decimal number. Of the numeric characters that are the
ASCII digits (`isDigit_of_isNumeric`), so a literal has a value if and only if it has no others
(`literalValue_eq_ok_iff`). No sign, exponent or word is ever part of a literal, and the value is
not NaN.

A literal of digits is a plain number without a sign (`Lexeme.WellFormed.exists_plainNumber`), and
`SheetFormula.Proofs.Number.PlainNumbers` says that it is read and as what. For the other direction
the reader of numbers is followed on a text of numeric characters and commas: it finds no sign and
no word at the beginning, and what it takes as digits must be all of the text
(`Lexeme.WellFormed.isDigit_of_readComma?`). That numeric characters are no letters and no signs is
looked up in their table.

The literals of a tree are the number tokens it was read from (`Derivation.numberLiterals_tree`).
This goes by induction on the derivation, with its repetitions and argument lists; the chain that a
derivation becomes has its literals in the same order (`Chain.numberLiterals_toExpr`). So what is
said of tokens in `literalValue_of_tokenize` is said of all that evaluation can meet.
-/

namespace SheetFormula

open Number
open Unicode (isNumeric)

variable {σ : Type}

/-! ## Numeric characters and digits -/

theorem isNumeric_of_isDigit {c : Char} (digit : c.isDigit = true) : isNumeric c = true := by
  have digits : ∀ i < 10, Unicode.numericRanges.covers (48 + i) = true := by decide
  obtain ⟨low, high⟩ : 48 ≤ c.toNat ∧ c.toNat ≤ 57 := Char.isDigit_iff_toNat.mp digit
  obtain ⟨i, place⟩ := Nat.exists_eq_add_of_le low
  rw [isNumeric, place]
  exact digits i (by omega)

/-- The ASCII characters among the numeric ones are the digits. -/
theorem isDigit_of_isNumeric {c : Char} (numeric : isNumeric c = true) (ascii : c.toNat < 128) :
    c.isDigit = true := by
  have digits : ∀ n < 128, Unicode.numericRanges.covers n = true → 48 ≤ n ∧ n ≤ 57 := by decide
  exact Char.isDigit_iff_toNat.mpr (digits _ ascii numeric)

theorem ne_of_isNumeric {c d : Char} (numeric : isNumeric c = true) (other : isNumeric d = false) :
    c ≠ d := by
  rintro rfl
  rw [numeric] at other
  cases other

theorem isAlpha_of_isNumeric {c : Char} (numeric : isNumeric c = true) : c.isAlpha = false := by
  refine Bool.eq_false_iff.mpr fun letter => ?_
  have ascii : c.toNat < 128 := by
    simp only [Char.isAlpha, Char.isUpper, Char.isLower, Bool.or_eq_true, Bool.and_eq_true,
      decide_eq_true_eq, ge_iff_le, UInt32.le_iff_toNat_le] at letter
    simp at letter
    omega
  rw [isAlpha_of_isDigit (isDigit_of_isNumeric numeric ascii)] at letter
  cases letter

/-- No sign is numeric. -/
theorem splitSign_of_isNumeric {c : Char} (numeric : isNumeric c = true) (rest : List Char) :
    splitSign (c :: rest) = (false, c :: rest) := by
  have notMinus : c ≠ '-' := ne_of_isNumeric numeric (by decide)
  have notPlus : c ≠ '+' := ne_of_isNumeric numeric (by decide)
  unfold splitSign
  split
  · next same => exact absurd (List.cons.inj same).1 notMinus
  · next same => exact absurd (List.cons.inj same).1 notPlus
  · rfl

/-! ## The texts of number tokens -/

section Literal

variable {raw : String} {position : Nat}

theorem Lexeme.WellFormed.isNumeric_or_comma (h : (Lexeme.number raw).WellFormed) {c : Char}
    (mem : c ∈ raw.toList) : isNumeric c = true ∨ c = ',' := by
  obtain ⟨first, tail, text, numeric, within, -⟩ := h
  rw [text] at mem
  rcases List.mem_cons.mp mem with rfl | mem
  · exact .inl numeric
  · exact within c mem

/-- Of the ASCII characters only digits and the comma occur in a literal. -/
theorem Lexeme.WellFormed.isDigit_or_comma (h : (Lexeme.number raw).WellFormed) {c : Char}
    (mem : c ∈ raw.toList) (ascii : c.toNat < 128) : c.isDigit = true ∨ c = ',' :=
  (h.isNumeric_or_comma mem).imp_left fun numeric => isDigit_of_isNumeric numeric ascii

/-- A literal of digits is a plain number without sign. -/
theorem Lexeme.WellFormed.exists_plainNumber (h : (Lexeme.number raw).WellFormed)
    (digits : ∀ c ∈ raw.toList, c ≠ ',' → c.isDigit = true) :
    ∃ n : PlainNumber, n.WellFormed ∧ n.sign = none ∧ n.text = raw.toList := by
  obtain ⟨first, tail, text, numeric, within, commas⟩ := h
  have notComma : first ≠ ',' := ne_of_isNumeric numeric (by decide)
  rw [text] at digits ⊢
  by_cases comma : ',' ∈ tail
  · obtain ⟨whole, decimals, rfl, free⟩ := List.eq_append_cons_of_mem comma
    have last : ',' ∉ decimals := by
      simp only [List.count_append, List.count_cons_self] at commas
      exact List.count_eq_zero.mp (by omega)
    refine ⟨⟨none, first :: whole, some (',', decimals)⟩, ⟨.inl rfl, by simp, ?_, ?_⟩, rfl, rfl⟩
    · intro c mem
      refine digits c (List.mem_append_left (',' :: decimals) mem) ?_
      rintro rfl
      rcases List.mem_cons.mp mem with same | mem
      · exact notComma same.symm
      · exact free mem
    · rintro _ ⟨⟩
      refine ⟨.inr rfl, fun c mem => digits c (by simp [mem]) ?_⟩
      rintro rfl
      exact last mem
  · refine ⟨⟨none, first :: tail, none⟩, ⟨.inl rfl, by simp, ?_, by simp⟩, rfl, ?_⟩
    · intro c mem
      refine digits c mem ?_
      rintro rfl
      rcases List.mem_cons.mp mem with same | mem
      · exact notComma same.symm
      · exact comma mem
    · simp [PlainNumber.text, PlainNumber.magnitudeText, PlainNumber.fractionText]

/-- What is read as a number has only digits: a literal has neither sign nor word nor exponent. -/
theorem Lexeme.WellFormed.isDigit_of_readComma? (h : (Lexeme.number raw).WellFormed) {x : Float}
    (read : readComma? raw.toList = some x) : ∀ c ∈ raw.toList, c ≠ ',' → c.isDigit = true := by
  obtain ⟨first, tail, text, numeric, -⟩ := id h
  have notComma : first ≠ ',' := ne_of_isNumeric numeric (by decide)
  have dotted : (raw.toList.map fun c => if c = ',' then '.' else c) =
      first :: tail.map fun c => if c = ',' then '.' else c := by
    rw [text, List.map_cons, if_neg notComma]
  rw [readComma?, read?, dotted, splitSign_of_isNumeric numeric] at read
  simp only [word?_cons (isAlpha_of_isNumeric numeric), Option.none_or, Option.map_map,
    Option.map_eq_some_iff] at read
  obtain ⟨m, numeral, -⟩ := read
  rw [← dotted] at numeral
  have noMark : ∀ c ∈ raw.toList, c ≠ 'e' ∧ c ≠ 'E' := by
    intro c mem
    constructor
    · rintro rfl
      simpa using h.isDigit_or_comma mem (by decide)
    · rintro rfl
      simpa using h.isDigit_or_comma mem (by decide)
  have digits := isDigit_of_ofChars? numeral fun c mem => by
    obtain ⟨d, inside, rfl⟩ := List.mem_map.mp mem
    split
    · decide
    · exact noMark d inside
  intro c mem other
  rcases digits c (List.mem_map.mpr ⟨c, mem, if_neg other⟩) with rfl | digit
  · simpa using h.isDigit_or_comma mem (by decide)
  · exact digit

/-! ## The values of literals -/

/-- A literal has a value if and only if it has no other numeric characters than digits. -/
theorem literalValue_eq_ok_iff (h : (Lexeme.number raw).WellFormed) :
    (∃ v, literalValue raw position = .ok v) ↔
      ∀ c ∈ raw.toList, c ≠ ',' → c.isDigit = true := by
  unfold literalValue
  constructor
  · rintro ⟨v, done⟩
    split at done
    · next x read => exact h.isDigit_of_readComma? read
    · cases done
  · intro digits
    obtain ⟨n, wellFormed, -, text⟩ := h.exists_plainNumber digits
    rw [← text, wellFormed.readComma?_text]
    exact ⟨_, rfl⟩

/-- It is the number that its text with a point for the comma is read as, and never NaN. -/
theorem exists_of_literalValue (h : (Lexeme.number raw).WellFormed) {v : Value}
    (done : literalValue raw position = .ok v) : ∃ x, v = .number x ∧
      read? (raw.toList.map fun c => if c = ',' then '.' else c) = some x ∧ x.isNaN = false := by
  obtain ⟨n, wellFormed, -, text⟩ := h.exists_plainNumber ((literalValue_eq_ok_iff h).mp ⟨v, done⟩)
  have read := wellFormed.readComma?_text
  rw [text] at read
  rw [literalValue, read] at done
  cases done
  exact ⟨n.value, rfl, read, n.isNaN_value⟩

/-- A literal needs one level to be evaluated to its value. -/
theorem Expr.value_number (bindings : Bindings σ) (limit : Nat) (host : σ) :
    (Expr.number raw position).value bindings limit host =
      if 0 < limit then (literalValue raw position, host)
      else (.error (.nestingTooDeep limit position), host) := by
  by_cases room : 0 < limit
  · have run : ((Expr.number raw position).eval bindings limit).run ⟨0, host⟩ =
        (literalValue raw position, ⟨0, host⟩) := by
      rw [Expr.eval_number, Evaluation.run_nested, if_pos room, run_ofExcept]
      rfl
    simp only [value, run, if_pos room]
  · have run : ((Expr.number raw position).eval bindings limit).run ⟨0, host⟩ =
        (.error (.nestingTooDeep limit position), ⟨0, host⟩) := by
      rw [Expr.eval_number, Evaluation.run_nested, if_neg room]
    simp only [value, run, if_neg room]

end Literal

/-! ## The literals of a tree -/

/-- The text and the place of a token that is a number. -/
def Token.number? : Token → Option (String × Nat)
  | ⟨.number text, position⟩ => some (text, position)
  | _ => none

mutual

/-- The number literals of a tree, from left to right. -/
def Expr.numberLiterals : Expr → List (String × Nat)
  | .number text position => [(text, position)]
  | .string .. | .reference .. => []
  | .unary _ operand _ => operand.numberLiterals
  | .binary _ left right _ => left.numberLiterals ++ right.numberLiterals
  | .call _ arguments _ => Expr.numberLiteralsAll arguments

/-- The number literals of the trees of a list. -/
def Expr.numberLiteralsAll : List Expr → List (String × Nat)
  | [] => []
  | e :: others => e.numberLiterals ++ Expr.numberLiteralsAll others

end

/-- The number literals of operators with their right operands. -/
def Link.numberLiterals (links : List Link) : List (String × Nat) :=
  links.flatMap fun link => link.right.numberLiterals

theorem Chain.numberLiterals_toExpr (links : List Link) (head : Expr) :
    (Chain.mk head links).toExpr.numberLiterals =
      head.numberLiterals ++ Link.numberLiterals links := by
  induction links generalizing head with
  | nil => simp [Chain.toExpr, Link.numberLiterals]
  | cons link links ih =>
    have grouped := ih (.binary link.op head link.right link.position)
    simpa [Chain.toExpr, Link.numberLiterals, Expr.numberLiterals] using grouped

section Tokens

variable (position : Nat) (ts : List Token)

@[simp]
theorem Token.filterMap_number?_symbol (s : Symbol) :
    List.filterMap number? (⟨.symbol s, position⟩ :: ts) = ts.filterMap number? :=
  rfl

@[simp]
theorem Token.filterMap_number?_identifier (name : String) :
    List.filterMap number? (⟨.identifier name, position⟩ :: ts) = ts.filterMap number? :=
  rfl

end Tokens

mutual

/-- The literals of a tree are the number tokens that it was read from. -/
theorem Derivation.numberLiterals_tree : ∀ {n : Nat} (d : Derivation n),
    d.tree.numberLiterals = d.tokens.filterMap Token.number?
  | _, .chain _ first rest => by
    rw [Derivation.tree, Derivation.tokens, Chain.numberLiterals_toExpr,
      first.numberLiterals_tree, rest.numberLiterals_links, List.filterMap_append]
  | _, .unsigned operand => operand.numberLiterals_tree
  | _, .signed sign position operand => operand.numberLiterals_tree
  | _, .number .. | _, .string .. | _, .reference .. | _, .emptyCall .. => rfl
  | _, .group opening inner closing => by
    simp [Derivation.tree, Derivation.tokens, inner.numberLiterals_tree, List.filterMap_append]
  | _, .call name position opening arguments closing => by
    simp [Derivation.tree, Derivation.tokens, Expr.numberLiterals,
      arguments.numberLiterals_trees]

theorem Repetition.numberLiterals_links : ∀ {n : Nat} (s : Repetition n),
    Link.numberLiterals s.links = s.tokens.filterMap Token.number?
  | _, .nil => rfl
  | _, .cons op _ position operand rest => by
    have others := rest.numberLiterals_links
    rw [Link.numberLiterals] at others
    simp [Repetition.links, Repetition.tokens, Link.numberLiterals, operand.numberLiterals_tree,
      others]

theorem ArgumentList.numberLiterals_trees : ∀ l : ArgumentList,
    Expr.numberLiteralsAll l.trees = l.tokens.filterMap Token.number?
  | .single argument => by
    simp [ArgumentList.trees, ArgumentList.tokens, Expr.numberLiteralsAll,
      argument.numberLiterals_tree]
  | .cons argument separator rest => by
    simp [ArgumentList.trees, ArgumentList.tokens, Expr.numberLiteralsAll,
      argument.numberLiterals_tree, rest.numberLiterals_trees]

end

/-! ## The lexer and evaluation -/

/-- The lexer and evaluation agree on number literals. Every number token is made of numeric
characters with at most one comma after the first, and has no ASCII character but digits and the
comma. It has a value if and only if it has no other numeric characters either: the number that its
text with a point for the comma is read as, which is not NaN. Otherwise the error has its text and
its place. The literals of the tree are these tokens. -/
theorem literalValue_of_tokenize {text : String} {ts : List Token} (read : tokenize text = .ok ts) :
    (∀ raw position, ⟨.number raw, position⟩ ∈ ts →
      (∃ c tail, raw.toList = c :: tail ∧ isNumeric c = true ∧
        (∀ d ∈ tail, isNumeric d = true ∨ d = ',') ∧ tail.count ',' ≤ 1) ∧
      (∀ c ∈ raw.toList, c.toNat < 128 → c.isDigit = true ∨ c = ',') ∧
      ((∃ v, literalValue raw position = .ok v) ↔
        ∀ c ∈ raw.toList, c ≠ ',' → c.isDigit = true) ∧
      (∀ v, literalValue raw position = .ok v → ∃ x, v = .number x ∧
        read? (raw.toList.map fun c => if c = ',' then '.' else c) = some x ∧
        x.isNaN = false) ∧
      (∀ e, literalValue raw position = .error e → e = .invalidNumber raw position) ∧
      ∀ {σ : Type} (bindings : Bindings σ) (limit : Nat) (host : σ),
        (Expr.number raw position).value bindings limit host =
          if 0 < limit then (literalValue raw position, host)
          else (.error (.nestingTooDeep limit position), host)) ∧
    ∀ limit e, Expr.ofString text limit = .ok e →
      e.numberLiterals = ts.filterMap Token.number? := by
  constructor
  · intro raw position mem
    have wellFormed : (Lexeme.number raw).WellFormed := by
      obtain ⟨inner, rfl, wellFormed⟩ := exists_inner_of_tokenize read
      rcases List.mem_append.mp mem with mem | last
      · exact wellFormed _ mem
      · cases List.mem_singleton.mp last
    exact ⟨wellFormed, fun c => wellFormed.isDigit_or_comma, literalValue_eq_ok_iff wellFormed,
      fun v => exists_of_literalValue wellFormed, fun e => literalValue_eq_error,
      fun bindings limit host => Expr.value_number bindings limit host⟩
  · intro limit e parsed
    obtain ⟨d, derived, -, rfl⟩ := Expr.ofString_eq_ok_iff.mp parsed
    obtain rfl := Except.ok.inj (read.symm.trans derived)
    rw [d.numberLiterals_tree, List.filterMap_append]
    simp [Token.ending, Token.number?]

/-- A literal of digits has a value, even with a comma at its end; one with a numeral of another
script has none. -/
theorem literalValue_of_tokenize_twelve :
    tokenize "12,+Ⅷ" = .ok
      [⟨.number "12,", 1⟩, ⟨.symbol .plus, 4⟩, ⟨.number "Ⅷ", 5⟩, ⟨.endOfInput, 6⟩] ∧
    (∃ x, literalValue "12," 1 = .ok (.number x) ∧ x.isNaN = false) ∧
    literalValue "Ⅷ" 5 = .error (.invalidNumber "Ⅷ" 5) ∧
    ∃ e, Expr.ofString "12,+Ⅷ" 2 = .ok e ∧ e.numberLiterals = [("12,", 1), ("Ⅷ", 5)] := by
  have read : tokenize "12,+Ⅷ" = .ok
      [⟨.number "12,", 1⟩, ⟨.symbol .plus, 4⟩, ⟨.number "Ⅷ", 5⟩, ⟨.endOfInput, 6⟩] := by cbv
  have parsed : Expr.ofString "12,+Ⅷ" 2 =
      .ok (.binary (.arithmetic .add) (.number "12," 1) (.number "Ⅷ" 5) 4) := by cbv
  obtain ⟨values, literals⟩ := literalValue_of_tokenize read
  obtain ⟨-, -, twelve, number, -⟩ := values "12," 1 (by simp)
  obtain ⟨-, -, eight, -, error, -⟩ := values "Ⅷ" 5 (by simp)
  refine ⟨read, ?_, ?_, _, parsed, literals 2 _ parsed⟩
  · obtain ⟨v, done⟩ := twelve.mpr (by simp)
    obtain ⟨x, rfl, -, proper⟩ := number v done
    exact ⟨x, done, proper⟩
  · cases done : literalValue "Ⅷ" 5 with
    | ok v =>
      have digit : 'Ⅷ'.isDigit = true := eight.mp ⟨v, done⟩ 'Ⅷ' (by simp) (by decide)
      exact absurd digit (by decide)
    | error e => rw [error e done]

end SheetFormula
