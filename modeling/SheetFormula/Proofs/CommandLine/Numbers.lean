import Mathlib
import SheetFormula.Proofs.CommandLine.Assignments
import SheetFormula.Proofs.Evaluation.Literals

/-!
# Numbers on the command line and in formulas

A plain number on the command line is read as a whole, with its sign and either separator. In a
formula its digits are a literal, in which a comma is the separator, and its sign is an operator.
Both ways lead to the same double (`Session.execute_plainNumber`), in every session whose limit is
at least two: one level for the sign and one for the literal.

On the command line the double is the value of the number, a `Number.PlainNumber` with its parts
(`Assignment.value_plainNumber`). Once its separator is a comma, its digits are a well-formed
number lexeme (`Number.PlainNumber.WellFormed.wellFormed_number`) with the value of the number
without its sign (`Number.PlainNumber.WellFormed.literalValue_eq`). So a formula of such a literal
is one token, and a sign before it is one more (`tokenized_number`, `tokenized_sign`); the parser
makes a literal of it, or a sign with a literal (`Expr.ofString_number`,
`Expr.ofString_signedNumber`).

What is left is that the sign of a formula does what the sign of a number does
(`Number.PlainNumber.WellFormed.execute_text`): a plus leaves the double as it is, and a minus
turns it to its negative. Exchanging a point for a comma changes no digit and hence not the double.
-/

namespace SheetFormula

open Number
open Unicode (isBlank isNumeric)

variable {σ : Type}

/-! ## Literals with a sign -/

section Literal

variable {raw : String} {limit : Nat}

/-- A literal alone is one token. -/
theorem tokenized_number (wellFormed : (Lexeme.number raw).WellFormed) (offset : Nat) :
    Tokenized offset raw.toList
      [⟨.number raw, offset + 1⟩, Token.ending (offset + raw.length + 1)] := by
  have noGap : ∀ c ∈ ([] : List Char), isBlank c = true := by simp
  have separated : Separated [] := by simp [Separated]
  have here : (Lexeme.number raw).Written raw.toList [] :=
    ⟨wellFormed, wellFormed.complete separated, .inl rfl⟩
  have after : Tokenized (offset + 0 + raw.toList.length) [] _ := .ending noGap
  have whole := Tokenized.token noGap here after
  rw [← String.length_toList]
  simpa using whole

/-- A sign before a text is one more token. -/
theorem tokenized_sign (sign : Sign) {rest : List Char} {ts : List Token}
    (others : Tokenized 1 rest ts) :
    Tokenized 0 (sign.symbol.text.toList ++ rest) (⟨.symbol sign.symbol, 1⟩ :: ts) := by
  have noGap : ∀ c ∈ ([] : List Char), isBlank c = true := by simp
  have here : (Lexeme.symbol sign.symbol).Written sign.symbol.text.toList rest := by
    refine ⟨trivial, fun mem => ?_, .inl rfl⟩
    cases sign <;> simp [Sign.symbol] at mem
  have length : sign.symbol.text.toList.length = 1 := by
    cases sign <;> rfl
  have after : Tokenized (0 + 0 + sign.symbol.text.toList.length) rest ts := by
    rwa [length]
  exact .token noGap here after

theorem Expr.ofString_number (wellFormed : (Lexeme.number raw).WellFormed) (one : 1 ≤ limit) :
    Expr.ofString raw limit = .ok (.number raw 1) := by
  obtain ⟨d, tokens, tree, depth⟩ :=
    (Derivation.unsigned (.number raw 1)).exists_looser (Nat.zero_le 5) le_rfl
  refine Expr.ofString_eq_ok_iff.mpr ⟨d, ?_, ?_, tree⟩
  · rw [tokenize_eq_ok_iff, tokens]
    simpa [Derivation.tokens] using tokenized_number wellFormed 0
  · rw [Derivation.nesting, depth]
    exact one

theorem Expr.ofString_signedNumber (sign : Sign) (wellFormed : (Lexeme.number raw).WellFormed)
    (two : 2 ≤ limit) : Expr.ofString (sign.symbol.text ++ raw) limit =
      .ok (.unary sign (.number raw 2) 1) := by
  obtain ⟨d, tokens, tree, depth⟩ :=
    (Derivation.signed sign 1 (.unsigned (.number raw 2))).exists_looser (Nat.zero_le 5) le_rfl
  have length : sign.symbol.text.length = 1 := by
    cases sign <;> rfl
  refine Expr.ofString_eq_ok_iff.mpr ⟨d, ?_, ?_, tree⟩
  · rw [tokenize_eq_ok_iff, tokens]
    simpa [Derivation.tokens, length] using tokenized_sign sign (tokenized_number wellFormed 1)
  · rw [Derivation.nesting, depth]
    exact two

/-- A sign needs one level more than its operand. -/
theorem Expr.value_signedNumber (sign : Sign) {position place : Nat} {v : Value}
    (literal : literalValue raw position = .ok v) (bindings : Bindings σ) (two : 2 ≤ limit)
    (host : σ) : (Expr.unary sign (.number raw position) place).value bindings limit host =
      (sign.apply v place, host) := by
  have reached : (Expr.unary sign (.number raw position) place).reach bindings host ≤ 2 :=
    Expr.reach_le_levels bindings _ host
  rw [Expr.value_of_reach_le (reached.trans two)]
  simp only [Expr.plainValue, Expr.plainEval, literal]
  exact run_ofExcept (sign.apply v place) host

end Literal

/-! ## Plain numbers -/

namespace Number.PlainNumber

variable {n : PlainNumber}

/-- The number without its sign. -/
def unsigned (n : PlainNumber) : PlainNumber :=
  { n with sign := none }

theorem WellFormed.unsigned (h : n.WellFormed) : n.unsigned.WellFormed where
  sign_eq := .inl rfl
  whole_ne_nil := h.whole_ne_nil
  isDigit_whole := h.isDigit_whole
  isDigit_fraction := h.isDigit_fraction

/-- With a comma, the digits of a number are a literal. -/
theorem WellFormed.wellFormed_number (h : n.WellFormed) (comma : ∀ p ∈ n.fraction, p.1 = ',') :
    (Lexeme.number (String.ofList n.magnitudeText)).WellFormed := by
  have numeric {digits : List Char} (isDigit : ∀ c ∈ digits, c.isDigit = true) :
      ∀ c ∈ digits, isNumeric c = true := fun c mem => isNumeric_of_isDigit (isDigit c mem)
  have noComma {digits : List Char} (isDigit : ∀ c ∈ digits, c.isDigit = true) :
      digits.count ',' = 0 := List.count_eq_zero.mpr fun mem => by simpa using isDigit ',' mem
  obtain ⟨d, others, whole⟩ := List.exists_cons_of_ne_nil h.whole_ne_nil
  have digits := h.isDigit_whole
  rw [whole] at digits
  obtain ⟨first, digits⟩ := List.forall_mem_cons.mp digits
  refine ⟨d, others ++ fractionText n.fraction, by simp [magnitudeText, whole],
    isNumeric_of_isDigit first, ?_, ?_⟩
  · intro c mem
    rcases List.mem_append.mp mem with mem | mem
    · exact .inl (numeric digits c mem)
    cases hf : n.fraction with
    | none => simp [hf, fractionText] at mem
    | some p =>
      rw [hf] at mem
      rcases List.mem_cons.mp mem with rfl | mem
      · exact .inr (comma p hf)
      · exact .inl (numeric (h.isDigit_fraction p hf).2 c mem)
  · rw [List.count_append, noComma digits, Nat.zero_add]
    cases hf : n.fraction with
    | none => simp [fractionText]
    | some p =>
      rw [fractionText, comma p hf, List.count_cons_self, noComma (h.isDigit_fraction p hf).2]

theorem WellFormed.literalValue_eq (h : n.WellFormed) (position : Nat) :
    literalValue (String.ofList n.magnitudeText) position = .ok (.number n.numeral.toFloat) := by
  have read := h.unsigned.readComma?_text
  have text : n.unsigned.text = n.magnitudeText := rfl
  rw [text] at read
  rw [literalValue, String.toList_ofList, read]
  rfl

/-- In a formula a number with a comma is its sign, if it has one, and a literal. Two levels are
enough for it: one for the sign, one for the literal. -/
theorem WellFormed.execute_text (h : n.WellFormed) (comma : ∀ p ∈ n.fraction, p.1 = ',')
    (s : Session σ) (two : 2 ≤ s.limit) :
    s.execute (String.ofList n.text) = (.ok (.number n.value), s) := by
  have wellFormed := h.wellFormed_number comma
  have signed (sign : Sign) (written : n.sign.toList = sign.symbol.text.toList)
      (applied : sign.apply (.number n.numeral.toFloat) 1 = .ok (.number n.value)) :
      s.execute (String.ofList n.text) = (.ok (.number n.value), s) := by
    have text : String.ofList n.text = sign.symbol.text ++ String.ofList n.magnitudeText := by
      rw [PlainNumber.text, written, String.ofList_append, String.ofList_toList]
    have parsed := Expr.ofString_signedNumber sign wellFormed two
    rw [text, s.execute_of_parse_eq_ok parsed,
      Expr.value_signedNumber sign (h.literalValue_eq 2) s.bindings two, applied]
  rcases h.sign_eq with none | plus | minus
  · have text : n.text = n.magnitudeText := by simp [PlainNumber.text, none]
    have value : n.value = n.numeral.toFloat := by simp [PlainNumber.value, none]
    have one : 0 < s.limit := Nat.le_of_succ_le two
    have parsed := Expr.ofString_number wellFormed one
    rw [text, s.execute_of_parse_eq_ok parsed, Expr.value_number, if_pos one, h.literalValue_eq,
      value]
  · have value : n.value = n.numeral.toFloat := by simp [PlainNumber.value, plus]
    rw [value] at signed ⊢
    exact signed .plus (by rw [plus]; rfl) rfl
  · have value : n.value = -n.numeral.toFloat := by simp [PlainNumber.value, minus]
    rw [value] at signed ⊢
    exact signed .minus (by rw [minus]; rfl) rfl

end Number.PlainNumber

/-- A number on the command line is the same number in a formula, where its separator has to be a
comma. -/
theorem Session.execute_plainNumber {text : List Char}
    (plain : Assignment.isPlainNumber text = true) :
    ∃ x, Assignment.value text = .number x ∧
      ∀ {σ : Type} (s : Session σ), 2 ≤ s.limit →
        s.execute (String.ofList (text.map fun c => if c = '.' then ',' else c)) =
          (.ok (.number x), s) := by
  obtain ⟨n, wellFormed, closed, rfl⟩ := Assignment.exists_of_isPlainNumber plain
  refine ⟨n.value, Assignment.value_plainNumber wellFormed closed, fun s two => ?_⟩
  have known : ∀ p ∈ n.fraction, p.1 = '.' ∨ p.1 = ',' := fun p mem =>
    (wellFormed.isDigit_fraction p mem).1
  have comma : ∀ p ∈ (n.withSeparator ',').fraction, p.1 = ',' := fun p mem => by
    obtain ⟨q, -, rfl⟩ := Option.map_eq_some_iff.mp mem
    rfl
  have commas : (n.withSeparator ',').WellFormed := wellFormed.withSeparator (.inr rfl)
  rw [wellFormed.map_text (by decide) (by decide) (by decide) known,
    commas.execute_text comma s two, n.value_withSeparator]

/-- A point on the command line, a comma in the formula. -/
theorem Session.execute_plainNumber_negativeDecimal :
    Assignment.isPlainNumber "-007.50".toList = true ∧
      2 ≤ (Session.new defaultLimit ()).limit ∧
      ∃ x, Assignment.value "-007.50".toList = .number x ∧
        (Session.new defaultLimit ()).execute "-007,50" =
          (.ok (.number x), Session.new defaultLimit ()) := by
  have plain : Assignment.isPlainNumber "-007.50".toList = true := by decide
  have two : 2 ≤ (Session.new defaultLimit ()).limit := by decide
  obtain ⟨x, value, execute⟩ := execute_plainNumber plain
  exact ⟨plain, two, x, value, execute _ two⟩

end SheetFormula
