import Mathlib
import SheetFormula.Proofs.Json.Numbers
import SheetFormula.Proofs.Number.NaN

/-!
# Plain decimal numbers

A plain number has an optional sign, digits, and optionally a point or a comma with more digits
after it. `PlainNumber` has these parts, `PlainNumber.WellFormed` says which can be written,
`PlainNumber.text` is how, and `PlainNumber.value` is the double.

With either separator a plain number is read as this double
(`PlainNumber.WellFormed.readComma?_text`), and the double is never NaN
(`PlainNumber.isNaN_value`). Where numbers are read every comma is first replaced by a point. A
plain number has one separator at most, so with another one it is a plain number again and of the
same value (`PlainNumber.value_withSeparator`), and it is enough to read those with a point, whose
digits are a numeral as they stand (`PlainNumber.WellFormed.ofChars?_magnitudeText`).

There are words and exponents among what is read as numbers too, but a word begins with a letter
(`word?_cons`) and a plain number with a digit or a sign. Without an `e` there is no exponent, and
then what is read has digits and a point alone (`isDigit_of_ofChars?`). The command line and the
literals of formulas read only texts of this kind, and both go through the same function.
-/

namespace SheetFormula.Number

/-! ## Numerals -/

/-- The words that stand for numbers begin with letters. -/
theorem word?_cons {c : Char} (notLetter : c.isAlpha = false) (rest : List Char) :
    word? (c :: rest) = none := by
  have lower : c.toLower.isAlpha = false := by rw [Char.isAlpha_toLower_eq_isAlpha, notLetter]
  have first {w : String} (h : String.ofList ((c :: rest).map Char.toLower) = w) :
      w.toList.head? = some c.toLower := by
    rw [← h]
    simp
  unfold word?
  split
  · next h =>
    rw [← Option.some.inj (first h)] at lower
    exact absurd lower (by decide)
  · next h =>
    rw [← Option.some.inj (first h)] at lower
    exact absurd lower (by decide)
  · next h =>
    rw [← Option.some.inj (first h)] at lower
    exact absurd lower (by decide)
  · rfl

theorem isAlpha_of_isDigit {c : Char} (digit : c.isDigit = true) : c.isAlpha = false := by
  simp only [Char.isDigit, Bool.and_eq_true, decide_eq_true_eq, ge_iff_le,
    UInt32.le_iff_toNat_le] at digit
  simp only [Char.isAlpha, Char.isUpper, Char.isLower, Bool.or_eq_false_iff,
    Bool.and_eq_false_iff, decide_eq_false_iff_not, ge_iff_le, UInt32.le_iff_toNat_le]
  simp at digit ⊢
  omega

theorem eq_nil_of_exponentPart? {text : List Char} {e : Int} (h : exponentPart? text = some e)
    (noMark : ∀ c ∈ text, c ≠ 'e' ∧ c ≠ 'E') : text = [] := by
  cases text with
  | nil => rfl
  | cons mark rest =>
    obtain ⟨small, capital⟩ := noMark mark List.mem_cons_self
    simp [exponentPart?, small, capital] at h

/-- Without a mark for an exponent a numeral has only digits and a point. -/
theorem isDigit_of_ofChars? {text : List Char} {m : Numeral} (h : Numeral.ofChars? text = some m)
    (noMark : ∀ c ∈ text, c ≠ 'e' ∧ c ≠ 'E') : ∀ c ∈ text, c = '.' ∨ c.isDigit = true := by
  have split := List.takeWhile_append_dropWhile (p := Char.isDigit) (l := text)
  have whole : ∀ c ∈ text.takeWhile Char.isDigit, c = '.' ∨ c.isDigit = true :=
    fun c mem => .inr (List.mem_takeWhile_imp mem)
  have marks : ∀ c ∈ text.dropWhile Char.isDigit, c ≠ 'e' ∧ c ≠ 'E' := fun c mem =>
    noMark c (List.dropWhile_subset _ mem)
  unfold Numeral.ofChars? at h
  -- What follows the digits is a point with more digits, or an exponent, for which there is no mark.
  generalize text.takeWhile Char.isDigit = run at *
  generalize text.dropWhile Char.isDigit = after at *
  rw [← split]
  suffices others : ∀ c ∈ after, c = '.' ∨ c.isDigit = true from fun c mem =>
    (List.mem_append.mp mem).elim (whole c) (others c)
  dsimp only at h
  split at h
  · next rest =>
    have inner := List.takeWhile_append_dropWhile (p := Char.isDigit) (l := rest)
    dsimp only at h
    split_ifs at h
    obtain ⟨e, last, -⟩ := Option.map_eq_some_iff.mp h
    have ended : rest.dropWhile Char.isDigit = [] := eq_nil_of_exponentPart? last fun c mem =>
      marks c (List.mem_cons_of_mem _ (List.dropWhile_subset _ mem))
    rw [ended, List.append_nil] at inner
    intro c mem
    refine (List.mem_cons.mp mem).imp_right fun mem => ?_
    rw [← inner] at mem
    exact List.mem_takeWhile_imp mem
  · dsimp only at h
    split_ifs at h
    obtain ⟨e, last, -⟩ := Option.map_eq_some_iff.mp h
    rw [eq_nil_of_exponentPart? last marks]
    exact fun c mem => absurd mem List.not_mem_nil

/-! ## Numbers in their parts -/

/-- A number in its parts, without exponent. -/
structure PlainNumber where
  sign : Option Char
  whole : List Char
  /-- The separator, with the digits after it. -/
  fraction : Option (Char × List Char)

namespace PlainNumber

/-- The numbers that can be written. Digits after the separator may be missing. -/
structure WellFormed (n : PlainNumber) : Prop where
  sign_eq : n.sign = none ∨ n.sign = some '+' ∨ n.sign = some '-'
  whole_ne_nil : n.whole ≠ []
  isDigit_whole : ∀ c ∈ n.whole, c.isDigit = true
  isDigit_fraction : ∀ p ∈ n.fraction, (p.1 = '.' ∨ p.1 = ',') ∧ ∀ c ∈ p.2, c.isDigit = true

/-- No digits are missing after the separator. -/
def Closed (n : PlainNumber) : Prop :=
  ∀ p ∈ n.fraction, p.2 ≠ []

/-- The separator with the digits after it, or nothing. -/
def fractionText : Option (Char × List Char) → List Char
  | some (separator, digits) => separator :: digits
  | none => []

/-- How a number is written without its sign. -/
def magnitudeText (n : PlainNumber) : List Char :=
  n.whole ++ fractionText n.fraction

/-- How a number is written. -/
def text (n : PlainNumber) : List Char :=
  n.sign.toList ++ n.magnitudeText

/-- The digits after the separator. -/
def decimals (n : PlainNumber) : List Char :=
  (n.fraction.map Prod.snd).getD []

/-- The number without its sign. -/
def numeral (n : PlainNumber) : Numeral :=
  ⟨wholeNumber 0 (n.whole ++ n.decimals), -n.decimals.length⟩

/-- The double for a number. -/
def value (n : PlainNumber) : Float :=
  if n.sign = some '-' then -n.numeral.toFloat else n.numeral.toFloat

/-- The number with another separator. -/
def withSeparator (n : PlainNumber) (separator : Char) : PlainNumber :=
  { n with fraction := n.fraction.map fun p => (separator, p.2) }

variable {n : PlainNumber}

theorem value_withSeparator (separator : Char) : (n.withSeparator separator).value = n.value := by
  have decimals : (n.withSeparator separator).decimals = n.decimals := by
    simp [PlainNumber.decimals, withSeparator, Function.comp_def]
  rw [value, value, numeral, numeral, decimals]
  rfl

theorem WellFormed.withSeparator (h : n.WellFormed) {separator : Char}
    (known : separator = '.' ∨ separator = ',') : (n.withSeparator separator).WellFormed := by
  refine ⟨h.sign_eq, h.whole_ne_nil, h.isDigit_whole, fun p mem => ?_⟩
  obtain ⟨q, inner, rfl⟩ := Option.map_eq_some_iff.mp mem
  exact ⟨known, (h.isDigit_fraction q inner).2⟩

theorem WellFormed.endsRun_fractionText (h : n.WellFormed) :
    EndsRun Char.isDigit (fractionText n.fraction) := by
  intro c mem
  cases hf : n.fraction with
  | none =>
    rw [hf] at mem
    cases mem
  | some p =>
    rw [hf] at mem
    cases mem
    rcases (h.isDigit_fraction p hf).1 with point | comma
    · rw [point]
      rfl
    · rw [comma]
      rfl

theorem WellFormed.isDigit_or_mem_of_mem_text (h : n.WellFormed) {c : Char} (mem : c ∈ n.text) :
    c.isDigit = true ∨ c ∈ ['+', '-', '.', ','] := by
  rcases List.mem_append.mp mem with sign | mem
  · rcases h.sign_eq with none | plus | minus
    · simp [none] at sign
    · simp_all
    · simp_all
  rcases List.mem_append.mp mem with whole | mem
  · exact .inl (h.isDigit_whole c whole)
  cases hf : n.fraction with
  | none => simp [hf, fractionText] at mem
  | some p =>
    obtain ⟨separator, digits⟩ := h.isDigit_fraction p hf
    rw [hf] at mem
    rcases List.mem_cons.mp mem with rfl | mem
    · rcases separator with point | comma
      · simp [point]
      · simp [comma]
    · exact .inl (digits c mem)

/-- A character that is neither a digit nor a sign can only be the separator. -/
theorem WellFormed.map_text (h : n.WellFormed) {old new : Char} (notDigit : old.isDigit = false)
    (notPlus : old ≠ '+') (notMinus : old ≠ '-')
    (separator : ∀ p ∈ n.fraction, p.1 = old ∨ p.1 = new) :
    n.text.map (fun c => if c = old then new else c) = (n.withSeparator new).text := by
  have digits {l : List Char} (isDigit : ∀ c ∈ l, c.isDigit = true) :
      l.map (fun c => if c = old then new else c) = l := by
    refine (List.map_congr_left fun c mem => if_neg ?_).trans l.map_id
    rintro rfl
    simp [isDigit c mem] at notDigit
  have sign : n.sign.toList.map (fun c => if c = old then new else c) = n.sign.toList := by
    rcases h.sign_eq with none | plus | minus
    · simp [none]
    · simp [plus, notPlus.symm]
    · simp [minus, notMinus.symm]
  have fraction : (fractionText n.fraction).map (fun c => if c = old then new else c) =
      fractionText (n.withSeparator new).fraction := by
    unfold PlainNumber.withSeparator
    cases hf : n.fraction with
    | none => rfl
    | some p =>
      obtain ⟨mark, decimals⟩ := p
      have mark : (if mark = old then new else mark) = new := by
        rcases separator _ hf with rfl | rfl
        · exact if_pos rfl
        · exact ite_self _
      simp [fractionText, mark, digits (h.isDigit_fraction _ hf).2]
  rw [text, magnitudeText, List.map_append, List.map_append, sign, digits h.isDigit_whole, fraction]
  rfl

/-- Numbers with a point are numerals. -/
theorem WellFormed.ofChars?_magnitudeText (h : n.WellFormed) (point : ∀ p ∈ n.fraction, p.1 = '.') :
    Numeral.ofChars? n.magnitudeText = some n.numeral := by
  have ended : EndsRun Char.isDigit [] := by simp [EndsRun]
  have run_whole := Json.span_isDigit_append h.isDigit_whole h.endsRun_fractionText
  unfold magnitudeText numeral decimals
  cases hf : n.fraction with
  | none =>
    rw [hf] at run_whole
    obtain ⟨run, after⟩ := run_whole
    simp only [Numeral.ofChars?, run, after]
    simp [fractionText, h.whole_ne_nil, exponentPart?]
  | some p =>
    obtain ⟨mark, digits⟩ := p
    obtain rfl : mark = '.' := point _ hf
    rw [hf] at run_whole
    obtain ⟨run, after⟩ := run_whole
    have decimals : ∀ c ∈ digits, c.isDigit = true := (h.isDigit_fraction _ hf).2
    obtain ⟨inner, none⟩ := Json.span_isDigit_append decimals ended
    rw [List.append_nil] at inner none
    simp only [Numeral.ofChars?, run, after]
    simp [fractionText, inner, none, h.whole_ne_nil, exponentPart?]

theorem WellFormed.exists_whole_eq_cons (h : n.WellFormed) :
    ∃ d rest, n.magnitudeText = d :: rest ∧ d.isDigit = true := by
  obtain ⟨d, others, whole⟩ := List.exists_cons_of_ne_nil h.whole_ne_nil
  refine ⟨d, others ++ fractionText n.fraction, by simp [magnitudeText, whole], ?_⟩
  exact h.isDigit_whole d (by simp [whole])

/-- A number with either separator is read as its double. -/
theorem WellFormed.readComma?_text (h : n.WellFormed) : readComma? n.text = some n.value := by
  have marks : ∀ p ∈ n.fraction, p.1 = ',' ∨ p.1 = '.' := fun p mem =>
    (h.isDigit_fraction p mem).1.symm
  have dotted : (n.withSeparator '.').WellFormed := h.withSeparator (.inl rfl)
  have magnitude := dotted.ofChars?_magnitudeText fun p mem => by
    obtain ⟨q, -, rfl⟩ := Option.map_eq_some_iff.mp mem
    rfl
  have split := Json.splitSign_append dotted.sign_eq dotted.isDigit_whole dotted.whole_ne_nil
    (fractionText (n.withSeparator '.').fraction)
  obtain ⟨d, rest, first, digit⟩ := dotted.exists_whole_eq_cons
  have noWord : word? (n.withSeparator '.').magnitudeText = none := by
    rw [first, word?_cons (isAlpha_of_isDigit digit)]
  rw [readComma?, h.map_text (by decide) (by decide) (by decide) marks, read?, text, magnitudeText]
  rw [magnitudeText] at magnitude noWord
  rw [split]
  simp only [noWord, magnitude, Option.none_or, Option.map_some]
  rw [← value_withSeparator '.', value]
  simp

theorem isNaN_value (n : PlainNumber) : n.value.isNaN = false := by
  unfold value
  split
  · rw [isNaN_neg, Numeral.isNaN_toFloat]
  · exact Numeral.isNaN_toFloat _

end PlainNumber

end SheetFormula.Number
