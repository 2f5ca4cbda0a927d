import Mathlib.Data.List.TakeWhile
import SheetFormula.Json.Number
import SheetFormula.Proofs.Lexer.Characters

/-!
# How numbers are written in JSON

A JSON number has an optional minus, a whole part without needless zeros, and optionally a fraction
and an exponent. `Json.NumberText` has these parts, `Json.NumberText.WellFormed` says which of them
can be written, and `Json.NumberText.text` is how.

Such a text is read as a whole where no character follows that could go on a number
(`Json.NumberText.readNumber?_append`), and nothing else is read
(`Json.NumberText.exists_of_readNumber?`). It has no value if it is beyond the range of doubles
(`Json.NumberText.value?`), and then it is not read either. So the first of these is an equation
between two values that may be missing.

Reading has a function for each part, and each of them has two lemmas: one that the part is read
where it is written and does not go on (`Json.fractionPart?_append`, `Json.exponentPart?_append`),
and one that what it reads is written so (`Json.exists_of_fractionPart?`,
`Json.exists_of_exponentPart?`). A part may go on with fewer characters than a number may, so that
a number ends at the end of the text or before a character of `Json.continuesNumber` is not what
each part asks for; `Json.endsRun_of_continuesNumber` is the step from the one to the other.

What double the digits stand for plays no role here: reading and `Json.NumberText.magnitude?` take
in the same digits by the same function.
-/

namespace SheetFormula.Json

/-- The exponent of a number. -/
structure ExponentText where
  mark : Char
  sign : Option Char
  digits : List Char

/-- A number in its parts; without digits there is no fraction. -/
structure NumberText where
  negative : Bool
  whole : List Char
  fraction : List Char
  exponent : Option ExponentText

namespace ExponentText

/-- The exponents that can be written. -/
structure WellFormed (e : ExponentText) : Prop where
  mark_eq : e.mark = 'e' ∨ e.mark = 'E'
  sign_eq : e.sign = none ∨ e.sign = some '+' ∨ e.sign = some '-'
  digits_ne_nil : e.digits ≠ []
  isDigit : ∀ c ∈ e.digits, c.isDigit = true

/-- How an exponent is written. -/
def text (e : ExponentText) : List Char :=
  e.mark :: (e.sign.toList ++ e.digits)

/-- The number that an exponent is. -/
def value (e : ExponentText) : Int :=
  let size : Int := Number.wholeNumber 0 e.digits
  if e.sign = some '-' then -size else size

end ExponentText

/-- A fraction with the point before it. -/
def fractionText (digits : List Char) : List Char :=
  if digits = [] then [] else '.' :: digits

/-- An exponent, or nothing. -/
def exponentText : Option ExponentText → List Char
  | some e => e.text
  | none => []

/-- An exponent that is not written is zero. -/
def exponentValue : Option ExponentText → Int
  | some e => e.value
  | none => 0

namespace NumberText

/-- The numbers that can be written. -/
structure WellFormed (n : NumberText) : Prop where
  whole_ne_nil : n.whole ≠ []
  isDigit_whole : ∀ c ∈ n.whole, c.isDigit = true
  no_leading_zero : n.whole.head? = some '0' → n.whole = ['0']
  isDigit_fraction : ∀ c ∈ n.fraction, c.isDigit = true
  exponent_wellFormed : ∀ e, n.exponent = some e → e.WellFormed

/-- How a number is written without its sign. -/
def magnitudeText (n : NumberText) : List Char :=
  n.whole ++ (fractionText n.fraction ++ exponentText n.exponent)

/-- How a number is written. -/
def text (n : NumberText) : List Char :=
  (if n.negative then ['-'] else []) ++ n.magnitudeText

/-- The double for a number without its sign, none if it is too large. -/
def magnitude? (n : NumberText) : Option Float :=
  let (leading, dropped) := absorb 0 n.whole
  let (significand, ignored) := absorb leading n.fraction
  let point : Int := dropped.length - (n.fraction.length - ignored.length : Nat)
  scale? significand (point + exponentValue n.exponent)

/-- The double for a number, none if it is too large. -/
def value? (n : NumberText) : Option Float :=
  n.magnitude?.map fun x => if n.negative then -x else x

end NumberText

/-- The characters that may go on a number. -/
def continuesNumber (c : Char) : Bool :=
  c.isDigit || c == '.' || c == 'e' || c == 'E'

/-! ## Reading the parts of a number -/

section Parts

variable {text rest digits : List Char}

/-- A run of a class of characters that may go on a number ends where the number does. -/
theorem endsRun_of_continuesNumber {p : Char → Bool} (ends : EndsRun continuesNumber rest)
    (smaller : ∀ c, p c = true → continuesNumber c = true) : EndsRun p rest := by
  intro c mem
  have no := ends c mem
  refine Bool.eq_false_iff.mpr fun h => ?_
  rw [smaller c h] at no
  cases no

theorem span_isDigit_append (isDigit : ∀ c ∈ digits, c.isDigit = true)
    (ends : EndsRun Char.isDigit rest) :
    (digits ++ rest).takeWhile Char.isDigit = digits ∧
      (digits ++ rest).dropWhile Char.isDigit = rest := by
  rw [ends.takeWhile_append isDigit, List.dropWhile_append_of_pos isDigit, ends.dropWhile_eq_self]
  exact ⟨rfl, rfl⟩

theorem fractionPart?_append (isDigit : ∀ c ∈ digits, c.isDigit = true)
    (ends : EndsRun (fun c => c.isDigit || c == '.') rest) :
    fractionPart? (fractionText digits ++ rest) = some (digits, rest) := by
  unfold fractionText
  split
  · next none =>
    subst none
    rw [List.nil_append, fractionPart?]
    rintro after rfl
    exact absurd (ends '.' rfl) (by decide)
  · next nonempty =>
    have ends : EndsRun Char.isDigit rest := by
      intro c mem
      simpa using (Bool.or_eq_false_iff.mp (ends c mem)).1
    obtain ⟨run, after⟩ := span_isDigit_append isDigit ends
    rw [List.cons_append, fractionPart?, run, after, if_neg]
    simpa using nonempty

theorem exists_of_fractionPart? (h : fractionPart? text = some (digits, rest)) :
    text = fractionText digits ++ rest ∧ ∀ c ∈ digits, c.isDigit = true := by
  unfold fractionPart? at h
  split at h
  · next after =>
    split at h
    · cases h
    · next nonempty =>
      cases h
      rw [fractionText, if_neg (by simpa using nonempty), List.cons_append,
        List.takeWhile_append_dropWhile]
      exact ⟨rfl, fun c mem => List.mem_takeWhile_imp mem⟩
  · cases h
    exact ⟨rfl, by simp⟩

theorem splitSign_append {sign : Option Char}
    (known : sign = none ∨ sign = some '+' ∨ sign = some '-')
    (isDigit : ∀ c ∈ digits, c.isDigit = true) (nonempty : digits ≠ []) (rest : List Char) :
    Number.splitSign (sign.toList ++ (digits ++ rest)) =
      (decide (sign = some '-'), digits ++ rest) := by
  rcases known with rfl | rfl | rfl
  · obtain ⟨d, others, rfl⟩ := List.exists_cons_of_ne_nil nonempty
    have first := isDigit d List.mem_cons_self
    simp only [Option.toList_none, List.nil_append, List.cons_append]
    unfold Number.splitSign
    split
    · next equal =>
      cases equal
      exact absurd first (by decide)
    · next equal =>
      cases equal
      exact absurd first (by decide)
    · rfl
  · rfl
  · rfl

theorem exists_sign (text : List Char) : ∃ sign : Option Char,
    text = sign.toList ++ (Number.splitSign text).2 ∧
      (Number.splitSign text).1 = decide (sign = some '-') ∧
      (sign = none ∨ sign = some '+' ∨ sign = some '-') := by
  unfold Number.splitSign
  split
  · exact ⟨some '-', rfl, rfl, by simp⟩
  · exact ⟨some '+', rfl, rfl, by simp⟩
  · exact ⟨none, rfl, rfl, by simp⟩

theorem exponentPart?_append {exponent : Option ExponentText}
    (wellFormed : ∀ e, exponent = some e → e.WellFormed)
    (ends : EndsRun (fun c => c.isDigit || c == 'e' || c == 'E') rest) :
    exponentPart? (exponentText exponent ++ rest) = some (exponentValue exponent, rest) := by
  cases exponent with
  | none =>
    cases rest with
    | nil => rfl
    | cons c rest =>
      have no := ends c rfl
      simp only [Bool.or_eq_false_iff, beq_eq_false_iff_ne] at no
      simp [exponentText, exponentPart?, exponentValue, no]
  | some e =>
    have wellFormed := wellFormed e rfl
    have ends : EndsRun Char.isDigit rest := by
      intro c mem
      have no := ends c mem
      simp only [Bool.or_eq_false_iff] at no
      exact no.1.1
    obtain ⟨run, after⟩ := span_isDigit_append wellFormed.isDigit ends
    have sign :=
      splitSign_append wellFormed.sign_eq wellFormed.isDigit wellFormed.digits_ne_nil rest
    simp [exponentText, ExponentText.text, exponentPart?, exponentValue, ExponentText.value,
      wellFormed.mark_eq, wellFormed.digits_ne_nil, sign, run, after]

theorem exists_of_exponentPart? {value : Int} (h : exponentPart? text = some (value, rest)) :
    ∃ exponent, (∀ e, exponent = some e → e.WellFormed) ∧ text = exponentText exponent ++ rest ∧
      value = exponentValue exponent := by
  unfold exponentPart? at h
  split at h
  · next mark after =>
    split at h
    · next marked =>
      dsimp only at h
      split at h
      · cases h
      · next nonempty =>
        cases h
        obtain ⟨sign, hafter, negative, known⟩ := exists_sign after
        refine ⟨some ⟨mark, sign, (Number.splitSign after).2.takeWhile Char.isDigit⟩, ?_, ?_, ?_⟩
        · rintro e ⟨⟩
          exact ⟨marked, known, by simpa using nonempty, fun c mem => List.mem_takeWhile_imp mem⟩
        · simp [exponentText, ExponentText.text, List.takeWhile_append_dropWhile, ← hafter]
        · simp [exponentValue, ExponentText.value, negative]
    · cases h
      exact ⟨none, by simp, rfl, rfl⟩
  · cases h
    exact ⟨none, by simp, rfl, rfl⟩

end Parts

/-! ## Reading a number -/

namespace NumberText

variable {n : NumberText} {text rest : List Char}

/-- The sign apart, a number that is written is read where it ends. -/
theorem readMagnitude?_append (wellFormed : n.WellFormed) (ends : EndsRun continuesNumber rest) :
    readMagnitude? (n.magnitudeText ++ rest) = n.magnitude?.map fun x => (x, rest) := by
  have exponentEnds : EndsRun (fun c => c.isDigit || c == 'e' || c == 'E') rest :=
    endsRun_of_continuesNumber ends fun c h => by grind [continuesNumber]
  have fractionEnds :
        EndsRun (fun c => c.isDigit || c == '.') (exponentText n.exponent ++ rest) := by
    cases hexponent : n.exponent with
    | none => exact endsRun_of_continuesNumber ends fun c h => by grind [continuesNumber]
    | some e =>
      rintro c ⟨⟩
      rcases (wellFormed.exponent_wellFormed e hexponent).mark_eq with mark | mark <;>
        simp [mark]
  have wholeEnds : EndsRun Char.isDigit
      (fractionText n.fraction ++ (exponentText n.exponent ++ rest)) := by
    unfold fractionText
    split
    · intro c mem
      exact (Bool.or_eq_false_iff.mp (fractionEnds c mem)).1
    · rintro c ⟨⟩
      rfl
  obtain ⟨run, after⟩ := span_isDigit_append wellFormed.isDigit_whole wholeEnds
  have fraction := fractionPart?_append wellFormed.isDigit_fraction fractionEnds
  have exponent := exponentPart?_append wellFormed.exponent_wellFormed exponentEnds
  have whole : ¬(n.whole.isEmpty = true ∨ n.whole.head? = some '0' ∧ n.whole ≠ ['0']) := by
    rintro (none | ⟨zero, more⟩)
    · exact wellFormed.whole_ne_nil (List.isEmpty_iff.mp none)
    · exact more (wellFormed.no_leading_zero zero)
  simp only [readMagnitude?, magnitudeText, List.append_assoc, run, after, if_neg whole, fraction,
    exponent, magnitude?, Option.bind_eq_bind, Option.bind_some]
  exact Option.map_eq_bind.symm

/-- A number that is written is read where it ends, if it is within the range of doubles. -/
theorem readNumber?_append (wellFormed : n.WellFormed) (ends : EndsRun continuesNumber rest) :
    readNumber? (n.text ++ rest) = n.value?.map fun x => (x, rest) := by
  have read := readMagnitude?_append wellFormed ends
  unfold text value?
  cases n.negative with
  | true => simp [readNumber?, read, Function.comp_def]
  | false =>
    have unsigned :
        readNumber? (n.magnitudeText ++ rest) = readMagnitude? (n.magnitudeText ++ rest) := by
      obtain ⟨d, digits, hwhole⟩ := List.exists_cons_of_ne_nil wellFormed.whole_ne_nil
      have digit : d.isDigit = true := wellFormed.isDigit_whole d (hwhole ▸ List.mem_cons_self)
      rw [magnitudeText, hwhole, readNumber?]
      rintro after ⟨⟩
      exact absurd digit (by decide)
    simp [unsigned, read]

/-- Only what is written as a number is read, the sign apart. -/
theorem exists_of_readMagnitude? {x : Float} (h : readMagnitude? text = some (x, rest))
    (negative : Bool) : ∃ n : NumberText, n.WellFormed ∧ n.negative = negative ∧
      text = n.magnitudeText ++ rest ∧ n.magnitude? = some x := by
  unfold readMagnitude? at h
  dsimp only at h
  split at h
  · cases h
  · next whole =>
    obtain ⟨⟨fraction, afterFraction⟩, hfraction, read⟩ := Option.bind_eq_some_iff.mp h
    obtain ⟨⟨value, after⟩, hexponent, read⟩ := Option.bind_eq_some_iff.mp read
    obtain ⟨y, scaled, read⟩ := Option.bind_eq_some_iff.mp read
    obtain ⟨hafter, isDigit⟩ := exists_of_fractionPart? hfraction
    obtain ⟨exponent, wellFormed, hafterFraction, rfl⟩ := exists_of_exponentPart? hexponent
    cases read
    refine ⟨⟨negative, text.takeWhile Char.isDigit, fraction, exponent⟩, ?_, rfl, ?_, scaled⟩
    · refine ⟨?_, fun c mem => List.mem_takeWhile_imp mem, fun zero => ?_, isDigit, wellFormed⟩
      · exact fun none => whole (.inl (List.isEmpty_iff.mpr none))
      · exact Classical.byContradiction fun more => whole (.inr ⟨zero, more⟩)
    · rw [magnitudeText, List.append_assoc, List.append_assoc, ← hafterFraction, ← hafter,
        List.takeWhile_append_dropWhile]

/-- Only what is written as a number is read. -/
theorem exists_of_readNumber? {x : Float} (h : readNumber? text = some (x, rest)) :
    ∃ n : NumberText, n.WellFormed ∧ text = n.text ++ rest ∧ n.value? = some x := by
  unfold readNumber? at h
  split at h
  · next after =>
    obtain ⟨⟨y, after⟩, read, negated⟩ := Option.map_eq_some_iff.mp h
    obtain ⟨n, wellFormed, negative, rfl, value⟩ := exists_of_readMagnitude? read true
    cases negated
    exact ⟨n, wellFormed, by simp [NumberText.text, negative], by simp [value?, value, negative]⟩
  · obtain ⟨n, wellFormed, unsigned, rfl, value⟩ := exists_of_readMagnitude? h false
    exact ⟨n, wellFormed, by simp [NumberText.text, unsigned], by simp [value?, value, unsigned]⟩

end NumberText

end SheetFormula.Json
