import SheetFormula.Proofs.Json.Numbers
import SheetFormula.Proofs.Json.Range
import SheetFormula.Proofs.Number.Shortest
import SheetFormula.Value.Json

/-!
# The JSON text of a double

The text of a finite double is a number of the JSON format (`Json.text_decimalNumber`) and has a
value (`Json.exists_numberText`). The value need not be the same double, because the reader does
not round to the nearest. For that reason it needs an argument that there is a value at all:
rounding could have carried it beyond the largest double.

The text is the shortest decimal of the double, set out in the parts of a number
(`Json.decimalNumber`). Setting it out does not change the number that it is
(`Json.magnitudeValue_decimalNumber`), and the shortest decimal is at most the half-way point to
the next double (`Number.Magnitude.value_shortest_le`). For every double but the largest this
half-way point is within the bound of `SheetFormula.Proofs.Json.Range`
(`Json.halfway_le_rangeBound`); the largest one is read by computation.

A number within this bound has a value (`Json.isSome_magnitude?`). The reader takes in digits only
as long as the significand is small enough, so this has a part about digits: those of the whole
part are few enough to be taken in (`Json.absorb_of_few`), and leaving out digits of the fraction
makes the number no larger (`Json.absorb_le`).
-/

namespace SheetFormula.Json

open Number

/-- A decimal in the parts of a JSON number, set out like the text of a value. -/
def decimalNumber (negative : Bool) (d : Decimal) : NumberText :=
  if Value.jsonNumberLayout.positional (d.point - 1) then
    if d.point ≤ 0 then
      ⟨negative, ['0'], List.replicate (-d.point).toNat '0' ++ d.digits, none⟩
    else if d.digits.length ≤ d.point then
      ⟨negative, d.digits ++ List.replicate (d.point.toNat - d.digits.length) '0', ['0'], none⟩
    else ⟨negative, d.digits.take d.point.toNat, d.digits.drop d.point.toNat, none⟩
  else
    ⟨negative, d.digits.take 1, d.digits.drop 1,
      some ⟨'e', some (if d.point - 1 < 0 then '-' else '+'),
        Nat.toDigits 10 (d.point - 1).natAbs⟩⟩

section

variable {d : Decimal} (negative : Bool)

theorem text_decimalNumber (wellFormed : d.WellFormed) :
    (decimalNumber negative d).text =
      ((if negative then "-" else "") ++ Value.jsonNumberLayout.decimalText d).toList := by
  have sign :
      (if negative then "-" else "" : String).toList = if negative then ['-'] else [] := by
    cases negative <;> rfl
  rw [String.toList_append, sign, Layout.decimalText]
  unfold decimalNumber NumberText.text NumberText.magnitudeText fractionText exponentText
  split
  · unfold Layout.positionalText
    split
    · simp [wellFormed.digits_ne_nil]
    · split
      · simp [Value.jsonNumberLayout]
      · next short =>
        have : d.digits.drop d.point.toNat ≠ [] := by
          simp
          omega
        simp [this]
  · unfold Layout.exponentText
    by_cases single : d.digits.tail = [] <;> by_cases below : d.point < 1 <;>
      simp [ExponentText.text, Value.jsonNumberLayout, single, below]

theorem wellFormed_decimalNumber (wellFormed : d.WellFormed) :
    (decimalNumber negative d).WellFormed := by
  obtain ⟨nonempty, isDigit, eq_zero⟩ := wellFormed
  have zero : ('0' : Char).isDigit = true := by decide
  have isDigit_zeros (n : Nat) : ∀ c ∈ List.replicate n '0', c.isDigit = true := fun c mem =>
    (List.eq_of_mem_replicate mem).symm ▸ zero
  unfold decimalNumber
  split
  · split
    · exact ⟨List.cons_ne_nil _ _, by simp [zero], fun _ => rfl,
        List.forall_mem_append.mpr ⟨isDigit_zeros _, isDigit⟩, by simp⟩
    · split
      · refine ⟨by simp [nonempty], List.forall_mem_append.mpr ⟨isDigit, isDigit_zeros _⟩,
          fun first => ?_, by simp [zero], by simp⟩
        rw [List.head?_append_of_ne_nil _ nonempty] at first
        rw [eq_zero first]
        rfl
      · next point short =>
        have some : d.point.toNat ≠ 0 := by omega
        refine ⟨by simp [nonempty, some], fun c mem => isDigit c (List.mem_of_mem_take mem),
          fun first => ?_, fun c mem => isDigit c (List.mem_of_mem_drop mem), by simp⟩
        rw [List.head?_take, if_neg some] at first
        exact absurd (by rw [eq_zero first]; decide) short
  · refine ⟨by simp [nonempty], fun c mem => isDigit c (List.mem_of_mem_take mem), fun first => ?_,
      fun c mem => isDigit c (List.mem_of_mem_drop mem), ?_⟩
    · rw [List.head?_take, if_neg Nat.one_ne_zero] at first
      rw [eq_zero first]
      rfl
    · rintro e ⟨⟩
      refine ⟨.inl rfl, ?_, Nat.toDigits_ne_nil, fun c mem =>
        Nat.isDigit_of_mem_toDigits (by norm_num) (by norm_num) mem⟩
      split <;> simp

end

/-! ## The text of a finite double has a value -/

theorem wholeNumber_eq (s : Nat) (digits : List Char) :
    wholeNumber s digits = 10 ^ digits.length * s + wholeNumber 0 digits :=
  Nat.ofDigitChars_eq_ofDigitChars_zero

theorem absorb_cons (s : Nat) (d : Char) (digits : List Char) :
    absorb s (d :: digits) =
      if 10 * s + (d.toNat - '0'.toNat) ≤ significandLimit then
        absorb (10 * s + (d.toNat - '0'.toNat)) digits
      else (s, d :: digits) :=
  rfl

/-- Digits that are left over from the limit of significands only move the decimal point. -/
theorem absorb_le {s : Nat} (digits : List Char) (small : s ≤ significandLimit) :
    (absorb s digits).1 ≤ significandLimit ∧
      (absorb s digits).1 * 10 ^ (absorb s digits).2.length ≤ wholeNumber s digits := by
  induction digits generalizing s with
  | nil => simpa [absorb, wholeNumber] using small
  | cons d digits ih =>
    rw [absorb_cons]
    split
    · next fits => exact ih fits
    · refine ⟨small, ?_⟩
      rw [wholeNumber_eq, Nat.mul_comm]
      exact Nat.le_add_right _ _

theorem digit_le {c : Char} (h : c.isDigit = true) : c.toNat - '0'.toNat ≤ 9 := by
  simp only [Char.isDigit, Bool.and_eq_true, decide_eq_true_eq, ge_iff_le,
    UInt32.le_iff_toNat_le] at h
  have := h.2
  change c.val.toNat - 48 ≤ 9
  change c.val.toNat ≤ 57 at this
  omega

theorem length_absorb_le (s : Nat) (digits : List Char) :
    (absorb s digits).2.length ≤ digits.length := by
  induction digits generalizing s with
  | nil => exact Nat.le_refl _
  | cons d digits ih =>
    rw [absorb_cons]
    split
    · exact Nat.le_succ_of_le (ih _)
    · exact Nat.le_refl _

/-- A few digits are all absorbed. -/
theorem absorb_of_few {s : Nat} {digits : List Char} (isDigit : ∀ c ∈ digits, c.isDigit = true)
    (few : (s + 1) * 10 ^ digits.length ≤ significandLimit) :
    (absorb s digits).2 = [] ∧ (absorb s digits).1 + 1 ≤ (s + 1) * 10 ^ digits.length := by
  induction digits generalizing s with
  | nil => simp [absorb]
  | cons d digits ih =>
    obtain ⟨isDigit, others⟩ := List.forall_mem_cons.mp isDigit
    have digit := digit_le isDigit
    rw [List.length_cons, Nat.pow_succ', ← Nat.mul_assoc] at few ⊢
    have longer : 10 * s + (d.toNat - '0'.toNat) + 1 ≤ (s + 1) * 10 := by omega
    have scaled := Nat.mul_le_mul_right (10 ^ digits.length) longer
    have one : (s + 1) * 10 ≤ (s + 1) * 10 * 10 ^ digits.length :=
      Nat.le_mul_of_pos_right _ (Nat.pow_pos (by norm_num))
    rw [absorb_cons, if_pos (by omega)]
    obtain ⟨none, le⟩ := ih others (scaled.trans few)
    exact ⟨none, le.trans scaled⟩

theorem wholeNumber_append (s : Nat) (digits others : List Char) :
    wholeNumber s (digits ++ others) = wholeNumber (wholeNumber s digits) others :=
  Nat.ofDigitChars_append s

theorem wholeNumber_replicate_zero (s n : Nat) :
    wholeNumber s (List.replicate n '0') = 10 ^ n * s :=
  Nat.ofDigitChars_replicate_zero

/-- The number that is written, without its sign. -/
def NumberText.magnitudeValue (n : NumberText) : ℚ :=
  wholeNumber 0 (n.whole ++ n.fraction) * 10 ^ (exponentValue n.exponent - n.fraction.length)

/-- A number up to the bound has a double. Its whole part is kept exactly; of the fraction as much
is kept as fits, so that the decimal that is scaled is no larger. -/
theorem isSome_magnitude? {n : NumberText} (wellFormed : n.WellFormed)
    (few : n.whole.length ≤ 17) (le : n.magnitudeValue ≤ rangeBound) :
    n.magnitude?.isSome = true := by
  have room : (0 + 1) * 10 ^ n.whole.length ≤ significandLimit := by
    refine Nat.le_trans ?_ (by decide : 10 ^ 17 ≤ significandLimit)
    rw [Nat.zero_add, Nat.one_mul]
    exact Nat.pow_le_pow_right (by norm_num) few
  have dropped := (absorb_of_few wellFormed.isDigit_whole room).1
  obtain ⟨small, leading⟩ := absorb_le n.whole (Nat.zero_le significandLimit)
  rw [dropped, List.length_nil, Nat.pow_zero, Nat.mul_one] at leading
  obtain ⟨fits, cut⟩ := absorb_le n.fraction small
  have digits : (absorb (absorb 0 n.whole).1 n.fraction).1 *
      10 ^ (absorb (absorb 0 n.whole).1 n.fraction).2.length ≤
        wholeNumber 0 (n.whole ++ n.fraction) := by
    refine cut.trans ?_
    rw [wholeNumber_append, wholeNumber_eq, wholeNumber_eq (wholeNumber 0 n.whole)]
    exact Nat.add_le_add_right (Nat.mul_le_mul_left _ leading) _
  have length := length_absorb_le (absorb 0 n.whole).1 n.fraction
  unfold NumberText.magnitude?
  dsimp only
  rw [dropped, List.length_nil]
  generalize (absorb (absorb 0 n.whole).1 n.fraction).1 = S at *
  generalize (absorb (absorb 0 n.whole).1 n.fraction).2.length = ignored at *
  by_cases negative :
    ((0 : Nat) : Int) - (n.fraction.length - ignored : Nat) + exponentValue n.exponent < 0
  · rw [scale?]
    dsimp only
    rw [if_pos negative]
    rfl
  · refine isSome_scale? fits ?_
    have scaled : (S * 10 ^ ignored : ℚ) * 10 ^ (exponentValue n.exponent - n.fraction.length) ≤
        rangeBound := by
      refine le_trans (mul_le_mul_of_nonneg_right ?_ (by positivity)) le
      exact_mod_cast digits
    have power : ((ignored : Int) + (exponentValue n.exponent - n.fraction.length)) =
        (((0 : Nat) : Int) - (n.fraction.length - ignored : Nat) +
          exponentValue n.exponent).toNat := by
      omega
    rw [mul_assoc, ← zpow_natCast, ← zpow_add₀ (by norm_num), power, zpow_natCast] at scaled
    exact_mod_cast scaled

/-- Setting out the digits of a decimal does not change the number. -/
theorem magnitudeValue_decimalNumber (negative : Bool) {d : Decimal} (wellFormed : d.WellFormed) :
    (decimalNumber negative d).magnitudeValue = d.value := by
  unfold NumberText.magnitudeValue decimalNumber Decimal.value
  split
  · split
    · have zeros : wholeNumber 0 (['0'] ++ (List.replicate (-d.point).toNat '0' ++ d.digits)) =
          wholeNumber 0 d.digits := by
        rw [wholeNumber_append, wholeNumber_append, wholeNumber_replicate_zero]
        rfl
      rw [zeros]
      congr 2
      simp [exponentValue]
      omega
    · split
      · next short =>
        have zeros : wholeNumber 0 (d.digits ++
            List.replicate (d.point.toNat - d.digits.length) '0' ++ ['0']) =
              wholeNumber 0 d.digits * 10 ^ (d.point.toNat - d.digits.length) * 10 := by
          rw [wholeNumber_append, wholeNumber_append, wholeNumber_replicate_zero]
          simp [wholeNumber]
          ring
        have power : d.point - d.digits.length = (d.point.toNat - d.digits.length : Nat) := by
          omega
        rw [zeros, power]
        simp [exponentValue]
      · rw [List.take_append_drop]
        congr 2
        simp [exponentValue]
        omega
  · rw [List.take_append_drop]
    congr 2
    have size : wholeNumber 0 (Nat.toDigits 10 (d.point - 1).natAbs) = (d.point - 1).natAbs :=
      Nat.ofDigitChars_toDigits (by norm_num) (by norm_num)
    have length := List.length_pos_iff.mpr wellFormed.digits_ne_nil
    simp only [exponentValue, ExponentText.value, size, List.length_drop]
    by_cases below : d.point - 1 < 0
    · rw [if_pos below, if_pos rfl]
      omega
    · rw [if_neg below, if_neg (by decide)]
      omega

/-! ## The text of a finite double -/

theorem length_whole_le {negative : Bool} {d : Decimal} :
    (decimalNumber negative d).whole.length ≤ 17 := by
  unfold decimalNumber
  split
  · next positional =>
    simp [Value.jsonNumberLayout] at positional
    split
    · simp
    · split
      · simp
        omega
      · simp
        omega
  · simp

/-- The parts of the largest double. -/
def largest : Magnitude :=
  ⟨2 ^ 53 - 1, 971, false⟩

theorem rangeBound_eq : (rangeBound : ℚ) = (2 ^ 54 - 3) * 2 ^ (970 : Int) := by
  have digits : ((2 ^ 54 - 3 : Nat) : ℚ) = 2 ^ 54 - 3 := by norm_num
  rw [rangeBound, Nat.cast_mul, digits, Nat.cast_pow, Nat.cast_ofNat]
  rfl

/-- The half-way point above a finite double but the largest is within the bound. -/
theorem halfway_le_rangeBound {m : Magnitude} (digits : m.significand < 2 ^ 53)
    (weight : m.exponent ≤ 971) (notLargest : ¬(m.significand = 2 ^ 53 - 1 ∧ m.exponent = 971)) :
    ((4 * m.significand + 2) * 2 ^ (m.exponent - 2) : ℚ) ≤ rangeBound := by
  rw [rangeBound_eq]
  rcases weight.lt_or_eq with less | same
  · have small : (4 * m.significand + 2 : ℚ) ≤ 4 * (2 ^ 54 - 3) := by
      have : m.significand + 1 ≤ 2 ^ 53 := digits
      have : (m.significand + 1 : ℚ) ≤ 2 ^ 53 := by exact_mod_cast this
      linarith
    have power : (2 : ℚ) ^ (m.exponent - 2) ≤ 2 ^ (968 : Int) :=
      zpow_le_zpow_right₀ (by norm_num) (by omega)
    have quarter : (2 : ℚ) ^ (970 : Int) = 4 * 2 ^ (968 : Int) := by
      rw [show (970 : Int) = 2 + 968 by rfl, zpow_add₀ (by norm_num)]
      norm_num
    rw [quarter]
    have := mul_le_mul small power (by positivity) (by norm_num)
    linarith
  · have small : (4 * m.significand + 2 : ℚ) ≤ 2 * (2 ^ 54 - 3) := by
      have : m.significand + 2 ≤ 2 ^ 53 := by omega
      have : (m.significand + 2 : ℚ) ≤ 2 ^ 53 := by exact_mod_cast this
      linarith
    have half : (2 : ℚ) ^ (970 : Int) = 2 * 2 ^ (m.exponent - 2) := by
      rw [same, show (970 : Int) = 1 + (971 - 2) by rfl, zpow_add₀ (by norm_num), zpow_one]
    rw [half]
    have := mul_le_mul_of_nonneg_right small (by positivity : (0 : ℚ) ≤ 2 ^ (m.exponent - 2))
    linarith

theorem bounds_of_ofBits {bits : Nat} {negative : Bool} {m : Magnitude}
    (h : Binary.ofBits bits = .finite negative m) :
    m.significand < 2 ^ 53 ∧ m.exponent ≤ 971 ∧
      (m.significand = 2 ^ 53 - 1 ∧ m.exponent = 971 → m = largest) := by
  unfold Binary.ofBits at h
  dsimp only at h
  split at h
  · split at h <;> cases h
  · split at h
    · cases h
      refine ⟨?_, ?_, ?_⟩
      · dsimp only
        omega
      · norm_num
      · rintro ⟨-, ⟨⟩⟩
    · cases h
      refine ⟨?_, ?_, ?_⟩
      · dsimp only
        omega
      · dsimp only
        omega
      · rintro ⟨digits, weight⟩
        dsimp only at digits weight
        have fraction : bits % 0x10000000000000 = 0xFFFFFFFFFFFFF := by omega
        have exponent : bits / 0x10000000000000 % 2048 = 2046 := by omega
        rw [fraction, exponent]
        rfl

/-- The text of a finite double is a number in JSON, and it has a value. -/
theorem exists_numberText {x : Float} (finite : x.isFinite = true) :
    ∃ n : NumberText, n.WellFormed ∧ n.text = (Value.jsonNumberLayout.text x).toList ∧
      ∃ y, n.value? = some y := by
  obtain ⟨negative, m, h⟩ := (exists_ofFloat_eq_finite_iff x).mpr finite
  have wellFormed := m.wellFormed_shortest .toEven
  refine ⟨decimalNumber negative (m.shortest .toEven), wellFormed_decimalNumber _ wellFormed,
    ?_, ?_⟩
  · rw [text_decimalNumber _ wellFormed, Layout.text, h]
    rfl
  · have value : (decimalNumber negative (m.shortest .toEven)).magnitude?.isSome = true := by
      by_cases isLargest : m = largest
      · rw [isLargest]
        cases negative <;> decide +kernel
      · refine isSome_magnitude? (wellFormed_decimalNumber _ wellFormed) length_whole_le ?_
        rw [magnitudeValue_decimalNumber _ wellFormed]
        obtain ⟨digits, weight, eq_largest⟩ := bounds_of_ofBits h
        exact (m.value_shortest_le .toEven).trans
          (halfway_le_rangeBound digits weight fun both => isLargest (eq_largest both))
    obtain ⟨y, hy⟩ := Option.isSome_iff_exists.mp value
    exact ⟨_, by rw [NumberText.value?, hy, Option.map_some]⟩

end SheetFormula.Json
