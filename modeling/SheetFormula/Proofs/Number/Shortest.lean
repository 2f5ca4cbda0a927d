import Mathlib
import SheetFormula.Number.Numeral
import SheetFormula.Number.Shortest

/-!
# The shortest decimal of a double

The decimal that stands for a finite double has at least one digit and no needless zero before the
others (`Magnitude.wellFormed_shortest`), and it is not larger than the numbers that round to the
double (`Magnitude.value_shortest_le`). That it is the shortest one plays no role for what follows
from it, and neither does a bound from below.

The decimals that are tried for a double are the multiples of a power of ten between two half-way
points, one of them below the double and one above it, and `Grid.holds` says which these are.
Whatever the search settles on is zero or such a multiple (`Magnitude.shortest_cases`), which needs
no account of the order in which the powers are tried. Multiplied out, what is held by the grid is
no larger than the half-way point above the double (`Magnitude.value_le_of_holds`).

A multiple becomes a decimal by writing its digits and leaving off the zeros at their end, which
changes the place of the point and not the number (`Magnitude.value_decimalOf`). The digits of a
whole number other than zero do not begin with a zero (`head?_toDigits`).

The finite doubles are those with a sign and a magnitude, which the bits of the exponent tell
(`exists_ofFloat_eq_finite_iff`).
-/

namespace SheetFormula

namespace Number

/-! ## Finite doubles -/

/-- The doubles whose exponent is not all ones are finite. -/
theorem exists_ofBits_eq_finite_iff (bits : Nat) :
    (∃ negative m, Binary.ofBits bits = .finite negative m) ↔
      bits / 0x10000000000000 % 2048 ≠ 2047 := by
  unfold Binary.ofBits
  dsimp only
  split
  · next infinite =>
    simp only [infinite, ne_eq, not_true_eq_false, iff_false, not_exists]
    intro negative m
    split <;> exact Binary.noConfusion
  · next finite =>
    split
    · exact iff_of_true ⟨_, _, rfl⟩ finite
    · exact iff_of_true ⟨_, _, rfl⟩ finite

open Float.Model Float.Model.UnpackedFloat in
/-- The finite doubles are those whose parts are a sign and a magnitude. -/
theorem exists_ofFloat_eq_finite_iff (x : Float) :
    (∃ negative m, Binary.ofFloat x = .finite negative m) ↔ x.isFinite = true := by
  have field : (@unpackExponent Format.binary64 x.toBits.toBitVec).toNat =
      x.toBits.toNat / 0x10000000000000 % 2048 := by
    simp [unpackExponent, BitVec.extractLsb, Nat.shiftRight_eq_div_pow]
  have ones : @unpackExponent Format.binary64 x.toBits.toBitVec = -1#11 ↔
      x.toBits.toNat / 0x10000000000000 % 2048 = 2047 := by
    rw [← field]
    exact ⟨fun same => by rw [same]; rfl, fun same => BitVec.eq_of_toNat_eq same⟩
  rw [Binary.ofFloat, exists_ofBits_eq_finite_iff]
  change _ ↔ (UnpackedFloat.unpack Format.binary64 x.toBits.toBitVec).isFinite = true
  simp only [UnpackedFloat.unpack, ones]
  split
  · next infinite =>
    refine iff_of_false (fun h => h infinite) ?_
    split <;> exact Bool.false_ne_true
  · next finite =>
    refine iff_of_true finite ?_
    split
    · split <;> rfl
    · rfl

/-! ## Decimals -/

namespace Decimal

/-- The decimals that are written: zero, or digits without a zero before them. -/
structure WellFormed (d : Decimal) : Prop where
  digits_ne_nil : d.digits ≠ []
  isDigit : ∀ c ∈ d.digits, c.isDigit = true
  eq_zero : d.digits.head? = some '0' → d = ⟨['0'], 1⟩

theorem wellFormed_zero : WellFormed ⟨['0'], 1⟩ :=
  ⟨List.cons_ne_nil _ _, List.forall_mem_singleton.mpr rfl, fun _ => rfl⟩

/-- The number that a decimal is. -/
def value (d : Decimal) : ℚ :=
  wholeNumber 0 d.digits * 10 ^ (d.point - d.digits.length)

end Decimal

theorem head?_toDigits {n : Nat} (pos : n ≠ 0) : (Nat.toDigits 10 n).head? ≠ some '0' := by
  induction n using Nat.strongRecOn with
  | ind n ih =>
    by_cases small : n < 10
    · have nonzero : ∀ d < 10, d ≠ 0 → Nat.digitChar d ≠ '0' := by decide
      rw [Nat.toDigits_of_lt_base small]
      simpa using nonzero n small pos
    · rw [Nat.toDigits_of_base_le (by norm_num) (Nat.not_lt.mp small),
        List.head?_append_of_ne_nil _ Nat.toDigits_ne_nil]
      exact ih (n / 10) (by omega) (by omega)

namespace Magnitude

/-- The digits of a decimal are those of a whole number without the zeros at its end. -/
theorem exists_toDigits_eq (c : Nat) (power : Int) :
    ∃ zeros, Nat.toDigits 10 c = (decimalOf c power).digits ++ List.replicate zeros '0' := by
  have split := congrArg List.reverse
    (List.takeWhile_append_dropWhile (p := (· == '0')) (l := (Nat.toDigits 10 c).reverse))
  rw [List.reverse_append, List.reverse_reverse] at split
  refine ⟨_, split.symm.trans (congrArg _ (List.eq_replicate_iff.mpr ⟨rfl, fun d mem => ?_⟩))⟩
  simpa using List.mem_takeWhile_imp (List.mem_reverse.mp mem)

theorem wellFormed_decimalOf {c : Nat} (pos : c ≠ 0) (power : Int) :
    (decimalOf c power).WellFormed := by
  obtain ⟨zeros, split⟩ := exists_toDigits_eq c power
  have nonzero := head?_toDigits pos
  have nonempty : (decimalOf c power).digits ≠ [] := by
    intro none
    rw [none, List.nil_append] at split
    cases zeros with
    | zero => exact Nat.toDigits_ne_nil split
    | succ zeros => exact nonzero (by rw [split]; rfl)
  refine ⟨nonempty, fun d mem => ?_, fun zero => ?_⟩
  · refine Nat.isDigit_of_mem_toDigits (b := 10) (n := c) (by norm_num) (by norm_num) ?_
    rw [split]
    exact List.mem_append_left _ mem
  · rw [split, List.head?_append_of_ne_nil _ nonempty] at nonzero
    exact absurd zero nonzero

theorem value_decimalOf (c : Nat) (power : Int) : (decimalOf c power).value = c * 10 ^ power := by
  obtain ⟨zeros, split⟩ := exists_toDigits_eq c power
  have digits : wholeNumber 0 (decimalOf c power).digits * 10 ^ zeros = c := by
    have whole := Nat.ofDigitChars_toDigits (b := 10) (n := c) (by norm_num) (by norm_num)
    rw [split, Nat.ofDigitChars_append, Nat.ofDigitChars_replicate_zero, Nat.mul_comm] at whole
    exact whole
  have point : (decimalOf c power).point - (decimalOf c power).digits.length = zeros + power := by
    have length := congrArg List.length split
    rw [List.length_append, List.length_replicate] at length
    change power + (Nat.toDigits 10 c).length - _ = _
    omega
  rw [Decimal.value, point, zpow_add₀ (by norm_num), zpow_natCast, ← mul_assoc]
  congr 1
  exact_mod_cast digits

/-! ## The shortest decimal -/

theorem Grid.holds_zero {g : Grid} (pos : 0 < g.low) : g.holds 0 = false := by
  unfold Grid.holds
  split
  · simpa using pos.ne'
  · simp

theorem Grid.le_high_of_holds {g : Grid} {c : Nat} (h : g.holds c = true) :
    c * g.step ≤ g.high := by
  unfold Grid.holds at h
  split at h <;> simp at h <;> omega

theorem Grid.holds_of_nearest? {g : Grid} {tie : Tie} {c : Nat} (h : g.nearest? tie = some c) :
    g.holds c = true := by
  unfold Grid.nearest? at h
  dsimp only at h
  split at h
  · cases h
  · cases h
    assumption
  · cases h
    assumption
  · split at h <;> cases h
    · assumption
    · assumption
    · assumption
    · split <;> assumption

/-- An integer power with what divides moved to the other side. -/
theorem zpow_mul_pow_toNat (b : ℚ) (nonzero : b ≠ 0) (p : Int) :
    b ^ p * b ^ (-p).toNat = b ^ p.toNat := by
  rw [← zpow_natCast, ← zpow_natCast, ← zpow_add₀ nonzero]
  congr 1
  omega

variable (m : Magnitude) (tie : Tie)

/-- A decimal that the grid of a double holds is at most the half-way point above the double. -/
theorem value_le_of_holds {c : Nat} {power : Int} (h : (m.grid power).holds c = true) :
    (c : ℚ) * 10 ^ power ≤ (4 * m.significand + 2) * 2 ^ (m.exponent - 2) := by
  have le := Grid.le_high_of_holds h
  simp only [grid, quarter] at le
  have le : (c : ℚ) * (2 ^ (2 - m.exponent).toNat * 10 ^ power.toNat) ≤
      (4 * m.significand + 2) * (2 ^ (m.exponent - 2).toNat * 10 ^ (-power).toNat) := by
    exact_mod_cast le
  have ten := zpow_mul_pow_toNat 10 (by norm_num) power
  have two := zpow_mul_pow_toNat 2 (by norm_num) (m.exponent - 2)
  rw [Int.neg_sub] at two
  rw [← ten, ← two] at le
  have : (0 : ℚ) < 2 ^ (2 - m.exponent).toNat * 10 ^ (-power).toNat := by positivity
  refine le_of_mul_le_mul_right ?_ this
  linarith

theorem shortest_cases : m.shortest tie = ⟨['0'], 1⟩ ∨
    ∃ c power, (m.grid power).holds c = true ∧ c ≠ 0 ∧ m.shortest tie = decimalOf c power := by
  unfold shortest
  split
  · exact .inl rfl
  · next nonzero =>
    dsimp only
    cases found : (List.range 17).findSome? fun (n : Nat) =>
      ((m.grid (m.decimalOrder - (n + 1))).nearest? tie).map
        (decimalOf · (m.decimalOrder - (n + 1))) with
    | none => exact .inl rfl
    | some d =>
      obtain ⟨n, -, h⟩ := List.exists_of_findSome?_eq_some found
      obtain ⟨c, nearest, rfl⟩ := Option.map_eq_some_iff.mp h
      have holds := Grid.holds_of_nearest? nearest
      refine .inr ⟨c, _, holds, fun zero => ?_, rfl⟩
      have positive : 0 < (m.grid (m.decimalOrder - (n + 1))).low := by
        refine Nat.mul_pos ?_ ?_
        · split <;> omega
        · exact Nat.mul_pos (Nat.two_pow_pos _) (Nat.pow_pos (by norm_num))
      rw [zero, Grid.holds_zero positive] at holds
      cases holds

theorem wellFormed_shortest : (m.shortest tie).WellFormed := by
  rcases m.shortest_cases tie with h | ⟨c, power, -, pos, h⟩
  · rw [h]
    exact Decimal.wellFormed_zero
  · rw [h]
    exact wellFormed_decimalOf pos power

/-- The shortest decimal is not beyond the half-way point to the next larger double. -/
theorem value_shortest_le :
    (m.shortest tie).value ≤ (4 * m.significand + 2) * 2 ^ (m.exponent - 2) := by
  rcases m.shortest_cases tie with h | ⟨c, power, holds, -, h⟩
  · have zero : Decimal.value ⟨['0'], 1⟩ = 0 := by
      simp [Decimal.value, wholeNumber]
    rw [h, zero]
    positivity
  · rw [h, value_decimalOf]
    exact m.value_le_of_holds holds

end Magnitude

end Number

end SheetFormula
