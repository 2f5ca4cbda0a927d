import Mathlib
import SheetFormula.Number.Binary

/-!
# Rounding does not pass a double

What is nearer to a double than to the next larger one is rounded to it or to a smaller one
(`atMost_roundWithAccuracy`), and so a product that is small enough is finite (`atMost_mul`,
`isInf_eq_false_of_atMost`). Only bounds from above are stated, since all that follows from them
here is that a double is not too large. `AtMost` is such a bound: a double is zero, or its digits
with their weight are no more than those of the bound and its last digit weighs no more.

Rounding cuts off the binary digits behind the last one that a double can have at that size, and
then adds one or nothing to what is left. `kept` has the digits that remain, with the weight of the
last one (`target`). They are more than the number by at most half of that weight
(`two_mul_kept_le`), and together with the bound, which is a whole number of such digits, this
shows that the bound is not passed (`kept_mul_le`). It may happen that one digit more is needed
after adding one, as in rounding ninety-nine and a half to a hundred, and then the digits are moved
once more (`roundWithAccuracy_eq`).

A double is packed from its digits and taken apart again where it is used next, which keeps the
number and moves the weight of its last digit at most down (`unpack_pack`). So bounds go on from
one computation to the next: from whole numbers (`atMost_ofNat`) and from decimals
(`atMost_ofScientific`) to their product.
-/

namespace SheetFormula.Number

open Float.Model Float.Model.UnpackedFloat

/-! ## Rounding a binary number -/

section Shift

variable (em : ExtendedMantissa) (M k : Nat)

theorem mantissa_shiftRight : (em >>> k).mantissa = em.mantissa / 2 ^ k := by
  induction k with
  | zero => simp [HShiftRight.hShiftRight, Nat.repeat]
  | succ k ih =>
    have step : (em >>> (k + 1)).mantissa = (em >>> k).mantissa / 2 := rfl
    rw [step, ih, Nat.div_div_eq_div_mul, Nat.pow_succ]

theorem roundedMantissa_le (h : em.roundBit = false) : em.roundedMantissa ≤ em.mantissa := by
  obtain ⟨m, r, s⟩ := em
  cases s <;> cases h <;> exact Nat.le_refl _

theorem roundedMantissa_le_succ : em.roundedMantissa ≤ em.mantissa + 1 := by
  obtain ⟨m, r, s⟩ := em
  cases r <;> cases s <;>
    simp only [ExtendedMantissa.roundedMantissa, ExtendedMantissa.accuracy,
      Accuracy.roundToNearestEven] <;> omega

/-- Cutting off binary digits and rounding adds at most half of what the last digit kept is
worth. -/
theorem two_mul_roundedMantissa_le :
    2 * (ExtendedMantissa.ofMantissaAndAccuracy M .exact >>> k).roundedMantissa * 2 ^ k ≤
      2 * M + 2 ^ k := by
  cases k with
  | zero =>
    have same : (ExtendedMantissa.ofMantissaAndAccuracy M .exact >>> 0).roundedMantissa = M := rfl
    rw [same]
    omega
  | succ k =>
    set shifted := ExtendedMantissa.ofMantissaAndAccuracy M .exact >>> (k + 1) with hshifted
    have mantissa : shifted.mantissa = M / 2 ^ k / 2 := by
      rw [hshifted, mantissa_shiftRight, Nat.div_div_eq_div_mul, Nat.pow_succ]
      rfl
    have roundBit : shifted.roundBit = (M / 2 ^ k % 2 != 0) := by
      have step : shifted.roundBit =
          ((ExtendedMantissa.ofMantissaAndAccuracy M .exact >>> k).mantissa % 2 != 0) := rfl
      rw [step, mantissa_shiftRight]
      rfl
    have below := Nat.div_mul_le_self M (2 ^ k)
    set q := M / 2 ^ k
    have double : 2 * shifted.roundedMantissa ≤ q + 1 := by
      by_cases even : q % 2 = 0
      · have := roundedMantissa_le shifted (by rw [roundBit, even]; rfl)
        omega
      · have := roundedMantissa_le_succ shifted
        omega
    have scaled := Nat.mul_le_mul_right (2 ^ k) double
    rw [Nat.pow_succ]
    nlinarith

end Shift

variable {M n : Nat} {E t : Int} {sign : Sign}

/-- The weight that the last binary digit has after rounding. -/
def target (M : Nat) (E : Int) : Int :=
  max ((M.log2 : Int) + 1 + E - 53) (-1074)

theorem targetExponent_eq (M : Nat) (E : Int) :
    Format.binary64.targetExponent (totalExponent M E) = target M E := by
  norm_num [Format.targetExponent, totalExponent, Format.mantissaBits, Format.minExponent, target]

/-- The digits kept of a number below `2 ^ 53 · 2 ^ t` end at the weight `2 ^ t` or before. -/
theorem target_le (pos : 0 < M) (low : -1074 ≤ t) (small : (M : ℚ) * 2 ^ E < 2 ^ 53 * 2 ^ t) :
    target M E ≤ t := by
  have atLeast : (2 : ℚ) ^ ((M.log2 : Int) + E) ≤ M * 2 ^ E := by
    rw [zpow_add₀ (by norm_num), zpow_natCast]
    have : ((2 ^ M.log2 : Nat) : ℚ) ≤ M := Nat.cast_le.mpr (Nat.log2_self_le pos.ne')
    push_cast at this
    exact mul_le_mul_of_nonneg_right this (by positivity)
  have power : (2 : ℚ) ^ 53 * 2 ^ t = 2 ^ (53 + t) := by
    rw [zpow_add₀ (by norm_num)]
    norm_cast
  rw [power] at small
  have := (zpow_lt_zpow_iff_right₀ (by norm_num : (1 : ℚ) < 2)).mp (atLeast.trans_lt small)
  unfold target
  omega

/-- What is left after cutting off digits has at most fifty-three. -/
theorem lt_of_target (M : Nat) (E : Int) : M < 2 ^ (53 + (target M E - E).toNat) := by
  refine Nat.lt_log2_self.trans_le (Nat.pow_le_pow_right (by norm_num) ?_)
  unfold target
  omega

/-- The rounded digits of a number, and the weight of the last one. -/
def kept (M : Nat) (E : Int) : Nat × Int :=
  ((ExtendedMantissa.ofMantissaAndAccuracy M .exact >>> (target M E - E).toNat).roundedMantissa,
    E + (target M E - E).toNat)

theorem kept_snd (M : Nat) (E : Int) : (kept M E).2 = max E (target M E) := by
  unfold kept
  omega

theorem two_mul_kept_le (M : Nat) (E : Int) :
    2 * ((kept M E).1 : ℚ) * 2 ^ (kept M E).2 ≤ 2 * (M * 2 ^ E) + 2 ^ (kept M E).2 := by
  have le := two_mul_roundedMantissa_le M (target M E - E).toNat
  have cast : 2 * ((kept M E).1 : ℚ) * 2 ^ (target M E - E).toNat ≤
      2 * M + 2 ^ (target M E - E).toNat := by
    exact_mod_cast le
  have weight : (2 : ℚ) ^ (kept M E).2 = 2 ^ (target M E - E).toNat * 2 ^ E := by
    rw [kept, zpow_add₀ (by norm_num), zpow_natCast, mul_comm]
  have scaled := mul_le_mul_of_nonneg_right cast (by positivity : (0 : ℚ) ≤ 2 ^ E)
  rw [weight]
  linarith

theorem kept_le (M : Nat) (E : Int) : (kept M E).1 ≤ 2 ^ 53 := by
  have le := two_mul_roundedMantissa_le M (target M E - E).toNat
  have lt := lt_of_target M E
  unfold kept
  set k := (target M E - E).toNat
  set R := (ExtendedMantissa.ofMantissaAndAccuracy M .exact >>> k).roundedMantissa
  rw [Nat.pow_add] at lt
  have pos : 0 < 2 ^ k := Nat.two_pow_pos k
  by_contra more
  have := Nat.mul_le_mul_right (2 ^ k) (Nat.not_le.mp more)
  nlinarith

/-- What is nearer to the double `n · 2 ^ t` than to the next larger one is not rounded beyond
it. -/
theorem kept_mul_le (pos : 0 < M) (low : 2 ^ 52 ≤ n) (high : n < 2 ^ 53) (min : -1074 ≤ t)
    (le : E ≤ t) (near : 2 * ((M : ℚ) * 2 ^ E) < (2 * n + 1) * 2 ^ t) :
    ((kept M E).1 : ℚ) * 2 ^ (kept M E).2 ≤ n * 2 ^ t ∧ (kept M E).2 ≤ t := by
  have positive : (0 : ℚ) < 2 ^ t := by positivity
  have below : (n : ℚ) + 1 ≤ 2 ^ 53 := by exact_mod_cast high
  have weight : (kept M E).2 ≤ t := by
    rw [kept_snd]
    exact max_le le (target_le pos min (by nlinarith))
  refine ⟨?_, weight⟩
  rcases weight.lt_or_eq with less | same
  · -- the digits kept end before those of `n`, and are no more than fifty-three
    have double : 2 * (2 : ℚ) ^ (kept M E).2 ≤ 2 ^ t := by
      rw [mul_comm, ← zpow_add_one₀ (by norm_num)]
      exact zpow_le_zpow_right₀ (by norm_num) less
    have digits : ((kept M E).1 : ℚ) ≤ 2 ^ 53 := by exact_mod_cast kept_le M E
    have atLeast : (2 : ℚ) ^ 52 ≤ n := by exact_mod_cast low
    have := mul_le_mul_of_nonneg_right digits (by positivity : (0 : ℚ) ≤ 2 ^ (kept M E).2)
    nlinarith
  · have rounded := two_mul_kept_le M E
    rw [same] at rounded ⊢
    have : ((kept M E).1 : ℚ) < n + 1 := by
      by_contra more
      nlinarith
    have : (kept M E).1 ≤ n := by
      have : (kept M E).1 < n + 1 := by exact_mod_cast this
      omega
    exact mul_le_mul_of_nonneg_right (by exact_mod_cast this) positive.le

/-! ## Doubles up to a bound -/

/-- The double is not larger than `n · 2 ^ t`, and its last binary digit weighs no more. -/
def AtMost (x : UnpackedFloat) (n : Nat) (t : Int) : Prop :=
  match x with
  | .zero _ => True
  | .finite _ m e _ => (m : ℚ) * 2 ^ e ≤ n * 2 ^ t ∧ e ≤ t
  | _ => False

instance : ∀ (x : UnpackedFloat) (n : Nat) (t : Int), Decidable (AtMost x n t)
  | .zero _, _, _ => isTrue trivial
  | .finite _ m e _, n, t => inferInstanceAs (Decidable ((m : ℚ) * 2 ^ e ≤ n * 2 ^ t ∧ e ≤ t))
  | .infinity _, _, _ => isFalse id
  | .notANumber, _, _ => isFalse id

theorem toNat_one_append {m : Nat} (h : m.log2 + 1 = 53) :
    (1#1 ++ BitVec.ofNat 52 m).toNat = m := by
  have nonzero : m ≠ 0 := by
    rintro rfl
    simp at h
  obtain ⟨low, high⟩ := (Nat.log2_eq_iff (k := 52) nonzero).mp (by omega)
  rw [BitVec.toNat_append, ← Nat.shiftLeft_add_eq_or_of_lt (BitVec.isLt _), BitVec.toNat_ofNat,
    BitVec.toNat_ofNat, Nat.shiftLeft_eq]
  omega

theorem atMost_pack_zero : AtMost (Float.Model.pack (.zero sign)).unpack n t := by
  cases sign <;> trivial

/-- A double that is packed keeps its digits, and the last one may come to weigh less if the first
of fifty-three is zero. -/
theorem unpack_pack (sign : Sign) {m : Nat} {e : Int} (pos : 0 < m) (digits : m < 2 ^ 53)
    (min : -1074 ≤ e) (max : e ≤ 971) : ∃ s e',
      (Float.Model.pack (.finite sign m e pos)).unpack = .finite s m e' pos ∧ e' ≤ e := by
  unfold Float.Model.unpack Float.Model.pack
  simp only [UnpackedFloat.pack, Format.exponentBias, Format.mantissaBits]
  norm_num
  rw [if_neg (by omega)]
  split
  · next normal =>
    have exponent : (BitVec.ofNat 11 (e + 1023 + 52).toNat).toNat = (e + 1023 + 52).toNat := by
      rw [BitVec.toNat_ofNat]
      omega
    have notAllOnes : BitVec.ofNat 11 (e + 1023 + 52).toNat ≠ -1#11 := fun same => by
      rw [same] at exponent
      simp at exponent
      omega
    have notZero : BitVec.ofNat 11 (e + 1023 + 52).toNat ≠ 0#11 := fun same => by
      rw [same] at exponent
      simp at exponent
      omega
    simp only [UnpackedFloat.unpack, unpackExponent_packComponents, unpackMantissa_packComponents,
      if_neg notAllOnes, if_neg notZero]
    refine ⟨_, _, (UnpackedFloat.finite.injEq ..).mpr ⟨rfl, toNat_one_append normal, rfl⟩, ?_⟩
    rw [exponent]
    norm_num [Format.exponentBias]
    omega
  · next subnormal =>
    have few : m < 2 ^ 52 := by
      by_contra many
      exact subnormal
        (congrArg (· + 1) ((Nat.log2_eq_iff pos.ne').mpr ⟨Nat.not_lt.mp many, digits⟩))
    have mantissa : (BitVec.ofNat 52 m).toNat = m := by
      rw [BitVec.toNat_ofNat]
      omega
    have notZero : BitVec.ofNat 52 m ≠ 0#52 := fun same => by
      rw [same] at mantissa
      simp at mantissa
      omega
    have notAllOnes : 0#11 ≠ -1#11 := by decide
    simp only [UnpackedFloat.unpack, unpackExponent_packComponents, unpackMantissa_packComponents,
      if_neg notAllOnes, if_pos, dif_neg notZero]
    refine ⟨_, _, (UnpackedFloat.finite.injEq ..).mpr ⟨rfl, mantissa, rfl⟩, ?_⟩
    norm_num [Format.exponentBias]
    omega

theorem roundWithAccuracy_eq (sign : Sign) (M : Nat) (E : Int) :
    roundWithAccuracy Format.binary64 sign M E .exact =
      if h : (kept M E).1 / 2 ^ (target (kept M E).1 (kept M E).2 - (kept M E).2).toNat = 0 then
        .zero sign
      else .finite sign ((kept M E).1 / 2 ^ (target (kept M E).1 (kept M E).2 - (kept M E).2).toNat)
        ((kept M E).2 + (target (kept M E).1 (kept M E).2 - (kept M E).2).toNat)
        (Nat.pos_of_ne_zero h) := by
  simp only [roundWithAccuracy, shiftToTargetExponent, targetExponent_eq, shiftToExponent,
    mantissa_shiftRight]
  rfl

/-- Rounding does not pass a double. -/
theorem atMost_roundWithAccuracy (pos : 0 < M) (low : 2 ^ 52 ≤ n) (high : n < 2 ^ 53)
    (min : -1074 ≤ t) (max : t ≤ 971) (le : E ≤ t)
    (near : 2 * ((M : ℚ) * 2 ^ E) < (2 * n + 1) * 2 ^ t) :
    AtMost (Float.Model.pack (roundWithAccuracy Format.binary64 sign M E .exact)).unpack n t := by
  obtain ⟨bound, weight⟩ := kept_mul_le pos low high min le near
  have atLeast : -1074 ≤ (kept M E).2 := by
    rw [kept_snd]
    exact le_max_of_le_right (le_max_right _ _)
  rw [roundWithAccuracy_eq]
  generalize (kept M E).1 = R at *
  generalize (kept M E).2 = e at *
  have digits := lt_of_target R e
  set k := (target R e - e).toNat with hk
  split
  · exact atMost_pack_zero
  · next nonzero =>
    have carried : target R e ≤ t := by
      refine target_le (Nat.pos_of_ne_zero fun zero => nonzero ?_) min (bound.trans_lt ?_)
      · rw [zero, Nat.zero_div]
      · have : (n : ℚ) < 2 ^ 53 := by exact_mod_cast high
        exact mul_lt_mul_of_pos_right this (by positivity)
    have cut : ((R / 2 ^ k : Nat) : ℚ) * 2 ^ (e + k) ≤ R * 2 ^ e := by
      have le : ((R / 2 ^ k : Nat) : ℚ) * 2 ^ k ≤ R := by exact_mod_cast Nat.div_mul_le_self R _
      rw [zpow_add₀ (by norm_num), zpow_natCast, mul_comm (2 ^ e : ℚ), ← mul_assoc]
      exact mul_le_mul_of_nonneg_right le (by positivity)
    obtain ⟨s, e', unpacked, lighter⟩ := unpack_pack sign (Nat.pos_of_ne_zero nonzero)
      (by rw [Nat.div_lt_iff_lt_mul (Nat.two_pow_pos k), ← Nat.pow_add]; exact digits)
      (e := e + k) (by omega) (by omega)
    rw [unpacked]
    refine ⟨le_trans ?_ (cut.trans bound), by omega⟩
    exact mul_le_mul_of_nonneg_left (zpow_le_zpow_right₀ (by norm_num) lighter) (by positivity)

/-- A product of doubles up to some bounds does not pass a double near to the product of the
bounds. -/
theorem atMost_mul {x y : Float} {n₁ n₂ : Nat} {t₁ t₂ : Int} (hx : AtMost x.toModel.unpack n₁ t₁)
    (hy : AtMost y.toModel.unpack n₂ t₂) (low : 2 ^ 52 ≤ n) (high : n < 2 ^ 53) (min : -1074 ≤ t)
    (max : t ≤ 971) (le : t₁ + t₂ ≤ t)
    (near : 2 * ((n₁ * n₂ : ℚ) * 2 ^ (t₁ + t₂)) < (2 * n + 1) * 2 ^ t) :
    AtMost (x * y).toModel.unpack n t := by
  change AtMost (Float.Model.pack
    (UnpackedFloat.mul Format.binary64 x.toModel.unpack y.toModel.unpack)).unpack n t
  generalize x.toModel.unpack = u at hx
  generalize y.toModel.unpack = v at hy
  cases u with
  | notANumber => exact hx.elim
  | infinity => exact hx.elim
  | zero =>
    cases v with
    | notANumber => exact hy.elim
    | infinity => exact hy.elim
    | zero | finite => exact atMost_pack_zero
  | finite s₁ m₁ e₁ pos₁ =>
    cases v with
    | notANumber => exact hy.elim
    | infinity => exact hy.elim
    | zero => exact atMost_pack_zero
    | finite s₂ m₂ e₂ pos₂ =>
      obtain ⟨le₁, weight₁⟩ := hx
      obtain ⟨le₂, weight₂⟩ := hy
      refine atMost_roundWithAccuracy (Nat.mul_pos pos₁ pos₂) low high min max (by omega)
        (lt_of_le_of_lt ?_ near)
      have product := mul_le_mul le₁ le₂ (by positivity) (by positivity)
      rw [zpow_add₀ (by norm_num), zpow_add₀ (by norm_num)]
      push_cast
      linarith

theorem unpack_one : Float.exactlyRepresentablePowersOfTen[0].toModel.unpack =
    .finite .positive (2 ^ 52) (-52) (by decide) := by
  rfl

/-- Zeros behind the binary digits of a whole number change their weight only. -/
theorem shiftLeft_mul_zpow (M k : Nat) : ((M <<< k : Nat) : ℚ) * 2 ^ (-(k : Int)) = M := by
  rw [Nat.shiftLeft_eq, zpow_neg, zpow_natCast, Nat.cast_mul, Nat.cast_pow, Nat.cast_ofNat,
    mul_assoc, mul_inv_cancel₀ (by positivity), mul_one]

theorem atMost_round (pos : 0 < M) (low : 2 ^ 52 ≤ n) (high : n < 2 ^ 53) (min : -1074 ≤ t)
    (max : t ≤ 971) (near : 2 * (M : ℚ) < (2 * n + 1) * 2 ^ t) :
    AtMost (Float.Model.pack (UnpackedFloat.round Format.binary64 sign M 0)).unpack n t := by
  unfold UnpackedFloat.round decreaseExponent
  simp only [targetExponent_eq]
  refine atMost_roundWithAccuracy ?_ low high min max ?_ ?_
  · rw [Nat.shiftLeft_eq]
    exact Nat.mul_pos pos (Nat.two_pow_pos _)
  · have : target M 0 ≤ t := by
      refine target_le pos min ?_
      have : (n : ℚ) + 1 ≤ 2 ^ 53 := by exact_mod_cast high
      have : (0 : ℚ) < 2 ^ t := by positivity
      rw [zpow_zero]
      nlinarith
    omega
  · simp only [Int.zero_sub, shiftLeft_mul_zpow]
    exact near

/-- A decimal that is too large for the quick way is rounded once. -/
theorem atMost_ofScientific {S k : Nat} (pos : 0 < S) (large : ¬(S < 2 ^ 53 ∧ k ≤ 22))
    (range : k ≤ 2048) (low : 2 ^ 52 ≤ n) (high : n < 2 ^ 53) (min : -53 ≤ t) (max : t ≤ 971)
    (near : 2 * (S * 10 ^ k : ℚ) < (2 * n + 1) * 2 ^ t) :
    AtMost (Float.ofScientific S false k).toModel.unpack n t := by
  rw [Float.ofScientific, dif_neg large]
  change AtMost (Float.Model.pack (UnpackedFloat.ofScientific Format.binary64 S k)).unpack n t
  have notBeyond : ¬(k : Int) > 2 ^ 11 := by omega
  have notBelow : ¬(k : Int) < -(2 ^ 11 + (S.log2 : Int)) := by omega
  rw [UnpackedFloat.ofScientific, dif_neg pos.ne', if_neg notBeyond, if_neg notBelow,
    if_pos (by omega)]
  simp only [UnpackedFloat.mul]
  have digits : 0 < S <<< Format.binary64.mantissaBits * 10 ^ (k : Int).toNat := by
    rw [Nat.shiftLeft_eq]
    positivity
  refine atMost_roundWithAccuracy digits low high (by omega) max ?_ ?_
  · change -((53 : Nat) : Int) + 0 ≤ t
    omega
  · rw [Int.add_zero, Int.toNat_natCast, Nat.cast_mul, mul_right_comm, shiftLeft_mul_zpow]
    exact_mod_cast near

/-- A whole number that is nearer to a double than to the next larger one is rounded to it or to a
smaller one. -/
theorem atMost_ofNat {S : Nat} (low : 2 ^ 52 ≤ n) (high : n < 2 ^ 53) (min : -52 ≤ t)
    (max : t ≤ 971) (near : 2 * (S : ℚ) < (2 * n + 1) * 2 ^ t) :
    AtMost (Float.ofNat S).toModel.unpack n t := by
  rcases Nat.eq_zero_or_pos S with rfl | pos
  · have zero : (Float.ofNat 0).toModel.unpack = .zero .positive := by rfl
    rw [zero]
    trivial
  by_cases small : S < 2 ^ 53 ∧ 0 ≤ 22
  · have rounded : AtMost S.toUInt64.toFloat.toModel.unpack n t := by
      have same : S.toUInt64.toNat = S := by
        rw [Nat.toUInt64, UInt64.toNat_ofNat']
        omega
      have greater : compare (S : Int) 0 = .gt := Int.compare_eq_gt.mpr (by omega)
      change AtMost
        (Float.Model.pack (UnpackedFloat.normalize Format.binary64 S.toUInt64.toNat 0
          .positive)).unpack n t
      rw [same]
      unfold UnpackedFloat.normalize
      rw [greater]
      exact atMost_round pos low high (by omega) max near
    have one : AtMost Float.exactlyRepresentablePowersOfTen[0].toModel.unpack (2 ^ 52) (-52) := by
      rw [unpack_one]
      exact ⟨le_refl _, le_refl _⟩
    change AtMost (Float.ofScientific S false 0).toModel.unpack n t
    rw [Float.ofScientific, dif_pos small]
    refine atMost_mul rounded one low high (by omega) max (by omega) ?_
    have same : (n * (2 ^ 52 : Nat) : ℚ) * 2 ^ (t + -52) = n * 2 ^ t := by
      rw [zpow_add₀ (by norm_num)]
      norm_num
      ring
    have : (0 : ℚ) < 2 ^ t := by positivity
    rw [same]
    linarith
  · exact atMost_ofScientific pos small (by omega) low high (by omega) max (by simpa using near)

/-- The largest double and those below it are no infinities. -/
theorem isInf_eq_false_of_atMost {x : Float} (h : AtMost x.toModel.unpack n t) :
    x.isInf = false := by
  change x.toModel.unpack.isInf = false
  cases hx : x.toModel.unpack <;> rw [hx] at h <;> first | rfl | exact h.elim

end SheetFormula.Number
