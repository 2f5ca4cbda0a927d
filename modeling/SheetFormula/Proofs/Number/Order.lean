import Mathlib
import SheetFormula.Value.Operation

/-!
# The order of doubles

A double other than NaN stands for a rational number or an infinity (`exactValue?`), and is less
than, equal to or greater than another one as these are (`numberOrder?_eq`). Both zeros stand for
the same number (`exactValue?_neg_zero`), so neither is less than the other.

The comparison itself is made on sign, weight and digits. Weights are compared first and digits
only between equal weights, and that this is the order of the numbers is no matter of course: a
number of lower weight with more digits could be the larger one. It is so because a double has at
most fifty-three digits, and has all of them unless its weight is the lowest (`FitsDouble`,
`fitsDouble_of_unpack`). From that `scaled_lt` concludes that more weight is more, and
`compare_scaled` that the two comparisons are the same one. Signs, zeros and infinities are the
other cases of `compare_unpack`.

The laws of an order follow from those of rational numbers with two infinities: the order of two
doubles the other way round (`numberOrder?_swap`), and of three in a row (`numberOrder?_trans`).
NaN stands for no number and has no order, and every other pair of doubles has one
(`numberOrder?_eq_none_iff`).
-/

namespace SheetFormula.Number

open Float.Model Float.Model.UnpackedFloat

/-- The number that the parts of a double stand for: a rational number or an infinity. -/
def exactOf? : UnpackedFloat → Option (WithBot (WithTop ℚ))
  | .notANumber => none
  | .infinity .negative => some ⊥
  | .infinity .positive => some ⊤
  | .zero _ => some ((0 : ℚ) : WithTop ℚ)
  | .finite .negative m e _ => some ((-(m * 2 ^ e) : ℚ) : WithTop ℚ)
  | .finite .positive m e _ => some ((m * 2 ^ e : ℚ) : WithTop ℚ)

/-- The number that a double stands for. -/
def exactValue? (x : Float) : Option (WithBot (WithTop ℚ)) :=
  exactOf? x.toModel.unpack

/-- At most fifty-three binary digits, and fewer only at the lowest weight. -/
structure FitsDouble (m : Nat) (e : Int) : Prop where
  digits : m < 2 ^ 53
  weight : -1074 ≤ e
  full : 2 ^ 52 ≤ m ∨ e = -1074

theorem toNat_one_append_mantissa (fraction : BitVec 52) :
    (1#1 ++ fraction).toNat = 2 ^ 52 + fraction.toNat := by
  rw [BitVec.toNat_append, ← Nat.shiftLeft_add_eq_or_of_lt fraction.isLt]
  rfl

theorem fitsDouble_of_unpack {x : Float.Model} {s : UnpackedFloat.Sign} {m : Nat} {e : Int}
    {pos : 0 < m} (h : x.unpack = .finite s m e pos) : FitsDouble m e := by
  have mantissa : (@unpackMantissa Format.binary64 x.toBits.toBitVec).toNat < 2 ^ 52 :=
    BitVec.isLt _
  unfold Float.Model.unpack UnpackedFloat.unpack at h
  dsimp only at h
  have bias : (Format.binary64.exponentBias : Int) = 1023 := rfl
  have bits : Format.binary64.mantissaBitsWithoutImplicit = 52 := rfl
  split_ifs at h with ones none zero none'
  · obtain ⟨-, rfl, rfl⟩ := (UnpackedFloat.finite.injEq ..).mp h
    rw [zero, bias]
    exact ⟨by omega, by simp, .inr (by simp)⟩
  · obtain ⟨-, rfl, rfl⟩ := (UnpackedFloat.finite.injEq ..).mp h
    have exponent : (@unpackExponent Format.binary64 x.toBits.toBitVec).toNat ≠ 0 :=
      fun h => zero (BitVec.eq_of_toNat_eq h)
    rw [toNat_one_append_mantissa, bias]
    exact ⟨by omega, by simp; omega, .inl (by omega)⟩

/-- Of two numbers the one of higher weight is the larger one, and of equal weight the one with the
larger digits. -/
theorem scaled_lt {m n : Nat} {d e : Int} (hm : FitsDouble m d) (hn : FitsDouble n e)
    (h : d < e ∨ d = e ∧ m < n) : (m * 2 ^ d : ℚ) < n * 2 ^ e := by
  rcases h with less | ⟨rfl, less⟩
  · have digits : (m : ℚ) < 2 ^ 53 := by exact_mod_cast hm.digits
    have full : (2 : ℚ) ^ 52 ≤ n := by
      have := hm.weight
      have : 2 ^ 52 ≤ n := hn.full.resolve_right (by omega)
      exact_mod_cast this
    have weight : (2 : ℚ) * 2 ^ d ≤ 2 ^ e := by
      rw [mul_comm, ← zpow_add_one₀ (by norm_num)]
      exact zpow_le_zpow_right₀ (by norm_num) less
    calc (m * 2 ^ d : ℚ) < 2 ^ 53 * 2 ^ d := mul_lt_mul_of_pos_right digits (by positivity)
      _ = 2 ^ 52 * (2 * 2 ^ d) := by ring
      _ ≤ n * 2 ^ e := mul_le_mul full weight (by positivity) (by positivity)
  · have : (m : ℚ) < n := by exact_mod_cast less
    exact mul_lt_mul_of_pos_right this (by positivity)

/-- Weights are compared first, then digits. -/
theorem compare_scaled {m n : Nat} {d e : Int} (hm : FitsDouble m d) (hn : FitsDouble n e) :
    compare (m * 2 ^ d : ℚ) (n * 2 ^ e) = (compare d e).then (compare m n) := by
  rcases lt_trichotomy d e with less | rfl | greater
  · rw [compare_lt_iff_lt.mpr less]
    exact compare_lt_iff_lt.mpr (scaled_lt hm hn (.inl less))
  · have same : compare d d = .eq := compare_eq_iff_eq.mpr rfl
    rw [same]
    rcases lt_trichotomy m n with less | rfl | greater
    · rw [compare_lt_iff_lt.mpr less]
      exact compare_lt_iff_lt.mpr (scaled_lt hm hn (.inr ⟨rfl, less⟩))
    · have same : compare m m = .eq := compare_eq_iff_eq.mpr rfl
      rw [same]
      exact compare_eq_iff_eq.mpr rfl
    · rw [compare_gt_iff_gt.mpr greater]
      exact compare_gt_iff_gt.mpr (scaled_lt hn hm (.inr ⟨rfl, greater⟩))
  · rw [compare_gt_iff_gt.mpr greater]
    exact compare_gt_iff_gt.mpr (scaled_lt hn hm (.inl greater))

theorem compare_coe (p q : ℚ) :
    compare ((p : WithTop ℚ) : WithBot (WithTop ℚ)) ((q : WithTop ℚ) : WithBot (WithTop ℚ)) =
      compare p q := by
  rcases lt_trichotomy p q with less | rfl | greater
  · rw [compare_lt_iff_lt.mpr less, compare_lt_iff_lt]
    exact_mod_cast less
  · rw [compare_eq_iff_eq.mpr rfl, compare_eq_iff_eq.mpr rfl]
  · rw [compare_gt_iff_gt.mpr greater, compare_gt_iff_gt]
    exact_mod_cast greater

theorem compare_neg_neg (p q : ℚ) : compare (-p) (-q) = (compare p q).swap := by
  rcases lt_trichotomy p q with less | rfl | greater
  · rw [compare_lt_iff_lt.mpr less]
    exact compare_gt_iff_gt.mpr (neg_lt_neg less)
  · rw [compare_eq_iff_eq.mpr rfl, compare_eq_iff_eq.mpr rfl]
    rfl
  · rw [compare_gt_iff_gt.mpr greater]
    exact compare_lt_iff_lt.mpr (neg_lt_neg greater)

/-- Doubles are compared as the numbers that they stand for. -/
theorem compare_unpack (x y : Float.Model) : x.unpack.compare y.unpack =
    (exactOf? x.unpack).bind fun p => (exactOf? y.unpack).map fun q => compare p q := by
  have positive {m : Nat} {e : Int} (pos : 0 < m) : (0 : ℚ) < m * 2 ^ e := by positivity
  have negative {m : Nat} {e : Int} (pos : 0 < m) : (-(m * 2 ^ e) : ℚ) < 0 :=
    neg_lt_zero.mpr (positive pos)
  have less {p q : ℚ} (h : p < q) : some Ordering.lt =
      some (compare ((p : WithTop ℚ) : WithBot (WithTop ℚ)) ((q : WithTop ℚ) : _)) := by
    rw [compare_coe, compare_lt_iff_lt.mpr h]
  have greater {p q : ℚ} (h : q < p) : some Ordering.gt =
      some (compare ((p : WithTop ℚ) : WithBot (WithTop ℚ)) ((q : WithTop ℚ) : _)) := by
    rw [compare_coe, compare_gt_iff_gt.mpr h]
  -- Numbers of two kinds or of two signs are told apart by these; only two finite numbers of one
  -- sign are compared by weight and digits.
  cases hx : x.unpack with
  | notANumber => rfl
  | infinity s =>
    cases y.unpack with
    | notANumber | zero => cases s <;> rfl
    | infinity t | finite t => cases s <;> cases t <;> rfl
  | zero s =>
    cases y.unpack with
    | notANumber | zero => rfl
    | infinity t => cases t <;> rfl
    | finite t n e hn =>
      cases t with
      | negative => exact greater (negative hn)
      | positive => exact less (positive hn)
  | finite s m d hm =>
    cases hy : y.unpack with
    | notANumber => cases s <;> rfl
    | infinity t => cases s <;> cases t <;> rfl
    | zero t =>
      cases s with
      | negative => exact less (negative hm)
      | positive => exact greater (positive hm)
    | finite t n e hn =>
      have scaled := compare_scaled (fitsDouble_of_unpack hx) (fitsDouble_of_unpack hy)
      cases s with
      | negative =>
        cases t with
        | negative =>
          have swapped := (compare_neg_neg (m * 2 ^ d) (n * 2 ^ e)).trans (congrArg _ scaled)
          exact congrArg some ((compare_coe _ _).trans swapped).symm
        | positive => exact less ((negative hm).trans (positive hn))
      | positive =>
        cases t with
        | negative => exact greater ((negative hn).trans (positive hm))
        | positive => exact congrArg some ((compare_coe _ _).trans scaled).symm

/-! ## Less, equal and NaN -/

variable {x y z : Float}

/-- NaN alone stands for no number. -/
theorem exactValue?_eq_none_iff : exactValue? x = none ↔ x.isNaN = true := by
  change exactOf? x.toModel.unpack = none ↔ x.toModel.unpack.isNaN = true
  cases x.toModel.unpack with
  | notANumber => simp [exactOf?, UnpackedFloat.isNaN]
  | zero s => simp [exactOf?, UnpackedFloat.isNaN]
  | infinity s => cases s <;> simp [exactOf?, UnpackedFloat.isNaN]
  | finite s => cases s <;> simp [exactOf?, UnpackedFloat.isNaN]

theorem lt_iff_compare : x < y ↔ x.toModel.unpack.compare y.toModel.unpack = some .lt := by
  change decide (x.toModel.unpack.lt y.toModel.unpack = true) = true ↔ _
  simp [UnpackedFloat.lt]

theorem beq_iff_compare : (x == y) = true ↔
    x.toModel.unpack.compare y.toModel.unpack = some .eq := by
  change x.toModel.unpack.beq y.toModel.unpack = true ↔ _
  simp [UnpackedFloat.beq]

/-- The order of two doubles is that of the numbers they stand for. -/
theorem numberOrder?_eq (x y : Float) : numberOrder? x y =
    (exactValue? x).bind fun p => (exactValue? y).map fun q => compare p q := by
  have forward := compare_unpack x.toModel y.toModel
  have backward := compare_unpack y.toModel x.toModel
  unfold numberOrder? exactValue?
  simp only [lt_iff_compare, beq_iff_compare, forward, backward]
  cases exactOf? x.toModel.unpack with
  | none => simp
  | some p =>
    cases exactOf? y.toModel.unpack with
    | none => simp
    | some q =>
      simp only [Option.bind_some, Option.map_some, Option.some.injEq]
      rcases lt_trichotomy p q with less | rfl | greater
      · simp [compare_lt_iff_lt.mpr less]
      · simp
      · simp [compare_gt_iff_gt.mpr greater, compare_lt_iff_lt.mpr greater]

theorem beq_iff_numberOrder? : (x == y) = true ↔ numberOrder? x y = some .eq := by
  rw [numberOrder?_eq, beq_iff_compare, compare_unpack]
  rfl

theorem numberOrder?_swap (x y : Float) :
    (numberOrder? x y).map Ordering.swap = numberOrder? y x := by
  simp only [numberOrder?_eq]
  cases exactValue? x with
  | none => simp
  | some p =>
    cases exactValue? y with
    | none => rfl
    | some q => exact congrArg some Std.OrientedOrd.eq_swap.symm

theorem numberOrder?_trans (first : numberOrder? x y = some .lt)
    (second : numberOrder? y z = some .lt) : numberOrder? x z = some .lt := by
  simp only [numberOrder?_eq, Option.bind_eq_some_iff, Option.map_eq_some_iff] at first second ⊢
  obtain ⟨p, hp, q, hq, less⟩ := first
  obtain ⟨q', hq', t, ht, less'⟩ := second
  obtain rfl : q = q' := Option.some.inj (hq.symm.trans hq')
  exact ⟨p, hp, t, ht, Std.TransCmp.lt_trans less less'⟩

/-- NaN has no order with any number, and all others have one. -/
theorem numberOrder?_eq_none_iff :
    numberOrder? x y = none ↔ x.isNaN = true ∨ y.isNaN = true := by
  rw [numberOrder?_eq, ← exactValue?_eq_none_iff, ← exactValue?_eq_none_iff]
  cases exactValue? x with
  | none => simp
  | some p => simp

/-- Zero stands for the same number with either sign. -/
theorem exactValue?_neg_zero : exactValue? (-0) = exactValue? 0 := by
  have positive : (0 : Float).toModel.unpack = .zero .positive := by rfl
  have negative : (-0 : Float).toModel.unpack = .zero .negative := by rfl
  rw [exactValue?, exactValue?, positive, negative]
  rfl

end SheetFormula.Number
