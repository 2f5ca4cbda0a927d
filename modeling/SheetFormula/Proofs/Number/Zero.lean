import Mathlib
import SheetFormula.Proofs.Number.Order
import SheetFormula.Proofs.Number.Rounding

/-!
# Adding zero, and counts that are not zero

Two facts about doubles stand behind the functions that sum and average. Negative zero changes no
double that it is added to, NaN and both zeros among them (`neg_zero_add`), so a sum may begin with
it. And of all counts only that of nothing is equal to zero (`ofNat_beq_zero`), so a sum may be
divided by how many numbers there are.

An addition takes both doubles apart and packs the result. With a zero on one side the result are
the parts of the other one, and a double is what is packed of its own parts (`pack_unpack`). That
is proved on the bits, in the cases that they distinguish: an exponent of ones, an exponent of
zeros, and any other (`pack_unpack_bits`). For NaN it holds because there is one NaN only.

A count becomes a double by rounding, which for a small count is followed by a product with one
(`isZero_mul_one`). What weighs at least as much as the least digit of all keeps a digit when it is
rounded (`kept_pos`) and is then not packed as zero, even if it is packed as infinite
(`isZero_roundWithAccuracy`). A whole number weighs at least one, which is far more than that. So
no bound on the count is needed.
-/

namespace SheetFormula.Number

open Float.Model Float.Model.UnpackedFloat

/-! ## Packing what was unpacked -/

variable {bits : BitVec Format.binary64.numBits}

/-- The bits of a double are those of its sign, its exponent and its mantissa. -/
theorem packComponents_unpack (bits : BitVec Format.binary64.numBits) :
    packComponents .binary64 (Sign.ofBitVec (unpackSign bits)) (unpackExponent bits)
      (unpackMantissa bits) = bits := by
  have sign (v : BitVec 1) : (Sign.ofBitVec v).toBitVec = v := by decide +revert
  simp only [packComponents, sign, unpackSign, unpackExponent, unpackMantissa, BitVec.extractLsb]
  ext i hi
  grind

theorem packComponents_eq {exponent : BitVec Format.binary64.exponentBits}
    {mantissa : BitVec Format.binary64.mantissaBitsWithoutImplicit}
    (hexponent : unpackExponent bits = exponent) (hmantissa : unpackMantissa bits = mantissa) :
    packComponents .binary64 (Sign.ofBitVec (unpackSign bits)) exponent mantissa = bits := by
  subst hexponent hmantissa
  exact packComponents_unpack bits

/-- Nothing is lost when the bits of a double are taken apart, since there is one NaN only. -/
theorem pack_unpack_bits (valid : Format.binary64.Valid bits) :
    UnpackedFloat.pack .binary64 (UnpackedFloat.unpack .binary64 bits) = bits := by
  have bias : ((Format.binary64.exponentBias : Nat) : Int) = 1023 := rfl
  have width : ((Format.binary64.mantissaBitsWithoutImplicit : Nat) : Int) = 52 := rfl
  have digits : Format.binary64.mantissaBits = 53 := rfl
  have mantissaBound : (unpackMantissa bits).toNat < 2 ^ 52 := BitVec.isLt _
  have exponentBound : (unpackExponent bits).toNat < 2 ^ 11 := BitVec.isLt _
  unfold UnpackedFloat.unpack
  dsimp only
  split_ifs with ones none zero none'
  · exact packComponents_eq ones none
  · exact (valid.eq_packedNaN ones none).symm
  · exact packComponents_eq zero none'
  · -- fewer than fifty-three digits
    have few : ¬(unpackMantissa bits).toNat.log2 + 1 = 53 := by
      have positive : (unpackMantissa bits).toNat ≠ 0 := fun h =>
        none' (BitVec.eq_of_toNat_eq h)
      have := (Nat.log2_lt positive).mpr mantissaBound
      omega
    unfold UnpackedFloat.pack
    simp only [bias, width, digits, zero, if_neg few]
    norm_num
    exact packComponents_eq zero rfl
  · -- fifty-three digits, of which the first is not kept
    have whole := toNat_one_append_mantissa (unpackMantissa bits)
    have many : (1#1 ++ unpackMantissa bits).toNat.log2 + 1 = 53 :=
      congrArg (· + 1) ((Nat.log2_eq_iff (k := 52) (by omega)).mpr (by omega))
    have finite : (unpackExponent bits).toNat ≠ 2 ^ 11 - 1 := fun h =>
      ones (BitVec.eq_of_toNat_eq h)
    have exponent : ((unpackExponent bits).toNat - (1023 + 52) + 1023 + 52 : Int).toNat =
        (unpackExponent bits).toNat := by
      omega
    unfold UnpackedFloat.pack
    simp only [bias, width, digits, exponent, if_pos many]
    rw [if_neg (by omega)]
    refine packComponents_eq (BitVec.eq_of_toNat_eq ?_) (BitVec.eq_of_toNat_eq ?_)
    · rw [BitVec.toNat_ofNat]
      exact (Nat.mod_eq_of_lt exponentBound).symm
    · rw [BitVec.toNat_ofNat, whole]
      change _ = (2 ^ 52 + (unpackMantissa bits).toNat) % 2 ^ 52
      omega

/-- A double is what is packed of its own parts. -/
theorem pack_unpack (x : Float.Model) : Float.Model.pack x.unpack = x := by
  obtain ⟨bits, valid⟩ := x
  have same : UnpackedFloat.pack .binary64 (UnpackedFloat.unpack .binary64 bits.toBitVec) =
      bits.toBitVec := pack_unpack_bits valid
  simp only [Float.Model.pack, Float.Model.unpack, same]

/-- Negative zero changes no number that it is added to. -/
theorem neg_zero_add (x : Float) : -0.0 + x = x := by
  have zero : (-0.0 : Float).toModel.unpack = .zero .negative := by rfl
  have parts (u : UnpackedFloat) : UnpackedFloat.add .binary64 (.zero .negative) u = u := by
    cases u with
    | zero s => cases s <;> rfl
    | _ => rfl
  change Float.ofModel (Float.Model.pack
    (UnpackedFloat.add .binary64 (-0.0 : Float).toModel.unpack x.toModel.unpack)) = x
  rw [zero, parts, pack_unpack]

/-! ## Counts -/

variable {sign : UnpackedFloat.Sign} {M : Nat} {E : Int}

/-- Zero of either sign. -/
def IsZero : UnpackedFloat → Bool
  | .zero _ => true
  | _ => false

theorem beq_zero_of_isZero {x : Float} (h : IsZero x.toModel.unpack = false) :
    (x == 0) = false := by
  have zero : (0 : Float).toModel.unpack = .zero .positive := by rfl
  rw [← Bool.not_eq_true, beq_iff_compare, zero]
  revert h
  cases x.toModel.unpack with
  | notANumber => simp [UnpackedFloat.compare]
  | infinity s => cases s <;> simp [UnpackedFloat.compare]
  | zero s => simp [IsZero]
  | finite s => cases s <;> simp [UnpackedFloat.compare]

/-- What has a digit of at least the lowest weight keeps one. -/
theorem div_target_pos (pos : 0 < M) (low : -1074 ≤ (M.log2 : Int) + E) :
    0 < M / 2 ^ (target M E - E).toNat := by
  refine Nat.div_pos ((Nat.pow_le_pow_right (by decide) ?_).trans (Nat.log2_self_le pos.ne'))
    (Nat.two_pow_pos _)
  unfold target
  omega

theorem mantissa_le_roundedMantissa (em : ExtendedMantissa) :
    em.mantissa ≤ em.roundedMantissa := by
  obtain ⟨m, r, s⟩ := em
  cases r <;> cases s <;>
    simp only [ExtendedMantissa.roundedMantissa, ExtendedMantissa.accuracy,
      Accuracy.roundToNearestEven] <;> omega

theorem kept_pos (pos : 0 < M) (low : -1074 ≤ (M.log2 : Int) + E) : 0 < (kept M E).1 := by
  refine (div_target_pos pos low).trans_le ?_
  have le := mantissa_le_roundedMantissa
    (ExtendedMantissa.ofMantissaAndAccuracy M .exact >>> (target M E - E).toNat)
  rw [mantissa_shiftRight] at le
  exact le

/-- A double that has digits is not packed as zero, even if it is packed as infinite. -/
theorem isZero_pack {m : Nat} {e : Int} (pos : 0 < m) (digits : m < 2 ^ 53) (min : -1074 ≤ e) :
    IsZero (Float.Model.pack (.finite sign m e pos)).unpack = false := by
  by_cases max : e ≤ 971
  · obtain ⟨s, e', same, -⟩ := unpack_pack sign pos digits min max
    rw [same]
    rfl
  · have infinite :
        Float.Model.pack (.finite sign m e pos) = Float.Model.pack (.infinity sign) := by
      unfold Float.Model.pack
      simp only [UnpackedFloat.pack, Format.exponentBias, Format.mantissaBits]
      norm_num
      omega
    rw [infinite]
    cases sign <;> rfl

/-- What is not below the least digit is not rounded to zero. -/
theorem isZero_roundWithAccuracy (pos : 0 < M) (low : -1074 ≤ (M.log2 : Int) + E) :
    IsZero (Float.Model.pack (roundWithAccuracy Format.binary64 sign M E .exact)).unpack =
      false := by
  have keptPos := kept_pos pos low
  have keptLow : -1074 ≤ (kept M E).2 := by
    rw [kept_snd]
    exact le_max_of_le_right (le_max_right _ _)
  have left := div_target_pos keptPos (E := (kept M E).2) (by omega)
  rw [roundWithAccuracy_eq, dif_neg left.ne']
  refine isZero_pack left ?_ (by omega)
  rw [Nat.div_lt_iff_lt_mul (Nat.two_pow_pos _), ← Nat.pow_add]
  exact lt_of_target _ _

theorem log2_add_le (pos : 0 < M) (k : Nat) : M.log2 + k ≤ (M * 2 ^ k).log2 := by
  refine (Nat.le_log2 (Nat.mul_pos pos (Nat.two_pow_pos k)).ne').mpr ?_
  rw [Nat.pow_add]
  exact Nat.mul_le_mul_right _ (Nat.log2_self_le pos.ne')

/-- Zeros behind the binary digits of a whole number leave it one that is not rounded to zero. -/
theorem isZero_roundWithAccuracy_shiftLeft (pos : 0 < M) (k : Nat) :
    IsZero (Float.Model.pack (roundWithAccuracy Format.binary64 sign (M <<< k) (-k) .exact)).unpack
      = false := by
  rw [Nat.shiftLeft_eq]
  have := log2_add_le pos k
  exact isZero_roundWithAccuracy (Nat.mul_pos pos (Nat.two_pow_pos k)) (by omega)

/-- One is a double, so the quick way to read a whole number ends with a product. -/
theorem isZero_mul_one {x : Float} (h : IsZero x.toModel.unpack = false) :
    IsZero (x * Float.exactlyRepresentablePowersOfTen[0]).toModel.unpack = false := by
  change IsZero (Float.Model.pack (UnpackedFloat.mul Format.binary64 x.toModel.unpack
    Float.exactlyRepresentablePowersOfTen[0].toModel.unpack)).unpack = false
  rw [unpack_one]
  revert h
  cases hx : x.toModel.unpack with
  | notANumber => exact fun _ => by rfl
  | infinity s => cases s <;> exact fun _ => by rfl
  | zero s => exact fun h => Bool.noConfusion h
  | finite s m e pos =>
    intro _
    refine isZero_roundWithAccuracy (Nat.mul_pos pos (by decide)) ?_
    have weight := (fitsDouble_of_unpack hx).weight
    have scaled := log2_add_le pos 52
    omega

theorem isZero_toFloat {n : UInt64} (pos : 0 < n.toNat) :
    IsZero n.toFloat.toModel.unpack = false := by
  have greater : compare (n.toNat : Int) 0 = .gt := Int.compare_eq_gt.mpr (by omega)
  change IsZero (Float.Model.pack
    (UnpackedFloat.normalize Format.binary64 n.toNat 0 .positive)).unpack = false
  unfold UnpackedFloat.normalize
  rw [greater]
  unfold UnpackedFloat.round decreaseExponent
  simp only [Int.zero_sub]
  exact isZero_roundWithAccuracy_shiftLeft pos _

/-- No count but that of nothing is equal to zero. -/
theorem ofNat_beq_zero {n : Nat} (pos : 0 < n) : (Float.ofNat n == 0) = false := by
  refine beq_zero_of_isZero ?_
  change IsZero (Float.ofScientific n false 0).toModel.unpack = false
  rw [Float.ofScientific]
  split
  · next small =>
    have same : n.toUInt64.toNat = n := by
      rw [Nat.toUInt64, UInt64.toNat_ofNat']
      omega
    exact isZero_mul_one (isZero_toFloat (by omega))
  · change IsZero (Float.Model.pack
      (UnpackedFloat.ofScientific Format.binary64 n (0 : Nat))).unpack = false
    have notBelow : ¬((0 : Nat) : Int) < -(2 ^ 11 + (n.log2 : Int)) := by omega
    rw [UnpackedFloat.ofScientific, dif_neg pos.ne', if_neg (by decide), if_neg notBelow,
      if_pos (by decide)]
    simp only [UnpackedFloat.mul, Int.add_zero, Int.toNat_natCast, Nat.pow_zero, Nat.mul_one]
    exact isZero_roundWithAccuracy_shiftLeft pos _

end SheetFormula.Number
