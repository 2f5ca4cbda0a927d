import Mathlib
import SheetFormula.Number.Numeral

/-!
# Decimals are numbers

A numeral is never read as NaN (`Numeral.isNaN_toFloat`). It is read by rounding a whole number, by
multiplying or dividing one by a power of ten, or by rounding a quotient, and each of these is
followed on the parts of a double: its sign, its weight and its digits.

NaN comes only from NaN where a double is packed from its parts (`isNaN_pack`) or negated
(`isNaN_neg`). What is rounded has digits, becomes zero or is too large, and none of these is NaN
(`isNaN_roundWithAccuracy`). A product or a quotient is NaN for the sake of its second operand only
if that is zero, infinite or NaN itself, hence not if it is a power of ten from the table
(`isNaN_mul`, `isNaN_div`). The table is looked through entry by entry
(`isFiniteNonzero_powerOfTen`).

Reading a whole number with a power of ten distinguishes the quick way, which is exact because both
fit into a double, and the general one. `isNaN_ofScientific` goes through these cases and leaves no
condition on the numbers, which is why no range of exponents has to be considered where numerals
are used.
-/

namespace SheetFormula.Number

open Float.Model Float.Model.UnpackedFloat

/-! ## Packing -/

theorem isNaN_unpack (bits : BitVec Format.binary64.numBits) :
    (UnpackedFloat.unpack Format.binary64 bits).isNaN = true ↔
      unpackExponent bits = -1#11 ∧ unpackMantissa bits ≠ 0#52 := by
  unfold UnpackedFloat.unpack
  dsimp only
  split
  · next ones => split <;> simp_all [UnpackedFloat.isNaN]
  · next finite =>
    refine iff_of_false ?_ fun both => finite both.1
    split
    · split <;> exact Bool.false_ne_true
    · exact Bool.false_ne_true

/-- What is packed is NaN only if it was before. -/
theorem isNaN_pack (f : UnpackedFloat) : (Float.Model.pack f).isNaN = f.isNaN := by
  rw [Bool.eq_iff_iff]
  change (UnpackedFloat.unpack Format.binary64
    (UnpackedFloat.pack Format.binary64 f)).isNaN = true ↔ _
  rw [isNaN_unpack]
  fun_cases UnpackedFloat.pack Format.binary64 f with
  | case1 => simp [packedNaN, UnpackedFloat.isNaN]
  | case2 | case4 => simp [packedInfinity, UnpackedFloat.isNaN]
  | case3 => simp [packedZero, UnpackedFloat.isNaN]
  | case5 s m e pos digits exponent small normal =>
    refine iff_of_false (fun both => ?_) Bool.false_ne_true
    have ones := congrArg BitVec.toNat both.1
    rw [unpackExponent_packComponents, BitVec.toNat_ofNat] at ones
    simp at ones small
    omega
  | case6 => simp [UnpackedFloat.isNaN]

variable {x y : Float}

theorem isNaN_neg (x : Float) : (-x).isNaN = x.isNaN := by
  change (Float.Model.pack x.toModel.unpack.neg).isNaN = x.toModel.unpack.isNaN
  rw [isNaN_pack]
  cases x.toModel.unpack <;> rfl

theorem isNaN_roundWithAccuracy (sign : Sign) (M : Nat) (E : Int) (accuracy : Accuracy) :
    (roundWithAccuracy Format.binary64 sign M E accuracy).isNaN = false := by
  unfold roundWithAccuracy
  dsimp only
  split <;> rfl

/-- Neither zero nor infinite nor NaN. -/
def IsFiniteNonzero : UnpackedFloat → Bool
  | .finite .. => true
  | _ => false

theorem isNaN_mul (proper : IsFiniteNonzero y.toModel.unpack = true) :
    (x * y).isNaN = x.isNaN := by
  change (Float.Model.pack
    (UnpackedFloat.mul Format.binary64 x.toModel.unpack y.toModel.unpack)).isNaN =
      x.toModel.unpack.isNaN
  rw [isNaN_pack]
  revert proper
  cases y.toModel.unpack with
  | finite =>
    intro _
    cases x.toModel.unpack with
    | finite => exact isNaN_roundWithAccuracy ..
    | _ => rfl
  | _ => exact Bool.noConfusion

theorem isNaN_div (proper : IsFiniteNonzero y.toModel.unpack = true) :
    (x / y).isNaN = x.isNaN := by
  change (Float.Model.pack
    (UnpackedFloat.div Format.binary64 x.toModel.unpack y.toModel.unpack)).isNaN =
      x.toModel.unpack.isNaN
  rw [isNaN_pack]
  revert proper
  cases y.toModel.unpack with
  | finite =>
    intro _
    cases x.toModel.unpack with
    | finite => exact isNaN_roundWithAccuracy ..
    | _ => rfl
  | _ => exact Bool.noConfusion

theorem isNaN_toFloat (n : UInt64) : n.toFloat.isNaN = false := by
  change (Float.Model.pack (UnpackedFloat.normalize Format.binary64 n.toNat 0 .positive)).isNaN =
    false
  rw [isNaN_pack]
  unfold UnpackedFloat.normalize
  split
  · exact isNaN_roundWithAccuracy ..
  · rfl
  · exact isNaN_roundWithAccuracy ..

theorem isFiniteNonzero_powerOfTen : ∀ k : Fin Float.exactlyRepresentablePowersOfTen.size,
    IsFiniteNonzero Float.exactlyRepresentablePowersOfTen[k].toModel.unpack = true := by
  decide

theorem isNaN_ofScientific (m : Nat) (below : Bool) (e : Nat) :
    (Float.ofScientific m below e).isNaN = false := by
  rw [Float.ofScientific]
  split
  · next small =>
    have within : e < Float.exactlyRepresentablePowersOfTen.size := Nat.lt_succ_of_le small.2
    have power : IsFiniteNonzero Float.exactlyRepresentablePowersOfTen[e].toModel.unpack = true :=
      isFiniteNonzero_powerOfTen ⟨e, within⟩
    dsimp only
    split
    · rw [isNaN_div power, isNaN_toFloat]
    · rw [isNaN_mul power, isNaN_toFloat]
  · dsimp only
    generalize (if below = true then Int.negOfNat e else Int.ofNat e) = exponent
    change (Float.Model.pack
      (UnpackedFloat.ofScientific Format.binary64 m exponent)).isNaN = false
    rw [isNaN_pack]
    unfold UnpackedFloat.ofScientific
    split_ifs
    · rfl
    · rfl
    · rfl
    · exact isNaN_roundWithAccuracy ..
    · exact isNaN_roundWithAccuracy ..

/-- No numeral is read as NaN. -/
theorem Numeral.isNaN_toFloat (n : Numeral) : n.toFloat.isNaN = false := by
  have zero : (0 : Float).isNaN = false := by decide
  have infinite : infinity.isNaN = false := by decide
  unfold toFloat
  split_ifs
  · exact zero
  · exact infinite
  · exact zero
  · exact isNaN_ofScientific ..

end SheetFormula.Number
