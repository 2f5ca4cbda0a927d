import SheetFormula.Json.Number
import SheetFormula.Proofs.Number.Rounding

/-!
# Decimals within the range of doubles

The reader of JSON numbers computes `significand · 10 ^ exponent` by rounding both factors and then
the product. The three errors together could carry a decimal beyond the largest double, but not one
that is at least a step below it: up to `Json.rangeBound`, the upper end of what is nearest to the
largest double but one, every decimal has a double (`Json.isSome_scale?`).

Rounding is monotone, so it is enough to look at the largest factors. For each power of ten this is
the largest significand that is read before it and stays within the bound
(`Json.largestSignificand`). The doubles next to the two factors are given by their digits
(`Json.nearest`), and `Json.Scales` says that they are next to them (`Json.RoundsTo`) and that
their product is nearer to the largest double than to what would follow it.

Up to `10 ^ 288` it is not the bound but the limit of significands that keeps the product small, so
that all of these powers are settled with the last one of them. What is left are twenty-one powers,
and for these `Json.scales_288_add` computes with the digits.

That the computation is about the doubles of the reader is what
`SheetFormula.Proofs.Number.Rounding` gives: each factor is at most the double next to the largest
one (`Json.atMost_powerOfTen`), hence so is their product, and the product is finite.
-/

namespace SheetFormula.Json

open Number

/-- The upper end of the decimals that are nearest to the largest double but one. -/
def rangeBound : Nat :=
  (2 ^ 54 - 3) * 2 ^ 970

/-- The double next to a whole number, by its fifty-three binary digits and the weight of the
last. -/
def nearest (s : Nat) : Nat × Int :=
  let t : Int := s.log2 - 52
  ((2 * s * 2 ^ (-t).toNat + 2 ^ t.toNat) / (2 * 2 ^ t.toNat), t)

/-- What is up to `s` is rounded to the double next to it or to a smaller one. -/
def RoundsTo (s : Nat) (x : Nat × Int) : Prop :=
  2 ^ 52 ≤ x.1 ∧ x.1 < 2 ^ 53 ∧ -52 ≤ x.2 ∧ x.2 ≤ 971 ∧ 2 * (s : ℚ) < (2 * x.1 + 1) * 2 ^ x.2

instance (s : Nat) (x : Nat × Int) : Decidable (RoundsTo s x) :=
  inferInstanceAs (Decidable (_ ∧ _))

/-- No significand that is read before `10 ^ k` and is within the bound is larger. -/
def largestSignificand (k : Nat) : Nat :=
  min (significandLimit + 1) (rangeBound / 10 ^ k)

/-- The product of the doubles next to the largest significand and to `10 ^ k` is nearer to the
largest double than to what would follow it. -/
def Scales (k : Nat) : Prop :=
  let x := nearest (largestSignificand k)
  let y := nearest (10 ^ k)
  RoundsTo (largestSignificand k) x ∧ RoundsTo (10 ^ k) y ∧ x.2 + y.2 ≤ 971 ∧
    2 * ((x.1 * y.1 : ℚ) * 2 ^ (x.2 + y.2)) < (2 * (2 ^ 53 - 1 : Nat) + 1) * 2 ^ (971 : Int)

instance (k : Nat) : Decidable (Scales k) :=
  inferInstanceAs (Decidable (_ ∧ _))

/-- Up to `10 ^ 288` it is the limit of significands that keeps the product small. -/
theorem scales_288_add : ∀ k < 21, Scales (288 + k) := by
  decide +kernel

theorem le_largestSignificand {S k : Nat} (small : S ≤ significandLimit)
    (le : S * 10 ^ k ≤ rangeBound) : S ≤ largestSignificand (max k 288) := by
  refine Nat.le_min.mpr ⟨Nat.le_succ_of_le small, ?_⟩
  rcases Nat.le_total 288 k with large | few
  · rw [Nat.max_eq_left large]
    exact (Nat.le_div_iff_mul_le (by positivity)).mpr le
  · have room : significandLimit ≤ rangeBound / 10 ^ 288 := by decide +kernel
    rw [Nat.max_eq_right few]
    exact small.trans room

theorem atMost_ofNat_of_roundsTo {S s : Nat} {x : Nat × Int} (h : RoundsTo s x) (le : S ≤ s) :
    AtMost (Float.ofNat S).toModel.unpack x.1 x.2 := by
  obtain ⟨low, high, min, max, near⟩ := h
  have : (S : ℚ) ≤ s := by exact_mod_cast le
  exact atMost_ofNat low high min max (by linarith)

/-- The powers of ten that are in a table are far below the others. -/
theorem atMost_table : ∀ k < 23, AtMost (powerOfTen k).toModel.unpack (nearest (10 ^ 288)).1
    (nearest (10 ^ 288)).2 := by
  decide +kernel

theorem atMost_powerOfTen {k : Nat} (le : k ≤ 308)
    (h : RoundsTo (10 ^ max k 288) (nearest (10 ^ max k 288))) :
    AtMost (powerOfTen k).toModel.unpack (nearest (10 ^ max k 288)).1
      (nearest (10 ^ max k 288)).2 := by
  by_cases few : k < 23
  · rw [Nat.max_eq_right (by omega)]
    exact atMost_table k few
  · obtain ⟨low, high, min, max, near⟩ := h
    have : (10 ^ k : ℚ) ≤ 10 ^ Max.max k 288 :=
      pow_le_pow_right₀ (by norm_num) (Nat.le_max_left _ _)
    refine atMost_ofScientific (by norm_num) (by omega) (by omega) low high (by omega) max ?_
    push_cast at near ⊢
    linarith

/-- A decimal up to the bound has a double. -/
theorem isSome_scale? {S : Nat} {exponent : Int} (small : S ≤ significandLimit)
    (le : S * 10 ^ exponent.toNat ≤ rangeBound) : (scale? S exponent).isSome = true := by
  unfold scale?
  dsimp only
  split
  · rfl
  · next nonneg =>
    split
    · next beyond =>
      have zero : S = 0 := by
        by_contra nonzero
        have bound : rangeBound < 10 ^ 309 := by decide +kernel
        have once := Nat.le_mul_of_pos_left (10 ^ exponent.toNat) (Nat.pos_of_ne_zero nonzero)
        have few := (Nat.pow_lt_pow_iff_right (by norm_num)).mp ((once.trans le).trans_lt bound)
        omega
      subst zero
      rfl
    · have natAbs : exponent.natAbs = exponent.toNat := by omega
      have within : exponent.toNat ≤ 308 := by omega
      rw [natAbs]
      generalize exponent.toNat = k at le within
      have scales : Scales (max k 288) := by
        have := scales_288_add (max k 288 - 288) (by omega)
        rwa [show 288 + (max k 288 - 288) = max k 288 by omega] at this
      obtain ⟨roundsS, roundsPower, sum, near⟩ := scales
      have product := atMost_mul
        (atMost_ofNat_of_roundsTo roundsS (le_largestSignificand small le))
        (atMost_powerOfTen within roundsPower) (n := 2 ^ 53 - 1) (t := 971) (by norm_num)
        (by norm_num) (by norm_num) (by norm_num) sum near
      rw [isInf_eq_false_of_atMost product]
      rfl

end SheetFormula.Json
