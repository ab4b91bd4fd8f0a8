import Mathlib.Algebra.Order.Field.Power
import Mathlib.Data.Rat.Floor
import Mathlib.Tactic.Linarith
import Unnest.Double

/-!
# Rounding to the nearest double

The finite doubles from a power of two to the next one lie on a grid of multiples of a power of two.
A positive rational has one grid (`Double.IsGrid`), and rounding finds it and then the nearest
multiple, a half to the even one (`Double.ofRatio_eq`).
-/

namespace Unnest

namespace Double

/-! ## Bits -/

theorem bits_ofMagnitude (isNegative : Bool) {magnitude : Nat} (below : magnitude < signBit) :
    (ofMagnitude isNegative magnitude).bits.toNat =
      (if isNegative then signBit else 0) + magnitude := by
  rw [ofMagnitude, UInt64.toNat_ofNat_of_lt']
  unfold signBit at below ⊢
  cases isNegative <;> simp only [Bool.false_eq_true, if_true, if_false, UInt64.size] <;> omega

theorem magnitude_ofMagnitude (isNegative : Bool) {magnitude : Nat} (below : magnitude < signBit) :
    (ofMagnitude isNegative magnitude).magnitude = magnitude := by
  rw [Double.magnitude, bits_ofMagnitude isNegative below]
  unfold signBit at below ⊢
  cases isNegative <;> simp only [Bool.false_eq_true, if_true, if_false] <;> omega

theorem ofMagnitude_self (number : Double) :
    ofMagnitude number.isNegative number.magnitude = number := by
  have sameBits := number.bits_toNat
  have isSame : UInt64.ofNat
      ((if number.isNegative then signBit else 0) + number.magnitude) = number.bits := by
    rw [← sameBits, UInt64.ofNat_toNat]
  rw [ofMagnitude, isSame]

theorem isFinite_iff (number : Double) :
    number.isFinite = true ↔ number.magnitude < 2047 * hiddenBit := by
  have bound : number.magnitude < signBit := Nat.mod_lt _ (by decide)
  rw [isFinite, biasedExponent, bne_iff_ne]
  unfold signBit at bound
  unfold hiddenBit
  omega

theorem isFinite_ofMagnitude (isNegative : Bool) {magnitude : Nat}
    (below : magnitude < 2047 * hiddenBit) :
    (ofMagnitude isNegative magnitude).isFinite = true := by
  have fits : magnitude < signBit := by
    unfold signBit
    unfold hiddenBit at below
    omega
  rw [isFinite_iff, magnitude_ofMagnitude isNegative fits]
  exact below

theorem isFinite_infinity (isNegative : Bool) : (infinity isNegative).isFinite = false := by
  cases isNegative <;> decide

/-- The magnitude counts the doubles from zero on, along one grid after the other. -/
theorem magnitude_eq (number : Double) :
    number.magnitude = (number.exponent + 1074).toNat * hiddenBit + number.significand := by
  have parts := Nat.div_add_mod number.magnitude hiddenBit
  rw [exponent, significand, fraction, biasedExponent]
  unfold hiddenBit at parts ⊢
  split <;> omega

/-- The significand of a double lies on its grid. -/
theorem significand_onGrid (number : Double) :
    -1074 ≤ number.exponent ∧ number.significand < 2 * hiddenBit ∧
      (number.exponent = -1074 ∨ hiddenBit ≤ number.significand) := by
  rw [exponent, significand, fraction, biasedExponent]
  unfold hiddenBit
  split <;> omega

/-! ## The nearest natural -/

/-- The natural is the one nearest to the value, and even if there are two. -/
structure RoundsTo (value : ℚ) (nearest : ℕ) : Prop where
  near : |value - nearest| ≤ 1 / 2
  toEven : |value - nearest| = 1 / 2 → nearest % 2 = 0

theorem RoundsTo.unique {value : ℚ} {left right : ℕ} (roundsLeft : RoundsTo value left)
    (roundsRight : RoundsTo value right) : left = right := by
  rcases abs_le.mp roundsLeft.near with ⟨leftBelow, leftAbove⟩
  rcases abs_le.mp roundsRight.near with ⟨rightBelow, rightAbove⟩
  -- Two naturals that differ are both at a distance of a half, and they are neighbours.
  have tie {small great : ℕ} (roundsSmall : RoundsTo value small)
      (roundsGreat : RoundsTo value great) (isLess : small < great) : False := by
    rcases abs_le.mp roundsSmall.near with ⟨_, smallAbove⟩
    rcases abs_le.mp roundsGreat.near with ⟨greatBelow, _⟩
    have isNext : (small : ℚ) + 1 ≤ great := by exact_mod_cast isLess
    have smallHalf : value - small = 1 / 2 := by linarith
    have greatHalf : value - great = -(1 / 2) := by linarith
    have smallEven := roundsSmall.toEven (by rw [smallHalf]; norm_num)
    have greatEven := roundsGreat.toEven (by rw [greatHalf]; norm_num)
    have areNeighbours : (great : ℚ) = ((small + 1 : ℕ) : ℚ) := by
      push_cast
      linarith
    have isSucc : great = small + 1 := by exact_mod_cast areNeighbours
    omega
  rcases Nat.lt_trichotomy left right with isLess | isSame | isGreater
  · exact (tie roundsLeft roundsRight isLess).elim
  · exact isSame
  · exact (tie roundsRight roundsLeft isGreater).elim

theorem roundsTo_of_below (whole : ℕ) {part : ℚ} (notNegative : 0 ≤ part) (below : part < 1 / 2) :
    RoundsTo (whole + part) whole := by
  constructor
  · rw [add_sub_cancel_left, abs_of_nonneg notNegative]
    exact below.le
  · intro isHalf
    rw [add_sub_cancel_left, abs_of_nonneg notNegative] at isHalf
    exact absurd isHalf below.ne

theorem roundsTo_of_above (whole : ℕ) {part : ℚ} (above : 1 / 2 < part) (belowOne : part < 1) :
    RoundsTo (whole + part) (whole + 1 : ℕ) := by
  have distance : |(whole : ℚ) + part - (whole + 1 : ℕ)| = 1 - part := by
    push_cast
    rw [add_sub_add_left_eq_sub, abs_of_neg (by linarith)]
    ring
  constructor
  · rw [distance]
    linarith
  · intro isHalf
    rw [distance] at isHalf
    linarith

theorem roundsTo_half (whole : ℕ) : RoundsTo (whole + 1 / 2) (whole + whole % 2 : ℕ) := by
  rcases Nat.mod_two_eq_zero_or_one whole with isEven | isOdd
  · rw [isEven]
    exact ⟨by norm_num, fun _ => isEven⟩
  · rw [isOdd]
    refine ⟨?_, fun _ => by omega⟩
    push_cast
    rw [add_sub_add_left_eq_sub]
    norm_num

theorem roundsTo_divideToEven (numerator : ℕ) {denominator : ℕ} (positive : 0 < denominator) :
    RoundsTo (numerator / denominator) (divideToEven numerator denominator) := by
  have isPositive : (0 : ℚ) < denominator := by exact_mod_cast positive
  have parts : (numerator : ℚ) / denominator =
      (numerator / denominator : ℕ) + (numerator % denominator : ℕ) / denominator := by
    rw [div_eq_iff isPositive.ne', add_mul, div_mul_cancel₀ _ isPositive.ne']
    exact_mod_cast (Nat.div_add_mod' numerator denominator).symm
  have restBelow : numerator % denominator < denominator := Nat.mod_lt numerator positive
  rw [parts, divideToEven]
  generalize numerator / denominator = whole
  generalize numerator % denominator = rest at restBelow
  have notNegative : (0 : ℚ) ≤ rest / denominator := by positivity
  have belowOne : (rest : ℚ) / denominator < 1 := by
    rw [div_lt_one isPositive]
    exact_mod_cast restBelow
  rcases Nat.lt_trichotomy (2 * rest) denominator with isBelow | isMiddle | isAbove
  · rw [if_pos isBelow]
    apply roundsTo_of_below whole notNegative
    rw [div_lt_div_iff₀ isPositive (by norm_num)]
    exact_mod_cast (by omega : rest * 2 < 1 * denominator)
  · have half : (rest : ℚ) / denominator = 1 / 2 := by
      rw [div_eq_div_iff isPositive.ne' (by norm_num)]
      exact_mod_cast (by omega : rest * 2 = 1 * denominator)
    rw [if_neg (by omega), if_neg (by omega), half]
    exact roundsTo_half whole
  · rw [if_neg (by omega), if_pos isAbove]
    apply roundsTo_of_above whole _ belowOne
    rw [div_lt_div_iff₀ (by norm_num) isPositive]
    exact_mod_cast (by omega : 1 * denominator < rest * 2)

/-! ## Grids -/

/-- The doubles around the value are multiples of the power of two with this exponent. -/
structure IsGrid (value : ℚ) (exponent : ℤ) : Prop where
  finest : -1074 ≤ exponent
  below : value < 2 ^ (exponent + 53)
  above : exponent = -1074 ∨ 2 ^ (exponent + 52) ≤ value

theorem IsGrid.unique {value : ℚ} {left right : ℤ} (isLeft : IsGrid value left)
    (isRight : IsGrid value right) : left = right := by
  have notCoarser {fine coarse : ℤ} (isFine : IsGrid value fine) (isCoarse : IsGrid value coarse) :
      ¬ fine < coarse := by
    intro isLess
    rcases isCoarse.above with isFinest | above
    · have := isFine.finest
      omega
    · have isSmaller : (2 : ℚ) ^ (fine + 53) ≤ 2 ^ (coarse + 52) :=
        zpow_le_zpow_right₀ (by norm_num) (by omega)
      exact absurd (isFine.below.trans_le isSmaller) (not_lt.mpr above)
  exact le_antisymm (not_lt.mp (notCoarser isRight isLeft)) (not_lt.mp (notCoarser isLeft isRight))

theorem scaleRatio_div (numerator denominator : ℕ) (exponent : ℤ) :
    ((scaleRatio numerator denominator exponent).1 : ℚ) /
        (scaleRatio numerator denominator exponent).2 =
      numerator / denominator * 2 ^ (-exponent) := by
  have power : (2 : ℚ) ^ (-exponent) = 2 ^ (-exponent).toNat / 2 ^ exponent.toNat := by
    rw [← zpow_natCast, ← zpow_natCast, ← zpow_sub₀ (by norm_num)]
    congr 1
    omega
  rw [scaleRatio, power]
  push_cast [Nat.pow_eq]
  rw [mul_div_mul_comm]

theorem scaleRatio_positive (numerator : ℕ) {denominator : ℕ} (positive : 0 < denominator)
    (exponent : ℤ) : 0 < (scaleRatio numerator denominator exponent).2 :=
  Nat.mul_pos positive (Nat.pow_pos (by decide))

/-- A scaled ratio is compared with a natural by its whole part. -/
theorem scaled_lt_iff (numerator : ℕ) {denominator : ℕ} (positive : 0 < denominator)
    (exponent : ℤ) :
    (scaleRatio numerator denominator exponent).1 / (scaleRatio numerator denominator exponent).2 <
        2 * hiddenBit ↔ (numerator : ℚ) / denominator < 2 ^ (exponent + 53) := by
  have scaledPositive := scaleRatio_positive numerator positive exponent
  have isScaled := scaleRatio_div numerator denominator exponent
  generalize scaleRatio numerator denominator exponent = scaled at *
  have isPositive : (0 : ℚ) < scaled.2 := by exact_mod_cast scaledPositive
  have isBound : ((2 * hiddenBit : ℕ) : ℚ) = 2 ^ (53 : ℤ) := by
    norm_num [hiddenBit]
  rw [Nat.div_lt_iff_lt_mul scaledPositive, ← Nat.cast_lt (α := ℚ), Nat.cast_mul,
    ← div_lt_iff₀ isPositive, isScaled, isBound, zpow_neg, ← div_eq_mul_inv,
    div_lt_iff₀ (zpow_pos (by norm_num) _), ← zpow_add₀ (by norm_num), add_comm]

/-- A ratio lies between powers of two that its binary logarithms give. -/
theorem ratio_between {numerator denominator : ℕ} (notZero : numerator ≠ 0)
    (positive : 0 < denominator) :
    (2 : ℚ) ^ ((Nat.log2 numerator : ℤ) - Nat.log2 denominator - 1) ≤ numerator / denominator ∧
      (numerator : ℚ) / denominator <
        2 ^ ((Nat.log2 numerator : ℤ) - Nat.log2 denominator + 1) := by
  have isPositive : (0 : ℚ) < denominator := by exact_mod_cast positive
  have numeratorAbove : (2 : ℚ) ^ (Nat.log2 numerator : ℤ) ≤ numerator := by
    rw [zpow_natCast]
    exact_mod_cast Nat.log2_self_le notZero
  have numeratorBelow : (numerator : ℚ) < 2 ^ ((Nat.log2 numerator : ℤ) + 1) := by
    have below := Nat.lt_log2_self (n := numerator)
    exact_mod_cast below
  have denominatorAbove : (2 : ℚ) ^ (Nat.log2 denominator : ℤ) ≤ denominator := by
    rw [zpow_natCast]
    exact_mod_cast Nat.log2_self_le positive.ne'
  have denominatorBelow : (denominator : ℚ) < 2 ^ ((Nat.log2 denominator : ℤ) + 1) := by
    have below := Nat.lt_log2_self (n := denominator)
    exact_mod_cast below
  constructor
  · rw [le_div_iff₀ isPositive]
    calc (2 : ℚ) ^ ((Nat.log2 numerator : ℤ) - Nat.log2 denominator - 1) * denominator
        ≤ 2 ^ ((Nat.log2 numerator : ℤ) - Nat.log2 denominator - 1) *
            2 ^ ((Nat.log2 denominator : ℤ) + 1) := by
          gcongr
      _ = 2 ^ (Nat.log2 numerator : ℤ) := by
          rw [← zpow_add₀ (by norm_num)]
          congr 1
          ring
      _ ≤ numerator := numeratorAbove
  · rw [div_lt_iff₀ isPositive]
    calc (numerator : ℚ) < 2 ^ ((Nat.log2 numerator : ℤ) + 1) := numeratorBelow
      _ = 2 ^ ((Nat.log2 numerator : ℤ) - Nat.log2 denominator + 1) *
            2 ^ (Nat.log2 denominator : ℤ) := by
          rw [← zpow_add₀ (by norm_num)]
          congr 1
          ring
      _ ≤ 2 ^ ((Nat.log2 numerator : ℤ) - Nat.log2 denominator + 1) * denominator := by
          gcongr

/-- The estimate from the logarithms is right, or too fine by one. -/
theorem isGrid_gridExponent {numerator denominator : ℕ} (notZero : numerator ≠ 0)
    (positive : 0 < denominator) :
    IsGrid (numerator / denominator) (gridExponent numerator denominator) := by
  rcases ratio_between notZero positive with ⟨lower, upper⟩
  rw [gridExponent]
  have fits := scaled_lt_iff numerator positive
    (max ((Nat.log2 numerator : ℤ) - Nat.log2 denominator - 53) (-1074))
  generalize (Nat.log2 numerator : ℤ) - Nat.log2 denominator = difference at *
  have isFinest := le_max_right (difference - 53) (-1074)
  by_cases inside : (numerator : ℚ) / denominator < 2 ^ (max (difference - 53) (-1074) + 53)
  · rw [if_pos (fits.mpr inside)]
    refine ⟨isFinest, inside, ?_⟩
    rcases le_total (difference - 53) (-1074) with isFine | isCoarse
    · exact Or.inl (max_eq_right isFine)
    · right
      rw [max_eq_left isCoarse]
      exact (zpow_le_zpow_right₀ (by norm_num) (by omega)).trans lower
  · rw [if_neg (fun isBelow => inside (fits.mp isBelow))]
    refine ⟨by omega, upper.trans_le ?_, Or.inr ?_⟩
    · exact zpow_le_zpow_right₀ (by norm_num) (by omega)
    · rw [add_assoc]
      exact not_lt.mp inside

/-! ## Rounding ratios -/

section Rounds

variable {value : ℚ} {exponent : ℤ} {nearest : ℕ} (isGrid : IsGrid value exponent)
  (rounds : RoundsTo (value * 2 ^ (-exponent)) nearest)

include isGrid rounds

theorem nearest_le : nearest ≤ 2 * hiddenBit := by
  have below : value * 2 ^ (-exponent) < 2 ^ (53 : ℤ) := by
    rw [zpow_neg, ← div_eq_mul_inv, div_lt_iff₀ (zpow_pos (by norm_num) _),
      ← zpow_add₀ (by norm_num), add_comm]
    exact isGrid.below
  have near := (abs_le.mp rounds.near).1
  generalize value * 2 ^ (-exponent) = scaled at below near
  have belowNext : (nearest : ℚ) < 2 ^ 53 + 1 := by
    norm_num at below
    linarith
  have isBelow : nearest < 2 ^ 53 + 1 := by exact_mod_cast belowNext
  exact Nat.lt_succ_iff.mp isBelow

/-- Only on the finest grid a value is rounded to fewer than `2 ^ 52` steps of the grid. -/
theorem finest_of_nearest_lt (isFew : nearest < hiddenBit) : exponent = -1074 := by
  rcases isGrid.above with isFinest | above
  · exact isFinest
  · have isMany : (2 : ℚ) ^ (52 : ℤ) ≤ value * 2 ^ (-exponent) := by
      rw [zpow_neg, ← div_eq_mul_inv, le_div_iff₀ (zpow_pos (by norm_num) _),
        ← zpow_add₀ (by norm_num), add_comm]
      exact above
    have near := (abs_le.mp rounds.near).2
    have fewer : (nearest : ℚ) + 1 ≤ hiddenBit := by exact_mod_cast isFew
    generalize value * 2 ^ (-exponent) = scaled at isMany near
    norm_num [hiddenBit] at isMany fewer
    linarith

end Rounds

/-- A ratio is rounded on its grid to the nearest double, or to an infinity beyond the largest
finite one. -/
theorem ofRatio_eq (isNegative : Bool) {numerator denominator : ℕ} (notZero : numerator ≠ 0)
    (positive : 0 < denominator) {exponent : ℤ} {nearest : ℕ}
    (isGrid : IsGrid (numerator / denominator) exponent)
    (rounds : RoundsTo (numerator / denominator * 2 ^ (-exponent)) nearest) :
    ofRatio isNegative numerator denominator =
      if (exponent + 1074).toNat * hiddenBit + nearest < 2047 * hiddenBit then
        ofMagnitude isNegative ((exponent + 1074).toNat * hiddenBit + nearest)
      else infinity isNegative := by
  have isExponent := (isGrid_gridExponent notZero positive).unique isGrid
  have isNearest : divideToEven (scaleRatio numerator denominator exponent).1
      (scaleRatio numerator denominator exponent).2 = nearest := by
    have roundsScaled := roundsTo_divideToEven (scaleRatio numerator denominator exponent).1
      (scaleRatio_positive numerator positive exponent)
    rw [scaleRatio_div] at roundsScaled
    exact roundsScaled.unique rounds
  have isMagnitude :
      (if nearest < hiddenBit then nearest
        else (exponent + 1075).toNat * hiddenBit + (nearest - hiddenBit)) =
        (exponent + 1074).toNat * hiddenBit + nearest := by
    by_cases isFew : nearest < hiddenBit
    · rw [if_pos isFew, finest_of_nearest_lt isGrid rounds isFew]
      simp
    · have finest := isGrid.finest
      rw [if_neg isFew]
      unfold hiddenBit at isFew ⊢
      omega
  rw [ofRatio, if_neg notZero]
  simp only [isExponent, isNearest, isMagnitude]

theorem exists_roundsTo {numerator denominator : ℕ} (notZero : numerator ≠ 0)
    (positive : 0 < denominator) :
    ∃ exponent nearest, IsGrid (numerator / denominator) exponent ∧
      RoundsTo (numerator / denominator * 2 ^ (-exponent)) nearest := by
  have rounds := roundsTo_divideToEven
    (scaleRatio numerator denominator (gridExponent numerator denominator)).1
    (scaleRatio_positive numerator positive (gridExponent numerator denominator))
  rw [scaleRatio_div] at rounds
  exact ⟨_, _, isGrid_gridExponent notZero positive, rounds⟩

/-- Integers of sixty-four bits are rounded to finite doubles. -/
theorem isFinite_ofRatio_one (isNegative : Bool) {numerator : ℕ} (below : numerator < 2 ^ 64) :
    (ofRatio isNegative numerator 1).isFinite = true := by
  by_cases isZero : numerator = 0
  · rw [ofRatio, if_pos isZero]
    exact isFinite_ofMagnitude isNegative (by decide)
  · rcases exists_roundsTo isZero Nat.one_pos with ⟨exponent, nearest, isGrid, rounds⟩
    have atMost := nearest_le isGrid rounds
    have smallExponent : exponent < 12 := by
      rcases isGrid.above with isFinest | above
      · omega
      · have isBelow : (2 : ℚ) ^ (exponent + 52) < 2 ^ (64 : ℤ) := by
          refine above.trans_lt ?_
          rw [Nat.cast_one, div_one]
          exact_mod_cast below
        have := (zpow_lt_zpow_iff_right₀ (by norm_num)).mp isBelow
        omega
    have isBelow : (exponent + 1074).toNat * hiddenBit + nearest < 2047 * hiddenBit := by
      unfold hiddenBit at *
      omega
    rw [ofRatio_eq isNegative isZero Nat.one_pos isGrid rounds, if_pos isBelow]
    exact isFinite_ofMagnitude isNegative isBelow

/-- Whether a ratio is rounded to a finite double does not depend on the sign. -/
theorem isFinite_ofRatio_congr (left right : Bool) (numerator : ℕ) {denominator : ℕ}
    (positive : 0 < denominator) :
    (ofRatio left numerator denominator).isFinite =
      (ofRatio right numerator denominator).isFinite := by
  by_cases isZero : numerator = 0
  · rw [ofRatio, ofRatio, if_pos isZero, if_pos isZero,
      isFinite_ofMagnitude left (by decide), isFinite_ofMagnitude right (by decide)]
  · rcases exists_roundsTo isZero positive with ⟨exponent, nearest, isGrid, rounds⟩
    rw [ofRatio_eq left isZero positive isGrid rounds,
      ofRatio_eq right isZero positive isGrid rounds]
    split
    · rename_i below
      rw [isFinite_ofMagnitude left below, isFinite_ofMagnitude right below]
    · rw [isFinite_infinity, isFinite_infinity]

/-- A ratio that is rounded to a finite double is not much larger than the largest one. -/
theorem lt_of_isFinite_ofRatio {isNegative : Bool} {numerator denominator : ℕ}
    (positive : 0 < denominator)
    (isFinite : (ofRatio isNegative numerator denominator).isFinite = true) :
    (numerator : ℚ) / denominator < 2 ^ (1025 : ℤ) := by
  by_cases isZero : numerator = 0
  · rw [isZero, Nat.cast_zero, zero_div]
    exact zpow_pos (by norm_num) _
  · rcases exists_roundsTo isZero positive with ⟨exponent, nearest, isGrid, rounds⟩
    rw [ofRatio_eq isNegative isZero positive isGrid rounds] at isFinite
    split at isFinite
    · rename_i below
      have isSmall : exponent ≤ 972 := by
        unfold hiddenBit at below
        omega
      exact isGrid.below.trans_le (zpow_le_zpow_right₀ (by norm_num) (by omega))
    · rw [isFinite_infinity] at isFinite
      cases isFinite

end Double

end Unnest
