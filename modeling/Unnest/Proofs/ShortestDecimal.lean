import Mathlib.Tactic.FieldSimp
import Unnest.Decimal.Shortest
import Unnest.Proofs.Rounding

/-!
# The shortest decimal reads back

The rationals that are rounded to a finite double form an interval around its value.  Below a power
of two the doubles are nearer to each other, and there the interval is shorter
(`Double.IsNearestTo`).  The decimal that is selected for a double is in its interval, so every
decimal of the same value is read as the double (`Decimal.toDouble_of_value_eq`).
-/

namespace Unnest

namespace Decimal

/-- The rational that a decimal stands for. -/
def value (decimal : Decimal) : ℚ :=
  decimal.digits * 10 ^ decimal.exponent

end Decimal

namespace Double

/-! ## Intervals -/

/-- The lower end of the interval of a double, in quarters of its grid. -/
def lowerQuarters (number : Double) : ℕ :=
  if Decimal.hasNarrowGap number then 4 * number.significand - 1 else 4 * number.significand - 2

/-- The value is in the interval of the double, whose ends belong to it if the significand is
even. -/
structure IsNearestTo (number : Double) (value : ℚ) : Prop where
  above : number.lowerQuarters < value * 2 ^ (2 - number.exponent) ∨
    number.significand % 2 = 0 ∧ number.lowerQuarters = value * 2 ^ (2 - number.exponent)
  below : value * 2 ^ (2 - number.exponent) < (4 * number.significand + 2 : ℕ) ∨
    number.significand % 2 = 0 ∧
      value * 2 ^ (2 - number.exponent) = (4 * number.significand + 2 : ℕ)

end Double

namespace Decimal

/-! ## Comparing -/

theorem pow_toNat {base : ℚ} (notZero : base ≠ 0) (exponent : ℤ) :
    base ^ exponent.toNat = base ^ exponent * base ^ (-exponent).toNat := by
  rw [← zpow_natCast, ← zpow_natCast, ← zpow_add₀ notZero]
  congr 1
  omega

/-- Both sides are multiplied by the same power, so that they are naturals. -/
theorem compareBinary_sides (decimal : Decimal) (significand : ℕ) (binaryExponent : ℤ) :
    ∃ scale : ℚ, 0 < scale ∧
      ((decimal.digits * Nat.pow 10 decimal.exponent.toNat *
        Nat.pow 2 (-binaryExponent).toNat : ℕ) : ℚ) = decimal.value * scale ∧
      ((significand * Nat.pow 2 binaryExponent.toNat *
        Nat.pow 10 (-decimal.exponent).toNat : ℕ) : ℚ) =
          significand * 2 ^ binaryExponent * scale := by
  refine ⟨10 ^ (-decimal.exponent).toNat * 2 ^ (-binaryExponent).toNat, by positivity, ?_, ?_⟩
  · push_cast [Nat.pow_eq]
    rw [pow_toNat (by norm_num) decimal.exponent, value]
    ring
  · push_cast [Nat.pow_eq]
    rw [pow_toNat (by norm_num) binaryExponent]
    ring

theorem compareBinary_lt_iff (decimal : Decimal) (significand : ℕ) (binaryExponent : ℤ) :
    compareBinary decimal significand binaryExponent = .lt ↔
      decimal.value < significand * 2 ^ binaryExponent := by
  rcases compareBinary_sides decimal significand binaryExponent with ⟨scale, positive, left, right⟩
  rw [compareBinary, Nat.compare_eq_lt, ← Nat.cast_lt (α := ℚ), left, right,
    mul_lt_mul_iff_left₀ positive]

theorem compareBinary_eq_iff (decimal : Decimal) (significand : ℕ) (binaryExponent : ℤ) :
    compareBinary decimal significand binaryExponent = .eq ↔
      decimal.value = significand * 2 ^ binaryExponent := by
  rcases compareBinary_sides decimal significand binaryExponent with ⟨scale, positive, left, right⟩
  rw [compareBinary, Nat.compare_eq_eq, ← Nat.cast_inj (R := ℚ), left, right,
    mul_left_inj' positive.ne']

theorem compareBinary_gt_iff (decimal : Decimal) (significand : ℕ) (binaryExponent : ℤ) :
    compareBinary decimal significand binaryExponent = .gt ↔
      significand * 2 ^ binaryExponent < decimal.value := by
  rcases compareBinary_sides decimal significand binaryExponent with ⟨scale, positive, left, right⟩
  rw [compareBinary, Nat.compare_eq_gt, ← Nat.cast_lt (α := ℚ), left, right,
    mul_lt_mul_iff_left₀ positive]

theorem readsBack_iff (number : Double) (decimal : Decimal) :
    readsBack number decimal = true ↔ number.IsNearestTo decimal.value := by
  have inverse : (2 : ℚ) ^ (2 - number.exponent) = (2 ^ (number.exponent - 2))⁻¹ := by
    rw [← zpow_neg, neg_sub]
  have positive : (0 : ℚ) < 2 ^ (number.exponent - 2) := zpow_pos (by norm_num) _
  have isLower : (if hasNarrowGap number then 4 * number.significand - 1
      else 4 * number.significand - 2) = number.lowerQuarters := rfl
  rw [readsBack, isLower]
  simp only [Bool.and_eq_true, Bool.or_eq_true, beq_iff_eq, compareBinary_gt_iff,
    compareBinary_lt_iff, compareBinary_eq_iff]
  constructor
  · intro both
    rcases both with ⟨above, below⟩
    constructor
    · rw [inverse, ← div_eq_mul_inv, lt_div_iff₀ positive, eq_div_iff positive.ne']
      exact above.imp id fun isEnd => ⟨isEnd.1, isEnd.2.symm⟩
    · rw [inverse, ← div_eq_mul_inv, div_lt_iff₀ positive, div_eq_iff positive.ne']
      exact below
  · intro isNearest
    rcases isNearest with ⟨above, below⟩
    rw [inverse, ← div_eq_mul_inv, lt_div_iff₀ positive, eq_div_iff positive.ne'] at above
    rw [inverse, ← div_eq_mul_inv, div_lt_iff₀ positive, div_eq_iff positive.ne'] at below
    exact ⟨above.imp id fun isEnd => ⟨isEnd.1, isEnd.2.symm⟩, below⟩

end Decimal

/-! ## Rounding into the interval -/

namespace Double

theorem of_hasNarrowGap {number : Double} (narrow : Decimal.hasNarrowGap number = true) :
    number.significand = hiddenBit ∧ -1074 < number.exponent := by
  rw [Decimal.hasNarrowGap, Bool.and_eq_true, beq_iff_eq, decide_eq_true_eq] at narrow
  rw [significand, exponent]
  split <;> omega

theorem of_not_hasNarrowGap {number : Double} (wide : ¬ Decimal.hasNarrowGap number = true) :
    number.exponent = -1074 ∨ hiddenBit < number.significand := by
  rw [Decimal.hasNarrowGap, Bool.and_eq_true, beq_iff_eq, decide_eq_true_eq] at wide
  rw [significand, exponent]
  split <;> omega

section Interval

variable {number : Double} {value : ℚ} (isNearest : number.IsNearestTo value)

include isNearest

/-- In steps of its grid, a value is at most a half above the significand, and a quarter or a half
below it. -/
theorem IsNearestTo.steps (notZero : number.significand ≠ 0) :
    let steps := value * 2 ^ (-number.exponent)
    (steps < number.significand + 1 / 2 ∨
      number.significand % 2 = 0 ∧ steps = number.significand + 1 / 2) ∧
    if Decimal.hasNarrowGap number then number.significand - 1 / 4 ≤ steps
    else number.significand - 1 / 2 < steps ∨
      number.significand % 2 = 0 ∧ steps = number.significand - 1 / 2 := by
  have scaled : value * 2 ^ (2 - number.exponent) = 4 * (value * 2 ^ (-number.exponent)) := by
    rw [sub_eq_add_neg, zpow_add₀ (by norm_num)]
    ring
  have positive : 1 ≤ number.significand := Nat.one_le_iff_ne_zero.mpr notZero
  rcases isNearest with ⟨above, below⟩
  rw [scaled] at above below
  intro steps
  change _ < 4 * steps ∨ _ ∧ _ = 4 * steps at above
  change 4 * steps < _ ∨ _ ∧ 4 * steps = _ at below
  push_cast at below
  constructor
  · rcases below with isLess | ⟨isEven, isEnd⟩
    · exact Or.inl (by linarith)
    · exact Or.inr ⟨isEven, by linarith⟩
  · split
    · rename_i narrow
      rw [lowerQuarters, if_pos narrow, Nat.cast_sub (by omega)] at above
      push_cast at above
      rcases above with isMore | ⟨_, isEnd⟩ <;> linarith
    · rename_i wide
      rw [lowerQuarters, if_neg wide, Nat.cast_sub (by omega)] at above
      push_cast at above
      rcases above with isMore | ⟨isEven, isEnd⟩
      · exact Or.inl (by linarith)
      · exact Or.inr ⟨isEven, by linarith⟩

theorem IsNearestTo.steps_between (notZero : number.significand ≠ 0) :
    number.significand - 1 / 2 ≤ value * 2 ^ (-number.exponent) ∧
      value * 2 ^ (-number.exponent) ≤ number.significand + 1 / 2 := by
  rcases isNearest.steps notZero with ⟨upper, lower⟩
  refine ⟨?_, upper.elim le_of_lt fun isEnd => isEnd.2.le⟩
  split at lower
  · linarith
  · exact lower.elim le_of_lt fun isEnd => isEnd.2.ge

theorem IsNearestTo.half_le_steps (notZero : number.significand ≠ 0) :
    1 / 2 ≤ value * 2 ^ (-number.exponent) := by
  have atLeastOne : (1 : ℚ) ≤ number.significand := by
    exact_mod_cast Nat.one_le_iff_ne_zero.mpr notZero
  have under := (isNearest.steps_between notZero).1
  linarith

theorem IsNearestTo.steps_lt (notZero : number.significand ≠ 0) :
    value * 2 ^ (-number.exponent) < 2 ^ (53 : ℤ) := by
  have isNext : (number.significand : ℚ) + 1 ≤ 2 ^ (53 : ℤ) := by
    exact_mod_cast number.significand_onGrid.2.1
  have above := (isNearest.steps_between notZero).2
  linarith

theorem IsNearestTo.positive (notZero : number.significand ≠ 0) : 0 < value := by
  have atLeastHalf := isNearest.half_le_steps notZero
  exact pos_of_mul_pos_left (by linarith) (zpow_nonneg (by norm_num) (-number.exponent))

/-- Below a power of two the value is on the next finer grid, and is rounded up to the power. -/
theorem IsNearestTo.onFinerGrid (narrow : Decimal.hasNarrowGap number = true)
    (isBelow : value * 2 ^ (-number.exponent) < number.significand) :
    IsGrid value (number.exponent - 1) ∧
      RoundsTo (value * 2 ^ (-(number.exponent - 1))) (2 * hiddenBit) := by
  rcases of_hasNarrowGap narrow with ⟨isPower, notFinest⟩
  have lower := (isNearest.steps (by rw [isPower]; decide)).2
  rw [if_pos narrow] at lower
  have positive : (0 : ℚ) < 2 ^ number.exponent := zpow_pos (by norm_num) _
  have power : (number.significand : ℚ) = 2 ^ (52 : ℤ) := by
    rw [isPower]
    norm_num [hiddenBit]
  rw [power] at lower isBelow
  have doubled : value * 2 ^ (-(number.exponent - 1)) = 2 * (value * 2 ^ (-number.exponent)) := by
    rw [neg_sub, sub_eq_add_neg, zpow_add₀ (by norm_num)]
    ring
  refine ⟨⟨by omega, ?_, Or.inr ?_⟩, ?_⟩
  · rw [zpow_neg, ← div_eq_mul_inv, div_lt_iff₀ positive, ← zpow_add₀ (by norm_num)] at isBelow
    rwa [show number.exponent - 1 + 53 = 52 + number.exponent by ring]
  · have isMost : (2 : ℚ) ^ (51 : ℤ) ≤ value * 2 ^ (-number.exponent) := by
      refine le_trans ?_ lower
      norm_num
    rw [zpow_neg, ← div_eq_mul_inv, le_div_iff₀ positive, ← zpow_add₀ (by norm_num)] at isMost
    rwa [show number.exponent - 1 + 52 = 51 + number.exponent by ring]
  · rw [doubled]
    generalize value * 2 ^ (-number.exponent) = steps at lower isBelow
    have isTwice : ((2 * hiddenBit : ℕ) : ℚ) = 2 * 2 ^ (52 : ℤ) := by norm_num [hiddenBit]
    constructor
    · rw [isTwice, abs_le]
      constructor <;> linarith
    · intro _
      decide

/-- Elsewhere the value is on the grid of the double, and is rounded to its significand. -/
theorem IsNearestTo.onGrid (notZero : number.significand ≠ 0)
    (notBelow : Decimal.hasNarrowGap number = true →
      number.significand ≤ value * 2 ^ (-number.exponent)) :
    IsGrid value number.exponent ∧
      RoundsTo (value * 2 ^ (-number.exponent)) number.significand := by
  rcases isNearest.steps notZero with ⟨upper, lower⟩
  rcases number.significand_onGrid with ⟨finest, _, _⟩
  have positive : (0 : ℚ) < 2 ^ number.exponent := zpow_pos (by norm_num) _
  rcases isNearest.steps_between notZero with ⟨notUnder, notAbove⟩
  have belowNext := isNearest.steps_lt notZero
  refine ⟨⟨finest, ?_, ?_⟩, ⟨abs_le.mpr ⟨by linarith, by linarith⟩, ?_⟩⟩
  · rwa [zpow_neg, ← div_eq_mul_inv, div_lt_iff₀ positive, ← zpow_add₀ (by norm_num),
      add_comm] at belowNext
  · by_cases isFinest : number.exponent = -1074
    · exact Or.inl isFinest
    · right
      have isMany : (2 : ℚ) ^ (52 : ℤ) ≤ value * 2 ^ (-number.exponent) := by
        by_cases narrow : Decimal.hasNarrowGap number = true
        · have isMost := notBelow narrow
          rw [(of_hasNarrowGap narrow).1] at isMost
          norm_num [hiddenBit] at isMost ⊢
          exact isMost
        · have isMore := (of_not_hasNarrowGap narrow).resolve_left isFinest
          have isNext : (2 : ℚ) ^ (52 : ℤ) + 1 ≤ number.significand := by exact_mod_cast isMore
          linarith
      rwa [zpow_neg, ← div_eq_mul_inv, le_div_iff₀ positive, ← zpow_add₀ (by norm_num),
        add_comm] at isMany
  · intro isHalf
    rcases eq_or_eq_neg_of_abs_eq isHalf with isUpper | isLower
    · rcases upper with isLess | ⟨isEven, _⟩
      · linarith
      · exact isEven
    · split at lower
      · linarith
      · rcases lower with isMore | ⟨isEven, _⟩
        · linarith
        · exact isEven

end Interval

/-- Every ratio in the interval of a finite double is rounded to it. -/
theorem ofRatio_of_isNearestTo {number : Double} (isFinite : number.isFinite = true)
    (notZero : number.significand ≠ 0) {numerator denominator : ℕ} (positive : 0 < denominator)
    (isNearest : number.IsNearestTo (numerator / denominator)) :
    ofRatio number.isNegative numerator denominator = number := by
  have numeratorNotZero : numerator ≠ 0 := by
    intro isZero
    have valuePositive := isNearest.positive notZero
    rw [isZero, Nat.cast_zero, zero_div] at valuePositive
    exact lt_irrefl _ valuePositive
  have isBelow := (isFinite_iff number).mp isFinite
  by_cases isUnder : Decimal.hasNarrowGap number = true ∧
      (numerator : ℚ) / denominator * 2 ^ (-number.exponent) < number.significand
  · rcases isNearest.onFinerGrid isUnder.1 isUnder.2 with ⟨isGrid, rounds⟩
    rcases of_hasNarrowGap isUnder.1 with ⟨isPower, notFinest⟩
    have sameMagnitude : (number.exponent - 1 + 1074).toNat * hiddenBit + 2 * hiddenBit =
        number.magnitude := by
      rw [magnitude_eq, isPower]
      unfold hiddenBit
      omega
    rw [ofRatio_eq number.isNegative numeratorNotZero positive isGrid rounds, sameMagnitude,
      if_pos isBelow, ofMagnitude_self]
  · have notUnder : Decimal.hasNarrowGap number = true →
        number.significand ≤ (numerator : ℚ) / denominator * 2 ^ (-number.exponent) :=
      fun narrow => not_lt.mp fun isLess => isUnder ⟨narrow, isLess⟩
    rcases isNearest.onGrid notZero notUnder with ⟨isGrid, rounds⟩
    rw [ofRatio_eq number.isNegative numeratorNotZero positive isGrid rounds, ← magnitude_eq,
      if_pos isBelow, ofMagnitude_self]

end Double

/-! ## Reading -/

namespace Decimal

theorem value_eq_div (decimal : Decimal) :
    decimal.value = ((decimal.digits * Nat.pow 10 decimal.exponent.toNat : ℕ) : ℚ) /
      (Nat.pow 10 (-decimal.exponent).toNat : ℕ) := by
  have positive : (0 : ℚ) < 10 ^ (-decimal.exponent).toNat := by positivity
  push_cast [Nat.pow_eq]
  rw [eq_div_iff positive.ne', value, pow_toNat (by norm_num) decimal.exponent]
  ring

theorem digits_between {digits : ℕ} (notZero : digits ≠ 0) :
    10 ^ ((Nat.toDigits 10 digits).length - 1) ≤ digits ∧
      digits < 10 ^ (Nat.toDigits 10 digits).length := by
  have positive : 0 < (Nat.toDigits 10 digits).length := Nat.length_toDigits_pos
  have upper := (Nat.length_toDigits_le_iff (n := digits) (by decide) positive).mp le_rfl
  refine ⟨?_, upper⟩
  rcases Nat.eq_or_lt_of_le (Nat.one_le_iff_ne_zero.mpr positive.ne') with isOne | isMore
  · rw [← isOne]
    exact Nat.one_le_iff_ne_zero.mpr notZero
  · apply Nat.le_of_not_lt
    intro isLess
    have fewer := (Nat.length_toDigits_le_iff (by decide) (by omega)).mpr isLess
    omega

/-- The number of digits says between which powers of ten a decimal is. -/
theorem value_between {decimal : Decimal} (notZero : decimal.digits ≠ 0) :
    (10 : ℚ) ^ (((Nat.toDigits 10 decimal.digits).length : ℤ) + decimal.exponent - 1) ≤
        decimal.value ∧
      decimal.value < 10 ^ (((Nat.toDigits 10 decimal.digits).length : ℤ) + decimal.exponent) := by
  have positive : 0 < (Nat.toDigits 10 decimal.digits).length := Nat.length_toDigits_pos
  rcases digits_between notZero with ⟨lower, upper⟩
  have powerPositive : (0 : ℚ) < 10 ^ decimal.exponent := zpow_pos (by norm_num) _
  rw [value]
  constructor
  · have split : ((Nat.toDigits 10 decimal.digits).length : ℤ) + decimal.exponent - 1 =
        (((Nat.toDigits 10 decimal.digits).length - 1 : ℕ) : ℤ) + decimal.exponent := by
      omega
    rw [split, zpow_add₀ (by norm_num), zpow_natCast, mul_le_mul_iff_left₀ powerPositive]
    exact_mod_cast lower
  · rw [zpow_add₀ (by norm_num), zpow_natCast, mul_lt_mul_iff_left₀ powerPositive]
    exact_mod_cast upper

theorem two_pow_lt_ten_pow : (2 : ℚ) ^ (1025 : ℤ) < 10 ^ (310 : ℤ) := by
  have isLess : 2 ^ 1025 < 10 ^ 310 := by decide +kernel
  rw [zpow_ofNat, zpow_ofNat]
  exact_mod_cast isLess

section Range

variable {number : Double} {value : ℚ} (isNearest : number.IsNearestTo value)

include isNearest

/-- What is rounded to a finite double is below the range where a decimal counts as infinite. -/
theorem lt_of_isNearestTo (isFinite : number.isFinite = true)
    (notZero : number.significand ≠ 0) : value < 10 ^ (310 : ℤ) := by
  have steps := isNearest.steps_lt notZero
  rw [zpow_neg, ← div_eq_mul_inv, div_lt_iff₀ (zpow_pos (by norm_num) _),
    ← zpow_add₀ (by norm_num)] at steps
  have isBelow := (Double.isFinite_iff number).mp isFinite
  rw [Double.magnitude_eq] at isBelow
  have isSmall : number.exponent ≤ 972 := by
    unfold Double.hiddenBit at isBelow
    omega
  calc value < 2 ^ (53 + number.exponent) := steps
    _ ≤ 2 ^ (1025 : ℤ) := zpow_le_zpow_right₀ (by norm_num) (by omega)
    _ < 10 ^ (310 : ℤ) := two_pow_lt_ten_pow

/-- What is rounded to a double other than zero is above the range where a decimal counts as
zero. -/
theorem le_of_isNearestTo (notZero : number.significand ≠ 0) : 10 ^ (-331 : ℤ) ≤ value := by
  have steps := isNearest.half_le_steps notZero
  rw [zpow_neg, ← div_eq_mul_inv, le_div_iff₀ (zpow_pos (by norm_num) _)] at steps
  calc (10 : ℚ) ^ (-331 : ℤ) ≤ 1 / 2 * 2 ^ (-1074 : ℤ) := by
        have isLess : 2 * 2 ^ 1074 ≤ 10 ^ 331 := by decide +kernel
        rw [zpow_neg, zpow_neg, zpow_ofNat, zpow_ofNat, one_div, ← mul_inv]
        apply inv_anti₀ (by positivity)
        exact_mod_cast isLess
    _ ≤ 1 / 2 * 2 ^ number.exponent := by
        gcongr
        · norm_num
        · exact number.significand_onGrid.1
    _ ≤ value := steps

end Range

theorem toDouble_of_isNearestTo {number : Double} (isFinite : number.isFinite = true)
    (notZero : number.significand ≠ 0) {decimal : Decimal}
    (isNearest : number.IsNearestTo decimal.value) :
    toDouble number.isNegative decimal = number := by
  have hasDigits : decimal.digits ≠ 0 := by
    intro noDigits
    have positive := isNearest.positive notZero
    rw [value, noDigits, Nat.cast_zero, zero_mul] at positive
    exact lt_irrefl _ positive
  rcases value_between hasDigits with ⟨lower, upper⟩
  have notInfinite : ¬ 310 < ((Nat.toDigits 10 decimal.digits).length : ℤ) + decimal.exponent := by
    intro isMore
    have isLess := lower.trans_lt (lt_of_isNearestTo isNearest isFinite notZero)
    rw [zpow_lt_zpow_iff_right₀ (by norm_num)] at isLess
    omega
  have notTiny : ¬ ((Nat.toDigits 10 decimal.digits).length : ℤ) + decimal.exponent < -330 := by
    intro isLess
    have isMore := (le_of_isNearestTo isNearest notZero).trans_lt upper
    rw [zpow_lt_zpow_iff_right₀ (by norm_num)] at isMore
    omega
  rw [toDouble, if_neg hasDigits]
  simp only [notInfinite, notTiny, if_false]
  rw [value_eq_div] at isNearest
  exact Double.ofRatio_of_isNearestTo isFinite notZero (Nat.pow_pos (by decide)) isNearest

/-! ## Selecting -/

theorem value_stripZeros (fuel : ℕ) (decimal : Decimal) :
    (stripZeros fuel decimal).value = decimal.value := by
  induction fuel generalizing decimal with
  | zero => rfl
  | succ fuel inductionHypothesis =>
      rw [stripZeros]
      split
      · rename_i endsInZero
        have isTenfold : decimal.digits = decimal.digits / 10 * 10 := by omega
        rw [inductionHypothesis, value, value]
        conv_rhs => rw [isTenfold]
        rw [zpow_add₀ (by norm_num)]
        push_cast
        ring
      · rfl

theorem value_exact (number : Double) :
    (exact number).value = number.significand * 2 ^ number.exponent := by
  rw [value, exact]
  rcases le_total 0 number.exponent with notNegative | notPositive
  · have isWhole : (-number.exponent).toNat = 0 := by omega
    have isPower : (2 : ℚ) ^ number.exponent = 2 ^ number.exponent.toNat := by
      rw [← zpow_natCast, Int.toNat_of_nonneg notNegative]
    rw [min_eq_right notNegative, isWhole, isPower]
    push_cast [Nat.pow_eq]
    ring
  · have isFraction : number.exponent.toNat = 0 := by omega
    have isPower : (10 : ℚ) ^ number.exponent * 5 ^ (-number.exponent).toNat =
        2 ^ number.exponent := by
      rw [← zpow_natCast, Int.toNat_of_nonneg (by omega), zpow_neg, ← div_eq_mul_inv, ← div_zpow]
      norm_num
    rw [min_eq_left notPositive, isFraction, ← isPower]
    push_cast [Nat.pow_eq]
    ring

theorem isNearestTo_exact {number : Double} (notZero : number.significand ≠ 0) :
    number.IsNearestTo (exact number).value := by
  have isFourfold : (exact number).value * 2 ^ (2 - number.exponent) =
      ((4 * number.significand : ℕ) : ℚ) := by
    rw [value_exact, mul_assoc, ← zpow_add₀ (by norm_num)]
    push_cast
    rw [add_sub_cancel]
    norm_num
    ring
  constructor
  · left
    rw [isFourfold, Nat.cast_lt, Double.lowerQuarters]
    split <;> omega
  · left
    rw [isFourfold, Nat.cast_lt]
    omega

theorem readsBack_of_onGrid {tie : Tie} {number : Double} {gridExponent : ℤ} {decimal : Decimal}
    (isSelected : onGrid tie number gridExponent = some decimal) :
    readsBack number decimal = true := by
  rw [onGrid.eq_def] at isSelected
  simp only at isSelected
  split at isSelected
  · cases isSelected
  · rename_i isBelow _
    cases isSelected
    exact isBelow
  · rename_i _ isAbove
    cases isSelected
    exact isAbove
  · rename_i isBelow isAbove
    split at isSelected
    · cases isSelected
      exact isBelow
    · cases isSelected
      exact isAbove
    · cases tie with
      | up =>
          cases isSelected
          exact isAbove
      | toEven =>
          rcases ite_eq_iff.mp isSelected with ⟨_, same⟩ | ⟨_, same⟩
          · cases same
            exact isBelow
          · cases same
            exact isAbove

theorem isNearestTo_shortest (tie : Tie) {number : Double} (notZero : number.significand ≠ 0) :
    number.IsNearestTo (shortest tie number).value := by
  rw [shortest, if_neg notZero, value_stripZeros]
  cases selected : ((List.range 17).map fun (extra : Nat) =>
      leadingPlaces number - 1 - (extra : Int)).findSome? (onGrid tie number) with
  | none => exact isNearestTo_exact notZero
  | some decimal =>
      rcases List.exists_of_findSome?_eq_some selected with ⟨gridExponent, _, isSelected⟩
      exact (readsBack_iff number decimal).mp (readsBack_of_onGrid isSelected)

/-- Only zero has no digits, and then no exponent. -/
theorem exponent_shortest (tie : Tie) (number : Double)
    (noDigits : (shortest tie number).digits = 0) : (shortest tie number).exponent = 0 := by
  by_cases isZero : number.significand = 0
  · rw [shortest, if_pos isZero]
  · have positive := (isNearestTo_shortest tie isZero).positive isZero
    rw [value, noDigits, Nat.cast_zero, zero_mul] at positive
    exact absurd positive (lt_irrefl _)

/-- Every decimal of the same value as the selected one is read as the double. -/
theorem toDouble_of_value_eq {number : Double} (isFinite : number.isFinite = true) {tie : Tie}
    {decimal : Decimal} (sameValue : decimal.value = (shortest tie number).value) :
    toDouble number.isNegative decimal = number := by
  by_cases isZero : number.significand = 0
  · have noDigits : decimal.digits = 0 := by
      rw [shortest, if_pos isZero, value, value, Nat.cast_zero, zero_mul, mul_eq_zero,
        or_iff_left (zpow_ne_zero _ (by norm_num))] at sameValue
      exact_mod_cast sameValue
    have isFinest : number.exponent = -1074 := by
      rcases number.significand_onGrid with ⟨_, _, isFinest | isLarge⟩
      · exact isFinest
      · rw [isZero] at isLarge
        cases isLarge
    have noMagnitude : number.magnitude = 0 := by
      rw [Double.magnitude_eq, isZero, isFinest]
      rfl
    rw [toDouble, if_pos noDigits, ← noMagnitude, Double.ofMagnitude_self]
  · apply toDouble_of_isNearestTo isFinite isZero
    rw [sameValue]
    exact isNearestTo_shortest tie isZero

end Decimal

end Unnest
