/-!
# Doubles

A double is held as its sixty-four bits, so that two zeros and all the NaNs stay apart.  This module
holds the total order on doubles, the exact value of a finite double, and the rounding of a ratio of
naturals to the nearest double.  A column only stores, orders and prints doubles; the product and
the quotient of finite ones are for the reading of numbers.
-/

namespace Unnest

/-- A binary64 number, given by its bits. -/
structure Double where
  bits : UInt64
deriving DecidableEq, Repr, Inhabited

namespace Double

/-- The weight of the sign bit. -/
def signBit : Nat := 0x8000000000000000

/-- The weight of the lowest exponent bit. -/
def hiddenBit : Nat := 0x10000000000000

/-- The bits without the sign. -/
def magnitude (number : Double) : Nat :=
  number.bits.toNat % signBit

def isNegative (number : Double) : Bool :=
  signBit ≤ number.bits.toNat

def biasedExponent (number : Double) : Nat :=
  number.magnitude / hiddenBit

def fraction (number : Double) : Nat :=
  number.magnitude % hiddenBit

def isNaN (number : Double) : Bool :=
  number.biasedExponent == 2047 && number.fraction != 0

def isInfinite (number : Double) : Bool :=
  number.biasedExponent == 2047 && number.fraction == 0

def isFinite (number : Double) : Bool :=
  number.biasedExponent != 2047

/-- The double with the given sign and magnitude bits. -/
def ofMagnitude (isNegative : Bool) (magnitude : Nat) : Double :=
  ⟨UInt64.ofNat ((if isNegative then signBit else 0) + magnitude)⟩

def zero : Double := ⟨0⟩

def infinity (isNegative : Bool) : Double :=
  ofMagnitude isNegative (2047 * hiddenBit)

/-- The quiet NaN without payload. -/
def nan (isNegative : Bool) : Double :=
  ofMagnitude isNegative (2047 * hiddenBit + hiddenBit / 2)

/-! ## The total order

Negative doubles come first, larger magnitudes before smaller ones; then the positive doubles by
magnitude.  NaNs lie outside the infinities of their sign.
-/

/-- The place of a double in the total order, as an integer: a negative double of magnitude `m` lies
at `-(m + 1)`, so that the two zeros are neighbours and not equal. -/
def place (number : Double) : Int :=
  if number.isNegative then
    -((number.magnitude : Int) + 1)
  else
    number.magnitude

theorem bits_toNat (number : Double) :
    number.bits.toNat =
      (if number.isNegative then signBit else 0) + number.magnitude := by
  have bound := number.bits.toNat_lt
  unfold isNegative magnitude signBit
  by_cases large : 0x8000000000000000 ≤ number.bits.toNat
  · simp only [large, decide_true, if_true]
    omega
  · simp only [large, decide_false, Bool.false_eq_true, if_false]
    omega

theorem place_injective {left right : Double}
    (samePlace : left.place = right.place) : left = right := by
  have leftBits := left.bits_toNat
  have rightBits := right.bits_toNat
  have sameBits : left.bits.toNat = right.bits.toNat := by
    unfold place at samePlace
    cases leftSign : left.isNegative <;> cases rightSign : right.isNegative <;>
      simp only [leftSign, rightSign, Bool.false_eq_true, if_true, if_false]
        at samePlace leftBits rightBits <;> omega
  cases left
  cases right
  simp only [Double.mk.injEq]
  exact UInt64.toNat_inj.mp sameBits

instance : Ord Double where
  compare left right := compare left.place right.place

theorem compare_eq (left right : Double) :
    compare left right = compare left.place right.place := rfl

instance : Std.TransOrd Double where
  eq_swap := by
    intro left right
    simp only [compare_eq]
    exact Std.OrientedCmp.eq_swap
  isLE_trans := by
    intro left middle right
    simp only [compare_eq]
    exact Std.TransCmp.isLE_trans

instance : Std.LawfulEqOrd Double where
  compare_self := by
    intro number
    simp only [compare_eq]
    exact Std.ReflCmp.compare_self
  eq_of_compare := by
    intro left right same
    simp only [compare_eq] at same
    exact place_injective (Std.LawfulEqCmp.eq_of_compare same)

/-! ## Exact values and rounding -/

/-- The significand of a finite double: its absolute value is `significand * 2 ^ exponent`. -/
def significand (number : Double) : Nat :=
  if number.biasedExponent = 0 then number.fraction else hiddenBit + number.fraction

/-- The exponent that belongs to `significand`. -/
def exponent (number : Double) : Int :=
  if number.biasedExponent = 0 then -1074 else (number.biasedExponent : Int) - 1075

/-- The quotient rounded to the nearest natural, a half to the even one. -/
def divideToEven (numerator denominator : Nat) : Nat :=
  let quotient := numerator / denominator
  let doubled := 2 * (numerator % denominator)
  if doubled < denominator then quotient
  else if denominator < doubled then quotient + 1
  else quotient + quotient % 2

/-- `numerator / denominator * 2 ^ (-exponent)` as a numerator and a denominator. -/
def scaleRatio (numerator denominator : Nat) (exponent : Int) : Nat × Nat :=
  (numerator * Nat.pow 2 (-exponent).toNat, denominator * Nat.pow 2 exponent.toNat)

/-- The exponent of the grid of doubles on which `numerator / denominator` is rounded: the scaled
ratio lies below `2 ^ 53`, and not below `2 ^ 52` unless the grid is the finest one. -/
def gridExponent (numerator denominator : Nat) : Int :=
  let estimate := max ((Nat.log2 numerator : Int) - Nat.log2 denominator - 53) (-1074)
  let scaled := scaleRatio numerator denominator estimate
  if scaled.1 / scaled.2 < 2 * hiddenBit then estimate else estimate + 1

/-- The double nearest to `numerator / denominator`, a half to the even one.  Beyond the largest
finite double the result is an infinity. -/
def ofRatio (isNegative : Bool) (numerator denominator : Nat) : Double :=
  if numerator = 0 then
    ofMagnitude isNegative 0
  else
    let exponent := gridExponent numerator denominator
    let scaled := scaleRatio numerator denominator exponent
    let rounded := divideToEven scaled.1 scaled.2
    let magnitude :=
      if rounded < hiddenBit then
        rounded
      else
        (exponent + 1075).toNat * hiddenBit + (rounded - hiddenBit)
    if magnitude < 2047 * hiddenBit then
      ofMagnitude isNegative magnitude
    else
      infinity isNegative

/-- The double nearest to an integer, a half to the even one. -/
def ofInt (value : Int) : Double :=
  ofRatio (value < 0) value.natAbs 1

/-- The product of finite doubles, rounded. -/
def times (left right : Double) : Double :=
  let exponent := left.exponent + right.exponent
  ofRatio (left.isNegative != right.isNegative)
    (left.significand * right.significand * Nat.pow 2 exponent.toNat) (Nat.pow 2 (-exponent).toNat)

/-- The quotient of finite doubles, rounded; the divisor is not zero. -/
def dividedBy (left right : Double) : Double :=
  let exponent := left.exponent - right.exponent
  ofRatio (left.isNegative != right.isNegative)
    (left.significand * Nat.pow 2 exponent.toNat)
    (right.significand * Nat.pow 2 (-exponent).toNat)

end Double

end Unnest
