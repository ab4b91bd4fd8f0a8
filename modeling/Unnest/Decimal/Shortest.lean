import Unnest.Double
import Unnest.Text.Digits

/-!
# The fewest digits that read back

The reals that round to a finite double form an interval, and its ends belong to it exactly when the
significand is even.  Among the decimals of that interval this module selects one with the fewest
digits, and of those the nearest to the double.  All arithmetic is exact, on naturals.

Where the digits are put, and what stands around them, is left to `Unnest.Decimal.Layout`.
-/

namespace Unnest

/-- The decimal `digits * 10 ^ exponent`. -/
structure Decimal where
  digits : Nat
  exponent : Int
deriving DecidableEq, Repr, Inhabited

namespace Decimal

/-- Which of two decimals is taken when the double lies exactly in the middle of them. -/
inductive Tie where
  | toEven
  | up
deriving DecidableEq, Repr

/-- Compare a decimal with `significand * 2 ^ binaryExponent`. -/
def compareBinary (decimal : Decimal) (significand : Nat) (binaryExponent : Int) : Ordering :=
  compare
    (decimal.digits * Nat.pow 10 decimal.exponent.toNat * Nat.pow 2 (-binaryExponent).toNat)
    (significand * Nat.pow 2 binaryExponent.toNat * Nat.pow 10 (-decimal.exponent).toNat)

/-- The double below lies at half the distance of the double above. -/
def hasNarrowGap (number : Double) : Bool :=
  number.fraction == 0 && 1 < number.biasedExponent

/-- The decimal lies among the reals that round to the absolute value of the double. -/
def readsBack (number : Double) (decimal : Decimal) : Bool :=
  let quarters := 4 * number.significand
  let lower := if hasNarrowGap number then quarters - 1 else quarters - 2
  let upper := quarters + 2
  let endsIncluded := number.significand % 2 == 0
  let atLower := compareBinary decimal lower (number.exponent - 2)
  let atUpper := compareBinary decimal upper (number.exponent - 2)
  (atLower == .gt || (endsIncluded && atLower == .eq)) &&
    (atUpper == .lt || (endsIncluded && atUpper == .eq))

/-- The number of places before the decimal point: the least `places` such that the absolute value
of the double is below `10 ^ places`. -/
def leadingPlaces (number : Double) : Int :=
  let estimate :=
    (((Nat.log2 number.significand : Int) + number.exponent) * 30103).fdiv 100000
  let isAbove (places : Int) : Bool :=
    compareBinary ⟨1, places⟩ number.significand number.exponent == .gt
  ([estimate - 1, estimate, estimate + 1].find? isAbove).getD (estimate + 2)

/-- The neighbour of the double on the grid of multiples of `10 ^ gridExponent` that reads back, the
nearer one when both do. -/
def onGrid (tie : Tie) (number : Double) (gridExponent : Int) : Option Decimal :=
  let below : Decimal :=
    ⟨number.significand * Nat.pow 2 number.exponent.toNat * Nat.pow 10 (-gridExponent).toNat /
      (Nat.pow 2 (-number.exponent).toNat * Nat.pow 10 gridExponent.toNat), gridExponent⟩
  let above : Decimal := ⟨below.digits + 1, gridExponent⟩
  match readsBack number below, readsBack number above with
  | false, false => none
  | true, false => some below
  | false, true => some above
  | true, true =>
      match
        compareBinary ⟨below.digits + above.digits, gridExponent⟩
          (2 * number.significand) number.exponent
      with
      | .gt => some below
      | .lt => some above
      | .eq =>
          match tie with
          | .up => some above
          | .toEven => if below.digits % 2 = 0 then some below else some above

/-- Move the trailing zeros of the digits into the exponent. -/
def stripZeros : Nat → Decimal → Decimal
  | 0, decimal => decimal
  | fuel + 1, decimal =>
      if decimal.digits ≠ 0 ∧ decimal.digits % 10 = 0 then
        stripZeros fuel ⟨decimal.digits / 10, decimal.exponent + 1⟩
      else
        decimal

/-- The exact value of a finite double, ignoring its sign. -/
def exact (number : Double) : Decimal :=
  ⟨number.significand * Nat.pow 2 number.exponent.toNat * Nat.pow 5 (-number.exponent).toNat,
    min number.exponent 0⟩

/-- The shortest decimal that reads back as the double, ignoring its sign. -/
def shortest (tie : Tie) (number : Double) : Decimal :=
  if number.significand = 0 then
    ⟨0, 0⟩
  else
    let places := leadingPlaces number
    let grids := (List.range 17).map fun (extra : Nat) => places - 1 - (extra : Int)
    let selected := (grids.findSome? (onGrid tie number)).getD (exact number)
    stripZeros selected.digits.log2 selected

/-! ## Reading

A decimal is rounded once, from its exact value, to the nearest double.  Decimals that are far out
of range are recognised by their size, so that no huge power of ten is formed.
-/

/-- The double nearest to a decimal with the given sign. -/
def toDouble (isNegative : Bool) (decimal : Decimal) : Double :=
  if decimal.digits = 0 then
    Double.ofMagnitude isNegative 0
  else
    let leading : Int := ((Nat.toDigits 10 decimal.digits).length : Int) + decimal.exponent
    if 310 < leading then
      Double.infinity isNegative
    else if leading < -330 then
      Double.ofMagnitude isNegative 0
    else
      Double.ofRatio isNegative (decimal.digits * Nat.pow 10 decimal.exponent.toNat)
        (Nat.pow 10 (-decimal.exponent).toNat)

/-- The double nearest to `whole.fraction * 10 ^ exponent`, each part given by its digits. -/
def readDouble (isNegative : Bool) (whole fraction : List Char) (exponent : Int) : Double :=
  toDouble isNegative ⟨Text.digitsValue (whole ++ fraction), exponent - fraction.length⟩

end Decimal

end Unnest
