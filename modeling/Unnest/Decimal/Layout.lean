import Unnest.Decimal.Shortest

/-!
# How a double is written

A `Layout` says where the shortest digits of a double are put: between which exponents the number is
written out, and what an exponent looks like.  The three ways in which doubles are shown here are
values of `Layout`.
-/

namespace Unnest.Decimal

/-- The decisions that turn selected digits into text. -/
structure Layout where
  /-- Whether a number is written out whose leading digit has this decimal exponent. -/
  isWrittenOut : Int → Bool
  /-- A whole number that is written out ends in `.0`. -/
  marksWhole : Bool
  /-- A positive exponent has a plus sign. -/
  marksPlus : Bool
  /-- Which of two equally near digit strings is taken. -/
  tie : Tie

/-- Plain text: always written out, and a whole number looks like an integer. -/
def plainLayout : Layout where
  isWrittenOut := fun _ => true
  marksWhole := false
  marksPlus := false
  tie := .up

/-- Settings: always written out, and a whole number is marked as a double. -/
def settingsLayout : Layout where
  isWrittenOut := fun _ => true
  marksWhole := true
  marksPlus := false
  tie := .up

/-- JSON: written out from `1e-5` up to, but without, `1e16`. -/
def jsonLayout : Layout where
  isWrittenOut := fun leading => -5 ≤ leading && leading < 16
  marksWhole := true
  marksPlus := true
  tie := .toEven

/-- Messages about broken invariants: written out from `1e-4` up to, but without, `1e16`. -/
def diagnosticLayout : Layout where
  isWrittenOut := fun leading => -4 ≤ leading && leading < 16
  marksWhole := true
  marksPlus := false
  tie := .up

def zeros (count : Nat) : String :=
  String.ofList (List.replicate count '0')

/-- Digits without a sign, written out or with an exponent. -/
def Layout.placeDigits (layout : Layout) (decimal : Decimal) : String :=
  let digits := Nat.toDigits 10 decimal.digits
  let leading : Int := (digits.length : Int) - 1 + decimal.exponent
  if layout.isWrittenOut leading then
    if 0 ≤ decimal.exponent then
      String.ofList digits ++ zeros decimal.exponent.toNat ++
        (if layout.marksWhole then ".0" else "")
    else if 0 ≤ leading then
      let whole := leading.toNat + 1
      String.ofList (digits.take whole) ++ "." ++ String.ofList (digits.drop whole)
    else
      "0." ++ zeros (-leading - 1).toNat ++ String.ofList digits
  else
    let fraction :=
      match digits.drop 1 with
      | [] => ""
      | rest => "." ++ String.ofList rest
    let sign := if 0 ≤ leading && layout.marksPlus then "+" else ""
    String.ofList (digits.take 1) ++ fraction ++ "e" ++ sign ++ toString leading

/-- The text of any double.  A NaN has no sign. -/
def Layout.write (layout : Layout) (number : Double) : String :=
  if number.isNaN then
    "NaN"
  else
    let sign := if number.isNegative then "-" else ""
    if number.isInfinite then
      sign ++ "inf"
    else
      sign ++ layout.placeDigits (shortest layout.tie number)

end Unnest.Decimal
