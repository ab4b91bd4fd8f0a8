import Unnest.Decimal.Shortest
import Unnest.Json

/-!
# Numbers in JSON texts

A numeral is taken apart at its point and at its exponent (`Json.Numeral`).  What number it is then
is left to a `NumberReader`.  The one here works on a significand of sixty-four bits: digits that it
has no room for are counted or dropped, and the double of the significand is multiplied or divided
by a power of ten, so that its last bit can differ from that of the nearest double.
-/

namespace Unnest.Json

/-- A number without its sign, as it is written. -/
structure Numeral where
  /-- The digits before the point. -/
  whole : List Char
  /-- The digits behind the point, if there is one. -/
  fraction : Option (List Char)
  exponent : Option Int
deriving DecidableEq, Repr, Inhabited

/-- What number a numeral is, behind a minus sign or not. -/
abbrev NumberReader := Bool → Numeral → Option Json

/-! ## Taking numerals apart -/

/-- The digits after a decimal point, at least one, if there is a point. -/
def takeFraction : List Char → Option (Option (List Char) × List Char)
  | '.' :: rest =>
      match Text.takeDigits rest with
      | ([], _) => none
      | (digits, rest) => some (some digits, rest)
  | rest => some (none, rest)

/-- The exponent after `e` or `E`, if there is one. -/
def takeExponent (input : List Char) : Option (Option Int × List Char) :=
  match input with
  | [] => some (none, [])
  | mark :: rest =>
      if mark == 'e' || mark == 'E' then
        let (isNegative, rest) :=
          match rest with
          | '-' :: rest => (true, rest)
          | '+' :: rest => (false, rest)
          | rest => (false, rest)
        match Text.takeDigits rest with
        | ([], _) => none
        | (digits, rest) =>
            let value : Int := Text.digitsValue digits
            some (some (if isNegative then -value else value), rest)
      else
        some (none, input)

/-- Read a number behind its sign: no leading zeros, then an optional fraction and exponent. -/
def takeNumber (readNumber : NumberReader) (isNegative : Bool) (input : List Char) :
    Option (Json × List Char) :=
  match Text.takeDigits input with
  | ([], _) => none
  | (digits, rest) =>
      let (whole, rest) :=
        match digits with
        | '0' :: more => (['0'], more ++ rest)
        | _ => (digits, rest)
      match takeFraction rest with
      | none => none
      | some (fraction, rest) =>
          match takeExponent rest with
          | none => none
          | some (exponent, rest) =>
              match readNumber isNegative ⟨whole, fraction, exponent⟩ with
              | none => none
              | some number => some (number, rest)

/-! ## Significands of sixty-four bits -/

/-- Go on with a significand as long as the digits fit; the number of digits that were taken. -/
def takeSignificand (significand : Nat) : List Char → Nat × Nat
  | [] => (significand, 0)
  | digit :: rest =>
      let longer := 10 * significand + Text.digitsValue [digit]
      if longer < UInt64.size then
        let (taken, count) := takeSignificand longer rest
        (taken, count + 1)
      else
        (significand, 0)

/-- The double nearest to a power of ten. -/
def powerOfTen (places : Nat) : Double :=
  Decimal.toDouble false ⟨1, places⟩

/-- Divide by the greatest power of ten so many times, or until nothing is left. -/
def dividedOften (number : Double) : Nat → Double
  | 0 => number
  | times + 1 =>
      if number.significand = 0 then number
      else dividedOften (number.dividedBy (powerOfTen 308)) times

/-- The double of a significand, multiplied or divided by a power of ten. -/
def scaled? (significand : Nat) (exponent : Int) : Option Double :=
  let number := Double.ofInt significand
  if 308 < exponent then
    if significand = 0 then some number else none
  else if 0 ≤ exponent then
    some (number.times (powerOfTen exponent.toNat))
  else
    let places := exponent.natAbs
    let times := (places - 1) / 308
    some ((dividedOften number times).dividedBy (powerOfTen (places - 308 * times)))

/-- The double of the same magnitude with the given sign. -/
def withSign (isNegative : Bool) (number : Double) : Double :=
  Double.ofMagnitude isNegative number.magnitude

/-- An integer that fits into sixty-four bits stays one, except for the negative zero.  Any other
number is a double, and one that becomes infinite is none. -/
def scaledNumber? : NumberReader := fun isNegative numeral =>
  let (significand, taken) := takeSignificand 0 numeral.whole
  let isInteger :=
    numeral.fraction.isNone && numeral.exponent.isNone && taken == numeral.whole.length
  if isInteger && !isNegative then
    some (.integer significand)
  else if isInteger && 0 < significand && significand ≤ Nat.pow 2 63 then
    some (.integer (-significand))
  else
    let (significand, behind) := takeSignificand significand (numeral.fraction.getD [])
    let exponent : Int :=
      numeral.exponent.getD 0 + ((numeral.whole.length - taken : Nat) : Int) - behind
    match scaled? significand exponent with
    | none => none
    | some number =>
        if number.isFinite then some (.double (withSign isNegative number)) else none

end Unnest.Json
