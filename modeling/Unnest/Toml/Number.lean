import Unnest.Decimal.Shortest
import Unnest.Toml.Table

/-!
# Numbers and moments in TOML

An underscore may stand between two digits.  An integer has 64 bits.  A decimal above the largest
double is refused, and one below the least double is the negative infinity.
-/

namespace Unnest.Toml

/-- The digits at the start of a text that follow a digit, and the text after them. -/
def takeMoreDigits (accepts : Char → Bool) : List Char → List Char × List Char
  | [] => ([], [])
  | '_' :: digit :: rest =>
      if accepts digit then
        let (digits, rest) := takeMoreDigits accepts rest
        (digit :: digits, rest)
      else ([], '_' :: digit :: rest)
  | digit :: rest =>
      if accepts digit then
        let (digits, rest) := takeMoreDigits accepts rest
        (digit :: digits, rest)
      else ([], digit :: rest)

/-- The digits at the start of a text, at least one. -/
def takeDigits? (accepts : Char → Bool) : List Char → Option (List Char × List Char)
  | [] => none
  | digit :: rest =>
      if accepts digit then
        let (digits, rest) := takeMoreDigits accepts rest
        some (digit :: digits, rest)
      else none

def takeSign : List Char → Bool × List Char
  | '-' :: rest => (true, rest)
  | '+' :: rest => (false, rest)
  | input => (false, input)

/-! ## Decimals -/

/-- A whole number without a sign; a leading zero stands alone. -/
def takeWhole? : List Char → Option (List Char × List Char)
  | '0' :: rest => some (['0'], rest)
  | input => takeDigits? Text.isDigit input

def takeFraction? : List Char → Option (List Char × List Char)
  | '.' :: rest => takeDigits? Text.isDigit rest
  | _ => none

def takeExponent? : List Char → Option (Int × List Char)
  | [] => none
  | mark :: rest =>
      if mark == 'e' || mark == 'E' then
        let (isNegative, rest) := takeSign rest
        (takeDigits? Text.isDigit rest).map fun (digits, rest) =>
          let magnitude : Int := Text.digitsValue digits
          (if isNegative then -magnitude else magnitude, rest)
      else none

/-- A decimal has a fraction, an exponent or both. -/
def takeDecimal? (input : List Char) : Option (Toml × List Char) :=
  let (isNegative, unsigned) := takeSign input
  (takeWhole? unsigned).bind fun (whole, rest) =>
    let parts :=
      match takeFraction? rest with
      | some (fraction, rest) =>
          match takeExponent? rest with
          | some (exponent, rest) => some (fraction, exponent, rest)
          | none => some (fraction, 0, rest)
      | none => (takeExponent? rest).map fun (exponent, rest) => ([], exponent, rest)
    parts.bind fun (fraction, exponent, rest) =>
      let number := Decimal.readDouble isNegative whole fraction exponent
      if number = Double.infinity false then none else some (.double number, rest)

/-- Infinity and not-a-number, with a sign. -/
def takeSpecial? (input : List Char) : Option (Toml × List Char) :=
  let (isNegative, rest) := takeSign input
  match rest with
  | 'i' :: 'n' :: 'f' :: rest => some (.double (Double.infinity isNegative), rest)
  | 'n' :: 'a' :: 'n' :: rest => some (.double (Double.nan isNegative), rest)
  | _ => none

/-! ## Integers -/

/-- An integer of 64 bits. -/
def integer? (value : Int) : Option Toml :=
  if Int64.minValue.toInt ≤ value ∧ value ≤ Int64.maxValue.toInt then some (.integer value)
  else none

/-- The value of digits in a base of at most sixteen. -/
def valueInBase (base : Nat) (digits : List Char) : Nat :=
  digits.foldl (fun value digit => base * value + (Text.hexDigit? digit).getD 0) 0

/-- Digits in another base than ten, after the mark that names it. -/
def takeInBase? (base : Nat) (input : List Char) : Option (Toml × List Char) :=
  let accepts (digit : Char) : Bool := (Text.hexDigit? digit).any (· < base)
  (takeDigits? accepts input).bind fun (digits, rest) =>
    (integer? (valueInBase base digits)).map (·, rest)

def takeInteger? : List Char → Option (Toml × List Char)
  | '0' :: 'x' :: rest => takeInBase? 16 rest
  | '0' :: 'o' :: rest => takeInBase? 8 rest
  | '0' :: 'b' :: rest => takeInBase? 2 rest
  | input =>
      let (isNegative, unsigned) := takeSign input
      (takeWhole? unsigned).bind fun (digits, rest) =>
        let magnitude : Int := Text.digitsValue digits
        (integer? (if isNegative then -magnitude else magnitude)).map (·, rest)

/-! ## Moments -/

/-- A number of exactly so many digits that lies in a range. -/
def takeField? (width least most : Nat) (input : List Char) : Option (Nat × List Char) :=
  let digits := input.take width
  let value := Text.digitsValue digits
  if digits.length = width ∧ digits.all Text.isDigit ∧ least ≤ value ∧ value ≤ most then
    some (value, input.drop width)
  else none

def takeMark? (mark : Char) : List Char → Option (List Char)
  | first :: rest => if first == mark then some rest else none
  | [] => none

def isLeapYear (year : Nat) : Bool :=
  year % 4 == 0 && (year % 100 != 0 || year % 400 == 0)

def daysOfMonth (year month : Nat) : Nat :=
  if month = 2 then (if isLeapYear year then 29 else 28)
  else if month = 4 ∨ month = 6 ∨ month = 9 ∨ month = 11 then 30
  else 31

/-- Year, month and day. -/
def takeDate? (input : List Char) : Option (List Char) := do
  let (year, rest) ← takeField? 4 0 9999 input
  let rest ← takeMark? '-' rest
  let (month, rest) ← takeField? 2 1 12 rest
  let rest ← takeMark? '-' rest
  let (_, rest) ← takeField? 2 1 (daysOfMonth year month) rest
  pure rest

/-- A fraction of a second, if there is one. -/
def dropSecondFraction (input : List Char) : List Char :=
  match input with
  | '.' :: rest =>
      match Text.takeDigits rest with
      | ([], _) => input
      | (_, rest) => rest
  | _ => input

/-- Hour, minute and second; a leap second may be the sixtieth. -/
def takeTime? (input : List Char) : Option (List Char) := do
  let (_, rest) ← takeField? 2 0 23 input
  let rest ← takeMark? ':' rest
  let (_, rest) ← takeField? 2 0 59 rest
  let rest ← takeMark? ':' rest
  let (_, rest) ← takeField? 2 0 60 rest
  pure (dropSecondFraction rest)

/-- The distance from universal time, if it is given. -/
def dropOffset (input : List Char) : List Char :=
  match input with
  | 'Z' :: rest => rest
  | 'z' :: rest => rest
  | sign :: rest =>
      if sign == '+' || sign == '-' then
        let offset := do
          let (_, rest) ← takeField? 2 0 23 rest
          let rest ← takeMark? ':' rest
          takeField? 2 0 59 rest
        offset.elim input Prod.snd
      else input
  | [] => []

/-- What follows a date: the time of that day, if it is given. -/
def dropTimeOfDay (input : List Char) : List Char :=
  match input with
  | mark :: rest =>
      if mark == 'T' || mark == 't' || mark == ' ' then
        (takeTime? rest).elim input dropOffset
      else input
  | [] => []

def takeMoment? (input : List Char) : Option (Toml × List Char) :=
  match takeDate? input with
  | some rest => some (.moment, dropTimeOfDay rest)
  | none => (takeTime? input).map (.moment, ·)

/-- Read a number or a moment.  A moment and a decimal start like an integer, so they come first. -/
def takeNumber? (input : List Char) : Option (Toml × List Char) :=
  takeMoment? input <|> takeDecimal? input <|> takeSpecial? input <|> takeInteger? input

end Unnest.Toml
