import Unnest.Decimal.Layout
import Unnest.Json.Token
import Unnest.Proofs.FiniteNumbers
import Unnest.Proofs.JsonLines
import Unnest.Proofs.PaddedIndices
import Unnest.Proofs.ShortestDecimal

/-!
# Numbers in JSON texts

Reading takes a numeral apart again, as long as the text does not go on like a number
(`Json.Numeral.takeNumber_text`).  A finite double is written as a numeral of the same value as its
shortest decimal.  So it is read as the double again where every numeral is read as the double
nearest to it (`Json.nearestNumber?`), which a reader of significands does not always do.
-/

namespace Unnest

/-! ## Digits -/

namespace Text

/-- The text does not go on with a digit. -/
def EndsDigits (rest : List Char) : Prop :=
  ∀ character, rest.head? = some character → isDigit character = false

theorem takeDigits_append {digits rest : List Char}
    (areDigits : ∀ character ∈ digits, isDigit character = true) (ends : EndsDigits rest) :
    takeDigits (digits ++ rest) = (digits, rest) := by
  rw [takeDigits, List.takeWhile_append_of_pos areDigits, List.dropWhile_append_of_pos areDigits]
  cases rest with
  | nil => simp
  | cons character others => simp [ends character rfl]

theorem digitsValue_append (left right : List Char) :
    digitsValue (left ++ right) = digitsValue left * 10 ^ right.length + digitsValue right := by
  simp only [digitsValue, ← Nat.ofDigitChars_eq_foldl]
  rw [Nat.ofDigitChars_append, Nat.ofDigitChars_eq_ofDigitChars_zero, Nat.mul_comm]

theorem digitsValue_zeros (count : ℕ) : digitsValue (List.replicate count '0') = 0 := by
  rw [digitsValue, ← Nat.ofDigitChars_eq_foldl, Nat.ofDigitChars_replicate_zero, Nat.mul_zero]

theorem isDigit_of_mem_toDigits {number : ℕ} {character : Char}
    (member : character ∈ Nat.toDigits 10 number) : isDigit character = true := by
  rw [FieldPath.isDigit_eq]
  exact FieldPath.isDigit_of_mem_toDigits member

end Text

namespace Json

/-! ## Numerals -/

/-- An integer, without fraction and exponent, stays one, except for the negative zero.  Any other
number is the nearest double, and what rounds to no finite one is no number. -/
def nearestNumber? : NumberReader := fun isNegative numeral =>
  let value : Int := Text.digitsValue numeral.whole
  let number := Decimal.readDouble isNegative numeral.whole (numeral.fraction.getD [])
    (numeral.exponent.getD 0)
  if !number.isFinite then none
  else if numeral.fraction.isNone && numeral.exponent.isNone && !(isNegative && value == 0) then
    some (.integer (if isNegative then -value else value))
  else
    some (.double number)

/-- The exponent with its mark and its sign. -/
def exponentText (exponent : Int) : List Char :=
  'e' :: (if exponent < 0 then '-' else '+') :: Nat.toDigits 10 exponent.natAbs

namespace Numeral

def text (numeral : Numeral) : List Char :=
  numeral.whole ++ (numeral.fraction.elim [] ('.' :: ·) ++ numeral.exponent.elim [] exponentText)

/-- There are digits before and behind the point, and no zero in front of other digits. -/
structure IsWellFormed (numeral : Numeral) : Prop where
  wholeNotEmpty : numeral.whole ≠ []
  wholeDigits : ∀ character ∈ numeral.whole, Text.isDigit character = true
  noLeadingZero : numeral.whole = ['0'] ∨ numeral.whole.head? ≠ some '0'
  fractionNotEmpty : numeral.fraction ≠ some []
  fractionDigits : ∀ digits, numeral.fraction = some digits →
    ∀ character ∈ digits, Text.isDigit character = true

/-- The decimal that is written. -/
def decimal (numeral : Numeral) : Decimal :=
  ⟨Text.digitsValue (numeral.whole ++ numeral.fraction.getD []),
    numeral.exponent.getD 0 - (numeral.fraction.getD []).length⟩

end Numeral

/-- The text starts with a digit. -/
def StartsWithDigit (text : List Char) : Prop :=
  ∃ digit others, text = digit :: others ∧ Text.isDigit digit = true

/-- The text does not go on like a number. -/
def EndsNumber (rest : List Char) : Prop :=
  ∀ character, rest.head? = some character →
    Text.isDigit character = false ∧ character ≠ '.' ∧ character ≠ 'e' ∧ character ≠ 'E'

theorem EndsNumber.endsDigits {rest : List Char} (ends : EndsNumber rest) : Text.EndsDigits rest :=
  fun character isHead => (ends character isHead).1

theorem takeFraction_some {digits rest : List Char} (notEmpty : digits ≠ [])
    (areDigits : ∀ character ∈ digits, Text.isDigit character = true)
    (ends : Text.EndsDigits rest) :
    takeFraction ('.' :: (digits ++ rest)) = some (some digits, rest) := by
  rw [takeFraction, Text.takeDigits_append areDigits ends]
  cases digits with
  | nil => exact absurd rfl notEmpty
  | cons digit others => rfl

theorem takeFraction_none {rest : List Char} (noPoint : rest.head? ≠ some '.') :
    takeFraction rest = some (none, rest) := by
  rw [takeFraction.eq_def]
  split
  · exact absurd rfl noPoint
  · rfl

theorem takeExponent_some (exponent : Int) {rest : List Char} (ends : Text.EndsDigits rest) :
    takeExponent (exponentText exponent ++ rest) = some (some exponent, rest) := by
  have areDigits : ∀ character ∈ Nat.toDigits 10 exponent.natAbs, Text.isDigit character = true :=
    fun _ member => Text.isDigit_of_mem_toDigits member
  have taken := Text.takeDigits_append areDigits ends
  have isValue := FieldPath.digitsValue_toDigits exponent.natAbs
  rw [exponentText]
  cases hasDigits : Nat.toDigits 10 exponent.natAbs with
  | nil => exact absurd hasDigits (FieldPath.toDigits_ne_nil exponent.natAbs)
  | cons digit others =>
      rw [hasDigits] at taken isValue
      rw [List.cons_append] at taken
      by_cases isNegative : exponent < 0
      · have isOpposite : -|exponent| = exponent := by rw [abs_of_neg isNegative, neg_neg]
        rw [if_pos isNegative, List.cons_append, List.cons_append, takeExponent]
        simp [taken, isValue, isOpposite]
      · have isSame : |exponent| = exponent := abs_of_nonneg (not_lt.mp isNegative)
        rw [if_neg isNegative, List.cons_append, List.cons_append, takeExponent]
        simp [taken, isValue, isSame]

theorem takeExponent_none {rest : List Char} (ends : EndsNumber rest) :
    takeExponent rest = some (none, rest) := by
  cases rest with
  | nil => rfl
  | cons character others =>
      rcases ends character rfl with ⟨_, _, notSmall, notLarge⟩
      simp [takeExponent, notSmall, notLarge]

namespace Numeral

variable {numeral : Numeral}

theorem takeExponent_text (exponent : Option Int) {rest : List Char} (ends : EndsNumber rest) :
    takeExponent (exponent.elim [] exponentText ++ rest) = some (exponent, rest) := by
  cases exponent with
  | none => exact takeExponent_none ends
  | some value => exact takeExponent_some value ends.endsDigits

/-- What follows the digits before the exponent does not go on with a digit, or with a point. -/
theorem head?_exponentText (exponent : Option Int) {rest : List Char} (ends : EndsNumber rest) :
    ∀ character, (exponent.elim [] exponentText ++ rest).head? = some character →
      Text.isDigit character = false ∧ character ≠ '.' := by
  intro character isHead
  cases exponent with
  | none =>
      rcases ends character isHead with ⟨notDigit, notPoint, _, _⟩
      exact ⟨notDigit, notPoint⟩
  | some value =>
      cases isHead
      decide

theorem takeFraction_text (wellFormed : numeral.IsWellFormed) {rest : List Char}
    (noDigit : Text.EndsDigits rest) (noPoint : rest.head? ≠ some '.') :
    takeFraction (numeral.fraction.elim [] ('.' :: ·) ++ rest) = some (numeral.fraction, rest) := by
  cases isFraction : numeral.fraction with
  | none => exact takeFraction_none noPoint
  | some digits =>
      apply takeFraction_some _ (wellFormed.fractionDigits digits isFraction) noDigit
      intro isEmpty
      exact wellFormed.fractionNotEmpty (isEmpty ▸ isFraction)

theorem startsWithDigit_text (wellFormed : numeral.IsWellFormed) :
    StartsWithDigit numeral.text := by
  rw [text]
  cases isWhole : numeral.whole with
  | nil => exact absurd isWhole wellFormed.wholeNotEmpty
  | cons digit others =>
      refine ⟨digit, _, List.cons_append, wellFormed.wholeDigits digit ?_⟩
      rw [isWhole]
      exact List.mem_cons_self

theorem takeNumber_text (readNumber : NumberReader) (wellFormed : numeral.IsWellFormed)
    (isNegative : Bool) {rest : List Char} (ends : EndsNumber rest) :
    takeNumber readNumber isNegative (numeral.text ++ rest) =
      (readNumber isNegative numeral).map fun number => (number, rest) := by
  have behindFraction := head?_exponentText numeral.exponent ends
  have isExponent := takeExponent_text numeral.exponent ends
  have noDigit : Text.EndsDigits (numeral.exponent.elim [] exponentText ++ rest) :=
    fun character isHead => (behindFraction character isHead).1
  have noPoint : (numeral.exponent.elim [] exponentText ++ rest).head? ≠ some '.' :=
    fun isHead => (behindFraction '.' isHead).2 rfl
  have isFraction := takeFraction_text wellFormed noDigit noPoint
  have behindWhole : Text.EndsDigits (numeral.fraction.elim [] ('.' :: ·) ++
      (numeral.exponent.elim [] exponentText ++ rest)) := by
    cases numeral.fraction with
    | none => exact noDigit
    | some digits =>
        intro character isHead
        cases isHead
        decide
  have isWhole := Text.takeDigits_append wellFormed.wholeDigits behindWhole
  rw [takeNumber, text, List.append_assoc, List.append_assoc, isWhole]
  rcases wellFormed.noLeadingZero with isZero | notZero
  · rw [isZero]
    have isNumeral : (⟨['0'], numeral.fraction, numeral.exponent⟩ : Numeral) = numeral := by
      rw [← isZero]
    simp only [List.nil_append, isFraction, isExponent, isNumeral]
    cases readNumber isNegative numeral <;> rfl
  · cases isDigits : numeral.whole with
    | nil => exact absurd isDigits wellFormed.wholeNotEmpty
    | cons digit others =>
        have notZeroDigit : digit ≠ '0' := by
          intro isZero
          rw [isDigits, isZero] at notZero
          exact notZero rfl
        have isNumeral : (⟨digit :: others, numeral.fraction, numeral.exponent⟩ : Numeral) =
            numeral := by
          rw [← isDigits]
        cases isNumber : readNumber isNegative numeral <;>
          simp [isFraction, isExponent, notZeroDigit, isNumeral, isNumber]

end Numeral

/-! ## Doubles -/

/-- The text is the numeral, which has a point or an exponent and the value of the decimal. -/
structure Numeral.Spells (numeral : Numeral) (decimal : Decimal) (written : String) : Prop extends
    numeral.IsWellFormed where
  text : written.toList = numeral.text
  isDouble : numeral.fraction ≠ none ∨ numeral.exponent ≠ none
  value : numeral.decimal.value = decimal.value

section Spelled

open Decimal (zeros)

variable (decimal : Decimal)

theorem head?_toDigits (notZero : decimal.digits ≠ 0) :
    (Nat.toDigits 10 decimal.digits).head? ≠ some '0' :=
  head?_toDigits_ne_zero (Nat.pos_of_ne_zero notZero)

theorem toList_zeros (count : ℕ) : (zeros count).toList = List.replicate count '0' :=
  String.toList_ofList

theorem isDigit_zeros {count : ℕ} {character : Char}
    (member : character ∈ List.replicate count '0') : Text.isDigit character = true := by
  rw [List.eq_of_mem_replicate member]
  rfl

/-- A whole number: its digits, zeros, and a zero behind the point. -/
theorem exists_spells_whole (normal : decimal.digits = 0 → decimal.exponent = 0)
    (notNegative : 0 ≤ decimal.exponent) :
    ∃ numeral : Numeral, numeral.Spells decimal
      (String.ofList (Nat.toDigits 10 decimal.digits) ++ zeros decimal.exponent.toNat ++ ".0") := by
  refine ⟨⟨Nat.toDigits 10 decimal.digits ++ List.replicate decimal.exponent.toNat '0', some ['0'],
    none⟩, ⟨?_, ?_, ?_, ?_, ?_⟩, ?_, ?_, ?_⟩
  · exact List.append_ne_nil_of_left_ne_nil (FieldPath.toDigits_ne_nil _) _
  · intro character member
    exact (List.mem_append.mp member).elim Text.isDigit_of_mem_toDigits isDigit_zeros
  · by_cases isZero : decimal.digits = 0
    · left
      simp [isZero, normal isZero]
    · right
      simp only [List.head?_append_of_ne_nil _ (FieldPath.toDigits_ne_nil decimal.digits)]
      exact head?_toDigits decimal isZero
  · simp
  · intro digits isFraction
    cases isFraction
    simp [Text.isDigit]
  · simp [Numeral.text, toList_zeros]
  · simp
  · have isPower : (10 : ℚ) ^ decimal.exponent = 10 ^ decimal.exponent.toNat := by
      rw [← zpow_natCast, Int.toNat_of_nonneg notNegative]
    have noZero : Text.digitsValue ['0'] = 0 := rfl
    simp only [Numeral.decimal, Decimal.value, Option.getD_some, Option.getD_none,
      Text.digitsValue_append, FieldPath.digitsValue_toDigits, Text.digitsValue_zeros, noZero]
    rw [isPower]
    simp

/-- Digits on both sides of the point. -/
theorem exists_spells_point (notZero : decimal.digits ≠ 0) {places : ℕ} (positive : 0 < places)
    (isFraction : (places : ℤ) - (Nat.toDigits 10 decimal.digits).length = decimal.exponent)
    (isNegative : decimal.exponent < 0) :
    ∃ numeral : Numeral, numeral.Spells decimal
      (String.ofList ((Nat.toDigits 10 decimal.digits).take places) ++ "." ++
        String.ofList ((Nat.toDigits 10 decimal.digits).drop places)) := by
  have isInside : places < (Nat.toDigits 10 decimal.digits).length := by omega
  have isDigit (character : Char) (member : character ∈ Nat.toDigits 10 decimal.digits) :=
    Text.isDigit_of_mem_toDigits member
  have isHead := head?_toDigits decimal notZero
  have sameDigits := FieldPath.digitsValue_toDigits decimal.digits
  generalize Nat.toDigits 10 decimal.digits = digits at *
  refine ⟨⟨digits.take places, some (digits.drop places), none⟩,
    ⟨?_, ?_, Or.inr ?_, ?_, ?_⟩, ?_, ?_, ?_⟩
  · rw [ne_eq, List.take_eq_nil_iff, not_or]
    exact ⟨positive.ne', List.ne_nil_of_length_pos (by omega)⟩
  · intro character member
    exact isDigit character (List.mem_of_mem_take member)
  · rwa [List.head?_take, if_neg positive.ne']
  · rw [ne_eq, Option.some.injEq, List.drop_eq_nil_iff]
    omega
  · intro others isOthers character member
    cases isOthers
    exact isDigit character (List.mem_of_mem_drop member)
  · simp [Numeral.text]
  · simp
  · have sameExponent : 0 - ((digits.drop places).length : ℤ) = decimal.exponent := by
      rw [List.length_drop]
      omega
    simp only [Numeral.decimal, Option.getD_some, Option.getD_none, List.take_append_drop,
      sameDigits, sameExponent]

/-- Zeros and digits behind the point. -/
theorem exists_spells_zeros {count : ℕ}
    (isFraction : -(count : ℤ) - (Nat.toDigits 10 decimal.digits).length = decimal.exponent) :
    ∃ numeral : Numeral, numeral.Spells decimal
      ("0." ++ zeros count ++ String.ofList (Nat.toDigits 10 decimal.digits)) := by
  refine ⟨⟨['0'], some (List.replicate count '0' ++ Nat.toDigits 10 decimal.digits), none⟩,
    ⟨?_, ?_, Or.inl rfl, ?_, ?_⟩, ?_, ?_, ?_⟩
  · simp
  · simp [Text.isDigit]
  · simp
  · intro digits isDigits character member
    cases isDigits
    exact (List.mem_append.mp member).elim isDigit_zeros Text.isDigit_of_mem_toDigits
  · simp [Numeral.text, toList_zeros]
  · simp
  · have sameDigits : Text.digitsValue
        (['0'] ++ (List.replicate count '0' ++ Nat.toDigits 10 decimal.digits)) =
          decimal.digits := by
      have noZero : Text.digitsValue ['0'] = 0 := rfl
      rw [Text.digitsValue_append, Text.digitsValue_append, Text.digitsValue_zeros, noZero,
        FieldPath.digitsValue_toDigits, Nat.zero_mul, Nat.zero_mul, Nat.zero_add, Nat.zero_add]
    have sameExponent : 0 - ((List.replicate count '0' ++
        Nat.toDigits 10 decimal.digits).length : ℤ) = decimal.exponent := by
      rw [List.length_append, List.length_replicate]
      omega
    simp only [Numeral.decimal, Option.getD_some, Option.getD_none, sameDigits, sameExponent]

theorem toList_exponent (exponent : ℤ) :
    ("e" ++ (if 0 ≤ exponent then "+" else "") ++ toString exponent).toList =
      exponentText exponent := by
  rw [String.toList_append, String.toList_append, toList_toString, exponentText]
  by_cases isNegative : exponent < 0
  · rw [if_pos isNegative, if_pos isNegative, if_neg (Int.not_le.mpr isNegative)]
    rfl
  · rw [if_neg isNegative, if_neg isNegative, if_pos (Int.not_lt.mp isNegative)]
    rfl

/-- One digit, with others behind the point if there are any, and an exponent. -/
theorem exists_spells_exponent {fraction : String}
    (isFraction : fraction.toList = if (Nat.toDigits 10 decimal.digits).drop 1 = [] then []
      else '.' :: (Nat.toDigits 10 decimal.digits).drop 1) {leading : ℤ}
    (isLeading : ((Nat.toDigits 10 decimal.digits).length : ℤ) - 1 + decimal.exponent = leading) :
    ∃ numeral : Numeral, numeral.Spells decimal
      (String.ofList ((Nat.toDigits 10 decimal.digits).take 1) ++ fraction ++
        ("e" ++ (if 0 ≤ leading then "+" else "") ++ toString leading)) := by
  have isDigit (character : Char) (member : character ∈ Nat.toDigits 10 decimal.digits) :=
    Text.isDigit_of_mem_toDigits member
  have sameDigits := FieldPath.digitsValue_toDigits decimal.digits
  have notEmpty := FieldPath.toDigits_ne_nil decimal.digits
  generalize Nat.toDigits 10 decimal.digits = digits at *
  cases digits with
  | nil => exact absurd rfl notEmpty
  | cons digit others =>
      rw [List.drop_one, List.tail_cons] at isFraction
      rw [List.length_cons] at isLeading
      have parts : (if others = [] then none else some others).elim [] ('.' :: ·) =
          fraction.toList ∧ (if others = [] then none else some others).getD [] = others := by
        rw [isFraction]
        by_cases isEmpty : others = [] <;> simp [isEmpty]
      have sameExponent : leading - (others.length : ℤ) = decimal.exponent := by omega
      refine ⟨⟨[digit], if others = [] then none else some others, some leading⟩,
        ⟨?_, ?_, ?_, ?_, ?_⟩, ?_, ?_, ?_⟩
      · simp
      · exact List.forall_mem_singleton.mpr (isDigit digit List.mem_cons_self)
      · by_cases isZero : digit = '0'
        · exact Or.inl (by rw [isZero])
        · exact Or.inr fun isHead => isZero (Option.some.inj isHead)
      · by_cases isEmpty : others = [] <;> simp [isEmpty]
      · intro behind isBehind character member
        by_cases isEmpty : others = []
        · simp [isEmpty] at isBehind
        · simp only [isEmpty, if_false, Option.some.injEq] at isBehind
          exact isDigit character (List.mem_cons_of_mem _ (isBehind ▸ member))
      · rw [String.toList_append, toList_exponent, Numeral.text]
        simp [parts.1]
      · simp
      · simp only [Numeral.decimal, parts.2, Option.getD_some, List.singleton_append, sameDigits,
          sameExponent]

/-- The digits of a decimal are placed as a numeral of the same value. -/
theorem exists_spells_placeDigits (normal : decimal.digits = 0 → decimal.exponent = 0) :
    ∃ numeral : Numeral, numeral.Spells decimal (Decimal.jsonLayout.placeDigits decimal) := by
  have hasDigits : 0 < (Nat.toDigits 10 decimal.digits).length := Nat.length_toDigits_pos
  rw [Decimal.Layout.placeDigits]
  split
  · split
    · rename_i notNegative
      exact exists_spells_whole decimal normal notNegative
    · rename_i isNegative
      split
      · rename_i isInside
        exact exists_spells_point decimal (fun isZero => isNegative (normal isZero).ge) (by omega)
          (by omega) (by omega)
      · rename_i isSmall
        exact exists_spells_zeros decimal (by omega)
  · have marksPlus : Decimal.jsonLayout.marksPlus = true := rfl
    simp only [marksPlus, Bool.and_true, decide_eq_true_eq]
    cases isDropped : (Nat.toDigits 10 decimal.digits).drop 1 with
    | nil =>
        have isFraction : "".toList = if (Nat.toDigits 10 decimal.digits).drop 1 = [] then []
            else '.' :: (Nat.toDigits 10 decimal.digits).drop 1 := by
          simp [isDropped]
        simpa only [String.append_assoc] using exists_spells_exponent decimal isFraction rfl
    | cons digit others =>
        have isFraction : ("." ++ String.ofList (digit :: others)).toList =
            if (Nat.toDigits 10 decimal.digits).drop 1 = [] then []
            else '.' :: (Nat.toDigits 10 decimal.digits).drop 1 := by
          simp [isDropped]
        simpa only [String.append_assoc] using exists_spells_exponent decimal isFraction rfl

end Spelled

/-! ## Reading numbers -/

theorem nearestNumber?_double {number : Double} (isFinite : number.isFinite = true)
    {numeral : Numeral} {written : String}
    (spells : numeral.Spells (Decimal.shortest .toEven number) written) :
    nearestNumber? number.isNegative numeral = some (.double number) := by
  have isRead : Decimal.readDouble number.isNegative numeral.whole (numeral.fraction.getD [])
      (numeral.exponent.getD 0) = number :=
    Decimal.toDouble_of_value_eq isFinite spells.value
  have isDouble : (numeral.fraction.isNone && numeral.exponent.isNone) = false := by
    rcases spells.isDouble with hasFraction | hasExponent
    · simp [Option.isNone_eq_false_iff, Option.isSome_iff_ne_none, hasFraction]
    · simp [Option.isNone_eq_false_iff, Option.isSome_iff_ne_none, hasExponent]
  simp [nearestNumber?, isRead, isFinite, isDouble]

/-- A finite double is read from the digits that are written for it, behind its sign. -/
theorem takeNumber_double {number : Double} (isFinite : number.isFinite = true) {rest : List Char}
    (ends : EndsNumber rest) :
    ∃ digits, (writeDouble number).toList = (if number.isNegative then ['-'] else []) ++ digits ∧
      StartsWithDigit digits ∧
      takeNumber nearestNumber? number.isNegative (digits ++ rest) =
        some (.double number, rest) := by
  rcases exists_spells_placeDigits _ (Decimal.exponent_shortest .toEven number) with
    ⟨numeral, spells⟩
  refine ⟨numeral.text, ?_, numeral.startsWithDigit_text spells.toIsWellFormed, ?_⟩
  · have notTop : (number.biasedExponent == 2047) = false := by
      rwa [Double.isFinite, bne, Bool.not_eq_true'] at isFinite
    have notNaN : number.isNaN = false := by
      rw [Double.isNaN, notTop, Bool.false_and]
    have notInfinite : number.isInfinite = false := by
      rw [Double.isInfinite, notTop, Bool.false_and]
    have isLayout : Decimal.jsonLayout.tie = .toEven := rfl
    rw [writeDouble, if_pos isFinite, ← spells.text, Decimal.Layout.write, notNaN]
    simp only [notInfinite, Bool.false_eq_true, if_false, isLayout]
    rw [String.toList_append]
    cases number.isNegative <;> rfl
  · rw [Numeral.takeNumber_text _ spells.toIsWellFormed _ ends,
      nearestNumber?_double isFinite spells]
    rfl

theorem isFinite_readDouble_of_ofInt {value : ℤ} (isFinite : (Double.ofInt value).isFinite = true)
    (isNegative : Bool) :
    (Decimal.readDouble isNegative (Nat.toDigits 10 value.natAbs) [] 0).isFinite = true := by
  have isBelow := Double.lt_of_isFinite_ofRatio Nat.one_pos isFinite
  rw [Decimal.readDouble, List.append_nil, FieldPath.digitsValue_toDigits, Decimal.toDouble]
  rw [Double.ofInt] at isFinite
  generalize value.natAbs = digits at *
  by_cases isZero : digits = 0
  · simp only [isZero, if_true]
    exact Double.isFinite_ofMagnitude isNegative (by decide)
  · have isSmall : digits < 10 ^ 310 := by
      rw [Nat.cast_one, div_one] at isBelow
      have isLess := isBelow.trans Decimal.two_pow_lt_ten_pow
      rw [zpow_ofNat] at isLess
      exact_mod_cast isLess
    have isShort := (Nat.length_toDigits_le_iff (by decide) (by decide)).mpr isSmall
    have notInfinite : ¬ 310 <
        ((Nat.toDigits 10 digits).length : ℤ) + (0 - (([] : List Char).length : ℤ)) := by
      simp only [List.length_nil]
      omega
    have notTiny :
        ¬ ((Nat.toDigits 10 digits).length : ℤ) + (0 - (([] : List Char).length : ℤ)) < -330 := by
      simp only [List.length_nil]
      omega
    simp only [isZero, notInfinite, notTiny, if_false]
    have otherSign :=
      Double.isFinite_ofRatio_congr isNegative (decide (value < 0)) digits Nat.one_pos
    simpa using otherSign.trans isFinite

/-- The same of an integer whose nearest double is finite. -/
theorem takeNumber_integer {value : ℤ} (isFinite : (Double.ofInt value).isFinite = true)
    {rest : List Char} (ends : EndsNumber rest) :
    ∃ digits, (toString value).toList = (if decide (value < 0) then ['-'] else []) ++ digits ∧
      StartsWithDigit digits ∧
      takeNumber nearestNumber? (decide (value < 0)) (digits ++ rest) =
        some (.integer value, rest) := by
  let numeral : Numeral := ⟨Nat.toDigits 10 value.natAbs, none, none⟩
  have isText : numeral.text = Nat.toDigits 10 value.natAbs := by
    simp [numeral, Numeral.text]
  have wellFormed : numeral.IsWellFormed := by
    refine ⟨FieldPath.toDigits_ne_nil _, fun _ => Text.isDigit_of_mem_toDigits, ?_, ?_, ?_⟩
    · by_cases isZero : value.natAbs = 0
      · left
        simp [numeral, isZero]
      · exact Or.inr (head?_toDigits_ne_zero (Nat.pos_of_ne_zero isZero))
    · simp [numeral]
    · simp [numeral]
  have readFinite := isFinite_readDouble_of_ofInt isFinite (decide (value < 0))
  have isValue : (if decide (value < 0) then -(value.natAbs : ℤ) else value.natAbs) = value := by
    by_cases isNegative : value < 0 <;> simp only [isNegative, decide_true, decide_false, if_true,
      Bool.false_eq_true, if_false] <;> omega
  have notNegativeZero : (decide (value < 0) && (value.natAbs : ℤ) == 0) = false := by
    rw [Bool.and_eq_false_iff, decide_eq_false_iff_not, beq_eq_false_iff_ne]
    omega
  refine ⟨numeral.text, ?_, numeral.startsWithDigit_text wellFormed, ?_⟩
  · rw [toList_toString, isText]
    simp only [decide_eq_true_eq]
  · rw [numeral.takeNumber_text _ wellFormed _ ends]
    simp only [numeral, nearestNumber?, Option.getD_none, readFinite,
      FieldPath.digitsValue_toDigits, notNegativeZero, isValue]
    rfl

end Json

end Unnest
