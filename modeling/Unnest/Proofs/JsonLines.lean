import Unnest.CommandLine.Lines
import Unnest.Json
import Unnest.Proofs.FieldPathText

/-!
# JSON on lines

A JSON text has no control characters, as those inside of texts are escaped.  So texts that are
followed by line feeds are the lines of what they are joined to (`CommandLine.linesOf_join`).
-/

namespace Unnest

/-! ## Lines -/

/-- The characters are no control characters. -/
def AreVisible (characters : List Char) : Prop :=
  ∀ character ∈ characters, 0x20 ≤ character.toNat

instance (characters : List Char) : Decidable (AreVisible characters) :=
  List.decidableBAll (fun character : Char => 0x20 ≤ character.toNat) characters

/-- The text has no control characters, so no line ends inside of it. -/
def IsOneLine (text : String) : Prop :=
  AreVisible text.toList

instance (text : String) : Decidable (IsOneLine text) :=
  inferInstanceAs (Decidable (AreVisible _))

@[simp]
theorem isOneLine_append (left right : String) :
    IsOneLine (left ++ right) ↔ IsOneLine left ∧ IsOneLine right := by
  rw [IsOneLine, String.toList_append]
  exact List.forall_mem_append

@[simp]
theorem isOneLine_ofList (characters : List Char) :
    IsOneLine (String.ofList characters) ↔ AreVisible characters := by
  rw [IsOneLine, String.toList_ofList]

namespace CommandLine

theorem linesOf_append {line : List Char} (areVisible : AreVisible line) (rest : List Char) :
    linesOf (line ++ '\n' :: rest) = line :: linesOf rest := by
  induction line with
  | nil => rw [List.nil_append, linesOf]
  | cons character others inductionHypothesis =>
      rcases List.forall_mem_cons.mp areVisible with ⟨isVisible, othersVisible⟩
      rw [List.cons_append, linesOf, inductionHypothesis othersVisible]
      · intro isLineFeed
        rw [isLineFeed] at isVisible
        exact absurd isVisible (by decide)
      · intro _ isReturn
        rw [isReturn] at isVisible
        exact absurd isVisible (by decide)

theorem linesOf_join {lines : List String} (areLines : ∀ line ∈ lines, IsOneLine line) :
    linesOf (String.join (lines.map fun line => line ++ "\n")).toList =
      lines.map String.toList := by
  induction lines with
  | nil => rfl
  | cons line rest inductionHypothesis =>
      rcases List.forall_mem_cons.mp areLines with ⟨isFirst, areOthers⟩
      rw [List.map_cons, String.join_cons, String.toList_append, String.toList_append,
        List.append_assoc]
      exact (linesOf_append isFirst _).trans
        (congrArg (line.toList :: ·) (inductionHypothesis areOthers))

end CommandLine

/-! ## Numbers -/

theorem areVisible_toDigits (number : Nat) : AreVisible (Nat.toDigits 10 number) := by
  intro character member
  have isDigit := FieldPath.isDigit_of_mem_toDigits member
  rw [Char.isDigit, Bool.and_eq_true, decide_eq_true_eq] at isDigit
  exact Nat.le_trans (by decide) isDigit.1

theorem toList_toString (number : Int) :
    (toString number).toList =
      (if number < 0 then ['-'] else []) ++ Nat.toDigits 10 number.natAbs := by
  rw [Int.toString_eq_repr]
  cases number with
  | ofNat count =>
      have notNegative : ¬ Int.ofNat count < 0 := Int.not_lt.mpr (Int.natCast_nonneg count)
      rw [if_neg notNegative]
      exact Nat.toList_repr
  | negSucc count =>
      rw [if_pos (Int.negSucc_lt_zero count)]
      exact String.toList_append.trans (congrArg ('-' :: ·) Nat.toList_repr)

theorem isOneLine_toString (number : Int) : IsOneLine (toString number) := by
  have sign : AreVisible (if number < 0 then ['-'] else []) := by
    split <;> decide
  rw [IsOneLine, toList_toString]
  exact List.forall_mem_append.mpr ⟨sign, areVisible_toDigits _⟩

namespace Decimal

theorem isOneLine_zeros (count : Nat) : IsOneLine (zeros count) := by
  rw [zeros, isOneLine_ofList]
  intro character member
  rw [List.eq_of_mem_replicate member]
  decide

theorem isOneLine_placeDigits (layout : Layout) (decimal : Decimal) :
    IsOneLine (layout.placeDigits decimal) := by
  have digits := areVisible_toDigits decimal.digits
  have taken (count : Nat) : AreVisible ((Nat.toDigits 10 decimal.digits).take count) :=
    fun character member => digits character (List.mem_of_mem_take member)
  have dropped (count : Nat) : AreVisible ((Nat.toDigits 10 decimal.digits).drop count) :=
    fun character member => digits character (List.mem_of_mem_drop member)
  rw [Layout.placeDigits]
  split
  · split
    · simp only [isOneLine_append, isOneLine_ofList]
      refine ⟨⟨digits, isOneLine_zeros _⟩, ?_⟩
      split <;> decide
    · split
      · simp only [isOneLine_append, isOneLine_ofList]
        exact ⟨⟨taken _, by decide⟩, dropped _⟩
      · simp only [isOneLine_append, isOneLine_ofList]
        exact ⟨⟨by decide, isOneLine_zeros _⟩, digits⟩
  · have plus : IsOneLine (if 0 ≤ ((Nat.toDigits 10 decimal.digits).length : Int) - 1 +
        decimal.exponent && layout.marksPlus then "+" else "") := by
      split <;> decide
    have point : IsOneLine "." := by decide
    have mark : IsOneLine "e" := by decide
    have behind := dropped 1
    cases isDropped : (Nat.toDigits 10 decimal.digits).drop 1 with
    | nil =>
        simp only [isOneLine_append, isOneLine_ofList]
        exact ⟨⟨⟨⟨taken 1, by decide⟩, mark⟩, plus⟩, isOneLine_toString _⟩
    | cons digit rest =>
        rw [isDropped] at behind
        simp only [isOneLine_append, isOneLine_ofList]
        exact ⟨⟨⟨⟨taken 1, point, behind⟩, mark⟩, plus⟩, isOneLine_toString _⟩

theorem isOneLine_write (layout : Layout) (number : Double) : IsOneLine (layout.write number) := by
  have digits := isOneLine_placeDigits layout (shortest layout.tie number)
  have sign : IsOneLine (if number.isNegative then "-" else "") := by
    split <;> decide
  have infinite : IsOneLine "inf" := by decide
  have nan : IsOneLine "NaN" := by decide
  by_cases isNaN : number.isNaN
  · rw [Layout.write, if_pos isNaN]
    exact nan
  · rw [Layout.write, if_neg isNaN]
    generalize (if number.isNegative then "-" else "") = mark at sign
    by_cases isInfinite : number.isInfinite
    · simp only [isInfinite, if_true, isOneLine_append]
      exact ⟨sign, infinite⟩
    · simp only [isInfinite, if_false, isOneLine_append, Bool.false_eq_true]
      exact ⟨sign, digits⟩

end Decimal

/-! ## Values -/

namespace Json

theorem isVisible_hexDigit {value : Nat} (isSmall : value < 16) :
    0x20 ≤ (hexDigit value).toNat := by
  decide +revert

theorem areVisible_escapeCharacter (character : Char) :
    AreVisible (escapeCharacter character) := by
  rw [escapeCharacter.eq_def]
  split
  case h_8 =>
    split
    · have high := isVisible_hexDigit (by omega : character.toNat / 16 < 16)
      have low := isVisible_hexDigit (by omega : character.toNat % 16 < 16)
      simp [AreVisible, high, low]
    · rename_i notControl
      exact List.forall_mem_singleton.mpr (Nat.not_lt.mp notControl)
  all_goals decide

theorem isOneLine_quote (content : String) : IsOneLine (quote content) := by
  have inside : IsOneLine (String.ofList (content.toList.flatMap escapeCharacter)) := by
    rw [isOneLine_ofList]
    intro shown member
    rcases List.mem_flatMap.mp member with ⟨character, _, isInside⟩
    exact areVisible_escapeCharacter character shown isInside
  have mark : IsOneLine "\"" := by decide
  simp only [quote, isOneLine_append]
  exact ⟨⟨mark, inside⟩, mark⟩

mutual

theorem isOneLine_write (value : Json) : IsOneLine value.write := by
  cases value with
  | null => decide
  | bool value => cases value <;> decide
  | integer value => exact isOneLine_toString value
  | double number =>
      rw [write, writeDouble]
      split
      · exact Decimal.isOneLine_write _ number
      · decide
  | text content => exact isOneLine_quote content
  | array items =>
      simp only [write, isOneLine_append]
      exact ⟨⟨by decide, isOneLine_writeItems items⟩, by decide⟩
  | object fields =>
      simp only [write, isOneLine_append]
      exact ⟨⟨by decide, isOneLine_writeFields fields⟩, by decide⟩

theorem isOneLine_writeItems (items : List Json) : IsOneLine (writeItems items) := by
  match items with
  | [] => decide
  | [item] => exact isOneLine_write item
  | item :: next :: rest =>
      simp only [writeItems, isOneLine_append]
      exact ⟨⟨isOneLine_write item, by decide⟩, isOneLine_writeItems (next :: rest)⟩

theorem isOneLine_writeFields (fields : List (String × Json)) : IsOneLine (writeFields fields) := by
  match fields with
  | [] => decide
  | [(name, value)] =>
      simp only [writeFields, isOneLine_append]
      exact ⟨⟨isOneLine_quote name, by decide⟩, isOneLine_write value⟩
  | (name, value) :: next :: rest =>
      simp only [writeFields, isOneLine_append]
      exact ⟨⟨⟨⟨isOneLine_quote name, by decide⟩, isOneLine_write value⟩, by decide⟩,
        isOneLine_writeFields (next :: rest)⟩

end

end Json

end Unnest
