import Unnest.Proofs.FieldPathGrammar

/-!
# Indices with a plus sign or leading zeros

A path has one text without superfluous signs and zeros, which is the text that is made of it.
Reading accepts others too: a plus sign, or zeros, in front of the digits of an index.  These are
the only ones, so a text that is accepted is the text of its path exactly if no index of it is
padded, and two such texts with the same path are the same.
-/

namespace Unnest

/-! ## Digits -/

theorem digitChar_sub_of_isDigit {digit : Char} (isDigit : digit.isDigit = true) :
    digit.toNat - '0'.toNat < 10 ∧ Nat.digitChar (digit.toNat - '0'.toNat) = digit := by
  have zero : '0'.toNat = 48 := rfl
  have bounds : 48 ≤ digit.toNat ∧ digit.toNat ≤ 57 := by
    simpa [Char.isDigit, UInt32.le_iff_toNat_le] using isDigit
  have small : digit.toNat - '0'.toNat < 10 := by omega
  refine ⟨small, Char.toNat_inj.mp ?_⟩
  rw [Nat.toNat_digitChar_of_lt_ten small]
  omega

/-- Digits behind a positive number continue its text. -/
theorem toDigits_append_digits {digits : List Char}
    (allDigits : ∀ character ∈ digits, character.isDigit = true) {number : Nat}
    (positive : 0 < number) :
    Nat.toDigits 10 number ++ digits = Nat.toDigits 10 (Nat.ofDigitChars 10 digits number) := by
  induction digits generalizing number with
  | nil => simp
  | cons digit rest inductionHypothesis =>
      rcases List.forall_mem_cons.mp allDigits with ⟨isDigit, restDigits⟩
      rcases digitChar_sub_of_isDigit isDigit with ⟨small, sameDigit⟩
      have nextPositive : 0 < 10 * number + (digit.toNat - '0'.toNat) := by omega
      have nextDigits := Nat.toDigits_append_toDigits (by decide : 1 < 10) positive small
      rw [Nat.toDigits_of_lt_base small, sameDigit] at nextDigits
      rw [Nat.ofDigitChars_cons, ← inductionHypothesis restDigits nextPositive, ← nextDigits,
        List.append_assoc, List.singleton_append]

theorem head?_toDigits_ne_zero {number : Nat} (positive : 0 < number) :
    (Nat.toDigits 10 number).head? ≠ some '0' := by
  induction number using Nat.strongRecOn with
  | ind number inductionHypothesis =>
      rw [Nat.toDigits_eq_if (by decide)]
      split
      · rename_i small
        intro isZero
        have sameNumber := congrArg Char.toNat (Option.some.inj isZero)
        rw [Nat.toNat_digitChar_of_lt_ten small] at sameNumber
        have zero : '0'.toNat = 48 := rfl
        omega
      · have isHead := inductionHypothesis (number / 10) (by omega) (by omega)
        rwa [List.head?_append_of_ne_nil _ (FieldPath.toDigits_ne_nil _)]

/-- Digits are the text of their number, unless a zero stands in front of other digits. -/
theorem toDigits_ofDigitChars_iff {first : Char} {rest : List Char}
    (allDigits : ∀ character ∈ first :: rest, character.isDigit = true) :
    Nat.toDigits 10 (Nat.ofDigitChars 10 (first :: rest) 0) = first :: rest ↔
      ¬ (first = '0' ∧ rest ≠ []) := by
  rcases List.forall_mem_cons.mp allDigits with ⟨isDigit, restDigits⟩
  rcases digitChar_sub_of_isDigit isDigit with ⟨small, sameDigit⟩
  rw [Nat.ofDigitChars_cons, Nat.mul_zero, Nat.zero_add]
  by_cases isZero : first = '0'
  · cases rest with
    | nil => simp [isZero]
    | cons next others =>
        refine iff_of_false ?_ (by simp [isZero])
        intro same
        rcases Nat.eq_zero_or_pos (Nat.ofDigitChars 10 (next :: others) (first.toNat - '0'.toNat))
          with noValue | positive
        · rw [noValue] at same
          simp at same
        · apply head?_toDigits_ne_zero positive
          rw [same, isZero]
          rfl
  · have positive : 0 < first.toNat - '0'.toNat := by
      rcases Nat.eq_zero_or_pos (first.toNat - '0'.toNat) with noValue | positive
      · rw [noValue] at sameDigit
        exact absurd sameDigit.symm isZero
      · exact positive
    rw [← toDigits_append_digits restDigits positive, Nat.toDigits_of_lt_base small, sameDigit]
    simp [isZero]

namespace FieldPath

/-! ## Texts -/

/-- What opens an index is followed by a plus sign, or by a zero in front of another digit. -/
def opensPadded : List Char → Bool
  | '[' :: '+' :: _ => true
  | '[' :: '0' :: next :: _ => next.isDigit
  | _ => false

/-- Some part of the text has a padded index. -/
def IsPadded (text : String) : Prop :=
  ∃ part ∈ splitParts text.toList, opensPadded (part.dropWhile (· ≠ '[')) = true

instance (text : String) : Decidable (IsPadded text) :=
  inferInstanceAs (Decidable (∃ part ∈ splitParts text.toList, _))

theorem opensPadded_digits_iff {first : Char} {rest : List Char}
    (allDigits : ∀ character ∈ first :: rest, character.isDigit = true) :
    opensPadded ('[' :: (first :: rest ++ [']'])) = true ↔ first = '0' ∧ rest ≠ [] := by
  have notPlus : first ≠ '+' := by
    intro isPlus
    have isDigit := allDigits first List.mem_cons_self
    rw [isPlus] at isDigit
    cases isDigit
  by_cases isZero : first = '0'
  · cases rest with
    | nil => simp [isZero, opensPadded, show (']').isDigit = false from rfl]
    | cons next others =>
        have nextDigit := allDigits next (by simp)
        simp [isZero, opensPadded, nextDigit]
  · simp [opensPadded, isZero, notPlus]

/-- An index is spelled as it is written, unless it is padded. -/
theorem eq_toText_index_iff {index : PathIndex} {suffix : List Char}
    (spelled : index.IsSpelledBy suffix) :
    suffix = index.toText.toList ↔ ¬ opensPadded suffix = true := by
  cases spelled with
  | none => simp [PathIndex.toText, opensPadded]
  | all => exact iff_of_true rfl (by decide)
  | length => exact iff_of_true rfl (by decide)
  | @entry sign digits signed someDigit allDigits below =>
      rw [toList_toText_index (by simp), indexText, List.cons.injEq,
        List.append_left_inj, and_iff_right rfl]
      rcases List.exists_cons_of_ne_nil someDigit with ⟨first, rest, shape⟩
      rw [shape] at allDigits ⊢
      rcases signed with isNone | isPlus
      · rw [isNone, List.nil_append, eq_comm, toDigits_ofDigitChars_iff allDigits,
          opensPadded_digits_iff allDigits]
      · refine iff_of_false ?_ (by simp [isPlus, opensPadded])
        intro same
        have member : '+' ∈ sign ++ first :: rest := by simp [isPlus]
        rw [same] at member
        cases isDigit_of_mem_toDigits member

theorem eq_toText_segment_iff {segment : PathSegment} {part : List Char}
    (spelled : segment.IsSpelledBy part) :
    part = segment.toText.toList ↔ ¬ opensPadded (part.dropWhile (· ≠ '[')) = true := by
  rcases spelled.indexed with ⟨suffix, shape, isIndex⟩
  have notOpen : ∀ character ∈ segment.name.toList, decide (character ≠ '[') = true := by
    intro character member
    simpa using (spelled.plain character member).2.1
  have isSuffix : part.dropWhile (· ≠ '[') = suffix := by
    rw [shape, List.dropWhile_append_of_pos notOpen]
    rcases shape_of_isSpelledBy isIndex with isEmpty | ⟨inner, isOpen⟩
    · simp [isEmpty]
    · simp [isOpen]
  rw [isSuffix, ← eq_toText_index_iff isIndex, shape, PathSegment.toText, String.toList_append,
    List.append_cancel_left_eq]

theorem eq_map_toText_iff {path : FieldPath} {parts : List (List Char)}
    (spelled : List.Forall₂ PathSegment.IsSpelledBy path parts) :
    (path.map fun segment => segment.toText.toList) = parts ↔
      ¬ ∃ part ∈ parts, opensPadded (part.dropWhile (· ≠ '[')) = true := by
  induction spelled with
  | nil => simp
  | @cons segment part segments rest isFirst _ inductionHypothesis =>
      rw [List.map_cons, List.cons.injEq, eq_comm, eq_toText_segment_iff isFirst,
        inductionHypothesis, ← not_or]
      simp only [List.mem_cons, exists_eq_or_imp]

theorem read_of_parse {text : String} {path : FieldPath} (isParsed : parse text = .ok path) :
    read text = .ok path :=
  (read_eq_ok_iff text path).mpr ((parse_eq_ok_iff text path).mp isParsed)

/-- A text that is accepted is the text of its path exactly if no index of it is padded. -/
theorem toText_eq_iff {text : String} {path : FieldPath} (isRead : read text = .ok path) :
    path.toText = text ↔ ¬ IsPadded text := by
  have valid := isValid_of_read isRead
  rcases ((read_eq_ok_iff text path).mp isRead).parts with ⟨parts, isText, areSpelled⟩
  have areParts := (splitParts_of_isSpelledBy valid.nonempty isText areSpelled).1
  rw [IsPadded, areParts, ← eq_map_toText_iff areSpelled,
    ← splitParts_toText valid.nonempty valid.segments]
  constructor
  · intro sameText
    rw [sameText, areParts]
  · intro sameParts
    rw [← String.toList_inj, isText, ← sameParts, splitParts_eq_splitOn, List.intercalate_splitOn]

/-- The text of a valid path is not padded. -/
theorem not_isPadded_toText {path : FieldPath} (valid : path.IsValid) : ¬ IsPadded path.toText :=
  (toText_eq_iff (read_toText valid)).mp rfl

end FieldPath

end Unnest
