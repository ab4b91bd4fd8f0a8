import Unnest.FieldPath.Reader

/-!
# The text of field paths

A path is valid if reading could have produced it: it has segments, their names are not empty and
hold no dots or brackets, positions have thirty-two bits, and only the last segment names a
length.  What is read is valid, and a valid path is read back from its text, which therefore
determines it.
-/

namespace Unnest

/-- The segment has a name without dots and brackets, and its position is in range. -/
structure PathSegment.IsValid (segment : PathSegment) : Prop where
  named : segment.name.toList ≠ []
  plain : ∀ character ∈ segment.name.toList,
    character ≠ '.' ∧ character ≠ '[' ∧ character ≠ ']'
  bounded : ∀ position, segment.index = .entry position → position < FieldPath.positionBound

namespace FieldPath

/-- The path can be read from a text. -/
structure IsValid (path : FieldPath) : Prop where
  nonempty : path ≠ []
  segments : ∀ segment ∈ path, segment.IsValid
  lengthLast : ∀ segment ∈ path.dropLast, segment.index ≠ .length

end FieldPath

/-- The text of a concrete path. -/
def IsColumnName (name : String) : Prop :=
  ∃ path : FieldPath, path.IsValid ∧ path.IsConcrete ∧ path.toText = name

namespace FieldPath

/-! ## Parts -/

theorem splitParts_ne_nil (text : List Char) : splitParts text ≠ [] := by
  cases text with
  | nil => simp [splitParts]
  | cons character rest =>
      unfold splitParts
      cases splitParts rest with
      | nil => simp
      | cons part parts =>
          by_cases isDot : character = '.' <;> simp [isDot]

theorem splitParts_dot (rest : List Char) : splitParts ('.' :: rest) = [] :: splitParts rest := by
  rw [splitParts]
  cases shape : splitParts rest with
  | nil => exact absurd shape (splitParts_ne_nil rest)
  | cons part parts => rfl

theorem splitParts_append_dot {part : List Char} (noDot : '.' ∉ part) (rest : List Char) :
    splitParts (part ++ '.' :: rest) = part :: splitParts rest := by
  induction part with
  | nil => exact splitParts_dot rest
  | cons character others inductionHypothesis =>
      have isOther : character ≠ '.' := fun isDot => noDot (isDot ▸ List.mem_cons_self)
      have othersSplit := inductionHypothesis fun member => noDot (List.mem_cons_of_mem _ member)
      rw [List.cons_append, splitParts, othersSplit]
      simp [isOther]

theorem splitParts_of_noDot {part : List Char} (noDot : '.' ∉ part) :
    splitParts part = [part] := by
  induction part with
  | nil => rfl
  | cons character others inductionHypothesis =>
      have isOther : character ≠ '.' := fun isDot => noDot (isDot ▸ List.mem_cons_self)
      have othersSplit := inductionHypothesis fun member => noDot (List.mem_cons_of_mem _ member)
      rw [splitParts, othersSplit]
      simp [isOther]

theorem noDot_of_mem_splitParts (text : List Char) : ∀ part ∈ splitParts text, '.' ∉ part := by
  induction text with
  | nil => simp [splitParts]
  | cons character rest inductionHypothesis =>
      unfold splitParts
      cases shape : splitParts rest with
      | nil => exact absurd shape (splitParts_ne_nil rest)
      | cons part parts =>
          rw [shape] at inductionHypothesis
          have partNoDot := inductionHypothesis part List.mem_cons_self
          by_cases isDot : character = '.'
          · simpa [isDot] using inductionHypothesis
          · have notDot : ¬ '.' = character := fun same => isDot same.symm
            intro found member
            simp only [isDot, if_false, List.mem_cons] at member
            rcases member with rfl | isLater
            · simp [notDot, partNoDot]
            · exact inductionHypothesis found (List.mem_cons_of_mem _ isLater)

/-! ## Positions -/

theorem isDigit_eq (character : Char) : Text.isDigit character = character.isDigit := by
  rw [Bool.eq_iff_iff]
  simp [Text.isDigit, Char.isDigit, Char.le_def]

theorem digitsValue_toDigits (position : Nat) :
    Text.digitsValue (Nat.toDigits 10 position) = position := by
  rw [Text.digitsValue, ← Nat.ofDigitChars_eq_foldl]
  exact Nat.ofDigitChars_ten_toDigits

theorem isDigit_of_mem_toDigits {position : Nat} {character : Char}
    (member : character ∈ Nat.toDigits 10 position) : character.isDigit = true :=
  Nat.isDigit_of_mem_toDigits (by decide) (by decide) member

theorem toDigits_ne_nil (position : Nat) : Nat.toDigits 10 position ≠ [] :=
  List.length_pos_iff.mp Nat.length_toDigits_pos

theorem not_mem_toDigits (position : Nat) (character : Char)
    (notDigit : character.isDigit = false) : character ∉ Nat.toDigits 10 position := by
  intro member
  rw [isDigit_of_mem_toDigits member] at notDigit
  cases notDigit

theorem readPosition?_toDigits {position : Nat} (bound : position < positionBound) :
    readPosition? (Nat.toDigits 10 position) = some position := by
  have allDigits : (Nat.toDigits 10 position).all Text.isDigit = true := by
    rw [List.all_eq_true]
    intro character member
    rw [isDigit_eq]
    exact isDigit_of_mem_toDigits member
  have value := digitsValue_toDigits position
  have noSign : '+' ∉ Nat.toDigits 10 position := not_mem_toDigits position '+' rfl
  rw [readPosition?]
  cases shape : Nat.toDigits 10 position with
  | nil => exact absurd shape (toDigits_ne_nil position)
  | cons first others =>
      have notSign : first ≠ '+' := fun isSign => noSign (shape ▸ isSign ▸ List.mem_cons_self)
      rw [shape] at allDigits value
      rw [Text.readBelow?.eq_def]
      split
      · rename_i rest same
        exact absurd (List.cons.inj same).1 notSign
      · simp [allDigits, value, bound]

theorem lt_of_readPosition? {text : List Char} {position : Nat}
    (isRead : readPosition? text = some position) : position < positionBound := by
  rw [readPosition?, Text.readBelow?.eq_def] at isRead
  simp only [Option.ite_none_right_eq_some, Option.some.injEq] at isRead
  obtain ⟨⟨_, _, below⟩, same⟩ := isRead
  exact same ▸ below

/-! ## Segments -/

/-- The text of an index, between its brackets. -/
def indexText : PathIndex → List Char
  | .none => []
  | .all => ['*']
  | .entry position => Nat.toDigits 10 position
  | .length => ['l', 'e', 'n', 'g', 't', 'h']

theorem toList_toText_index {index : PathIndex} (notNone : index ≠ .none) :
    index.toText.toList = '[' :: (indexText index ++ [']']) := by
  cases index with
  | none => exact absurd rfl notNone
  | all => rfl
  | entry position =>
      simp only [PathIndex.toText, indexText, String.toList_append, Nat.toString_eq_repr,
        Nat.toList_repr]
      rfl
  | length => rfl

theorem readIndex?_indexText {index : PathIndex} (notNone : index ≠ .none)
    (bounded : ∀ position, index = .entry position → position < positionBound) :
    readIndex? (indexText index) = some index := by
  cases index with
  | none => exact absurd rfl notNone
  | all => rfl
  | entry position =>
      have notStar : Nat.toDigits 10 position ≠ ['*'] := fun same =>
        not_mem_toDigits position '*' rfl (same ▸ by simp)
      have notLength : Nat.toDigits 10 position ≠ ['l', 'e', 'n', 'g', 't', 'h'] := fun same =>
        not_mem_toDigits position 'l' rfl (same ▸ by simp)
      rw [readIndex?, indexText, if_neg notStar, if_neg notLength,
        readPosition?_toDigits (bounded position rfl)]
      rfl
  | length => rfl

theorem readSuffix_toText {index : PathIndex}
    (bounded : ∀ position, index = .entry position → position < positionBound) :
    readSuffix index.toText.toList = .ok index := by
  by_cases isNone : index = .none
  · subst isNone
    rfl
  · rw [toList_toText_index isNone, readSuffix, List.getLast?_append, List.dropLast_concat,
      readIndex?_indexText isNone bounded]
    simp

theorem readIndex?_bounded {text : List Char} {index : PathIndex}
    (isRead : readIndex? text = some index) (position : Nat) (isEntry : index = .entry position) :
    position < positionBound := by
  subst isEntry
  unfold readIndex? at isRead
  split at isRead
  · cases isRead
  · split at isRead
    · cases isRead
    · obtain ⟨found, isFound, same⟩ := Option.map_eq_some_iff.mp isRead
      cases same
      exact lt_of_readPosition? isFound

theorem readSuffix_bounded {text : List Char} {index : PathIndex}
    (isRead : readSuffix text = .ok index) (position : Nat) (isEntry : index = .entry position) :
    position < positionBound := by
  unfold readSuffix at isRead
  split at isRead
  · cases isRead
    cases isEntry
  · split at isRead
    · split at isRead
      · rename_i found isFound
        cases isRead
        exact readIndex?_bounded isFound position isEntry
      · cases isRead
    · cases isRead

theorem toText_index_head (index : PathIndex) :
    index.toText.toList = [] ∨ ∃ inner, index.toText.toList = '[' :: inner := by
  by_cases isNone : index = .none
  · subst isNone
    exact Or.inl rfl
  · exact Or.inr ⟨_, toList_toText_index isNone⟩

/-- A valid segment is read back from its text. -/
theorem readSegment_toText {segment : PathSegment} (valid : segment.IsValid) :
    readSegment segment.toText.toList = .ok segment := by
  obtain ⟨name, index⟩ := segment
  have noBracket : ∀ character ∈ name.toList, decide (character ≠ '[') = true := by
    intro character member
    simpa using (valid.plain character member).2.1
  have suffixEmpty : index.toText.toList.takeWhile (· ≠ '[') = [] ∧
      index.toText.toList.dropWhile (· ≠ '[') = index.toText.toList := by
    rcases toText_index_head index with isEmpty | ⟨inner, isOpen⟩
    · simp [isEmpty]
    · simp [isOpen]
  have isName : (name.toList ++ index.toText.toList).takeWhile (· ≠ '[') = name.toList := by
    rw [List.takeWhile_append_of_pos noBracket, suffixEmpty.1, List.append_nil]
  have isSuffix :
      (name.toList ++ index.toText.toList).dropWhile (· ≠ '[') = index.toText.toList := by
    rw [List.dropWhile_append_of_pos noBracket, suffixEmpty.2]
  have noClosing : ']' ∉ name.toList := fun member => (valid.plain ']' member).2.2 rfl
  rw [PathSegment.toText, String.toList_append, readSegment]
  simp only [isName, isSuffix, readSuffix_toText valid.bounded, valid.named, noClosing, if_false,
    String.ofList_toList]

theorem isValid_of_readSegment {part : List Char} (noDot : '.' ∉ part) {segment : PathSegment}
    (isRead : readSegment part = .ok segment) : segment.IsValid := by
  unfold readSegment at isRead
  simp only at isRead
  split at isRead
  · cases isRead
  rename_i index isIndex
  split at isRead
  · cases isRead
  rename_i notEmpty
  split at isRead
  · cases isRead
  rename_i noClosing
  cases isRead
  refine ⟨by simpa using notEmpty, ?_, readSuffix_bounded isIndex⟩
  intro character member
  rw [String.toList_ofList] at member
  refine ⟨?_, ?_, ?_⟩
  · intro isDot
    exact noDot (isDot ▸ (List.takeWhile_sublist _).mem member)
  · simpa using List.all_eq_true.mp List.all_takeWhile character member
  · intro isClosing
    exact noClosing (isClosing ▸ member)

theorem noDot_toText {segment : PathSegment} (valid : segment.IsValid) :
    '.' ∉ segment.toText.toList := by
  rw [PathSegment.toText, String.toList_append, List.mem_append]
  rintro (inName | inIndex)
  · exact (valid.plain '.' inName).1 rfl
  · cases shape : segment.index with
    | none => simp [shape, PathIndex.toText] at inIndex
    | all => simp [shape, PathIndex.toText] at inIndex
    | entry position =>
        rw [shape, toList_toText_index (by simp), indexText] at inIndex
        have notDigit := not_mem_toDigits position '.' rfl
        simp [notDigit] at inIndex
    | length => simp [shape, PathIndex.toText] at inIndex

/-! ## Paths -/

theorem splitParts_toText {path : FieldPath} (nonempty : path ≠ [])
    (segments : ∀ segment ∈ path, segment.IsValid) :
    splitParts path.toText.toList = path.map fun segment => segment.toText.toList := by
  induction path with
  | nil => exact absurd rfl nonempty
  | cons segment rest inductionHypothesis =>
      have noDot := noDot_toText (segments segment List.mem_cons_self)
      cases rest with
      | nil => exact splitParts_of_noDot noDot
      | cons next others =>
          have restParts := inductionHypothesis (by simp)
            fun other member => segments other (List.mem_cons_of_mem _ member)
          have dot : (".").toList = ['.'] := rfl
          rw [toText, String.toList_append, String.toList_append, dot, List.append_assoc,
            List.singleton_append, splitParts_append_dot noDot, restParts]
          rfl

theorem readSegments_toText {path : FieldPath} (segments : ∀ segment ∈ path, segment.IsValid) :
    readSegments (path.map fun segment => segment.toText.toList) = .ok path := by
  induction path with
  | nil => rfl
  | cons segment rest inductionHypothesis =>
      have segmentRead := readSegment_toText (segments segment List.mem_cons_self)
      have restRead := inductionHypothesis
        fun other member => segments other (List.mem_cons_of_mem _ member)
      simp only [List.map_cons, readSegments, segmentRead, restRead]

theorem toText_ne_empty {path : FieldPath} (valid : path.IsValid) : path.toText ≠ "" := by
  intro isEmpty
  have parts := splitParts_toText valid.nonempty valid.segments
  rw [isEmpty] at parts
  obtain ⟨segment, rest, rfl⟩ := List.exists_cons_of_ne_nil valid.nonempty
  have firstPart := congrArg List.head? parts
  have noName := (valid.segments segment List.mem_cons_self).named
  simp only [splitParts, String.toList_empty, List.head?_cons, List.map_cons, Option.some.injEq,
    PathSegment.toText, String.toList_append] at firstPart
  exact noName (List.append_eq_nil_iff.mp firstPart.symm).1

/-- A valid path is read back from its text. -/
theorem read_toText {path : FieldPath} (valid : path.IsValid) : read path.toText = .ok path := by
  have notEmpty : path.toText.isEmpty = false := by
    rw [Bool.eq_false_iff, ne_eq, String.isEmpty_iff]
    exact toText_ne_empty valid
  have lengthLast : (path.dropLast.any fun segment => segment.index == .length) = false := by
    rw [List.any_eq_false]
    intro segment member
    simpa using valid.lengthLast segment member
  simp [read, notEmpty, splitParts_toText valid.nonempty valid.segments,
    readSegments_toText valid.segments, lengthLast]

theorem parse_toText {path : FieldPath} (valid : path.IsValid) :
    parse path.toText = .ok path := by
  rw [parse, read_toText valid]

/-- The text of a valid path determines it. -/
theorem toText_injective {left right : FieldPath} (leftValid : left.IsValid)
    (rightValid : right.IsValid) (same : left.toText = right.toText) : left = right := by
  have leftRead := read_toText leftValid
  rw [same, read_toText rightValid] at leftRead
  exact (Except.ok.inj leftRead).symm

theorem isValid_of_readSegments {parts : List (List Char)} {path : FieldPath}
    (noDots : ∀ part ∈ parts, '.' ∉ part) (isRead : readSegments parts = .ok path) :
    path.length = parts.length ∧ ∀ segment ∈ path, segment.IsValid := by
  induction parts generalizing path with
  | nil =>
      cases isRead
      simp
  | cons part rest inductionHypothesis =>
      unfold readSegments at isRead
      split at isRead
      · cases isRead
      rename_i segment segmentRead
      split at isRead
      · cases isRead
      rename_i segments segmentsRead
      cases isRead
      obtain ⟨sameLength, restValid⟩ := inductionHypothesis
        (fun other member => noDots other (List.mem_cons_of_mem _ member)) segmentsRead
      refine ⟨by simp [sameLength], ?_⟩
      intro found member
      rcases List.mem_cons.mp member with rfl | inRest
      · exact isValid_of_readSegment (noDots part List.mem_cons_self) segmentRead
      · exact restValid found inRest

/-- What is read is valid. -/
theorem isValid_of_read {text : String} {path : FieldPath} (isRead : read text = .ok path) :
    path.IsValid := by
  unfold read at isRead
  split at isRead
  · cases isRead
  split at isRead
  · cases isRead
  rename_i segments segmentsRead
  split at isRead
  · cases isRead
  rename_i lengthLast
  cases isRead
  obtain ⟨sameLength, segmentsValid⟩ :=
    isValid_of_readSegments (noDot_of_mem_splitParts text.toList) segmentsRead
  refine ⟨?_, segmentsValid, ?_⟩
  · intro isEmpty
    rw [isEmpty, List.length_nil] at sameLength
    exact splitParts_ne_nil _ (List.length_eq_zero_iff.mp sameLength.symm)
  · intro segment member isLength
    apply lengthLast
    rw [List.any_eq_true]
    exact ⟨segment, member, by simp [isLength]⟩

end FieldPath

/-- A column name is the text of the concrete path that is read from it. -/
theorem isColumnName_iff (name : String) :
    IsColumnName name ↔
      (FieldPath.read name).toOption.any (fun path =>
        path.all (fun segment => segment.index != .all) && path.toText == name) = true := by
  constructor
  · rintro ⟨path, valid, isConcrete, rfl⟩
    rw [FieldPath.read_toText valid]
    simpa [Except.toOption, FieldPath.IsConcrete] using isConcrete
  · intro isCanonical
    cases isRead : FieldPath.read name with
    | error fault => simp [isRead, Except.toOption] at isCanonical
    | ok path =>
        simp only [isRead, Except.toOption, Option.any_some, Bool.and_eq_true, List.all_eq_true,
          bne_iff_ne, beq_iff_eq] at isCanonical
        exact ⟨path, FieldPath.isValid_of_read isRead, isCanonical.1, isCanonical.2⟩

instance : DecidablePred IsColumnName := fun name => decidable_of_iff' _ (isColumnName_iff name)

end Unnest
