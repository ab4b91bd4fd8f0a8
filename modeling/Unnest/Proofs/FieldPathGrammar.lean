import Mathlib.Algebra.Group.Nat.Defs
import Mathlib.Data.List.Forall2
import Unnest.Proofs.FieldPathText

/-!
# The grammar of field paths

A path is spelled as parts between dots, one for each segment.  A part is the name of its segment,
which is not empty and holds no dots or brackets, followed by the index: nothing, or a star, the
word `length` or a number below `2 ^ 32` in brackets, where the number may have a plus sign and
leading zeros.  A length ends the path.

Reading accepts exactly the texts that spell a path, and gives the path that they spell.  The text
of a valid path is one of its spellings, so reading gives the path back.
-/

namespace Unnest

/-! ## Spellings -/

/-- The index is spelled by what follows the name in a part. -/
inductive PathIndex.IsSpelledBy : PathIndex → List Char → Prop where
  | none : IsSpelledBy .none []
  | all : IsSpelledBy .all ['[', '*', ']']
  | length : IsSpelledBy .length ['[', 'l', 'e', 'n', 'g', 't', 'h', ']']
  | entry {sign digits : List Char} (signed : sign = [] ∨ sign = ['+']) (someDigit : digits ≠ [])
      (allDigits : ∀ character ∈ digits, character.isDigit = true)
      (below : Nat.ofDigitChars 10 digits 0 < 2 ^ 32) :
      IsSpelledBy (.entry (Nat.ofDigitChars 10 digits 0)) ('[' :: (sign ++ digits ++ [']']))

/-- The segment is spelled by a part: its name, and then its index. -/
structure PathSegment.IsSpelledBy (segment : PathSegment) (part : List Char) : Prop where
  named : segment.name.toList ≠ []
  plain : ∀ character ∈ segment.name.toList,
    character ≠ '.' ∧ character ≠ '[' ∧ character ≠ ']'
  indexed : ∃ suffix, part = segment.name.toList ++ suffix ∧ segment.index.IsSpelledBy suffix

/-- The path is spelled by a text: one part for each segment, with dots between them. -/
structure FieldPath.IsSpelledBy (path : FieldPath) (text : String) : Prop where
  nonempty : path ≠ []
  parts : ∃ parts, text.toList = ['.'].intercalate parts ∧
    List.Forall₂ PathSegment.IsSpelledBy path parts
  lengthLast : ∀ segment ∈ path.dropLast, segment.index ≠ .length

namespace FieldPath

/-! ## Indices -/

/-- Digits are read with a plus sign before them or without. -/
theorem readPosition?_append {sign digits : List Char} (signed : sign = [] ∨ sign = ['+'])
    (noSign : sign = [] → ∀ others, digits ≠ '+' :: others) :
    readPosition? (sign ++ digits) =
      if digits ≠ [] ∧ digits.all Char.isDigit = true ∧ Nat.ofDigitChars 10 digits 0 < 2 ^ 32 then
        some (Nat.ofDigitChars 10 digits 0)
      else none := by
  have sameValue : Text.digitsValue digits = Nat.ofDigitChars 10 digits 0 :=
    Nat.ofDigitChars_eq_foldl.symm
  have sameDigits : Text.isDigit = Char.isDigit := funext isDigit_eq
  have bound : positionBound = 2 ^ 32 := rfl
  have readUnsigned (found : List Char) (isUnsigned : found = digits) :
      (if found ≠ [] ∧ found.all Text.isDigit = true ∧ Text.digitsValue found < positionBound
        then some (Text.digitsValue found) else none) =
      if digits ≠ [] ∧ digits.all Char.isDigit = true ∧ Nat.ofDigitChars 10 digits 0 < 2 ^ 32 then
        some (Nat.ofDigitChars 10 digits 0)
      else none := by
    simp only [isUnsigned, sameDigits, sameValue, bound]
  rw [readPosition?, Text.readBelow?.eq_def]
  apply readUnsigned
  rcases signed with isNone | isPlus
  · rw [isNone, List.nil_append]
    split
    · rename_i others
      exact absurd rfl (noSign isNone others)
    · rfl
  · rw [isPlus]
    rfl

theorem readPosition?_eq_some_iff (text : List Char) (position : Nat) :
    readPosition? text = some position ↔
      ∃ sign digits, (sign = [] ∨ sign = ['+']) ∧ text = sign ++ digits ∧ digits ≠ [] ∧
        (∀ character ∈ digits, character.isDigit = true) ∧
        Nat.ofDigitChars 10 digits 0 = position ∧ position < 2 ^ 32 := by
  constructor
  · intro isRead
    have isSplit : ∃ sign digits, (sign = [] ∨ sign = ['+']) ∧ text = sign ++ digits ∧
        (sign = [] → ∀ others, digits ≠ '+' :: others) := by
      by_cases hasSign : ∃ others, text = '+' :: others
      · rcases hasSign with ⟨others, isSigned⟩
        exact ⟨['+'], others, Or.inr rfl, isSigned, by simp⟩
      · exact ⟨[], text, Or.inl rfl, rfl, fun _ others same => hasSign ⟨others, same⟩⟩
    rcases isSplit with ⟨sign, digits, signed, shape, noSign⟩
    rw [shape, readPosition?_append signed noSign, Option.ite_none_right_eq_some,
      List.all_eq_true] at isRead
    rcases isRead with ⟨⟨someDigit, allDigits, below⟩, same⟩
    cases same
    exact ⟨sign, digits, signed, shape, someDigit, allDigits, rfl, below⟩
  · intro found
    rcases found with ⟨sign, digits, signed, shape, someDigit, allDigits, value, below⟩
    have noSign (others : List Char) : digits ≠ '+' :: others := by
      intro isSigned
      have isDigit := allDigits '+' (by simp [isSigned])
      cases isDigit
    rw [shape, readPosition?_append signed fun _ => noSign,
      if_pos ⟨someDigit, List.all_eq_true.mpr allDigits, value.symm ▸ below⟩, value]

theorem readIndex?_eq_some_iff (text : List Char) (index : PathIndex) :
    readIndex? text = some index ↔ index.IsSpelledBy ('[' :: (text ++ [']'])) := by
  constructor
  · intro isRead
    unfold readIndex? at isRead
    split at isRead
    · rename_i isStar
      cases isRead
      rw [isStar]
      exact .all
    · split at isRead
      · rename_i isLength
        cases isRead
        rw [isLength]
        exact .length
      · rcases Option.map_eq_some_iff.mp isRead with ⟨position, isPosition, same⟩
        rcases (readPosition?_eq_some_iff text position).mp isPosition with
          ⟨sign, digits, signed, shape, someDigit, allDigits, value, below⟩
        rw [← same, shape, ← value]
        exact .entry signed someDigit allDigits (value.symm ▸ below)
  · intro spelled
    generalize isWhole : '[' :: (text ++ [']']) = whole at spelled
    cases spelled with
    | none => cases isWhole
    | all =>
        have isStar : text = ['*'] := List.append_cancel_right (List.cons.inj isWhole).2
        rw [isStar]
        rfl
    | length =>
        have isLength : text = ['l', 'e', 'n', 'g', 't', 'h'] :=
          List.append_cancel_right (List.cons.inj isWhole).2
        rw [isLength]
        rfl
    | @entry sign digits signed someDigit allDigits below =>
        have isText : text = sign ++ digits :=
          List.append_cancel_right (List.cons.inj isWhole).2
        have isPosition := (readPosition?_eq_some_iff text (Nat.ofDigitChars 10 digits 0)).mpr
          ⟨sign, digits, signed, isText, someDigit, allDigits, rfl, below⟩
        -- A star or a letter would be read as a digit.
        have noOther (character : Char) (notDigit : character.isDigit = false)
            (notSign : character ≠ '+') : character ∉ text := by
          intro member
          rw [isText] at member
          rcases List.mem_append.mp member with inSign | inDigits
          · rcases signed with isNone | isPlus
            · simp [isNone] at inSign
            · exact notSign (by simpa [isPlus] using inSign)
          · rw [allDigits character inDigits] at notDigit
            cases notDigit
        have notStar : text ≠ ['*'] := fun same =>
          noOther '*' rfl (by decide) (same ▸ List.mem_cons_self)
        have notLength : text ≠ ['l', 'e', 'n', 'g', 't', 'h'] := fun same =>
          noOther 'l' rfl (by decide) (same ▸ List.mem_cons_self)
        rw [readIndex?, if_neg notStar, if_neg notLength, isPosition]
        rfl

/-- An index is spelled by nothing, or in brackets. -/
theorem shape_of_isSpelledBy {index : PathIndex} {suffix : List Char}
    (spelled : index.IsSpelledBy suffix) :
    suffix = [] ∨ ∃ inner, suffix = '[' :: (inner ++ [']']) := by
  cases spelled with
  | none => exact Or.inl rfl
  | all => exact Or.inr ⟨['*'], rfl⟩
  | length => exact Or.inr ⟨['l', 'e', 'n', 'g', 't', 'h'], rfl⟩
  | @entry sign digits => exact Or.inr ⟨sign ++ digits, rfl⟩

theorem readSuffix_eq_ok_iff {suffix : List Char} (opens : ∀ first ∈ suffix.head?, first = '[')
    (index : PathIndex) : readSuffix suffix = .ok index ↔ index.IsSpelledBy suffix := by
  cases suffix with
  | nil =>
      constructor
      · intro isRead
        cases isRead
        exact .none
      · intro spelled
        cases spelled
        rfl
  | cons first inner =>
      have isOpen : first = '[' := opens first rfl
      subst isOpen
      rw [readSuffix]
      by_cases isClosed : inner.getLast? = some ']'
      · have shape : inner = inner.dropLast ++ [']'] := by
          rcases List.getLast?_eq_some_iff.mp isClosed with ⟨between, isBetween⟩
          rw [isBetween, List.dropLast_concat]
        rw [if_pos isClosed]
        conv => rhs; rw [shape]
        rw [← readIndex?_eq_some_iff]
        cases readIndex? inner.dropLast with
        | none => simp
        | some found => simp
      · rw [if_neg isClosed]
        constructor
        · intro isRead
          cases isRead
        · intro spelled
          rcases shape_of_isSpelledBy spelled with isEmpty | ⟨between, isBetween⟩
          · cases isEmpty
          · cases isBetween
            exact absurd (List.getLast?_concat) isClosed

theorem noDot_of_isSpelledBy {index : PathIndex} {suffix : List Char}
    (spelled : index.IsSpelledBy suffix) : '.' ∉ suffix := by
  cases spelled with
  | none => simp
  | all => decide
  | length => decide
  | @entry sign digits signed someDigit allDigits below =>
      intro member
      have inText : '.' ∈ sign ∨ '.' ∈ digits := by simpa using member
      rcases inText with inSign | inDigits
      · rcases signed with isNone | isPlus
        · simp [isNone] at inSign
        · simp [isPlus] at inSign
      · have isDigit := allDigits '.' inDigits
        cases isDigit

/-! ## Segments -/

/-- A part is not empty and has no dots. -/
theorem part_of_isSpelledBy {segment : PathSegment} {part : List Char}
    (spelled : segment.IsSpelledBy part) : part ≠ [] ∧ '.' ∉ part := by
  rcases spelled.indexed with ⟨suffix, shape, isIndex⟩
  rw [shape]
  constructor
  · intro isEmpty
    exact spelled.named (List.append_eq_nil_iff.mp isEmpty).1
  · intro member
    rcases List.mem_append.mp member with inName | inSuffix
    · exact (spelled.plain '.' inName).1 rfl
    · exact noDot_of_isSpelledBy isIndex inSuffix

theorem readSegment_eq_ok_iff {part : List Char} (noDot : '.' ∉ part) (segment : PathSegment) :
    readSegment part = .ok segment ↔ segment.IsSpelledBy part := by
  have opens : ∀ first ∈ (part.dropWhile (· ≠ '[')).head?, first = '[' := by
    intro first isFirst
    have stops := List.head?_dropWhile_not (· ≠ '[') part
    rw [Option.mem_def.mp isFirst] at stops
    simpa using stops
  constructor
  · intro isRead
    have valid := isValid_of_readSegment noDot isRead
    unfold readSegment at isRead
    simp only at isRead
    split at isRead
    · cases isRead
    rename_i index isIndex
    split at isRead
    · cases isRead
    split at isRead
    · cases isRead
    cases isRead
    refine ⟨valid.named, valid.plain, part.dropWhile (· ≠ '['), ?_,
      (readSuffix_eq_ok_iff opens index).mp isIndex⟩
    rw [String.toList_ofList, List.takeWhile_append_dropWhile]
  · intro spelled
    rcases spelled.indexed with ⟨suffix, shape, isIndex⟩
    have notOpen : ∀ character ∈ segment.name.toList, decide (character ≠ '[') = true := by
      intro character member
      simpa using (spelled.plain character member).2.1
    have noClosing : ']' ∉ segment.name.toList := fun member =>
      (spelled.plain ']' member).2.2 rfl
    have atSuffix : suffix.takeWhile (· ≠ '[') = [] ∧ suffix.dropWhile (· ≠ '[') = suffix := by
      rcases shape_of_isSpelledBy isIndex with isEmpty | ⟨inner, isOpen⟩
      · simp [isEmpty]
      · simp [isOpen]
    have isName : part.takeWhile (· ≠ '[') = segment.name.toList := by
      rw [shape, List.takeWhile_append_of_pos notOpen, atSuffix.1, List.append_nil]
    have isSuffix : part.dropWhile (· ≠ '[') = suffix := by
      rw [shape, List.dropWhile_append_of_pos notOpen, atSuffix.2]
    have suffixRead := (readSuffix_eq_ok_iff (isSuffix ▸ opens) segment.index).mpr isIndex
    rw [readSegment]
    simp only [isName, isSuffix, suffixRead, spelled.named, noClosing, if_false,
      String.ofList_toList]

/-! ## Paths -/

theorem splitParts_eq_splitOn (text : List Char) : splitParts text = text.splitOn '.' := by
  induction text with
  | nil => rfl
  | cons character rest inductionHypothesis =>
      rw [splitParts, inductionHypothesis, List.splitOn, List.splitOn,
        List.splitOnP_cons_eq_if_modifyHead]
      cases shape : rest.splitOnP (· == '.') with
      | nil => exact absurd shape (List.splitOnP_ne_nil _ _)
      | cons part parts => simp [List.modifyHead]

theorem readSegments_eq_ok_iff {parts : List (List Char)} (noDots : ∀ part ∈ parts, '.' ∉ part)
    (path : FieldPath) :
    readSegments parts = .ok path ↔ List.Forall₂ PathSegment.IsSpelledBy path parts := by
  induction parts generalizing path with
  | nil =>
      rw [List.forall₂_nil_right_iff, readSegments, Except.ok.injEq]
      exact eq_comm
  | cons part rest inductionHypothesis =>
      have firstRead := readSegment_eq_ok_iff (noDots part List.mem_cons_self)
      have restRead := inductionHypothesis
        fun other member => noDots other (List.mem_cons_of_mem _ member)
      rw [List.forall₂_cons_right_iff]
      constructor
      · intro isRead
        rw [readSegments] at isRead
        split at isRead
        · cases isRead
        rename_i segment isSegment
        split at isRead
        · cases isRead
        rename_i segments areSegments
        cases isRead
        exact ⟨segment, segments, (firstRead segment).mp isSegment,
          (restRead segments).mp areSegments, rfl⟩
      · intro spelled
        rcases spelled with ⟨segment, segments, isSegment, areSegments, shape⟩
        rw [shape]
        simp only [readSegments, (firstRead segment).mpr isSegment,
          (restRead segments).mpr areSegments]

/-- A text that spells a path is split into the parts of its segments. -/
theorem splitParts_of_isSpelledBy {path : FieldPath} {text : List Char} {parts : List (List Char)}
    (nonempty : path ≠ []) (isText : text = ['.'].intercalate parts)
    (spelled : List.Forall₂ PathSegment.IsSpelledBy path parts) :
    splitParts text = parts ∧ ∀ part ∈ parts, part ≠ [] ∧ '.' ∉ part := by
  have eachPart : ∀ part ∈ parts, part ≠ [] ∧ '.' ∉ part := by
    clear isText nonempty
    induction spelled with
    | nil => simp
    | cons isFirst _ inductionHypothesis =>
        exact List.forall_mem_cons.mpr ⟨part_of_isSpelledBy isFirst, inductionHypothesis⟩
  have someParts : parts ≠ [] := by
    intro isEmpty
    rw [isEmpty, List.forall₂_nil_right_iff] at spelled
    exact nonempty spelled
  refine ⟨?_, eachPart⟩
  rw [splitParts_eq_splitOn, isText,
    List.splitOn_intercalate '.' (fun part member => (eachPart part member).2) someParts]

/-- Reading gives exactly the path that a text spells. -/
theorem read_eq_ok_iff (text : String) (path : FieldPath) :
    read text = .ok path ↔ path.IsSpelledBy text := by
  constructor
  · intro isRead
    have valid := isValid_of_read isRead
    unfold read at isRead
    split at isRead
    · cases isRead
    split at isRead
    · cases isRead
    rename_i segments areSegments
    split at isRead
    · cases isRead
    have samePath : segments = path := Except.ok.inj isRead
    have joined : ['.'].intercalate (splitParts text.toList) = text.toList := by
      rw [splitParts_eq_splitOn, List.intercalate_splitOn]
    have areSpelled := (readSegments_eq_ok_iff (noDot_of_mem_splitParts text.toList) segments).mp
      areSegments
    exact ⟨valid.nonempty, ⟨_, joined.symm, samePath ▸ areSpelled⟩, valid.lengthLast⟩
  · intro spelled
    rcases spelled.parts with ⟨parts, isText, areSpelled⟩
    rcases splitParts_of_isSpelledBy spelled.nonempty isText areSpelled with ⟨areParts, eachPart⟩
    have areRead := (readSegments_eq_ok_iff (fun part member => (eachPart part member).2) path).mpr
      areSpelled
    have notEmpty : text.isEmpty = false := by
      rw [Bool.eq_false_iff, ne_eq, String.isEmpty_iff]
      intro isEmpty
      rw [isEmpty] at areParts
      exact (eachPart [] (areParts ▸ List.mem_cons_self)).1 rfl
    have lengthLast : (path.dropLast.any fun segment => segment.index == .length) = false := by
      rw [List.any_eq_false]
      intro segment member
      simpa using spelled.lengthLast segment member
    simp [read, notEmpty, areParts, areRead, lengthLast]

theorem parse_eq_ok_iff (text : String) (path : FieldPath) :
    parse text = .ok path ↔ path.IsSpelledBy text := by
  rw [← read_eq_ok_iff, parse]
  cases read text <;> simp

/-- A text is parsed exactly if it spells a path, and into this path.  The text of a valid path is
parsed into this path again, so that it determines the path. -/
theorem parse_inverts_spelling :
    (∀ text, (∃ path, parse text = .ok path) ↔ ∃ path : FieldPath, path.IsSpelledBy text) ∧
      (∀ text path, parse text = .ok path ↔ path.IsSpelledBy text) ∧
      (∀ path : FieldPath, path.IsValid → parse path.toText = .ok path) ∧
      ∀ left right : FieldPath, left.IsValid → right.IsValid → left.toText = right.toText →
        left = right := by
  refine ⟨?_, parse_eq_ok_iff, fun _ => parse_toText, fun _ _ => toText_injective⟩
  intro text
  exact exists_congr (parse_eq_ok_iff text)

/-- A path whose position may be spelled with a plus sign and a leading zero. -/
def spelledPath : FieldPath :=
  [⟨"a", .all⟩, ⟨"b", .entry 7⟩, ⟨"c", .length⟩]

theorem parse_inverts_spelling_spelledPath :
    spelledPath.IsSpelledBy "a[*].b[+07].c[length]" ∧
      parse "a[*].b[+07].c[length]" = .ok spelledPath ∧
      spelledPath.IsValid ∧ spelledPath.toText = "a[*].b[7].c[length]" ∧
      parse "a[*].b[7].c[length]" = .ok spelledPath := by
  have isEntry : PathIndex.IsSpelledBy (.entry 7) ['[', '+', '0', '7', ']'] :=
    @PathIndex.IsSpelledBy.entry ['+'] ['0', '7'] (Or.inr rfl) (by decide) (by simp) (by decide)
  have spelled : spelledPath.IsSpelledBy "a[*].b[+07].c[length]" := by
    refine ⟨by decide, ⟨[['a', '[', '*', ']'], ['b', '[', '+', '0', '7', ']'],
      ['c', '[', 'l', 'e', 'n', 'g', 't', 'h', ']']], by decide +kernel, ?_⟩, by decide⟩
    refine .cons ?_ (.cons ?_ (.cons ?_ .nil))
    · exact ⟨by decide, by simp, _, rfl, .all⟩
    · exact ⟨by decide, by simp, _, rfl, isEntry⟩
    · exact ⟨by decide, by simp, _, rfl, .length⟩
  have valid : spelledPath.IsValid := by
    have isRead : read "a[*].b[7].c[length]" = .ok spelledPath := by decide +kernel
    exact isValid_of_read isRead
  have isText : spelledPath.toText = "a[*].b[7].c[length]" := by decide +kernel
  refine ⟨spelled, (parse_inverts_spelling.2.1 _ _).mpr spelled, valid, isText, ?_⟩
  rw [← isText]
  exact parse_inverts_spelling.2.2.1 spelledPath valid

end FieldPath

end Unnest
