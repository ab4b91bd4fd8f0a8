import Unnest.FieldPath.Reader
import Unnest.Flattening.Classification
import Unnest.Proofs.FieldPathText

/-!
# Matching paths against patterns

A concrete path matches a pattern of plain names and stars exactly if it is the pattern with
positions in the place of the stars, followed by a rest, and then it is matched with these
positions and this rest.  The paths that the flattening makes out of a pattern, positions and the
rest of a valid path are valid, so that their texts tell them apart.
-/

namespace Unnest

namespace FieldPath

theorem IsPattern.head {segment : PathSegment} {rest : FieldPath}
    (isPattern : IsPattern (segment :: rest)) :
    segment.index = .none ∨ segment.index = .all :=
  isPattern segment List.mem_cons_self

theorem IsPattern.tail {segment : PathSegment} {rest : FieldPath}
    (isPattern : IsPattern (segment :: rest)) : IsPattern rest :=
  fun other member => isPattern other (List.mem_cons_of_mem _ member)

theorem IsConcrete.tail {segment : PathSegment} {rest : FieldPath}
    (isConcrete : IsConcrete (segment :: rest)) : IsConcrete rest :=
  fun other member => isConcrete other (List.mem_cons_of_mem _ member)

theorem matchPrefix_nil (path : FieldPath) : matchPrefix path [] = some ([], path) := by
  cases path <;> rfl

/-! ## Matches -/

/-- A pattern with positions for its markers is matched with these positions. -/
theorem matchPrefix_withIndices {pattern : FieldPath} (isPattern : pattern.IsPattern)
    {tuple : IndexTuple} (full : tuple.length = pattern.markerCount) (rest : FieldPath) :
    matchPrefix (pattern.withIndices tuple ++ rest) pattern = some (tuple, rest) := by
  induction pattern generalizing tuple with
  | nil =>
      have noPositions : tuple = [] := List.length_eq_zero_iff.mp full
      subst noPositions
      exact matchPrefix_nil rest
  | cons segment others inductionHypothesis =>
      obtain ⟨name, index⟩ := segment
      rcases isPattern.head with isPlain | isMarker
      · cases isPlain
        have restFull : tuple.length = markerCount others := by simpa [markerCount] using full
        have inRest := inductionHypothesis isPattern.tail restFull
        simp [withIndices, matchPrefix, inRest]
      · cases isMarker
        cases tuple with
        | nil => simp [markerCount] at full
        | cons position more =>
            have restFull : more.length = markerCount others := by simpa [markerCount] using full
            have inRest := inductionHypothesis isPattern.tail restFull
            simp [withIndices, matchPrefix, inRest]

/-- A concrete path that is matched is the pattern with the positions, followed by the rest. -/
theorem eq_of_matchPrefix {path pattern : FieldPath} (isConcrete : path.IsConcrete)
    (isPattern : pattern.IsPattern) {tuple : IndexTuple} {rest : FieldPath}
    (isMatch : matchPrefix path pattern = some (tuple, rest)) :
    path = pattern.withIndices tuple ++ rest ∧ tuple.length = pattern.markerCount := by
  induction pattern generalizing path tuple with
  | nil =>
      rw [matchPrefix_nil] at isMatch
      cases isMatch
      exact ⟨rfl, rfl⟩
  | cons wanted others inductionHypothesis =>
      obtain ⟨name, index⟩ := wanted
      cases path with
      | nil => cases isMatch
      | cons own later =>
          obtain ⟨ownName, ownIndex⟩ := own
          have isNotMarker : ownIndex ≠ .all := isConcrete _ List.mem_cons_self
          rw [matchPrefix] at isMatch
          by_cases sameName : ownName = name
          · subst sameName
            rw [if_pos rfl] at isMatch
            rcases isPattern.head with isPlain | isMarker
            · cases isPlain
              have isNone : PathIndex.none = ownIndex ∧
                  matchPrefix later others = some (tuple, rest) := by
                simpa using isMatch
              obtain ⟨rfl, inRest⟩ := isNone
              obtain ⟨same, full⟩ := inductionHypothesis isConcrete.tail isPattern.tail inRest
              refine ⟨?_, by simpa [markerCount] using full⟩
              rw [same]
              simp [withIndices]
            · cases isMarker
              cases ownIndex with
              | entry position =>
                  obtain ⟨⟨positions, found⟩, inRest, same⟩ := Option.map_eq_some_iff.mp isMatch
                  cases same
                  obtain ⟨same, full⟩ := inductionHypothesis isConcrete.tail isPattern.tail inRest
                  refine ⟨?_, by simpa [markerCount] using full⟩
                  rw [same]
                  simp [withIndices]
              | none => simp at isMatch
              | all => exact absurd rfl isNotMarker
              | length => simp at isMatch
          · simp [sameName] at isMatch

/-- What is left after a match ends the path. -/
theorem exists_append_of_matchPrefix {path pattern : FieldPath} {tuple : IndexTuple}
    {rest : FieldPath} (isMatch : matchPrefix path pattern = some (tuple, rest)) :
    ∃ front, path = front ++ rest := by
  induction pattern generalizing path tuple with
  | nil =>
      rw [matchPrefix_nil] at isMatch
      cases isMatch
      exact ⟨[], rfl⟩
  | cons wanted others inductionHypothesis =>
      cases path with
      | nil => cases isMatch
      | cons own later =>
          have inLater : ∃ positions, matchPrefix later others = some (positions, rest) := by
            rw [matchPrefix] at isMatch
            split at isMatch
            · split at isMatch
              · rcases Option.map_eq_some_iff.mp isMatch with ⟨⟨positions, found⟩, inRest, same⟩
                cases same
                exact ⟨positions, inRest⟩
              · split at isMatch
                · exact ⟨tuple, isMatch⟩
                · cases isMatch
            · cases isMatch
          rcases inLater with ⟨positions, inRest⟩
          rcases inductionHypothesis inRest with ⟨front, shape⟩
          exact ⟨own :: front, by rw [shape, List.cons_append]⟩

/-- A path that is matched with a position for each marker is the pattern with these positions,
followed by the rest. -/
theorem eq_of_matchPrefix_of_full {path pattern : FieldPath} (isPattern : pattern.IsPattern)
    {tuple : IndexTuple} {rest : FieldPath}
    (isMatch : matchPrefix path pattern = some (tuple, rest)) :
    tuple.length ≤ pattern.markerCount ∧
      (tuple.length = pattern.markerCount → path = pattern.withIndices tuple ++ rest) := by
  induction pattern generalizing path tuple with
  | nil =>
      rw [matchPrefix_nil] at isMatch
      cases isMatch
      exact ⟨Nat.zero_le _, fun _ => rfl⟩
  | cons wanted others inductionHypothesis =>
      rcases wanted with ⟨name, index⟩
      cases path with
      | nil => cases isMatch
      | cons own later =>
          rcases own with ⟨ownName, ownIndex⟩
          rw [matchPrefix] at isMatch
          by_cases sameName : ownName = name
          · rw [if_pos sameName] at isMatch
            rcases isPattern.head with isPlain | isMarker
            · cases isPlain
              have isNone : PathIndex.none = ownIndex ∧
                  matchPrefix later others = some (tuple, rest) := by
                simpa using isMatch
              rcases inductionHypothesis isPattern.tail isNone.2 with ⟨atMost, shape⟩
              refine ⟨by simpa [markerCount] using atMost, ?_⟩
              intro full
              rw [shape (by simpa [markerCount] using full), sameName, ← isNone.1]
              simp [withIndices]
            · cases isMarker
              cases ownIndex with
              | entry position =>
                  rcases Option.map_eq_some_iff.mp isMatch with ⟨⟨positions, found⟩, inRest, same⟩
                  cases same
                  rcases inductionHypothesis isPattern.tail inRest with ⟨atMost, shape⟩
                  refine ⟨by simpa [markerCount] using atMost, ?_⟩
                  intro full
                  rw [shape (by simpa [markerCount] using full), sameName]
                  simp [withIndices]
              | all =>
                  -- A marker that faces a marker gives no position, and there are too few of them.
                  have inRest : matchPrefix later others = some (tuple, rest) := by
                    simpa using isMatch
                  have atMost := (inductionHypothesis isPattern.tail inRest).1
                  have fewer : tuple.length < markerCount (⟨name, .all⟩ :: others) := by
                    simpa [markerCount] using Nat.lt_succ_of_le atMost
                  exact ⟨Nat.le_of_lt fewer, fun full => absurd full (Nat.ne_of_lt fewer)⟩
              | none => simp at isMatch
              | length => simp at isMatch
          · simp [sameName] at isMatch

/-! ## Prefixes -/

theorem length_repeatedPrefixes (target : FieldPath) :
    target.repeatedPrefixes.length = target.markerCount := by
  induction target with
  | nil => rfl
  | cons segment rest inductionHypothesis =>
      by_cases isMarker : segment.index = .all
      · simp [repeatedPrefixes, markerCount, isMarker] at inductionHypothesis ⊢
        exact inductionHypothesis
      · simp [repeatedPrefixes, markerCount, isMarker] at inductionHypothesis ⊢
        exact inductionHypothesis

/-- The longest prefix of a path that ends in all entries of an array is the path itself. -/
theorem getLast?_repeatedPrefixes {target : FieldPath} (ends : target.endsWithAll = true) :
    target.repeatedPrefixes.getLast? = some target := by
  induction target with
  | nil => simp [endsWithAll] at ends
  | cons segment rest inductionHypothesis =>
      cases rest with
      | nil =>
          have isMarker : segment.index = .all := by simpa [endsWithAll] using ends
          simp [repeatedPrefixes, isMarker]
      | cons next others =>
          have restLast := inductionHypothesis (by simpa [endsWithAll] using ends)
          have deeperLast :
              ((repeatedPrefixes (next :: others)).map (segment :: ·)).getLast? =
                some (segment :: next :: others) := by
            rw [List.getLast?_map, restLast]
            rfl
          rw [repeatedPrefixes]
          by_cases isMarker : segment.index = .all
          · rw [if_pos isMarker, List.getLast?_cons, deeperLast]
            rfl
          · rw [if_neg isMarker, deeperLast]

theorem repeatedPrefixes_ne_nil {target : FieldPath} (ends : target.endsWithAll = true) :
    target.repeatedPrefixes ≠ [] := by
  intro isEmpty
  have last := getLast?_repeatedPrefixes ends
  rw [isEmpty] at last
  cases last

theorem nil_not_mem_repeatedPrefixes (target : FieldPath) : [] ∉ target.repeatedPrefixes := by
  cases target with
  | nil => simp [repeatedPrefixes]
  | cons segment rest =>
      rw [repeatedPrefixes]
      split <;> simp

/-- The length of a repeated array is not inside its entries. -/
theorem matchPrefix_eq_none_of_isLengthColumnOf {path pattern target : FieldPath}
    (isLength : path.isLengthColumnOf pattern = true)
    (isPrefix : pattern ∈ target.repeatedPrefixes) : matchPrefix path target = none := by
  induction target generalizing path pattern with
  | nil => simp [repeatedPrefixes] at isPrefix
  | cons segment rest inductionHypothesis =>
      have isShortOrDeeper : (segment.index = .all ∧ pattern = [segment]) ∨
          ∃ deeper ∈ repeatedPrefixes rest, segment :: deeper = pattern := by
        rw [repeatedPrefixes] at isPrefix
        split at isPrefix
        · rename_i isMarker
          rcases List.mem_cons.mp isPrefix with isShort | isDeeper
          · exact Or.inl ⟨isMarker, isShort⟩
          · exact Or.inr (by simpa using isDeeper)
        · exact Or.inr (by simpa using isPrefix)
      cases path with
      | nil => simp [isLengthColumnOf] at isLength
      | cons own later =>
          rcases isShortOrDeeper with ⟨isMarker, rfl⟩ | ⟨deeper, isDeeper, rfl⟩
          · cases later with
            | nil =>
                have isOwn : own.index = .length := by
                  simp [isLengthColumnOf] at isLength
                  exact isLength.2
                simp [matchPrefix, isMarker, isOwn]
            | cons next others => simp [isLengthColumnOf] at isLength
          · have notNil : deeper ≠ [] := fun isNil =>
              nil_not_mem_repeatedPrefixes rest (isNil ▸ isDeeper)
            have laterLength : isLengthColumnOf later deeper = true := by
              rw [isLengthColumnOf] at isLength
              · simp only [Bool.and_eq_true] at isLength
                exact isLength.2
              · intro _ isEmpty
                exact absurd isEmpty notNil
            have noMatch := inductionHypothesis laterLength isDeeper
            rw [matchPrefix]
            split
            · split
              · rw [noMatch]
                rfl
              · split
                · exact noMatch
                · rfl
            · rfl

/-! ## Valid results -/

theorem isValid_append {first rest : FieldPath} (notEmpty : first ≠ [])
    (firstValid : ∀ segment ∈ first, segment.IsValid)
    (firstIndices : ∀ segment ∈ first, segment.index ≠ .length)
    (restValid : ∀ segment ∈ rest, segment.IsValid)
    (restLast : ∀ segment ∈ rest.dropLast, segment.index ≠ .length) :
    IsValid (first ++ rest) := by
  refine ⟨by simp [notEmpty], ?_, ?_⟩
  · intro segment member
    rcases List.mem_append.mp member with inFirst | inRest
    · exact firstValid segment inFirst
    · exact restValid segment inRest
  · intro segment member
    cases rest with
    | nil =>
        rw [List.append_nil] at member
        exact firstIndices segment ((List.dropLast_sublist _).mem member)
    | cons next others =>
        rw [List.dropLast_append_of_ne_nil (by simp)] at member
        rcases List.mem_append.mp member with inFirst | inRest
        · exact firstIndices segment inFirst
        · exact restLast segment inRest

/-- The rest of a valid path fits behind another valid path. -/
structure IsRest (rest : FieldPath) : Prop where
  segments : ∀ segment ∈ rest, segment.IsValid
  lengthLast : ∀ segment ∈ rest.dropLast, segment.index ≠ .length

theorem IsValid.isRest_of_append {first rest : FieldPath} (valid : IsValid (first ++ rest)) :
    rest.IsRest := by
  constructor
  · exact fun segment member => valid.segments segment (List.mem_append_right _ member)
  · intro segment member
    apply valid.lengthLast
    cases rest with
    | nil => cases member
    | cons next others =>
        rw [List.dropLast_append_of_ne_nil (by simp)]
        exact List.mem_append_right _ member

/-- A segment of an indexed pattern is one of the pattern, or has one of the positions. -/
theorem mem_withIndices {pattern : FieldPath} {tuple : IndexTuple} {segment : PathSegment}
    (member : segment ∈ pattern.withIndices tuple) :
    ∃ original ∈ pattern, segment.name = original.name ∧
      (segment.index = original.index ∨ ∃ position ∈ tuple, segment.index = .entry position) := by
  induction pattern generalizing tuple with
  | nil => simp [withIndices] at member
  | cons first others inductionHypothesis =>
      rw [withIndices.eq_def] at member
      dsimp only at member
      split at member
      · rename_i position more _
        rcases List.mem_cons.mp member with rfl | inOthers
        · exact ⟨first, List.mem_cons_self, rfl, Or.inr ⟨position, List.mem_cons_self, rfl⟩⟩
        · obtain ⟨original, isOriginal, sameName, index⟩ := inductionHypothesis inOthers
          refine ⟨original, List.mem_cons_of_mem _ isOriginal, sameName, ?_⟩
          rcases index with sameIndex | ⟨found, isFound, isEntry⟩
          · exact Or.inl sameIndex
          · exact Or.inr ⟨found, List.mem_cons_of_mem _ isFound, isEntry⟩
      · rcases List.mem_cons.mp member with rfl | inOthers
        · exact ⟨segment, List.mem_cons_self, rfl, Or.inl rfl⟩
        · obtain ⟨original, isOriginal, found⟩ := inductionHypothesis inOthers
          exact ⟨original, List.mem_cons_of_mem _ isOriginal, found⟩

/-- Every position of a full tuple stands in a segment. -/
theorem exists_entry_of_mem {pattern : FieldPath} (isPattern : pattern.IsPattern)
    {tuple : IndexTuple} (full : tuple.length = pattern.markerCount) {position : Nat}
    (member : position ∈ tuple) :
    ∃ segment ∈ pattern.withIndices tuple, segment.index = .entry position := by
  induction pattern generalizing tuple with
  | nil =>
      rw [List.length_eq_zero_iff.mp full] at member
      cases member
  | cons first others inductionHypothesis =>
      obtain ⟨name, index⟩ := first
      rcases isPattern.head with isPlain | isMarker
      · cases isPlain
        obtain ⟨segment, isSegment, isEntry⟩ := inductionHypothesis isPattern.tail
          (by simpa [markerCount] using full) member
        exact ⟨segment, by simp [withIndices, isSegment], isEntry⟩
      · cases isMarker
        cases tuple with
        | nil => cases member
        | cons head more =>
            rcases List.mem_cons.mp member with rfl | inMore
            · exact ⟨⟨name, .entry position⟩, by simp [withIndices], rfl⟩
            · obtain ⟨segment, isSegment, isEntry⟩ := inductionHypothesis isPattern.tail
                (by simpa [markerCount] using full) inMore
              exact ⟨segment, by simp [withIndices, isSegment], isEntry⟩

/-- The positions of a full tuple are bounded where they stand in a valid path. -/
theorem lt_of_isValid_withIndices_append {pattern rest : FieldPath} (isPattern : pattern.IsPattern)
    {tuple : IndexTuple} (full : tuple.length = pattern.markerCount)
    (valid : IsValid (pattern.withIndices tuple ++ rest)) :
    ∀ position ∈ tuple, position < positionBound := by
  intro position member
  rcases exists_entry_of_mem isPattern full member with ⟨segment, isSegment, isEntry⟩
  exact (valid.segments segment (List.mem_append_left _ isSegment)).bounded position isEntry

theorem withIndices_ne_nil {pattern : FieldPath} (notEmpty : pattern ≠ []) (tuple : IndexTuple) :
    pattern.withIndices tuple ≠ [] := by
  cases pattern with
  | nil => exact absurd rfl notEmpty
  | cons segment rest =>
      rw [withIndices.eq_def]
      dsimp only
      split <;> simp

theorem IsPattern.index_ne_length {pattern : FieldPath} (isPattern : pattern.IsPattern)
    {segment : PathSegment} (member : segment ∈ pattern) : segment.index ≠ .length := by
  intro isLength
  rcases isPattern segment member with isPlain | isMarker
  · rw [isLength] at isPlain
    cases isPlain
  · rw [isLength] at isMarker
    cases isMarker

/-- The column for positions below the bound and the rest of a valid path has a valid path. -/
theorem isValid_withIndices_append {pattern rest : FieldPath} (valid : pattern.IsValid)
    (isPattern : pattern.IsPattern) {tuple : IndexTuple}
    (bounded : ∀ position ∈ tuple, position < positionBound) (isRest : rest.IsRest) :
    IsValid (pattern.withIndices tuple ++ rest) := by
  apply isValid_append (withIndices_ne_nil valid.nonempty tuple) _ _ isRest.segments
    isRest.lengthLast
  · intro segment member
    obtain ⟨original, isOriginal, sameName, index⟩ := mem_withIndices member
    have originalValid := valid.segments original isOriginal
    refine ⟨sameName ▸ originalValid.named, sameName ▸ originalValid.plain, ?_⟩
    intro position isEntry
    rcases index with sameIndex | ⟨found, isFound, isFoundEntry⟩
    · exact originalValid.bounded position (sameIndex ▸ isEntry)
    · rw [isEntry] at isFoundEntry
      cases isFoundEntry
      exact bounded position isFound
  · intro segment member isLength
    obtain ⟨original, isOriginal, _, index⟩ := mem_withIndices member
    rcases index with sameIndex | ⟨found, _, isFoundEntry⟩
    · exact isPattern.index_ne_length isOriginal (sameIndex ▸ isLength)
    · rw [isLength] at isFoundEntry
      cases isFoundEntry

theorem mem_strip_length {path : FieldPath} {segment : PathSegment}
    (member : segment ∈ path.strip path.length) :
    segment.index = .none ∧ ∃ original ∈ path, segment.name = original.name := by
  induction path with
  | nil => cases member
  | cons first rest inductionHypothesis =>
      rw [List.length_cons, strip] at member
      rcases List.mem_cons.mp member with rfl | inRest
      · exact ⟨rfl, first, List.mem_cons_self, rfl⟩
      · obtain ⟨isNone, original, isOriginal, sameName⟩ := inductionHypothesis inRest
        exact ⟨isNone, original, List.mem_cons_of_mem _ isOriginal, sameName⟩

theorem isValid_strip_append {pattern rest : FieldPath} (valid : pattern.IsValid)
    (isRest : rest.IsRest) : IsValid (pattern.strip pattern.length ++ rest) := by
  apply isValid_append _ _ _ isRest.segments isRest.lengthLast
  · obtain ⟨segment, others, rfl⟩ := List.exists_cons_of_ne_nil valid.nonempty
    simp [strip]
  · intro segment member
    obtain ⟨isNone, original, isOriginal, sameName⟩ := mem_strip_length member
    have originalValid := valid.segments original isOriginal
    refine ⟨sameName ▸ originalValid.named, sameName ▸ originalValid.plain, ?_⟩
    intro position isEntry
    rw [isNone] at isEntry
    cases isEntry
  · intro segment member
    rw [(mem_strip_length member).1]
    decide

end FieldPath

/-! ## Targets -/

/-- A table can be flattened by the path. -/
structure FieldPath.IsTarget (target : FieldPath) : Prop where
  valid : target.IsValid
  isPattern : target.IsPattern
  ends : target.endsWithAll = true

/-- A text is read as a target, or the field to flatten by is invalid. -/
theorem readTarget_outcome (flattenBy : String) :
    (∃ target, readTarget flattenBy = .ok target ∧ FieldPath.read flattenBy = .ok target ∧
      target.IsTarget) ∨
    (¬ ∃ target, FieldPath.read flattenBy = .ok target ∧ target.IsTarget) ∧
      ∃ reason, readTarget flattenBy = .error (.invalidFlattenBy flattenBy reason) := by
  unfold readTarget
  cases isRead : FieldPath.read flattenBy with
  | error fault => exact Or.inr ⟨by simp, _, rfl⟩
  | ok path =>
      by_cases ends : path.endsWithAll = true
      · by_cases isPattern : path.IsPattern
        · have noOther :
              (path.any fun segment =>
                segment.index != .none && segment.index != .all) = false := by
            rw [List.any_eq_false]
            intro segment member
            rcases isPattern segment member with isPlain | isMarker
            · simp [isPlain]
            · simp [isMarker]
          refine Or.inl ⟨path, by simp [ends, noOther], rfl, ?_⟩
          exact ⟨FieldPath.isValid_of_read isRead, isPattern, ends⟩
        · have hasOther :
              (path.any fun segment => segment.index != .none && segment.index != .all) = true := by
            simpa [FieldPath.IsPattern, not_or] using isPattern
          refine Or.inr ⟨?_, _, by simp only [ends, hasOther]; rfl⟩
          rintro ⟨target, same, isTarget⟩
          cases same
          exact isPattern isTarget.isPattern
      · refine Or.inr ⟨?_, "must end in [*]", by simp [ends]⟩
        rintro ⟨target, same, isTarget⟩
        cases same
        exact ends isTarget.ends

theorem isTarget_of_readTarget {flattenBy : String} {target : FieldPath}
    (accepted : readTarget flattenBy = .ok target) : target.IsTarget := by
  rcases readTarget_outcome flattenBy with ⟨found, isFound, _, isTarget⟩ | ⟨_, reason, fails⟩
  · rw [accepted] at isFound
    rwa [Except.ok.inj isFound]
  · rw [accepted] at fails
    cases fails

/-- The output column of a valid target determines the rest of the path. -/
theorem ColumnClasses.outputName_injective {target : FieldPath} (valid : target.IsValid)
    {left right : FieldPath} (leftRest : left.IsRest) (rightRest : right.IsRest)
    (same : outputName target left = outputName target right) : left = right :=
  List.append_cancel_left (FieldPath.toText_injective
    (FieldPath.isValid_strip_append valid leftRest)
    (FieldPath.isValid_strip_append valid rightRest) same)

end Unnest
