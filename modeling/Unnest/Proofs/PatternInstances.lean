import Unnest.Proofs.ColumnPlans

/-!
# Instances of patterns

A pattern of plain names and markers stands for the paths with a position in the place of each
marker.  Two parts of the flattening go by it: one builds such paths, to look up lengths and to read
columns, and the other one matches the path of a column against the pattern.  They are inverse to
each other (`FieldPath.MatchesInstances`), also where the last marker faces a length.

So every length that a row is realized by is dropped when columns are planned, and realizing a row
depends on no other.  The other direction has one exception: as a count of entries has thirty-two
bits, no entry stands at the greatest position there is, and the lengths inside such an entry are
dropped without ever being read (`FieldPath.readsLength_toText_iff`).
-/

namespace Unnest

namespace FieldPath

/-- Matching against the pattern finds the positions and the rest that a path is built from, and no
other path is matched. -/
structure MatchesInstances (pattern : FieldPath) : Prop where
  finds : ∀ (tuple : IndexTuple) (rest : FieldPath), tuple.length = pattern.markerCount →
    matchPrefix (pattern.withIndices tuple ++ rest) pattern = some (tuple, rest)
  isBuilt : ∀ path : FieldPath, path.IsConcrete → ∀ tuple rest,
    path.matchPrefix pattern = some (tuple, rest) →
      tuple.length = pattern.markerCount ∧ path = pattern.withIndices tuple ++ rest
  isLengthOf_iff : pattern.endsWithAll = true → ∀ path : FieldPath, path.IsConcrete →
    (path.isLengthColumnOf pattern = true ↔ ∃ tuple : IndexTuple,
      tuple.length + 1 = pattern.markerCount ∧ path = (pattern.withIndices tuple).lengthColumn)
  unique : pattern.endsWithAll = true → ∀ first second : IndexTuple,
    first.length + 1 = pattern.markerCount → second.length + 1 = pattern.markerCount →
    (pattern.withIndices first).lengthColumn = (pattern.withIndices second).lengthColumn →
      first = second

/-! ## Lengths -/

/-- A pattern that ends in all entries of an array is what is around the array, and the array. -/
theorem exists_concat_of_endsWithAll {pattern : FieldPath} (ends : pattern.endsWithAll = true) :
    ∃ (outer : FieldPath) (name : String), pattern = outer ++ [⟨name, .all⟩] := by
  rcases List.eq_nil_or_concat pattern with isEmpty | ⟨outer, ⟨name, index⟩, shape⟩
  · rw [isEmpty] at ends
    cases ends
  · rw [List.concat_eq_append] at shape
    rw [shape, endsWithAll, List.getLast?_concat, Option.any_some, beq_iff_eq] at ends
    exact ⟨outer, name, by rw [shape, ← ends]⟩

theorem markerCount_concat (outer : FieldPath) (name : String) :
    markerCount (outer ++ [⟨name, .all⟩]) = outer.markerCount + 1 := by
  simp [markerCount]

section Concat

variable {outer : FieldPath} (isPattern : outer.IsPattern) (name : String)

include isPattern

theorem lengthColumn_withIndices_concat {tuple : IndexTuple}
    (full : tuple.length = outer.markerCount) :
    (withIndices (outer ++ [⟨name, .all⟩]) tuple).lengthColumn =
      outer.withIndices tuple ++ [⟨name, .length⟩] := by
  rw [withIndices_append isPattern full, lengthColumn, withLastIndex_concat]

theorem isLengthColumnOf_concat_iff {path : FieldPath} (isConcrete : path.IsConcrete) :
    path.isLengthColumnOf (outer ++ [⟨name, .all⟩]) = true ↔
      ∃ tuple : IndexTuple, tuple.length = outer.markerCount ∧
        path = outer.withIndices tuple ++ [⟨name, .length⟩] := by
  constructor
  · exact eq_of_isLengthColumnOf isConcrete isPattern
  · intro found
    rcases found with ⟨tuple, full, shape⟩
    rw [shape]
    exact isLengthColumnOf_withIndices isPattern name full

/-- The positions are those that the pattern around the array finds in the path. -/
theorem tuple_unique_of_append {first second : IndexTuple} {firstRest secondRest : FieldPath}
    (firstFull : first.length = outer.markerCount) (secondFull : second.length = outer.markerCount)
    (same : outer.withIndices first ++ firstRest = outer.withIndices second ++ secondRest) :
    first = second := by
  have found := matchPrefix_withIndices isPattern firstFull firstRest
  rw [same, matchPrefix_withIndices isPattern secondFull secondRest] at found
  cases found
  rfl

end Concat

theorem matchesInstances {pattern : FieldPath} (isPattern : pattern.IsPattern) :
    pattern.MatchesInstances := by
  constructor
  case finds =>
      intro tuple rest full
      exact matchPrefix_withIndices isPattern full rest
  case isBuilt =>
      intro path isConcrete tuple rest isMatch
      exact (eq_of_matchPrefix isConcrete isPattern isMatch).symm
  case isLengthOf_iff =>
      intro ends path isConcrete
      rcases exists_concat_of_endsWithAll ends with ⟨outer, name, shape⟩
      rw [shape] at isPattern ⊢
      have outerPattern : outer.IsPattern := fun segment member =>
        isPattern segment (List.mem_append_left _ member)
      rw [isLengthColumnOf_concat_iff outerPattern name isConcrete, markerCount_concat]
      apply exists_congr
      intro tuple
      rw [Nat.add_right_cancel_iff]
      apply and_congr_right
      intro full
      rw [lengthColumn_withIndices_concat outerPattern name full]
  case unique =>
      intro ends first second firstFull secondFull same
      rcases exists_concat_of_endsWithAll ends with ⟨outer, name, shape⟩
      rw [shape] at isPattern firstFull secondFull same
      have outerPattern : outer.IsPattern := fun segment member =>
        isPattern segment (List.mem_append_left _ member)
      rw [markerCount_concat, Nat.add_right_cancel_iff] at firstFull secondFull
      rw [lengthColumn_withIndices_concat outerPattern name firstFull,
        lengthColumn_withIndices_concat outerPattern name secondFull] at same
      exact tuple_unique_of_append outerPattern firstFull secondFull same

/-! ## Lengths that a row is realized by -/

/-- Realizing some row depends on the length that is stored under the name. -/
def ReadsLength (target : FieldPath) (name : String) : Prop :=
  ∃ left right : Lengths, (∀ other, other ≠ name → left other = right other) ∧
    realize target.repeatedPrefixes left ≠ realize target.repeatedPrefixes right

/-- The column is the length of an array of the target, at some entry that a row can have. -/
def IsRealizedLength (target : FieldPath) (name : String) : Prop :=
  ∃ pattern ∈ target.repeatedPrefixes, ∃ outer : IndexTuple,
    outer.length + 1 = pattern.markerCount ∧
    (∀ position ∈ outer, position + 1 < positionBound) ∧ lengthColumnName pattern outer = name

section Realizing

variable {target : FieldPath} {left right : Lengths}

/-- The length that an entry of a row needs next is one of the target. -/
theorem isRealizedLength_of_realizes {passed deeper : List FieldPath} {pattern : FieldPath}
    (split : target.repeatedPrefixes = passed ++ pattern :: deeper) {tuple : IndexTuple}
    (realized : Realizes left passed tuple) :
    target.IsRealizedLength (lengthColumnName pattern tuple) := by
  rcases shape_of_repeatedPrefixes split with ⟨outer, name, shape, _, count⟩
  refine ⟨pattern, by simp [split], tuple, ?_, realized.succ_position_lt, rfl⟩
  rw [shape, markerCount_concat, count, realized.length_eq]

theorem realizeLevel_congr {pattern : FieldPath} {outers : List IndexTuple}
    (agree : ∀ outer ∈ outers,
      left (lengthColumnName pattern outer) = right (lengthColumnName pattern outer)) :
    realizeLevel left pattern outers = realizeLevel right pattern outers := by
  induction outers with
  | nil => rfl
  | cons outer rest inductionHypothesis =>
      have agreeOnRest := inductionHypothesis fun other member =>
        agree other (List.mem_cons_of_mem _ member)
      rw [realizeLevel, realizeLevel, realizeInside, realizeInside,
        agree outer List.mem_cons_self, agreeOnRest]

/-- Level by level, the entries so far need lengths of the target only. -/
theorem realizeBelow_congr (agree : ∀ name, target.IsRealizedLength name → left name = right name)
    {passed deeper : List FieldPath} (split : target.repeatedPrefixes = passed ++ deeper)
    {outers : List IndexTuple} (isLevel : IsLevel left passed outers) :
    realizeBelow left outers deeper = realizeBelow right outers deeper := by
  induction deeper generalizing passed outers with
  | nil => rfl
  | cons pattern later inductionHypothesis =>
      have sameLevel : realizeLevel left pattern outers = realizeLevel right pattern outers := by
        apply realizeLevel_congr
        intro outer isOuter
        exact agree _ (isRealizedLength_of_realizes split ((isLevel.enumerates outer).mp isOuter))
      rw [realizeBelow, realizeBelow, ← sameLevel]
      rcases isLevel.realizeLevel_outcome pattern with ⟨level, isRealized, nextLevel, _⟩ |
        ⟨outer, fails, _⟩
      · rw [isRealized]
        dsimp only
        rw [inductionHypothesis (by simpa using split) nextLevel]
      · rw [fails]

theorem realize_congr (agree : ∀ name, target.IsRealizedLength name → left name = right name) :
    realize target.repeatedPrefixes left = realize target.repeatedPrefixes right := by
  have sameLevels := realizeBelow_congr agree (List.nil_append _).symm isLevel_root
  rw [realize, realize, sameLevels]

/-! ## Rows with as many entries as there can be -/

/-- The greatest length that is not shortened to thirty-two bits. -/
def greatestLength : Int64 := 4294967295

theorem entryCount_greatestLength : entryCount greatestLength + 1 = UInt32.size := by
  decide +kernel

/-- Where all lengths that are stored are the greatest one and none is lacking, there is an entry at
every position but the last. -/
theorem realizes_of_lacksNone {lengths : Lengths} {prefixes passed deeper : List FieldPath}
    (areGreatest : ∀ name length, lengths name = some length → length = greatestLength)
    (lacksNone : ¬ ∃ name, LacksLength lengths prefixes name) (split : prefixes = passed ++ deeper)
    {tuple : IndexTuple} (full : tuple.length = passed.length)
    (below : ∀ position ∈ tuple, position + 1 < UInt32.size) : Realizes lengths passed tuple := by
  induction passed using List.reverseRecOn generalizing deeper tuple with
  | nil =>
      rw [List.length_eq_zero_iff.mp full]
      exact .root
  | append_singleton outermost pattern inductionHypothesis =>
      rcases List.eq_nil_or_concat tuple with isEmpty | ⟨outer, position, shape⟩
      · simp [isEmpty] at full
      · rw [List.concat_eq_append] at shape
        rw [shape] at full below ⊢
        have splitBefore : prefixes = outermost ++ pattern :: deeper := by
          rw [split, List.append_assoc, List.singleton_append]
        have isOuter : Realizes lengths outermost outer :=
          inductionHypothesis splitBefore (by simpa using full)
            fun other member => below other (List.mem_append_left _ member)
        cases isStored : lengths (lengthColumnName pattern outer) with
        | none =>
            exact absurd ⟨_, outermost, pattern, deeper, outer, splitBefore, isOuter, rfl,
              isStored⟩ lacksNone
        | some length =>
            apply Realizes.entry isOuter isStored
            rw [areGreatest _ _ isStored]
            have isBelow := below position (by simp)
            have isCount := entryCount_greatestLength
            omega

/-- A row is realized by exactly the lengths inside of entries that it can have: where all of them
are stored it has entries, and where one is missing it has none. -/
theorem readsLength_iff (isTarget : target.IsTarget) {name : String} :
    target.ReadsLength name ↔ target.IsRealizedLength name := by
  constructor
  · intro reads
    rcases reads with ⟨left, right, agree, differ⟩
    by_contra notRealized
    apply differ
    apply realize_congr
    intro other isRealized
    apply agree
    intro isSame
    exact notRealized (isSame ▸ isRealized)
  · intro isRealized
    rcases isRealized with ⟨pattern, isPrefix, outer, count, below, spelled⟩
    rcases List.append_of_mem isPrefix with ⟨passed, deeper, split⟩
    rcases shape_of_repeatedPrefixes split with ⟨around, array, shape, _, aroundCount⟩
    have full : outer.length = passed.length := by
      rw [shape, markerCount_concat] at count
      omega
    have notEmpty := repeatedPrefixes_ne_nil isTarget.ends
    let stored : Lengths := fun _ => some greatestLength
    let lacking : Lengths := fun other => if other = name then none else some greatestLength
    refine ⟨stored, lacking, fun other isOther => by simp [stored, lacking, isOther], ?_⟩
    intro same
    rcases realize_outcome notEmpty stored with ⟨realization, isRealized, _⟩ |
      ⟨_, ⟨_, _, _, _, _, _, _, isMissing⟩, _⟩
    · rcases realize_outcome notEmpty lacking with ⟨_, _, lacksNone, _⟩ | ⟨_, _, fails⟩
      · -- Then the row would have the entry, whose length is the one that is missing.
        have areGreatest : ∀ other length, lacking other = some length →
            length = greatestLength := by
          intro other length isStored
          by_cases isName : other = name
          · simp [lacking, isName] at isStored
          · simp only [lacking, isName, if_false, Option.some.injEq] at isStored
            exact isStored.symm
        have isOuter := realizes_of_lacksNone areGreatest lacksNone split full below
        exact lacksNone ⟨name, passed, pattern, deeper, outer, split, isOuter, spelled.symm,
          by simp [lacking]⟩
      · rw [isRealized, fails] at same
        cases same
    · cases isMissing

end Realizing

/-- No entry on the path stands at the greatest position. -/
def IsReachable (path : FieldPath) : Prop :=
  ∀ segment ∈ path, segment.index ≠ .entry (positionBound - 1)

theorem isRealizedLength_toText_iff {target path : FieldPath} (isTarget : target.IsTarget)
    (valid : path.IsValid) (isConcrete : path.IsConcrete) :
    target.IsRealizedLength path.toText ↔
      target.repeatedPrefixes.any path.isLengthColumnOf = true ∧ path.IsReachable := by
  rw [List.any_eq_true]
  constructor
  · intro isRealized
    rcases isRealized with ⟨pattern, isPrefix, tuple, count, below, spelled⟩
    rcases List.append_of_mem isPrefix with ⟨passed, deeper, split⟩
    rcases shape_of_repeatedPrefixes split with ⟨outer, name, shape, isOuterPrefix, _⟩
    rw [shape] at isOuterPrefix isPrefix count spelled
    rcases isPattern_of_prefix isTarget isOuterPrefix with ⟨outerPattern, patternValid⟩
    have full : tuple.length = outer.markerCount := by
      rw [markerCount_concat] at count
      omega
    have bounded : ∀ position ∈ tuple, position < positionBound :=
      fun position member => Nat.lt_of_succ_lt (below position member)
    rw [lengthColumnName_concat outerPattern name full] at spelled
    have isPath := toText_injective (isValid_lengthPath patternValid outerPattern bounded) valid
      spelled
    rw [← isPath]
    refine ⟨⟨_, isPrefix, isLengthColumnOf_withIndices outerPattern name full⟩, ?_⟩
    intro segment member isLast
    rcases List.mem_append.mp member with isInside | isEnd
    · rcases mem_withIndices isInside with ⟨original, isOriginal, _, isIndex⟩
      rcases isIndex with sameIndex | ⟨position, isPosition, isEntry⟩
      · rcases outerPattern original isOriginal with isPlain | isMarker
        · rw [isLast, isPlain] at sameIndex
          cases sameIndex
        · rw [isLast, isMarker] at sameIndex
          cases sameIndex
      · rw [isLast] at isEntry
        cases isEntry
        have isBelow := below _ isPosition
        omega
    · rw [List.mem_singleton.mp isEnd] at isLast
      cases isLast
  · intro found
    rcases found with ⟨⟨pattern, isPrefix, isLength⟩, isReachable⟩
    rcases List.append_of_mem isPrefix with ⟨passed, deeper, split⟩
    rcases shape_of_repeatedPrefixes split with ⟨outer, name, shape, isOuterPrefix, _⟩
    rw [shape] at isOuterPrefix isLength isPrefix
    rcases isPattern_of_prefix isTarget isOuterPrefix with ⟨outerPattern, _⟩
    rcases eq_of_isLengthColumnOf isConcrete outerPattern isLength with ⟨tuple, full, isPath⟩
    rw [isPath] at valid isReachable ⊢
    refine ⟨_, isPrefix, tuple, by rw [markerCount_concat, full], ?_,
      lengthColumnName_concat outerPattern name full⟩
    intro position member
    have isBelow := lt_of_isValid_withIndices_append outerPattern full valid position member
    rcases exists_entry_of_mem outerPattern full member with ⟨segment, isSegment, isEntry⟩
    have notLast := isReachable segment (List.mem_append_left _ isSegment)
    rw [isEntry] at notLast
    have isOther : position ≠ positionBound - 1 := fun isLast => notLast (by rw [isLast])
    omega

/-- Of the lengths that are dropped a row is realized by those that are not inside an entry at the
greatest position. -/
theorem readsLength_toText_iff {target path : FieldPath} (isTarget : target.IsTarget)
    (valid : path.IsValid) (isConcrete : path.IsConcrete) :
    target.ReadsLength path.toText ↔
      target.repeatedPrefixes.any path.isLengthColumnOf = true ∧ path.IsReachable :=
  (readsLength_iff isTarget).trans (isRealizedLength_toText_iff isTarget valid isConcrete)

/-! ## Patterns -/

/-- Matching a path against a pattern and building one from it are inverse to each other, and so are
the tests for the length of an array and the making of its path.  So planning the columns drops
exactly the lengths under the names that are made for entries.  Of these a row is realized by those
that are inside no entry at the greatest position, and by nothing else. -/
theorem matchesInstances_and_dropped_iff {pattern : FieldPath} (isPattern : pattern.IsPattern) :
    pattern.MatchesInstances ∧
    (pattern.IsTarget →
      (∀ path : FieldPath, path.IsValid → path.IsConcrete →
        (pattern.repeatedPrefixes.any path.isLengthColumnOf = true ↔
          pattern.IsFlattenedLength path.toText) ∧
        (pattern.ReadsLength path.toText ↔
          pattern.repeatedPrefixes.any path.isLengthColumnOf = true ∧ path.IsReachable)) ∧
      ∀ left right : Lengths,
        (∀ name, pattern.ReadsLength name → left name = right name) →
          realize pattern.repeatedPrefixes left = realize pattern.repeatedPrefixes right) := by
  refine ⟨matchesInstances isPattern, ?_⟩
  intro isTarget
  constructor
  · intro path valid isConcrete
    exact ⟨(isFlattenedLength_iff isTarget valid isConcrete).symm,
      readsLength_toText_iff isTarget valid isConcrete⟩
  · intro left right agree
    apply realize_congr
    intro name isRealized
    exact agree name ((readsLength_iff isTarget).mpr isRealized)

theorem isConcrete_of_all {path : FieldPath} (noMarker : (path.all (·.index != .all)) = true) :
    path.IsConcrete := by
  intro segment member
  exact bne_iff_ne.mp (List.all_eq_true.mp noMarker segment member)

/-- The arrays `c` inside the objects `b` of the entries of `a`. -/
def mixedPattern : FieldPath :=
  [⟨"a", .all⟩, ⟨"b", .none⟩, ⟨"c", .all⟩]

theorem isTarget_mixedPattern : mixedPattern.IsTarget := by
  have isValid : mixedPattern.IsValid := isValid_of_read (by decide +kernel :
    read "a[*].b.c[*]" = .ok mixedPattern)
  refine ⟨isValid, ?_, by decide⟩
  unfold IsPattern
  decide

theorem matchesInstances_and_dropped_iff_mixedPattern :
    mixedPattern.IsPattern ∧ mixedPattern.IsTarget ∧
      matchPrefix [⟨"a", .entry 1⟩, ⟨"b", .none⟩, ⟨"c", .entry 2⟩, ⟨"d", .none⟩] mixedPattern =
        some ([1, 2], [⟨"d", .none⟩]) ∧
      mixedPattern.ReadsLength "a[4].b.c[length]" ∧
      ¬ mixedPattern.IsFlattenedLength "a[4].b[length]" := by
  rcases matchesInstances_and_dropped_iff isTarget_mixedPattern.isPattern with ⟨inverse, ofTarget⟩
  have ofPath := (ofTarget isTarget_mixedPattern).1
  refine ⟨isTarget_mixedPattern.isPattern, isTarget_mixedPattern, ?_, ?_, ?_⟩
  · exact inverse.finds [1, 2] [⟨"d", .none⟩] rfl
  · have isRead : read "a[4].b.c[length]" =
        .ok [⟨"a", .entry 4⟩, ⟨"b", .none⟩, ⟨"c", .length⟩] := by
      decide +kernel
    rcases ofPath _ (isValid_of_read isRead) (isConcrete_of_all rfl) with ⟨_, readsIff⟩
    refine readsIff.mpr ⟨by decide +kernel, ?_⟩
    unfold IsReachable
    decide
  · have isRead : read "a[4].b[length]" = .ok [⟨"a", .entry 4⟩, ⟨"b", .length⟩] := by
      decide +kernel
    rcases ofPath _ (isValid_of_read isRead) (isConcrete_of_all rfl) with ⟨droppedIff, _⟩
    intro isLength
    exact absurd (droppedIff.mpr isLength) (by decide +kernel)

/-- The arrays `b` inside the entries of `a`. -/
def nestedPattern : FieldPath :=
  [⟨"a", .all⟩, ⟨"b", .all⟩]

/-- The length of the array inside the entry at the greatest position. -/
def lastEntryLength : FieldPath :=
  [⟨"a", .entry 4294967295⟩, ⟨"b", .length⟩]

/-- No row has an entry at the greatest position, but a length inside such an entry is dropped. -/
theorem lastEntryLength_dropped_and_unread :
    nestedPattern.IsTarget ∧ read "a[4294967295].b[length]" = .ok lastEntryLength ∧
      nestedPattern.repeatedPrefixes.any lastEntryLength.isLengthColumnOf = true ∧
      ¬ nestedPattern.ReadsLength "a[4294967295].b[length]" := by
  have isRead : read "a[4294967295].b[length]" = .ok lastEntryLength := by
    decide +kernel
  have isPattern : nestedPattern.IsPattern := by
    unfold IsPattern
    decide
  have isTarget : nestedPattern.IsTarget :=
    ⟨isValid_of_read (by decide +kernel : read "a[*].b[*]" = .ok nestedPattern), isPattern,
      by decide⟩
  have isConcrete : lastEntryLength.IsConcrete := isConcrete_of_all rfl
  refine ⟨isTarget, isRead, by decide +kernel, ?_⟩
  intro reads
  have readsIff := readsLength_toText_iff isTarget (isValid_of_read isRead) isConcrete
  exact (readsIff.mp reads).2 _ List.mem_cons_self rfl

end FieldPath

end Unnest
