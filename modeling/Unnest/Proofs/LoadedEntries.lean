import Unnest.Proofs.RowCounts
import Unnest.Proofs.ShardIntegrity

/-!
# The entries of loaded documents

A document has entries of its own, by the lengths of its arrays (`Json.lengths`).  The shard that it
is loaded into stores these lengths, but one that no document of the shard has is not stored at all.
So the row of a document has exactly the entries of the document, and what can be missing is only a
length that one of them needs next: the document has none there, and neither has any other in the
shard.
-/

namespace Unnest

/-! ## Paths of lengths -/

namespace FieldPath

/-- A prefix that ends in all entries of an array begins the path, and the prefixes before it are as
many as the markers around the array. -/
theorem shape_of_repeatedPrefixes {target pattern : FieldPath} {passed deeper : List FieldPath}
    (shape : target.repeatedPrefixes = passed ++ pattern :: deeper) :
    ∃ (outer : FieldPath) (name : String), pattern = outer ++ [⟨name, .all⟩] ∧
      pattern <+: target ∧ outer.markerCount = passed.length := by
  induction target generalizing passed pattern deeper with
  | nil => simp [repeatedPrefixes] at shape
  | cons segment rest inductionHypothesis =>
      have below {passed' deeper' : List FieldPath} {pattern' : FieldPath}
          (restShape : (repeatedPrefixes rest).map (segment :: ·) =
            passed' ++ pattern' :: deeper') :
          ∃ (outer : FieldPath) (name : String),
            pattern' = (segment :: outer) ++ [⟨name, .all⟩] ∧ pattern' <+: segment :: rest ∧
              outer.markerCount = passed'.length := by
        obtain ⟨before, others, isSplit, isBefore, areOthers⟩ := List.map_eq_append_iff.mp restShape
        obtain ⟨found, after, isFound, isPattern, isAfter⟩ := List.map_eq_cons_iff.mp areOthers
        rw [isFound] at isSplit
        obtain ⟨outer, name, isOuter, isPrefix, count⟩ := inductionHypothesis isSplit
        refine ⟨outer, name, ?_, ?_, ?_⟩
        · rw [← isPattern, isOuter, List.cons_append]
        · rw [← isPattern]
          exact List.cons_prefix_cons.mpr ⟨rfl, isPrefix⟩
        · rw [count, ← isBefore, List.length_map]
      rw [repeatedPrefixes] at shape
      by_cases isMarker : segment.index = .all
      · rw [if_pos isMarker] at shape
        cases passed with
        | nil =>
            obtain ⟨isFirst, _⟩ := List.cons.inj shape
            refine ⟨[], segment.name, ?_, ?_, rfl⟩
            · rw [← isFirst, ← isMarker]
              rfl
            · rw [← isFirst]
              exact List.prefix_append [segment] rest
        | cons first others =>
            obtain ⟨_, restShape⟩ := List.cons.inj shape
            obtain ⟨outer, name, isOuter, isPrefix, count⟩ := below restShape
            refine ⟨segment :: outer, name, isOuter, isPrefix, ?_⟩
            rw [List.length_cons, ← count, markerCount, List.countP_cons, isMarker]
            rfl
      · rw [if_neg isMarker] at shape
        obtain ⟨outer, name, isOuter, isPrefix, count⟩ := below shape
        refine ⟨segment :: outer, name, isOuter, isPrefix, ?_⟩
        rw [← count, markerCount, List.countP_cons]
        simp [isMarker, markerCount]

theorem withIndices_nil (path : FieldPath) : path.withIndices [] = path := by
  induction path with
  | nil => rfl
  | cons segment rest inductionHypothesis =>
      rw [withIndices.eq_def]
      cases segment.index <;> simp [inductionHypothesis]

/-- Positions for all markers of a pattern leave what follows as it is. -/
theorem withIndices_append {pattern : FieldPath} (isPattern : pattern.IsPattern)
    {tuple : IndexTuple} (full : tuple.length = pattern.markerCount) (rest : FieldPath) :
    (pattern ++ rest).withIndices tuple = pattern.withIndices tuple ++ rest := by
  induction pattern generalizing tuple with
  | nil =>
      rw [List.length_eq_zero_iff.mp full, List.nil_append, withIndices_nil]
      rfl
  | cons segment others inductionHypothesis =>
      obtain ⟨name, index⟩ := segment
      rcases isPattern.head with isPlain | isMarker
      · cases isPlain
        have inRest := inductionHypothesis isPattern.tail (by simpa [markerCount] using full)
        simp [withIndices, inRest]
      · cases isMarker
        cases tuple with
        | nil => simp [markerCount] at full
        | cons position more =>
            have inRest : withIndices (others ++ rest) more = withIndices others more ++ rest :=
              inductionHypothesis isPattern.tail (by simpa [markerCount] using full)
            simp [withIndices, inRest]

/-- The text is that of a valid path to a length. -/
def IsLengthName (name : String) : Prop :=
  ∃ path : FieldPath, path.IsValid ∧ path.isLengthColumn = true ∧ path.toText = name

theorem isValid_lengthPath {outer : FieldPath} {name : String} {index : PathIndex}
    (valid : IsValid (outer ++ [⟨name, index⟩])) (isPattern : outer.IsPattern)
    {tuple : IndexTuple} (bounded : ∀ position ∈ tuple, position < positionBound) :
    IsValid (outer.withIndices tuple ++ [⟨name, .length⟩]) := by
  have named := valid.segments ⟨name, index⟩ (by simp)
  have lengthValid : PathSegment.IsValid ⟨name, .length⟩ := ⟨named.named, named.plain, by simp⟩
  have isRest : IsRest [⟨name, .length⟩] := ⟨List.forall_mem_singleton.mpr lengthValid, by simp⟩
  cases outer with
  | nil => exact ⟨by simp [withIndices], isRest.segments, isRest.lengthLast⟩
  | cons first others =>
      have outerValid : IsValid (first :: others) := by
        refine ⟨by simp, ?_, ?_⟩
        · exact fun segment member => valid.segments segment (List.mem_append_left _ member)
        · exact fun segment member =>
            isPattern.index_ne_length ((List.dropLast_sublist _).mem member)
      exact isValid_withIndices_append outerValid isPattern bounded isRest

/-- What is before the last marker of a prefix of a target is a pattern, and the prefix is valid. -/
theorem isPattern_of_prefix {target outer : FieldPath} {name : String} (isTarget : target.IsTarget)
    (isPrefix : outer ++ [⟨name, .all⟩] <+: target) :
    outer.IsPattern ∧ IsValid (outer ++ [⟨name, .all⟩]) := by
  have outerPattern : outer.IsPattern := fun segment member =>
    isTarget.isPattern segment (isPrefix.subset (List.mem_append_left _ member))
  refine ⟨outerPattern, by simp, ?_, ?_⟩
  · exact fun segment member => isTarget.valid.segments segment (isPrefix.subset member)
  · intro segment member
    rw [List.dropLast_concat] at member
    exact outerPattern.index_ne_length member

theorem lengthColumnName_concat {outer : FieldPath} (isPattern : outer.IsPattern) (name : String)
    {tuple : IndexTuple} (full : tuple.length = outer.markerCount) :
    lengthColumnName (outer ++ [⟨name, .all⟩]) tuple =
      toText (outer.withIndices tuple ++ [⟨name, .length⟩]) := by
  rw [lengthColumnName, withIndices_append isPattern full, lengthColumn, withLastIndex_concat]

/-- The length that an entry of a target needs next has a valid path. -/
theorem isLengthName_lengthColumnName {target pattern : FieldPath} (isTarget : target.IsTarget)
    {passed deeper : List FieldPath}
    (shape : target.repeatedPrefixes = passed ++ pattern :: deeper) {tuple : IndexTuple}
    (full : tuple.length = passed.length) (bounded : ∀ position ∈ tuple, position < positionBound) :
    IsLengthName (lengthColumnName pattern tuple) := by
  obtain ⟨outer, name, rfl, isPrefix, count⟩ := shape_of_repeatedPrefixes shape
  obtain ⟨outerPattern, patternValid⟩ := isPattern_of_prefix isTarget isPrefix
  exact ⟨_, isValid_lengthPath patternValid outerPattern bounded, by simp [isLengthColumn],
    (lengthColumnName_concat outerPattern name (full.trans count.symm)).symm⟩

end FieldPath

/-! ## Lengths of documents -/

namespace Json

/-- Only longs stand at paths to lengths. -/
theorem exists_long_of_cellAt? {path : FieldPath} (endsAtLength : path.isLengthColumn = true)
    {value : Json} (plain : value.Everywhere HasPlainParts) (regular : value.IsRegular)
    {found : Value} (isCell : value.cellAt? path = some found) :
    ∃ length, found = .long length := by
  induction path generalizing value with
  | nil => cases endsAtLength
  | cons segment rest inductionHypothesis =>
      obtain ⟨inner, isInner, isThere⟩ := Option.bind_eq_some_iff.mp isCell
      obtain ⟨field, isField, isIndexed⟩ := Option.bind_eq_some_iff.mp isInner
      cases value with
      | object fields =>
          have isMember := OrderedMap.mem_of_find? isField
          have fieldPlain := ((everywhere_object _ _).mp plain).2 _ isMember
          have fieldRegular := ((everywhere_object _ _).mp regular).2 _ isMember
          cases rest with
          | nil =>
              have isLength : segment.index = .length := by
                simpa [FieldPath.isLengthColumn] using endsAtLength
              rw [isLength] at isIndexed
              cases field with
              | array items =>
                  cases isIndexed
                  have short : items.length < FieldPath.positionBound :=
                    ((everywhere_array _ _).mp fieldRegular).1
                  rw [cellAt?, scalar?, integerValue_length short] at isThere
                  cases isThere
                  exact ⟨_, rfl⟩
              | _ => cases isIndexed
          | cons next others =>
              have innerMeets := (indexed?_eq_some fieldPlain fieldRegular isIndexed).1
              have restEnds : FieldPath.isLengthColumn (next :: others) = true := by
                rwa [FieldPath.isLengthColumn, List.getLast?_cons_cons] at endsAtLength
              exact inductionHypothesis restEnds innerMeets.1 innerMeets.2 isThere
      | _ => cases isField

/-- The length that a document has under a name; zero if it has none. -/
def lengthNamed (document : Json) (name : String) : Int64 :=
  match FieldPath.read name with
  | .ok path =>
      match document.cellAt? path with
      | some (.long length) => length
      | _ => 0
  | .error _ => 0

theorem lengthNamed_toText (document : Json) {path : FieldPath} (valid : path.IsValid) :
    document.lengthNamed path.toText =
      match document.cellAt? path with
      | some (.long length) => length
      | _ => 0 := by
  rw [lengthNamed, FieldPath.read_toText valid]

/-- The lengths of a document, where every array that it does not have is empty. -/
def lengths (document : Json) : Lengths :=
  fun name => some (document.lengthNamed name)

/-- The number of output rows that a document stands for. -/
def factorAt (document : Json) (prefixes : List FieldPath) : Nat :=
  match realize prefixes document.lengths with
  | .ok realization => realization.factor
  | .error _ => 0

theorem exists_realization (document : Json) {prefixes : List FieldPath}
    (notEmpty : prefixes ≠ []) :
    ∃ realization, realize prefixes document.lengths = .ok realization ∧
      ∀ tuple, tuple ∈ realization.leaf ↔ Realizes document.lengths prefixes tuple := by
  rcases realize_outcome notEmpty document.lengths with
    ⟨realization, isRealized, _, members⟩ | ⟨_, ⟨_, _, _, _, _, _, _, isMissing⟩, _⟩
  · exact ⟨realization, isRealized, members⟩
  · cases isMissing

end Json

/-! ## Agreeing lengths -/

/-- A row that has entries at all has some of the outermost array. -/
theorem Realizes.exists_root {lengths : Lengths} {passed : List FieldPath} {tuple : IndexTuple}
    (realized : Realizes lengths passed tuple) {root : FieldPath} {deeper : List FieldPath}
    (shape : passed = root :: deeper) :
    ∃ length, lengths (lengthColumnName root []) = some length ∧ 0 < entryCount length := by
  induction realized generalizing deeper with
  | root => cases shape
  | @entry before pattern outer length position isOuter isStored below inductionHypothesis =>
      cases before with
      | nil =>
          obtain ⟨rfl, _⟩ := List.cons.inj shape
          rw [Realizes.nil_iff.mp isOuter] at isStored
          exact ⟨length, isStored, Nat.zero_lt_of_lt below⟩
      | cons first others =>
          obtain ⟨rfl, _⟩ := List.cons.inj shape
          exact inductionHypothesis rfl

theorem realizeLevel_congr {lengths others : Lengths} {pattern : FieldPath}
    {outers : List IndexTuple} (same : ∀ outer ∈ outers,
      lengths (lengthColumnName pattern outer) = others (lengthColumnName pattern outer)) :
    realizeLevel lengths pattern outers = realizeLevel others pattern outers := by
  induction outers with
  | nil => rfl
  | cons outer rest inductionHypothesis =>
      have restSame := inductionHypothesis fun later member =>
        same later (List.mem_cons_of_mem _ member)
      rw [realizeLevel, realizeLevel, realizeInside, realizeInside, same outer List.mem_cons_self,
        restSame]

/-- Lengths that agree wherever an entry needs one realize the same entries. -/
theorem realizeBelow_congr {lengths others : Lengths} {deeper passed : List FieldPath}
    {outers : List IndexTuple} (enumerated : Enumerates lengths passed outers)
    (same : ∀ between pattern later outer, deeper = between ++ pattern :: later →
      Realizes lengths (passed ++ between) outer →
      lengths (lengthColumnName pattern outer) = others (lengthColumnName pattern outer)) :
    realizeBelow lengths outers deeper = realizeBelow others outers deeper := by
  -- Going down one prefix, the outer entries stay all those that are realized so far.
  induction deeper generalizing passed outers with
  | nil => rfl
  | cons first rest inductionHypothesis =>
      have sameLevel : realizeLevel lengths first outers = realizeLevel others first outers := by
        apply realizeLevel_congr
        intro outer isOuter
        have realized := (enumerated outer).mp isOuter
        exact same [] first rest outer rfl (by rwa [List.append_nil])
      rw [realizeBelow, realizeBelow, ← sameLevel]
      rcases realizeLevel_outcome lengths first outers with ⟨level, isLevel, _, members⟩ |
        ⟨outer, _, _, fails⟩
      · have levelEnumerated : Enumerates lengths (passed ++ [first]) level := by
          intro tuple
          rw [members, Realizes.concat_iff]
          simp only [enumerated _]
        have restSame : realizeBelow lengths level rest = realizeBelow others level rest := by
          apply inductionHypothesis levelEnumerated
          intro between pattern later outer shape realized
          refine same (first :: between) pattern later outer (by rw [shape]; rfl) ?_
          rwa [List.append_assoc] at realized
        rw [isLevel]
        dsimp only
        rw [restSame]
      · rw [fails]

/-- The stored lengths are those of a document, except that zeros may be missing. -/
def Lengths.AreOf (lengths : Lengths) (document : Json) : Prop :=
  ∀ name, FieldPath.IsLengthName name →
    lengths name = document.lengths name ∨ lengths name = none ∧ document.lengthNamed name = 0

section AreOf

variable {lengths : Lengths} {document : Json} (areOf : lengths.AreOf document)
  {target : FieldPath} (isTarget : target.IsTarget)

include isTarget

theorem Realizes.isLengthName {passed deeper : List FieldPath} {pattern : FieldPath}
    {tuple : IndexTuple} (realized : Realizes lengths passed tuple)
    (shape : target.repeatedPrefixes = passed ++ pattern :: deeper) :
    FieldPath.IsLengthName (lengthColumnName pattern tuple) :=
  FieldPath.isLengthName_lengthColumnName isTarget shape realized.length_eq realized.position_lt

include areOf

/-- A zero makes no entries, so it does not matter whether it is stored. -/
theorem Realizes.iff_of_areOf {passed deeper : List FieldPath}
    (shape : target.repeatedPrefixes = passed ++ deeper) (tuple : IndexTuple) :
    Realizes lengths passed tuple ↔ Realizes document.lengths passed tuple := by
  constructor
  · intro realized
    induction realized generalizing deeper with
    | root => exact .root
    | @entry before pattern outer length position isOuter isStored below inductionHypothesis =>
        rw [List.append_assoc, List.singleton_append] at shape
        refine .entry (inductionHypothesis shape) ?_ below
        rcases areOf _ (isOuter.isLengthName isTarget shape) with same | ⟨isMissing, _⟩
        · rw [← same, isStored]
        · rw [isMissing] at isStored
          cases isStored
  · intro realized
    induction realized generalizing deeper with
    | root => exact .root
    | @entry before pattern outer length position isOuter isStored below inductionHypothesis =>
        rw [List.append_assoc, List.singleton_append] at shape
        refine .entry (inductionHypothesis shape) ?_ below
        rcases areOf _ (isOuter.isLengthName isTarget shape) with same | ⟨_, isZero⟩
        · rw [same, isStored]
        · cases isStored
          rw [isZero] at below
          exact absurd below (Nat.not_lt_zero _)

theorem realize_eq_of_areOf
    (nothingLacks : ¬ ∃ name, LacksLength lengths target.repeatedPrefixes name) :
    realize target.repeatedPrefixes lengths = realize target.repeatedPrefixes document.lengths := by
  have rootEnumerated : Enumerates lengths [] [[]] := by
    intro tuple
    rw [List.mem_singleton, Realizes.nil_iff]
  have same : realizeBelow lengths [[]] target.repeatedPrefixes =
      realizeBelow document.lengths [[]] target.repeatedPrefixes := by
    apply realizeBelow_congr rootEnumerated
    intro between pattern later outer shape realized
    rw [List.nil_append] at realized
    rcases areOf _ (realized.isLengthName isTarget shape) with same | ⟨isMissing, _⟩
    · exact same
    · exact absurd ⟨_, between, pattern, later, outer, shape, realized, rfl, isMissing⟩ nothingLacks
  rw [realize, realize, same]

/-- Where the length of the outermost array is missing, the document has no entries. -/
theorem factorAt_eq_zero_of_lacksRoot {root : FieldPath} {deeper : List FieldPath}
    (shape : target.repeatedPrefixes = root :: deeper)
    (isMissing : lengths (lengthColumnName root []) = none) :
    document.factorAt target.repeatedPrefixes = 0 := by
  obtain ⟨realization, isRealized, members⟩ := document.exists_realization
    (FieldPath.repeatedPrefixes_ne_nil isTarget.ends)
  have noEntry : realization.leaf = [] := by
    apply List.eq_nil_iff_forall_not_mem.mpr
    intro tuple isEntry
    have atRoot : target.repeatedPrefixes = target.repeatedPrefixes ++ [] :=
      (List.append_nil _).symm
    have realized := (Realizes.iff_of_areOf areOf isTarget atRoot tuple).mpr
      ((members tuple).mp isEntry)
    obtain ⟨length, isStored, _⟩ := realized.exists_root shape
    rw [isMissing] at isStored
    cases isStored
  rw [Json.factorAt, isRealized]
  exact congrArg List.length noEntry

end AreOf

/-! ## Loaded shards -/

theorem total_range_eq {α : Type} {counts : Nat → Nat} {count : α → Nat} {items : List α}
    (same : ∀ index item, items[index]? = some item → counts index = count item) :
    total counts (List.range items.length) = total count items := by
  induction items using List.reverseRecOn with
  | nil => rfl
  | append_singleton rest last inductionHypothesis =>
      have restSame : ∀ index item, rest[index]? = some item → counts index = count item := by
        intro index item isItem
        have below := (List.getElem?_eq_some_iff.mp isItem).1
        exact same index item (by rw [List.getElem?_append_left below, isItem])
      rw [List.length_append, List.length_singleton, List.range_succ, total_append, total_append,
        inductionHypothesis restSame]
      simp [same rest.length last (by simp)]

theorem Json.isConcrete_of_cellAt? {path : FieldPath} {value : Json} {found : Value}
    (isCell : value.cellAt? path = some found) : path.IsConcrete := by
  induction path generalizing value with
  | nil => simp [FieldPath.IsConcrete]
  | cons segment rest inductionHypothesis =>
      obtain ⟨inner, isInner, isThere⟩ := Option.bind_eq_some_iff.mp isCell
      obtain ⟨field, _, isIndexed⟩ := Option.bind_eq_some_iff.mp isInner
      refine List.forall_mem_cons.mpr ⟨?_, inductionHypothesis isThere⟩
      intro isMarker
      rw [isMarker] at isIndexed
      cases field <;> cases isIndexed

theorem ScalarType.unionOf_eq_long {kinds : List ScalarType}
    (longs : ∀ kind ∈ kinds, kind = .long) : unionOf kinds = .long := by
  have noText : .text ∉ kinds := fun isThere => by cases longs _ isThere
  have noDouble : .double ∉ kinds := fun isThere => by cases longs _ isThere
  rw [unionOf, if_neg noText, if_neg noDouble]

namespace Document

theorem length_of_cellsOfAll {firstRow : Int} {documents : List Json} {rows : List (List Cell)}
    (found : cellsOfAll firstRow documents = .ok rows) : rows.length = documents.length := by
  induction documents generalizing firstRow rows with
  | nil =>
      cases found
      rfl
  | cons document rest inductionHypothesis =>
      rw [cellsOfAll] at found
      split at found
      · cases found
      · split at found
        · cases found
        · rename_i others areOthers
          cases found
          rw [List.length_cons, List.length_cons, inductionHypothesis areOthers]

theorem rowCount_columnFor (settings : FlattenSettings) (lowestRow : Int) (path : FieldPath)
    (cells : List (Option Value)) :
    (columnFor settings lowestRow path cells).rowCount = cells.length :=
  (Column.isWellFormed_ofScalars _ lowestRow _ _).covers.trans (List.length_map _)

/-- A loaded shard has a row for every document, unless it has no columns and so no rows. -/
theorem rowCount_of_loadShard {settings : FlattenSettings} {table : String} {lowestRow : Int}
    {documents : List Json} {shard : Shard}
    (loads : loadShard settings table lowestRow documents = .ok shard) :
    shard.lowestRow = lowestRow ∧
      (shard.columns = [] ∧ shard.rowCount = 0 ∨ shard.rowCount = documents.length) := by
  rw [loadShard] at loads
  split at loads
  · cases loads
  · rename_i rows areRows
    split at loads
    · cases loads
    · rename_i columns areColumns
      have assembled := Shard.isAssembledFrom_of_assemble loads
      refine ⟨assembled.lowestRow, ?_⟩
      cases columns with
      | nil => exact Or.inl ⟨assembled.columns, assembled.rowCount rfl⟩
      | cons first others =>
          have outcome := columnsAt_outcome settings lowestRow (rows.map rowOfCells)
            (columnNames (rows.map rowOfCells))
          rw [areColumns] at outcome
          cases outcome with
          | success _ isMap =>
              have isFirst : first ∈ first :: others := List.mem_cons_self
              have sameCount := assembled.aligned first isFirst
              rw [isMap] at isFirst
              obtain ⟨name, _, rfl⟩ := List.mem_map.mp isFirst
              right
              rw [← sameCount, rowCount_columnFor, List.length_map, List.length_map,
                length_of_cellsOfAll areRows]

/-- The documents can be loaded as this shard. -/
structure AreLoadedAs (settings : FlattenSettings) (lowestRow : Int) (documents : List Json)
    (shard : Shard) : Prop where
  regular : ∀ document ∈ documents, document.IsRegular
  loadable : ∀ document ∈ documents, document.IsLoadable
  isLoadedFrom : IsLoadedFrom settings lowestRow documents shard
  intact : shard.IsIntact
  lowestRow : shard.lowestRow = lowestRow
  rowCount : shard.columns = [] ∧ shard.rowCount = 0 ∨ shard.rowCount = documents.length

theorem areLoadedAs_of_loadShard {settings : FlattenSettings} {table : String} {lowestRow : Int}
    {documents : List Json} (regular : ∀ document ∈ documents, document.IsRegular) {shard : Shard}
    (loads : loadShard settings table lowestRow documents = .ok shard) :
    AreLoadedAs settings lowestRow documents shard := by
  have outcome := loadShard_succeedsIff settings table lowestRow regular
  have intact := isIntact_of_loadShard loads
  obtain ⟨isLowest, rowCount⟩ := rowCount_of_loadShard loads
  rw [loads] at outcome
  cases outcome with
  | success holds isLoadedFrom => exact ⟨regular, holds.1, isLoadedFrom, intact, isLowest, rowCount⟩

/-- Some document has a cell under the name. -/
def HasCellNamed (documents : List Json) (name : String) : Prop :=
  ∃ path, IsCellPath documents path ∧ path.toText = name

namespace AreLoadedAs

variable {settings : FlattenSettings} {lowestRow : Int} {documents : List Json} {shard : Shard}
  (areLoadedAs : AreLoadedAs settings lowestRow documents shard)

include areLoadedAs

theorem isValid {path : FieldPath} (isCellPath : IsCellPath documents path) : path.IsValid :=
  isCellPath.isValid areLoadedAs.loadable areLoadedAs.regular

theorem column?_eq_none_iff (name : String) :
    shard.column? name = none ↔ ¬ HasCellNamed documents name := by
  rw [HasCellNamed, ← areLoadedAs.isLoadedFrom.names name, Option.not_isSome_iff_eq_none]

theorem isWellFormed : shard.IsWellFormed := by
  refine ⟨areLoadedAs.intact.ordered, ?_, ?_⟩
  · intro entry isEntry
    have isColumn : shard.column? entry.1 = some entry.2 :=
      (OrderedMap.find?_eq_some_iff_mem areLoadedAs.intact.ordered _ _).mpr isEntry
    obtain ⟨path, isCellPath, isName⟩ :=
      (areLoadedAs.isLoadedFrom.names entry.1).mp (by rw [isColumn]; rfl)
    have valid := areLoadedAs.isValid isCellPath
    obtain ⟨document, _, isThere⟩ := isCellPath
    obtain ⟨value, isCell⟩ := Option.isSome_iff_exists.mp isThere
    exact ⟨path, valid, Json.isConcrete_of_cellAt? isCell, isName⟩
  · intro entry isEntry
    exact (areLoadedAs.intact.columns entry isEntry).toIsWellFormed

theorem exists_long_of_cellAt? {path : FieldPath} (endsAtLength : path.isLengthColumn = true)
    {document : Json} (isMember : document ∈ documents) {value : Value}
    (isCell : document.cellAt? path = some value) : ∃ length, value = .long length :=
  Json.exists_long_of_cellAt? endsAtLength (areLoadedAs.loadable document isMember).plain
    (areLoadedAs.regular document isMember) isCell

/-- Under the name of a length that some document has, a row stores the length of its document. -/
theorem lengthsAt_of_isCellPath {path : FieldPath} (isCellPath : IsCellPath documents path)
    (endsAtLength : path.isLengthColumn = true) {index : Nat} {document : Json}
    (isDocument : documents[index]? = some document) :
    RowLayout.lengthsAt shard (lowestRow + index) path.toText = document.lengths path.toText := by
  have isLong {other : Json} (isMember : other ∈ documents) {value : Value}
      (isCell : other.cellAt? path = some value) : ∃ length, value = .long length :=
    areLoadedAs.exists_long_of_cellAt? endsAtLength isMember isCell
  obtain ⟨column, isColumn, isKind, values⟩ := areLoadedAs.isLoadedFrom.columns path isCellPath
  have kindIsLong : column.kind = .long := by
    rw [isKind]
    apply ScalarType.unionOf_eq_long
    intro kind isCellKind
    obtain ⟨cell, isCell, hasKind⟩ := List.mem_filterMap.mp isCellKind
    obtain ⟨other, isMember, rfl⟩ := List.mem_map.mp isCell
    obtain ⟨value, isThere, rfl⟩ := Option.map_eq_some_iff.mp hasKind
    obtain ⟨length, rfl⟩ := isLong isMember isThere
    rfl
  have isStored := values index document isDocument
  rw [kindIsLong] at isStored
  rw [RowLayout.lengthsAt, isColumn, Option.bind_some, Column.longAt?, isStored, Json.lengths,
    document.lengthNamed_toText (areLoadedAs.isValid isCellPath)]
  cases isCell : document.cellAt? path with
  | none =>
      rw [shownValue, endsAtLength]
      rfl
  | some value =>
      obtain ⟨length, rfl⟩ := isLong (List.mem_of_getElem? isDocument) isCell
      rfl

theorem hasCellNamed_toText_iff {path : FieldPath} (valid : path.IsValid) :
    HasCellNamed documents path.toText ↔ IsCellPath documents path := by
  constructor
  · rintro ⟨other, isOther, sameText⟩
    rwa [← FieldPath.toText_injective (areLoadedAs.isValid isOther) valid sameText]
  · exact fun isCellPath => ⟨path, isCellPath, rfl⟩

/-- Under the name of a length nothing is stored exactly if no document has it. -/
theorem lengthsAt_eq_none_iff {name : String} (isName : FieldPath.IsLengthName name) {index : Nat}
    {document : Json} (isDocument : documents[index]? = some document) :
    RowLayout.lengthsAt shard (lowestRow + index) name = none ↔ ¬ HasCellNamed documents name := by
  constructor
  · rintro isMissing ⟨path, isCellPath, rfl⟩
    obtain ⟨other, otherValid, endsAtLength, sameText⟩ := isName
    have samePath := FieldPath.toText_injective otherValid (areLoadedAs.isValid isCellPath) sameText
    rw [areLoadedAs.lengthsAt_of_isCellPath isCellPath (samePath ▸ endsAtLength) isDocument]
      at isMissing
    cases isMissing
  · intro noCell
    rw [RowLayout.lengthsAt, (areLoadedAs.column?_eq_none_iff name).mpr noCell]
    rfl

/-- A length that is not stored is none of the document. -/
theorem lengthsAt_areOf {index : Nat} {document : Json}
    (isDocument : documents[index]? = some document) :
    Lengths.AreOf (RowLayout.lengthsAt shard (lowestRow + index)) document := by
  rintro name ⟨path, valid, endsAtLength, rfl⟩
  by_cases isCellPath : IsCellPath documents path
  · exact Or.inl (areLoadedAs.lengthsAt_of_isCellPath isCellPath endsAtLength isDocument)
  · right
    have noCell : document.cellAt? path = none := by
      rw [← Option.not_isSome_iff_eq_none]
      exact fun isThere => isCellPath ⟨document, List.mem_of_getElem? isDocument, isThere⟩
    refine ⟨(areLoadedAs.lengthsAt_eq_none_iff ⟨path, valid, endsAtLength, rfl⟩ isDocument).mpr ?_,
      ?_⟩
    · rwa [areLoadedAs.hasCellNamed_toText_iff valid]
    · rw [document.lengthNamed_toText valid, noCell]

theorem rowCount_eq_of_column? {name : String} (isThere : shard.column? name ≠ none) :
    shard.rowCount = documents.length := by
  rcases areLoadedAs.rowCount with ⟨noColumn, _⟩ | sameCount
  · rw [Shard.column?, noColumn] at isThere
    exact absurd rfl isThere
  · exact sameCount

theorem mem_rowIds_iff {name : String} (isThere : shard.column? name ≠ none) (row : Int) :
    row ∈ shard.rowIds ↔
      ∃ (index : Nat) (document : Json), documents[index]? = some document ∧
        row = lowestRow + index := by
  rw [Shard.mem_rowIds, areLoadedAs.lowestRow, areLoadedAs.rowCount_eq_of_column? isThere]
  constructor
  · rintro ⟨index, below, isRow⟩
    exact ⟨index, documents[index], List.getElem?_eq_getElem below, isRow⟩
  · rintro ⟨index, document, isDocument, isRow⟩
    exact ⟨index, (List.getElem?_eq_some_iff.mp isDocument).1, isRow⟩

variable {target : FieldPath} (isTarget : target.IsTarget)

include isTarget

/-- If no length is missing, the rows of the shard turn into as many output rows as the documents
stand for. -/
theorem total_factorAt
    (nothingLacks : ¬ ∃ name, shard.LacksEntryLength target.repeatedPrefixes name) :
    total (shard.factorAt target.repeatedPrefixes) shard.rowIds =
      total (fun document => document.factorAt target.repeatedPrefixes) documents := by
  obtain ⟨root, deeper, shape⟩ := List.exists_cons_of_ne_nil
    (FieldPath.repeatedPrefixes_ne_nil isTarget.ends)
  cases isRoot : shard.column? (lengthColumnName root []) with
  | none =>
      have noEntry : ∀ row ∈ shard.rowIds, shard.factorAt target.repeatedPrefixes row = 0 := by
        intro row _
        have lacks : RowLayout.lacksRoot shard target.repeatedPrefixes = true := by
          simp [RowLayout.lacksRoot, shape, isRoot]
        rw [← Shard.length_leafEntries, RowLayout.leafEntries_of_lacksRoot lacks]
        rfl
      have noOwnEntry : ∀ document ∈ documents,
          document.factorAt target.repeatedPrefixes = 0 := by
        intro document isMember
        obtain ⟨index, isDocument⟩ := List.mem_iff_getElem?.mp isMember
        apply factorAt_eq_zero_of_lacksRoot (areLoadedAs.lengthsAt_areOf isDocument) isTarget shape
        rw [RowLayout.lengthsAt, isRoot]
        rfl
      rw [total_congr noEntry, total_congr noOwnEntry, total_zero, total_zero]
  | some column =>
      have isThere : shard.column? (lengthColumnName root []) ≠ none := by simp [isRoot]
      have sameFactor : ∀ (index : Nat) (document : Json), documents[index]? = some document →
          shard.factorAt target.repeatedPrefixes (lowestRow + index) =
            document.factorAt target.repeatedPrefixes := by
        intro index document isDocument
        have isRow := (areLoadedAs.mem_rowIds_iff isThere _).mpr ⟨index, document, isDocument, rfl⟩
        have rowLacksNothing : ¬ ∃ name, LacksLength
            (RowLayout.lengthsAt shard (lowestRow + index)) target.repeatedPrefixes name := by
          rintro ⟨name, lacks⟩
          exact nothingLacks
            ⟨name, ⟨root, by rw [shape]; rfl, by rw [isRoot]; rfl⟩, _, isRow, lacks⟩
        rw [Shard.factorAt, realize_eq_of_areOf (areLoadedAs.lengthsAt_areOf isDocument) isTarget
          rowLacksNothing]
        rfl
      rw [Shard.rowIds, total_map, areLoadedAs.rowCount_eq_of_column? isThere,
        areLoadedAs.lowestRow]
      exact total_range_eq sameFactor

end AreLoadedAs

end Document

end Unnest
