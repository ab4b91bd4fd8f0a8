import Unnest.Proofs.LayoutCoverage
import Unnest.Proofs.LoadedEntries

/-!
# The plans account for every column

What becomes of a column is said by its name: it is the length of a flattened array, it is inside an
entry of the target, or it is neither and is kept.  The plans for the columns of a shard read every
column inside one of the entries once, at the place of this entry, and no other column in the place
of one; their outputs have different names.  Planning fails only if types or names clash.
-/

namespace Unnest

namespace FieldPath

/-! ## Names of columns -/

/-- The column is the length of an array of the target, at some entry of the arrays around it. -/
def IsFlattenedLength (target : FieldPath) (name : String) : Prop :=
  ∃ pattern ∈ target.repeatedPrefixes, ∃ outer : IndexTuple,
    outer.length + 1 = pattern.markerCount ∧ (∀ position ∈ outer, position < positionBound) ∧
    lengthColumnName pattern outer = name

/-- The column is inside an entry of the target: its path is that of the entry and a rest. -/
structure IsInsideAt (target : FieldPath) (tuple : IndexTuple) (rest : FieldPath) (name : String) :
    Prop where
  full : tuple.length = target.markerCount
  bounded : ∀ position ∈ tuple, position < positionBound
  isRest : rest.IsRest
  spelled : (target.withIndices tuple ++ rest).toText = name

/-- The column is inside some entry of the target. -/
def IsInside (target : FieldPath) (name : String) : Prop :=
  ∃ tuple rest, target.IsInsideAt tuple rest name

theorem isLengthColumnOf_cons {pattern : FieldPath} (notEmpty : pattern ≠ []) (path : FieldPath)
    (own wanted : PathSegment) :
    isLengthColumnOf (own :: path) (wanted :: pattern) =
      (own.name == wanted.name &&
        (match wanted.index, own.index with
        | .all, .length => false
        | .all, .entry _ => true
        | wantedIndex, ownIndex => wantedIndex == ownIndex) &&
        isLengthColumnOf path pattern) := by
  cases pattern with
  | nil => exact absurd rfl notEmpty
  | cons next others =>
      cases path with
      | nil => rfl
      | cons later more => rfl

/-- A pattern with positions for the markers before its last one is the length of an array. -/
theorem isLengthColumnOf_withIndices {outer : FieldPath} (isPattern : outer.IsPattern)
    (name : String) {tuple : IndexTuple} (full : tuple.length = outer.markerCount) :
    isLengthColumnOf (outer.withIndices tuple ++ [⟨name, .length⟩])
      (outer ++ [⟨name, .all⟩]) = true := by
  induction outer generalizing tuple with
  | nil => simp [withIndices, isLengthColumnOf]
  | cons segment others inductionHypothesis =>
      obtain ⟨own, index⟩ := segment
      rcases isPattern.head with isPlain | isMarker
      · cases isPlain
        have inRest := inductionHypothesis isPattern.tail (by simpa [markerCount] using full)
        simp [withIndices, isLengthColumnOf_cons, inRest]
      · cases isMarker
        cases tuple with
        | nil => simp [markerCount] at full
        | cons position more =>
            have restFull : more.length = markerCount others := by simpa [markerCount] using full
            have inRest := inductionHypothesis isPattern.tail restFull
            simp [withIndices, isLengthColumnOf_cons, inRest]

/-- A concrete path to the length of an array has positions for the markers before the last one. -/
theorem eq_of_isLengthColumnOf {path outer : FieldPath} (isConcrete : path.IsConcrete)
    (isPattern : outer.IsPattern) {name : String}
    (isLength : path.isLengthColumnOf (outer ++ [⟨name, .all⟩]) = true) :
    ∃ tuple : IndexTuple, tuple.length = outer.markerCount ∧
      path = outer.withIndices tuple ++ [⟨name, .length⟩] := by
  induction outer generalizing path with
  | nil =>
      cases path with
      | nil => cases isLength
      | cons own later =>
          obtain ⟨ownName, ownIndex⟩ := own
          cases later with
          | nil =>
              have isOwn : ownName = name ∧ ownIndex = .length := by
                simpa [isLengthColumnOf] using isLength
              exact ⟨[], by simp [markerCount], by simp [withIndices, isOwn]⟩
          | cons next others => simp [isLengthColumnOf] at isLength
  | cons wanted others inductionHypothesis =>
      cases path with
      | nil => cases isLength
      | cons own later =>
          obtain ⟨wantedName, wantedIndex⟩ := wanted
          obtain ⟨ownName, ownIndex⟩ := own
          rw [List.cons_append, isLengthColumnOf_cons (by simp), Bool.and_eq_true,
            Bool.and_eq_true, beq_iff_eq] at isLength
          rcases isLength with ⟨⟨sameName, sameIndex⟩, inLater⟩
          rcases inductionHypothesis isConcrete.tail isPattern.tail inLater with
            ⟨tuple, full, isRest⟩
          dsimp only at sameName sameIndex
          rw [sameName, isRest]
          rcases isPattern.head with isPlain | isMarker
          · cases isPlain
            have isNone : PathIndex.none = ownIndex := by simpa using sameIndex
            exact ⟨tuple, by simpa [markerCount] using full, by simp [withIndices, isNone]⟩
          · cases isMarker
            cases ownIndex with
            | entry position =>
                exact ⟨position :: tuple, by simpa [markerCount] using full, by simp [withIndices]⟩
            | none => cases sameIndex
            | all => exact absurd rfl (isConcrete _ List.mem_cons_self)
            | length => cases sameIndex

/-- A column is the length of an array of the target exactly if its path is said to be one. -/
theorem isFlattenedLength_iff {target path : FieldPath} (isTarget : target.IsTarget)
    (valid : path.IsValid) (isConcrete : path.IsConcrete) :
    target.IsFlattenedLength path.toText ↔
      target.repeatedPrefixes.any path.isLengthColumnOf = true := by
  -- Both sides speak of some prefix; this is shown of every prefix on its own.
  rw [List.any_eq_true]
  apply exists_congr
  intro pattern
  apply and_congr_right
  intro isMember
  rcases List.append_of_mem isMember with ⟨passed, deeper, split⟩
  rcases shape_of_repeatedPrefixes split with ⟨outer, name, shape, isPrefix, _⟩
  rw [shape] at isPrefix ⊢
  rcases isPattern_of_prefix isTarget isPrefix with ⟨outerPattern, patternValid⟩
  have count : markerCount (outer ++ [⟨name, .all⟩]) = outer.markerCount + 1 := by
    simp [markerCount]
  constructor
  · intro found
    rcases found with ⟨tuple, fits, bounded, spelled⟩
    have full : tuple.length = outer.markerCount := by omega
    rw [lengthColumnName_concat outerPattern name full] at spelled
    rw [← toText_injective (isValid_lengthPath patternValid outerPattern bounded) valid spelled]
    exact isLengthColumnOf_withIndices outerPattern name full
  · intro isLength
    rcases eq_of_isLengthColumnOf isConcrete outerPattern isLength with ⟨tuple, full, isPath⟩
    rw [isPath] at valid
    refine ⟨tuple, by omega, lt_of_isValid_withIndices_append outerPattern full valid, ?_⟩
    rw [lengthColumnName_concat outerPattern name full, isPath]

namespace IsInsideAt

variable {target rest : FieldPath} {tuple : IndexTuple} {name : String}

theorem isValid (isInside : target.IsInsideAt tuple rest name) (isTarget : target.IsTarget) :
    IsValid (target.withIndices tuple ++ rest) :=
  isValid_withIndices_append isTarget.valid isTarget.isPattern isInside.bounded isInside.isRest

theorem restOf?_eq_some (isInside : target.IsInsideAt tuple rest name)
    (isTarget : target.IsTarget) : target.restOf? name = some rest := by
  rw [← isInside.spelled]
  exact restOf?_withIndices isTarget isInside.full isInside.bounded isInside.isRest

/-- A column is inside at most one entry, with one rest. -/
theorem unique (isInside : target.IsInsideAt tuple rest name) (isTarget : target.IsTarget)
    {otherTuple : IndexTuple} {otherRest : FieldPath}
    (isOther : target.IsInsideAt otherTuple otherRest name) :
    otherTuple = tuple ∧ otherRest = rest := by
  have samePath := toText_injective (isOther.isValid isTarget) (isInside.isValid isTarget)
    (isOther.spelled.trans isInside.spelled.symm)
  have isMatch := matchPrefix_withIndices isTarget.isPattern isOther.full otherRest
  rw [samePath, matchPrefix_withIndices isTarget.isPattern isInside.full rest] at isMatch
  cases isMatch
  exact ⟨rfl, rfl⟩

end IsInsideAt

section Names

variable {target : FieldPath} (isTarget : target.IsTarget) {name : String}
  (isName : IsColumnName name)

include isTarget isName

theorem restOf?_eq_some_iff (rest : FieldPath) :
    target.restOf? name = some rest ↔ ∃ tuple, target.IsInsideAt tuple rest name := by
  constructor
  · intro found
    rcases exists_tuple_of_restOf? isTarget isName found with
      ⟨isRest, tuple, full, bounded, spelled⟩
    exact ⟨tuple, full, bounded, isRest, spelled⟩
  · intro found
    rcases found with ⟨tuple, isInside⟩
    exact isInside.restOf?_eq_some isTarget

theorem isInside_iff : target.IsInside name ↔ ∃ rest, target.restOf? name = some rest := by
  rw [IsInside, exists_comm]
  exact exists_congr fun rest => (restOf?_eq_some_iff isTarget isName rest).symm

/-- The length of an array of the target is not inside one of the entries. -/
theorem not_isInside_of_isFlattenedLength (isLength : target.IsFlattenedLength name) :
    ¬ target.IsInside name := by
  rw [isInside_iff isTarget isName]
  intro found
  rcases found with ⟨rest, isRest⟩
  rcases isName with ⟨path, valid, isConcrete, spelled⟩
  rw [← spelled, isFlattenedLength_iff isTarget valid isConcrete, List.any_eq_true] at isLength
  rcases isLength with ⟨pattern, isMember, isLengthOf⟩
  rw [← spelled, restOf?, read_toText valid] at isRest
  simp only [matchPrefix_eq_none_of_isLengthColumnOf isLengthOf isMember] at isRest
  cases isRest

/-- The kept columns are those that are neither the length of an array of the target nor inside. -/
theorem keeps_iff :
    target.keeps name = true ↔ ¬ target.IsFlattenedLength name ∧ ¬ target.IsInside name := by
  rw [isInside_iff isTarget isName]
  rcases isName with ⟨path, valid, isConcrete, spelled⟩
  rw [← spelled, isFlattenedLength_iff isTarget valid isConcrete]
  simp only [keeps, restOf?, read_toText valid]
  cases path.matchPrefix target with
  | none => simp
  | some found => simp

end Names

end FieldPath

/-! ## Plans for columns -/

namespace ColumnPlan

/-- The columns that are read for the leaves, in the order of these. -/
def sources : ColumnPlan → List String
  | .keep _ => []
  | .flatten _ _ _ sources => sources

/-- The type of a flattened column. -/
def kind? : ColumnPlan → Option ScalarType
  | .keep _ => none
  | .flatten _ kind _ _ => some kind

end ColumnPlan

namespace Shard

open ColumnClasses

/-- The plans say of every column of the shard what becomes of it. -/
structure IsPlannedBy (shard : Shard) (target : FieldPath) (leaves : List IndexTuple)
    (plans : List ColumnPlan) : Prop where
  exactlyOne : ∀ column ∈ shard.columns,
    target.IsFlattenedLength column.1 ∧ .keep column.1 ∉ plans ∧ ¬ target.IsInside column.1 ∨
    ¬ target.IsFlattenedLength column.1 ∧ .keep column.1 ∈ plans ∧ ¬ target.IsInside column.1 ∨
    ¬ target.IsFlattenedLength column.1 ∧ .keep column.1 ∉ plans ∧ target.IsInside column.1
  stems : ∀ plan ∈ plans, ∃ column ∈ shard.columns, plan = .keep column.1 ∨
    ∃ tuple rest, target.IsInsideAt tuple rest column.1 ∧
      plan.output = outputName target rest ∧ plan.kind? = some column.2.kind
  readOnce : ∀ column ∈ shard.columns, ∀ tuple rest, target.IsInsideAt tuple rest column.1 →
    ∀ place : Nat, leaves[place]? = some tuple →
      ∃ plan ∈ plans, plan.sources[place]? = some column.1 ∧ plan.kind? = some column.2.kind ∧
        ∀ other ∈ plans, ∀ otherPlace : Nat, other.sources[otherPlace]? = some column.1 →
          other = plan ∧ otherPlace = place
  reads : ∀ plan ∈ plans, ∀ (place : Nat) name, plan.sources[place]? = some name →
    ∀ column, shard.column? name = some column →
      ∃ tuple rest, leaves[place]? = some tuple ∧ target.IsInsideAt tuple rest name ∧
        plan.output = outputName target rest ∧ plan.kind? = some column.kind
  outputsDiffer : (plans.map ColumnPlan.output).Nodup

/-- Two columns inside entries have the same output name and different types. -/
def TypesClash (shard : Shard) (target : FieldPath) : Prop :=
  ∃ first ∈ shard.columns, ∃ second ∈ shard.columns, ∃ firstTuple firstRest secondTuple secondRest,
    target.IsInsideAt firstTuple firstRest first.1 ∧
    target.IsInsideAt secondTuple secondRest second.1 ∧
    outputName target firstRest = outputName target secondRest ∧ first.2.kind ≠ second.2.kind

/-- A column that is kept has the output name of one that is inside an entry. -/
def NamesClash (shard : Shard) (target : FieldPath) : Prop :=
  ∃ kept ∈ shard.columns, ¬ target.IsFlattenedLength kept.1 ∧ ¬ target.IsInside kept.1 ∧
    ∃ inside ∈ shard.columns, ∃ tuple rest, target.IsInsideAt tuple rest inside.1 ∧
      outputName target rest = kept.1

section Plans

variable {shard : Shard} {target : FieldPath} (isTarget : target.IsTarget)
  (names : ∀ column ∈ shard.columns, IsColumnName column.1)

include isTarget names

theorem typesClash_iff :
    shard.TypesClash target ↔
      ∃ output expected got, shard.HasTypeConflict target output expected got := by
  constructor
  · intro clash
    rcases clash with ⟨first, isFirst, second, isSecond, _, firstRest, _, secondRest, firstInside,
      secondInside, sameOutput, different⟩
    have sameRest : firstRest = secondRest :=
      outputName_injective isTarget.valid firstInside.isRest secondInside.isRest sameOutput
    rw [← sameRest] at secondInside
    exact ⟨_, _, _, first, isFirst, second, isSecond, firstRest,
      firstInside.restOf?_eq_some isTarget, secondInside.restOf?_eq_some isTarget, rfl, rfl, rfl,
      different⟩
  · intro conflict
    rcases conflict with ⟨_, expected, got, first, isFirst, second, isSecond, rest, firstRest,
      secondRest, _, isExpected, isGot, different⟩
    rcases (FieldPath.restOf?_eq_some_iff isTarget (names first isFirst) rest).mp firstRest with
      ⟨firstTuple, firstInside⟩
    rcases (FieldPath.restOf?_eq_some_iff isTarget (names second isSecond) rest).mp secondRest with
      ⟨secondTuple, secondInside⟩
    exact ⟨first, isFirst, second, isSecond, firstTuple, rest, secondTuple, rest, firstInside,
      secondInside, rfl, by rw [isExpected, isGot]; exact different⟩

theorem namesClash_iff :
    shard.NamesClash target ↔ ∃ name, shard.HasNameCollision target name := by
  constructor
  · intro clash
    rcases clash with ⟨kept, isKept, notLength, notInside, inside, isInside, tuple, rest, isAt,
      sameName⟩
    exact ⟨kept.1, ⟨kept, isKept, rfl,
      (FieldPath.keeps_iff isTarget (names kept isKept)).mpr ⟨notLength, notInside⟩⟩,
      inside, isInside, rest, isAt.restOf?_eq_some isTarget, sameName⟩
  · intro collision
    rcases collision with ⟨name, ⟨kept, isKept, isName, keeps⟩, inside, isInside, rest, isRest,
      sameName⟩
    rw [← isName] at keeps sameName
    rcases (FieldPath.keeps_iff isTarget (names kept isKept)).mp keeps with ⟨notLength, notInside⟩
    rcases (FieldPath.restOf?_eq_some_iff isTarget (names inside isInside) rest).mp isRest with
      ⟨tuple, isAt⟩
    exact ⟨kept, isKept, notLength, notInside, inside, isInside, tuple, rest, isAt, sameName⟩

end Plans

/-! ## All columns -/

theorem sources_flattenPlan (target : FieldPath) (leaves : List IndexTuple) (output : String)
    (rest : FieldPath) (kind : ScalarType) (place : Nat) (name : String) :
    (flattenPlan target leaves output rest kind).sources[place]? = some name ↔
      ∃ tuple, leaves[place]? = some tuple ∧ (target.withIndices tuple ++ rest).toText = name := by
  simp [flattenPlan, ColumnPlan.sources]

section Account

variable {shard : Shard} {target : FieldPath} {classes : ColumnClasses} {leaves : List IndexTuple}
  (ordered : OrderedMap.IsOrdered shard.columns)
  (names : ∀ column ∈ shard.columns, IsColumnName column.1) (isTarget : target.IsTarget)
  (consistent : shard.IsConsistent target)
  (classifies : classes.Classifies target shard.columns)
  (leavesFit : ∀ tuple ∈ leaves, tuple.length = target.markerCount ∧
    ∀ position ∈ tuple, position < FieldPath.positionBound)

include classifies in
theorem keep_mem_plansFor_iff (leaves : List IndexTuple) {column : String × Column}
    (isColumn : column ∈ shard.columns) :
    .keep column.1 ∈ classes.plansFor target shard.columns leaves ↔
      target.keeps column.1 = true := by
  rw [classifies.mem_plansFor_iff]
  constructor
  · intro found
    rcases found with ⟨kept, _, keeps, same⟩ | ⟨_, _, _, _, same⟩
    · rw [← ColumnPlan.keep.inj same]
      exact keeps
    · cases same
  · exact fun keeps => Or.inl ⟨column, isColumn, keeps, rfl⟩

include ordered consistent classifies in
theorem nodup_outputs_plansFor (leaves : List IndexTuple) :
    ((classes.plansFor target shard.columns leaves).map ColumnPlan.output).Nodup := by
  have outputs : (classes.plansFor target shard.columns leaves).map ColumnPlan.output =
      (shard.columns.filter fun column => target.keeps column.1).map (·.1) ++
        classes.flattened.keys := by
    simp [plansFor, OrderedMap.keys, Function.comp_def, ColumnPlan.output, flattenPlan]
  rw [outputs, List.nodup_append]
  refine ⟨?_, classifies.ordered.ascending_keys.nodup, ?_⟩
  · exact ordered.ascending_keys.nodup.sublist (List.filter_sublist.map _)
  · intro name isKept other isFlattened same
    rcases List.mem_map.mp isKept with ⟨kept, isFiltered, isName⟩
    rcases List.mem_filter.mp isFiltered with ⟨isColumn, keeps⟩
    rcases List.mem_map.mp isFlattened with ⟨⟨output, rest, kind⟩, isThere, isOutput⟩
    rcases classifies.sound output rest kind
      ((OrderedMap.find?_eq_some_iff_mem classifies.ordered _ _).mpr isThere) with
      ⟨sameOutput, inside, isInside, isRest, _⟩
    have isOther : outputName target rest = other := sameOutput.symm.trans isOutput
    exact consistent.names ⟨name, ⟨kept, isColumn, isName, isName ▸ keeps⟩, inside, isInside, rest,
      isRest, isOther.trans same.symm⟩

include names isTarget consistent classifies leavesFit in
/-- What a plan reads for a leaf stands inside the entry of this leaf, and has its name and type. -/
theorem reads_plansFor {plan : ColumnPlan}
    (isPlan : plan ∈ classes.plansFor target shard.columns leaves) {place : Nat}
    {column : String × Column} (isColumn : column ∈ shard.columns)
    (isSource : plan.sources[place]? = some column.1) :
    ∃ tuple rest, leaves[place]? = some tuple ∧ target.IsInsideAt tuple rest column.1 ∧
      plan = flattenPlan target leaves (outputName target rest) rest column.2.kind := by
  rcases (classifies.mem_plansFor_iff leaves plan).mp isPlan with
    ⟨kept, _, _, same⟩ | ⟨stem, isStem, rest, stemRest, same⟩
  · rw [← same] at isSource
    cases isSource
  · rw [← same, sources_flattenPlan] at isSource
    rcases isSource with ⟨tuple, isLeaf, spelled⟩
    rcases leavesFit tuple (List.mem_of_getElem? isLeaf) with ⟨full, bounded⟩
    have restFits := (FieldPath.exists_tuple_of_restOf? isTarget (names stem isStem) stemRest).1
    have isInside : target.IsInsideAt tuple rest column.1 := ⟨full, bounded, restFits, spelled⟩
    have sameKind : stem.2.kind = column.2.kind :=
      consistent.kind_eq isStem isColumn stemRest (isInside.restOf?_eq_some isTarget)
    exact ⟨tuple, rest, isLeaf, isInside, by rw [← same, sameKind]⟩

include ordered names isTarget consistent classifies leavesFit in
/-- The plans for consistent columns account for all of them. -/
theorem isPlannedBy_plansFor (leavesDiffer : leaves.Nodup) :
    shard.IsPlannedBy target leaves (classes.plansFor target shard.columns leaves) := by
  constructor
  case exactlyOne =>
      intro column isColumn
      have isName := names column isColumn
      rw [keep_mem_plansFor_iff classifies leaves isColumn, FieldPath.keeps_iff isTarget isName]
      have apart := FieldPath.not_isInside_of_isFlattenedLength isTarget isName
      by_cases isLength : target.IsFlattenedLength column.1
      · exact Or.inl ⟨isLength, fun kept => kept.1 isLength, apart isLength⟩
      · by_cases isInside : target.IsInside column.1
        · exact Or.inr (Or.inr ⟨isLength, fun kept => kept.2 isInside, isInside⟩)
        · exact Or.inr (Or.inl ⟨isLength, ⟨isLength, isInside⟩, isInside⟩)
  case stems =>
      intro plan isPlan
      rcases (classifies.mem_plansFor_iff leaves plan).mp isPlan with
        ⟨kept, isKept, _, same⟩ | ⟨column, isColumn, rest, isRest, same⟩
      · exact ⟨kept, isKept, Or.inl same.symm⟩
      · rcases (FieldPath.restOf?_eq_some_iff isTarget (names column isColumn) rest).mp isRest with
          ⟨tuple, isInside⟩
        rw [← same]
        exact ⟨column, isColumn, Or.inr ⟨tuple, rest, isInside, rfl, rfl⟩⟩
  case readOnce =>
      intro column isColumn tuple rest isInside place isLeaf
      refine ⟨flattenPlan target leaves (outputName target rest) rest column.2.kind, ?_, ?_, rfl,
        ?_⟩
      · exact (classifies.mem_plansFor_iff leaves _).mpr (Or.inr ⟨column, isColumn, rest,
          isInside.restOf?_eq_some isTarget, rfl⟩)
      · rw [sources_flattenPlan]
        exact ⟨tuple, isLeaf, isInside.spelled⟩
      · intro other isOther otherPlace isSource
        -- The name of the column gives its entry and its rest, and the rest gives the plan.
        rcases reads_plansFor names isTarget consistent classifies leavesFit isOther isColumn
          isSource with ⟨otherTuple, otherRest, isOtherLeaf, isOtherInside, shape⟩
        rcases isInside.unique isTarget isOtherInside with ⟨sameTuple, sameRest⟩
        rw [sameTuple] at isOtherLeaf
        refine ⟨by rw [shape, sameRest], ?_⟩
        have inRange := (List.getElem?_eq_some_iff.mp isOtherLeaf).1
        exact (List.getElem?_inj inRange leavesDiffer).mp (isOtherLeaf.trans isLeaf.symm)
  case reads =>
      intro plan isPlan place name isSource column isColumn
      rcases reads_plansFor names isTarget consistent classifies leavesFit isPlan
        (OrderedMap.mem_of_find? isColumn) isSource with ⟨tuple, rest, isLeaf, isInside, shape⟩
      refine ⟨tuple, rest, isLeaf, isInside, ?_, ?_⟩
      · rw [shape]
        rfl
      · rw [shape]
        rfl
  case outputsDiffer => exact nodup_outputs_plansFor ordered consistent classifies leaves

end Account

end Shard

open Shard in
/-- If the columns of a shard have the names of concrete paths, planning them for a layout of the
shard fails exactly if types or names clash, and otherwise the plans account for every column. -/
theorem classifyColumns_accounts {shard : Shard} (ordered : OrderedMap.IsOrdered shard.columns)
    (names : ∀ column ∈ shard.columns, IsColumnName column.1) {flattenBy : String}
    {target : FieldPath} (accepted : readTarget flattenBy = .ok target) {layout : RowLayout}
    (isLayout : RowLayout.build shard target.repeatedPrefixes = .ok layout) :
    (∀ plans, classifyColumns shard target.repeatedPrefixes layout.leaves = .ok plans →
      shard.IsPlannedBy target layout.leaves plans) ∧
    ((∃ error, classifyColumns shard target.repeatedPrefixes layout.leaves = .error error) ↔
      shard.TypesClash target ∨ shard.NamesClash target) := by
  have isTarget := isTarget_of_readTarget accepted
  have covers := (RowLayout.build_eq_ok isLayout).1.covers
  have leavesFit : ∀ tuple ∈ layout.leaves, tuple.length = target.markerCount ∧
      ∀ position ∈ tuple, position < FieldPath.positionBound := by
    intro tuple isLeaf
    rcases (covers.leaves tuple).mp isLeaf with ⟨row, _, isEntry⟩
    exact Flattening.fits_of_mem_leafEntries isTarget isEntry
  rw [typesClash_iff isTarget names, namesClash_iff isTarget names]
  rcases classifyColumns_outcome isTarget
    (fun column isColumn => (names column isColumn).isPathText) layout.leaves with
    ⟨classes, classifies, noConflict, noCollision, isPlanned⟩ |
    ⟨output, expected, got, conflict, fails⟩ | ⟨_, name, collision, fails⟩
  · constructor
    · intro plans arePlans
      rw [isPlanned] at arePlans
      rw [← Except.ok.inj arePlans]
      exact isPlannedBy_plansFor ordered names isTarget ⟨noConflict, noCollision⟩ classifies
        leavesFit covers.leavesAscending.nodup
    · rw [isPlanned]
      simp [noConflict, noCollision]
  · rw [fails]
    exact ⟨nofun, fun _ => Or.inl ⟨output, expected, got, conflict⟩, fun _ => ⟨_, rfl⟩⟩
  · rw [fails]
    exact ⟨nofun, fun _ => Or.inr ⟨name, collision⟩, fun _ => ⟨_, rfl⟩⟩

/-- A row with two entries in the outer array, of which the first one has one inner entry and the
second one has two, and the first of these no value. -/
def sparseShard : Shard :=
  ⟨"t", 5, 1, [
    ("a[0].b[0].x", ⟨.long, .constant 7, [Page.constant 5 1 0]⟩),
    ("a[0].b[length]", ⟨.long, .constant 1, [Page.constant 5 1 0]⟩),
    ("a[0].n", ⟨.text, .constant "u", [Page.constant 5 1 0]⟩),
    ("a[1].b[1].x", ⟨.long, .constant 9, [Page.constant 5 1 0]⟩),
    ("a[1].b[length]", ⟨.long, .constant 2, [Page.constant 5 1 0]⟩),
    ("a[length]", ⟨.long, .constant 2, [Page.constant 5 1 0]⟩)]⟩

def sparseLayout : RowLayout :=
  ⟨[[0, 0], [1, 0], [1, 1]],
    [⟨[5], [⟨0, 0, 1⟩]⟩, ⟨[5], [⟨1, 0, 1⟩]⟩, ⟨[5], [⟨2, 0, 1⟩]⟩], 1⟩

/-- The column that is missing is named all the same, and read as a default. -/
def sparsePlans : List ColumnPlan :=
  [.keep "a[0].n", .flatten "a.b.x" .long false ["a[0].b[0].x", "a[1].b[0].x", "a[1].b[1].x"]]

theorem build_sparseShard :
    RowLayout.build sparseShard (FieldPath.repeatedPrefixes [⟨"a", .all⟩, ⟨"b", .all⟩]) =
      .ok sparseLayout := by
  have areFound :
      RowLayout.entries sparseShard (FieldPath.repeatedPrefixes [⟨"a", .all⟩, ⟨"b", .all⟩]) =
        .ok [(5, [[0, 0], [1, 0], [1, 1]])] := by
    decide +kernel
  exact RowLayout.build_of_entries areFound (by decide) (by decide) (by decide) (by decide +kernel)

theorem classifyColumns_accounts_sparseShard :
    readTarget "a[*].b[*]" = .ok [⟨"a", .all⟩, ⟨"b", .all⟩] ∧
      RowLayout.build sparseShard (FieldPath.repeatedPrefixes [⟨"a", .all⟩, ⟨"b", .all⟩]) =
        .ok sparseLayout ∧
      classifyColumns sparseShard (FieldPath.repeatedPrefixes [⟨"a", .all⟩, ⟨"b", .all⟩])
        sparseLayout.leaves = .ok sparsePlans ∧
      sparseShard.IsPlannedBy [⟨"a", .all⟩, ⟨"b", .all⟩] sparseLayout.leaves sparsePlans ∧
      ¬ (sparseShard.TypesClash [⟨"a", .all⟩, ⟨"b", .all⟩] ∨
        sparseShard.NamesClash [⟨"a", .all⟩, ⟨"b", .all⟩]) := by
  have ordered : OrderedMap.IsOrdered sparseShard.columns := by
    unfold OrderedMap.IsOrdered
    decide +kernel
  have names : ∀ column ∈ sparseShard.columns, IsColumnName column.1 := by decide +kernel
  have accepted : readTarget "a[*].b[*]" = .ok [⟨"a", .all⟩, ⟨"b", .all⟩] := by decide +kernel
  have arePlans : classifyColumns sparseShard
      (FieldPath.repeatedPrefixes [⟨"a", .all⟩, ⟨"b", .all⟩]) sparseLayout.leaves =
        .ok sparsePlans := by
    decide +kernel
  have accounts := classifyColumns_accounts ordered names accepted build_sparseShard
  refine ⟨accepted, build_sparseShard, arePlans, accounts.1 _ arePlans, ?_⟩
  rw [← accounts.2, arePlans]
  exact nofun

end Unnest
