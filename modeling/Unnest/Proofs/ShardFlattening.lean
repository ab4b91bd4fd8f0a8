import Unnest.Proofs.Classification
import Unnest.Proofs.ColumnBuilding

/-!
# Flattening a shard

An output row stands for an entry of an input row.  It has the kept columns of the input row, and
for every rest the value in the column of the entry, or the default where there is none
(`Shard.flattenedRow`).  Flattening a well-formed shard gives these rows, pass by pass, or it
fails for one of three reasons: a length is missing, types conflict, or names collide.
-/

namespace Unnest

/-! ## Output rows -/

namespace Shard

/-- The value of a row in the column of an entry, or the default if there is no such column. -/
def leafValue? (settings : FlattenSettings) (shard : Shard) (target rest : FieldPath)
    (kind : ScalarType) (row : Int) (tuple : IndexTuple) : Option Value :=
  match shard.column? (target.withIndices tuple ++ rest).toText with
  | some column => column.valueAt? row
  | none => some (kind.toValue (settings.fill kind rest.isLengthColumn))

/-- The values of the kept columns for a row. -/
def keptValues (shard : Shard) (target : FieldPath) (row : Int) : List (String × Value) :=
  shard.columns.filterMap fun (name, column) =>
    if target.keeps name then (column.valueAt? row).map fun value => (name, value) else none

/-- The values of the flattened columns for an entry of a row. -/
def flattenedValues (settings : FlattenSettings) (shard : Shard) (target : FieldPath) (row : Int)
    (tuple : IndexTuple) : List (String × Value) :=
  shard.columns.filterMap fun (name, column) =>
    (target.restOf? name).bind fun rest =>
      (shard.leafValue? settings target rest column.kind row tuple).map fun value =>
        (ColumnClasses.outputName target rest, value)

/-- The output row for an entry of a row. -/
def flattenedRow (settings : FlattenSettings) (shard : Shard) (target : FieldPath) (row : Int)
    (tuple : IndexTuple) : Row :=
  OrderedMap.ofEntries
    (shard.keptValues target row ++ shard.flattenedValues settings target row tuple)

/-- The columns of the shard can be flattened side by side. -/
structure IsConsistent (shard : Shard) (target : FieldPath) : Prop where
  types : ¬ ∃ output expected got, shard.HasTypeConflict target output expected got
  names : ¬ ∃ name, shard.HasNameCollision target name

/-- Columns with the same rest have the same type. -/
theorem IsConsistent.kind_eq {shard : Shard} {target rest : FieldPath}
    (consistent : shard.IsConsistent target) {first second : String × Column}
    (isFirst : first ∈ shard.columns) (isSecond : second ∈ shard.columns)
    (firstRest : target.restOf? first.1 = some rest)
    (secondRest : target.restOf? second.1 = some rest) : first.2.kind = second.2.kind := by
  by_contra different
  exact consistent.types ⟨_, _, _, first, isFirst, second, isSecond, rest, firstRest, secondRest,
    rfl, rfl, rfl, different⟩

/-- The value stands in the output row under this name: it is the value of the kept column of this
name, or of the flattened column that gets it. -/
def HoldsValue (settings : FlattenSettings) (shard : Shard) (target : FieldPath) (row : Int)
    (tuple : IndexTuple) (name : String) (value : Value) : Prop :=
  (∃ column, shard.column? name = some column ∧ target.keeps name = true ∧
    column.valueAt? row = some value) ∨
  ∃ inside ∈ shard.columns, ∃ rest, target.restOf? inside.1 = some rest ∧
    name = ColumnClasses.outputName target rest ∧
    shard.leafValue? settings target rest inside.2.kind row tuple = some value

/-- The flattened shard has a column of this name, kept or flattened. -/
def IsOutputName (shard : Shard) (target : FieldPath) (name : String) : Prop :=
  (∃ kept ∈ shard.columns, kept.1 = name ∧ target.keeps name = true) ∨
  ∃ inside ∈ shard.columns, ∃ rest, target.restOf? inside.1 = some rest ∧
    ColumnClasses.outputName target rest = name

/-- The flattened shard starts where the shard starts, and has the output columns and, if there
are any, the output rows of all entries. -/
structure IsFlattening (settings : FlattenSettings) (shard : Shard) (target : FieldPath)
    (output : String) (flattened : Shard) : Prop where
  table : flattened.table = output
  lowestRow : flattened.lowestRow = shard.lowestRow
  ordered : OrderedMap.IsOrdered flattened.columns
  names : ∀ name, (flattened.column? name).isSome = true ↔ shard.IsOutputName target name
  rows : flattened.columns ≠ [] → flattened.rows =
    (shard.outputEntries target.repeatedPrefixes).map fun entry =>
      shard.flattenedRow settings target entry.1 entry.2

variable {settings : FlattenSettings} {shard : Shard} {target : FieldPath} {row : Int}
  {tuple : IndexTuple}

theorem isOrdered_flattenedRow :
    OrderedMap.IsOrdered (shard.flattenedRow settings target row tuple) :=
  OrderedMap.isOrdered_ofEntries _

theorem column?_eq_some_iff (wellFormed : shard.IsWellFormed) {name : String} {column : Column} :
    shard.column? name = some column ↔ (name, column) ∈ shard.columns :=
  OrderedMap.find?_eq_some_iff_mem wellFormed.ordered name column

theorem mem_rowValues_iff (wellFormed : shard.IsWellFormed) {name : String} {value : Value} :
    (name, value) ∈ shard.keptValues target row ++ shard.flattenedValues settings target row tuple ↔
      shard.HoldsValue settings target row tuple name value := by
  rw [List.mem_append, keptValues, flattenedValues, List.mem_filterMap, List.mem_filterMap,
    HoldsValue]
  apply or_congr
  · constructor
    · rintro ⟨⟨other, column⟩, isColumn, isValue⟩
      by_cases isKept : target.keeps other = true
      · simp only [isKept, if_true, Option.map_eq_some_iff, Prod.mk.injEq] at isValue
        obtain ⟨found, isFound, rfl, rfl⟩ := isValue
        exact ⟨column, (column?_eq_some_iff wellFormed).mpr isColumn, isKept, isFound⟩
      · simp [isKept] at isValue
    · rintro ⟨column, isColumn, isKept, isValue⟩
      exact ⟨(name, column), (column?_eq_some_iff wellFormed).mp isColumn,
        by simp [isKept, isValue]⟩
  · constructor
    · rintro ⟨inside, isInside, isValue⟩
      obtain ⟨rest, isRest, isThere⟩ := Option.bind_eq_some_iff.mp isValue
      obtain ⟨found, isFound, same⟩ := Option.map_eq_some_iff.mp isThere
      cases same
      exact ⟨inside, isInside, rest, isRest, rfl, isFound⟩
    · rintro ⟨inside, isInside, rest, isRest, rfl, isFound⟩
      exact ⟨inside, isInside, by simp [isRest, isFound]⟩

theorem isRest_of_restOf? (wellFormed : shard.IsWellFormed) (isTarget : target.IsTarget)
    {inside : String × Column} (isInside : inside ∈ shard.columns) {rest : FieldPath}
    (isRest : target.restOf? inside.1 = some rest) : rest.IsRest :=
  (FieldPath.exists_tuple_of_restOf? isTarget (wellFormed.named inside isInside) isRest).1

theorem HoldsValue.unique (wellFormed : shard.IsWellFormed) (isTarget : target.IsTarget)
    (consistent : shard.IsConsistent target) {name : String} {left right : Value}
    (leftHolds : shard.HoldsValue settings target row tuple name left)
    (rightHolds : shard.HoldsValue settings target row tuple name right) : left = right := by
  have noCollision (column : Column) (isColumn : shard.column? name = some column)
      (isKept : target.keeps name = true) (inside : String × Column)
      (isInside : inside ∈ shard.columns) (rest : FieldPath)
      (isRest : target.restOf? inside.1 = some rest)
      (sameName : name = ColumnClasses.outputName target rest) : False :=
    consistent.names ⟨name, ⟨(name, column), (column?_eq_some_iff wellFormed).mp isColumn, rfl,
      isKept⟩, inside, isInside, rest, isRest, sameName.symm⟩
  rcases leftHolds with ⟨column, isColumn, isKept, isLeft⟩ |
    ⟨inside, isInside, rest, isRest, sameName, isLeft⟩
  · rcases rightHolds with ⟨other, isOther, _, isRight⟩ |
      ⟨inside, isInside, rest, isRest, sameName, _⟩
    · rw [isColumn] at isOther
      cases isOther
      rw [isLeft] at isRight
      exact Option.some.inj isRight
    · exact (noCollision column isColumn isKept inside isInside rest isRest sameName).elim
  · rcases rightHolds with ⟨column, isColumn, isKept, _⟩ |
      ⟨other, isOther, otherRest, isOtherRest, otherName, isRight⟩
    · exact (noCollision column isColumn isKept inside isInside rest isRest sameName).elim
    · have sameRest : rest = otherRest :=
        ColumnClasses.outputName_injective isTarget.valid
          (isRest_of_restOf? wellFormed isTarget isInside isRest)
          (isRest_of_restOf? wellFormed isTarget isOther isOtherRest)
          (sameName.symm.trans otherName)
      subst sameRest
      rw [consistent.kind_eq isInside isOther isRest isOtherRest, isRight] at isLeft
      exact (Option.some.inj isLeft).symm

theorem HoldsValue.isOutputName (wellFormed : shard.IsWellFormed) {name : String} {value : Value}
    (holds : shard.HoldsValue settings target row tuple name value) :
    shard.IsOutputName target name := by
  rcases holds with ⟨column, isColumn, isKept, _⟩ | ⟨inside, isInside, rest, isRest, rfl, _⟩
  · exact Or.inl ⟨(name, column), (column?_eq_some_iff wellFormed).mp isColumn, rfl, isKept⟩
  · exact Or.inr ⟨inside, isInside, rest, isRest, rfl⟩

/-- The output row holds exactly the values of the kept and of the flattened columns. -/
theorem find?_flattenedRow (wellFormed : shard.IsWellFormed) (isTarget : target.IsTarget)
    (consistent : shard.IsConsistent target) (name : String) (value : Value) :
    OrderedMap.find? name (shard.flattenedRow settings target row tuple) = some value ↔
      shard.HoldsValue settings target row tuple name value := by
  have found {other : Value} (holds : shard.HoldsValue settings target row tuple name other) :
      OrderedMap.find? name (shard.flattenedRow settings target row tuple) = some other := by
    apply OrderedMap.find?_ofEntries_of_mem ((mem_rowValues_iff wellFormed).mpr holds)
    intro another member
    exact HoldsValue.unique wellFormed isTarget consistent
      ((mem_rowValues_iff wellFormed).mp member) holds
  constructor
  · intro isThere
    by_cases holds : ∃ other, shard.HoldsValue settings target row tuple name other
    · obtain ⟨other, otherHolds⟩ := holds
      rw [found otherHolds] at isThere
      exact Option.some.inj isThere ▸ otherHolds
    · have isAbsent :
          OrderedMap.find? name (shard.flattenedRow settings target row tuple) = none := by
        apply OrderedMap.find?_ofEntries_of_not_mem
        intro other member
        exact holds ⟨other, (mem_rowValues_iff wellFormed).mp member⟩
      rw [isAbsent] at isThere
      cases isThere
  · exact found

end Shard

/-! ## Output columns -/

namespace Flattening

open ColumnClasses

variable {settings : FlattenSettings} {shard : Shard} {target : FieldPath} {layout : RowLayout}

/-- The column shows, for every output row, the value that stands there under its name. -/
def ShowsRows (settings : FlattenSettings) (shard : Shard) (target : FieldPath)
    (entries : List (Int × IndexTuple)) (column : OutputColumn) : Prop :=
  ∃ values, column.column.Shows shard.lowestRow values ∧
    values.map some = entries.map fun entry =>
      OrderedMap.find? column.name (shard.flattenedRow settings target entry.1 entry.2)

theorem exists_valueAt? (wellFormed : shard.IsWellFormed) {name : String} {column : Column}
    (isColumn : shard.column? name = some column) {row : Int} (isRow : row ∈ shard.rowIds) :
    ∃ value, column.valueAt? row = some value := by
  obtain ⟨readable, sameScalar⟩ := (wellFormed.column_isWellFormed isColumn).readable
  obtain ⟨scalar, isScalar⟩ := Option.isSome_iff_exists.mp (readable.covers row isRow)
  rw [sameScalar row isRow] at isScalar
  exact ⟨_, by rw [Column.valueAt?, isScalar, Option.map_some]⟩

theorem fits_of_mem_leafEntries (isTarget : target.IsTarget) {row : Int} {tuple : IndexTuple}
    (member : tuple ∈ shard.leafEntries target.repeatedPrefixes row) :
    tuple.length = target.markerCount ∧
      ∀ position ∈ tuple, position < FieldPath.positionBound := by
  have realized := RowLayout.realizes_of_mem_leafEntries
    (FieldPath.repeatedPrefixes_ne_nil isTarget.ends) member
  exact ⟨realized.length_eq.trans (FieldPath.length_repeatedPrefixes target), realized.position_lt⟩

/-- What is read for an entry is the value in its column, or the default if there is none. -/
theorem sourceValue?_eq_leafValue? (wellFormed : shard.IsWellFormed) (isTarget : target.IsTarget)
    (consistent : shard.IsConsistent target) {inside : String × Column}
    (isInside : inside ∈ shard.columns) {rest : FieldPath}
    (isRest : target.restOf? inside.1 = some rest) {row : Int} (isRow : row ∈ shard.rowIds)
    {tuple : IndexTuple} (isLeaf : tuple ∈ shard.leafEntries target.repeatedPrefixes row) :
    sourceValue? settings shard inside.2.kind rest.isLengthColumn
        (target.withIndices tuple ++ rest).toText row =
      shard.leafValue? settings target rest inside.2.kind row tuple := by
  obtain ⟨full, bounded⟩ := fits_of_mem_leafEntries isTarget isLeaf
  rw [sourceValue?, sourceOf, Shard.leafValue?]
  cases isColumn : shard.column? (target.withIndices tuple ++ rest).toText with
  | none => rfl
  | some column =>
      have sameRest : target.restOf? (target.withIndices tuple ++ rest).toText = some rest :=
        FieldPath.restOf?_withIndices isTarget full bounded
          (Shard.isRest_of_restOf? wellFormed isTarget isInside isRest)
      have sameKind : column.kind = inside.2.kind :=
        consistent.kind_eq ((Shard.column?_eq_some_iff wellFormed).mp isColumn) isInside sameRest
          isRest
      have sameScalar := (wellFormed.column_isWellFormed isColumn).readable.2 row isRow
      obtain ⟨kind, dictionary, pages⟩ := column
      dsimp only at sameKind
      subst sameKind
      simp only [Option.bind_some, Column.dictionaryOf?, dite_true, Option.map_some,
        sourceScalar?, sameScalar]
      rfl

theorem exists_leafValue? (settings : FlattenSettings) (wellFormed : shard.IsWellFormed)
    (target rest : FieldPath) (kind : ScalarType) {row : Int} (isRow : row ∈ shard.rowIds)
    (tuple : IndexTuple) :
    ∃ value, shard.leafValue? settings target rest kind row tuple = some value := by
  rw [Shard.leafValue?]
  cases isColumn : shard.column? (target.withIndices tuple ++ rest).toText with
  | none => exact ⟨_, rfl⟩
  | some column => exact exists_valueAt? wellFormed isColumn isRow

section Plans

variable (wellFormed : shard.IsWellFormed) (isTarget : target.IsTarget)
  (consistent : shard.IsConsistent target)
  (laysOut : layout.LaysOut shard (shard.outputEntries target.repeatedPrefixes))

include wellFormed isTarget consistent laysOut

theorem buildColumn_keep {name : String} {column : Column}
    (isColumn : shard.column? name = some column) (isKept : target.keeps name = true) :
    ∃ built, buildColumn settings shard layout (.keep name) = .ok built ∧ built.name = name ∧
      ShowsRows settings shard target (shard.outputEntries target.repeatedPrefixes) built := by
  obtain ⟨built, isBuilt, rfl, values, shows, sameValues⟩ :=
    keepColumn_shows laysOut name (wellFormed.column_isWellFormed isColumn)
  refine ⟨built, by simp only [buildColumn, isColumn, isBuilt], rfl, values, shows, ?_⟩
  rw [sameValues]
  apply List.map_congr_left
  intro entry isEntry
  obtain ⟨value, isValue⟩ :=
    exists_valueAt? wellFormed isColumn (Shard.mem_outputEntries isEntry).1
  rw [isValue]
  exact ((Shard.find?_flattenedRow wellFormed isTarget consistent _ _).mpr
    (Or.inl ⟨column, isColumn, isKept, isValue⟩)).symm

theorem buildColumn_flatten {inside : String × Column} (isInside : inside ∈ shard.columns)
    {rest : FieldPath} (isRest : target.restOf? inside.1 = some rest) :
    ∃ built, buildColumn settings shard layout
        (flattenPlan target layout.leaves (outputName target rest) rest inside.2.kind) = .ok built ∧
      built.name = outputName target rest ∧
      ShowsRows settings shard target (shard.outputEntries target.repeatedPrefixes) built := by
  obtain ⟨built, isBuilt, isName, values, shows, sameValues⟩ :=
    flattenColumn_shows settings wellFormed.columns laysOut (outputName target rest) inside.2.kind
      rest.isLengthColumn fun tuple => (target.withIndices tuple ++ rest).toText
  refine ⟨built, isBuilt, isName, values, shows, ?_⟩
  rw [sameValues]
  apply List.map_congr_left
  intro entry isEntry
  obtain ⟨isRow, isLeaf⟩ := Shard.mem_outputEntries isEntry
  obtain ⟨value, isValue⟩ :=
    exists_leafValue? settings wellFormed target rest inside.2.kind isRow entry.2
  rw [sourceValue?_eq_leafValue? wellFormed isTarget consistent isInside isRest isRow isLeaf,
    isValue]
  exact ((Shard.find?_flattenedRow wellFormed isTarget consistent _ _).mpr
    (Or.inr ⟨inside, isInside, rest, isRest, isName, isValue⟩)).symm

/-- Every plan can be carried out. -/
theorem buildColumn_of_plan (settings : FlattenSettings) {classes : ColumnClasses}
    (classifies : classes.Classifies target shard.columns) :
    ∀ plan ∈ classes.plansFor target shard.columns layout.leaves,
      ∃ built, buildColumn settings shard layout plan = .ok built ∧ built.name = plan.output ∧
        ShowsRows settings shard target (shard.outputEntries target.repeatedPrefixes) built := by
  intro plan isPlan
  rcases (classifies.mem_plansFor_iff layout.leaves plan).mp isPlan with
    ⟨kept, isColumn, isKept, same⟩ | ⟨inside, isInside, rest, isRest, same⟩
  · rw [← same]
    exact buildColumn_keep wellFormed isTarget consistent laysOut
      ((Shard.column?_eq_some_iff wellFormed).mpr isColumn) isKept
  · rw [← same]
    exact buildColumn_flatten wellFormed isTarget consistent laysOut isInside isRest

end Plans

theorem mem_map_output_plansFor {classes : ColumnClasses}
    (classifies : classes.Classifies target shard.columns) (leaves : List IndexTuple)
    (name : String) :
    name ∈ (classes.plansFor target shard.columns leaves).map ColumnPlan.output ↔
      shard.IsOutputName target name := by
  rw [List.mem_map, Shard.IsOutputName]
  constructor
  · intro found
    rcases found with ⟨plan, isPlan, sameName⟩
    rcases (classifies.mem_plansFor_iff leaves plan).mp isPlan with
      ⟨kept, isColumn, isKept, same⟩ | ⟨inside, isInside, rest, isRest, same⟩
    · have isName : kept.1 = name := by
        rw [← sameName, ← same]
        rfl
      exact Or.inl ⟨kept, isColumn, isName, isName ▸ isKept⟩
    · exact Or.inr ⟨inside, isInside, rest, isRest, by rw [← sameName, ← same]; rfl⟩
  · intro found
    rcases found with ⟨kept, isColumn, sameName, isKept⟩ |
      ⟨inside, isInside, rest, isRest, sameName⟩
    · exact ⟨.keep kept.1, (classifies.mem_plansFor_iff leaves _).mpr
        (Or.inl ⟨kept, isColumn, sameName ▸ isKept, rfl⟩), sameName⟩
    · exact ⟨flattenPlan target leaves (outputName target rest) rest inside.2.kind,
        (classifies.mem_plansFor_iff leaves _).mpr (Or.inr ⟨inside, isInside, rest, isRest, rfl⟩),
        sameName⟩

theorem buildColumns_eq_ok {plans : List ColumnPlan} {Meets : OutputColumn → Prop}
    (built : ∀ plan ∈ plans, ∃ column, buildColumn settings shard layout plan = .ok column ∧
      column.name = plan.output ∧ Meets column) :
    ∃ columns, buildColumns settings shard layout plans = .ok columns ∧
      columns.map OutputColumn.name = plans.map ColumnPlan.output ∧
      ∀ column ∈ columns, Meets column := by
  induction plans with
  | nil => exact ⟨[], rfl, rfl, by simp⟩
  | cons plan rest inductionHypothesis =>
      obtain ⟨column, isColumn, sameName, meets⟩ := built plan List.mem_cons_self
      obtain ⟨columns, areColumns, sameNames, allMeet⟩ := inductionHypothesis
        fun other member => built other (List.mem_cons_of_mem _ member)
      refine ⟨column :: columns, by simp [buildColumns, isColumn, areColumns],
        by simp [sameName, sameNames], ?_⟩
      intro other member
      rcases List.mem_cons.mp member with rfl | inRest
      · exact meets
      · exact allMeet other inRest

/-! ## The shard -/

theorem isOrdered_row {flattened : Shard} (ordered : OrderedMap.IsOrdered flattened.columns)
    (row : Int) : OrderedMap.IsOrdered (flattened.row row) :=
  OrderedMap.isOrdered_filterMap (fun entry : String × Column => entry.2.valueAt? row) ordered

/-- The columns with their names, as they are put together. -/
def namedColumns (columns : List OutputColumn) : List (String × Column) :=
  columns.map fun column => (column.name, column.column)

theorem mem_namedColumns {columns : List OutputColumn} {entry : String × Column} :
    entry ∈ namedColumns columns ↔
      ∃ column ∈ columns, (column.name, column.column) = entry := by
  rw [namedColumns, List.mem_map]

theorem assemble_of_showsRows {entries : List (Int × IndexTuple)} {columns : List OutputColumn}
    (output : String)
    (showsRows : ∀ column ∈ columns, ShowsRows settings shard target entries column) :
    Shard.assemble output shard.lowestRow (namedColumns columns) =
      .ok ⟨output, shard.lowestRow, if namedColumns columns = [] then 0 else entries.length,
        OrderedMap.ofEntries (namedColumns columns)⟩ := by
  apply Shard.assemble_eq_ok
  intro entry member
  obtain ⟨column, isColumn, rfl⟩ := mem_namedColumns.mp member
  obtain ⟨values, shows, sameValues⟩ := showsRows column isColumn
  exact ⟨values, shows, by simpa using congrArg List.length sameValues⟩

/-- A row of the shard that is put together is an output row. -/
theorem row_eq_flattenedRow {entries : List (Int × IndexTuple)} {columns : List OutputColumn}
    (showsRows : ∀ column ∈ columns, ShowsRows settings shard target entries column)
    (complete : ∀ row tuple name value, OrderedMap.find? name
        (shard.flattenedRow settings target row tuple) = some value →
      ∃ column ∈ columns, column.name = name)
    (output : String) (rowCount : Nat) {place : Nat} (bound : place < entries.length) :
    Shard.row ⟨output, shard.lowestRow, rowCount, OrderedMap.ofEntries (namedColumns columns)⟩
        (shard.lowestRow + place) =
      shard.flattenedRow settings target entries[place].1 entries[place].2 := by
  have ordered := OrderedMap.isOrdered_ofEntries (namedColumns columns)
  apply OrderedMap.ext_find? (isOrdered_row ordered _) Shard.isOrdered_flattenedRow
  intro name
  have changed := OrderedMap.find?_filterMap
    (fun entry : String × Column => entry.2.valueAt? (shard.lowestRow + place)) ordered name
  refine changed.trans ?_
  rcases OrderedMap.find?_ofEntries_cases name (namedColumns columns) with
    ⟨found, isThere, isFound⟩ | ⟨isAbsent, notFound⟩
  · obtain ⟨column, isColumn, same⟩ := mem_namedColumns.mp isThere
    cases same
    obtain ⟨values, shows, sameValues⟩ := showsRows column isColumn
    have atPlace := congrArg (fun found => found[place]?) sameValues
    simp only [List.getElem?_map, List.getElem?_eq_getElem bound, Option.map_some] at atPlace
    rw [isFound, Option.bind_some]
    dsimp only
    rw [shows.valueAt?_add]
    cases isValue : values[place]? with
    | none => simp [isValue] at atPlace
    | some value => simpa [isValue] using atPlace
  · rw [notFound, Option.bind_none]
    cases isValue : OrderedMap.find? name
        (shard.flattenedRow settings target entries[place].1 entries[place].2) with
    | none => rfl
    | some value =>
        obtain ⟨column, isColumn, rfl⟩ := complete _ _ name value isValue
        exact absurd (mem_namedColumns.mpr ⟨column, isColumn, rfl⟩) (isAbsent column.column)

/-- Output columns of the right names that show the output rows are put together to a flattening. -/
theorem isFlattening_of_showsRows (wellFormed : shard.IsWellFormed) (isTarget : target.IsTarget)
    (consistent : shard.IsConsistent target) {columns : List OutputColumn} {output : String}
    (showsRows : ∀ column ∈ columns,
      ShowsRows settings shard target (shard.outputEntries target.repeatedPrefixes) column)
    (names : ∀ name, name ∈ columns.map OutputColumn.name ↔ shard.IsOutputName target name) :
    shard.IsFlattening settings target output ⟨output, shard.lowestRow,
      if namedColumns columns = [] then 0
        else (shard.outputEntries target.repeatedPrefixes).length,
      OrderedMap.ofEntries (namedColumns columns)⟩ := by
  refine ⟨rfl, rfl, OrderedMap.isOrdered_ofEntries _, ?_, ?_⟩
  · intro name
    rw [← names, List.mem_map, Shard.column?]
    dsimp only
    rcases OrderedMap.find?_ofEntries_cases name (namedColumns columns) with
      ⟨found, isThere, isFound⟩ | ⟨isAbsent, notFound⟩
    · obtain ⟨column, isColumn, same⟩ := mem_namedColumns.mp isThere
      rw [isFound]
      exact ⟨fun _ => ⟨column, isColumn, congrArg Prod.fst same⟩, fun _ => rfl⟩
    · rw [notFound]
      constructor
      · intro isThere
        cases isThere
      · rintro ⟨column, isColumn, rfl⟩
        exact absurd (mem_namedColumns.mpr ⟨column, isColumn, rfl⟩) (isAbsent column.column)
  · intro hasColumn
    have someColumn : namedColumns columns ≠ [] := by
      intro noColumn
      apply hasColumn
      simp [noColumn, OrderedMap.ofEntries]
    have complete : ∀ row tuple name value, OrderedMap.find? name
        (shard.flattenedRow settings target row tuple) = some value →
        ∃ column ∈ columns, column.name = name := by
      intro row tuple name value isValue
      have holds := (Shard.find?_flattenedRow wellFormed isTarget consistent name value).mp isValue
      exact List.mem_map.mp ((names name).mpr (holds.isOutputName wellFormed))
    rw [if_neg someColumn]
    apply List.ext_getElem
    · simp [Shard.rows, Shard.rowIds]
    · intro place _ bound
      rw [List.length_map] at bound
      simp only [Shard.rows, Shard.rowIds, List.getElem_map, List.getElem_range]
      exact row_eq_flattenedRow showsRows complete output _ bound

/-- Flattening a well-formed shard fails for one of three reasons, in this order, or it gives the
output rows of all entries. -/
theorem flattenShardBy_outcome (settings : FlattenSettings) (wellFormed : shard.IsWellFormed)
    (isTarget : target.IsTarget) (output : String) :
    (∃ name, shard.LacksEntryLength target.repeatedPrefixes name ∧
      flattenShardBy settings shard target output = .error (.missingLengthColumn name)) ∨
    (¬ ∃ name, shard.LacksEntryLength target.repeatedPrefixes name) ∧
    ((∃ column expected got, shard.HasTypeConflict target column expected got ∧
      flattenShardBy settings shard target output =
        .error (.flattenedTypeConflict column expected got)) ∨
    (¬ ∃ column expected got, shard.HasTypeConflict target column expected got) ∧
    ((∃ name, shard.HasNameCollision target name ∧
      flattenShardBy settings shard target output =
        .error (.invalidFlattenBy target.toText
          ("flattened column '" ++ name ++ "' collides with an existing column"))) ∨
    (¬ ∃ name, shard.HasNameCollision target name) ∧
      ∃ flattening, flattenShardBy settings shard target output = .ok flattening ∧
        shard.IsFlattening settings target output flattening.shard)) := by
  rcases RowLayout.build_outcome shard (FieldPath.repeatedPrefixes_ne_nil isTarget.ends) with
    ⟨layout, isLayout, isLayoutOf, nothingLacks⟩ | ⟨name, lacks, fails⟩
  · refine Or.inr ⟨nothingLacks, ?_⟩
    have laysOut := isLayoutOf.laysOut
    have names : ∀ entry ∈ shard.columns, IsPathText entry.1 :=
      fun entry isEntry => (wellFormed.named entry isEntry).isPathText
    rcases classifyColumns_outcome isTarget names layout.leaves with
      ⟨classes, classifies, noConflict, noCollision, isPlanned⟩ |
      ⟨column, expected, got, conflict, fails⟩ | ⟨noConflict, name, collision, fails⟩
    · refine Or.inr ⟨noConflict, Or.inr ⟨noCollision, ?_⟩⟩
      have consistent : shard.IsConsistent target := ⟨noConflict, noCollision⟩
      obtain ⟨columns, areBuilt, sameNames, allShow⟩ := buildColumns_eq_ok
        (buildColumn_of_plan wellFormed isTarget consistent laysOut settings classifies)
      have assembled := assemble_of_showsRows output allShow
      rw [namedColumns] at assembled
      refine ⟨_, by simp only [flattenShardBy, isLayout, isPlanned, areBuilt, assembled]; rfl, ?_⟩
      apply isFlattening_of_showsRows wellFormed isTarget consistent allShow
      intro name
      rw [sameNames]
      exact mem_map_output_plansFor classifies layout.leaves name
    · exact Or.inl ⟨column, expected, got, conflict, by simp [flattenShardBy, isLayout, fails]⟩
    · exact Or.inr ⟨noConflict, Or.inl ⟨name, collision,
        by simp [flattenShardBy, isLayout, fails]⟩⟩
  · exact Or.inl ⟨name, lacks, by simp [flattenShardBy, fails]⟩

theorem isFlattening_of_flattenShardBy (wellFormed : shard.IsWellFormed)
    (isTarget : target.IsTarget) {output : String} {flattening : ShardFlattening}
    (flattens : flattenShardBy settings shard target output = .ok flattening) :
    shard.IsFlattening settings target output flattening.shard := by
  rcases flattenShardBy_outcome settings wellFormed isTarget output with
    ⟨_, _, fails⟩ | ⟨_, ⟨_, _, _, _, fails⟩ | ⟨_, ⟨_, _, fails⟩ | ⟨_, found, isFound, meets⟩⟩⟩
  · rw [fails] at flattens
    cases flattens
  · rw [fails] at flattens
    cases flattens
  · rw [fails] at flattens
    cases flattens
  · rw [isFound] at flattens
    rwa [← Except.ok.inj flattens]

/-- Whenever flattening a well-formed shard gives columns, its rows are the output rows of all
entries, pass by pass: those of pass `k` stand for entry number `k` of every row that has so many,
in row order.  Each of them holds exactly the values of the kept columns for its row and of the
flattened columns for its entry. -/
theorem flattenShard_rows (settings : FlattenSettings) {shard : Shard}
    (wellFormed : shard.IsWellFormed) {flattenBy : String} {target : FieldPath}
    (accepted : readTarget flattenBy = .ok target) {output : String} {flattening : ShardFlattening}
    (flattens : flattenShard settings shard flattenBy output = .ok flattening)
    (hasColumn : flattening.shard.columns ≠ []) :
    flattening.shard.rows =
        (shard.outputEntries target.repeatedPrefixes).map (fun entry =>
          shard.flattenedRow settings target entry.1 entry.2) ∧
      ∀ entry ∈ shard.outputEntries target.repeatedPrefixes, ∀ name value,
        OrderedMap.find? name (shard.flattenedRow settings target entry.1 entry.2) = some value ↔
          shard.HoldsValue settings target entry.1 entry.2 name value := by
  have isTarget : target.IsTarget := by
    rcases readTarget_outcome flattenBy with ⟨found, isFound, _, isTarget⟩ | ⟨_, reason, fails⟩
    · rw [accepted] at isFound
      cases isFound
      exact isTarget
    · rw [accepted] at fails
      cases fails
  simp only [flattenShard, accepted] at flattens
  rcases flattenShardBy_outcome settings wellFormed isTarget output with
    ⟨name, _, fails⟩ | ⟨_, ⟨column, expected, got, _, fails⟩ | ⟨noConflict, ⟨name, _, fails⟩ |
      ⟨noCollision, found, isFound, isFlattening⟩⟩⟩
  · rw [fails] at flattens
    cases flattens
  · rw [fails] at flattens
    cases flattens
  · rw [fails] at flattens
    cases flattens
  · rw [isFound] at flattens
    cases flattens
    refine ⟨isFlattening.rows hasColumn, ?_⟩
    intro entry _ name value
    exact Shard.find?_flattenedRow wellFormed isTarget ⟨noConflict, noCollision⟩ name value

/-! ## A shard with a gap -/

/-- Three rows, of which the second one has no entries and the third one lacks the second entry. -/
def raggedShard : Shard :=
  ⟨"t", 10, 3, [
    ("a[0]", ⟨.long, .array #[0, 5, 8],
      [⟨10, .plain #[0, 1], .packed (.inRuns [⟨1, 1⟩, ⟨0, 2⟩])⟩, Page.constant 12 1 2]⟩),
    ("a[1]", ⟨.long, .array #[0, 6], [Page.constant 10 1 1, Page.constant 11 2 0]⟩),
    ("a[length]", ⟨.long, .array #[0, 1, 2],
      [Page.constant 10 1 2, ⟨11, .plain #[0, 1], .packed (.inRuns [⟨0, 1⟩, ⟨1, 2⟩])⟩]⟩),
    ("d", ⟨.text, .array #["x", "y"], [Page.constant 10 1 0, Page.constant 11 2 1]⟩)]⟩

theorem raggedShard_isWellFormed : raggedShard.IsWellFormed := by
  have follow : ∀ entry ∈ raggedShard.columns, PagesFollow 10 entry.2.pages := by
    decide +kernel
  have covers : ∀ entry ∈ raggedShard.columns, entry.2.rowCount = 3 := by
    decide +kernel
  have resolves : ∀ entry ∈ raggedShard.columns, ∀ page ∈ entry.2.pages, ∀ index,
      index < page.rowCount →
        ((page.id? index).any fun id => (entry.2.dictionary.decode? id).isSome) = true := by
    decide +kernel
  have ascending : ∀ entry ∈ raggedShard.columns, entry.2.dictionary.IsAscending := by
    unfold Dictionary.IsAscending
    decide +kernel
  refine ⟨?_, ?_, ?_⟩
  · unfold OrderedMap.IsOrdered
    decide +kernel
  · decide +kernel
  · intro entry isEntry
    refine ⟨follow entry isEntry, covers entry isEntry, ?_, ascending entry isEntry⟩
    intro page isPage index bound
    have found := resolves entry isEntry page isPage index bound
    cases isThere : page.id? index with
    | none => simp [isThere] at found
    | some id => exact ⟨id, rfl, by simpa [isThere] using found⟩

theorem raggedShard_isConsistent : raggedShard.IsConsistent [⟨"a", .all⟩] := by
  have types : ∀ entry ∈ raggedShard.columns,
      (FieldPath.restOf? [⟨"a", .all⟩] entry.1).isSome = true → entry.2.kind = .long := by
    decide +kernel
  have names : ∀ kept ∈ raggedShard.columns, FieldPath.keeps [⟨"a", .all⟩] kept.1 = true →
      ∀ inside ∈ raggedShard.columns,
        (FieldPath.restOf? [⟨"a", .all⟩] inside.1).map
          (ColumnClasses.outputName [⟨"a", .all⟩]) ≠ some kept.1 := by
    decide +kernel
  constructor
  · rintro ⟨_, _, _, first, isFirst, second, isSecond, rest, firstRest, secondRest, _, rfl, rfl,
      different⟩
    apply different
    rw [types first isFirst (by simp [firstRest]), types second isSecond (by simp [secondRest])]
  · rintro ⟨_, ⟨kept, isKept, rfl, keeps⟩, inside, isInside, rest, isRest, sameName⟩
    apply names kept isKept keeps inside isInside
    rw [isRest, Option.map_some, sameName]

theorem raggedShard_flattens (output : String) :
    ∃ flattening, flattenShardBy {} raggedShard [⟨"a", .all⟩] output = .ok flattening ∧
      raggedShard.IsFlattening {} [⟨"a", .all⟩] output flattening.shard := by
  have isRead : FieldPath.read "a[*]" = .ok [⟨"a", .all⟩] := by decide +kernel
  have isTarget : FieldPath.IsTarget [⟨"a", .all⟩] :=
    ⟨FieldPath.isValid_of_read isRead, by unfold FieldPath.IsPattern; decide, rfl⟩
  have stored : (RowLayout.entries raggedShard [[⟨"a", .all⟩]]).toOption.isSome = true := by
    decide +kernel
  rcases flattenShardBy_outcome {} raggedShard_isWellFormed isTarget output with
    ⟨name, lacks, _⟩ | ⟨_, ⟨column, expected, got, conflict, _⟩ |
      ⟨_, ⟨name, collision, _⟩ | ⟨_, found⟩⟩⟩
  · rcases RowLayout.entries_outcome raggedShard (List.cons_ne_nil _ []) with
      ⟨_, nothingLacks⟩ | ⟨_, _, fails⟩
    · exact absurd ⟨name, lacks⟩ nothingLacks
    · rw [fails] at stored
      cases stored
  · exact absurd ⟨column, expected, got, conflict⟩ raggedShard_isConsistent.types
  · exact absurd ⟨name, collision⟩ raggedShard_isConsistent.names
  · exact found

theorem flattenShard_rows_raggedShard :
    raggedShard.IsWellFormed ∧ readTarget "a[*]" = .ok [⟨"a", .all⟩] ∧
      ∃ flattening, flattenShard {} raggedShard "a[*]" "u" = .ok flattening ∧
        flattening.shard.columns ≠ [] ∧
        flattening.shard.rows =
          [[("a", .long 5), ("d", .text "x")], [("a", .long 8), ("d", .text "y")],
            [("a", .long 6), ("d", .text "x")]] := by
  have wellFormed := raggedShard_isWellFormed
  have accepted : readTarget "a[*]" = .ok [⟨"a", .all⟩] := by decide +kernel
  obtain ⟨flattening, isFlattening, meets⟩ := raggedShard_flattens "u"
  have flattens : flattenShard {} raggedShard "a[*]" "u" = .ok flattening := by
    simp only [flattenShard, accepted, isFlattening]
  have hasColumn : flattening.shard.columns ≠ [] := by
    intro noColumn
    have isThere := (meets.names "d").mpr (Or.inl (by decide +kernel))
    rw [Shard.column?, noColumn] at isThere
    cases isThere
  refine ⟨wellFormed, accepted, flattening, flattens, hasColumn, ?_⟩
  rw [(flattenShard_rows {} wellFormed accepted flattens hasColumn).1]
  decide +kernel

end Flattening

end Unnest
