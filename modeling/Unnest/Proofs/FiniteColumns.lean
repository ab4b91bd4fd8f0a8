import Unnest.Proofs.FiniteNumbers
import Unnest.Proofs.ShardIntegrity

/-!
# Columns stay finite

A column is finite if no value of its dictionary is an infinity or a NaN.  Columns of finite cells
are, as long as the default is finite, and so are the columns of a flattened shard: a kept column
keeps its dictionary, and that of a flattened one unites those of its sources with the default.
-/

namespace Unnest

/-! ## Scalars -/

/-- The default of doubles is finite. -/
def FlattenSettings.HasFiniteDefault (settings : FlattenSettings) : Prop :=
  settings.defaultDouble.isFinite = true

theorem isFinite_fill {settings : FlattenSettings} (hasFiniteDefault : settings.HasFiniteDefault)
    (kind : ScalarType) (isLength : Bool) :
    (kind.toValue (settings.fill kind isLength)).IsFinite := by
  cases kind with
  | long => trivial
  | text => trivial
  | double =>
      cases isLength with
      | false => exact hasFiniteDefault
      | true => exact (by decide : Double.zero.isFinite = true)

/-- A long is finite as the nearest double. -/
theorem isFinite_ofInt_toInt (number : Int64) : (Double.ofInt number.toInt).isFinite = true := by
  apply Double.isFinite_ofRatio_one
  have lower := Int64.le_toInt number
  have upper := Int64.toInt_lt number
  omega

theorem isFinite_ofCell? {kind : ScalarType} {value : Value} (isFinite : value.IsFinite)
    {scalar : kind.Carrier} (isScalar : kind.ofCell? value = some scalar) :
    (kind.toValue scalar).IsFinite := by
  cases kind with
  | long => trivial
  | text => trivial
  | double =>
      cases value with
      | long number =>
          cases isScalar
          exact isFinite_ofInt_toInt number
      | text content => cases isScalar
      | double number =>
          cases isScalar
          exact isFinite

/-! ## Columns -/

namespace Column

/-- The values of the dictionary are finite. -/
def IsFinite (column : Column) : Prop :=
  ∀ scalar ∈ column.dictionary.toList, (column.kind.toValue scalar).IsFinite

theorem IsFinite.valueAt? {column : Column} (isFinite : column.IsFinite) {row : Int} {value : Value}
    (isValue : column.valueAt? row = some value) : value.IsFinite := by
  rcases Option.map_eq_some_iff.mp isValue with ⟨scalar, isScalar, same⟩
  rcases Option.bind_eq_some_iff.mp isScalar with ⟨id, _, decodes⟩
  rw [← same]
  exact isFinite scalar (Dictionary.mem_of_decode? decodes)

theorem isFinite_ofScalars {kind : ScalarType} {scalars : List kind.Carrier}
    (areFinite : ∀ scalar ∈ scalars, (kind.toValue scalar).IsFinite) (firstRow : Int)
    (maxPageRows : Nat) : (ofScalars kind firstRow scalars maxPageRows).IsFinite := by
  intro scalar member
  apply areFinite
  have isMember : scalar ∈ sortDistinct scalars := member
  exact (mem_sortDistinct scalar scalars).mp isMember

end Column

/-- All columns of the shard are finite. -/
def Shard.IsFinite (shard : Shard) : Prop :=
  ∀ entry ∈ shard.columns, entry.2.IsFinite

theorem Shard.IsAssembledFrom.isFinite {shard : Shard} {table : String} {lowestRow : Int}
    {entries : List (String × Column)} (assembled : shard.IsAssembledFrom table lowestRow entries)
    (areFinite : ∀ entry ∈ entries, entry.2.IsFinite) : shard.IsFinite := by
  intro entry isColumn
  rw [assembled.columns] at isColumn
  exact areFinite entry (OrderedMap.mem_of_mem_ofEntries isColumn)

/-! ## Loading -/

namespace Document

variable {settings : FlattenSettings} (hasFiniteDefault : settings.HasFiniteDefault)

include hasFiniteDefault

theorem isFinite_of_columnOfCells {lowestRow : Int} {name : String}
    {cells : List (Option Value)} (areFinite : ∀ value, some value ∈ cells → value.IsFinite)
    {column : Column} (isColumn : columnOfCells settings lowestRow name cells = .ok column) :
    column.IsFinite := by
  rw [columnOfCells] at isColumn
  split at isColumn
  · cases isColumn
  · split at isColumn
    · cases isColumn
    · rename_i kind _
      cases isColumn
      apply Column.isFinite_ofScalars
      intro scalar member
      rcases List.mem_map.mp member with ⟨cell, isCell, isScalar⟩
      rw [← isScalar]
      cases found : cell.bind kind.ofCell? with
      | none => exact isFinite_fill hasFiniteDefault kind _
      | some scalar =>
          rcases Option.bind_eq_some_iff.mp found with ⟨value, isValue, isCellScalar⟩
          exact isFinite_ofCell? (areFinite value (isValue ▸ isCell)) isCellScalar

theorem isFinite_of_columnsAt {lowestRow : Int} {rows : List Row}
    (areFinite : ∀ row ∈ rows, ∀ entry ∈ row, entry.2.IsFinite) {names : List String}
    {columns : List (String × Column)}
    (areColumns : columnsAt settings lowestRow rows names = .ok columns) :
    ∀ entry ∈ columns, entry.2.IsFinite := by
  induction names generalizing columns with
  | nil =>
      cases areColumns
      simp
  | cons name rest inductionHypothesis =>
      rw [columnsAt] at areColumns
      split at areColumns
      · cases areColumns
      · rename_i isColumn
        split at areColumns
        · cases areColumns
        · rename_i areOthers
          cases areColumns
          refine List.forall_mem_cons.mpr ⟨?_, inductionHypothesis areOthers⟩
          apply isFinite_of_columnOfCells hasFiniteDefault _ isColumn
          intro value member
          rcases List.mem_map.mp member with ⟨row, isRow, isFound⟩
          exact areFinite row isRow _ (OrderedMap.mem_of_find? isFound)

theorem isFinite_of_loadShard {table : String} {lowestRow : Int} {documents : List Json}
    (areFinite : ∀ document ∈ documents, document.IsFinite) {shard : Shard}
    (loads : loadShard settings table lowestRow documents = .ok shard) : shard.IsFinite := by
  rw [loadShard] at loads
  split at loads
  · cases loads
  · rename_i rows areRows
    split at loads
    · cases loads
    · rename_i columns areColumns
      apply (Shard.isAssembledFrom_of_assemble loads).isFinite
      apply isFinite_of_columnsAt hasFiniteDefault _ areColumns
      intro row isRow entry isEntry
      rcases List.mem_map.mp isRow with ⟨cells, areCells, same⟩
      rw [← same] at isEntry
      rcases List.mem_map.mp (OrderedMap.mem_of_mem_ofEntries isEntry) with ⟨cell, isCell, isValue⟩
      rw [← isValue]
      exact isFinite_of_cellsOfAll areFinite areRows cells areCells cell isCell

theorem isFinite_of_loadPieces {table : String} {lowestRow : Int} {pieces : List (List Json)}
    (areFinite : ∀ piece ∈ pieces, ∀ document ∈ piece, document.IsFinite) {shards : List Shard}
    (loads : loadPieces settings table lowestRow pieces = .ok shards) :
    ∀ shard ∈ shards, shard.IsFinite := by
  induction pieces generalizing lowestRow shards with
  | nil =>
      cases loads
      simp
  | cons piece rest inductionHypothesis =>
      rcases List.forall_mem_cons.mp areFinite with ⟨pieceFinite, restFinite⟩
      rw [loadPieces] at loads
      split at loads
      · cases loads
      · rename_i isFirst
        split at loads
        · cases loads
        · rename_i areOthers
          cases loads
          exact List.forall_mem_cons.mpr
            ⟨isFinite_of_loadShard hasFiniteDefault pieceFinite isFirst,
              inductionHypothesis restFinite areOthers⟩

end Document

/-! ## Flattening -/

namespace Flattening

variable {settings : FlattenSettings} {shard : Shard}

theorem isFinite_of_keepColumn {layout : RowLayout} {name : String} {column : Column}
    (isFinite : column.IsFinite) {built : OutputColumn}
    (isBuilt : keepColumn shard layout name column = .ok built) : built.column.IsFinite := by
  rw [keepColumn] at isBuilt
  split at isBuilt
  · cases isBuilt
  · cases isBuilt
    exact isFinite

section Sources

variable (hasFiniteDefault : settings.HasFiniteDefault) (isFinite : shard.IsFinite)

include hasFiniteDefault isFinite

/-- The dictionary of a leaf is that of a column of the shard, or it has the default only. -/
theorem isFinite_of_leafDictionaries (kind : ScalarType) (isLength : Bool) (names : List String) :
    ∀ entry ∈ leafDictionaries (settings.fill kind isLength) (names.map (sourceOf shard kind)),
      ∀ scalar ∈ entry.2.toList, (kind.toValue scalar).IsFinite := by
  intro entry member scalar isScalar
  rcases List.mem_map.mp member with ⟨⟨source, leaf⟩, isSource, same⟩
  rcases List.mem_map.mp (List.fst_mem_of_mem_zipIdx isSource) with ⟨name, _, isNamed⟩
  rw [← same] at isScalar
  cases source with
  | none =>
      have isFill : scalar = settings.fill kind isLength := List.mem_singleton.mp isScalar
      rw [isFill]
      exact isFinite_fill hasFiniteDefault kind isLength
  | some found =>
      have isColumn := OrderedMap.mem_of_find? (column?_of_sourceOf isNamed)
      exact isFinite _ isColumn scalar isScalar

variable (intact : shard.IsIntact)

include intact

theorem isFinite_of_flattenColumn {layout : RowLayout} {output : String} {kind : ScalarType}
    {isLength : Bool} {names : List String} {built : OutputColumn}
    (isBuilt : flattenColumn settings shard layout output kind isLength names = .ok built) :
    built.column.IsFinite := by
  have readable : ∀ source ∈ names.map (sourceOf shard kind),
      IsReadableSource source shard.rowIds := by
    intro source member
    rcases List.mem_map.mp member with ⟨name, _, same⟩
    rw [← same]
    exact isReadableSource_sourceOf
      (fun entry isEntry => (intact.columns entry isEntry).toIsWellFormed) kind name
  rcases DictionaryUnion.ofSources_eq_ok
    (ascending_leafDictionaries (settings.fill kind isLength) readable) with
    ⟨union, united, sameValues, _⟩
  have unionFinite : ∀ scalar ∈ union.dictionary.toList, (kind.toValue scalar).IsFinite := by
    intro scalar member
    rw [sameValues, DictionaryUnion.mem_unitedValues] at member
    rcases member with ⟨entry, isEntry, isScalar⟩
    exact isFinite_of_leafDictionaries hasFiniteDefault isFinite kind isLength names entry isEntry
      scalar isScalar
  rw [flattenColumn] at isBuilt
  simp only [united] at isBuilt
  split at isBuilt
  · cases isBuilt
  · cases isBuilt
    exact unionFinite

theorem isFinite_of_flattenShardBy {target : FieldPath} {output : String}
    {flattening : ShardFlattening}
    (flattens : flattenShardBy settings shard target output = .ok flattening) :
    flattening.shard.IsFinite := by
  rcases exists_columns_of_flattenShardBy flattens with
    ⟨layout, plans, columns, _, _, areBuilt, assembled, _⟩
  apply assembled.isFinite
  intro entry isEntry
  rcases mem_namedColumns.mp isEntry with ⟨built, isMember, same⟩
  rcases exists_plan_of_buildColumns areBuilt built isMember with ⟨plan, _, isBuilt⟩
  rw [← same]
  cases plan with
  | keep name =>
      rw [buildColumn] at isBuilt
      split at isBuilt
      · rename_i isColumn
        exact isFinite_of_keepColumn (isFinite _ (OrderedMap.mem_of_find? isColumn)) isBuilt
      · cases isBuilt
  | flatten output kind isLength names =>
      exact isFinite_of_flattenColumn hasFiniteDefault isFinite intact isBuilt

end Sources

end Flattening

end Unnest
