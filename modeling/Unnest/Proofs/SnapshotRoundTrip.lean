import Unnest.Proofs.CacheAnswers
import Unnest.Proofs.ShardIntegrity

/-!
# Snapshots are restored to what they were taken of

Every page is encoded anew when a snapshot is restored, whatever adapters and dictionaries it had
before, and every dictionary becomes an array.  What the table says stays the same: its shards,
their columns with the values of their dictionaries, the rows of every page, and the value at every
row (`Snapshot.restore_capture_agrees`).
-/

namespace Unnest

/-! ## Columns -/

namespace Column

/-- The column covers the rows of a range and can be read page by page as well as row by row.  Its
pages may be empty, and their dictionaries need not ascend. -/
structure IsReadable (firstRow : Int) (rowCount : Nat) (column : Column) : Prop extends
    IsWellFormed firstRow rowCount column where
  sound : ∀ page ∈ column.pages, page.values.IsSound

/-- Both columns have the same type, dictionary values, page ranges and values, however they are
encoded. -/
structure AgreesWith (left right : Column) : Prop where
  kind : left.kind = right.kind
  dictionary : left.dictionary.toList.map left.kind.toValue =
    right.dictionary.toList.map right.kind.toValue
  ranges : (left.pages.map fun page => (page.firstRow, page.rowCount)) =
    right.pages.map fun page => (page.firstRow, page.rowCount)
  values : ∀ row, left.valueAt? row = right.valueAt? row

variable {column : Column} {firstRow : Int} {rowCount : Nat}

theorem IsReadable.exists_shows (readable : column.IsReadable firstRow rowCount) :
    ∃ values, column.encodedAgain.Shows firstRow values ∧ values.length = rowCount := by
  obtain ⟨scalars, reads, sameLength⟩ := readable.exists_reads
  refine ⟨scalars.map column.kind.toValue, ?_, by rw [List.length_map, sameLength]⟩
  exact Shows.encodedAgain ⟨scalars, reads, rfl⟩ readable.sound

theorem IsReadable.rowCount_encode (readable : column.IsReadable firstRow rowCount) {page : Page}
    (isPage : page ∈ column.pages) :
    (Page.encode page.firstRow page.ids).rowCount = page.rowCount := by
  obtain ⟨ids, reads⟩ := (readable.page_resolves isPage).exists_reads
  rw [reads.ids_eq (readable.sound page isPage), (Page.reads_encode page.firstRow ids).1, reads.1]

theorem IsReadable.encodedAgain_agreesWith (readable : column.IsReadable firstRow rowCount) :
    column.encodedAgain.AgreesWith column := by
  obtain ⟨scalars, ⟨ids, pagesRead, _⟩, _⟩ := readable.exists_reads
  obtain ⟨samePages, readAgain⟩ := pages_encodedAgain pagesRead readable.sound
  constructor
  case kind => rfl
  case dictionary => rfl
  case ranges =>
      rw [samePages, List.map_map]
      apply List.map_congr_left
      intro page isPage
      exact Prod.ext rfl (readable.rowCount_encode isPage)
  case values =>
      intro row
      have sameScalar : column.encodedAgain.scalarAt? row = column.scalarAt? row := by
        rw [scalarAt?, scalarAt?, idAt?_eq readAgain, idAt?_eq pagesRead, decode?_encodedAgain]
        rfl
      exact congrArg (Option.map column.kind.toValue) sameScalar

end Column

/-! ## Shards -/

namespace Shard

/-- The columns are in order, have the rows of the shard and can be read; without columns there are
no rows. -/
structure IsReadable (shard : Shard) : Prop where
  ordered : OrderedMap.IsOrdered shard.columns
  columns : ∀ entry ∈ shard.columns, entry.2.IsReadable shard.lowestRow shard.rowCount
  empty : shard.columns = [] → shard.rowCount = 0

/-- Both shards have the same rows of the same table, and columns of the same names that agree. -/
structure AgreesWith (left right : Shard) : Prop where
  table : left.table = right.table
  lowestRow : left.lowestRow = right.lowestRow
  rowCount : left.rowCount = right.rowCount
  columns : List.Forall₂ (fun here there => here.1 = there.1 ∧ here.2.AgreesWith there.2)
    left.columns right.columns

/-- The shard with all its columns encoded anew. -/
def encodedAgain (shard : Shard) : Shard :=
  { shard with columns := shard.columns.map fun (name, column) => (name, column.encodedAgain) }

theorem IsReadable.encodedAgain_agreesWith {shard : Shard} (readable : shard.IsReadable) :
    shard.encodedAgain.AgreesWith shard := by
  refine ⟨rfl, rfl, rfl, ?_⟩
  apply List.forall₂_map_left_iff.mpr
  apply List.forall₂_same.mpr
  intro entry isEntry
  exact ⟨rfl, (readable.columns entry isEntry).encodedAgain_agreesWith⟩

theorem AgreesWith.row_eq {left right : Shard} (agrees : left.AgreesWith right) (row : Int) :
    left.row row = right.row row := by
  have columns := agrees.columns
  rw [Shard.row, Shard.row]
  generalize left.columns = here, right.columns = there at columns
  induction columns with
  | nil => rfl
  | cons first _ inductionHypothesis =>
      obtain ⟨sameName, sameColumn⟩ := first
      simp only [List.filterMap_cons, sameName, sameColumn.values row, inductionHypothesis]

theorem AgreesWith.rows_eq {left right : Shard} (agrees : left.AgreesWith right) :
    left.rows = right.rows := by
  have sameRow : left.row = right.row := funext agrees.row_eq
  rw [rows, rows, rowIds, rowIds, agrees.rowCount, agrees.lowestRow, sameRow]

end Shard

/-! ## Restoring -/

namespace ShardSnapshot

theorem restore_capture_eq_ok {shard : Shard} (readable : shard.IsReadable) :
    (capture shard).restore = .ok shard.encodedAgain := by
  have areRestored := restoreColumns_capture fun entry isEntry =>
    (readable.columns entry isEntry).ascending
  have covers : ∀ entry ∈ shard.encodedAgain.columns,
      ∃ values, entry.2.Shows shard.lowestRow values ∧ values.length = shard.rowCount := by
    intro entry isEntry
    obtain ⟨before, wasEntry, rfl⟩ := List.mem_map.mp isEntry
    exact (readable.columns before wasEntry).exists_shows
  have sameOrder : OrderedMap.ofEntries shard.encodedAgain.columns = shard.encodedAgain.columns :=
    OrderedMap.ofEntries_eq_self (List.pairwise_map.mpr readable.ordered)
  have sameCount :
      (if shard.encodedAgain.columns = [] then 0 else shard.rowCount) = shard.rowCount := by
    split
    · rename_i noColumns
      exact (readable.empty (List.map_eq_nil_iff.mp noColumns)).symm
    · rfl
  have assembled := Shard.assemble_eq_ok shard.table covers
  rw [sameOrder, sameCount] at assembled
  simp only [restore, capture, areRestored]
  exact assembled

theorem restoreAll_capture_eq_ok {shards : List Shard}
    (readable : ∀ shard ∈ shards, shard.IsReadable) :
    restoreAll (shards.map capture) = .ok (shards.map Shard.encodedAgain) := by
  induction shards with
  | nil => rfl
  | cons shard rest inductionHypothesis =>
      have first := restore_capture_eq_ok (readable shard List.mem_cons_self)
      have others := inductionHypothesis fun other member =>
        readable other (List.mem_cons_of_mem _ member)
      simp only [List.map_cons, restoreAll, first, others]

end ShardSnapshot

namespace FlattenedTable

/-- Every shard can be read, the shards stand in the order of their rows, and the first rows of the
source ascend. -/
structure IsReadable (table : FlattenedTable) : Prop where
  shards : ∀ shard ∈ table.shards, shard.IsReadable
  inRowOrder : table.IsInRowOrder
  ascending : Ascending table.originalFirstRows

/-- Both tables have the same names and sources, and shard by shard they agree. -/
structure AgreesWith (left right : FlattenedTable) : Prop where
  name : left.name = right.name
  source : left.source = right.source
  flattenBy : left.flattenBy = right.flattenBy
  id : left.id = right.id
  originalFirstRows : left.originalFirstRows = right.originalFirstRows
  shards : List.Forall₂ Shard.AgreesWith left.shards right.shards

theorem AgreesWith.showsSameAs {left right : FlattenedTable} (agrees : left.AgreesWith right) :
    left.ShowsSameAs right := by
  have sameOf {α : Type} (property : Shard → α)
      (same : ∀ here there : Shard, here.AgreesWith there → property here = property there) :
      left.shards.map property = right.shards.map property := by
    have related := agrees.shards.imp same
    rwa [← List.forall₂_map_right_iff, ← List.forall₂_map_left_iff, List.forall₂_eq_eq_eq]
      at related
  exact ⟨agrees.name, agrees.source, agrees.flattenBy, agrees.originalFirstRows,
    sameOf Shard.lowestRow fun _ _ same => same.lowestRow,
    sameOf Shard.rows fun _ _ same => same.rows_eq⟩

/-- The table with all its columns encoded anew. -/
def encodedAgain (table : FlattenedTable) : FlattenedTable :=
  { table with shards := table.shards.map Shard.encodedAgain }

theorem IsReadable.encodedAgain_agreesWith {table : FlattenedTable} (readable : table.IsReadable) :
    table.encodedAgain.AgreesWith table := by
  refine ⟨rfl, rfl, rfl, rfl, rfl, ?_⟩
  apply List.forall₂_map_left_iff.mpr
  apply List.forall₂_same.mpr
  intro shard isShard
  exact (readable.shards shard isShard).encodedAgain_agreesWith

end FlattenedTable

theorem Snapshot.restore_capture_eq_ok {table : FlattenedTable} (readable : table.IsReadable)
    (createdSeconds : UInt64) :
    (capture table createdSeconds).restore = .ok table.encodedAgain := by
  have sameShards :
      inRowOrder (table.shards.map Shard.encodedAgain) = table.shards.map Shard.encodedAgain := by
    apply inRowOrder_eq_self
    rw [List.map_map]
    exact readable.inRowOrder
  simp only [restore, capture, ShardSnapshot.restoreAll_capture_eq_ok readable.shards,
    FlattenedTable.ofShards, sameShards, sortDistinct_eq_self readable.ascending,
    FlattenedTable.encodedAgain]

/-- A snapshot of a table whose shards can be read is always restored, to a table that agrees with
it. -/
theorem Snapshot.restore_capture_agrees (table : FlattenedTable) (readable : table.IsReadable)
    (createdSeconds : UInt64) :
    ∃ restored, (Snapshot.capture table createdSeconds).restore = .ok restored ∧
      restored.AgreesWith table :=
  ⟨_, restore_capture_eq_ok readable createdSeconds, readable.encodedAgain_agreesWith⟩

theorem Column.isReadable_of_resolved {column : Column} {firstRow : Int} {rowCount : Nat}
    (follow : PagesFollow firstRow column.pages) (covers : column.rowCount = rowCount)
    (resolved : ∀ page ∈ column.pages, ∀ index, index < page.rowCount →
      ((page.id? index).bind column.dictionary.decode?).isSome = true)
    (ascending : column.dictionary.IsAscending)
    (sound : ∀ page ∈ column.pages, page.values.IsSound) :
    column.IsReadable firstRow rowCount := by
  refine ⟨⟨follow, covers, ?_, ascending⟩, sound⟩
  intro page isPage index bound
  have isThere := resolved page isPage index bound
  cases isId : page.id? index with
  | none => simp [isId] at isThere
  | some id => exact ⟨id, rfl, by simpa [isId] using isThere⟩

/-- The first page leaves a row out and renumbers its ids so that they descend, and the second one
picks a row. -/
def adaptedColumn : Column where
  kind := .long
  dictionary := .array #[(5 : Int64), (7 : Int64), (9 : Int64)]
  pages :=
    [⟨10, .renumbered (.plain #[0, 1]) ⟨[(0, 2)]⟩,
        .without (.packed (PackedIds.encode [1, 1, 0])) #[1]⟩,
      ⟨12, .plain #[0, 1], .only (.packed (PackedIds.encode [0, 1])) #[1]⟩]

/-- The negative zero in three rows. -/
def repeatedColumn : Column where
  kind := .double
  dictionary := .constant (⟨0x8000000000000000⟩ : Double)
  pages := [Page.constant 10 3 0]

def adaptedTable : FlattenedTable where
  name := "<t by a>"
  shards := [⟨"<t by a>", 10, 3, [("a", adaptedColumn), ("b", repeatedColumn)]⟩]
  source := "t"
  flattenBy := "a"
  id := default
  originalFirstRows := [10]

theorem isReadable_adaptedTable : adaptedTable.IsReadable := by
  have adapted : adaptedColumn.IsReadable 10 3 := by
    apply Column.isReadable_of_resolved
    case follow => decide +kernel
    case covers => rfl
    case resolved => decide +kernel
    case ascending =>
      have ascending : Ascending [(5 : Int64), 7, 9] := by decide
      exact ascending
    case sound =>
      exact List.forall_mem_cons.mpr ⟨PackedIds.isWellFormed_encode [1, 1, 0],
        List.forall_mem_singleton.mpr (PackedIds.isWellFormed_encode [0, 1])⟩
  have repeated : repeatedColumn.IsReadable 10 3 := by
    apply Column.isReadable_of_resolved
    case follow => decide +kernel
    case covers => rfl
    case resolved => decide +kernel
    case ascending => exact List.pairwise_singleton _ _
    case sound => exact List.forall_mem_singleton.mpr trivial
  constructor
  case shards =>
    intro shard isShard
    cases List.mem_singleton.mp isShard
    refine ⟨List.pairwise_pair.mpr (by decide), ?_, fun noColumns => nomatch noColumns⟩
    exact List.forall_mem_cons.mpr ⟨adapted, List.forall_mem_singleton.mpr repeated⟩
  case inRowOrder => exact List.pairwise_singleton _ _
  case ascending => exact List.pairwise_singleton _ _

theorem Snapshot.restore_capture_agrees_adaptedTable :
    adaptedTable.IsReadable ∧
      ∃ restored, (Snapshot.capture adaptedTable 0).restore = .ok restored ∧
        restored.AgreesWith adaptedTable :=
  ⟨isReadable_adaptedTable, restore_capture_agrees adaptedTable isReadable_adaptedTable 0⟩

end Unnest
