import Unnest.Cache.Snapshot
import Unnest.Proofs.PageIntegrity
import Unnest.Proofs.RowCounts

/-!
# Columns stay intact

A column is intact when its pages have rows, follow each other and are read consistently, every
stored id resolves to a scalar, and the dictionary ascends.  It has a value at exactly the rows that
it covers.  Columns of scalars are intact, and so are columns that are moved, restored, or built out
of intact ones when a shard is flattened.
-/

namespace Unnest

/-! ## Columns -/

namespace Column

/-- The column covers the rows of a range, and its pages have rows and are read consistently. -/
structure IsIntact (firstRow : Int) (rowCount : Nat) (column : Column) : Prop extends
    IsWellFormed firstRow rowCount column where
  pages : ∀ page ∈ column.pages, page.IsIntact

/-- The page dictionaries ascend, and refer to the dictionary of the column. -/
def HasAscendingPages (column : Column) : Prop :=
  ∀ page ∈ column.pages, page.dictionary.IsAscendingWithin column.dictionary.size

variable {column : Column} {firstRow : Int} {rowCount : Nat}

theorem IsWellFormed.isSome_valueAt?_iff (wellFormed : column.IsWellFormed firstRow rowCount)
    (row : Int) :
    (column.valueAt? row).isSome = true ↔ firstRow ≤ row ∧ row < firstRow + rowCount := by
  obtain ⟨scalars, reads, sameLength⟩ := wellFormed.exists_reads
  by_cases isBehind : firstRow ≤ row
  · obtain ⟨offset, isOffset⟩ := Int.eq_ofNat_of_zero_le (Int.sub_nonneg_of_le isBehind)
    obtain rfl : row = firstRow + offset := by omega
    rw [valueAt?, reads.scalarAt?_add, Option.isSome_map, isSome_getElem?, sameLength]
    omega
  · obtain ⟨ids, pagesRead, _⟩ := reads
    rw [valueAt?, scalarAt?, idAt?_eq pagesRead, if_neg isBehind]
    simp [isBehind]

theorem IsWellFormed.page_resolves (wellFormed : column.IsWellFormed firstRow rowCount)
    {page : Page} (isPage : page ∈ column.pages) : page.Resolves := by
  intro index bound
  obtain ⟨id, isThere, _⟩ := wellFormed.resolves page isPage index bound
  rw [isThere]
  rfl

theorem IsWellFormed.isAscendingWithin_encode (wellFormed : column.IsWellFormed firstRow rowCount)
    {start : Int} {ids : List Int} (isPage : Page.encode start ids ∈ column.pages) :
    (Page.encode start ids).dictionary.IsAscendingWithin column.dictionary.size := by
  apply Page.isAscendingWithin_encode
  intro id member
  have encoded := Page.reads_encode start ids
  obtain ⟨index, bound, rfl⟩ := List.mem_iff_getElem.mp member
  obtain ⟨found, isThere, decodes⟩ := wellFormed.resolves _ isPage index (encoded.1 ▸ bound)
  rw [encoded.2 index bound, List.getElem?_eq_getElem bound] at isThere
  cases isThere
  exact (Dictionary.isSome_decode?_iff _ _).mp decodes

theorem mem_pages_ofPages {kind : ScalarType} {dictionary : Dictionary kind.Carrier}
    {pages : List Page} {page : Page} :
    page ∈ (ofPages kind dictionary pages).pages ↔ page ∈ pages :=
  List.mem_mergeSort

/-! ### Columns of scalars -/

theorem ne_nil_of_mem_chunks {α : Type} {size : Nat} {items piece : List α}
    (isPiece : piece ∈ chunks size items) : piece ≠ [] := by
  fun_induction chunks size items with
  | case1 => cases isPiece
  | case2 first rest inductionHypothesis =>
      rcases List.mem_cons.mp isPiece with rfl | isLater
      · exact List.cons_ne_nil _ _
      · exact inductionHypothesis isLater

theorem exists_piece_of_encodePages {pieces : List (List Int)} {page : Page}
    (isPage : page ∈ encodePages firstRow pieces) :
    ∃ start, ∃ piece ∈ pieces, page = Page.encode start piece := by
  induction pieces generalizing firstRow with
  | nil => cases isPage
  | cons first rest inductionHypothesis =>
      rcases List.mem_cons.mp isPage with rfl | isLater
      · exact ⟨firstRow, first, List.mem_cons_self, rfl⟩
      · obtain ⟨start, piece, isPiece, isEncoded⟩ := inductionHypothesis isLater
        exact ⟨start, piece, List.mem_cons_of_mem _ isPiece, isEncoded⟩

theorem isIntact_ofScalars (kind : ScalarType) (firstRow : Int) (scalars : List kind.Carrier)
    (maxPageRows : Nat) :
    (ofScalars kind firstRow scalars maxPageRows).IsIntact firstRow scalars.length ∧
      (ofScalars kind firstRow scalars maxPageRows).HasAscendingPages := by
  have wellFormed := isWellFormed_ofScalars kind firstRow scalars maxPageRows
  refine ⟨⟨wellFormed, ?_⟩, ?_⟩
  · intro page isPage
    obtain ⟨start, piece, isPiece, rfl⟩ := exists_piece_of_encodePages (mem_pages_ofPages.mp isPage)
    exact Page.isIntact_encode start (ne_nil_of_mem_chunks isPiece)
  · intro page isPage
    obtain ⟨start, piece, _, rfl⟩ := exists_piece_of_encodePages (mem_pages_ofPages.mp isPage)
    exact wellFormed.isAscendingWithin_encode isPage

/-! ### Moved columns -/

theorem follow_startingAt {pages : List Page} (follow : PagesFollow firstRow pages)
    (distance : Int) :
    PagesFollow (firstRow + distance)
      (pages.map fun page => page.startingAt (page.firstRow + distance)) := by
  induction pages generalizing firstRow with
  | nil => trivial
  | cons page rest inductionHypothesis =>
      obtain ⟨starts, restFollow⟩ := follow
      have ends : (page.startingAt (page.firstRow + distance)).endRow = page.endRow + distance := by
        simp only [Page.endRow, Page.startingAt, Page.rowCount]
        omega
      refine ⟨?_, ?_⟩
      · rw [← starts]
        rfl
      · rw [ends]
        exact inductionHypothesis restFollow

theorem IsIntact.shift (intact : column.IsIntact firstRow rowCount) (distance : Int) :
    (column.shift distance).IsIntact (firstRow + distance) rowCount where
  follow := follow_startingAt intact.follow distance
  covers := by
    have sameTotal : (column.shift distance).rowCount = column.rowCount := by
      rw [Column.rowCount, Column.rowCount, Column.shift, total_map]
      rfl
    exact sameTotal.trans intact.covers
  resolves := by
    intro page isPage
    obtain ⟨before, wasPage, rfl⟩ := List.mem_map.mp isPage
    exact intact.resolves before wasPage
  ascending := intact.ascending
  pages := by
    intro page isPage
    obtain ⟨before, wasPage, rfl⟩ := List.mem_map.mp isPage
    have wasIntact := intact.pages before wasPage
    exact ⟨wasIntact.hasRows, wasIntact.sound⟩

theorem HasAscendingPages.shift (ascending : column.HasAscendingPages) (distance : Int) :
    (column.shift distance).HasAscendingPages := by
  intro page isPage
  obtain ⟨before, wasPage, rfl⟩ := List.mem_map.mp isPage
  exact ascending before wasPage

/-! ### Restored columns -/

theorem pagesRead_encodeAgain {pages : List Page} {ids : List Int}
    (reads : PagesRead firstRow pages ids) (sound : ∀ page ∈ pages, page.values.IsSound) :
    PagesRead firstRow (pages.map fun page => Page.encode page.firstRow page.ids) ids := by
  induction reads with
  | nil firstRow => exact PagesRead.nil firstRow
  | @cons page here pages later pageReads _ inductionHypothesis =>
      have sameIds := pageReads.ids_eq (sound page List.mem_cons_self)
      have encoded := Page.reads_encode page.firstRow here
      have ends : (Page.encode page.firstRow here).endRow = page.endRow := by
        rw [Page.endRow, Page.endRow, encoded.1, pageReads.1]
        rfl
      rw [List.map_cons, sameIds]
      refine PagesRead.cons encoded ?_
      rw [ends]
      exact inductionHypothesis fun other member => sound other (List.mem_cons_of_mem _ member)

end Column

namespace DictionaryBuilder

variable {kind : ScalarType}

theorem pushAll_eq_ok (builder : DictionaryBuilder kind) {values : List kind.Carrier}
    (ascending : Ascending (builder.values.toList ++ values)) :
    builder.pushAll values = .ok ⟨builder.values ++ values.toArray⟩ := by
  induction values generalizing builder with
  | nil => simp [pushAll]
  | cons value rest inductionHypothesis =>
      have above : ∀ last ∈ builder.last?, compare last value = .lt := by
        intro last isLast
        have isValue : last ∈ builder.values.toList :=
          Array.mem_toList_iff.mpr (Array.mem_of_back? isLast)
        exact (List.pairwise_append.mp ascending).2.2 last isValue value List.mem_cons_self
      have pushed := inductionHypothesis ⟨builder.values.push value⟩ (by simpa using ascending)
      rw [pushAll, push_eq_ok builder value above]
      simpa using pushed

end DictionaryBuilder

theorem Dictionary.ofAscending_eq_ok {kind : ScalarType} {values : List kind.Carrier}
    (ascending : Ascending values) :
    Dictionary.ofAscending kind values = .ok (.array values.toArray) := by
  have pushed := DictionaryBuilder.pushAll_eq_ok ({} : DictionaryBuilder kind)
    (by simpa using ascending)
  rw [Dictionary.ofAscending, pushed]
  simp [DictionaryBuilder.build]

namespace Column

variable {column : Column} {firstRow : Int} {rowCount : Nat}

/-- The column with its pages encoded anew, as it comes back from a snapshot. -/
def encodedAgain (column : Column) : Column :=
  ofPages column.kind (.array column.dictionary.toArray)
    (column.pages.map fun page => Page.encode page.firstRow page.ids)

theorem decode?_encodedAgain (column : Column) :
    column.encodedAgain.dictionary.decode? = column.dictionary.decode? := by
  funext id
  rw [Dictionary.decode?_eq, Dictionary.decode?_eq]
  rfl

theorem pages_encodedAgain {ids : List Int} (reads : PagesRead firstRow column.pages ids)
    (sound : ∀ page ∈ column.pages, page.values.IsSound) :
    column.encodedAgain.pages =
        column.pages.map (fun page => Page.encode page.firstRow page.ids) ∧
      PagesRead firstRow column.encodedAgain.pages ids := by
  have again := pagesRead_encodeAgain reads sound
  have inOrder := pages_ofPages (.array column.dictionary.toArray) again
  refine ⟨inOrder, ?_⟩
  rw [encodedAgain, inOrder]
  exact again

theorem Reads.encodedAgain {scalars : List column.kind.Carrier}
    (reads : column.Reads firstRow scalars)
    (sound : ∀ page ∈ column.pages, page.values.IsSound) :
    column.encodedAgain.Reads firstRow scalars := by
  obtain ⟨ids, pagesRead, decoded⟩ := reads
  refine ⟨ids, (pages_encodedAgain pagesRead sound).2, ?_⟩
  exact (congrArg (fun decode => ids.map decode) column.decode?_encodedAgain).trans decoded

theorem Shows.encodedAgain {values : List Value} (shows : column.Shows firstRow values)
    (sound : ∀ page ∈ column.pages, page.values.IsSound) :
    column.encodedAgain.Shows firstRow values := by
  obtain ⟨scalars, reads, rfl⟩ := shows
  exact ⟨scalars, reads.encodedAgain sound, rfl⟩

theorem IsWellFormed.encodedAgain (wellFormed : column.IsWellFormed firstRow rowCount)
    (sound : ∀ page ∈ column.pages, page.values.IsSound) :
    column.encodedAgain.IsWellFormed firstRow rowCount := by
  obtain ⟨scalars, reads, rfl⟩ := wellFormed.exists_reads
  exact (reads.encodedAgain sound).isWellFormed wellFormed.ascending

theorem IsIntact.encodedAgain (intact : column.IsIntact firstRow rowCount) :
    column.encodedAgain.IsIntact firstRow rowCount ∧ column.encodedAgain.HasAscendingPages := by
  have sound : ∀ page ∈ column.pages, page.values.IsSound :=
    fun page isPage => (intact.pages page isPage).sound
  have wellFormed := intact.toIsWellFormed.encodedAgain sound
  refine ⟨⟨wellFormed, ?_⟩, ?_⟩
  · intro page isPage
    obtain ⟨before, wasPage, rfl⟩ := List.mem_map.mp (mem_pages_ofPages.mp isPage)
    apply Page.isIntact_encode
    obtain ⟨ids, beforeReads⟩ := (intact.page_resolves wasPage).exists_reads
    rw [beforeReads.ids_eq (sound before wasPage)]
    rintro rfl
    exact (intact.pages before wasPage).hasRows beforeReads.1
  · intro page isPage
    obtain ⟨before, _, rfl⟩ := List.mem_map.mp (mem_pages_ofPages.mp isPage)
    exact wellFormed.isAscendingWithin_encode isPage

end Column

theorem ColumnSnapshot.restore_capture {column : Column}
    (ascending : column.dictionary.IsAscending) (name : String) :
    (ColumnSnapshot.capture name column).restore = .ok (name, column.encodedAgain) := by
  simp only [restore, capture, Dictionary.ofAscending_eq_ok ascending, List.map_map]
  rfl

/-! ### Built columns -/

theorem DictionaryUnion.renumbers_identity {kind : ScalarType}
    (dictionary : Dictionary kind.Carrier) :
    Renumbers IdMap.identity dictionary dictionary where
  decode?_apply := fun _ _ _ => rfl
  apply_lt_apply := fun _ _ _ below _ => below
  apply_eq_self := fun _ _ => rfl

/-- The page is intact, and its ids ascend within a dictionary of the given size. -/
def Page.IsIntactWithin (size : Nat) (page : Page) : Prop :=
  page.IsIntact ∧ page.dictionary.IsAscendingWithin size

/-- What is selected from intact pages is intact after the ids are renumbered. -/
theorem Column.IsIntact.selectionsMeet {column : Column} {firstRow : Int} {rowCount : Nat}
    (intact : column.IsIntact firstRow rowCount) (ascendingPages : column.HasAscendingPages)
    {ids : IdMap} {target : Dictionary column.kind.Carrier}
    (renumbers : DictionaryUnion.Renumbers ids column.dictionary target) :
    SelectionsMeet (Page.IsIntactWithin target.size) ids column.pages := by
  intro page isPage cutRow selection cut selected
  have resolves := intact.page_resolves isPage
  have isCutFrom := (Page.select_eq_some selected).2.2
  exact ⟨Page.isIntact_of_select (intact.pages page isPage).sound resolves selected,
    isCutFrom.isAscendingWithin renumbers (ascendingPages page isPage)⟩

namespace Flattening

variable {kind : ScalarType} {shard : Shard} {layout : RowLayout}
  {entries : List (Int × IndexTuple)}

theorem isIntact_ofPages {name : String} {dictionary : Dictionary kind.Carrier} {firstRow : Int}
    {pages : List OutputPage} {values : List Value}
    (shows : (OutputColumn.ofPages name kind dictionary pages).column.Shows firstRow values)
    (ascending : dictionary.IsAscending)
    (areIntact : ∀ output ∈ pages, output.page.IsIntactWithin dictionary.size) :
    (OutputColumn.ofPages name kind dictionary pages).column.IsIntact firstRow values.length ∧
      (OutputColumn.ofPages name kind dictionary pages).column.HasAscendingPages := by
  obtain ⟨scalars, reads, rfl⟩ := shows
  have isOutput : ∀ page ∈ (OutputColumn.ofPages name kind dictionary pages).column.pages,
      page.IsIntactWithin dictionary.size := by
    intro page isPage
    obtain ⟨output, isThere, rfl⟩ := List.mem_map.mp (Column.mem_pages_ofPages.mp isPage)
    exact areIntact output isThere
  refine ⟨⟨?_, fun page isPage => (isOutput page isPage).1⟩,
    fun page isPage => (isOutput page isPage).2⟩
  rw [List.length_map]
  exact reads.isWellFormed ascending

theorem isIntact_of_keepColumn (laysOut : layout.LaysOut shard entries) {name : String}
    {column : Column} (intact : column.IsIntact shard.lowestRow shard.rowCount)
    (ascendingPages : column.HasAscendingPages) {built : OutputColumn}
    (isBuilt : keepColumn shard layout name column = .ok built) :
    built.column.IsIntact shard.lowestRow entries.length ∧ built.column.HasAscendingPages := by
  obtain ⟨shown, isShown, _, values, shows, sameValues⟩ :=
    keepColumn_shows laysOut name intact.toIsWellFormed
  have sameLength : values.length = entries.length := by
    simpa using congrArg List.length sameValues
  rw [isShown] at isBuilt
  cases isBuilt
  rw [keepColumn] at isShown
  split at isShown
  · cases isShown
  · rename_i pages areCut
    cases isShown
    rw [← sameLength]
    apply isIntact_ofPages shows intact.ascending
    exact meets_of_cutPasses
      (intact.selectionsMeet ascendingPages (DictionaryUnion.renumbers_identity _)) areCut

section Flattened

variable (columns : ∀ entry ∈ shard.columns, entry.2.IsIntact shard.lowestRow shard.rowCount)
  (ascendingPages : ∀ entry ∈ shard.columns, entry.2.HasAscendingPages)

include columns ascendingPages

theorem leavesMeet_of_renumbers {fill : kind.Carrier} {names : List String}
    {union : DictionaryUnion Nat kind}
    (renumbers : ∀ leaf source, (names.map (sourceOf shard kind))[leaf]? = some source →
      DictionaryUnion.Renumbers (union.idMap leaf) (sourceDictionary fill source)
        union.dictionary) :
    LeavesMeet (Page.IsIntactWithin union.dictionary.size) (names.map (sourceOf shard kind))
      union := by
  intro leaf source isSource
  have leafRenumbers := renumbers leaf source isSource
  cases source with
  | none =>
      intro firstRow count notZero
      have isFill := leafRenumbers.decode?_apply 0 (Int.le_refl 0) Int.zero_lt_one
      have inside := (union.dictionary.isSome_decode?_iff _).mp (by rw [isFill]; rfl)
      exact ⟨Page.isIntact_constant firstRow _ notZero,
        PageDictionary.isAscendingWithin_constant inside.1 inside.2⟩
  | some found =>
      obtain ⟨dictionary, pages⟩ := found
      have isMember := List.mem_of_getElem? isSource
      obtain ⟨name, _, isNamed⟩ := List.mem_map.mp isMember
      have isColumn := OrderedMap.mem_of_find? (column?_of_sourceOf isNamed)
      exact (columns _ isColumn).selectionsMeet (ascendingPages _ isColumn) leafRenumbers

theorem isIntact_of_flattenColumn {settings : FlattenSettings}
    (laysOut : layout.LaysOut shard entries) {output : String} {isLength : Bool}
    {nameOf : IndexTuple → String} {built : OutputColumn}
    (isBuilt : flattenColumn settings shard layout output kind isLength
      (layout.leaves.map nameOf) = .ok built) :
    built.column.IsIntact shard.lowestRow entries.length ∧ built.column.HasAscendingPages := by
  have wellFormed : ∀ entry ∈ shard.columns,
      entry.2.IsWellFormed shard.lowestRow shard.rowCount :=
    fun entry isEntry => (columns entry isEntry).toIsWellFormed
  obtain ⟨shown, isShown, _, values, shows, sameValues⟩ :=
    flattenColumn_shows settings wellFormed laysOut output kind isLength nameOf
  have sameLength : values.length = entries.length := by
    simpa using congrArg List.length sameValues
  have readable : ∀ source ∈ (layout.leaves.map nameOf).map (sourceOf shard kind),
      IsReadableSource source shard.rowIds := by
    intro source isSource
    obtain ⟨name, _, rfl⟩ := List.mem_map.mp isSource
    exact isReadableSource_sourceOf wellFormed kind name
  obtain ⟨union, united, unionAscending, renumbers⟩ :=
    exists_leafUnion (settings.fill kind isLength) readable
  rw [isShown] at isBuilt
  cases isBuilt
  simp only [flattenColumn, united] at isShown
  split at isShown
  · cases isShown
  · rename_i pages areCut
    cases isShown
    rw [← sameLength]
    apply isIntact_ofPages shows unionAscending
    -- What is cut for a leaf is renumbered into the union, where ids keep their order.
    refine meets_of_cutRuns (leavesMeet_of_renumbers columns ascendingPages renumbers) ?_ areCut
    intro run isRun
    simpa using laysOut.runLeaves run isRun

end Flattened

end Flattening

end Unnest
