import Unnest.Proofs.Cutting
import Unnest.Proofs.Dictionary
import Unnest.Proofs.FieldPathText
import Unnest.Proofs.OrderedMap
import Unnest.Shard

/-!
# Reading columns and shards

A shard is well formed when the pages of every column follow each other from the first row of the
shard on and hold as many rows as the shard has, every stored id resolves to a scalar, the
dictionaries ascend, and the columns are named by paths.  A column of such a shard is read as a
list of scalars (`Column.Reads`) or of values (`Column.Shows`), and a row of the shard holds the
value of every column at its place.
-/

namespace Unnest

/-! ## Columns -/

/-- The first page starts at a row, and every other page where the one before it ends. -/
def PagesFollow : Int → List Page → Prop
  | _, [] => True
  | firstRow, page :: rest => page.firstRow = firstRow ∧ PagesFollow page.endRow rest

instance decidablePagesFollow :
    (firstRow : Int) → (pages : List Page) → Decidable (PagesFollow firstRow pages)
  | _, [] => isTrue trivial
  | firstRow, page :: rest =>
      have := decidablePagesFollow page.endRow rest
      inferInstanceAs (Decidable (page.firstRow = firstRow ∧ PagesFollow page.endRow rest))

namespace Column

/-- The column covers the rows of a range, and every stored id resolves to a scalar. -/
structure IsWellFormed (firstRow : Int) (rowCount : Nat) (column : Column) : Prop where
  follow : PagesFollow firstRow column.pages
  covers : column.rowCount = rowCount
  resolves : ∀ page ∈ column.pages, ∀ index, index < page.rowCount →
    ∃ id, page.id? index = some id ∧ (column.dictionary.decode? id).isSome = true
  ascending : column.dictionary.IsAscending

/-- The column covers the rows from a first row on with these scalars. -/
def Reads (column : Column) (firstRow : Int) (scalars : List column.kind.Carrier) : Prop :=
  ∃ ids, PagesRead firstRow column.pages ids ∧
    ids.map column.dictionary.decode? = scalars.map some

/-- The column covers the rows from a first row on with these values. -/
def Shows (column : Column) (firstRow : Int) (values : List Value) : Prop :=
  ∃ scalars, column.Reads firstRow scalars ∧ scalars.map column.kind.toValue = values

theorem length_eq_of_decoded {α : Type} {dictionary : Dictionary α} {ids : List Int}
    {scalars : List α} (decoded : ids.map dictionary.decode? = scalars.map some) :
    ids.length = scalars.length := by
  simpa using congrArg List.length decoded

/-- A list of items that are all there is a list of items. -/
theorem exists_map_some {α : Type} {found : List (Option α)}
    (present : ∀ item ∈ found, item.isSome = true) : ∃ items : List α, found = items.map some := by
  induction found with
  | nil => exact ⟨[], rfl⟩
  | cons first rest inductionHypothesis =>
      obtain ⟨item, rfl⟩ := Option.isSome_iff_exists.mp (present first List.mem_cons_self)
      obtain ⟨items, rfl⟩ := inductionHypothesis
        fun other member => present other (List.mem_cons_of_mem _ member)
      exact ⟨item :: items, rfl⟩

theorem exists_pagesRead {firstRow : Int} {pages : List Page} (follow : PagesFollow firstRow pages)
    {allowed : Int → Prop} (resolves : ∀ page ∈ pages, ∀ index, index < page.rowCount →
      ∃ id, page.id? index = some id ∧ allowed id) :
    ∃ ids, PagesRead firstRow pages ids ∧ ∀ id ∈ ids, allowed id := by
  induction pages generalizing firstRow with
  | nil => exact ⟨[], PagesRead.nil firstRow, by simp⟩
  | cons page rest inductionHypothesis =>
      obtain ⟨starts, restFollow⟩ := follow
      have pageResolves := resolves page List.mem_cons_self
      have resolved : page.Resolves := by
        intro index bound
        obtain ⟨id, isThere, _⟩ := pageResolves index bound
        simp [isThere]
      obtain ⟨here, pageReads⟩ := resolved.exists_reads
      obtain ⟨later, restRead, restAllowed⟩ := inductionHypothesis restFollow
        fun other member => resolves other (List.mem_cons_of_mem _ member)
      refine ⟨here ++ later, starts ▸ PagesRead.cons pageReads restRead, ?_⟩
      intro id member
      rcases List.mem_append.mp member with inPage | inRest
      · obtain ⟨index, bound, isHere⟩ := List.mem_iff_getElem.mp inPage
        obtain ⟨found, isThere, isAllowed⟩ := pageResolves index (pageReads.1 ▸ bound)
        rw [pageReads.2 index bound, List.getElem?_eq_getElem bound, isHere] at isThere
        exact Option.some.inj isThere ▸ isAllowed
      · exact restAllowed id inRest

theorem IsWellFormed.exists_reads {firstRow : Int} {rowCount : Nat} {column : Column}
    (wellFormed : column.IsWellFormed firstRow rowCount) :
    ∃ scalars, column.Reads firstRow scalars ∧ scalars.length = rowCount := by
  obtain ⟨ids, reads, decode⟩ := exists_pagesRead wellFormed.follow wellFormed.resolves
  obtain ⟨scalars, decoded⟩ :
      ∃ scalars : List column.kind.Carrier,
        ids.map column.dictionary.decode? = scalars.map some := by
    apply exists_map_some
    intro scalar member
    obtain ⟨id, isId, rfl⟩ := List.mem_map.mp member
    exact decode id isId
  refine ⟨scalars, ⟨ids, reads, decoded⟩, ?_⟩
  rw [← length_eq_of_decoded decoded, ← reads.total_rowCount]
  exact wellFormed.covers

theorem pagesRead_encodePages (firstRow : Int) (pieces : List (List Int)) :
    PagesRead firstRow (encodePages firstRow pieces) pieces.flatten := by
  induction pieces generalizing firstRow with
  | nil => exact PagesRead.nil firstRow
  | cons ids rest inductionHypothesis =>
      have pageReads := Page.reads_encode firstRow ids
      have ends : (Page.encode firstRow ids).endRow = firstRow + ids.length := by
        rw [Page.endRow, pageReads.1]
        rfl
      exact PagesRead.cons pageReads (ends ▸ inductionHypothesis (firstRow + ids.length))

theorem follow_of_pagesRead {firstRow : Int} {pages : List Page} {ids : List Int}
    (reads : PagesRead firstRow pages ids) : PagesFollow firstRow pages := by
  induction reads with
  | nil firstRow => exact trivial
  | cons _ _ inductionHypothesis => exact ⟨rfl, inductionHypothesis⟩

theorem resolves_of_pagesRead {firstRow : Int} {pages : List Page} {ids : List Int}
    (reads : PagesRead firstRow pages ids) {page : Page} (isPage : page ∈ pages) {index : Nat}
    (bound : index < page.rowCount) : ∃ id ∈ ids, page.id? index = some id := by
  induction reads with
  | nil firstRow => cases isPage
  | @cons first here rest later pageReads _ inductionHypothesis =>
      rcases List.mem_cons.mp isPage with rfl | inRest
      · have inside : index < here.length := pageReads.1 ▸ bound
        refine ⟨here[index], List.mem_append_left _ (List.getElem_mem inside), ?_⟩
        rw [pageReads.2 index inside, List.getElem?_eq_getElem inside]
      · obtain ⟨id, isId, isThere⟩ := inductionHypothesis inRest
        exact ⟨id, List.mem_append_right _ isId, isThere⟩

/-- A column that is read as a list, with an ascending dictionary, is well formed. -/
theorem Reads.isWellFormed {firstRow : Int} {column : Column} {scalars : List column.kind.Carrier}
    (reads : column.Reads firstRow scalars) (ascending : column.dictionary.IsAscending) :
    column.IsWellFormed firstRow scalars.length := by
  obtain ⟨ids, pagesRead, decoded⟩ := reads
  refine ⟨follow_of_pagesRead pagesRead, ?_, ?_, ascending⟩
  · rw [rowCount, pagesRead.total_rowCount, length_eq_of_decoded decoded]
  · intro page isPage index bound
    obtain ⟨id, isId, isThere⟩ := resolves_of_pagesRead pagesRead isPage bound
    have isScalar : column.dictionary.decode? id ∈ scalars.map some :=
      decoded ▸ List.mem_map_of_mem isId
    obtain ⟨scalar, _, isDecoded⟩ := List.mem_map.mp isScalar
    exact ⟨id, isThere, by rw [← isDecoded]; rfl⟩

/-! ### Looking up rows -/

theorem idAt?_eq {column : Column} {firstRow : Int} {ids : List Int}
    (reads : PagesRead firstRow column.pages ids) (row : Int) :
    column.idAt? row = if firstRow ≤ row then ids[(row - firstRow).toNat]? else none := by
  obtain ⟨kind, dictionary, pages⟩ := column
  simp only [idAt?, pageAt?] at reads ⊢
  induction reads with
  | nil firstRow => simp [pageBefore?]
  | @cons page here pages later pageReads restRead inductionHypothesis =>
      have ends : page.endRow = page.firstRow + here.length := by rw [Page.endRow, pageReads.1]
      by_cases before : row < page.firstRow
      · have notFrom : ¬ page.firstRow ≤ row := by omega
        simp [pageBefore?, notFrom]
      have startsBefore : page.firstRow ≤ row := by omega
      have restBehind := restRead.firstRow_le
      -- The page is the one to look into unless a page behind it starts at or before the row, too.
      cases shape : pages.takeWhile fun page => page.firstRow ≤ row with
      | nil =>
          simp only [pageBefore?, shape, List.getLast?_nil, Option.filter_none,
            Option.bind_none] at inductionHypothesis
          simp only [pageBefore?, List.takeWhile_cons, startsBefore, decide_true, if_true, shape,
            List.getLast?_singleton]
          by_cases inside : row < page.endRow
          · have bound : (row - page.firstRow).toNat < here.length := by omega
            rw [Option.filter_some_pos (by simpa using inside), Option.bind_some,
              pageReads.2 _ bound, List.getElem?_append_left bound]
          · have isBehind : page.endRow ≤ row := by omega
            have place : (row - page.firstRow).toNat - here.length = (row - page.endRow).toNat := by
              omega
            rw [Option.filter_some_neg (by simpa using inside),
              List.getElem?_append_right (by omega), place]
            simpa [isBehind] using inductionHypothesis
      | cons next others =>
          have nextMember : next ∈ pages :=
            (List.takeWhile_sublist _).mem (shape ▸ List.mem_cons_self)
          have nextFrom : next.firstRow ≤ row := by
            have := List.all_eq_true.mp
              (List.all_takeWhile (p := fun page : Page => page.firstRow ≤ row) (l := pages)) next
              (shape ▸ List.mem_cons_self)
            simpa using this
          have isBehind : page.endRow ≤ row := Int.le_trans (restBehind next nextMember) nextFrom
          have place : (row - page.firstRow).toNat - here.length = (row - page.endRow).toNat := by
            omega
          have sameLast :
              pageBefore? row (page :: pages) = pageBefore? row pages := by
            simp [pageBefore?, startsBefore, shape, List.getLast?_cons]
          rw [sameLast, inductionHypothesis]
          simp only [startsBefore, isBehind, if_true]
          rw [List.getElem?_append_right (by omega), place]

theorem idAt?_add {column : Column} {firstRow : Int} {ids : List Int}
    (reads : PagesRead firstRow column.pages ids) (offset : Nat) :
    column.idAt? (firstRow + offset) = ids[offset]? := by
  have isBehind : firstRow ≤ firstRow + offset := by omega
  have place : (firstRow + offset - firstRow).toNat = offset := by omega
  rw [idAt?_eq reads, if_pos isBehind, place]

theorem Reads.scalarAt?_add {column : Column} {firstRow : Int} {scalars : List column.kind.Carrier}
    (reads : column.Reads firstRow scalars) (offset : Nat) :
    column.scalarAt? (firstRow + offset) = scalars[offset]? := by
  obtain ⟨ids, pagesRead, decoded⟩ := reads
  rw [scalarAt?, idAt?_add pagesRead]
  have there := congrArg (fun found => found[offset]?) decoded
  simp only [List.getElem?_map] at there
  cases isId : ids[offset]? with
  | none =>
      cases isScalar : scalars[offset]? with
      | none => rfl
      | some scalar => simp [isId, isScalar] at there
  | some id =>
      cases isScalar : scalars[offset]? with
      | none => simp [isId, isScalar] at there
      | some scalar => simpa [isId, isScalar] using there

/-- In a column that is read as a list, looking through the pages finds the same scalar. -/
theorem Reads.idIn?_bind_decode? {column : Column} {firstRow : Int}
    {scalars : List column.kind.Carrier} (reads : column.Reads firstRow scalars) {offset : Nat}
    (bound : offset < scalars.length) :
    (idIn? column.pages (firstRow + offset)).bind column.dictionary.decode? =
      column.scalarAt? (firstRow + offset) := by
  obtain ⟨ids, pagesRead, decoded⟩ := reads
  have sameLength := length_eq_of_decoded decoded
  rw [pagesRead.idIn?_add offset (sameLength ▸ bound), scalarAt?, idAt?_add pagesRead]

theorem Reads.rowCount_eq {column : Column} {firstRow : Int} {scalars : List column.kind.Carrier}
    (reads : column.Reads firstRow scalars) : column.rowCount = scalars.length := by
  obtain ⟨ids, pagesRead, decoded⟩ := reads
  rw [← length_eq_of_decoded decoded, ← pagesRead.total_rowCount]
  rfl

theorem head?_firstRow {firstRow : Int} {pages : List Page} {ids : List Int}
    (reads : PagesRead firstRow pages ids) :
    pages.head?.map Page.firstRow = none ∨ pages.head?.map Page.firstRow = some firstRow := by
  cases reads with
  | nil => exact Or.inl rfl
  | cons => exact Or.inr rfl

theorem Reads.firstRow?_eq {column : Column} {firstRow : Int} {scalars : List column.kind.Carrier}
    (reads : column.Reads firstRow scalars) :
    column.firstRow? = none ∨ column.firstRow? = some firstRow := by
  obtain ⟨ids, pagesRead, _⟩ := reads
  exact head?_firstRow pagesRead

theorem Shows.valueAt?_add {column : Column} {firstRow : Int} {values : List Value}
    (shows : column.Shows firstRow values) (offset : Nat) :
    column.valueAt? (firstRow + offset) = values[offset]? := by
  obtain ⟨scalars, reads, rfl⟩ := shows
  rw [valueAt?, reads.scalarAt?_add, List.getElem?_map]

theorem Shows.rowCount_eq {column : Column} {firstRow : Int} {values : List Value}
    (shows : column.Shows firstRow values) : column.rowCount = values.length := by
  obtain ⟨scalars, reads, rfl⟩ := shows
  rw [reads.rowCount_eq, List.length_map]

theorem Shows.firstRow?_eq {column : Column} {firstRow : Int} {values : List Value}
    (shows : column.Shows firstRow values) :
    column.firstRow? = none ∨ column.firstRow? = some firstRow := by
  obtain ⟨scalars, reads, _⟩ := shows
  exact reads.firstRow?_eq

/-- Pages that follow each other are not moved by sorting. -/
theorem pages_ofPages {kind : ScalarType} (dictionary : Dictionary kind.Carrier) {firstRow : Int}
    {pages : List Page} {ids : List Int} (reads : PagesRead firstRow pages ids) :
    (ofPages kind dictionary pages).pages = pages :=
  mergeSort_by_eq_self Page.firstRow reads.pagesOrdered.inOrder

/-- The column of a list of scalars is read as this list. -/
theorem reads_ofScalars (kind : ScalarType) (firstRow : Int) (scalars : List kind.Carrier)
    (maxPageRows : Nat) : (ofScalars kind firstRow scalars maxPageRows).Reads firstRow scalars := by
  let dictionary := Dictionary.ofList scalars
  let ids := scalars.map fun scalar => (dictionary.idOf? scalar).getD 0
  have pagesRead := pagesRead_encodePages firstRow (chunks maxPageRows ids)
  rw [flatten_chunks] at pagesRead
  have samePages := pages_ofPages dictionary pagesRead
  refine ⟨ids, samePages.symm ▸ pagesRead, ?_⟩
  rw [List.map_map]
  apply List.map_congr_left
  intro scalar member
  have isValue := (Dictionary.mem_ofList scalar scalars).mpr member
  have isId := Dictionary.idOf?_eq_idxOf (Dictionary.isAscending_ofList scalars) isValue
  rw [Function.comp_apply, isId]
  exact Dictionary.decode?_idxOf isValue

/-- Columns made of scalars are well formed, however many rows a page holds. -/
theorem isWellFormed_ofScalars (kind : ScalarType) (firstRow : Int) (scalars : List kind.Carrier)
    (maxPageRows : Nat) :
    (ofScalars kind firstRow scalars maxPageRows).IsWellFormed firstRow scalars.length :=
  (reads_ofScalars kind firstRow scalars maxPageRows).isWellFormed
    (Dictionary.isAscending_ofList scalars)

end Column

/-! ## Shards -/

namespace Shard

/-- Every column covers the rows of the shard and is named by a concrete path. -/
structure IsWellFormed (shard : Shard) : Prop where
  ordered : OrderedMap.IsOrdered shard.columns
  named : ∀ entry ∈ shard.columns, IsColumnName entry.1
  columns : ∀ entry ∈ shard.columns, entry.2.IsWellFormed shard.lowestRow shard.rowCount

theorem checkColumns_eq_ok {lowestRow : Int} {rowCount : Nat} {columns : List (String × Column)}
    (covers : ∀ entry ∈ columns, ∃ values, entry.2.Shows lowestRow values ∧
      values.length = rowCount) :
    checkColumns lowestRow rowCount columns = .ok () := by
  induction columns with
  | nil => rfl
  | cons entry rest inductionHypothesis =>
      obtain ⟨name, column⟩ := entry
      obtain ⟨values, shows, sameLength⟩ := covers (name, column) List.mem_cons_self
      have restOk := inductionHypothesis fun other member =>
        covers other (List.mem_cons_of_mem _ member)
      have sameCount : column.rowCount = rowCount := shows.rowCount_eq.trans sameLength
      rcases shows.firstRow?_eq with noPages | starts
      · simp [checkColumns, sameCount, noPages, restOk]
      · simp [checkColumns, sameCount, starts, restOk]

/-- Columns that cover the same rows are put together. -/
theorem assemble_eq_ok (table : String) {lowestRow : Int} {rowCount : Nat}
    {columns : List (String × Column)}
    (covers : ∀ entry ∈ columns, ∃ values, entry.2.Shows lowestRow values ∧
      values.length = rowCount) :
    assemble table lowestRow columns =
      .ok ⟨table, lowestRow, if columns = [] then 0 else rowCount,
        OrderedMap.ofEntries columns⟩ := by
  cases columns with
  | nil => rfl
  | cons entry rest =>
      obtain ⟨values, shows, sameLength⟩ := covers entry List.mem_cons_self
      have sameCount : entry.2.rowCount = rowCount := shows.rowCount_eq.trans sameLength
      simp only [assemble, List.head?_cons, Option.map_some, Option.getD_some, sameCount,
        checkColumns_eq_ok covers]
      rfl

theorem aligned_of_checkColumns {lowestRow : Int} {rowCount : Nat}
    {columns : List (String × Column)}
    (checked : checkColumns lowestRow rowCount columns = .ok ()) :
    ∀ entry ∈ columns, entry.2.rowCount = rowCount := by
  induction columns with
  | nil => simp
  | cons entry rest inductionHypothesis =>
      have both : entry.2.rowCount = rowCount ∧ checkColumns lowestRow rowCount rest = .ok () := by
        rw [checkColumns] at checked
        split at checked
        · cases checked
        · rename_i sameCount
          refine ⟨of_not_not sameCount, ?_⟩
          split at checked
          · exact checked
          · split at checked
            · exact checked
            · cases checked
      intro other member
      rcases List.mem_cons.mp member with rfl | inRest
      · exact both.1
      · exact inductionHypothesis both.2 other inRest

/-- The shard is put together from these columns, which all have its row count. -/
structure IsAssembledFrom (shard : Shard) (table : String) (lowestRow : Int)
    (entries : List (String × Column)) : Prop where
  table : shard.table = table
  lowestRow : shard.lowestRow = lowestRow
  columns : shard.columns = OrderedMap.ofEntries entries
  aligned : ∀ entry ∈ entries, entry.2.rowCount = shard.rowCount
  rowCount : entries = [] → shard.rowCount = 0

theorem isAssembledFrom_of_assemble {table : String} {lowestRow : Int}
    {columns : List (String × Column)} {shard : Shard}
    (assembled : assemble table lowestRow columns = .ok shard) :
    shard.IsAssembledFrom table lowestRow columns := by
  rw [assemble] at assembled
  split at assembled
  · cases assembled
  · rename_i checked
    cases assembled
    refine ⟨rfl, rfl, rfl, aligned_of_checkColumns checked, ?_⟩
    rintro rfl
    rfl

end Shard

end Unnest
