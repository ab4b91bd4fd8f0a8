import Unnest.Proofs.RowCounts

/-!
# The rows that the pages of a column hold

When columns are put together, their numbers of rows are compared, and the rows where their first
pages start.  Where the other pages start is not looked at, so that pages may leave rows out or
stand in front of each other.  A column that is accepted has no values in front of the shard, and
at most as many values as the shard has rows; it has one at every row of the shard exactly if its
pages tile the rows (`Shard.covers_iff_tile_of_assemble`).
-/

namespace Unnest

/-- Pages with rows start where the rows of the pages in front of them end, and no page starts
before that. -/
def PagesTile : Int → List Page → Prop
  | _, [] => True
  | start, page :: rest =>
      start ≤ page.firstRow ∧ (page.rowCount ≠ 0 → page.firstRow = start) ∧
        PagesTile (start + page.rowCount) rest

instance decidablePagesTile :
    (start : Int) → (pages : List Page) → Decidable (PagesTile start pages)
  | _, [] => isTrue trivial
  | start, page :: rest =>
      have := decidablePagesTile (start + page.rowCount) rest
      inferInstanceAs (Decidable (start ≤ page.firstRow ∧ _ ∧ _))

namespace PagesTile

variable {start : Int} {pages : List Page}

theorem le_firstRow (tile : PagesTile start pages) :
    ∀ page ∈ pages, start ≤ page.firstRow := by
  induction pages generalizing start with
  | nil => simp
  | cons first rest inductionHypothesis =>
      intro page member
      rcases List.mem_cons.mp member with isFirst | isLater
      · rw [isFirst]
        exact tile.1
      · have behind := inductionHypothesis tile.2.2 page isLater
        omega

/-- If there are rows at all, some page starts at the first one. -/
theorem exists_firstRow (tile : PagesTile start pages) (hasRows : total Page.rowCount pages ≠ 0) :
    ∃ page ∈ pages, page.firstRow = start := by
  induction pages generalizing start with
  | nil => exact absurd rfl hasRows
  | cons first rest inductionHypothesis =>
      by_cases isEmpty : first.rowCount = 0
      · have restRows : total Page.rowCount rest ≠ 0 := by simpa [isEmpty] using hasRows
        rcases inductionHypothesis tile.2.2 restRows with ⟨page, member, starts⟩
        exact ⟨page, List.mem_cons_of_mem _ member, by omega⟩
      · exact ⟨first, List.mem_cons_self, tile.2.1 isEmpty⟩

end PagesTile

/-! ## Looking up a row -/

/-- The last page that starts at or before the row has it. -/
def HoldsRow (pages : List Page) (row : Int) : Prop :=
  ∃ page, Column.pageBefore? row pages = some page ∧ row < page.endRow

theorem pageBefore?_eq_some {row : Int} {pages : List Page} {page : Page}
    (isBefore : Column.pageBefore? row pages = some page) :
    page ∈ pages ∧ page.firstRow ≤ row := by
  have member := List.mem_of_getLast? isBefore
  have starts := List.all_eq_true.mp List.all_takeWhile page member
  exact ⟨(List.takeWhile_sublist _).mem member, of_decide_eq_true starts⟩

theorem not_holdsRow_nil (row : Int) : ¬ HoldsRow [] row := by
  intro held
  rcases held with ⟨page, isBefore, _⟩
  cases isBefore

theorem HoldsRow.exists_page {pages : List Page} {row : Int} (held : HoldsRow pages row) :
    ∃ page ∈ pages, page.firstRow ≤ row ∧ row < page.endRow := by
  rcases held with ⟨page, isBefore, ends⟩
  rcases pageBefore?_eq_some isBefore with ⟨member, starts⟩
  exact ⟨page, member, starts, ends⟩

/-- A row in front of all other pages is looked up in the first page. -/
theorem holdsRow_cons_of_lt {page : Page} {rest : List Page} {row : Int}
    (inFront : ∀ later ∈ rest, row < later.firstRow) :
    HoldsRow (page :: rest) row ↔ page.firstRow ≤ row ∧ row < page.endRow := by
  have noneLater : rest.takeWhile (fun later => decide (later.firstRow ≤ row)) = [] := by
    cases rest with
    | nil => rfl
    | cons later others =>
        have isBehind := inFront later List.mem_cons_self
        simp [isBehind]
  by_cases starts : page.firstRow ≤ row
  · simp [HoldsRow, Column.pageBefore?, starts, noneLater]
  · simp [HoldsRow, Column.pageBefore?, starts]

/-- A row at or behind the start of another page is not looked up in the first page. -/
theorem holdsRow_cons_of_le {page later : Page} {rest : List Page} {row : Int}
    (inOrder : PagesInOrder (page :: rest)) (member : later ∈ rest)
    (starts : later.firstRow ≤ row) :
    HoldsRow (page :: rest) row ↔ HoldsRow rest row := by
  rcases List.pairwise_cons.mp inOrder with ⟨isFirst, restInOrder⟩
  have pageStarts : page.firstRow ≤ row := Int.le_trans (isFirst later member) starts
  cases rest with
  | nil => cases member
  | cons next others =>
      have nextStarts : next.firstRow ≤ row := by
        rcases List.mem_cons.mp member with isNext | isOther
        · rw [← isNext]
          exact starts
        · exact Int.le_trans ((List.pairwise_cons.mp restInOrder).1 later isOther) starts
      simp [HoldsRow, Column.pageBefore?, pageStarts, nextStarts, List.getLast?_cons]

/-- Pages hold at most as many rows as they have. -/
theorem length_le_total_of_holdsRow {pages : List Page} {rows : List Int} (distinct : rows.Nodup)
    (held : ∀ row ∈ rows, HoldsRow pages row) : rows.length ≤ total Page.rowCount pages := by
  let stored := pages.flatMap fun page =>
    (List.range page.rowCount).map fun (offset : Nat) => page.firstRow + (offset : Int)
  have areStored : rows ⊆ stored := by
    intro row member
    rcases (held row member).exists_page with ⟨page, isPage, starts, ends⟩
    rw [Page.endRow] at ends
    refine List.mem_flatMap.mpr
      ⟨page, isPage, List.mem_map.mpr ⟨(row - page.firstRow).toNat, ?_, ?_⟩⟩
    · rw [List.mem_range]
      omega
    · omega
  have count : stored.length = total Page.rowCount pages := by
    simp only [stored, length_flatMap_eq_total, List.length_map, List.length_range]
  rw [← count]
  exact (List.subperm_of_subset distinct areStored).length_le

/-- An interval of rows that pages hold is not longer than they are. -/
theorem sub_le_total_of_holdsRow {pages : List Page} {first stop : Int}
    (held : ∀ row, first ≤ row → row < stop → HoldsRow pages row) :
    stop - first ≤ total Page.rowCount pages := by
  let rows := (List.range (stop - first).toNat).map fun (offset : Nat) => first + (offset : Int)
  have distinct : rows.Nodup := by
    refine List.nodup_range.map fun left right same => ?_
    have sameRow : first + (left : Int) = first + (right : Int) := same
    omega
  have areHeld : ∀ row ∈ rows, HoldsRow pages row := by
    intro row member
    rcases List.mem_map.mp member with ⟨offset, inRange, isRow⟩
    have below := List.mem_range.mp inRange
    exact held row (by omega) (by omega)
  have count := length_le_total_of_holdsRow distinct areHeld
  simp only [rows, List.length_map, List.length_range] at count
  omega

/-! ## Pages that tile a range -/

theorem holdsRow_iff_of_tile {start : Int} {pages : List Page} (inOrder : PagesInOrder pages)
    (tile : PagesTile start pages) (row : Int) :
    HoldsRow pages row ↔ start ≤ row ∧ row < start + total Page.rowCount pages := by
  induction pages generalizing start with
  | nil =>
      have notHeld := not_holdsRow_nil row
      simp only [notHeld, total_nil, false_iff]
      omega
  | cons page rest inductionHypothesis =>
      rcases tile with ⟨starts, startsThere, restTile⟩
      have restHolds := inductionHypothesis (List.pairwise_cons.mp inOrder).2 restTile
      rw [total_cons]
      by_cases isBehind : ∃ later ∈ rest, later.firstRow ≤ row
      · rcases isBehind with ⟨later, member, laterStarts⟩
        have behindPage := restTile.le_firstRow later member
        rw [holdsRow_cons_of_le inOrder member laterStarts, restHolds]
        omega
      · have inFront : ∀ later ∈ rest, row < later.firstRow := by
          intro later member
          exact Int.not_le.mp fun reached => isBehind ⟨later, member, reached⟩
        -- The rows of the rest begin at one of its pages, and the row is in front of them.
        have notInRest : total Page.rowCount rest ≠ 0 → row < start + page.rowCount := by
          intro hasRows
          rcases restTile.exists_firstRow hasRows with ⟨later, member, laterStarts⟩
          rw [← laterStarts]
          exact inFront later member
        rw [holdsRow_cons_of_lt inFront, Page.endRow]
        omega

theorem tile_of_holdsRow_iff {start : Int} {pages : List Page} (inOrder : PagesInOrder pages)
    (behind : ∀ page ∈ pages, start ≤ page.firstRow)
    (holds : ∀ row, HoldsRow pages row ↔
      start ≤ row ∧ row < start + total Page.rowCount pages) : PagesTile start pages := by
  induction pages generalizing start with
  | nil => trivial
  | cons page rest inductionHypothesis =>
      have restInOrder := (List.pairwise_cons.mp inOrder).2
      have starts := behind page List.mem_cons_self
      rw [total_cons] at holds
      -- If another page stood in front of the end of this one, the rows behind its start would be
      -- more than the other pages have.
      have behindPage : ∀ later ∈ rest, start + page.rowCount ≤ later.firstRow := by
        intro later member
        have laterBehind := behind later (List.mem_cons_of_mem _ member)
        have held : ∀ row, later.firstRow ≤ row →
            row < start + (page.rowCount + total Page.rowCount rest : Nat) →
            HoldsRow rest row := by
          intro row isBehind inRange
          rw [← holdsRow_cons_of_le inOrder member isBehind, holds]
          omega
        have count := sub_le_total_of_holdsRow held
        omega
      have startsThere : page.rowCount ≠ 0 → page.firstRow = start := by
        intro hasRows
        have held := (holds start).mpr (by omega)
        rw [holdsRow_cons_of_lt] at held
        · omega
        · intro later member
          have := behindPage later member
          omega
      refine ⟨starts, startsThere, inductionHypothesis restInOrder behindPage ?_⟩
      intro row
      by_cases isBehind : ∃ later ∈ rest, later.firstRow ≤ row
      · rcases isBehind with ⟨later, member, laterStarts⟩
        have := behindPage later member
        rw [← holdsRow_cons_of_le inOrder member laterStarts, holds]
        omega
      · have inFront : ∀ later ∈ rest, row < later.firstRow := by
          intro later member
          exact Int.not_le.mp fun reached => isBehind ⟨later, member, reached⟩
        have notHeld : ¬ HoldsRow rest row := by
          intro held
          rcases held.exists_page with ⟨later, member, laterStarts, _⟩
          exact isBehind ⟨later, member, laterStarts⟩
        have atPage := holds row
        rw [holdsRow_cons_of_lt inFront, Page.endRow] at atPage
        simp only [notHeld, false_iff]
        omega

/-! ## Columns -/

namespace Column

/-- The column was made of pages, which are put in order. -/
def IsOfPages (column : Column) : Prop :=
  ∃ pages, column = ofPages column.kind column.dictionary pages

/-- Every stored id is one of the dictionary. -/
def Resolves (column : Column) : Prop :=
  ∀ page ∈ column.pages, ∀ index, index < page.rowCount →
    ∃ id, page.id? index = some id ∧ (column.dictionary.decode? id).isSome = true

theorem IsOfPages.inOrder {column : Column} (isOfPages : column.IsOfPages) :
    PagesInOrder column.pages := by
  rcases isOfPages with ⟨pages, isColumn⟩
  rw [isColumn]
  exact pairwise_mergeSort_by Page.firstRow pages

theorem Resolves.isSome_valueAt?_iff {column : Column} (resolves : column.Resolves) (row : Int) :
    (column.valueAt? row).isSome = true ↔ HoldsRow column.pages row := by
  rw [valueAt?, Option.isSome_map, scalarAt?, idAt?, pageAt?, HoldsRow]
  cases isBefore : pageBefore? row column.pages with
  | none => simp
  | some page =>
      rcases pageBefore?_eq_some isBefore with ⟨member, starts⟩
      by_cases ends : row < page.endRow
      · have inPage : (row - page.firstRow).toNat < page.rowCount := by
          rw [Page.endRow] at ends
          omega
        rcases resolves page member _ inPage with ⟨id, isThere, decodes⟩
        simp [Option.filter_some, ends, isThere, decodes]
      · simp [Option.filter_some, ends]

end Column

/-! ## Shards -/

namespace Shard

theorem firstRow?_of_checkColumns {lowestRow : Int} {rowCount : Nat}
    {columns : List (String × Column)}
    (checked : checkColumns lowestRow rowCount columns = .ok ()) :
    ∀ entry ∈ columns, ∀ firstRow ∈ entry.2.firstRow?, firstRow = lowestRow := by
  induction columns with
  | nil => simp
  | cons entry rest inductionHypothesis =>
      rw [checkColumns] at checked
      split at checked
      · cases checked
      split at checked
      · rename_i noPages
        rw [List.forall_mem_cons, noPages]
        exact ⟨by simp, inductionHypothesis checked⟩
      · rename_i firstRow isFirst
        split at checked
        · rename_i starts
          rw [List.forall_mem_cons, isFirst]
          refine ⟨?_, inductionHypothesis checked⟩
          intro other same
          rw [← Option.some.inj same]
          exact starts
        · cases checked

theorem le_firstRow_of_assemble {table : String} {lowestRow : Int}
    {entries : List (String × Column)} {shard : Shard}
    (assembled : assemble table lowestRow entries = .ok shard) {entry : String × Column}
    (isEntry : entry ∈ entries) (inOrder : PagesInOrder entry.2.pages) :
    ∀ page ∈ entry.2.pages, lowestRow ≤ page.firstRow := by
  have starts : ∀ firstRow ∈ entry.2.firstRow?, firstRow = lowestRow := by
    rw [assemble] at assembled
    split at assembled
    · cases assembled
    · rename_i checked
      exact firstRow?_of_checkColumns checked entry isEntry
  rw [Column.firstRow?] at starts
  cases shape : entry.2.pages with
  | nil => simp
  | cons first rest =>
      rw [shape] at starts inOrder
      have isLowest : first.firstRow = lowestRow := starts _ rfl
      rw [List.forall_mem_cons, ← isLowest]
      exact ⟨Int.le_refl _, (List.pairwise_cons.mp inOrder).1⟩

/-- A column of an accepted shard has no values in front of the shard and not more values than the
shard has rows.  It has a value at every row of the shard, and at no other row, exactly if its pages
tile the rows. -/
theorem covers_iff_tile_of_assemble {table : String} {lowestRow : Int}
    {entries : List (String × Column)} (areOfPages : ∀ entry ∈ entries, entry.2.IsOfPages)
    (resolve : ∀ entry ∈ entries, entry.2.Resolves) {shard : Shard}
    (assembled : assemble table lowestRow entries = .ok shard) :
    ∀ name column, shard.column? name = some column →
      (∀ row, (column.valueAt? row).isSome = true → lowestRow ≤ row) ∧
      (∀ rows : List Int, rows.Nodup → (∀ row ∈ rows, (column.valueAt? row).isSome = true) →
        rows.length ≤ shard.rowCount) ∧
      ((∀ row, (column.valueAt? row).isSome = true ↔
          lowestRow ≤ row ∧ row < lowestRow + shard.rowCount) ↔
        PagesTile lowestRow column.pages) := by
  intro name column isColumn
  have isAssembled := isAssembledFrom_of_assemble assembled
  have isEntry : (name, column) ∈ entries := by
    have member := OrderedMap.mem_of_find? isColumn
    rw [isAssembled.columns] at member
    exact OrderedMap.mem_of_mem_ofEntries member
  have inOrder := (areOfPages _ isEntry).inOrder
  have behind := le_firstRow_of_assemble assembled isEntry inOrder
  have sameCount : total Page.rowCount column.pages = shard.rowCount :=
    isAssembled.aligned _ isEntry
  simp only [(resolve _ isEntry).isSome_valueAt?_iff, ← sameCount]
  refine ⟨?_, fun rows => length_le_total_of_holdsRow, ?_⟩
  · intro row held
    rcases held.exists_page with ⟨page, member, starts, _⟩
    exact Int.le_trans (behind page member) starts
  · exact ⟨tile_of_holdsRow_iff inOrder behind, holdsRow_iff_of_tile inOrder⟩

/-- Pages of two rows and of one row, and a page without rows behind them. -/
def tiledColumn : Column :=
  ⟨.long, .constant 7, [Page.constant 3 2 0, Page.constant 5 1 0, Page.constant 9 0 0]⟩

/-- As many rows, in pages that leave a row out. -/
def gappedColumn : Column :=
  ⟨.long, .constant 7, [Page.constant 3 2 0, Page.constant 6 1 0]⟩

theorem resolves_of_constantPages {kind : ScalarType} {scalar : kind.Carrier} {pages : List Page}
    (areConstant : ∀ page ∈ pages, ∃ firstRow count, page = Page.constant firstRow count 0) :
    Column.Resolves ⟨kind, .constant scalar, pages⟩ := by
  intro page member index bound
  rcases areConstant page member with ⟨firstRow, count, isConstant⟩
  rw [isConstant] at bound ⊢
  have inPage : index < count := bound
  exact ⟨0, by simp [Page.id?, Page.constant, PageValues.get?, inPage, PageDictionary.decode?], rfl⟩

theorem isOfPages_of_inOrder {column : Column} (inOrder : PagesInOrder column.pages) :
    column.IsOfPages := by
  refine ⟨column.pages, ?_⟩
  rw [Column.ofPages, mergeSort_by_eq_self Page.firstRow inOrder]

theorem covers_iff_tile_of_assemble_tiledColumn :
    tiledColumn.IsOfPages ∧ tiledColumn.Resolves ∧
      assemble "t" 3 [("a", tiledColumn)] = .ok ⟨"t", 3, 3, [("a", tiledColumn)]⟩ ∧
      PagesTile 3 tiledColumn.pages ∧
      ∀ row, (tiledColumn.valueAt? row).isSome = true ↔ 3 ≤ row ∧ row < 3 + 3 := by
  have isOfPages : tiledColumn.IsOfPages := isOfPages_of_inOrder (by unfold PagesInOrder; decide)
  have resolves : tiledColumn.Resolves :=
    resolves_of_constantPages (by simp [Page.constant])
  have assembled : assemble "t" 3 [("a", tiledColumn)] = .ok ⟨"t", 3, 3, [("a", tiledColumn)]⟩ :=
    rfl
  have tile : PagesTile 3 tiledColumn.pages := by decide
  have covers := covers_iff_tile_of_assemble (List.forall_mem_singleton.mpr isOfPages)
    (List.forall_mem_singleton.mpr resolves) assembled "a" tiledColumn rfl
  exact ⟨isOfPages, resolves, assembled, tile, covers.2.2.mpr tile⟩

/-- Pages that leave a row out are accepted, and the column has no value there. -/
theorem gappedColumn_lacks_row :
    gappedColumn.IsOfPages ∧ gappedColumn.Resolves ∧
      assemble "t" 3 [("a", gappedColumn)] = .ok ⟨"t", 3, 3, [("a", gappedColumn)]⟩ ∧
      gappedColumn.valueAt? 5 = none ∧ gappedColumn.valueAt? 6 = some (.long 7) := by
  refine ⟨isOfPages_of_inOrder (by unfold PagesInOrder; decide), ?_, rfl, by decide, by decide⟩
  exact resolves_of_constantPages (by simp [Page.constant])

end Shard

end Unnest
