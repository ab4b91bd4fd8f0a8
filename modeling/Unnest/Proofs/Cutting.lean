import Mathlib.Data.List.Basic
import Unnest.Flattening.Cutting
import Unnest.Proofs.PageSelection

/-!
# Cutting rows out of pages

Pages that are in the order of their first rows are read as one sequence of rows, which may have
gaps; a row in several pages counts as one of the first of them (`idIn?`).  Cutting ascending rows
out of them gives pages that follow each other without gaps (`PagesRead`) and are read as the
renumbered ids of the rows that the pages hold, in order.
-/

namespace Unnest

/-! ## Pages that follow each other -/

/-- The pages follow each other from a first row on, and the column ids of all their rows are
these. -/
inductive PagesRead : Int → List Page → List Int → Prop
  | nil (firstRow : Int) : PagesRead firstRow [] []
  | cons {page : Page} {here : List Int} {pages : List Page} {later : List Int} :
      page.Reads here →
      PagesRead page.endRow pages later →
      PagesRead page.firstRow (page :: pages) (here ++ later)

namespace PagesRead

theorem append {firstRow : Int} {first second : List Page} {here later : List Int}
    (firstReads : PagesRead firstRow first here)
    (secondReads : PagesRead (firstRow + here.length) second later) :
    PagesRead firstRow (first ++ second) (here ++ later) := by
  induction firstReads with
  | nil firstRow => simpa using secondReads
  | @cons page here pages others pageReads _ inductionHypothesis =>
      have continued : page.endRow + others.length = page.firstRow + (here ++ others).length := by
        rw [Page.endRow, pageReads.1, List.length_append]
        omega
      rw [List.cons_append, List.append_assoc]
      refine cons pageReads (inductionHypothesis ?_)
      rwa [continued]

theorem total_rowCount {firstRow : Int} {pages : List Page} {ids : List Int}
    (reads : PagesRead firstRow pages ids) : total Page.rowCount pages = ids.length := by
  induction reads with
  | nil firstRow => rfl
  | cons pageReads _ inductionHypothesis =>
      rw [total_cons, inductionHypothesis, pageReads.1, List.length_append]

theorem firstRow_le {firstRow : Int} {pages : List Page} {ids : List Int}
    (reads : PagesRead firstRow pages ids) : ∀ page ∈ pages, firstRow ≤ page.firstRow := by
  induction reads with
  | nil firstRow => simp
  | @cons page here pages later pageReads _ inductionHypothesis =>
      intro other member
      rcases List.mem_cons.mp member with rfl | inRest
      · exact Int.le_refl _
      · have := inductionHypothesis other inRest
        rw [Page.endRow] at this
        omega

theorem resolves {firstRow : Int} {pages : List Page} {ids : List Int}
    (reads : PagesRead firstRow pages ids) : ∀ page ∈ pages, page.Resolves := by
  induction reads with
  | nil firstRow => simp
  | cons pageReads _ inductionHypothesis =>
      intro other member
      rcases List.mem_cons.mp member with rfl | inRest
      · exact pageReads.resolves
      · exact inductionHypothesis other inRest

end PagesRead

/-! ## Pages with gaps -/

/-- The pages are in the order of their first rows. -/
def PagesInOrder (pages : List Page) : Prop :=
  pages.Pairwise fun left right => left.firstRow ≤ right.firstRow

/-- Every page ends before the pages after it start. -/
def PagesOrdered (pages : List Page) : Prop :=
  pages.Pairwise fun left right => left.endRow ≤ right.firstRow

theorem PagesOrdered.inOrder {pages : List Page} (ordered : PagesOrdered pages) :
    PagesInOrder pages := by
  apply List.Pairwise.imp _ ordered
  intro left right endsBefore
  rw [Page.endRow] at endsBefore
  omega

/-- The row lies in the page. -/
def Page.Holds (page : Page) (row : Int) : Bool :=
  page.firstRow ≤ row && row < page.endRow

/-- The column id of a row in the first page that holds it. -/
def idIn? (pages : List Page) (row : Int) : Option Int :=
  (pages.find? fun page => page.Holds row).bind fun page =>
    page.id? (row - page.firstRow).toNat

theorem idIn?_cons_of_holds {page : Page} {row : Int} (pages : List Page)
    (startsBefore : page.firstRow ≤ row) (endsBehind : row < page.endRow) :
    idIn? (page :: pages) row = page.id? (row - page.firstRow).toNat := by
  simp [idIn?, Page.Holds, startsBefore, endsBehind]

theorem idIn?_cons_of_endRow_le {page : Page} {row : Int} (pages : List Page)
    (behind : page.endRow ≤ row) : idIn? (page :: pages) row = idIn? pages row := by
  have notHeld : page.Holds row = false := by
    simp [Page.Holds, show ¬ row < page.endRow by omega]
  simp [idIn?, notHeld]

theorem idIn?_eq_none_of_lt {pages : List Page} {row : Int}
    (before : ∀ page ∈ pages, row < page.firstRow) : idIn? pages row = none := by
  have notHeld : pages.find? (fun page => page.Holds row) = none := by
    apply List.find?_eq_none.mpr
    intro page member
    have := before page member
    simp [Page.Holds, show ¬ page.firstRow ≤ row by omega]
  simp [idIn?, notHeld]

theorem PagesRead.pagesOrdered {firstRow : Int} {pages : List Page} {ids : List Int}
    (reads : PagesRead firstRow pages ids) : PagesOrdered pages := by
  induction reads with
  | nil firstRow => exact List.Pairwise.nil
  | cons _ restReads inductionHypothesis =>
      exact List.pairwise_cons.mpr ⟨restReads.firstRow_le, inductionHypothesis⟩

/-- In pages that follow each other, a row is found by its distance from the first one. -/
theorem PagesRead.idIn?_add {firstRow : Int} {pages : List Page} {ids : List Int}
    (reads : PagesRead firstRow pages ids) (offset : Nat) (bound : offset < ids.length) :
    idIn? pages (firstRow + offset) = ids[offset]? := by
  induction reads generalizing offset with
  | nil firstRow => cases bound
  | @cons page here pages later pageReads _ inductionHypothesis =>
      have ends : page.endRow = page.firstRow + here.length := by rw [Page.endRow, pageReads.1]
      by_cases inside : offset < here.length
      · have place : (page.firstRow + offset - page.firstRow).toNat = offset := by omega
        rw [idIn?_cons_of_holds pages (by omega) (by omega), place, pageReads.2 offset inside,
          List.getElem?_append_left inside]
      · rw [List.length_append] at bound
        have row : page.firstRow + offset = page.endRow + (offset - here.length : Nat) := by omega
        rw [idIn?_cons_of_endRow_le pages (by omega), row, inductionHypothesis _ (by omega),
          List.getElem?_append_right (by omega)]

/-! ## Ascending rows -/

theorem le_of_mem_dropWhile {limit : Int} {rows : List Int} (ascending : rows.Pairwise (· < ·)) :
    ∀ row ∈ rows.dropWhile (· < limit), limit ≤ row := by
  induction rows with
  | nil => simp
  | cons first rest inductionHypothesis =>
      obtain ⟨below, restAscending⟩ := List.pairwise_cons.mp ascending
      by_cases isBefore : first < limit
      · simpa [List.dropWhile_cons, isBefore] using inductionHypothesis restAscending
      · simp only [List.dropWhile_cons, isBefore, decide_false, Bool.false_eq_true, if_false]
        intro row member
        rcases List.mem_cons.mp member with rfl | inRest
        · omega
        · have := below row inRest
          omega

theorem lt_of_mem_takeWhile {limit : Int} {rows : List Int} :
    ∀ row ∈ rows.takeWhile (· < limit), row < limit := by
  intro row member
  simpa using List.all_eq_true.mp List.all_takeWhile row member

/-- Rows in a page become ascending positions in it. -/
theorem positionsWithin_of_rows (page : Page) {rows : List Int} (ascending : rows.Pairwise (· < ·))
    (held : ∀ row ∈ rows, page.firstRow ≤ row ∧ row < page.endRow) :
    PositionsWithin (rows.map fun row => (row - page.firstRow).toNat) page.rowCount := by
  constructor
  · rw [List.pairwise_map]
    apply List.Pairwise.imp_of_mem _ ascending
    intro left right leftMember _ below
    have := held left leftMember
    omega
  · intro position member
    obtain ⟨row, isRow, rfl⟩ := List.mem_map.mp member
    have := held row isRow
    rw [Page.endRow] at this
    omega

theorem selectionOf_within {positions : List Nat} {total : Nat}
    (within : PositionsWithin positions total) :
    PositionsWithin (selectionOf positions total).positions total ∧
      (selectionOf positions total).kept total = positions := by
  unfold selectionOf
  split
  · exact ⟨positionsWithin_complement within.1 total, complement_complement within⟩
  · exact ⟨within, rfl⟩

/-! ## Cutting -/

/-- The rows from the first row of a page on, of ascending rows. -/
def rowsFrom (page : Page) (rows : List Int) : List Int :=
  rows.dropWhile (· < page.firstRow)

/-- The rows that lie in a page, of ascending rows. -/
def rowsInside (page : Page) (rows : List Int) : List Int :=
  (rowsFrom page rows).takeWhile (· < page.endRow)

/-- The rows that lie behind a page, of ascending rows. -/
def rowsBehind (page : Page) (rows : List Int) : List Int :=
  (rowsFrom page rows).dropWhile (· < page.endRow)

theorem pairwise_rowsFrom (page : Page) {rows : List Int} (ascending : rows.Pairwise (· < ·)) :
    (rowsFrom page rows).Pairwise (· < ·) :=
  ascending.sublist (List.dropWhile_sublist _)

theorem rowsInside_held (page : Page) {rows : List Int} (ascending : rows.Pairwise (· < ·)) :
    ∀ row ∈ rowsInside page rows, page.firstRow ≤ row ∧ row < page.endRow := by
  intro row member
  exact ⟨le_of_mem_dropWhile ascending row ((List.takeWhile_sublist _).mem member),
    lt_of_mem_takeWhile row member⟩

/-- What is found in pages is found in the first page or in the others. -/
theorem filterMap_idIn?_cons {page : Page} {pages : List Page}
    (inOrder : PagesInOrder (page :: pages)) {rows : List Int}
    (ascending : rows.Pairwise (· < ·)) :
    rows.filterMap (idIn? (page :: pages)) =
      (rowsInside page rows).filterMap (fun row => page.id? (row - page.firstRow).toNat) ++
        (rowsBehind page rows).filterMap (idIn? pages) := by
  have isFirst := (List.pairwise_cons.mp inOrder).1
  have nothingBefore :
      (rows.takeWhile (· < page.firstRow)).filterMap (idIn? (page :: pages)) = [] := by
    apply List.filterMap_eq_nil_iff.mpr
    intro row member
    have isBefore := lt_of_mem_takeWhile row member
    apply idIn?_eq_none_of_lt
    intro other isPage
    rcases List.mem_cons.mp isPage with rfl | inRest
    · exact isBefore
    · have := isFirst other inRest
      omega
  have insideFound :
      (rowsInside page rows).filterMap (idIn? (page :: pages)) =
        (rowsInside page rows).filterMap
          (fun row => page.id? (row - page.firstRow).toNat) := by
    apply List.filterMap_congr
    intro row member
    have held := rowsInside_held page ascending row member
    exact idIn?_cons_of_holds pages held.1 held.2
  have behindFound :
      (rowsBehind page rows).filterMap (idIn? (page :: pages)) =
        (rowsBehind page rows).filterMap (idIn? pages) := by
    apply List.filterMap_congr
    intro row member
    exact idIn?_cons_of_endRow_le pages
      (le_of_mem_dropWhile (pairwise_rowsFrom page ascending) row member)
  rw [← insideFound, ← behindFound, ← List.filterMap_append, rowsInside, rowsBehind,
    List.takeWhile_append_dropWhile, rowsFrom]
  conv_lhs => rw [← List.takeWhile_append_dropWhile (p := (· < page.firstRow)) (l := rows)]
  rw [List.filterMap_append, nothingBefore, List.nil_append]

/-- The rows inside a page are selected from it. -/
theorem select_rowsInside {page : Page} (resolves : page.Resolves) {rows : List Int}
    (ascending : rows.Pairwise (· < ·)) (someInside : rowsInside page rows ≠ [])
    (nextRow : Int) (ids : IdMap) :
    ∃ cut, page.select nextRow
        (selectionOf ((rowsInside page rows).map fun row => (row - page.firstRow).toNat)
          page.rowCount) ids = .ok (some cut) ∧
      cut.page.firstRow = nextRow ∧
      cut.page.Reads (((rowsInside page rows).filterMap fun row =>
        page.id? (row - page.firstRow).toNat).map ids.apply) := by
  let positions := (rowsInside page rows).map fun row => (row - page.firstRow).toNat
  have within : PositionsWithin positions page.rowCount :=
    positionsWithin_of_rows page
      ((pairwise_rowsFrom page ascending).sublist (List.takeWhile_sublist _))
      (rowsInside_held page ascending)
  obtain ⟨selectionWithin, keptPositions⟩ := selectionOf_within within
  have someKept : (selectionOf positions page.rowCount).kept page.rowCount ≠ [] := by
    rw [keptPositions]
    simpa [positions] using someInside
  obtain ⟨source, pageReads⟩ := resolves.exists_reads
  obtain ⟨cut, selected, starts, cutReads, _⟩ :=
    Page.select_eq_ok_some pageReads selectionWithin someKept nextRow ids
  have pickedIds :
      (rowsInside page rows).filterMap (fun row => page.id? (row - page.firstRow).toNat) =
        pick source positions := by
    rw [pick, List.filterMap_map]
    apply List.filterMap_congr
    intro row member
    apply pageReads.2
    rw [← pageReads.1]
    exact within.2 _ (List.mem_map_of_mem member)
  rw [keptPositions, ← pickedIds] at cutReads
  exact ⟨cut, selected, starts, cutReads⟩

/-- Cutting never fails, and gives the rows that some page holds. -/
theorem cutPages_eq_ok (ids : IdMap) {pages : List Page} (inOrder : PagesInOrder pages)
    (resolve : ∀ page ∈ pages, page.Resolves) (nextRow : Int) {rows : List Int}
    (ascending : rows.Pairwise (· < ·)) :
    ∃ cut, cutPages ids nextRow pages rows = .ok cut ∧
      PagesRead nextRow (cut.map OutputPage.page)
        ((rows.filterMap (idIn? pages)).map ids.apply) := by
  induction pages generalizing nextRow rows with
  | nil =>
      have nothing : rows.filterMap (idIn? []) = [] :=
        List.filterMap_eq_nil_iff.mpr fun row _ => rfl
      refine ⟨[], by simp [cutPages], ?_⟩
      rw [nothing]
      exact PagesRead.nil nextRow
  | cons page pages inductionHypothesis =>
      -- Rows before the page are in no page, and those behind it are left to the other pages.
      have restInOrder := (List.pairwise_cons.mp inOrder).2
      have restResolve : ∀ other ∈ pages, other.Resolves :=
        fun other member => resolve other (List.mem_cons_of_mem _ member)
      have behindAscending : (rowsBehind page rows).Pairwise (· < ·) :=
        (pairwise_rowsFrom page ascending).sublist (List.dropWhile_sublist _)
      have continued := fun nextRow =>
        inductionHypothesis restInOrder restResolve nextRow behindAscending
      have found := filterMap_idIn?_cons inOrder ascending
      unfold cutPages
      by_cases noRows : rows = []
      · subst noRows
        exact ⟨[], by simp, PagesRead.nil nextRow⟩
      simp only [noRows, if_false]
      rw [← rowsFrom, ← rowsInside, ← rowsBehind]
      by_cases noneInside : rowsInside page rows = []
      · rw [noneInside, List.filterMap_nil, List.nil_append] at found
        simp only [noneInside, if_true, found]
        exact continued nextRow
      · simp only [noneInside, if_false]
        obtain ⟨cut, selected, starts, cutReads⟩ :=
          select_rowsInside (resolve page List.mem_cons_self) ascending noneInside nextRow ids
        obtain ⟨others, cutOthers, othersRead⟩ := continued (nextRow + cut.page.rowCount)
        have endsThere : cut.page.endRow = nextRow + cut.page.rowCount := by
          rw [Page.endRow, starts]
        refine ⟨⟨cut.page, some cut.strategy⟩ :: others, ?_, ?_⟩
        · rw [selected]
          simp only [cutOthers]
        · rw [found, List.map_append, List.map_cons, ← starts]
          exact PagesRead.cons cutReads (endsThere ▸ othersRead)

theorem total_map_page (cut : List OutputPage) :
    total Page.rowCount (cut.map OutputPage.page) = totalRows cut :=
  total_map _ _ cut

/-- Rows that the pages hold are cut out of them, with their ids renumbered. -/
theorem cutRows_eq_ok (ids : IdMap) {pages : List Page} (inOrder : PagesInOrder pages)
    (resolve : ∀ page ∈ pages, page.Resolves) (nextRow : Int) {rows cells : List Int}
    (ascending : rows.Pairwise (· < ·)) (found : rows.map (idIn? pages) = cells.map some) :
    ∃ cut, cutRows ids nextRow pages rows = .ok cut ∧
      PagesRead nextRow (cut.map OutputPage.page) (cells.map ids.apply) := by
  obtain ⟨cut, isCut, cutRead⟩ := cutPages_eq_ok ids inOrder resolve nextRow ascending
  have sameCells : rows.filterMap (idIn? pages) = cells := by
    calc rows.filterMap (idIn? pages)
        = (rows.map (idIn? pages)).filterMap id := by rw [List.filterMap_map]; rfl
      _ = (cells.map some).filterMap id := by rw [found]
      _ = cells := by simp
  have sameLength : rows.length = cells.length := by simpa using congrArg List.length found
  rw [sameCells] at cutRead
  have allCut : totalRows cut = rows.length := by
    rw [← total_map_page, cutRead.total_rowCount, List.length_map, sameLength]
  exact ⟨cut, by simp [cutRows, isCut, allCut], cutRead⟩

theorem reads_constant (firstRow : Int) (count : Nat) (id : Int) :
    (Page.constant firstRow count id).Reads (List.replicate count id) := by
  constructor
  · simp [Page.constant, Page.rowCount, PageValues.length]
  · intro index bound
    have inside : index < count := by simpa using bound
    simp [Page.constant, Page.id?, PageValues.get?, PageDictionary.decode?, inside]

/-- Constant pages repeat their id. -/
theorem pagesRead_constantPages (maxPageRows : Nat) (id nextRow : Int) (count : Nat) :
    PagesRead nextRow ((constantPages maxPageRows id nextRow count).map OutputPage.page)
      (List.replicate count id) := by
  fun_induction constantPages maxPageRows id nextRow count with
  | case1 nextRow => exact PagesRead.nil nextRow
  | case2 nextRow count notEmpty size inductionHypothesis =>
      have pageReads := reads_constant nextRow size id
      have endsThere : (Page.constant nextRow size id).endRow = nextRow + size := by
        rw [Page.endRow, pageReads.1]
        simp [Page.constant]
      have firstPiece : List.replicate count id =
          List.replicate size id ++ List.replicate (count - size) id := by
        rw [List.replicate_append_replicate]
        congr 1
        omega
      rw [firstPiece, List.map_cons]
      exact PagesRead.cons pageReads (endsThere ▸ inductionHypothesis)

end Unnest
