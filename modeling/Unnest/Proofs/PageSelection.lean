import Unnest.Proofs.PageReading

/-!
# Selecting rows of a page

The rows that are selected from a page are read with their ids renumbered once, in whichever of
the three ways they are kept.  The positions of a selection have to be strictly ascending and
within the page; that is the only way to fail.
-/

namespace Unnest

namespace RowSelection

/-- The row at a position stays. -/
def keeps : RowSelection → Nat → Bool
  | .without positions, position => decide (position ∉ positions)
  | .only positions, position => decide (position ∈ positions)

variable {selection : RowSelection} {total : Nat}

theorem kept_eq_filter (within : PositionsWithin selection.positions total) :
    selection.kept total = (List.range total).filter selection.keeps := by
  cases selection with
  | without positions => exact complement_eq_filter within.1 total
  | only positions =>
      apply List.Pairwise.eq_of_mem_iff within.1 (List.Pairwise.filter _ List.pairwise_lt_range)
      intro position
      simp only [List.mem_filter, List.mem_range, keeps, decide_eq_true_eq]
      exact ⟨fun member => ⟨within.2 position member, member⟩, And.right⟩

theorem positionsWithin_dropped (within : PositionsWithin selection.positions total) :
    PositionsWithin (selection.dropped total) total := by
  cases selection with
  | without positions => exact within
  | only positions => exact positionsWithin_complement within.1 total

theorem positionsWithin_kept (within : PositionsWithin selection.positions total) :
    PositionsWithin (selection.kept total) total := by
  cases selection with
  | without positions => exact positionsWithin_complement within.1 total
  | only positions => exact within

theorem kept_eq_complement (within : PositionsWithin selection.positions total) :
    selection.kept total = complement (selection.dropped total) total := by
  cases selection with
  | without positions => rfl
  | only positions => exact (complement_complement within).symm

theorem keptCount_eq_length (within : PositionsWithin selection.positions total) :
    selection.keptCount total = (selection.kept total).length := by
  cases selection with
  | without positions =>
      have := length_complement within
      simp only [keptCount, kept, RowSelection.positions] at this ⊢
      omega
  | only positions => rfl

theorem droppedCount_eq_length (within : PositionsWithin selection.positions total) :
    selection.droppedCount total = (selection.dropped total).length := by
  cases selection with
  | without positions => rfl
  | only positions =>
      have := length_complement within
      simp only [droppedCount, dropped, RowSelection.positions] at this ⊢
      omega

end RowSelection

namespace Page

variable {page : Page} {source : List Int}

theorem decode?_renumberedDictionary (page : Page) (ids : IdMap) (localId : Int) :
    (page.renumberedDictionary ids).decode? localId =
      (page.dictionary.decode? localId).map ids.apply := by
  unfold renumberedDictionary
  by_cases identical : ids.isIdentity = true
  · obtain ⟨changed⟩ := ids
    have nothing : changed = [] := by simpa [IdMap.isIdentity] using identical
    subst nothing
    have unchanged : IdMap.apply ⟨[]⟩ = id := rfl
    simp [identical, unchanged]
  · simp [identical, PageDictionary.decode?]

/-- A sequence that reads the local ids of a page at the kept positions makes a page of the kept
rows. -/
theorem Reads.of_get?_eq (reads : page.Reads source) {kept : List Nat}
    (within : ∀ position ∈ kept, position < page.rowCount) {values : PageValues}
    (sameLength : values.length = kept.length)
    (readsKept : ∀ index, index < kept.length →
      values.get? index = kept[index]?.bind page.values.get?)
    (firstRow : Int) (ids : IdMap) :
    Reads ⟨firstRow, page.renumberedDictionary ids, values⟩
      ((pick source kept).map ids.apply) := by
  have inSource : ∀ position ∈ kept, position < source.length := by
    rw [← reads.1]
    exact within
  constructor
  · rw [rowCount, sameLength, List.length_map, length_pick inSource]
  · intro index bound
    have inKept : index < kept.length := by simpa [length_pick inSource] using bound
    have isThere := reads.2 kept[index] (inSource _ (List.getElem_mem inKept))
    rw [id?] at isThere
    rw [id?, readsKept index inKept, List.getElem?_map, getElem?_pick inSource,
      List.getElem?_eq_getElem inKept, Option.bind_some, Option.bind_some, ← isThere]
    cases page.values.get? kept[index] with
    | none => rfl
    | some localId => exact decode?_renumberedDictionary page ids localId

theorem resolveAll_eq_ok (reads : page.Reads source) {kept : List Nat}
    (within : ∀ position ∈ kept, position < page.rowCount) (ids : IdMap) :
    page.resolveAll (page.renumberedDictionary ids) kept =
      .ok ((pick source kept).map ids.apply) := by
  induction kept with
  | nil => rfl
  | cons position rest inductionHypothesis =>
      have bound : position < source.length := by
        rw [← reads.1]
        exact within position List.mem_cons_self
      have isThere := reads.2 position bound
      rw [id?, List.getElem?_eq_getElem bound] at isThere
      obtain ⟨localId, found, decoded⟩ := Option.bind_eq_some_iff.mp isThere
      have later := inductionHypothesis fun other member =>
        within other (List.mem_cons_of_mem _ member)
      simp only [resolveAll, found, Option.bind_some, decode?_renumberedDictionary, decoded,
        Option.map_some, later]
      simp [pick, List.getElem?_eq_getElem bound]

/-- Selecting at least one row gives a page of the selected rows, read with renumbered ids. -/
theorem select_eq_ok_some (reads : page.Reads source) {selection : RowSelection}
    (within : PositionsWithin selection.positions page.rowCount)
    (someKept : selection.kept page.rowCount ≠ []) (firstRow : Int) (ids : IdMap) :
    ∃ cut, page.select firstRow selection ids = .ok (some cut) ∧
      cut.page.firstRow = firstRow ∧
      cut.page.Reads ((pick source (selection.kept page.rowCount)).map ids.apply) ∧
      (page.values.IsWellFormed → cut.page.values.IsWellFormed) := by
  have valid : isWithinPage selection.positions page.rowCount = true :=
    (isWithinPage_iff _ _).mpr within
  have keptWithin := (RowSelection.positionsWithin_kept within).2
  have droppedWithin := RowSelection.positionsWithin_dropped within
  have notNone : selection.keptCount page.rowCount ≠ 0 := by
    rw [RowSelection.keptCount_eq_length within]
    exact fun empty => someKept (List.eq_nil_of_length_eq_zero empty)
  unfold select
  simp only [valid, Bool.not_true, Bool.false_eq_true, if_false, notNone]
  cases PageStrategy.choose (selection.droppedCount page.rowCount) page.rowCount with
  | leaveOut =>
      by_cases noneDropped : selection.droppedCount page.rowCount = 0
      · -- The page keeps its sequence and gets no adapter.
        have nothingDropped : selection.dropped page.rowCount = [] := by
          rw [RowSelection.droppedCount_eq_length within] at noneDropped
          exact List.eq_nil_of_length_eq_zero noneDropped
        have allKept : selection.kept page.rowCount = List.range page.rowCount := by
          rw [RowSelection.kept_eq_complement within, nothingDropped,
            complement_eq_filter List.Pairwise.nil]
          simp
        simp only [noneDropped, if_true]
        refine ⟨_, rfl, rfl, ?_, fun wellFormed => wellFormed⟩
        apply reads.of_get?_eq keptWithin
        · rw [allKept, List.length_range, rowCount]
        · intro index bound
          rw [allKept, List.length_range] at bound
          rw [allKept, List.getElem?_range bound]
          rfl
      · simp only [noneDropped, if_false]
        have counted := length_complement droppedWithin
        rw [← RowSelection.kept_eq_complement within] at counted
        refine ⟨_, rfl, rfl, ?_, fun wellFormed => ⟨wellFormed, droppedWithin⟩⟩
        apply reads.of_get?_eq keptWithin
        · simp only [PageValues.length, List.size_toArray]
          rw [rowCount] at counted ⊢
          omega
        · intro index _
          rw [RowSelection.kept_eq_complement within]
          exact PageValues.get?_without page.values droppedWithin index
  | pick =>
      refine ⟨_, rfl, rfl, ?_, fun wellFormed =>
        ⟨wellFormed, RowSelection.positionsWithin_kept within⟩⟩
      apply reads.of_get?_eq keptWithin
      · simp [PageValues.length]
      · intro index _
        simp [PageValues.get?]
  | encodeAnew =>
      rw [resolveAll_eq_ok reads keptWithin]
      exact ⟨_, rfl, rfl, reads_encode _ _, fun _ => isWellFormed_encode _ _⟩

/-- Leaving rows out is the same as selecting the others, also in how the page is kept. -/
theorem select_without_eq_select_only {positions : List Nat}
    (within : PositionsWithin positions page.rowCount) (firstRow : Int) (ids : IdMap) :
    page.select firstRow (.without positions) ids =
      page.select firstRow (.only (complement positions page.rowCount)) ids := by
  have gapsWithin := positionsWithin_complement within.1 page.rowCount
  have valid := (isWithinPage_iff _ _).mpr within
  have gapsValid := (isWithinPage_iff _ _).mpr gapsWithin
  have counted := length_complement within
  have sameKeptCount : (RowSelection.without positions).keptCount page.rowCount =
      (RowSelection.only (complement positions page.rowCount)).keptCount page.rowCount := by
    simp only [RowSelection.keptCount]
    omega
  have sameDroppedCount : (RowSelection.without positions).droppedCount page.rowCount =
      (RowSelection.only (complement positions page.rowCount)).droppedCount page.rowCount := by
    simp only [RowSelection.droppedCount]
    omega
  have sameDropped : (RowSelection.without positions).dropped page.rowCount =
      (RowSelection.only (complement positions page.rowCount)).dropped page.rowCount :=
    (complement_complement within).symm
  have sameKept : (RowSelection.without positions).kept page.rowCount =
      (RowSelection.only (complement positions page.rowCount)).kept page.rowCount := rfl
  simp only [select, RowSelection.positions, valid, gapsValid, Bool.not_true, Bool.false_eq_true,
    if_false]
  rw [sameKeptCount, sameDroppedCount, sameDropped, sameKept]

/-- What selecting rows gives.  Positions that are not strictly ascending within the page are the
only reason to fail; no row gives no page, and otherwise the page holds the renumbered ids of the
selected rows, whether it is read as a whole or row by row. -/
theorem select_outcome (page : Page) (wellFormed : page.values.IsWellFormed)
    (resolves : page.Resolves) (firstRow : Int) (selection : RowSelection) (ids : IdMap) :
    (page.select firstRow selection ids = .error (page.invalidSelection selection) ↔
      ¬ PositionsWithin selection.positions page.rowCount) ∧
    (PositionsWithin selection.positions page.rowCount →
      (page.select firstRow selection ids = .ok none ↔
        (List.range page.rowCount).filter selection.keeps = []) ∧
      ((List.range page.rowCount).filter selection.keeps ≠ [] →
        ∃ cut, page.select firstRow selection ids = .ok (some cut) ∧
          cut.page.firstRow = firstRow ∧
          cut.page.ids =
            (pick page.ids ((List.range page.rowCount).filter selection.keeps)).map ids.apply ∧
          ∀ index, cut.page.id? index = cut.page.ids[index]?)) ∧
    (∀ positions, PositionsWithin positions page.rowCount →
      page.select firstRow (.without positions) ids =
        page.select firstRow (.only (complement positions page.rowCount)) ids) := by
  have reads := resolves.reads_ids wellFormed
  have noneKept (within : PositionsWithin selection.positions page.rowCount)
      (empty : selection.kept page.rowCount = []) :
      page.select firstRow selection ids = .ok none := by
    have valid := (isWithinPage_iff _ _).mpr within
    have noCount : selection.keptCount page.rowCount = 0 := by
      rw [RowSelection.keptCount_eq_length within, empty]
      rfl
    simp [select, valid, noCount]
  refine ⟨?_, ?_, fun positions within => select_without_eq_select_only within firstRow ids⟩
  · constructor
    · intro failed within
      by_cases empty : selection.kept page.rowCount = []
      · rw [noneKept within empty] at failed
        cases failed
      · obtain ⟨cut, selected, _⟩ := select_eq_ok_some reads within empty firstRow ids
        rw [selected] at failed
        cases failed
    · intro outside
      have invalid : isWithinPage selection.positions page.rowCount = false := by
        rw [← Bool.not_eq_true, isWithinPage_iff]
        exact outside
      simp [select, invalid]
  · intro within
    rw [← RowSelection.kept_eq_filter within]
    refine ⟨⟨?_, noneKept within⟩, ?_⟩
    · intro selectedNone
      by_contra someKept
      obtain ⟨cut, selected, _⟩ := select_eq_ok_some reads within someKept firstRow ids
      rw [selected] at selectedNone
      cases selectedNone
    · intro someKept
      obtain ⟨cut, selected, starts, cutReads, cutWellFormed⟩ :=
        select_eq_ok_some reads within someKept firstRow ids
      have sameIds := ids_eq_of_reads (cutWellFormed wellFormed) cutReads
      refine ⟨cut, selected, starts, sameIds, ?_⟩
      intro index
      rw [sameIds]
      exact cutReads.id?_eq_getElem? (cutWellFormed wellFormed) index

/-- Rows behind two adapters and a renumbered dictionary. -/
def adaptedPage : Page :=
  ⟨7, .renumbered (.plain #[10, 20]) ⟨[(20, 25)]⟩,
    .only (.without (.packed (.inRuns [⟨1, 3⟩, ⟨0, 6⟩])) #[0]) #[0, 2, 4]⟩

theorem select_outcome_adaptedPage :
    adaptedPage.values.IsWellFormed ∧ adaptedPage.Resolves ∧
      PositionsWithin [1] adaptedPage.rowCount ∧
      ∃ cut, adaptedPage.select 40 (.without [1]) ⟨[(25, 3)]⟩ = .ok (some cut) ∧
        cut.page.firstRow = 40 ∧ cut.page.ids = [3, 10] := by
  have wellFormed : adaptedPage.values.IsWellFormed := by
    simp only [adaptedPage, PageValues.IsWellFormed, PackedIds.IsWellFormed, PositionsWithin]
    decide
  have resolves : adaptedPage.Resolves := by
    unfold Resolves
    decide +kernel
  have within : PositionsWithin [1] adaptedPage.rowCount := by
    unfold PositionsWithin
    decide
  refine ⟨wellFormed, resolves, within, ?_⟩
  obtain ⟨cut, selected, starts, sameIds, _⟩ :=
    ((select_outcome adaptedPage wellFormed resolves 40 (.without [1]) ⟨[(25, 3)]⟩).2.1
      within).2 (by decide)
  refine ⟨cut, selected, starts, ?_⟩
  rw [sameIds]
  decide +kernel

end Page

end Unnest
