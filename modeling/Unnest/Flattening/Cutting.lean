import Unnest.Page.Selection
import Unnest.Total

/-!
# Cutting rows out of pages

The rows of an output column are cut out of the pages of its sources, or are defaults.  The pages
that result follow each other; each of them remembers how it was cut.
-/

namespace Unnest

/-- A page of an output column; `strategy` is missing for a page of defaults. -/
structure OutputPage where
  page : Page
  strategy : Option PageStrategy
deriving Repr, Inhabited

/-- The number of rows of pages. -/
def totalRows (pages : List OutputPage) : Nat :=
  total (fun output => output.page.rowCount) pages

/-- The selection of the given positions, in the shorter form. -/
def selectionOf (positions : List Nat) (total : Nat) : RowSelection :=
  if total < positions.length * 2 then
    .without (complement positions total)
  else
    .only positions

/-- Cut ascending rows out of pages that are ordered by their first rows.  Rows in no page are
passed over. -/
def cutPages (ids : IdMap) (nextRow : Int) : List Page → List Int → Outcome (List OutputPage)
  | [], _ => .ok []
  | page :: pages, rows =>
      if rows = [] then
        .ok []
      else
        let remaining := rows.dropWhile (· < page.firstRow)
        let inside := remaining.takeWhile (· < page.endRow)
        let later := remaining.dropWhile (· < page.endRow)
        if inside = [] then
          cutPages ids nextRow pages later
        else
          let positions := inside.map fun row => (row - page.firstRow).toNat
          match page.select nextRow (selectionOf positions page.rowCount) ids with
          | .error error => .error error
          | .ok none => cutPages ids nextRow pages later
          | .ok (some cut) =>
              match cutPages ids (nextRow + cut.page.rowCount) pages later with
              | .error error => .error error
              | .ok others => .ok (⟨cut.page, some cut.strategy⟩ :: others)

/-- The error for rows that the pages do not hold. -/
def uncoveredRows (selected cut : Nat) : Error :=
  .brokenInvariant "E-FLAT-001" "source pages do not cover every selected row"
    ("selected=" ++ toString selected ++ " emitted=" ++ toString cut)

/-- Cut ascending rows out of pages that have to hold all of them. -/
def cutRows (ids : IdMap) (nextRow : Int) (pages : List Page) (rows : List Int) :
    Outcome (List OutputPage) :=
  match cutPages ids nextRow pages rows with
  | .error error => .error error
  | .ok cut =>
      if totalRows cut = rows.length then .ok cut
      else .error (uncoveredRows rows.length (totalRows cut))

/-- Rows that all have the same column id, in pages of at most `maxPageRows` rows. -/
def constantPages (maxPageRows : Nat) (id : Int) (nextRow : Int) (count : Nat) :
    List OutputPage :=
  if count = 0 then
    []
  else
    let size := min count (max maxPageRows 1)
    ⟨Page.constant nextRow size id, none⟩ ::
      constantPages maxPageRows id (nextRow + size) (count - size)
termination_by count
decreasing_by omega

end Unnest
