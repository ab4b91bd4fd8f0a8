import Unnest.Error
import Unnest.Page

/-!
# Selecting rows of a page

Some rows of a page become a page of their own, with renumbered column ids.  How the new page is
kept depends on how many rows are dropped: up to a third, the dropped positions are left out on
reading; from two thirds on, the staying positions are picked; in between, the rows are encoded
anew.
-/

namespace Unnest

/-- Rows of a page, by their ascending positions. -/
inductive RowSelection where
  /-- All rows but these. -/
  | without (positions : List Nat)
  /-- These rows. -/
  | only (positions : List Nat)
deriving DecidableEq, Repr, Inhabited

/-- How the rows that stay are kept. -/
inductive PageStrategy where
  | leaveOut
  | pick
  | encodeAnew
deriving DecidableEq, Repr, Inhabited

namespace PageStrategy

/-- The name of a strategy in metrics. -/
def name : PageStrategy → String
  | .leaveOut => "index_removing"
  | .pick => "index_filtering"
  | .encodeAnew => "re_encode"

/-- The strategy for dropping so many of `total` rows. -/
def choose (dropped total : Nat) : PageStrategy :=
  if dropped * 3 ≤ total then .leaveOut
  else if total * 2 ≤ dropped * 3 then .pick
  else .encodeAnew

end PageStrategy

/-- The numbers from `start` on, `count` of them, without the ascending `skipped` ones. -/
def gapsFrom (start : Nat) : Nat → List Nat → List Nat
  | 0, _ => []
  | count + 1, [] => start :: gapsFrom (start + 1) count []
  | count + 1, next :: skipped =>
      if next = start then gapsFrom (start + 1) count skipped
      else start :: gapsFrom (start + 1) count (next :: skipped)

/-- The positions below `total` that are not among the ascending `positions`. -/
def complement (positions : List Nat) (total : Nat) : List Nat :=
  gapsFrom 0 total positions

namespace RowSelection

def positions : RowSelection → List Nat
  | .without positions => positions
  | .only positions => positions

/-- The positions of the rows that are dropped. -/
def dropped (total : Nat) : RowSelection → List Nat
  | .without positions => positions
  | .only positions => complement positions total

/-- The positions of the rows that stay. -/
def kept (total : Nat) : RowSelection → List Nat
  | .without positions => complement positions total
  | .only positions => positions

/-- The number of rows that are dropped. -/
def droppedCount (total : Nat) : RowSelection → Nat
  | .without positions => positions.length
  | .only positions => total - positions.length

/-- The number of rows that stay. -/
def keptCount (total : Nat) : RowSelection → Nat
  | .without positions => total - positions.length
  | .only positions => positions.length

end RowSelection

/-- Each position lies above the one before it. -/
def isAscending : List Nat → Bool
  | [] => true
  | [_] => true
  | first :: second :: rest => first < second && isAscending (second :: rest)

/-- The positions are strictly ascending and within a page of `total` rows. -/
def isWithinPage (positions : List Nat) (total : Nat) : Bool :=
  isAscending positions && positions.getLast?.all fun last => last < total

/-- A page that was cut out of another one, and what it has in common with it. -/
structure CutPage where
  page : Page
  strategy : PageStrategy
  sharesValues : Bool
  sharesDictionary : Bool
deriving Repr, Inhabited

namespace Page

/-- The error for positions that are out of order or out of range. -/
def invalidSelection (page : Page) (selection : RowSelection) : Error :=
  .brokenInvariant "E-PAGE-002" "row selection is not strictly ascending within the page"
    ("page_rows=" ++ toString page.rowCount ++ " selection_len=" ++
      toString selection.positions.length)

/-- The error for a row whose local id does not resolve. -/
def unresolvedRow (page : Page) (position : Nat) : Error :=
  .brokenInvariant "E-PAGE-001" "page value does not resolve through its dictionary"
    ("page_first_row=" ++ toString page.firstRow ++ " position=" ++ toString position)

/-- The dictionary of a page, renumbered if any id changes. -/
def renumberedDictionary (page : Page) (ids : IdMap) : PageDictionary :=
  if ids.isIdentity then page.dictionary else .renumbered page.dictionary ids

/-- The column ids of the rows at the given positions, all of which have to resolve. -/
def resolveAll (page : Page) (dictionary : PageDictionary) : List Nat → Outcome (List Int)
  | [] => .ok []
  | position :: rest =>
      match (page.values.get? position).bind dictionary.decode? with
      | none => .error (page.unresolvedRow position)
      | some id =>
          match resolveAll page dictionary rest with
          | .error error => .error error
          | .ok ids => .ok (id :: ids)

/-- The selected rows of a page as a page that starts at `firstRow`, with renumbered column ids;
none if no row stays. -/
def select (page : Page) (firstRow : Int) (selection : RowSelection) (ids : IdMap) :
    Outcome (Option CutPage) :=
  let total := page.rowCount
  if !isWithinPage selection.positions total then
    .error (page.invalidSelection selection)
  else if selection.keptCount total = 0 then
    .ok none
  else
    let dictionary := page.renumberedDictionary ids
    let dropped := selection.droppedCount total
    let strategy := PageStrategy.choose dropped total
    match strategy with
    | .leaveOut =>
        let values :=
          if dropped = 0 then page.values
          else .without page.values (selection.dropped total).toArray
        .ok (some ⟨⟨firstRow, dictionary, values⟩, strategy, dropped == 0, ids.isIdentity⟩)
    | .pick =>
        let values := PageValues.only page.values (selection.kept total).toArray
        .ok (some ⟨⟨firstRow, dictionary, values⟩, strategy, false, ids.isIdentity⟩)
    | .encodeAnew =>
        match page.resolveAll dictionary (selection.kept total) with
        | .error error => .error error
        | .ok columnIds => .ok (some ⟨.encode firstRow columnIds, strategy, false, false⟩)

end Page

end Unnest
