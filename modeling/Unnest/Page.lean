import Unnest.Dictionary
import Unnest.PackedIds

/-!
# Pages

A page holds the column ids of consecutive rows.  Each row has a local id, and the dictionary of the
page turns local ids into column ids.  A page that is cut out of another one keeps the local ids of
that page behind an adapter, which leaves positions out or picks them, and its dictionary behind a
map of ids; adapters nest to any depth.

A page is read row by row (`id?`) or as a whole (`ids`).  Nothing here checks that positions of an
adapter are ascending and in range, or that local ids resolve: that is `Page.Selection`'s and the
encoder's promise.
-/

namespace Unnest

/-- The column ids behind the local ids of a page. -/
inductive PageDictionary where
  /-- Ascending column ids; a local id is a position. -/
  | plain (ids : Array Int)
  /-- Another dictionary, whose column ids are renumbered. -/
  | renumbered (base : PageDictionary) (ids : IdMap)
  /-- One column id, under the local id zero. -/
  | constant (id : Int)
deriving DecidableEq, Repr, Inhabited

namespace PageDictionary

def size : PageDictionary → Nat
  | .plain ids => ids.size
  | .renumbered base _ => base.size
  | .constant _ => 1

/-- The column id behind a local id. -/
def decode? : PageDictionary → Int → Option Int
  | .plain ids, localId => if 0 ≤ localId then ids[localId.toNat]? else none
  | .renumbered base ids, localId => (base.decode? localId).map ids.apply
  | .constant id, localId => if localId = 0 then some id else none

end PageDictionary

/-- The local ids of a page. -/
inductive PageValues where
  | packed (ids : PackedIds)
  /-- Another sequence without some of its positions, which are ascending. -/
  | without (base : PageValues) (removed : Array Nat)
  /-- Some positions of another sequence, ascending. -/
  | only (base : PageValues) (kept : Array Nat)
  /-- The local id zero, so many times. -/
  | constant (count : Nat)
deriving DecidableEq, Repr, Inhabited

/-- The number of removed positions before the position that stays as number `index`.

As the removed positions ascend, `removed[j] - j` counts the staying positions before `removed[j]`
and never falls, so the answer is a boundary. -/
def removedBefore (removed : Array Nat) (index : Nat) : Nat :=
  boundary
    (fun place =>
      let position := removed.getD place 0
      place ≤ position && position - place ≤ index)
    0 removed.size

namespace PageValues

def length : PageValues → Nat
  | .packed ids => ids.length
  | .without base removed => base.length - removed.size
  | .only _ kept => kept.size
  | .constant count => count

/-- The local id at an index. -/
def get? : PageValues → Nat → Option Int
  | .packed ids, index => ids.get? index
  | .without base removed, index =>
      if index < base.length - removed.size then
        base.get? (index + removedBefore removed index)
      else
        none
  | .only base kept, index => kept[index]?.bind base.get?
  | .constant count, index => if index < count then some 0 else none

/-- All local ids. -/
def toList : PageValues → List Int
  | .packed ids => ids.toList
  | .constant count => List.replicate count 0
  | values => (List.range values.length).filterMap values.get?

end PageValues

/-- The column ids of consecutive rows. -/
structure Page where
  firstRow : Int
  dictionary : PageDictionary
  values : PageValues
deriving DecidableEq, Repr, Inhabited

namespace Page

def rowCount (page : Page) : Nat :=
  page.values.length

/-- The first row behind the page. -/
def endRow (page : Page) : Int :=
  page.firstRow + page.rowCount

/-- The column id at an index of the page. -/
def id? (page : Page) (index : Nat) : Option Int :=
  (page.values.get? index).bind page.dictionary.decode?

/-- The column ids of all rows; a local id that does not resolve is left out. -/
def ids (page : Page) : List Int :=
  page.values.toList.filterMap page.dictionary.decode?

/-- The position of a column id among the ascending ids of a page. -/
def localId (distinct : Array Int) (id : Int) : Int :=
  boundary (fun place => distinct.getD place 0 < id) 0 distinct.size

/-- A page with the given column ids. -/
def encode (firstRow : Int) (ids : List Int) : Page :=
  let distinct := (sortDistinct ids).toArray
  ⟨firstRow, .plain distinct, .packed (PackedIds.encode (ids.map (localId distinct)))⟩

/-- A page of rows that all have the same column id. -/
def constant (firstRow : Int) (count : Nat) (id : Int) : Page :=
  ⟨firstRow, .constant id, .constant count⟩

/-- The same ids at other rows. -/
def startingAt (page : Page) (firstRow : Int) : Page :=
  ⟨firstRow, page.dictionary, page.values⟩

end Page

end Unnest
