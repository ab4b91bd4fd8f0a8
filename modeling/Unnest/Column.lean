import Unnest.Page
import Unnest.Total

/-!
# Columns

A column of a shard: its dictionary, and its pages in the order of their first rows.  The column
does not know its name; the shard does.

A value is looked up by its row (`valueAt?`) or all values are listed (`scalars`).  The two agree
when the pages follow each other without gaps, which nothing here checks.
-/

namespace Unnest

/-! ## Chunks -/

/-- Consecutive pieces of `size` items, or of one item if `size` is zero. -/
def chunks {α : Type} (size : Nat) : List α → List (List α)
  | [] => []
  | first :: rest => (first :: rest.take (size - 1)) :: chunks size (rest.drop (size - 1))
termination_by items => items.length
decreasing_by
  simp only [List.length_drop, List.length_cons]
  omega

/-- Nothing is lost or moved. -/
theorem flatten_chunks {α : Type} (size : Nat) (items : List α) :
    (chunks size items).flatten = items := by
  fun_induction chunks size items with
  | case1 => rfl
  | case2 first rest inductionHypothesis =>
      simp [inductionHypothesis]

/-! ## Columns -/

/-- One column of a shard. -/
structure Column where
  kind : ScalarType
  dictionary : Dictionary kind.Carrier
  pages : List Page

namespace Column

instance : Inhabited Column := ⟨.long, Dictionary.empty, []⟩

/-- A column of pages in any order. -/
def ofPages (kind : ScalarType) (dictionary : Dictionary kind.Carrier) (pages : List Page) :
    Column :=
  ⟨kind, dictionary, pages.mergeSort fun left right => left.firstRow ≤ right.firstRow⟩

/-- Encode pieces of column ids as pages that follow each other. -/
def encodePages (firstRow : Int) : List (List Int) → List Page
  | [] => []
  | ids :: rest => Page.encode firstRow ids :: encodePages (firstRow + ids.length) rest

/-- A column of the given scalars, in pages of at most `maxPageRows` rows. -/
def ofScalars (kind : ScalarType) (firstRow : Int) (scalars : List kind.Carrier)
    (maxPageRows : Nat) : Column :=
  let dictionary := Dictionary.ofList scalars
  let ids := scalars.map fun scalar => (dictionary.idOf? scalar).getD 0
  ofPages kind dictionary (encodePages firstRow (chunks maxPageRows ids))

def rowCount (column : Column) : Nat :=
  total Page.rowCount column.pages

/-- The first row, if there is a page. -/
def firstRow? (column : Column) : Option Int :=
  column.pages.head?.map Page.firstRow

/-- The last page that starts at or before a row. -/
def pageBefore? (row : Int) (pages : List Page) : Option Page :=
  (pages.takeWhile fun page => page.firstRow ≤ row).getLast?

/-- The page that holds a row. -/
def pageAt? (column : Column) (row : Int) : Option Page :=
  (pageBefore? row column.pages).filter fun page => row < page.endRow

/-- The column id at a row. -/
def idAt? (column : Column) (row : Int) : Option Int :=
  (column.pageAt? row).bind fun page => page.id? (row - page.firstRow).toNat

/-- The scalar at a row. -/
def scalarAt? (column : Column) (row : Int) : Option column.kind.Carrier :=
  (column.idAt? row).bind column.dictionary.decode?

/-- The value at a row. -/
def valueAt? (column : Column) (row : Int) : Option Value :=
  (column.scalarAt? row).map column.kind.toValue

/-- The long at a row, in a column of longs. -/
def longAt? (column : Column) (row : Int) : Option Int64 :=
  match column.valueAt? row with
  | some (.long value) => some value
  | _ => none

/-- All scalars in row order; what does not resolve is left out. -/
def scalars (column : Column) : List column.kind.Carrier :=
  (column.pages.flatMap Page.ids).filterMap column.dictionary.decode?

/-- The dictionary of a column of the wanted type. -/
def dictionaryOf? (column : Column) (kind : ScalarType) : Option (Dictionary kind.Carrier) :=
  if same : column.kind = kind then some (same ▸ column.dictionary) else none

/-- The same column, `distance` rows further on. -/
def shift (column : Column) (distance : Int) : Column :=
  ⟨column.kind, column.dictionary,
    column.pages.map fun page => page.startingAt (page.firstRow + distance)⟩

end Column

end Unnest
