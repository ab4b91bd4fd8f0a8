import Unnest.Error
import Unnest.FieldPath
import Unnest.Json

/-!
# The cells of a document

A document is a row.  Its scalars are cells, each under the path that leads to it: field names
joined by dots, array entries by their positions.  An array has one more cell, its length.  `null`
has none.

Field names must not be empty or look like path syntax, and an array must not be an entry of another
array.
-/

namespace Unnest

/-- A scalar of a document, under its path. -/
structure Cell where
  path : FieldPath
  value : Value
deriving DecidableEq, Repr, Inhabited

namespace Cell

/-- The column of a cell. -/
def column (cell : Cell) : String :=
  cell.path.toText

end Cell

/-- An integer as a long, or as the nearest double where it has more than sixty-four bits. -/
def integerValue (integer : Int) : Value :=
  if Int64.minValue.toInt ≤ integer ∧ integer ≤ Int64.maxValue.toInt then
    .long (Int64.ofInt integer)
  else
    .double (Double.ofInt integer)

/-- A field name that can stand in a path. -/
def isFieldName (name : String) : Bool :=
  !name.isEmpty && name.toList.all fun character =>
    character != '.' && character != '[' && character != ']'

namespace Document

/-- The error for a field name that would not be read back from a path. -/
def invalidFieldName (outer : FieldPath) (name : String) : Error :=
  .invalidColumnValue (outer.toText ++ name)
    "field names must be non-empty and free of '.', '[' and ']'"

/-- The error for an array that is an entry of another array. -/
def nestedArray (path : FieldPath) : Error :=
  .invalidColumnValue path.toText "arrays directly inside arrays are not supported"

mutual

/-- The cells of a value at a path; `isEntry` if the value is an entry of an array. -/
def cellsAt (path : FieldPath) (isEntry : Bool) : Json → Outcome (List Cell)
  | .null => .ok []
  | .bool value => .ok [⟨path, .long (if value then 1 else 0)⟩]
  | .integer value => .ok [⟨path, integerValue value⟩]
  | .double value => .ok [⟨path, .double value⟩]
  | .text value => .ok [⟨path, .text value⟩]
  | .object fields => cellsOfFields path fields
  | .array items =>
      if isEntry then
        .error (nestedArray path)
      else
        match cellsOfItems path 0 items with
        | .error error => .error error
        | .ok cells =>
            let length : Cell :=
              ⟨path.lengthColumn, .long (Int64.ofNat items.length)⟩
            .ok (length :: cells)

/-- The cells of the fields of an object at a path. -/
def cellsOfFields (path : FieldPath) : List (String × Json) → Outcome (List Cell)
  | [] => .ok []
  | (name, value) :: rest =>
      if isFieldName name then
        match cellsAt (path ++ [⟨name, .none⟩]) false value with
        | .error error => .error error
        | .ok cells =>
            match cellsOfFields path rest with
            | .error error => .error error
            | .ok others => .ok (cells ++ others)
      else
        .error (invalidFieldName path name)

/-- The cells of the entries of an array at a path, from a position on. -/
def cellsOfItems (path : FieldPath) (position : Nat) : List Json → Outcome (List Cell)
  | [] => .ok []
  | item :: rest =>
      match cellsAt (path.withLastIndex (.entry position)) true item with
      | .error error => .error error
      | .ok cells =>
          match cellsOfItems path (position + 1) rest with
          | .error error => .error error
          | .ok others => .ok (cells ++ others)

end

/-- The cells of a document, which has to be an object. -/
def cells (row : Int) : Json → Outcome (List Cell)
  | .object fields => cellsOfFields [] fields
  | _ =>
      .error (.invalidColumnValue ("<row " ++ toString row ++ ">") "row is not a JSON object")

/-- The cells of documents that are consecutive rows. -/
def cellsOfAll (firstRow : Int) : List Json → Outcome (List (List Cell))
  | [] => .ok []
  | document :: rest =>
      match cells firstRow document with
      | .error error => .error error
      | .ok found =>
          match cellsOfAll (firstRow + 1) rest with
          | .error error => .error error
          | .ok others => .ok (found :: others)

end Document

end Unnest
