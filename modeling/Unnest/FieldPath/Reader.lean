import Unnest.Error
import Unnest.FieldPath
import Unnest.Text.Digits

/-!
# Reading field paths

A path is one or more parts separated by dots.  A part is a name without dots and brackets, with an
optional index in brackets: a star, the word `length`, or a number below `2 ^ 32`, which may have a
plus sign and leading zeros.  A length stands only at the end.

The parts are read from left to right, and the first fault found is reported.

A table is flattened by a path of plain names and stars that ends in a star.  The flattened table is
named after its source and the path.
-/

namespace Unnest

/-- What is wrong with the text of a path. -/
inductive PathFault where
  | emptyPath
  | unterminatedIndex
  | indexNotNumber
  | emptyName
  | strayBracket
  | lengthNotLast
deriving DecidableEq, Repr, Inhabited

namespace PathFault

def message : PathFault → String
  | .emptyPath => "empty path"
  | .unterminatedIndex => "unterminated index"
  | .indexNotNumber => "index is not a number"
  | .emptyName => "empty field name"
  | .strayBracket => "stray bracket"
  | .lengthNotLast => "[length] must be the last segment"

end PathFault

namespace FieldPath

/-- The parts of a text between its dots; always at least one. -/
def splitParts : List Char → List (List Char)
  | [] => [[]]
  | character :: rest =>
      match splitParts rest with
      | [] => [[character]]
      | part :: parts =>
          if character = '.' then [] :: part :: parts else (character :: part) :: parts

/-- Positions are below this bound. -/
def positionBound : Nat := UInt32.size

/-- A number below the bound, with an optional plus sign. -/
def readPosition? (text : List Char) : Option Nat :=
  Text.readBelow? positionBound text

/-- The index between brackets. -/
def readIndex? (text : List Char) : Option PathIndex :=
  if text = ['*'] then some .all
  else if text = ['l', 'e', 'n', 'g', 't', 'h'] then some .length
  else (readPosition? text).map .entry

/-- The index at the end of a part, which is empty or starts with an opening bracket. -/
def readSuffix : List Char → Except PathFault PathIndex
  | [] => .ok .none
  | _ :: inner =>
      if inner.getLast? = some ']' then
        match readIndex? inner.dropLast with
        | some index => .ok index
        | none => .error .indexNotNumber
      else
        .error .unterminatedIndex

/-- A name with its index. -/
def readSegment (part : List Char) : Except PathFault PathSegment :=
  let name := part.takeWhile (· ≠ '[')
  match readSuffix (part.dropWhile (· ≠ '[')) with
  | .error fault => .error fault
  | .ok index =>
      if name = [] then .error .emptyName
      else if ']' ∈ name then .error .strayBracket
      else .ok ⟨String.ofList name, index⟩

def readSegments : List (List Char) → Except PathFault FieldPath
  | [] => .ok []
  | part :: parts =>
      match readSegment part with
      | .error fault => .error fault
      | .ok segment =>
          match readSegments parts with
          | .error fault => .error fault
          | .ok segments => .ok (segment :: segments)

/-- Read a path. -/
def read (text : String) : Except PathFault FieldPath :=
  if text.isEmpty then
    .error .emptyPath
  else
    match readSegments (splitParts text.toList) with
    | .error fault => .error fault
    | .ok segments =>
        if segments.dropLast.any (fun segment => segment.index == .length) then
          .error .lengthNotLast
        else
          .ok segments

/-- Read a path, or fail with the error that quotes its text. -/
def parse (text : String) : Outcome FieldPath :=
  match read text with
  | .ok path => .ok path
  | .error fault => .error (.unparsablePath text fault.message)

end FieldPath

/-! ## The field to flatten by -/

/-- Read the field by which a table is flattened. -/
def readTarget (flattenBy : String) : Outcome FieldPath :=
  match FieldPath.read flattenBy with
  | .error fault =>
      .error (.invalidFlattenBy flattenBy (Error.unparsableText flattenBy fault.message))
  | .ok path =>
      if !path.endsWithAll then
        .error (.invalidFlattenBy flattenBy "must end in [*]")
      else if path.any fun segment => segment.index != .none && segment.index != .all then
        .error (.invalidFlattenBy flattenBy "only [*] markers are allowed")
      else
        .ok path

/-- The name of the table that results from flattening `table`. -/
def flattenedTableName (table flattenBy : String) : String :=
  table ++ "#" ++ flattenBy

end Unnest
