import Unnest.Json
import Unnest.Shard

/-!
# Reading documents and printing rows

An input file holds an array of documents, or one document on each line that is not blank.  How the
JSON text of an array or of a document is read is a parameter.

Rows are printed as one JSON object on each line, with the number of the row beside its values.
Columns are printed shard by shard, in aligned fields.
-/

namespace Unnest.Text

/-! ## Blanks -/

/-- A character with the property *white space*. -/
def isBlank (character : Char) : Bool :=
  let code := character.toNat
  (9 ≤ code && code ≤ 13) || code == 0x20 || code == 0x85 || code == 0xA0 || code == 0x1680 ||
    (0x2000 ≤ code && code ≤ 0x200A) || code == 0x2028 || code == 0x2029 || code == 0x202F ||
    code == 0x205F || code == 0x3000

/-- A text without its leading blanks. -/
def dropLeadingBlanks (text : List Char) : List Char :=
  text.dropWhile isBlank

/-- A text that holds nothing but blanks. -/
def isAllBlank (text : List Char) : Bool :=
  text.all isBlank

end Unnest.Text

namespace Unnest.CommandLine

/-! ## Documents -/

/-- What is wrong with an input file. -/
inductive InputFault where
  | unreadable
  | malformedArray
  /-- A line, counted from one, that is no document. -/
  | malformedLine (number : Nat)
deriving DecidableEq, Repr, Inhabited

def InputFault.message (file : String) : InputFault → String
  | .unreadable => "Cannot read input: " ++ file
  | .malformedArray => "Invalid JSON array in " ++ file
  | .malformedLine number => file ++ ":" ++ toString number ++ ": invalid JSON row"

/-- The lines of a text; a line feed at the end ends the last line.  A carriage return before a line
feed belongs to it. -/
def linesOf : List Char → List (List Char)
  | [] => []
  | '\n' :: rest => [] :: linesOf rest
  | '\r' :: '\n' :: rest => [] :: linesOf rest
  | character :: rest =>
      match linesOf rest with
      | [] => [[character]]
      | line :: lines => (character :: line) :: lines

section Reading

variable (readJson : String → Option Json)

/-- The documents on lines, of which the first has the given number. -/
def readLines (number : Nat) : List (List Char) → Except InputFault (List Json)
  | [] => .ok []
  | line :: rest =>
      if Text.isAllBlank line then readLines (number + 1) rest
      else
        match readJson (String.ofList line) with
        | none => .error (.malformedLine number)
        | some document =>
            match readLines (number + 1) rest with
            | .error fault => .error fault
            | .ok documents => .ok (document :: documents)

/-- The documents in the text of a file, which may be missing. -/
def readDocuments (contents : Option String) : Except InputFault (List Json) :=
  match contents with
  | none => .error .unreadable
  | some text =>
      match Text.dropLeadingBlanks text.toList with
      | '[' :: _ =>
          match readJson text with
          | some (.array documents) => .ok documents
          | _ => .error .malformedArray
      | _ => readLines readJson 1 (linesOf text.toList)

end Reading

/-! ## Rows and columns -/

/-- A value in a row; a double that is not finite has no JSON form and is printed as `null`. -/
def valueJson : Value → Json
  | .long number => .integer number.toInt
  | .text content => .text content
  | .double number => if number.isFinite then .double number else .null

/-- The name under which the number of a row is printed. -/
def rowIdName : String := "_row_id"

/-- A row as an object.  The number of the row takes the place of a column of the same name. -/
def rowObject (rowId : Int) (row : Row) : Json :=
  .object (OrderedMap.insert rowIdName (.integer rowId)
    (row.map fun (name, value) => (name, valueJson value)))

def printRows (shard : Shard) : String :=
  String.join (shard.rowIds.map fun rowId => (rowObject rowId (shard.row rowId)).write ++ "\n")

/-- A text filled up with blanks to a number of characters. -/
def padded (width : Nat) (text : String) : String :=
  text ++ String.ofList (List.replicate (width - text.length) ' ')

def kindWord : ScalarType → String
  | .long => "Long"
  | .text => "String"
  | .double => "Double"

def printColumn (name : String) (column : Column) : String :=
  "  " ++ padded 24 name ++ " " ++ padded 6 (kindWord column.kind) ++ " dict=" ++
    toString column.dictionary.size ++ " pages=" ++ toString column.pages.length ++ "\n"

def printColumns (shard : Shard) : String :=
  "shard " ++ toString shard.lowestRow ++ " (" ++ toString shard.rowCount ++ " rows)\n" ++
    String.join (shard.columns.map fun (name, column) => printColumn name column)

end Unnest.CommandLine
