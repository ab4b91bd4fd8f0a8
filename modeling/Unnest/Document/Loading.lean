import Unnest.Document.Cells
import Unnest.FieldPath.Reader
import Unnest.Settings
import Unnest.Shard

/-!
# Loading documents

Documents become the rows of shards.  There is a column for every name under which some document has
a cell, and the name is read as a path again.  The cells of a column agree on a type, where longs
among doubles count as doubles, and a row without a cell gets the default of that type, or zero in a
column of lengths.
-/

namespace Unnest

namespace ScalarType

/-- The type that holds the scalars of two types. -/
def unite? : ScalarType → ScalarType → Option ScalarType
  | .long, .long => some .long
  | .text, .text => some .text
  | .double, .double => some .double
  | .long, .double => some .double
  | .double, .long => some .double
  | _, _ => none

/-- A value as a scalar of a type: itself, or a long as the nearest double. -/
def ofCell? : (kind : ScalarType) → Value → Option kind.Carrier
  | .long, .long value => some value
  | .text, .text value => some value
  | .double, .double value => some value
  | .double, .long value => some (Double.ofInt value.toInt)
  | _, _ => none

end ScalarType

namespace Document

/-- The type of a column with the given cells, after cells of the type `seen`. -/
def kindOfCells (column : String) (seen : Option ScalarType) :
    List (Option Value) → Outcome ScalarType
  | [] => .ok (seen.getD .long)
  | none :: rest => kindOfCells column seen rest
  | some value :: rest =>
      match seen with
      | none => kindOfCells column (some value.kind) rest
      | some first =>
          match first.unite? value.kind with
          | some united => kindOfCells column (some united) rest
          | none => .error (.mixedColumn column first value.kind)

/-- The column of a name with the given cells, one for each row. -/
def columnOfCells (settings : FlattenSettings) (lowestRow : Int) (name : String)
    (cells : List (Option Value)) : Outcome Column :=
  match FieldPath.parse name with
  | .error error => .error error
  | .ok path =>
      match kindOfCells name none cells with
      | .error error => .error error
      | .ok kind =>
          let fill := settings.fill kind path.isLengthColumn
          let scalars := cells.map fun cell => (cell.bind kind.ofCell?).getD fill
          .ok (Column.ofScalars kind lowestRow scalars settings.maxPageRows)

/-- The names under which some row has a cell, each once and in order. -/
def columnNames (rows : List Row) : List String :=
  OrderedMap.keys (OrderedMap.ofEntries rows.flatten)

/-- The columns of the given names. -/
def columnsAt (settings : FlattenSettings) (lowestRow : Int) (rows : List Row) :
    List String → Outcome (List (String × Column))
  | [] => .ok []
  | name :: rest =>
      match
        columnOfCells settings lowestRow name (rows.map fun row => OrderedMap.find? name row)
      with
      | .error error => .error error
      | .ok column =>
          match columnsAt settings lowestRow rows rest with
          | .error error => .error error
          | .ok others => .ok ((name, column) :: others)

/-- The cells of a document by column name. -/
def rowOfCells (cells : List Cell) : Row :=
  OrderedMap.ofEntries (cells.map fun cell => (cell.column, cell.value))

/-- Load documents as the rows of one shard. -/
def loadShard (settings : FlattenSettings) (table : String) (lowestRow : Int)
    (documents : List Json) : Outcome Shard :=
  match cellsOfAll lowestRow documents with
  | .error error => .error error
  | .ok rows =>
      match
        columnsAt settings lowestRow (rows.map rowOfCells) (columnNames (rows.map rowOfCells))
      with
      | .error error => .error error
      | .ok columns => Shard.assemble table lowestRow columns

/-- Load pieces of documents as shards that follow each other. -/
def loadPieces (settings : FlattenSettings) (table : String) (lowestRow : Int) :
    List (List Json) → Outcome (List Shard)
  | [] => .ok []
  | documents :: rest =>
      match loadShard settings table lowestRow documents with
      | .error error => .error error
      | .ok shard =>
          match loadPieces settings table (lowestRow + documents.length) rest with
          | .error error => .error error
          | .ok others => .ok (shard :: others)

/-- Load documents as shards of `shardRows` rows each, from row zero on. -/
def loadShards (settings : FlattenSettings) (table : String) (shardRows : Nat)
    (documents : List Json) : Outcome (List Shard) :=
  loadPieces settings table 0 (chunks shardRows documents)

end Document

end Unnest
