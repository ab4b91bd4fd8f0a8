import Unnest.Document.Loading
import Unnest.Exchange.Page
import Unnest.Table
import Unnest.Total

/-!
# JSON forms of columns, shards and tables

A shard is described by documents or by its columns, a column by its values or by its pages.  A
shard is shown by its rows or in full, with the pages of its columns.
-/

namespace Unnest

/-! ## Reading -/

/-- Read a column and its name; the first row and the page size have defaults. -/
def decodeColumn (firstRow : Int) (maxPageRows : Nat) (json : Json) :
    Decoded (String × Column) := do
  let name ← json.get "name"
  let kind : ScalarType ← json.get "type"
  match json.field? "values" with
  | some values =>
      pure (name, Column.ofScalars kind (← json.findD "first" firstRow) (← fromJson values)
        (← json.findD "page_rows" maxPageRows))
  | none => do
      let pages ← json.get "pages"
      let dictionary ← json.readWith "dict" (decodeDictionary kind)
      pure (name, Column.ofPages kind dictionary pages)

/-- Read a shard of a table. -/
def decodeShard (settings : FlattenSettings) (table : String) (json : Json) : Decoded Shard := do
  let lowest : Int ← json.findD "lowest" 0
  match json.field? "docs" with
  | some documents => do
      let documents : List Json ← fromJson documents
      Document.loadShard settings table lowest documents
  | none => do
      let columns : List Json ← json.get "columns"
      Shard.assemble table lowest
        (← columns.mapM (decodeColumn lowest settings.maxPageRows))

/-- Read the shards of a table. -/
def decodeShards (settings : FlattenSettings) (table : String) (json : Json) :
    Decoded (List Shard) := do
  let shards : List Json ← fromJson json
  shards.mapM (decodeShard settings table)

/-- Read a table that is given by its shards. -/
def decodeTable (settings : FlattenSettings) (name : String) (json : Json) : Decoded Table := do
  pure (Table.load name (← decodeShards settings name json))

/-! ## Writing -/

/-- A column under its name. -/
def columnToJson (name : String) (column : Column) : Json :=
  .record
    [("name", .text name), ("type", toJson column.kind), ("rows", toJson column.rowCount),
      ("first", toJson column.firstRow?),
      ("dict", .array (column.dictionary.toList.map (scalarToJson column.kind))),
      ("dict_len", toJson column.dictionary.size), ("pages", toJson column.pages)]

def countersToJson (counters : Counters) : Json :=
  .object (counters.map fun (name, amount) => (name, toJson amount))

def rowToJson (row : Row) : Json :=
  .object (row.map fun (name, value) => (name, toJson value))

/-- The names of a shard's columns. -/
def Shard.columnNames (shard : Shard) : List String :=
  shard.columns.map Prod.fst

/-- A shard, in full or by its rows. -/
def shardToJson (inFull : Bool) (shard : Shard) : Json :=
  let content :=
    if inFull then
      [("rows", toJson shard.rowCount),
        ("columns", .array (shard.columns.map fun (name, column) => columnToJson name column))]
    else
      [("rows", .array (shard.rows.map rowToJson))]
  .record ([("table", .text shard.table), ("lowest", toJson shard.lowestRow)] ++ content)

/-- A flattened table, with its source under the given name. -/
def flattenedTableToJson (inFull : Bool) (sourceName : String) (table : FlattenedTable) : Json :=
  .record
    [("name", .text table.name), (sourceName, .text table.source), ("by", .text table.flattenBy),
      ("id", .text table.id.flattenText), ("original", toJson table.originalFirstRows),
      ("rows", toJson table.toTable.rowCount),
      ("shards", .array (table.shards.map (shardToJson inFull)))]

end Unnest
