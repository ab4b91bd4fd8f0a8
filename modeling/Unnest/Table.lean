import Unnest.Shard

/-!
# Tables

A table is a named list of shards in the order of their rows.  A flattened table remembers its
source: the table, the field, and the first rows of the shards it was computed from.  These first
rows decide whether it still fits the source.

The shards of a flattened table can be moved one by one in a `Renumbering`, which addresses them by
where they start when the renumbering begins.
-/

namespace Unnest

/-- A set of first rows, ascending. -/
abbrev FirstRows := List Int

/-- Where the rows of a table come from. -/
inductive Origin where
  | loaded
  | flattened (source flattenBy : String) (id : FlattenId)
deriving DecidableEq, Repr, Inhabited

/-- Shards in the order of their first rows. -/
def inRowOrder (shards : List Shard) : List Shard :=
  shards.mergeSort fun left right => left.lowestRow ≤ right.lowestRow

/-- The first rows of shards. -/
def firstRowsOf (shards : List Shard) : FirstRows :=
  sortDistinct (shards.map Shard.lowestRow)

/-- A named list of shards. -/
structure Table where
  name : String
  shards : List Shard
  origin : Origin
deriving Inhabited

namespace Table

/-- A table of loaded shards. -/
def load (name : String) (shards : List Shard) : Table :=
  ⟨name, inRowOrder shards, .loaded⟩

def isFlattened (table : Table) : Bool :=
  match table.origin with
  | .loaded => false
  | .flattened .. => true

/-- The first rows of the shards. -/
def firstRows (table : Table) : FirstRows :=
  firstRowsOf table.shards

def rowCount (table : Table) : Nat :=
  total Shard.rowCount table.shards

end Table

/-- The result of flattening a table. -/
structure FlattenedTable where
  name : String
  shards : List Shard
  source : String
  flattenBy : String
  id : FlattenId
  /-- The first rows of the shards of the source. -/
  originalFirstRows : FirstRows
deriving Inhabited

namespace FlattenedTable

/-- A flattened table of shards in any order. -/
def ofShards (name : String) (shards : List Shard) (source flattenBy : String) (id : FlattenId)
    (originalFirstRows : FirstRows) : FlattenedTable :=
  ⟨name, inRowOrder shards, source, flattenBy, id, originalFirstRows⟩

/-- The flattened table as a table. -/
def toTable (flattened : FlattenedTable) : Table :=
  ⟨flattened.name, flattened.shards,
    .flattened flattened.source flattened.flattenBy flattened.id⟩

/-- The table was computed from exactly the shards with these first rows. -/
def isValidFor (flattened : FlattenedTable) (currentFirstRows : FirstRows) : Bool :=
  flattened.originalFirstRows == currentFirstRows

/-- The same rows under another name, so that they can be moved on their own. -/
def rebase (flattened : FlattenedTable) (id : FlattenId) : FlattenedTable :=
  ofShards flattened.name flattened.shards flattened.source flattened.flattenBy id
    flattened.originalFirstRows

end FlattenedTable

/-- A flattened table whose shards are being moved. -/
structure Renumbering where
  table : FlattenedTable
  shards : List ShardCopy
deriving Inhabited

namespace Renumbering

def start (table : FlattenedTable) : Renumbering :=
  ⟨table, table.shards.map ShardCopy.ofShard⟩

/-- Move the first shard that started at `original`; `none` if there is none. -/
def moveFirst? (original firstRow : Int) : List ShardCopy → Option (List ShardCopy)
  | [] => none
  | copy :: rest =>
      if copy.originalLowestRow = original then
        some (copy.moveTo firstRow :: rest)
      else
        (moveFirst? original firstRow rest).map (copy :: ·)

/-- Move the shard that started at `original` so that it starts at `firstRow`. -/
def move (renumbering : Renumbering) (original firstRow : Int) : Outcome Renumbering :=
  match moveFirst? original firstRow renumbering.shards with
  | some moved => .ok { renumbering with shards := moved }
  | none => .error (.misalignedShard ("<" ++ renumbering.table.name ++ ">") original firstRow)

/-- The number of rows of each shard, under the row where it started. -/
def rowCounts (renumbering : Renumbering) : List (Int × Nat) :=
  renumbering.shards.map fun copy => (copy.originalLowestRow, copy.shard.rowCount)

/-- The table with its moved shards. -/
def finish (renumbering : Renumbering) : FlattenedTable :=
  let table := renumbering.table
  FlattenedTable.ofShards table.name (renumbering.shards.map ShardCopy.shard) table.source
    table.flattenBy table.id table.originalFirstRows

end Renumbering

end Unnest
