import Unnest.Column
import Unnest.Error

/-!
# Shards

A shard is a range of the rows of a table, column by column.  `Shard.assemble` checks that all
columns have the same number of rows and start at the first row of the shard; the rows themselves
are read through the columns.

A shard is never changed.  To move its rows or rename its table it is taken into a `ShardCopy`,
which remembers where the shard started.
-/

namespace Unnest

/-- A row, as the values of its columns by name. -/
abbrev Row := OrderedMap String Value

/-- A range of the rows of a table. -/
structure Shard where
  table : String
  lowestRow : Int
  rowCount : Nat
  columns : OrderedMap String Column
deriving Inhabited

namespace Shard

/-- The first column that is not aligned with the shard, as an error. -/
def checkColumns (lowestRow : Int) (rowCount : Nat) : List (String × Column) → Outcome Unit
  | [] => .ok ()
  | (name, column) :: rest =>
      if column.rowCount ≠ rowCount then
        .error (.rowCountMismatch name rowCount column.rowCount)
      else
        match column.firstRow? with
        | none => checkColumns lowestRow rowCount rest
        | some firstRow =>
            if firstRow = lowestRow then checkColumns lowestRow rowCount rest
            else .error (.misalignedShard name lowestRow firstRow)

/-- Put columns together.  The first one says how many rows there are; of several columns with the
same name the last one stays. -/
def assemble (table : String) (lowestRow : Int) (columns : List (String × Column)) :
    Outcome Shard :=
  let rowCount := (columns.head?.map fun entry => entry.2.rowCount).getD 0
  match checkColumns lowestRow rowCount columns with
  | .error error => .error error
  | .ok () => .ok ⟨table, lowestRow, rowCount, OrderedMap.ofEntries columns⟩

def column? (shard : Shard) (name : String) : Option Column :=
  OrderedMap.find? name shard.columns

/-- The values of one row; a column without a value there is left out. -/
def row (shard : Shard) (row : Int) : Row :=
  shard.columns.filterMap fun (name, column) => (column.valueAt? row).map fun value => (name, value)

/-- The identifiers of all rows. -/
def rowIds (shard : Shard) : List Int :=
  (List.range shard.rowCount).map fun (offset : Nat) => shard.lowestRow + (offset : Int)

/-- All rows in order. -/
def rows (shard : Shard) : List Row :=
  shard.rowIds.map shard.row

/-- The same shard, starting at another row. -/
def startingAt (shard : Shard) (firstRow : Int) : Shard :=
  let distance := firstRow - shard.lowestRow
  if distance = 0 then
    shard
  else
    { shard with
      lowestRow := firstRow
      columns := shard.columns.map fun (name, column) => (name, column.shift distance) }

end Shard

/-- A private copy of a shard, whose rows can be moved. -/
structure ShardCopy where
  /-- Where the shard started when the copy was made. -/
  originalLowestRow : Int
  shard : Shard
deriving Inhabited

namespace ShardCopy

def ofShard (shard : Shard) : ShardCopy :=
  ⟨shard.lowestRow, shard⟩

def rename (copy : ShardCopy) (table : String) : ShardCopy :=
  { copy with shard := { copy.shard with table := table } }

def moveTo (copy : ShardCopy) (firstRow : Int) : ShardCopy :=
  { copy with shard := copy.shard.startingAt firstRow }

end ShardCopy

end Unnest
