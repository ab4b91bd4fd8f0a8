import Unnest.Table

/-!
# Snapshots of flattened tables

A snapshot is what is stored of a flattened table: every page as its column ids, and every
dictionary as its values, in a form that does not depend on how they were encoded.  Restoring
encodes them anew.
-/

namespace Unnest

structure PageSnapshot where
  firstRow : Int
  ids : List Int
deriving DecidableEq, Repr, Inhabited

structure ColumnSnapshot where
  name : String
  kind : ScalarType
  values : List kind.Carrier
  pages : List PageSnapshot

structure ShardSnapshot where
  table : String
  lowestRow : Int
  columns : List ColumnSnapshot

/-- What is stored of a flattened table. -/
structure Snapshot where
  name : String
  source : String
  flattenBy : String
  id : FlattenId
  originalFirstRows : List Int
  /-- When the snapshot was taken, in seconds since 1970. -/
  createdSeconds : UInt64
  shards : List ShardSnapshot

namespace ColumnSnapshot

instance : Inhabited ColumnSnapshot := ⟨⟨"", .long, [], []⟩⟩

def capture (name : String) (column : Column) : ColumnSnapshot where
  name := name
  kind := column.kind
  values := column.dictionary.toList
  pages := column.pages.map fun page => ⟨page.firstRow, page.ids⟩

/-- Encode a column anew; its values have to be ascending. -/
def restore (snapshot : ColumnSnapshot) : Outcome (String × Column) :=
  match Dictionary.ofAscending snapshot.kind snapshot.values with
  | .error error => .error error
  | .ok dictionary =>
      let pages := snapshot.pages.map fun page => Page.encode page.firstRow page.ids
      .ok (snapshot.name, Column.ofPages snapshot.kind dictionary pages)

end ColumnSnapshot

namespace ShardSnapshot

instance : Inhabited ShardSnapshot := ⟨⟨"", 0, []⟩⟩

def capture (shard : Shard) : ShardSnapshot where
  table := shard.table
  lowestRow := shard.lowestRow
  columns := shard.columns.map fun (name, column) => ColumnSnapshot.capture name column

/-- Restore columns in order; the first failure is the result. -/
def restoreColumns : List ColumnSnapshot → Outcome (List (String × Column))
  | [] => .ok []
  | snapshot :: rest =>
      match snapshot.restore with
      | .error error => .error error
      | .ok column =>
          match restoreColumns rest with
          | .error error => .error error
          | .ok others => .ok (column :: others)

def restore (snapshot : ShardSnapshot) : Outcome Shard :=
  match restoreColumns snapshot.columns with
  | .error error => .error error
  | .ok columns => Shard.assemble snapshot.table snapshot.lowestRow columns

/-- Restore shards in order; the first failure is the result. -/
def restoreAll : List ShardSnapshot → Outcome (List Shard)
  | [] => .ok []
  | snapshot :: rest =>
      match snapshot.restore with
      | .error error => .error error
      | .ok shard =>
          match restoreAll rest with
          | .error error => .error error
          | .ok others => .ok (shard :: others)

end ShardSnapshot

namespace Snapshot

instance : Inhabited Snapshot := ⟨⟨"", "", "", default, [], 0, []⟩⟩

/-- The snapshot of a table at a time, which is given in seconds since 1970. -/
def capture (table : FlattenedTable) (createdSeconds : UInt64) : Snapshot where
  name := table.name
  source := table.source
  flattenBy := table.flattenBy
  id := table.id
  originalFirstRows := table.originalFirstRows
  createdSeconds := createdSeconds
  shards := table.shards.map ShardSnapshot.capture

/-- The snapshot is one of exactly this table, field and set of first rows. -/
def isOf (snapshot : Snapshot) (source flattenBy : String) (firstRows : FirstRows) : Bool :=
  snapshot.source == source && snapshot.flattenBy == flattenBy &&
    snapshot.originalFirstRows == firstRows

/-- The table that a snapshot describes. -/
def restore (snapshot : Snapshot) : Outcome FlattenedTable :=
  match ShardSnapshot.restoreAll snapshot.shards with
  | .error error => .error error
  | .ok shards =>
      .ok (FlattenedTable.ofShards snapshot.name shards snapshot.source snapshot.flattenBy
        snapshot.id (sortDistinct snapshot.originalFirstRows))

end Snapshot

end Unnest
