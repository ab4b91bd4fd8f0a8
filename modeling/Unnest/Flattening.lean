import Unnest.Dictionary.Union
import Unnest.FieldPath.Reader
import Unnest.Flattening.Classification
import Unnest.Flattening.Cutting
import Unnest.Settings
import Unnest.Table
import Unnest.Total

/-!
# Flattening

The output columns of a flattened shard are built one by one along the layout of its rows.  A kept
column cuts the rows of each pass out of its own pages.  A flattened column cuts the rows of each
run out of the column of that leaf, or repeats the default where there is none, and its dictionary
is the union of the dictionaries of these sources.

All shards of a table, or some of them, are flattened one by one.  The result is named after the
table and the canonical text of the field, and remembers the first rows of the shards it was
computed from.  A flattened table cannot be flattened again.
-/

namespace Unnest

/-! ## Shards -/

/-- What flattening a shard reports besides the shard. -/
structure FlattenSummary where
  rowsIn : Nat
  rowsOut : Nat
  leaves : Nat
  columns : Nat
deriving DecidableEq, Repr, Inhabited

/-- A flattened shard, with what is reported about it. -/
structure ShardFlattening where
  shard : Shard
  summary : FlattenSummary
  /-- How the pages were cut, column by column. -/
  strategies : List PageStrategy
  counters : Counters
deriving Inhabited

/-- An output column with its name, and how its pages were cut. -/
structure OutputColumn where
  name : String
  column : Column
  strategies : List PageStrategy
deriving Inhabited

namespace OutputColumn

def ofPages (name : String) (kind : ScalarType) (dictionary : Dictionary kind.Carrier)
    (pages : List OutputPage) : OutputColumn :=
  ⟨name, Column.ofPages kind dictionary (pages.map OutputPage.page),
    pages.filterMap OutputPage.strategy⟩

end OutputColumn

namespace Flattening

/-! ## Kept columns -/

/-- Cut the rows of each pass out of the same pages. -/
def cutPasses (pages : List Page) (nextRow : Int) : List Pass → Outcome (List OutputPage)
  | [] => .ok []
  | pass :: rest =>
      match cutRows IdMap.identity nextRow pages pass.rows with
      | .error error => .error error
      | .ok cut =>
          match cutPasses pages (nextRow + totalRows cut) rest with
          | .error error => .error error
          | .ok others => .ok (cut ++ others)

/-- A kept column: its values repeat, once for each output row of their row. -/
def keepColumn (shard : Shard) (layout : RowLayout) (name : String) (column : Column) :
    Outcome OutputColumn :=
  match cutPasses column.pages shard.lowestRow layout.passes with
  | .error error => .error error
  | .ok pages => .ok (.ofPages name column.kind column.dictionary pages)

/-! ## Flattened columns -/

/-- The column of one leaf: the dictionary and the pages of a source, or none for defaults. -/
abbrev LeafSource (kind : ScalarType) := Option (Dictionary kind.Carrier × List Page)

/-- The source of a name, if the shard has such a column of the wanted type. -/
def sourceOf (shard : Shard) (kind : ScalarType) (name : String) : LeafSource kind :=
  (shard.column? name).bind fun column =>
    (column.dictionaryOf? kind).map fun dictionary => (dictionary, column.pages)

/-- The dictionaries of all leaves, by position. -/
def leafDictionaries {kind : ScalarType} (fill : kind.Carrier)
    (sources : List (LeafSource kind)) : OrderedMap Nat (Dictionary kind.Carrier) :=
  sources.zipIdx.map fun (source, leaf) =>
    (leaf, (source.map (·.1)).getD (.constant fill))

/-- The rows of a run: cut out of the source of its leaf, or defaults. -/
def cutRun {kind : ScalarType} (maxPageRows : Nat) (sources : List (LeafSource kind))
    (union : DictionaryUnion Nat kind) (nextRow : Int) (run : LeafRows) :
    Outcome (List OutputPage) :=
  let ids := union.idMap run.leaf
  match sources[run.leaf]?.join with
  | some (_, pages) => cutRows ids nextRow pages run.rows
  | none => .ok (constantPages maxPageRows (ids.apply 0) nextRow run.rows.length)

/-- The rows of runs, one after the other. -/
def cutRuns {kind : ScalarType} (maxPageRows : Nat) (sources : List (LeafSource kind))
    (union : DictionaryUnion Nat kind) (nextRow : Int) : List LeafRows → Outcome (List OutputPage)
  | [] => .ok []
  | run :: rest =>
      match cutRun maxPageRows sources union nextRow run with
      | .error error => .error error
      | .ok cut =>
          match cutRuns maxPageRows sources union (nextRow + totalRows cut) rest with
          | .error error => .error error
          | .ok others => .ok (cut ++ others)

/-- A flattened column, from the columns of its leaves. -/
def flattenColumn (settings : FlattenSettings) (shard : Shard) (layout : RowLayout)
    (output : String) (kind : ScalarType) (isLength : Bool) (sourceNames : List String) :
    Outcome OutputColumn :=
  let sources := sourceNames.map (sourceOf shard kind)
  match DictionaryUnion.ofSources (leafDictionaries (settings.fill kind isLength) sources) with
  | .error error => .error error
  | .ok union =>
      match
        cutRuns settings.maxPageRows sources union shard.lowestRow
          (layout.passes.flatMap Pass.leafRows)
      with
      | .error error => .error error
      | .ok pages => .ok (.ofPages output kind union.dictionary pages)

/-! ## The shard -/

/-- Carry out the plan for a column. -/
def buildColumn (settings : FlattenSettings) (shard : Shard) (layout : RowLayout) :
    ColumnPlan → Outcome OutputColumn
  | .keep name =>
      match shard.column? name with
      | some column => keepColumn shard layout name column
      | none =>
          .error (.brokenInvariant "E-FLAT-002" "classified column vanished from its shard"
            ("column=" ++ name))
  | .flatten output kind isLength sources =>
      flattenColumn settings shard layout output kind isLength sources

/-- Carry out plans one after the other. -/
def buildColumns (settings : FlattenSettings) (shard : Shard) (layout : RowLayout) :
    List ColumnPlan → Outcome (List OutputColumn)
  | [] => .ok []
  | plan :: rest =>
      match buildColumn settings shard layout plan with
      | .error error => .error error
      | .ok column =>
          match buildColumns settings shard layout rest with
          | .error error => .error error
          | .ok others => .ok (column :: others)

/-- What flattening a shard counts. -/
def countersOf (rowsIn rowsOut : Nat) (strategies : List PageStrategy) : Counters :=
  Counters.raise "strata_flatten_shards_total" 1 <|
    Counters.raise "strata_flatten_rows_in_total" rowsIn <|
      Counters.raise "strata_flatten_rows_out_total" rowsOut <|
        Counters.raiseEach "strata_flatten_page_strategy_total" "strategy"
          (strategies.map PageStrategy.name) []

/-- Flatten a shard by a path that ends in all entries of an array.  The output starts at the same
row as the shard. -/
def flattenShardBy (settings : FlattenSettings) (shard : Shard) (target : FieldPath)
    (output : String) : Outcome ShardFlattening :=
  let prefixes := target.repeatedPrefixes
  match RowLayout.build shard prefixes with
  | .error error => .error error
  | .ok layout =>
      match classifyColumns shard prefixes layout.leaves with
      | .error error => .error error
      | .ok plans =>
          match buildColumns settings shard layout plans with
          | .error error => .error error
          | .ok columns =>
              match
                Shard.assemble output shard.lowestRow
                  (columns.map fun column => (column.name, column.column))
              with
              | .error error => .error error
              | .ok flattened =>
                  let strategies := columns.flatMap OutputColumn.strategies
                  .ok
                    { shard := flattened
                      summary :=
                        { rowsIn := layout.inputRows
                          rowsOut := layout.outputRows
                          leaves := layout.leaves.length
                          columns := columns.length }
                      strategies := strategies
                      counters := countersOf shard.rowCount flattened.rowCount strategies }

/-- Flatten a shard by a field. -/
def flattenShard (settings : FlattenSettings) (shard : Shard) (flattenBy output : String) :
    Outcome ShardFlattening :=
  match readTarget flattenBy with
  | .error error => .error error
  | .ok target => flattenShardBy settings shard target output

end Flattening

end Unnest

namespace Unnest.Flattening

/-! ## Tables -/

/-- Flatten shards in order; the first failure is the result. -/
def flattenShards (settings : FlattenSettings) (target : FieldPath) (output : String) :
    List Shard → Outcome (List Shard)
  | [] => .ok []
  | shard :: rest =>
      match flattenShardBy settings shard target output with
      | .error error => .error error
      | .ok flattening =>
          match flattenShards settings target output rest with
          | .error error => .error error
          | .ok others => .ok (flattening.shard :: others)

/-- Flatten some shards of a table by a path that ends in all entries of an array. -/
def flattenTableBy (settings : FlattenSettings) (table : Table) (shards : List Shard)
    (target : FieldPath) (id : FlattenId) : Outcome FlattenedTable :=
  let output := flattenedTableName table.name target.toText
  match flattenShards settings target output shards with
  | .error error => .error error
  | .ok flattened =>
      .ok (FlattenedTable.ofShards output flattened table.name target.toText id
        (firstRowsOf shards))

/-- Flatten the shards `chosen` of a table, or all of them, by a field. -/
def flattenTable (settings : FlattenSettings) (table : Table) (chosen : Option (List Shard))
    (flattenBy : String) (id : FlattenId) : Outcome FlattenedTable :=
  if table.isFlattened then
    .error (.alreadyFlattened table.name)
  else
    match readTarget flattenBy with
    | .error error => .error error
    | .ok target => flattenTableBy settings table (chosen.getD table.shards) target id

end Unnest.Flattening
