import Unnest.Realization
import Unnest.Shard

/-!
# Where every output row comes from

Flattening a shard turns each entry that a row has into an output row.  The output rows are laid out
in passes: pass `k` takes entry number `k` of every row that has more than `k` entries, rows
ascending.  All output columns follow this one order, which is what keeps them aligned.

Within a pass, consecutive rows that take the same entry form a run, a range of positions in the row
list of the pass.  The entries that any row has are the *leaves*, ascending, and a run names its
entry by its position among them.
-/

namespace Unnest

/-- Consecutive rows of a pass that take the same entry: the positions from `first` on and before
`stop` in the row list of the pass. -/
structure LeafRun where
  /-- The position of the entry among the leaves. -/
  leaf : Nat
  first : Nat
  stop : Nat
deriving DecidableEq, Repr, Inhabited

/-- One entry of every row that has so many. -/
structure Pass where
  rows : List Int
  runs : List LeafRun
deriving DecidableEq, Repr, Inhabited

/-- The rows of a run, and the position of the entry that they take among the leaves. -/
structure LeafRows where
  leaf : Nat
  rows : List Int
deriving DecidableEq, Repr, Inhabited

/-- Where every output row comes from. -/
structure RowLayout where
  leaves : List IndexTuple
  passes : List Pass
  inputRows : Nat
deriving DecidableEq, Repr, Inhabited

/-- The rows of the runs of a pass, cut out of its row list. -/
def Pass.leafRows (pass : Pass) : List LeafRows :=
  pass.runs.map fun run => ⟨run.leaf, pass.rows.extract run.first run.stop⟩

/-! ## Passes row by row -/

/-- A pass while rows are added to it, the last row and the last run first. -/
structure PassBuilder where
  reversedRows : List Int := []
  reversedRuns : List LeafRun := []

namespace PassBuilder

/-- Add a row.  The last run grows by it if the row takes the same leaf, else a run starts. -/
def push (row : Int) (leaf : Nat) (builder : PassBuilder) : PassBuilder :=
  let position := builder.reversedRows.length
  let runs :=
    match builder.reversedRuns with
    | [] => [⟨leaf, position, position + 1⟩]
    | last :: earlier =>
        if last.leaf = leaf then { last with stop := last.stop + 1 } :: earlier
        else ⟨leaf, position, position + 1⟩ :: last :: earlier
  ⟨row :: builder.reversedRows, runs⟩

def build (builder : PassBuilder) : Pass :=
  ⟨builder.reversedRows.reverse, builder.reversedRuns.reverse⟩

end PassBuilder

/-- The entries of one row. -/
abbrev RowEntries := Int × List IndexTuple

namespace RowLayout

/-- The stored lengths of a row. -/
def lengthsAt (shard : Shard) (row : Int) : Lengths := fun name =>
  (shard.column? name).bind fun column => column.longAt? row

/-- The entries of the rows of a shard, in row order. -/
def realizeRows (shard : Shard) (prefixes : List FieldPath) :
    List Int → Outcome (List RowEntries)
  | [] => .ok []
  | row :: rest =>
      match realize prefixes (lengthsAt shard row) with
      | .error error => .error error
      | .ok realization =>
          match realizeRows shard prefixes rest with
          | .error error => .error error
          | .ok others => .ok ((row, realization.leaf) :: others)

/-- No row of the shard has the outermost array: its length is not stored. -/
def lacksRoot (shard : Shard) (prefixes : List FieldPath) : Bool :=
  prefixes.head?.any fun root => (shard.column? (lengthColumnName root [])).isNone

/-- The entries of all rows of a shard. -/
def entries (shard : Shard) (prefixes : List FieldPath) : Outcome (List RowEntries) :=
  if lacksRoot shard prefixes then
    .ok (shard.rowIds.map fun row => (row, []))
  else
    realizeRows shard prefixes shard.rowIds

/-- The largest number of entries of a row. -/
def passCount (entries : List RowEntries) : Nat :=
  (entries.map fun entry => entry.2.length).max?.getD 0

/-- The position of every leaf. -/
def leafIndex (leaves : List IndexTuple) : OrderedMap IndexTuple Nat :=
  OrderedMap.ofEntries leaves.zipIdx

/-- An entry that is not among the leaves of the layout. -/
def unknownLeaf (row : Int) (tuple : IndexTuple) : Error :=
  .brokenInvariant "E-FLAT-003" "realized leaf missing from the leaf index"
    ("row=" ++ toString row ++ " leaf=[" ++ ", ".intercalate (tuple.map toString) ++ "]")

/-- Add entry number `number` of every row that has so many to a pass. -/
def layPass (index : OrderedMap IndexTuple Nat) (number : Nat) (builder : PassBuilder) :
    List RowEntries → Outcome PassBuilder
  | [] => .ok builder
  | (row, tuples) :: rest =>
      match tuples[number]? with
      | none => layPass index number builder rest
      | some tuple =>
          match OrderedMap.find? tuple index with
          | none => .error (unknownLeaf row tuple)
          | some leaf => layPass index number (builder.push row leaf) rest

/-- The passes with these numbers, one after the other. -/
def layPasses (index : OrderedMap IndexTuple Nat) (entries : List RowEntries) :
    List Nat → Outcome (List Pass)
  | [] => .ok []
  | number :: rest =>
      match layPass index number {} entries with
      | .error error => .error error
      | .ok builder =>
          match layPasses index entries rest with
          | .error error => .error error
          | .ok others => .ok (builder.build :: others)

/-- Lay out the entries of all rows. -/
def ofEntries (entries : List RowEntries) (inputRows : Nat) : Outcome RowLayout :=
  let leaves := sortDistinct (entries.flatMap fun entry => entry.2)
  match layPasses (leafIndex leaves) entries (List.range (passCount entries)) with
  | .error error => .error error
  | .ok passes => .ok ⟨leaves, passes, inputRows⟩

/-- The layout of a shard, for repeated prefixes with the root first. -/
def build (shard : Shard) (prefixes : List FieldPath) : Outcome RowLayout :=
  match entries shard prefixes with
  | .error error => .error error
  | .ok found => ofEntries found shard.rowCount

/-- The number of output rows. -/
def outputRows (layout : RowLayout) : Nat :=
  total (fun pass => pass.rows.length) layout.passes

end RowLayout

end Unnest
