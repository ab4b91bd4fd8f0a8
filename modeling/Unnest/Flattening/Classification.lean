import Unnest.FieldPath.Reader
import Unnest.Flattening.Layout

/-!
# What becomes of each column

When a shard is flattened, the lengths of the flattened arrays are dropped.  The columns inside the
flattened entries are flattened: all those with the same rest of their path become one output
column, named by the path without the positions.  Every other column is kept, and its values repeat.
-/

namespace Unnest

/-- What becomes of a column, or of several. -/
inductive ColumnPlan where
  /-- A column under its own name, whose values repeat. -/
  | keep (name : String)
  /-- The columns inside the entries, one for each leaf; those that do not exist read as
  defaults. -/
  | flatten (output : String) (kind : ScalarType) (isLength : Bool) (sources : List String)
deriving DecidableEq, Repr, Inhabited

namespace ColumnPlan

def output : ColumnPlan → String
  | .keep name => name
  | .flatten output .. => output

end ColumnPlan

/-- The columns seen so far: the flattened ones by output name, with the rest of their path and
their type, and the kept ones, the last one first. -/
structure ColumnClasses where
  flattened : OrderedMap String (FieldPath × ScalarType)
  reversedKept : List String
deriving Inhabited

namespace ColumnClasses

/-- The name of the output column for a column inside the entries of `leaf`. -/
def outputName (leaf rest : FieldPath) : String :=
  (leaf.strip leaf.length ++ rest).toText

/-- Add a column. -/
def add (classes : ColumnClasses) (prefixes : List FieldPath) (leaf : FieldPath)
    (name : String) (kind : ScalarType) : Outcome ColumnClasses :=
  match FieldPath.parse name with
  | .error error => .error error
  | .ok path =>
      if prefixes.any path.isLengthColumnOf then
        .ok classes
      else
        match path.matchPrefix leaf with
        | none => .ok { classes with reversedKept := name :: classes.reversedKept }
        | some (_, rest) =>
            let output := outputName leaf rest
            match OrderedMap.find? output classes.flattened with
            | none =>
                .ok { classes with
                  flattened := OrderedMap.insert output (rest, kind) classes.flattened }
            | some (_, expected) =>
                if expected = kind then .ok classes
                else .error (.flattenedTypeConflict output expected kind)

/-- Add columns one after the other. -/
def addAll (prefixes : List FieldPath) (leaf : FieldPath) (classes : ColumnClasses) :
    List (String × Column) → Outcome ColumnClasses
  | [] => .ok classes
  | (name, column) :: rest =>
      match classes.add prefixes leaf name column.kind with
      | .error error => .error error
      | .ok extended => addAll prefixes leaf extended rest

/-- The plans for the kept columns, none of which may have the name of a flattened one. -/
def keepAll (leaf : FieldPath) (flattened : OrderedMap String (FieldPath × ScalarType)) :
    List String → Outcome (List ColumnPlan)
  | [] => .ok []
  | name :: rest =>
      if OrderedMap.contains name flattened then
        .error (.invalidFlattenBy leaf.toText
          ("flattened column '" ++ name ++ "' collides with an existing column"))
      else
        match keepAll leaf flattened rest with
        | .error error => .error error
        | .ok plans => .ok (.keep name :: plans)

/-- The plan for the columns with the given rest of their path. -/
def flattenPlan (leaf : FieldPath) (leaves : List IndexTuple) (output : String)
    (rest : FieldPath) (kind : ScalarType) : ColumnPlan :=
  .flatten output kind rest.isLengthColumn
    (leaves.map fun tuple => (leaf.withIndices tuple ++ rest).toText)

end ColumnClasses

/-- The plans for all columns of a shard: the kept ones, then the flattened ones, each by name. -/
def classifyColumns (shard : Shard) (prefixes : List FieldPath) (leaves : List IndexTuple) :
    Outcome (List ColumnPlan) :=
  match prefixes.getLast? with
  | none => .ok []
  | some leaf =>
      match ColumnClasses.addAll prefixes leaf ⟨[], []⟩ shard.columns with
      | .error error => .error error
      | .ok classes =>
          match ColumnClasses.keepAll leaf classes.flattened classes.reversedKept.reverse with
          | .error error => .error error
          | .ok kept =>
              .ok (kept ++ classes.flattened.map fun (output, rest, kind) =>
                ColumnClasses.flattenPlan leaf leaves output rest kind)

end Unnest
