/-!
# Field paths

A column is named by the path of the scalar it holds: field names separated by dots, each with an
optional index in brackets.  `a[3]` is an entry of the array `a`, `a[length]` its length, and `a[*]`
stands for all of its entries.  A column that exists has entries and lengths only; the field by
which a table is flattened has stars.

This module holds the paths, their text, and the operations on them.  The text is read in
`Unnest.FieldPath.Reader`.
-/

namespace Unnest

/-- The index of one segment of a path. -/
inductive PathIndex where
  /-- No index. -/
  | none
  /-- Every entry of an array. -/
  | all
  /-- One entry of an array. -/
  | entry (position : Nat)
  /-- The length of an array. -/
  | length
deriving DecidableEq, Repr, Inhabited

/-- A field name with its index. -/
structure PathSegment where
  name : String
  index : PathIndex
deriving DecidableEq, Repr, Inhabited

/-- A path from the root of a row to a scalar. -/
abbrev FieldPath := List PathSegment

/-- The positions of an entry in the arrays around it, the outermost first. -/
abbrev IndexTuple := List Nat

/-! ## Text -/

/-- The text of an index. -/
def PathIndex.toText : PathIndex → String
  | .none => ""
  | .all => "[*]"
  | .entry position => "[" ++ toString position ++ "]"
  | .length => "[length]"

def PathSegment.toText (segment : PathSegment) : String :=
  segment.name ++ segment.index.toText

namespace FieldPath

/-- The text of a path: its segments separated by dots. -/
def toText : FieldPath → String
  | [] => ""
  | [segment] => segment.toText
  | segment :: next :: rest => segment.toText ++ "." ++ toText (next :: rest)

/-! ## Kinds of paths -/

/-- The path names all entries of an array. -/
def endsWithAll (path : FieldPath) : Bool :=
  path.getLast?.any fun segment => segment.index == .all

/-- The path names the length of an array. -/
def isLengthColumn (path : FieldPath) : Bool :=
  path.getLast?.any fun segment => segment.index == .length

/-- No segment stands for all entries of an array. -/
def IsConcrete (path : FieldPath) : Prop :=
  ∀ segment ∈ path, segment.index ≠ .all

/-- Every segment is a plain name or stands for all entries of an array. -/
def IsPattern (path : FieldPath) : Prop :=
  ∀ segment ∈ path, segment.index = .none ∨ segment.index = .all

/-- The number of segments that stand for all entries of an array. -/
def markerCount (path : FieldPath) : Nat :=
  path.countP fun segment => segment.index == .all

/-! ## Operations -/

/-- The prefixes that end in all entries of an array, the shortest first. -/
def repeatedPrefixes : FieldPath → List FieldPath
  | [] => []
  | segment :: rest =>
      let deeper := (repeatedPrefixes rest).map (segment :: ·)
      if segment.index = .all then [segment] :: deeper else deeper

/-- Match the start of a path against a pattern.  Each marker of the pattern faces an entry, and the
positions found are returned with the rest of the path. -/
def matchPrefix : FieldPath → FieldPath → Option (IndexTuple × FieldPath)
  | path, [] => some ([], path)
  | [], _ :: _ => none
  | own :: path, wanted :: pattern =>
      if own.name = wanted.name then
        match wanted.index, own.index with
        | .all, .entry position =>
            (matchPrefix path pattern).map fun (positions, rest) => (position :: positions, rest)
        | wantedIndex, ownIndex =>
            if wantedIndex = ownIndex then matchPrefix path pattern else none
      else
        none

/-- The path is the length of an array that the pattern names, at some entries of the arrays around
it. -/
def isLengthColumnOf : FieldPath → FieldPath → Bool
  | [own], [wanted] =>
      own.name == wanted.name && wanted.index == .all && own.index == .length
  | own :: path, wanted :: pattern =>
      own.name == wanted.name &&
        (match wanted.index, own.index with
        | .all, .length => false
        | .all, .entry _ => true
        | wantedIndex, ownIndex => wantedIndex == ownIndex) &&
        isLengthColumnOf path pattern
  | _, _ => false

/-- Put positions in the place of the markers, from the first on.  Markers without a position
stay. -/
def withIndices : FieldPath → IndexTuple → FieldPath
  | [], _ => []
  | segment :: rest, positions =>
      match segment.index, positions with
      | .all, position :: more =>
          ⟨segment.name, .entry position⟩ :: withIndices rest more
      | _, _ => segment :: withIndices rest positions

/-- The path with another index on its last segment. -/
def withLastIndex (index : PathIndex) : FieldPath → FieldPath
  | [] => []
  | [segment] => [⟨segment.name, index⟩]
  | segment :: next :: rest => segment :: withLastIndex index (next :: rest)

/-- The length of the array that the last segment names. -/
def lengthColumn (path : FieldPath) : FieldPath :=
  path.withLastIndex .length

/-- The first `depth` segments without their indices, and the others as they are. -/
def strip : FieldPath → Nat → FieldPath
  | path, 0 => path
  | [], _ + 1 => []
  | segment :: rest, depth + 1 => ⟨segment.name, .none⟩ :: strip rest depth

end FieldPath

end Unnest
