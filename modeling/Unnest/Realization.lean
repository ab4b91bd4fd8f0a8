import Unnest.Error
import Unnest.FieldPath

/-!
# Which entries a row has

Given the repeated prefixes of a path, the root first, and the lengths that one row stores, this
module enumerates the entries that exist at each level: the tuples of positions in the arrays around
them.  A length that is needed and not stored is an error; a negative one counts as zero.
-/

namespace Unnest

/-- The number of entries that a stored length stands for: nothing below zero, and positions have
thirty-two bits. -/
def entryCount (storedLength : Int64) : Nat :=
  (max storedLength.toInt 0).toNat % UInt32.size

/-- The stored lengths of a row, by column name. -/
abbrev Lengths := String → Option Int64

/-- The column with the length of the array of `pattern` inside the entry `outer`. -/
def lengthColumnName (pattern : FieldPath) (outer : IndexTuple) : String :=
  (pattern.withIndices outer).lengthColumn.toText

/-- The entries of the array of `pattern` inside the entry `outer`. -/
def realizeInside (lengths : Lengths) (pattern : FieldPath) (outer : IndexTuple) :
    Outcome (List IndexTuple) :=
  match lengths (lengthColumnName pattern outer) with
  | none => .error (.missingLengthColumn (lengthColumnName pattern outer))
  | some length => .ok ((List.range (entryCount length)).map fun position => outer ++ [position])

/-- The entries of the arrays of `pattern` inside each of the entries `outers`, in order. -/
def realizeLevel (lengths : Lengths) (pattern : FieldPath) :
    List IndexTuple → Outcome (List IndexTuple)
  | [] => .ok []
  | outer :: rest =>
      match realizeInside lengths pattern outer with
      | .error error => .error error
      | .ok inside =>
          match realizeLevel lengths pattern rest with
          | .error error => .error error
          | .ok others => .ok (inside ++ others)

/-- The levels below the entries `outers`, the outermost first. -/
def realizeBelow (lengths : Lengths) (outers : List IndexTuple) :
    List FieldPath → Outcome (List (List IndexTuple))
  | [] => .ok []
  | pattern :: deeper =>
      match realizeLevel lengths pattern outers with
      | .error error => .error error
      | .ok level =>
          match realizeBelow lengths level deeper with
          | .error error => .error error
          | .ok levels => .ok (level :: levels)

/-- The entries that a row has, one list for each prefix, the most specific level first. -/
structure Realization where
  levels : List (List IndexTuple)
deriving DecidableEq, Repr, Inhabited

namespace Realization

/-- The entries of the most specific level: each becomes one row. -/
def leaf (realization : Realization) : List IndexTuple :=
  realization.levels.headD []

/-- The number of rows that the row turns into. -/
def factor (realization : Realization) : Nat :=
  realization.leaf.length

end Realization

/-- The entries that a row with the given lengths has, for prefixes with the root first. -/
def realize (prefixes : List FieldPath) (lengths : Lengths) : Outcome Realization :=
  match realizeBelow lengths [[]] prefixes with
  | .error error => .error error
  | .ok levels => .ok ⟨levels.reverse⟩

end Unnest
