import Unnest.Dictionary
import Unnest.Total

/-!
# Uniting dictionaries

Several dictionaries are united into one that holds every value once, and each of them gets the map
from its own ids to those of the union.  Every source has a cursor at its next value, and the cursor
with the least value is taken; of cursors with the same value the one of the first source comes
first.  A value that equals the last one of the union is not appended again: it gets the id that was
given to that one.

One dictionary alone is its own union, and no id changes.
-/

namespace Unnest

variable {kind : ScalarType}

/-- The next value of a source, with its id there. -/
structure UnionCursor (kind : ScalarType) where
  value : kind.Carrier
  source : Nat
  position : Nat

namespace UnionCursor

/-- The order in which cursors are taken: by value, and then by source. -/
def order : UnionCursor kind → UnionCursor kind → Ordering :=
  compareLex (compareOn UnionCursor.value) (compareOn UnionCursor.source)

/-- The cursor that comes first, and the others. -/
def popFirst : List (UnionCursor kind) → Option (UnionCursor kind × List (UnionCursor kind))
  | [] => none
  | cursor :: rest =>
      match popFirst rest with
      | none => some (cursor, [])
      | some (first, others) =>
          if (order cursor first).isLE then some (cursor, first :: others)
          else some (first, cursor :: others)

theorem eq_nil_of_popFirst {heap : List (UnionCursor kind)} (isEmpty : popFirst heap = none) :
    heap = [] := by
  cases heap with
  | nil => rfl
  | cons cursor rest =>
      rw [popFirst] at isEmpty
      split at isEmpty
      · cases isEmpty
      · split at isEmpty <;> cases isEmpty

theorem popFirst_perm {heap others : List (UnionCursor kind)} {first : UnionCursor kind}
    (isFirst : popFirst heap = some (first, others)) : heap.Perm (first :: others) := by
  induction heap generalizing first others with
  | nil => cases isFirst
  | cons cursor rest inductionHypothesis =>
      rw [popFirst] at isFirst
      split at isFirst
      · rename_i popped
        cases isFirst
        rw [eq_nil_of_popFirst popped]
      · rename_i least remaining popped
        have restPerm := (inductionHypothesis popped).cons cursor
        split at isFirst
        · cases isFirst
          exact restPerm
        · cases isFirst
          exact restPerm.trans (List.Perm.swap _ cursor _)

/-- The value at a position of a source. -/
def valueAt? (dictionaries : List (Dictionary kind.Carrier)) (source position : Nat) :
    Option kind.Carrier :=
  dictionaries[source]?.bind fun dictionary => dictionary.toArray[position]?

/-- The cursor at a position of a source, unless the source ends before it. -/
def at? (dictionaries : List (Dictionary kind.Carrier)) (source position : Nat) :
    Option (UnionCursor kind) :=
  (valueAt? dictionaries source position).map fun value => ⟨value, source, position⟩

/-- The number of values of a source. -/
def sourceSize (dictionaries : List (Dictionary kind.Carrier)) (source : Nat) : Nat :=
  (dictionaries[source]?.map Dictionary.size).getD 0

/-- The number of values that are still to be taken, where every cursor counts once more. -/
def remainingCount (dictionaries : List (Dictionary kind.Carrier))
    (heap : List (UnionCursor kind)) : Nat :=
  total (fun cursor => sourceSize dictionaries cursor.source - cursor.position + 1) heap

theorem remainingCount_lt {dictionaries : List (Dictionary kind.Carrier)}
    {heap others : List (UnionCursor kind)} {first : UnionCursor kind}
    (isFirst : popFirst heap = some (first, others)) :
    remainingCount dictionaries
        ((at? dictionaries first.source (first.position + 1)).toList ++ others) <
      remainingCount dictionaries heap := by
  have sameCount : remainingCount dictionaries heap =
      remainingCount dictionaries (first :: others) := total_perm (popFirst_perm isFirst)
  rw [sameCount]
  simp only [remainingCount, total_append, total_cons]
  cases isNext : at? dictionaries first.source (first.position + 1) with
  | none =>
      simp only [Option.toList_none, total_nil]
      omega
  | some next =>
      rcases Option.map_eq_some_iff.mp isNext with ⟨value, isValue, shape⟩
      rcases Option.bind_eq_some_iff.mp isValue with ⟨dictionary, isSource, isThere⟩
      have inside : first.position + 1 < sourceSize dictionaries first.source := by
        rw [sourceSize, isSource]
        exact (Array.getElem?_eq_some_iff.mp isThere).1
      simp only [Option.toList_some, total_cons, total_nil, ← shape]
      omega

end UnionCursor

/-- How far the union has come: its values, the id of the last of them, and how the ids of every
source change. -/
structure UnionProgress (kind : ScalarType) where
  builder : DictionaryBuilder kind := {}
  lastId : Int := -1
  idMaps : List IdMap

namespace UnionProgress

/-- Give the value of a cursor its new id. -/
def note (cursor : UnionCursor kind) (id : Int) (progress : UnionProgress kind) :
    UnionProgress kind :=
  { progress with
    lastId := id
    idMaps := progress.idMaps.modify cursor.source (IdMap.insert cursor.position id) }

/-- Take the value of a cursor.  It is appended, unless it is the last value of the union. -/
def take (cursor : UnionCursor kind) (progress : UnionProgress kind) :
    Outcome (UnionProgress kind) :=
  if progress.builder.last?.any fun last => compare last cursor.value == .eq then
    .ok (progress.note cursor progress.lastId)
  else
    match progress.builder.push cursor.value with
    | .error error => .error error
    | .ok (id, extended) => .ok ({ progress with builder := extended }.note cursor id)

/-- Take all values from the cursors in the heap on. -/
def takeAll (dictionaries : List (Dictionary kind.Carrier)) (progress : UnionProgress kind)
    (heap : List (UnionCursor kind)) : Outcome (UnionProgress kind) :=
  match _isFirst : UnionCursor.popFirst heap with
  | none => .ok progress
  | some (cursor, others) =>
      match progress.take cursor with
      | .error error => .error error
      | .ok further =>
          takeAll dictionaries further
            ((UnionCursor.at? dictionaries cursor.source (cursor.position + 1)).toList ++ others)
termination_by UnionCursor.remainingCount dictionaries heap
decreasing_by exact UnionCursor.remainingCount_lt _isFirst

/-- Unite dictionaries, from the first value of each of them on. -/
def unite (dictionaries : List (Dictionary kind.Carrier)) : Outcome (UnionProgress kind) :=
  takeAll dictionaries { idMaps := dictionaries.map fun _ => IdMap.identity }
    ((List.range dictionaries.length).filterMap fun source =>
      UnionCursor.at? dictionaries source 0)

end UnionProgress

/-- The union of dictionaries: its values, and how the ids of each source change.  A source without
an entry keeps its ids. -/
structure DictionaryUnion (κ : Type) (kind : ScalarType) where
  dictionary : Dictionary kind.Carrier
  idMaps : OrderedMap κ IdMap
  /-- The dictionary is the only source itself. -/
  reusesSource : Bool

namespace DictionaryUnion

variable {κ : Type}

/-- How the ids of a source change. -/
def idMap [Ord κ] (union : DictionaryUnion κ kind) (key : κ) : IdMap :=
  (OrderedMap.find? key union.idMaps).getD IdMap.identity

/-- The sources some of whose ids change. -/
def changedKeys (union : DictionaryUnion κ kind) : List κ :=
  (union.idMaps.filter fun entry => !entry.2.isIdentity).map (·.1)

/-- Unite the dictionaries of an ordered map. -/
def ofSources (sources : OrderedMap κ (Dictionary kind.Carrier)) :
    Outcome (DictionaryUnion κ kind) :=
  match sources with
  | [] => .ok ⟨Dictionary.empty, [], false⟩
  | [(_, dictionary)] => .ok ⟨dictionary, [], true⟩
  | several =>
      match UnionProgress.unite (several.map (·.2)) with
      | .error error => .error error
      | .ok finished =>
          .ok ⟨finished.builder.build, (several.map (·.1)).zip finished.idMaps, false⟩

end DictionaryUnion

end Unnest
