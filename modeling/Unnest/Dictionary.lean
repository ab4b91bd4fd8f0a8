import Unnest.Error
import Unnest.OrderedMap

/-!
# Dictionaries

A dictionary gives the values of a column ids: the position of a value among the strictly ascending
values is its id, so ids are ordered like their values.  A dictionary of one value is kept as a
constant.

Dictionaries are built from values in any order, or by a `DictionaryBuilder`, which takes ascending
values only.  When dictionaries are united, the ids of each of them change; an `IdMap` holds the ids
that change.
-/

namespace Unnest

/-! ## The boundary of a property

A property of positions that holds up to some position and fails from there on has a boundary.
Where it has no single one, the result is still the one that the halving reaches.
-/

/-- The first position from `low` on at which `holds` fails, or `high`, found by halving. -/
def boundary (holds : Nat → Bool) (low high : Nat) : Nat :=
  if low < high then
    let middle := (low + high) / 2
    if holds middle then
      boundary holds (middle + 1) high
    else
      boundary holds low middle
  else
    low
termination_by high - low

/-- A property that holds exactly below `limit` has its boundary there. -/
theorem boundary_eq (holds : Nat → Bool) (low high limit : Nat)
    (above : low ≤ limit) (below : limit ≤ high)
    (exact : ∀ position, low ≤ position → position < high →
      (holds position = true ↔ position < limit)) :
    boundary holds low high = limit := by
  fun_induction boundary holds low high with
  | case1 low high inside middle holdsMiddle inductionHypothesis =>
      have := (exact middle (by omega) (by omega)).mp holdsMiddle
      exact inductionHypothesis (by omega) below
        fun position isAbove isBelow => exact position (by omega) isBelow
  | case2 low high inside middle failsMiddle inductionHypothesis =>
      have notBelow : ¬ middle < limit := fun isBelow =>
        failsMiddle ((exact middle (by omega) (by omega)).mpr isBelow)
      exact inductionHypothesis above (by omega)
        fun position isAbove isBelow => exact position isAbove (by omega)
  | case3 low high outside => omega

/-! ## Dictionaries -/

/-- The values of a column, by id. -/
inductive Dictionary (α : Type) where
  | array (values : Array α)
  | constant (value : α)
deriving Repr

namespace Dictionary

variable {α : Type}

def empty : Dictionary α := .array #[]

instance : Inhabited (Dictionary α) := ⟨empty⟩

/-- All values, by ascending id. -/
def toArray : Dictionary α → Array α
  | .array values => values
  | .constant value => #[value]

def toList (dictionary : Dictionary α) : List α :=
  dictionary.toArray.toList

def size (dictionary : Dictionary α) : Nat :=
  dictionary.toArray.size

/-- The largest id. -/
def lastId? (dictionary : Dictionary α) : Option Int :=
  if dictionary.size = 0 then none else some (dictionary.size - 1 : Int)

/-- The value with the given id. -/
def decode? (dictionary : Dictionary α) (id : Int) : Option α :=
  if 0 ≤ id then dictionary.toArray[id.toNat]? else none

/-- The values are strictly ascending. -/
def IsAscending [Ord α] (dictionary : Dictionary α) : Prop :=
  dictionary.toList.Pairwise fun left right => compare left right = .lt

/-- The id of a value. -/
def idOf? [Ord α] (dictionary : Dictionary α) (value : α) : Option Int :=
  let values := dictionary.toArray
  let place :=
    boundary (fun position => values[position]?.any fun other => compare other value == .lt)
      0 values.size
  if values[place]?.any fun other => compare other value == .eq then some place else none

end Dictionary

/-! ## Values in any order -/

/-- Drop every value that equals the one before it. -/
def dropRepeats {α : Type} [Ord α] : List α → List α
  | [] => []
  | value :: rest =>
      match dropRepeats rest with
      | [] => [value]
      | next :: others =>
          if compare value next = .eq then value :: others else value :: next :: others

/-- The distinct values of a list, ascending. -/
def sortDistinct {α : Type} [Ord α] (values : List α) : List α :=
  dropRepeats (values.mergeSort fun left right => (compare left right).isLE)

namespace Dictionary

/-- The dictionary of the distinct values of a list. -/
def ofList {α : Type} [Ord α] (values : List α) : Dictionary α :=
  .array (sortDistinct values).toArray

end Dictionary

/-! ## Ascending values -/

/-- A dictionary under construction. -/
structure DictionaryBuilder (kind : ScalarType) where
  values : Array kind.Carrier := #[]

namespace DictionaryBuilder

variable {kind : ScalarType}

def last? (builder : DictionaryBuilder kind) : Option kind.Carrier :=
  builder.values.back?

def size (builder : DictionaryBuilder kind) : Nat :=
  builder.values.size

/-- The error for a value that does not lie above the last one. -/
def outOfOrder (kind : ScalarType) (last next : kind.Carrier) : Error :=
  .brokenInvariant "E-DICT-001" "dictionary values arrived out of order"
    ("last=" ++ kind.diagnostic last ++ " next=" ++ kind.diagnostic next)

/-- Append a value, which gets the next id.  It has to lie above the last one, or else ids that are
already given out would change. -/
def push (builder : DictionaryBuilder kind) (value : kind.Carrier) :
    Outcome (Int × DictionaryBuilder kind) :=
  let extended : Int × DictionaryBuilder kind :=
    (builder.size, ⟨builder.values.push value⟩)
  match builder.last? with
  | none => .ok extended
  | some last =>
      if compare last value = .lt then .ok extended
      else .error (outOfOrder kind last value)

/-- Append values one after the other. -/
def pushAll (builder : DictionaryBuilder kind) :
    List kind.Carrier → Outcome (DictionaryBuilder kind)
  | [] => .ok builder
  | value :: rest =>
      match builder.push value with
      | .error error => .error error
      | .ok (_, extended) => extended.pushAll rest

def build (builder : DictionaryBuilder kind) : Dictionary kind.Carrier :=
  .array builder.values

end DictionaryBuilder

namespace Dictionary

/-- The dictionary of values that have to be strictly ascending. -/
def ofAscending (kind : ScalarType) (values : List kind.Carrier) :
    Outcome (Dictionary kind.Carrier) :=
  match ({} : DictionaryBuilder kind).pushAll values with
  | .error error => .error error
  | .ok builder => .ok builder.build

end Dictionary

/-! ## Renumbering ids -/

/-- New ids for old ones.  An id that is not held stays. -/
structure IdMap where
  changed : OrderedMap Int Int
deriving DecidableEq, Repr, Inhabited

namespace IdMap

def identity : IdMap := ⟨[]⟩

/-- Give an id a new number; nothing is held for an id that stays. -/
def insert (old new : Int) (ids : IdMap) : IdMap :=
  if old = new then ids else ⟨OrderedMap.insert old new ids.changed⟩

/-- The new id of an old one. -/
def apply (ids : IdMap) (id : Int) : Int :=
  (OrderedMap.find? id ids.changed).getD id

def isIdentity (ids : IdMap) : Bool :=
  ids.changed.isEmpty

/-- The number of ids that change. -/
def changedCount (ids : IdMap) : Nat :=
  ids.changed.length

end IdMap

end Unnest
