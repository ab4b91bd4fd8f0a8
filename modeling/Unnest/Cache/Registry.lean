import Unnest.Table

/-!
# Flattened tables in memory

Tables are held in two ways.  For every source and field there is a list of recent tables, the
latest first, with at most one for each set of first rows.  Apart from that, every table can be
looked up by its name until too many later names have been registered.  A table that is too old is
dropped when it is met.
-/

namespace Unnest

/-- What a flattened table was made from. -/
structure FlattenKey where
  source : String
  flattenBy : String
deriving DecidableEq, Repr, Inhabited

instance : Ord FlattenKey :=
  ⟨compareLex (compareOn FlattenKey.source) (compareOn FlattenKey.flattenBy)⟩

instance : Std.TransOrd FlattenKey :=
  inferInstanceAs
    (Std.TransCmp (compareLex (compareOn FlattenKey.source) (compareOn FlattenKey.flattenBy)))

instance : Std.LawfulEqOrd FlattenKey where
  eq_of_compare := by
    rintro ⟨leftSource, leftField⟩ ⟨rightSource, rightField⟩ same
    have parts : (compare leftSource rightSource).then (compare leftField rightField) = .eq := same
    have both := Ordering.then_eq_eq.mp parts
    have sameSource : leftSource = rightSource := Std.LawfulEqCmp.eq_of_compare both.1
    have sameField : leftField = rightField := Std.LawfulEqCmp.eq_of_compare both.2
    rw [sameSource, sameField]

def FlattenedTable.key (table : FlattenedTable) : FlattenKey :=
  ⟨table.source, table.flattenBy⟩

/-- A table and the time when it was registered, in milliseconds. -/
structure RegisteredTable where
  table : FlattenedTable
  registeredAt : Nat
deriving Inhabited

/-- The flattened tables that are held in memory. -/
structure Registry where
  /-- How many tables are listed for one source and field. -/
  listBound : Nat
  /-- How many names are known. -/
  nameBound : Nat
  /-- How many milliseconds a table is held, if there is a bound. -/
  ageBound : Option Nat
  /-- The tables of each source and field, the latest first. -/
  recent : OrderedMap FlattenKey (List RegisteredTable)
  /-- The tables by their names. -/
  byName : OrderedMap FlattenId RegisteredTable
  /-- The names in the order of registration, the latest last. -/
  nameOrder : List FlattenId
deriving Inhabited

namespace Registry

/-- An empty registry; a bound of zero counts as one. -/
def empty (listBound nameBound : Nat) (ageBound : Option Nat) : Registry where
  listBound := max listBound 1
  nameBound := max nameBound 1
  ageBound := ageBound
  recent := []
  byName := []
  nameOrder := []

/-- The number of names that resolve. -/
def size (registry : Registry) : Nat :=
  registry.byName.length

/-- A table is dropped when it is older than the bound. -/
def isExpired (registry : Registry) (now : Nat) (entry : RegisteredTable) : Bool :=
  match registry.ageBound with
  | none => false
  | some bound => bound < now - entry.registeredAt

def listOf (registry : Registry) (key : FlattenKey) : List RegisteredTable :=
  (OrderedMap.find? key registry.recent).getD []

/-- The tables of a source and field, the latest first, and the registry without the expired ones
among them. -/
def recentTables (registry : Registry) (now : Nat) (key : FlattenKey) :
    List FlattenedTable × Registry :=
  match OrderedMap.find? key registry.recent with
  | none => ([], registry)
  | some entries =>
      let kept := entries.filter fun entry => !registry.isExpired now entry
      (kept.map RegisteredTable.table,
        { registry with recent := OrderedMap.insert key kept registry.recent })

/-- Put a table in front of the list of its source and field, in the place of one with the same
first rows. -/
def listFirst (entry : RegisteredTable) (entries : List RegisteredTable) (bound : Nat) :
    List RegisteredTable :=
  let others := entries.filter fun other =>
    other.table.originalFirstRows != entry.table.originalFirstRows
  (entry :: others).take bound

/-- Drop the oldest names beyond the bound. -/
def dropOldest (bound : Nat) (byName : OrderedMap FlattenId RegisteredTable) :
    List FlattenId → OrderedMap FlattenId RegisteredTable × List FlattenId
  | [] => (byName, [])
  | oldest :: later =>
      if bound < later.length + 1 then dropOldest bound (OrderedMap.erase oldest byName) later
      else (byName, oldest :: later)

/-- Register a table. -/
def register (registry : Registry) (now : Nat) (table : FlattenedTable) : Registry :=
  let entry : RegisteredTable := ⟨table, now⟩
  let listed := listFirst entry (registry.listOf table.key) registry.listBound
  let ordered := (registry.nameOrder.filter (· != table.id)) ++ [table.id]
  let (byName, nameOrder) :=
    dropOldest registry.nameBound (OrderedMap.insert table.id entry registry.byName) ordered
  { registry with
    recent := OrderedMap.insert table.key listed registry.recent
    byName := byName
    nameOrder := nameOrder }

/-- The table of a name, and the registry without it if it is expired. -/
def get (registry : Registry) (now : Nat) (id : FlattenId) :
    Option FlattenedTable × Registry :=
  match OrderedMap.find? id registry.byName with
  | none => (none, registry)
  | some entry =>
      if registry.isExpired now entry then
        (none, { registry with byName := OrderedMap.erase id registry.byName })
      else (some entry.table, registry)

end Registry

end Unnest
