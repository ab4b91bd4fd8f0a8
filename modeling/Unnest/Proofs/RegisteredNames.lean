import Mathlib.Data.Finset.Card
import Unnest.Proofs.NameRetention

/-!
# Which names a registry resolves

Tables are registered one after the other, under names that may come again.  How recent a name is
depends on its last registration only: the names that are more recent are those that were registered
since (`Registry.laterNames`).  A registry without a bound on the age resolves a name exactly while
fewer names than its bound are more recent, whatever has become of the lists of recent tables.
-/

namespace Unnest.Registry

/-! ## Registrations -/

/-- A table that is registered at a time, in milliseconds. -/
structure Registration where
  now : Nat
  table : FlattenedTable

/-- The registry after tables were registered one after the other. -/
def registerAll (registry : Registry) (made : List Registration) : Registry :=
  made.foldl (fun registry registration => registry.register registration.now registration.table)
    registry

/-- The registry with other lists of recent tables. -/
def relist (registry : Registry) (recent : OrderedMap FlattenKey (List RegisteredTable)) :
    Registry :=
  { registry with recent := recent }

/-- The names of registered tables, in the order of their registration. -/
def registeredNames (made : List Registration) : List FlattenId :=
  made.map fun registration => registration.table.id

/-- The names that were registered after the last registration of a name. -/
def laterNames (made : List Registration) (id : FlattenId) : Finset FlattenId :=
  ((registeredNames made).reverse.takeWhile (· != id)).toFinset

/-- The table that was last registered under a name. -/
def lastRegistered? (made : List Registration) (id : FlattenId) : Option FlattenedTable :=
  ((made.map Registration.table).reverse).find? (·.id == id)

/-! ## Places in the order of names -/

theorem mem_take_iff {α : Type} [DecidableEq α] (item : α) (items : List α) (bound : Nat) :
    item ∈ items.take bound ↔
      item ∈ items ∧ (items.takeWhile (· != item)).length < bound := by
  induction items generalizing bound with
  | nil => simp
  | cons first rest inductionHypothesis =>
      cases bound with
      | zero => simp
      | succ bound =>
          by_cases isFirst : first = item
          · simp [isFirst]
          · rw [List.take_succ_cons, List.takeWhile_cons_of_pos (by simpa using isFirst),
              List.mem_cons, List.mem_cons, inductionHypothesis, List.length_cons,
              Nat.add_lt_add_iff_right]
            simp [Ne.symm isFirst]

theorem mem_latestNames (id : FlattenId) (tables : List FlattenedTable) :
    id ∈ latestNames tables ↔ id ∈ tables.map FlattenedTable.id := by
  induction tables with
  | nil => rfl
  | cons table earlier inductionHypothesis =>
      by_cases isNew : id = table.id <;> simp [latestNames, isNew, inductionHypothesis]

/-- Names that come again are left out of the order, but the names in front of a name stay the
same. -/
theorem mem_takeWhile_latestNames (id other : FlattenId) (tables : List FlattenedTable) :
    other ∈ (latestNames tables).takeWhile (· != id) ↔
      other ∈ (tables.map FlattenedTable.id).takeWhile (· != id) := by
  induction tables with
  | nil => rfl
  | cons table earlier inductionHypothesis =>
      by_cases isNew : table.id = id
      · simp [latestNames, isNew]
      · have goesOn : (table.id != id) = true := by simpa using isNew
        have sameStop : (fun name => !(name != table.id) || name != id) =
            fun name : FlattenId => name != id := by
          funext name
          by_cases same : name = table.id <;> simp [same, isNew]
        simp only [latestNames, List.map_cons, List.takeWhile_cons, goesOn, if_true,
          List.takeWhile_filter, sameStop, List.mem_cons, List.mem_filter, inductionHypothesis]
        by_cases same : other = table.id <;> simp [same]

theorem length_takeWhile_latestNames (id : FlattenId) (tables : List FlattenedTable) :
    ((latestNames tables).takeWhile (· != id)).length =
      ((tables.map FlattenedTable.id).takeWhile (· != id)).toFinset.card := by
  have distinct : ((latestNames tables).takeWhile (· != id)).Nodup :=
    (nodup_latestNames tables).sublist (List.takeWhile_sublist _)
  rw [← List.toFinset_card_of_nodup distinct]
  congr 1
  ext other
  rw [List.mem_toFinset, List.mem_toFinset, mem_takeWhile_latestNames]

theorem length_latestNames (tables : List FlattenedTable) :
    (latestNames tables).length = (tables.map FlattenedTable.id).toFinset.card := by
  rw [← List.toFinset_card_of_nodup (nodup_latestNames tables)]
  congr 1
  ext id
  rw [List.mem_toFinset, List.mem_toFinset, mem_latestNames]

/-! ## The registry after registrations -/

namespace HoldsNames

variable {registry : Registry} {tables : List FlattenedTable}

/-- A name that is kept in order has a table. -/
theorem isSome_table (holds : registry.HoldsNames tables) {id : FlattenId}
    (isKept : id ∈ registry.nameOrder) : (tables.find? (·.id == id)).isSome = true := by
  have isLatest := List.mem_reverse.mpr isKept
  rw [holds.order] at isLatest
  have isName := (mem_latestNames id tables).mp (List.mem_of_mem_take isLatest)
  simpa using isName

theorem mem_keys_iff (holds : registry.HoldsNames tables) (id : FlattenId) :
    id ∈ registry.byName.keys ↔ id ∈ registry.nameOrder := by
  have found := congrArg Option.isSome (holds.names id)
  rw [Option.isSome_map] at found
  rw [← OrderedMap.isSome_find?_iff holds.ordered, found]
  by_cases isKept : id ∈ registry.nameOrder
  · simpa only [isKept, if_true, iff_true] using holds.isSome_table isKept
  · simp [isKept]

/-- As many names resolve as there are, up to the bound. -/
theorem size_eq (holds : registry.HoldsNames tables) :
    registry.size = min registry.nameBound (latestNames tables).length := by
  have sameNames : registry.byName.keys.Perm registry.nameOrder :=
    (List.perm_ext_iff_of_nodup holds.ordered.ascending_keys.nodup holds.nodup_nameOrder).mpr
      holds.mem_keys_iff
  rw [← List.length_take, ← holds.order, List.length_reverse, ← sameNames.length_eq]
  simp [size, OrderedMap.keys]

/-- Without a bound on the age, a name resolves while fewer names than the bound are more recent. -/
theorem isSome_get_iff (holds : registry.HoldsNames tables) (ageless : registry.ageBound = none)
    (now : Nat) (id : FlattenId) :
    (registry.get now id).1.isSome = true ↔
      id ∈ tables.map FlattenedTable.id ∧
        ((tables.map FlattenedTable.id).takeWhile (· != id)).toFinset.card <
          registry.nameBound := by
  rw [← length_takeWhile_latestNames, ← mem_latestNames, ← mem_take_iff, holds.get_eq ageless]
  by_cases isKept : id ∈ (latestNames tables).take registry.nameBound
  · have isKnown : id ∈ registry.nameOrder := by
      rwa [← List.mem_reverse, holds.order]
    simpa only [isKept, if_true, iff_true] using holds.isSome_table isKnown
  · simp [isKept]

theorem relist (holds : registry.HoldsNames tables)
    (recent : OrderedMap FlattenKey (List RegisteredTable)) :
    (registry.relist recent).HoldsNames tables :=
  ⟨holds.ordered, holds.order, holds.names⟩

end HoldsNames

theorem registerAll_append_singleton (registry : Registry) (made : List Registration)
    (last : Registration) :
    registry.registerAll (made ++ [last]) =
      (registry.registerAll made).register last.now last.table :=
  List.foldl_concat _ registry last made

/-- After registrations, the registry keeps its bounds and holds the names of the registered
tables. -/
theorem holdsNames_registerAll (listBound nameBound : Nat) (ageBound : Option Nat)
    (made : List Registration) :
    ((empty listBound nameBound ageBound).registerAll made).ageBound = ageBound ∧
      ((empty listBound nameBound ageBound).registerAll made).nameBound = max nameBound 1 ∧
      ((empty listBound nameBound ageBound).registerAll made).HoldsNames
        (made.map Registration.table).reverse := by
  induction made using List.reverseRecOn with
  | nil => exact ⟨rfl, rfl, HoldsNames.empty listBound nameBound ageBound⟩
  | append_singleton made last inductionHypothesis =>
      obtain ⟨sameAge, sameBound, holds⟩ := inductionHypothesis
      have positive : 1 ≤ ((empty listBound nameBound ageBound).registerAll made).nameBound := by
        rw [sameBound]
        exact Nat.le_max_right nameBound 1
      rw [registerAll_append_singleton, List.map_append, List.map_singleton,
        List.reverse_append, List.reverse_singleton, List.singleton_append]
      exact ⟨sameAge, sameBound, holds.register positive last.now last.table⟩

/-- Without a bound on the age, a name resolves to the table of its last registration as long as
fewer names than the bound were registered since.  As many names resolve as were registered, up to
the bound.  The lists of recent tables do not matter. -/
theorem get_registerAll (listBound nameBound : Nat) (made : List Registration) :
    let registry := (empty listBound nameBound none).registerAll made
    (∀ id now,
      ((registry.get now id).1.isSome = true ↔
          id ∈ registeredNames made ∧ (laterNames made id).card < max nameBound 1) ∧
        (∀ table, (registry.get now id).1 = some table → lastRegistered? made id = some table) ∧
        ∀ recent, ((registry.relist recent).get now id).1 = (registry.get now id).1) ∧
      registry.size = min (max nameBound 1) (registeredNames made).toFinset.card := by
  obtain ⟨ageless, sameBound, holds⟩ := holdsNames_registerAll listBound nameBound none made
  dsimp only
  generalize (empty listBound nameBound none).registerAll made = registry at *
  have sameNames : (made.map Registration.table).reverse.map FlattenedTable.id =
      (registeredNames made).reverse := by
    rw [registeredNames, List.map_reverse, List.map_map]
    rfl
  refine ⟨?_, ?_⟩
  · intro id now
    have resolved := holds.get_eq ageless now id
    refine ⟨?_, ?_, ?_⟩
    · rw [holds.isSome_get_iff ageless, sameNames, sameBound, List.mem_reverse, laterNames]
    · intro table isFound
      rw [resolved] at isFound
      split at isFound
      · exact isFound
      · cases isFound
    · intro recent
      rw [resolved]
      exact (holds.relist recent).get_eq ageless now id
  · rw [holds.size_eq, length_latestNames, sameNames, sameBound, List.toFinset_reverse]

/-- A name that comes again is recent again, also where only one table is listed. -/
example :
    let made : List Registration := [1, 2, 1, 3].map fun name =>
      ⟨0, ⟨"u", [], "t", "a[*]", Identifier.ofNat name, [0]⟩⟩
    [1, 2, 3].map (fun name =>
        (((empty 1 2 none).registerAll made).get 0 (Identifier.ofNat name)).1.isSome) =
      [true, false, true] := by
  decide +kernel

end Unnest.Registry
