import Unnest.Cache.Directory
import Unnest.Cache.Registry
import Unnest.Flattening
import Unnest.Settings
import Unnest.Total

/-!
# Reusing flattened tables

A flattening can be used again for exactly the shards it was made from, told by their first rows.
It is looked for in memory, then in a store if there is one, and computed otherwise.  Whatever is
found is handed out and registered under the name that the caller chose.  A store that fails is
counted and otherwise ignored.
-/

namespace Unnest

/-- Where a flattened table was taken from. -/
inductive CacheSource where
  | memory
  | disk
  | computed
deriving DecidableEq, Repr, Inhabited

def CacheSource.name : CacheSource → String
  | .memory => "memory"
  | .disk => "disk"
  | .computed => "computed"

/-- What a cache has done so far. -/
structure CacheStatistics where
  memoryHits : Nat := 0
  diskHits : Nat := 0
  computed : Nat := 0
  diskErrors : Nat := 0
deriving DecidableEq, Repr, Inhabited

namespace CacheStatistics

/-- Count a table that is handed out. -/
def countSource (statistics : CacheStatistics) : CacheSource → CacheStatistics
  | .memory => { statistics with memoryHits := statistics.memoryHits + 1 }
  | .disk => { statistics with diskHits := statistics.diskHits + 1 }
  | .computed => { statistics with computed := statistics.computed + 1 }

/-- Count a failure of the store, if there was one. -/
def countFailure {α : Type} (statistics : CacheStatistics) : Outcome α → CacheStatistics
  | .ok _ => statistics
  | .error _ => { statistics with diskErrors := statistics.diskErrors + 1 }

end CacheStatistics

/-- Flattened tables that may be used again. -/
structure FlattenCache where
  settings : FlattenSettings
  registry : Registry
  statistics : CacheStatistics := {}
deriving Inhabited

/-- A table that is handed out. -/
structure HandedOut where
  table : FlattenedTable
  source : CacheSource
deriving Inhabited

namespace FlattenCache

/-- An empty cache with its bounds. -/
def ofSettings (flatten : FlattenSettings) (cache : CacheSettings) : FlattenCache where
  settings := flatten
  registry := Registry.empty cache.instancesPerKey cache.maxFlattenIds cache.memoryBound

/-- The counter of tables that were handed out from a source. -/
def lookupCounters (source : CacheSource) : Counters :=
  Counters.raiseEach "strata_flatten_cache_lookups_total" "source" [source.name] []

/-- Register a table and hand it out. -/
def handOut (cache : FlattenCache) (now : Nat) (table : FlattenedTable) (source : CacheSource) :
    HandedOut × FlattenCache :=
  (⟨table, source⟩,
    { cache with
      registry := cache.registry.register now table
      statistics := cache.statistics.countSource source })

/-- The first listed table that was made from the given first rows. -/
def findRecent (cache : FlattenCache) (now : Nat) (key : FlattenKey) (firstRows : FirstRows) :
    Option FlattenedTable × FlattenCache :=
  let (tables, registry) := cache.registry.recentTables now key
  (tables.find? (·.isValidFor firstRows), { cache with registry := registry })

/-- Look into the store, if there is one; a failure finds nothing. -/
def lookUp {σ : Type} (store : Option (TableStore σ)) (now : Nat) (cache : FlattenCache)
    (content : σ) (key : FlattenKey) (firstRows : FirstRows) :
    Option FlattenedTable × FlattenCache :=
  match store with
  | none => (none, cache)
  | some store =>
      let loaded := store.load now content key.source key.flattenBy firstRows
      let counted := { cache with statistics := cache.statistics.countFailure loaded }
      match loaded with
      | .ok found => (found, counted)
      | .error _ => (none, counted)

/-- Offer a table to the store, if there is one; a failure is only counted. -/
def offer {σ : Type} (store : Option (TableStore σ)) (now : Nat) (cache : FlattenCache)
    (content : σ) (table : FlattenedTable) : FlattenCache × σ :=
  match store with
  | none => (cache, content)
  | some store =>
      let (offered, content) := store.offer now content table
      ({ cache with statistics := cache.statistics.countFailure offered }, content)

/-- Compute a flattening, offer it to the store and hand it out. -/
def compute {σ : Type} (store : Option (TableStore σ)) (now : Nat) (cache : FlattenCache)
    (content : σ) (table : Table) (flattenBy : String) (id : FlattenId) :
    Outcome HandedOut × FlattenCache × σ :=
  match Flattening.flattenTable cache.settings table none flattenBy id with
  | .error error => (.error error, cache, content)
  | .ok computed =>
      let (cache, content) := offer store now cache content computed
      let (handedOut, cache) := cache.handOut now computed .computed
      (.ok handedOut, cache, content)

/-- A flattening of a table by a field that fits its current shards, under the name `id`. -/
def flatten {σ : Type} (store : Option (TableStore σ)) (now : Nat) (cache : FlattenCache)
    (content : σ) (table : Table) (flattenBy : String) (id : FlattenId) :
    Outcome HandedOut × FlattenCache × σ :=
  if table.isFlattened then
    (.error (.alreadyFlattened table.name), cache, content)
  else
    match readTarget flattenBy with
    | .error error => (.error error, cache, content)
    | .ok target =>
        let key : FlattenKey := ⟨table.name, target.toText⟩
        match cache.findRecent now key table.firstRows with
        | (some hit, cache) =>
            let (handedOut, cache) := cache.handOut now (hit.rebase id) .memory
            (.ok handedOut, cache, content)
        | (none, cache) =>
            match lookUp store now cache content key table.firstRows with
            | (some hit, cache) =>
                let (handedOut, cache) := cache.handOut now (hit.rebase id) .disk
                (.ok handedOut, cache, content)
            | (none, cache) => compute store now cache content table target.toText id

/-- The name of a table in memory that fits the current shards of a table. -/
def validId? (cache : FlattenCache) (now : Nat) (table : Table) (flattenBy : String) :
    Option FlattenId × FlattenCache :=
  match readTarget flattenBy with
  | .error _ => (none, cache)
  | .ok target =>
      let (hit, cache) := cache.findRecent now ⟨table.name, target.toText⟩ table.firstRows
      (hit.map FlattenedTable.id, cache)

/-- The flattened table of a name. -/
def flattened? (cache : FlattenCache) (now : Nat) (id : FlattenId) :
    Option FlattenedTable × FlattenCache :=
  let (found, registry) := cache.registry.get now id
  (found, { cache with registry := registry })

end FlattenCache

end Unnest
