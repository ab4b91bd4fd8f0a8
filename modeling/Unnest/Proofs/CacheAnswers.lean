import Unnest.Cache
import Unnest.Proofs.FieldPathMatching
import Unnest.Proofs.OrderedMap

/-!
# How a cache comes to its answers

A flattening is either refused, or recalled from memory or from the store, or computed.  The
relation `FlattenCache.Answers` lists these ways, with what each of them does to the registry, and
`FlattenCache.answers_flatten` says that there is no other.  Before it stand the facts about its
parts: which tables a registry lists after an operation, what a flattening owes to the table and to
the spelling of the field, and what a table keeps under another name.
-/

namespace Unnest

/-! ## Tables -/

theorem inRowOrder_eq_self {shards : List Shard}
    (ordered : (shards.map Shard.lowestRow).Pairwise (· ≤ ·)) : inRowOrder shards = shards :=
  mergeSort_by_eq_self Shard.lowestRow (List.pairwise_map.mp ordered)

theorem pairwise_inRowOrder (shards : List Shard) :
    ((inRowOrder shards).map Shard.lowestRow).Pairwise (· ≤ ·) :=
  List.pairwise_map.mpr (pairwise_mergeSort_by Shard.lowestRow shards)

namespace FlattenedTable

/-- Both tables have the same source and, shard by shard, the same rows.  Nothing is said about
their names as flattenings, nor about how their columns are encoded. -/
structure ShowsSameAs (left right : FlattenedTable) : Prop where
  name : left.name = right.name
  source : left.source = right.source
  flattenBy : left.flattenBy = right.flattenBy
  originalFirstRows : left.originalFirstRows = right.originalFirstRows
  lowestRows : left.shards.map Shard.lowestRow = right.shards.map Shard.lowestRow
  rows : left.shards.map Shard.rows = right.shards.map Shard.rows

/-- The shards stand in the order of their rows. -/
def IsInRowOrder (table : FlattenedTable) : Prop :=
  (table.shards.map Shard.lowestRow).Pairwise (· ≤ ·)

namespace ShowsSameAs

theorem refl (table : FlattenedTable) : table.ShowsSameAs table :=
  ⟨rfl, rfl, rfl, rfl, rfl, rfl⟩

theorem trans {first second third : FlattenedTable} (left : first.ShowsSameAs second)
    (right : second.ShowsSameAs third) : first.ShowsSameAs third where
  name := left.name.trans right.name
  source := left.source.trans right.source
  flattenBy := left.flattenBy.trans right.flattenBy
  originalFirstRows := left.originalFirstRows.trans right.originalFirstRows
  lowestRows := left.lowestRows.trans right.lowestRows
  rows := left.rows.trans right.rows

theorem isInRowOrder {left right : FlattenedTable} (same : left.ShowsSameAs right)
    (ordered : right.IsInRowOrder) : left.IsInRowOrder := by
  rw [IsInRowOrder, same.lowestRows]
  exact ordered

end ShowsSameAs

theorem rebase_showsSameAs {table : FlattenedTable} (ordered : table.IsInRowOrder)
    (id : FlattenId) : (table.rebase id).ShowsSameAs table := by
  have sameShards : (table.rebase id).shards = table.shards := inRowOrder_eq_self ordered
  exact ⟨rfl, rfl, rfl, rfl, by rw [sameShards], by rw [sameShards]⟩

@[simp]
theorem rebase_id (table : FlattenedTable) (id : FlattenId) : (table.rebase id).id = id := rfl

end FlattenedTable

/-! ## Flattening -/

/-- The text of a target is read as this target. -/
theorem readTarget_toText {flattenBy : String} {target : FieldPath}
    (accepted : readTarget flattenBy = .ok target) : readTarget target.toText = .ok target := by
  have readable : FieldPath.read target.toText = .ok target ∧ target.IsTarget := by
    rcases readTarget_outcome flattenBy with ⟨found, isFound, _, isTarget⟩ | ⟨_, _, fails⟩
    · rw [accepted] at isFound
      cases isFound
      exact ⟨FieldPath.read_toText isTarget.valid, isTarget⟩
    · rw [accepted] at fails
      cases fails
  rcases readTarget_outcome target.toText with ⟨found, isFound, isRead, _⟩ | ⟨noTarget, _, _⟩
  · rw [readable.1] at isRead
    cases isRead
    exact isFound
  · exact absurd ⟨target, readable⟩ noTarget

namespace Flattening

theorem flattenTable_eq_by {settings : FlattenSettings} {table : Table}
    (isLoaded : table.isFlattened = false) {flattenBy : String} {target : FieldPath}
    (accepted : readTarget flattenBy = .ok target) (id : FlattenId) :
    flattenTable settings table none flattenBy id =
      flattenTableBy settings table table.shards target id := by
  simp [flattenTable, isLoaded, accepted]

/-- A flattening depends on the spelling of the field only through its target. -/
theorem flattenTable_toText (settings : FlattenSettings) (table : Table) {flattenBy : String}
    {target : FieldPath} (accepted : readTarget flattenBy = .ok target) (id : FlattenId) :
    flattenTable settings table none target.toText id =
      flattenTable settings table none flattenBy id := by
  simp only [flattenTable, accepted, readTarget_toText accepted]

/-- What is known of a flattened table from how it was made. -/
theorem flattenTable_eq_ok {settings : FlattenSettings} {table : Table} {flattenBy : String}
    {id : FlattenId} {fresh : FlattenedTable}
    (succeeds : flattenTable settings table none flattenBy id = .ok fresh) :
    table.isFlattened = false ∧
      ∃ target, readTarget flattenBy = .ok target ∧ fresh.key = ⟨table.name, target.toText⟩ ∧
        fresh.id = id ∧ fresh.originalFirstRows = table.firstRows ∧ fresh.IsInRowOrder := by
  cases isLoaded : table.isFlattened with
  | true => simp [flattenTable, isLoaded] at succeeds
  | false =>
      cases accepted : readTarget flattenBy with
      | error cause => simp [flattenTable, isLoaded, accepted] at succeeds
      | ok target =>
          rw [flattenTable_eq_by isLoaded accepted, flattenTableBy] at succeeds
          cases flattened : flattenShards settings target
              (flattenedTableName table.name target.toText) table.shards with
          | error cause => simp [flattened] at succeeds
          | ok shards =>
              simp only [flattened, Except.ok.injEq] at succeeds
              subst succeeds
              exact ⟨rfl, target, rfl, rfl, rfl, rfl, pairwise_inRowOrder shards⟩

/-- Tables with the same name and shards have the same flattenings, up to their names as
flattenings. -/
theorem flattenTable_congr {settings : FlattenSettings} {first second : Table}
    (isLoaded : second.isFlattened = false) (sameName : first.name = second.name)
    (sameShards : first.shards = second.shards) {flattenBy : String} {firstId : FlattenId}
    {fresh : FlattenedTable}
    (succeeds : flattenTable settings first none flattenBy firstId = .ok fresh)
    (secondId : FlattenId) :
    flattenTable settings second none flattenBy secondId = .ok { fresh with id := secondId } := by
  obtain ⟨firstLoaded, target, accepted, _⟩ := flattenTable_eq_ok succeeds
  rw [flattenTable_eq_by firstLoaded accepted, flattenTableBy] at succeeds
  rw [flattenTable_eq_by isLoaded accepted, flattenTableBy, ← sameName, ← sameShards]
  cases flattened : flattenShards settings target
      (flattenedTableName first.name target.toText) first.shards with
  | error cause => simp [flattened] at succeeds
  | ok shards =>
      simp only [flattened, Except.ok.injEq] at succeeds
      subst succeeds
      rfl

end Flattening

/-! ## The registry -/

namespace Registry

/-- Nothing is registered between two states of a registry; at most, lists have become shorter. -/
structure RegistersNothing (before after : Registry) : Prop where
  byName : after.byName = before.byName
  nameOrder : after.nameOrder = before.nameOrder
  nameBound : after.nameBound = before.nameBound
  ageBound : after.ageBound = before.ageBound
  shorter : ∀ key, (after.listOf key).Sublist (before.listOf key)

theorem RegistersNothing.refl (registry : Registry) : registry.RegistersNothing registry :=
  ⟨rfl, rfl, rfl, rfl, fun _ => List.Sublist.refl _⟩

theorem listOf_insert (registry : Registry) (key other : FlattenKey)
    (entries : List RegisteredTable) :
    { registry with recent := OrderedMap.insert key entries registry.recent }.listOf other =
      if other = key then entries else registry.listOf other := by
  rw [listOf, OrderedMap.find?_insert]
  by_cases same : other = key
  · simp [same]
  · have different : compare other key ≠ .eq :=
      fun isSame => same (Std.LawfulEqCmp.eq_of_compare isSame)
    simp [same, different, listOf]

/-- Looking for recent tables finds some of those that are listed, and registers nothing. -/
theorem recentTables_outcome (registry : Registry) (now : Nat) (key : FlattenKey) :
    registry.RegistersNothing (registry.recentTables now key).2 ∧
      ∀ table ∈ (registry.recentTables now key).1,
        ∃ entry ∈ registry.listOf key, entry.table = table := by
  rw [recentTables]
  cases found : OrderedMap.find? key registry.recent with
  | none => exact ⟨RegistersNothing.refl registry, by simp⟩
  | some entries =>
      have isList : registry.listOf key = entries := by simp [listOf, found]
      refine ⟨⟨rfl, rfl, rfl, rfl, ?_⟩, ?_⟩
      · intro other
        rw [listOf_insert]
        by_cases same : other = key
        · rw [if_pos same, same, isList]
          exact List.filter_sublist
        · rw [if_neg same]
      · intro table isRecent
        obtain ⟨entry, isKept, sameTable⟩ := List.mem_map.mp isRecent
        exact ⟨entry, isList ▸ List.mem_of_mem_filter isKept, sameTable⟩

/-- What is listed after a table is registered is this table, or was listed before. -/
theorem mem_listOf_register {registry : Registry} {now : Nat} {table : FlattenedTable}
    {key : FlattenKey} {entry : RegisteredTable}
    (isListed : entry ∈ (registry.register now table).listOf key) :
    (entry.table = table ∧ key = table.key) ∨ entry ∈ registry.listOf key := by
  have lists : (registry.register now table).listOf key =
      if key = table.key then
        listFirst ⟨table, now⟩ (registry.listOf table.key) registry.listBound
      else registry.listOf key :=
    listOf_insert registry table.key key _
  rw [lists] at isListed
  by_cases same : key = table.key
  · rw [if_pos same, listFirst] at isListed
    rcases List.mem_cons.mp (List.mem_of_mem_take isListed) with isNew | isOther
    · exact Or.inl ⟨by rw [isNew], same⟩
    · exact Or.inr (same ▸ List.mem_of_mem_filter isOther)
  · rw [if_neg same] at isListed
    exact Or.inr isListed

end Registry

/-! ## Stores that give what they are asked for -/

/-- What is found for a table was made from this table and its first rows. -/
theorem TableStore.IsKeyed.key_of_load {σ : Type} {store : TableStore σ} (keyed : store.IsKeyed)
    {now : Nat} {content : σ} {key : FlattenKey} {table : Table} {found : FlattenedTable}
    (isFound :
      store.load now content key.source key.flattenBy table.firstRows = .ok (some found)) :
    found.key = key ∧ found.originalFirstRows = table.firstRows := by
  have inOrder : sortDistinct table.firstRows = table.firstRows :=
    sortDistinct_eq_self (ascending_sortDistinct _)
  obtain ⟨sameSource, sameField, sameRows⟩ := keyed now content _ _ _ found inOrder isFound
  refine ⟨?_, sameRows⟩
  rw [FlattenedTable.key, sameSource, sameField]

theorem KeyedStore.isKeyed_of_map {σ : Type} {store : Option (KeyedStore σ)}
    {kept : TableStore σ} (isStore : store.map toTableStore = some kept) : kept.IsKeyed := by
  obtain ⟨keyed, _, isKept⟩ := Option.map_eq_some_iff.mp isStore
  rw [← isKept]
  exact keyed.isKeyed

/-! ## The cache -/

namespace FlattenCache

variable {σ : Type}

/-- A table for a source, a field and first rows is remembered in memory or in the store. -/
inductive Remembers (store : Option (TableStore σ)) (now : Nat) (cache : FlattenCache)
    (content : σ) (key : FlattenKey) (firstRows : FirstRows) :
    FlattenedTable → CacheSource → Prop where
  | inMemory {entry : RegisteredTable} (isListed : entry ∈ cache.registry.listOf key)
      (isValid : entry.table.isValidFor firstRows = true) :
      Remembers store now cache content key firstRows entry.table .memory
  | inStore {kept : TableStore σ} {table : FlattenedTable} (isStore : store = some kept)
      (isLoaded : kept.load now content key.source key.flattenBy firstRows = .ok (some table)) :
      Remembers store now cache content key firstRows table .disk

/-- An answer, the registry after it, and what is then in the store. -/
inductive Answers (store : Option (TableStore σ)) (now : Nat) (cache : FlattenCache)
    (content : σ) (table : Table) (flattenBy : String) (id : FlattenId) :
    Outcome HandedOut → Registry → σ → Prop where
  | refused {cause : Error} {registry : Registry}
      (fails : Flattening.flattenTable cache.settings table none flattenBy id = .error cause)
      (registersNothing : cache.registry.RegistersNothing registry) :
      Answers store now cache content table flattenBy id (.error cause) registry content
  | recalled {target : FieldPath} {hit : FlattenedTable} {source : CacheSource}
      {registry : Registry} (isLoaded : table.isFlattened = false)
      (accepted : readTarget flattenBy = .ok target)
      (remembers : Remembers store now cache content ⟨table.name, target.toText⟩
        table.firstRows hit source)
      (registersNothing : cache.registry.RegistersNothing registry) :
      Answers store now cache content table flattenBy id (.ok ⟨hit.rebase id, source⟩)
        (registry.register now (hit.rebase id)) content
  | computed {fresh : FlattenedTable} {registry : Registry} {left : σ}
      (succeeds : Flattening.flattenTable cache.settings table none flattenBy id = .ok fresh)
      (registersNothing : cache.registry.RegistersNothing registry) :
      Answers store now cache content table flattenBy id (.ok ⟨fresh, .computed⟩)
        (registry.register now fresh) left

/-- What is handed out has the name and the first rows of the call, and is the last table that was
registered. -/
theorem Answers.handedOut {store : Option (KeyedStore σ)} {now : Nat} {cache : FlattenCache}
    {content : σ} {table : Table} {flattenBy : String} {id : FlattenId} {handedOut : HandedOut}
    {registry : Registry} {left : σ}
    (answers : Answers (store.map KeyedStore.toTableStore) now cache content table flattenBy id
      (.ok handedOut) registry left) :
    handedOut.table.id = id ∧ handedOut.table.originalFirstRows = table.firstRows ∧
      ∃ pruned, cache.registry.RegistersNothing pruned ∧
        registry = pruned.register now handedOut.table := by
  cases answers with
  | recalled isLoaded accepted remembers registersNothing =>
      cases remembers with
      | inMemory isListed isValid =>
          exact ⟨rfl, beq_iff_eq.mp isValid, _, registersNothing, rfl⟩
      | inStore isStore isFound =>
          have found := (KeyedStore.isKeyed_of_map isStore).key_of_load isFound
          exact ⟨rfl, found.2, _, registersNothing, rfl⟩
  | computed succeeds registersNothing =>
      obtain ⟨_, _, _, _, sameId, sameRows, _⟩ := Flattening.flattenTable_eq_ok succeeds
      exact ⟨sameId, sameRows, _, registersNothing, rfl⟩

theorem Answers.registersNothing {store : Option (TableStore σ)} {now : Nat}
    {cache : FlattenCache} {content : σ} {table : Table} {flattenBy : String} {id : FlattenId}
    {cause : Error} {registry : Registry} {left : σ}
    (answers : Answers store now cache content table flattenBy id (.error cause) registry left) :
    cache.registry.RegistersNothing registry := by
  cases answers with
  | refused fails registersNothing => exact registersNothing

theorem findRecent_outcome (cache : FlattenCache) (now : Nat) (key : FlattenKey)
    (firstRows : FirstRows) :
    (cache.findRecent now key firstRows).2.settings = cache.settings ∧
      cache.registry.RegistersNothing (cache.findRecent now key firstRows).2.registry ∧
      ∀ hit, (cache.findRecent now key firstRows).1 = some hit →
        ∃ entry ∈ cache.registry.listOf key,
          entry.table = hit ∧ hit.isValidFor firstRows = true := by
  obtain ⟨registersNothing, listed⟩ := cache.registry.recentTables_outcome now key
  refine ⟨rfl, registersNothing, ?_⟩
  intro hit isFound
  obtain ⟨entry, isListed, sameTable⟩ := listed hit (List.mem_of_find?_eq_some isFound)
  have isValid := List.find?_some isFound
  exact ⟨entry, isListed, sameTable, isValid⟩

theorem lookUp_outcome (store : Option (TableStore σ)) (now : Nat) (cache : FlattenCache)
    (content : σ) (key : FlattenKey) (firstRows : FirstRows) :
    (lookUp store now cache content key firstRows).2.settings = cache.settings ∧
      (lookUp store now cache content key firstRows).2.registry = cache.registry ∧
      ∀ hit, (lookUp store now cache content key firstRows).1 = some hit →
        ∃ kept, store = some kept ∧
          kept.load now content key.source key.flattenBy firstRows = .ok (some hit) := by
  unfold lookUp
  cases store with
  | none => simp
  | some kept =>
      cases loaded : kept.load now content key.source key.flattenBy firstRows with
      | error cause => simp [loaded]
      | ok found => simp [loaded]

theorem offer_outcome (store : Option (TableStore σ)) (now : Nat) (cache : FlattenCache)
    (content : σ) (table : FlattenedTable) :
    (offer store now cache content table).1.settings = cache.settings ∧
      (offer store now cache content table).1.registry = cache.registry := by
  unfold offer
  cases store with
  | none => simp
  | some kept => simp

/-- Computing a flattening is refused, or registers what was computed. -/
theorem compute_outcome (store : Option (TableStore σ)) (now : Nat) (cache : FlattenCache)
    (content : σ) (table : Table) (flattenBy : String) (id : FlattenId) :
    (∃ cause, Flattening.flattenTable cache.settings table none flattenBy id = .error cause ∧
      compute store now cache content table flattenBy id = (.error cause, cache, content)) ∨
    ∃ fresh after left,
      Flattening.flattenTable cache.settings table none flattenBy id = .ok fresh ∧
      compute store now cache content table flattenBy id =
        (.ok ⟨fresh, .computed⟩, after, left) ∧
      after.settings = cache.settings ∧
      after.registry = cache.registry.register now fresh := by
  unfold compute
  cases computed : Flattening.flattenTable cache.settings table none flattenBy id with
  | error cause => exact Or.inl ⟨cause, rfl, rfl⟩
  | ok fresh =>
      obtain ⟨sameSettings, sameRegistry⟩ := offer_outcome store now cache content fresh
      let offered := offer store now cache content fresh
      refine Or.inr ⟨fresh, (offered.1.handOut now fresh .computed).2, offered.2, rfl, rfl,
        sameSettings, ?_⟩
      change offered.1.registry.register now fresh = cache.registry.register now fresh
      rw [sameRegistry]

/-- A cache refuses, recalls or computes, and keeps its settings. -/
theorem answers_flatten (store : Option (TableStore σ)) (now : Nat) (cache : FlattenCache)
    (content : σ) (table : Table) (flattenBy : String) (id : FlattenId) :
    ∃ answer after left,
      flatten store now cache content table flattenBy id = (answer, after, left) ∧
      after.settings = cache.settings ∧
      Answers store now cache content table flattenBy id answer after.registry left := by
  unfold flatten
  cases isLoaded : table.isFlattened with
  | true =>
      exact ⟨_, _, _, rfl, rfl,
        .refused (by simp [Flattening.flattenTable, isLoaded]) (.refl cache.registry)⟩
  | false =>
      cases accepted : readTarget flattenBy with
      | error cause =>
          exact ⟨_, _, _, rfl, rfl,
            .refused (by simp [Flattening.flattenTable, isLoaded, accepted])
              (.refl cache.registry)⟩
      | ok target =>
          let key : FlattenKey := ⟨table.name, target.toText⟩
          obtain ⟨prunedSettings, registersNothing, listed⟩ :=
            cache.findRecent_outcome now key table.firstRows
          rcases recent : cache.findRecent now key table.firstRows with ⟨hit, pruned⟩
          rw [recent] at prunedSettings registersNothing listed
          cases hit with
          | some hit =>
              obtain ⟨entry, isListed, rfl, isValid⟩ := listed hit rfl
              refine ⟨.ok ⟨entry.table.rebase id, .memory⟩,
                (pruned.handOut now (entry.table.rebase id) .memory).2, content, ?_,
                prunedSettings, ?_⟩
              · simp only [key, recent, Bool.false_eq_true, if_false, handOut]
              · exact .recalled isLoaded accepted (.inMemory isListed isValid) registersNothing
          | none =>
              obtain ⟨searchedSettings, sameRegistry, kept⟩ :=
                lookUp_outcome store now pruned content key table.firstRows
              rcases searched : lookUp store now pruned content key table.firstRows with
                ⟨hit, counted⟩
              rw [searched] at searchedSettings sameRegistry kept
              cases hit with
              | some hit =>
                  obtain ⟨held, isStore, isKept⟩ := kept hit rfl
                  refine ⟨.ok ⟨hit.rebase id, .disk⟩,
                    (counted.handOut now (hit.rebase id) .disk).2, content, ?_,
                    searchedSettings.trans prunedSettings, ?_⟩
                  · simp only [key, recent, searched, Bool.false_eq_true, if_false, handOut]
                  · rw [← sameRegistry] at registersNothing
                    exact .recalled isLoaded accepted (.inStore isStore isKept) registersNothing
              | none =>
                  have keptSettings := searchedSettings.trans prunedSettings
                  rw [← sameRegistry] at registersNothing
                  simp only [key, recent, searched, Bool.false_eq_true, if_false]
                  rcases compute_outcome store now counted content table target.toText id with
                    ⟨cause, fails, isRefused⟩ | ⟨fresh, after, left, succeeds, isComputed,
                      afterSettings, afterRegistry⟩
                  · rw [keptSettings, Flattening.flattenTable_toText _ _ accepted] at fails
                    exact ⟨_, _, _, isRefused, keptSettings, .refused fails registersNothing⟩
                  · rw [keptSettings, Flattening.flattenTable_toText _ _ accepted] at succeeds
                    refine ⟨_, _, _, isComputed, afterSettings.trans keptSettings, ?_⟩
                    rw [afterRegistry]
                    exact .computed succeeds registersNothing

end FlattenCache

end Unnest
