import Unnest.Cluster.Node
import Unnest.Proofs.RecentLayouts

/-!
# What a node lists

Asked which flattening it has, a node gives the first one in its list that was made from the table
it holds.  As long as tables stay and none expires, only a computation changes this answer: unless
it fails, the node then gives the name of the request that was computed
(`FlattenNode.IsSteady.computesAs`).
-/

namespace Unnest

variable {σ : Type}

/-! ## Fields as they are printed -/

/-- The field is spelled as its target is printed. -/
def FlattenKey.IsCanonical (key : FlattenKey) : Prop :=
  ∃ target, readTarget key.flattenBy = .ok target ∧ target.toText = key.flattenBy

/-- What is asked for by a table and a field, if the field can be read. -/
def FlattenKey.of? (table flattenBy : String) : Option FlattenKey :=
  (readTarget flattenBy).toOption.map fun target => ⟨table, target.toText⟩

namespace FlattenKey

theorem of?_eq_some {table flattenBy : String} {key : FlattenKey}
    (isKey : of? table flattenBy = some key) :
    ∃ target, readTarget flattenBy = .ok target ∧ key = ⟨table, target.toText⟩ := by
  rw [of?] at isKey
  cases accepted : readTarget flattenBy with
  | error cause =>
      rw [accepted] at isKey
      cases isKey
  | ok target =>
      rw [accepted] at isKey
      cases isKey
      exact ⟨target, rfl, rfl⟩

theorem isCanonical_of_of? {table flattenBy : String} {key : FlattenKey}
    (isKey : of? table flattenBy = some key) : key.IsCanonical := by
  rcases of?_eq_some isKey with ⟨target, accepted, rfl⟩
  exact ⟨target, readTarget_toText accepted, rfl⟩

end FlattenKey

theorem FlattenRequest.key_of_isCanonical {request : FlattenRequest}
    (canonical : FlattenKey.IsCanonical ⟨request.table, request.flattenBy⟩) :
    request.key = ⟨request.table, request.flattenBy⟩ := by
  rcases canonical with ⟨target, accepted, isText⟩
  have isRead : readTarget request.flattenBy = .ok target := accepted
  have isPrinted : target.toText = request.flattenBy := isText
  simp only [FlattenRequest.key, isRead, isPrinted]

/-- Without a store, what is handed out was listed or is computed. -/
theorem FlattenCache.Answers.isListed_or_isComputed {store : Option (TableStore σ)} {now : Nat}
    {cache : FlattenCache} {content left : σ} {table : Table} {flattenBy : String}
    {id : FlattenId} {handed : HandedOut} {registry : Registry}
    (answers : Answers store now cache content table flattenBy id (.ok handed) registry left)
    (noStore : store = none) :
    (∃ target, readTarget flattenBy = .ok target ∧
      ∃ entry ∈ cache.registry.listOf ⟨table.name, target.toText⟩,
        entry.table.isValidFor table.firstRows = true) ∨
    ∃ fresh, Flattening.flattenTable cache.settings table none flattenBy id = .ok fresh := by
  cases answers with
  | @recalled target hit source registry isLoaded accepted remembers registersNothing =>
      cases remembers with
      | inMemory isListed isValid => exact Or.inl ⟨target, accepted, _, isListed, isValid⟩
      | inStore isStore isFound =>
          rw [noStore] at isStore
          cases isStore
  | computed succeeds registersNothing => exact Or.inr ⟨_, succeeds⟩

/-- Only a loaded table is flattened. -/
theorem FlattenCache.Answers.isLoaded {store : Option (TableStore σ)} {now : Nat}
    {cache : FlattenCache} {content left : σ} {table : Table} {flattenBy : String}
    {id : FlattenId} {handed : HandedOut} {registry : Registry}
    (answers : Answers store now cache content table flattenBy id (.ok handed) registry left) :
    table.isFlattened = false := by
  cases answers with
  | recalled isLoaded accepted remembers registersNothing => exact isLoaded
  | computed succeeds registersNothing => exact (Flattening.flattenTable_eq_ok succeeds).1

namespace FlattenNode

/-! ## Answers -/

/-- The flattening that the node gives when it is asked. -/
def listed? (node : FlattenNode σ) (key : FlattenKey) : Option FlattenId :=
  (OrderedMap.find? key.source node.tables).bind fun table =>
    ((node.cache.registry.listOf key).find? fun entry =>
      entry.table.isValidFor table.firstRows).map fun entry => entry.table.id

/-- The node holds the table, and it can be flattened by the field. -/
def CanFlatten (node : FlattenNode σ) (key : FlattenKey) : Prop :=
  ∃ table id fresh, OrderedMap.find? key.source node.tables = some table ∧
    Flattening.flattenTable node.cache.settings table none key.flattenBy id = .ok fresh

/-- Tables stand under their names and do not expire, and only loaded tables are flattened; without
a store, what is listed can be computed. -/
structure IsSteady (node : FlattenNode σ) : Prop where
  ageless : node.cache.registry.ageBound = none
  listBound : 1 ≤ node.cache.registry.listBound
  keyed : ∀ key, ∀ entry ∈ node.cache.registry.listOf key, entry.table.key = key
  named : ∀ name table, OrderedMap.find? name node.tables = some table → table.name = name
  loaded : ∀ key table, OrderedMap.find? key.source node.tables = some table →
    node.listed? key ≠ none → table.isFlattened = false
  listed : node.store = none → ∀ key, node.listed? key ≠ none → node.CanFlatten key

/-- The later node is the earlier one: only what it lists and stores and what it works on may
differ. -/
structure IsSame (before after : FlattenNode σ) : Prop where
  id : after.id = before.id
  tables : after.tables = before.tables
  store : after.store = before.store
  settings : after.cache.settings = before.cache.settings

theorem IsSame.refl (node : FlattenNode σ) : node.IsSame node :=
  ⟨rfl, rfl, rfl, rfl⟩

theorem IsSame.canFlatten_iff {before after : FlattenNode σ} (same : before.IsSame after)
    (key : FlattenKey) : after.CanFlatten key ↔ before.CanFlatten key := by
  rw [CanFlatten, CanFlatten, same.tables, same.settings]

/-- A cache with the same lists gives the same answers. -/
theorem listed?_of_keepsLists {before after : FlattenNode σ} (same : before.IsSame after)
    (keepsLists : before.cache.registry.KeepsLists after.cache.registry) (key : FlattenKey) :
    after.listed? key = before.listed? key := by
  rw [listed?, listed?, same.tables, keepsLists.lists]

theorem IsSteady.of_keepsLists {before after : FlattenNode σ} (steady : before.IsSteady)
    (same : before.IsSame after)
    (keepsLists : before.cache.registry.KeepsLists after.cache.registry) : after.IsSteady where
  ageless := keepsLists.ageBound.trans steady.ageless
  listBound := keepsLists.listBound ▸ steady.listBound
  keyed := by
    intro key entry isListed
    rw [keepsLists.lists] at isListed
    exact steady.keyed key entry isListed
  named := by
    rw [same.tables]
    exact steady.named
  loaded := by
    intro key table isTable isListed
    rw [listed?_of_keepsLists same keepsLists] at isListed
    rw [same.tables] at isTable
    exact steady.loaded key table isTable isListed
  listed := by
    intro noStore key isListed
    rw [listed?_of_keepsLists same keepsLists] at isListed
    rw [same.store] at noStore
    exact (same.canFlatten_iff key).mpr (steady.listed noStore key isListed)

theorem listed?_ne_none {node : FlattenNode σ} {key : FlattenKey} {table : Table}
    (isTable : OrderedMap.find? key.source node.tables = some table) {entry : RegisteredTable}
    (isListed : entry ∈ node.cache.registry.listOf key)
    (isValid : entry.table.isValidFor table.firstRows = true) : node.listed? key ≠ none := by
  have isFound : ((node.cache.registry.listOf key).find? fun entry =>
      entry.table.isValidFor table.firstRows).isSome = true :=
    List.find?_isSome.mpr ⟨entry, isListed, isValid⟩
  rcases Option.isSome_iff_exists.mp isFound with ⟨first, isFirst⟩
  rw [listed?, isTable, Option.bind_some, isFirst]
  exact Option.some_ne_none _

/-- A new node lists nothing. -/
theorem isSteady_of_empty {node : FlattenNode σ} (ageless : node.cache.registry.ageBound = none)
    (listBound : 1 ≤ node.cache.registry.listBound) (empty : node.cache.registry.recent = [])
    (named : ∀ name table, OrderedMap.find? name node.tables = some table → table.name = name) :
    node.IsSteady := by
  have nothing : ∀ key, node.cache.registry.listOf key = [] := by
    intro key
    rw [Registry.listOf, empty]
    rfl
  have notListed : ∀ key, node.listed? key = none := by
    intro key
    cases found : OrderedMap.find? key.source node.tables with
    | none => rw [listed?, found, Option.bind_none]
    | some table =>
        rw [listed?, found, Option.bind_some, nothing]
        rfl
  refine ⟨ageless, listBound, ?_, named, fun key _ _ isListed => absurd (notListed key) isListed,
    fun _ key isListed => absurd (notListed key) isListed⟩
  intro key entry isListed
  rw [nothing] at isListed
  cases isListed

/-- The node answers with what it lists, and its lists stay as they are. -/
theorem IsSteady.validId?_eq {node : FlattenNode σ} (steady : node.IsSteady) {key : FlattenKey}
    (canonical : key.IsCanonical) (now : Nat) :
    ∃ cache, node.validId? now key.source key.flattenBy =
        (node.listed? key, { node with cache := cache }) ∧
      node.IsSame { node with cache := cache } ∧
      node.cache.registry.KeepsLists cache.registry := by
  unfold validId? listed?
  cases found : OrderedMap.find? key.source node.tables with
  | none => exact ⟨node.cache, rfl, .refl node, .refl node.cache.registry⟩
  | some table =>
      rcases canonical with ⟨target, accepted, isText⟩
      rcases Registry.recentTables_ageless steady.ageless now ⟨table.name, target.toText⟩ with
        ⟨areListed, keepsLists⟩
      have isKey : (⟨table.name, target.toText⟩ : FlattenKey) = key := by
        rw [steady.named key.source table found, isText]
      rw [isKey] at areListed keepsLists
      let pruned := (node.cache.registry.recentTables now key).2
      refine ⟨{ node.cache with registry := pruned }, ?_, ⟨rfl, rfl, rfl, rfl⟩, keepsLists⟩
      simp only [FlattenCache.validId?, accepted, FlattenCache.findRecent, isKey, areListed,
        List.find?_map, Option.map_map]
      rfl

/-! ## Computations -/

/-- What the computation of a worker comes to, and what the node lists after it. -/
inductive ComputesAs (before : FlattenNode σ) (worker : Worker) (after : FlattenNode σ) :
    NodeResult → Prop where
  | flattened (canFlatten : before.store = none → before.CanFlatten worker.key)
      (lists : ∀ key, after.listed? key =
        if key = worker.key then some worker.request else before.listed? key) :
      ComputesAs before worker after (.flattened worker.request)
  | failed {reason : String} (cannotFlatten : ¬ before.CanFlatten worker.key)
      (notListed : before.listed? worker.key = none)
      (lists : ∀ key, after.listed? key = before.listed? key) :
      ComputesAs before worker after (.failed reason)

/-- What is registered is what the node gives from now on. -/
theorem listed?_of_register {before after : FlattenNode σ} (steady : before.IsSteady)
    (same : before.IsSame after) {table : Table} {flattened : FlattenedTable} {pruned : Registry}
    {now : Nat} (isTable : OrderedMap.find? flattened.key.source before.tables = some table)
    (hasRows : flattened.originalFirstRows = table.firstRows)
    (keepsLists : before.cache.registry.KeepsLists pruned)
    (registered : after.cache.registry = pruned.register now flattened) (key : FlattenKey) :
    after.listed? key =
      if key = flattened.key then some flattened.id else before.listed? key := by
  rw [listed?, listed?, same.tables, registered, Registry.listOf_register, keepsLists.lists,
    keepsLists.lists]
  by_cases isKey : key = flattened.key
  · rcases Nat.exists_eq_add_of_le' steady.listBound with ⟨bound, isBound⟩
    have isValid : flattened.isValidFor table.firstRows = true := beq_iff_eq.mpr hasRows
    rw [if_pos isKey, if_pos isKey, isKey, isTable, keepsLists.listBound, isBound,
      Registry.listFirst, List.take_succ_cons, Option.bind_some]
    simp only [List.find?_cons, isValid, Option.map_some]
  · rw [if_neg isKey, if_neg isKey]

theorem IsSteady.of_register {before after : FlattenNode σ} (steady : before.IsSteady)
    (same : before.IsSame after) {flattened : FlattenedTable} {pruned : Registry} {now : Nat}
    (isLoaded : ∀ table, OrderedMap.find? flattened.key.source before.tables = some table →
      table.isFlattened = false)
    (canFlatten : before.store = none → before.CanFlatten flattened.key)
    (keepsLists : before.cache.registry.KeepsLists pruned)
    (registered : after.cache.registry = pruned.register now flattened)
    (lists : ∀ key, after.listed? key =
      if key = flattened.key then some flattened.id else before.listed? key) :
    after.IsSteady where
  ageless := by
    rw [registered]
    exact keepsLists.ageBound.trans steady.ageless
  listBound := by
    rw [registered]
    exact keepsLists.listBound ▸ steady.listBound
  keyed := by
    intro key entry isListed
    rw [registered] at isListed
    rcases Registry.mem_listOf_register isListed with ⟨isNew, isKey⟩ | wasListed
    · rw [isNew, isKey]
    · rw [keepsLists.lists] at wasListed
      exact steady.keyed key entry wasListed
  named := by
    rw [same.tables]
    exact steady.named
  loaded := by
    intro key table isTable isListed
    rw [same.tables] at isTable
    by_cases isKey : key = flattened.key
    · exact isLoaded table (isKey ▸ isTable)
    · rw [lists, if_neg isKey] at isListed
      exact steady.loaded key table isTable isListed
  listed := by
    intro noStore key isListed
    rw [same.store] at noStore
    rw [same.canFlatten_iff]
    by_cases isKey : key = flattened.key
    · exact isKey ▸ canFlatten noStore
    · rw [lists, if_neg isKey] at isListed
      exact steady.listed noStore key isListed

/-- Only a table that was made from the first rows of a node's table is listed for it. -/
theorem listed?_eq_none {node : FlattenNode σ} {key : FlattenKey} {table : Table}
    (isTable : OrderedMap.find? key.source node.tables = some table)
    (notListed : table.firstRows ∉ node.cache.registry.layouts key) : node.listed? key = none := by
  have noneFits : (node.cache.registry.listOf key).find? (fun entry =>
      entry.table.isValidFor table.firstRows) = none := by
    apply List.find?_eq_none.mpr
    intro entry isListed isValid
    exact notListed (List.mem_map.mpr ⟨entry, isListed, beq_iff_eq.mp isValid⟩)
  rw [listed?, isTable, Option.bind_some, noneFits, Option.map_none]

/-- What a call is refused, no other call could be given: the table cannot be flattened. -/
theorem not_canFlatten_of_refused {node : FlattenNode σ} {key : FlattenKey} {table : Table}
    (isTable : OrderedMap.find? key.source node.tables = some table)
    {store : Option (TableStore σ)} {now : Nat} {content left : σ} {id : FlattenId}
    {cause : Error} {registry : Registry}
    (answers : FlattenCache.Answers store now node.cache content table key.flattenBy id
      (.error cause) registry left) : ¬ node.CanFlatten key := by
  intro canFlatten
  rcases canFlatten with ⟨other, otherId, fresh, isOther, succeeds⟩
  rw [isTable] at isOther
  cases isOther
  cases answers with
  | refused fails registersNothing =>
      have isLoaded := (Flattening.flattenTable_eq_ok succeeds).1
      have again := Flattening.flattenTable_congr isLoaded rfl rfl succeeds id
      rw [fails] at again
      cases again

/-- What is handed out without a store can be computed. -/
theorem IsSteady.canFlatten_of_handedOut {node : FlattenNode σ} (steady : node.IsSteady)
    (noStore : node.store = none) {key : FlattenKey} {table : Table} {target : FieldPath}
    (isTable : OrderedMap.find? key.source node.tables = some table)
    (accepted : readTarget key.flattenBy = .ok target)
    (isKey : (⟨table.name, target.toText⟩ : FlattenKey) = key) {now : Nat} {content left : σ}
    {id : FlattenId} {handed : HandedOut} {registry : Registry}
    (answers : FlattenCache.Answers (node.store.map KeyedStore.toTableStore) now node.cache content
      table key.flattenBy id (.ok handed) registry left) : node.CanFlatten key := by
  have noTableStore : node.store.map KeyedStore.toTableStore = none := by
    rw [noStore, Option.map_none]
  rcases answers.isListed_or_isComputed noTableStore with
    ⟨other, accepts, entry, isListed, isValid⟩ | ⟨fresh, succeeds⟩
  · cases accepted.symm.trans accepts
    rw [isKey] at isListed
    exact steady.listed noStore key (listed?_ne_none isTable isListed isValid)
  · exact ⟨table, id, fresh, isTable, succeeds⟩

/-- Flattening the table that a node holds gives it the name of the request, unless the table cannot
be flattened and is not remembered either. -/
theorem IsSteady.computesAs {node : FlattenNode σ} (steady : node.IsSteady) {worker : Worker}
    (canonical : worker.key.IsCanonical) (now : Nat) :
    ∃ result cache content,
      node.compute now worker (OrderedMap.find? worker.key.source node.tables) =
        (result, { node with cache := cache, content := content }) ∧
      node.IsSame { node with cache := cache, content := content } ∧
      { node with cache := cache, content := content }.IsSteady ∧
      node.ComputesAs worker { node with cache := cache, content := content } result := by
  unfold compute
  cases found : OrderedMap.find? worker.key.source node.tables with
  | none =>
      have notListed : node.listed? worker.key = none := by
        rw [listed?, found, Option.bind_none]
      have cannotFlatten : ¬ node.CanFlatten worker.key := by
        intro canFlatten
        rcases canFlatten with ⟨table, id, fresh, isTable, _⟩
        rw [found] at isTable
        cases isTable
      exact ⟨_, node.cache, node.content, rfl, .refl node, steady,
        .failed cannotFlatten notListed fun _ => rfl⟩
  | some table =>
      rcases canonical with ⟨target, accepted, isText⟩
      have isKey : (⟨table.name, target.toText⟩ : FlattenKey) = worker.key := by
        rw [steady.named worker.key.source table found, isText]
      have storeIsKeyed : ∀ kept, node.store.map KeyedStore.toTableStore = some kept →
          kept.IsKeyed := fun _ isStore => KeyedStore.isKeyed_of_map isStore
      rcases FlattenCache.serves_flatten steady.ageless steady.keyed storeIsKeyed now node.content
        table worker.key.flattenBy worker.request with ⟨answer, cache, left, isAnswer, serves⟩
      rcases node.cache.answers_flatten (node.store.map KeyedStore.toTableStore) now node.content
        table worker.key.flattenBy worker.request with
        ⟨_, _, _, isSameAnswer, sameSettings, answers⟩
      cases isAnswer.symm.trans isSameAnswer
      have same : node.IsSame { node with cache := cache, content := left } :=
        ⟨rfl, rfl, rfl, sameSettings⟩
      simp only [isAnswer]
      cases serves with
      | @refused cause after keepsLists sameCount notInLayouts =>
          have notListed : node.listed? worker.key = none := by
            cases isLoaded : table.isFlattened with
            | false =>
                exact listed?_eq_none found (isKey ▸ notInLayouts target isLoaded accepted)
            | true =>
                by_contra isListed
                rw [steady.loaded worker.key table found isListed] at isLoaded
                cases isLoaded
          exact ⟨_, cache, left, rfl, same, steady.of_keepsLists same keepsLists,
            .failed (not_canFlatten_of_refused found answers) notListed
              (listed?_of_keepsLists same keepsLists)⟩
      | @handedOut readAs handed pruned after readable keepsLists registered counted hasId hasKey
          hasRows isMemory =>
          cases accepted.symm.trans readable
          rw [isKey] at hasKey
          have canFlatten : node.store = none → node.CanFlatten worker.key := fun noStore =>
            steady.canFlatten_of_handedOut noStore found accepted isKey answers
          have lists := listed?_of_register steady same
            (hasKey.symm ▸ found : OrderedMap.find? handed.table.key.source node.tables = _)
            hasRows keepsLists registered
          have isLoaded : ∀ other,
              OrderedMap.find? handed.table.key.source node.tables = some other →
              other.isFlattened = false := by
            intro other isOther
            rw [hasKey, found] at isOther
            cases isOther
            exact answers.isLoaded
          have steadyAfter := steady.of_register same isLoaded (hasKey.symm ▸ canFlatten)
            keepsLists registered lists
          rw [hasKey, hasId] at lists
          refine ⟨.flattened worker.request, cache, left, by simp only [hasId], same, steadyAfter,
            ?_⟩
          exact .flattened canFlatten lists

end FlattenNode

end Unnest
