import Unnest.Proofs.NameRetention

/-!
# Which layouts are served from memory

A registry lists the flattenings of each source and field by the first rows they were made from,
the latest first, and at most one for each set of first rows.  Without a bound on the age, a call is
served from memory exactly if its first rows are among the last distinct ones that were flattened by
the same field, whatever else the cache was asked for: `CacheHistory.isServedFromMemory_iff`.
-/

namespace Unnest

/-! ## Distinct items -/

section Distinct

variable {α : Type} [BEq α] [LawfulBEq α]

theorem eraseDups_filter (keep : α → Bool) (items : List α) :
    (items.filter keep).eraseDups = items.eraseDups.filter keep := by
  induction isLength : items.length using Nat.strongRecOn generalizing items with
  | ind length inductionHypothesis =>
      cases items with
      | nil => rfl
      | cons first rest =>
          have others := inductionHypothesis (rest.filter fun item => !item == first).length
            (isLength ▸ Nat.lt_succ_of_le (List.length_filter_le _ _)) _ rfl
          rw [List.eraseDups_cons, List.filter_cons, List.filter_cons, ← others,
            List.filter_filter]
          split
          · rw [List.eraseDups_cons, List.filter_filter]
            simp only [Bool.and_comm]
          · rename_i isDropped
            congr 1
            apply List.filter_congr
            intro item _
            by_cases isFirst : item = first
            · simp [isFirst, isDropped]
            · simp [isFirst]

theorem nodup_eraseDups (items : List α) : items.eraseDups.Nodup := by
  induction isLength : items.length using Nat.strongRecOn generalizing items with
  | ind length inductionHypothesis =>
      cases items with
      | nil => exact List.nodup_nil
      | cons first rest =>
          rw [List.eraseDups_cons]
          refine List.nodup_cons.mpr ⟨by simp, ?_⟩
          exact inductionHypothesis _
            (isLength ▸ Nat.lt_succ_of_le (List.length_filter_le _ _)) _ rfl

theorem eraseDups_cons_eq (item : α) (items : List α) :
    (item :: items).eraseDups = item :: items.eraseDups.filter (· != item) := by
  rw [List.eraseDups_cons, eraseDups_filter]
  rfl

end Distinct

/-! ## Lists of recent tables -/

namespace Registry

/-- The first rows of the tables that are listed for a source and field. -/
def layouts (registry : Registry) (key : FlattenKey) : List FirstRows :=
  (registry.listOf key).map fun entry => entry.table.originalFirstRows

/-- Nothing is registered between two states of a registry, and nothing is dropped. -/
structure KeepsLists (before after : Registry) : Prop extends RegistersNothing before after where
  listBound : after.listBound = before.listBound
  lists : ∀ key, after.listOf key = before.listOf key

theorem KeepsLists.refl (registry : Registry) : registry.KeepsLists registry :=
  ⟨.refl registry, rfl, fun _ => rfl⟩

theorem recentTables_ageless {registry : Registry} (ageless : registry.ageBound = none) (now : Nat)
    (key : FlattenKey) :
    (registry.recentTables now key).1 = (registry.listOf key).map RegisteredTable.table ∧
      registry.KeepsLists (registry.recentTables now key).2 := by
  have registersNothing := (registry.recentTables_outcome now key).1
  have keepsAll : ∀ entries : List RegisteredTable,
      (entries.filter fun entry => !registry.isExpired now entry) = entries := by
    intro entries
    apply List.filter_eq_self.mpr
    intro entry _
    rw [isExpired, ageless]
    rfl
  rw [recentTables] at registersNothing ⊢
  cases found : OrderedMap.find? key registry.recent with
  | none =>
      have isEmpty : registry.listOf key = [] := by simp [listOf, found]
      exact ⟨by rw [isEmpty]; rfl, .refl registry⟩
  | some entries =>
      have isList : registry.listOf key = entries := by simp [listOf, found]
      simp only [found, keepsAll] at registersNothing ⊢
      refine ⟨by rw [isList], registersNothing, rfl, ?_⟩
      intro other
      rw [listOf_insert]
      by_cases same : other = key
      · rw [if_pos same, same, isList]
      · rw [if_neg same]

theorem listOf_register (registry : Registry) (now : Nat) (table : FlattenedTable)
    (key : FlattenKey) :
    (registry.register now table).listOf key =
      if key = table.key then
        listFirst ⟨table, now⟩ (registry.listOf table.key) registry.listBound
      else registry.listOf key :=
  listOf_insert registry table.key key _

theorem layouts_register (registry : Registry) (now : Nat) (table : FlattenedTable)
    (key : FlattenKey) :
    (registry.register now table).layouts key =
      if key = table.key then
        (table.originalFirstRows ::
          (registry.layouts key).filter (· != table.originalFirstRows)).take registry.listBound
      else registry.layouts key := by
  rw [layouts, listOf_register]
  by_cases same : key = table.key
  · rw [if_pos same, if_pos same, listFirst, List.map_take, List.map_cons, layouts, same,
      List.filter_map]
    rfl
  · rw [if_neg same, if_neg same, layouts]

end Registry

/-! ## Directories give what they are asked for -/

theorem Snapshot.key_of_restore {snapshot : Snapshot} {restored : FlattenedTable}
    (isRestored : snapshot.restore = .ok restored) :
    restored.key = ⟨snapshot.source, snapshot.flattenBy⟩ ∧
      restored.originalFirstRows = sortDistinct snapshot.originalFirstRows := by
  rw [restore] at isRestored
  split at isRestored
  · cases isRestored
  · cases isRestored
    exact ⟨rfl, rfl⟩

/-- A table that is read from a file is restored from a snapshot of the wanted one. -/
theorem StoredTable.exists_snapshot_of_read {path : String} {maxAgeMillis : Option Nat} {now : Nat}
    {source flattenBy : String} {firstRows : FirstRows} {content : Bytes} {found : FlattenedTable}
    (isRead : read path maxAgeMillis now source flattenBy firstRows content = .ok (some found)) :
    ∃ snapshot : Snapshot, snapshot.isOf source flattenBy firstRows = true ∧
      snapshot.restore = .ok found := by
  rw [read] at isRead
  cases isPayload : withoutHeader path content with
  | error cause => simp [isPayload] at isRead
  | ok payload =>
      cases isSnapshot : Snapshot.ofBytes payload with
      | error cause => simp [isPayload, isSnapshot] at isRead
      | ok snapshot =>
          simp only [isPayload, isSnapshot] at isRead
          cases isOf : snapshot.isOf source flattenBy firstRows with
          | false => simp [isOf] at isRead
          | true =>
              cases isOld : isTooOld maxAgeMillis now snapshot with
              | true => simp [isOf, isOld] at isRead
              | false =>
                  cases isRestored : snapshot.restore with
                  | error cause => simp [isOf, isOld, isRestored] at isRead
                  | ok restored =>
                      simp only [isOf, isOld, isRestored, Bool.not_true, Bool.false_eq_true,
                        if_false, Except.ok.injEq, Option.some.injEq] at isRead
                      exact ⟨snapshot, isOf, isRead ▸ isRestored⟩

/-- Whatever the files of a directory hold, a table that is found in them is the wanted one. -/
theorem DirectoryStore.isKeyed_toStore (store : DirectoryStore) : store.toStore.IsKeyed := by
  intro now directory source flattenBy firstRows found isSet isFound
  change store.load now directory source flattenBy firstRows = .ok (some found) at isFound
  simp only [load] at isFound
  split at isFound
  · cases isFound
  · cases isFound
  · obtain ⟨snapshot, isOf, isRestored⟩ := StoredTable.exists_snapshot_of_read isFound
    obtain ⟨sameKey, sameRows⟩ := Snapshot.key_of_restore isRestored
    simp only [Snapshot.isOf, Bool.and_eq_true, beq_iff_eq] at isOf
    obtain ⟨⟨rfl, rfl⟩, rfl⟩ := isOf
    exact ⟨congrArg FlattenKey.source sameKey, congrArg FlattenKey.flattenBy sameKey,
      sameRows.trans isSet⟩

/-- The directory as a store of what is asked for. -/
def DirectoryStore.toKeyedStore (store : DirectoryStore) : KeyedStore Directory where
  toTableStore := store.toStore
  isKeyed := store.isKeyed_toStore

/-! ## Calls without a bound on the age -/

namespace FlattenCache

variable {σ : Type}

/-- How many tables were handed out. -/
def served (cache : FlattenCache) : Nat :=
  cache.statistics.memoryHits + cache.statistics.diskHits + cache.statistics.computed

/-- What a call answers and leaves when no table expires, and whether it looked into the memory
only. -/
inductive Serves (cache : FlattenCache) (now : Nat) (table : Table) (flattenBy : String)
    (id : FlattenId) : Outcome HandedOut → FlattenCache → Prop where
  | refused {cause : Error} {after : FlattenCache}
      (keepsLists : cache.registry.KeepsLists after.registry)
      (sameCount : after.served = cache.served)
      (notListed : ∀ target, table.isFlattened = false → readTarget flattenBy = .ok target →
        table.firstRows ∉ cache.registry.layouts ⟨table.name, target.toText⟩) :
      Serves cache now table flattenBy id (.error cause) after
  | handedOut {target : FieldPath} {handed : HandedOut} {pruned : Registry} {after : FlattenCache}
      (accepted : readTarget flattenBy = .ok target)
      (keepsLists : cache.registry.KeepsLists pruned)
      (registered : after.registry = pruned.register now handed.table)
      (counted : after.served = cache.served + 1) (hasId : handed.table.id = id)
      (hasKey : handed.table.key = ⟨table.name, target.toText⟩)
      (hasRows : handed.table.originalFirstRows = table.firstRows)
      (isMemory : handed.source = .memory ↔
        table.firstRows ∈ cache.registry.layouts ⟨table.name, target.toText⟩) :
      Serves cache now table flattenBy id (.ok handed) after

theorem served_handOut (cache : FlattenCache) (now : Nat) (table : FlattenedTable)
    (source : CacheSource) : (cache.handOut now table source).2.served = cache.served + 1 := by
  cases source <;> simp only [handOut, served, CacheStatistics.countSource] <;> omega

theorem served_countFailure {α : Type} (cache : FlattenCache) (outcome : Outcome α) :
    { cache with statistics := cache.statistics.countFailure outcome }.served = cache.served := by
  cases outcome <;> rfl

theorem served_lookUp (store : Option (TableStore σ)) (now : Nat) (cache : FlattenCache)
    (content : σ) (key : FlattenKey) (firstRows : FirstRows) :
    (lookUp store now cache content key firstRows).2.served = cache.served := by
  cases store with
  | none => rfl
  | some kept =>
      have counted := served_countFailure cache
        (kept.load now content key.source key.flattenBy firstRows)
      simp only [lookUp]
      split <;> exact counted

theorem served_offer (store : Option (TableStore σ)) (now : Nat) (cache : FlattenCache)
    (content : σ) (table : FlattenedTable) :
    (offer store now cache content table).1.served = cache.served := by
  cases store with
  | none => rfl
  | some kept => exact served_countFailure cache _

theorem served_compute (store : Option (TableStore σ)) (now : Nat) (cache : FlattenCache)
    (content : σ) (table : Table) (flattenBy : String) (id : FlattenId) :
    (compute store now cache content table flattenBy id).2.1.served =
      cache.served +
        if (compute store now cache content table flattenBy id).1.isOk then 1 else 0 := by
  rw [compute]
  cases Flattening.flattenTable cache.settings table none flattenBy id with
  | error cause => rfl
  | ok fresh =>
      have counted := served_handOut (offer store now cache content fresh).1 now fresh .computed
      rw [served_offer] at counted
      exact counted

/-- The memory gives a table exactly if one is listed that was made from the first rows. -/
theorem findRecent_ageless {cache : FlattenCache} (ageless : cache.registry.ageBound = none)
    (now : Nat) (key : FlattenKey) (firstRows : FirstRows) :
    cache.registry.KeepsLists (cache.findRecent now key firstRows).2.registry ∧
      ((cache.findRecent now key firstRows).1.isSome = true ↔
        firstRows ∈ cache.registry.layouts key) := by
  obtain ⟨areListed, keepsLists⟩ := Registry.recentTables_ageless ageless now key
  refine ⟨keepsLists, ?_⟩
  simp only [findRecent, areListed, List.find?_isSome, Registry.layouts]
  constructor
  · rintro ⟨table, isTable, isValid⟩
    obtain ⟨entry, isListed, rfl⟩ := List.mem_map.mp isTable
    exact List.mem_map.mpr ⟨entry, isListed, beq_iff_eq.mp isValid⟩
  · intro isListed
    obtain ⟨entry, isEntry, sameRows⟩ := List.mem_map.mp isListed
    exact ⟨entry.table, List.mem_map_of_mem isEntry, beq_iff_eq.mpr sameRows⟩

/-- A call is refused or hands out a table of its own key; it is served from memory exactly if its
first rows are listed. -/
theorem serves_flatten {cache : FlattenCache} (ageless : cache.registry.ageBound = none)
    (keyed : ∀ key, ∀ entry ∈ cache.registry.listOf key, entry.table.key = key)
    {store : Option (TableStore σ)} (storeIsKeyed : ∀ kept, store = some kept → kept.IsKeyed)
    (now : Nat) (content : σ) (table : Table) (flattenBy : String) (id : FlattenId) :
    ∃ answer after left,
      cache.flatten store now content table flattenBy id = (answer, after, left) ∧
      cache.Serves now table flattenBy id answer after := by
  unfold flatten
  cases isLoaded : table.isFlattened with
  | true =>
      refine ⟨_, _, _, rfl, .refused (.refl cache.registry) rfl ?_⟩
      intro target notFlattened
      rw [isLoaded] at notFlattened
      cases notFlattened
  | false =>
      cases accepted : readTarget flattenBy with
      | error cause =>
          refine ⟨_, _, _, rfl, .refused (.refl cache.registry) rfl ?_⟩
          intro target _ isTarget
          rw [accepted] at isTarget
          cases isTarget
      | ok target =>
          let key : FlattenKey := ⟨table.name, target.toText⟩
          obtain ⟨keepsLists, isListed⟩ := findRecent_ageless ageless now key table.firstRows
          have fromList := (cache.findRecent_outcome now key table.firstRows).2.2
          have sameCount : (cache.findRecent now key table.firstRows).2.served = cache.served :=
            rfl
          rcases recent : cache.findRecent now key table.firstRows with ⟨hit, pruned⟩
          rw [recent] at keepsLists isListed fromList sameCount
          cases hit with
          | some hit =>
              obtain ⟨entry, isEntry, rfl, isValid⟩ := fromList hit rfl
              refine ⟨.ok ⟨entry.table.rebase id, .memory⟩,
                (pruned.handOut now (entry.table.rebase id) .memory).2, content, ?_, ?_⟩
              · simp only [key, recent, Bool.false_eq_true, if_false, handOut]
              · exact .handedOut accepted keepsLists rfl
                  ((served_handOut _ _ _ _).trans (congrArg (· + 1) sameCount)) rfl
                  (keyed key entry isEntry) (beq_iff_eq.mp isValid)
                  ⟨fun _ => isListed.mp rfl, fun _ => rfl⟩
          | none =>
              have notListed : table.firstRows ∉ cache.registry.layouts key := by
                intro listed
                cases isListed.mpr listed
              obtain ⟨_, sameRegistry, fromStore⟩ :=
                lookUp_outcome store now pruned content key table.firstRows
              have lookedUp := served_lookUp store now pruned content key table.firstRows
              rcases searched : lookUp store now pruned content key table.firstRows with
                ⟨hit, counted⟩
              rw [searched] at sameRegistry fromStore lookedUp
              rw [← sameRegistry] at keepsLists
              cases hit with
              | some hit =>
                  obtain ⟨kept, isStore, isKept⟩ := fromStore hit rfl
                  obtain ⟨hasKey, hasRows⟩ := (storeIsKeyed kept isStore).key_of_load isKept
                  refine ⟨.ok ⟨hit.rebase id, .disk⟩,
                    (counted.handOut now (hit.rebase id) .disk).2, content, ?_, ?_⟩
                  · simp only [key, recent, searched, Bool.false_eq_true, if_false, handOut]
                  · refine .handedOut accepted keepsLists rfl ?_ rfl hasKey hasRows ?_
                    · rw [served_handOut, lookedUp, sameCount]
                    · simp [notListed, key]
              | none =>
                  simp only [key, recent, searched, Bool.false_eq_true, if_false]
                  have computed := served_compute store now counted content table target.toText id
                  rcases compute_outcome store now counted content table target.toText id with
                    ⟨cause, fails, isRefused⟩ | ⟨fresh, after, left, succeeds, isComputed,
                      afterSettings, afterRegistry⟩
                  · rw [isRefused]
                    refine ⟨_, _, _, rfl, .refused keepsLists (lookedUp.trans sameCount) ?_⟩
                    intro other _ isTarget
                    rw [accepted] at isTarget
                    cases isTarget
                    exact notListed
                  · rw [isComputed] at computed ⊢
                    obtain ⟨_, other, isTarget, hasKey, hasId, hasRows, _⟩ :=
                      Flattening.flattenTable_eq_ok succeeds
                    rw [readTarget_toText accepted] at isTarget
                    cases isTarget
                    refine ⟨_, _, _, rfl, .handedOut accepted keepsLists afterRegistry ?_ hasId
                      hasKey hasRows ?_⟩
                    · exact computed.trans (by rw [lookedUp, sameCount]; rfl)
                    · simp [notListed, key]

/-- A table that was just registered is found again, by its source and by its name. -/
theorem validId?_of_register {cache : FlattenCache} {pruned : Registry} {made : Nat}
    {flattened : FlattenedTable} (registered : cache.registry = pruned.register made flattened)
    (ageless : pruned.ageBound = none) (positive : 1 ≤ pruned.listBound) {table : Table}
    {flattenBy : String} {target : FieldPath} (accepted : readTarget flattenBy = .ok target)
    (hasKey : flattened.key = ⟨table.name, target.toText⟩)
    (hasRows : flattened.originalFirstRows = table.firstRows) (now : Nat) :
    (cache.validId? now table flattenBy).1 = some flattened.id := by
  obtain ⟨bound, isBound⟩ := Nat.exists_eq_add_of_le' positive
  have cacheAgeless : cache.registry.ageBound = none := by
    rw [registered]
    exact ageless
  have isFirst : ∃ others, cache.registry.listOf ⟨table.name, target.toText⟩ =
      ⟨flattened, made⟩ :: others := by
    rw [registered, Registry.listOf_register, if_pos hasKey.symm, Registry.listFirst, isBound,
      List.take_succ_cons]
    exact ⟨_, rfl⟩
  obtain ⟨others, isList⟩ := isFirst
  have areListed := (Registry.recentTables_ageless cacheAgeless now
    ⟨table.name, target.toText⟩).1
  have isValid : flattened.isValidFor table.firstRows = true := beq_iff_eq.mpr hasRows
  simp only [validId?, accepted, findRecent, areListed, isList, List.map_cons, List.find?_cons,
    isValid, Option.map_some]

end FlattenCache

/-! ## Calls one after the other -/

namespace CacheCall

variable {σ : Type}

/-- The name of the table and the field, if it is one. -/
def key? (call : CacheCall σ) : Option FlattenKey :=
  (readTarget call.flattenBy).toOption.map fun target => ⟨call.table.name, target.toText⟩

def succeeds (call : CacheCall σ) (cache : FlattenCache) : Bool :=
  (call.answer cache).1.isOk

def StoreIsKeyed (call : CacheCall σ) : Prop :=
  ∀ store, call.store = some store → store.IsKeyed

end CacheCall

namespace CacheHistory

variable {σ : Type} {bounds : CacheSettings}

/-- The calls that are not refused, the latest first. -/
def successes (history : CacheHistory) : List (CacheCall σ) → List (CacheCall σ)
  | [] => []
  | call :: later =>
      (history.after call).successes later ++ if call.succeeds history.cache then [call] else []

theorem successes_append_singleton (history : CacheHistory) (made : List (CacheCall σ))
    (call : CacheCall σ) :
    history.successes (made ++ [call]) =
      (if call.succeeds (history.run made).cache then [call] else []) ++
        history.successes made := by
  induction made generalizing history with
  | nil =>
      rw [successes, List.append_nil]
      rfl
  | cons first later inductionHypothesis =>
      rw [List.cons_append, successes, inductionHypothesis, List.append_assoc]
      rfl

/-- The first rows for which a source was flattened by a field, the latest first; each set of them
stands where it was flattened last. -/
def flattenedLayouts (calls : List (CacheCall σ)) (key : FlattenKey) : List FirstRows :=
  ((calls.filter fun call => call.key? == some key).map fun call => call.table.firstRows).eraseDups

theorem nodup_flattenedLayouts (calls : List (CacheCall σ)) (key : FlattenKey) :
    (flattenedLayouts calls key).Nodup :=
  nodup_eraseDups _

theorem flattenedLayouts_cons (call : CacheCall σ) (calls : List (CacheCall σ))
    (key : FlattenKey) :
    flattenedLayouts (call :: calls) key =
      if call.key? = some key then
        call.table.firstRows ::
          (flattenedLayouts calls key).filter (· != call.table.firstRows)
      else flattenedLayouts calls key := by
  by_cases same : call.key? = some key
  · have isKept : (call.key? == some key) = true := beq_iff_eq.mpr same
    rw [if_pos same, flattenedLayouts, List.filter_cons, if_pos isKept, List.map_cons,
      eraseDups_cons_eq]
    rfl
  · have isDropped : ¬ (call.key? == some key) = true := fun isKept => same (beq_iff_eq.mp isKept)
    rw [if_neg same, flattenedLayouts, List.filter_cons, if_neg isDropped]
    rfl

/-- The registry lists the last layouts that were flattened, and every success was counted. -/
structure HoldsLayouts (bounds : CacheSettings) (history : CacheHistory)
    (flattened : List (CacheCall σ)) : Prop where
  ageless : history.cache.registry.ageBound = none
  listBound : history.cache.registry.listBound = max bounds.instancesPerKey 1
  layouts : ∀ key, history.cache.registry.layouts key =
    (flattenedLayouts flattened key).take (max bounds.instancesPerKey 1)
  served : history.cache.served = flattened.length

/-- What a call flattens moves to the front of the layouts of its key. -/
theorem HoldsLayouts.after {history : CacheHistory} {flattened : List (CacheCall σ)}
    (holds : history.HoldsLayouts bounds flattened) {call : CacheCall σ}
    {answer : Outcome HandedOut} {cache : FlattenCache} {left : σ}
    (isAnswer : call.answer history.cache = (answer, cache, left))
    (serves : history.cache.Serves call.now call.table call.flattenBy call.id answer cache) :
    (history.after call).HoldsLayouts bounds
      ((if call.succeeds history.cache then [call] else []) ++ flattened) := by
  have isCache : (history.after call).cache = cache :=
    (after_cache history call).trans (congrArg (fun result => result.2.1) isAnswer)
  have isSuccess : call.succeeds history.cache = answer.isOk :=
    congrArg (fun result => result.1.isOk) isAnswer
  rw [isSuccess]
  cases serves with
  | refused keepsLists sameCount notListed =>
      refine ⟨?_, ?_, ?_, ?_⟩
      · rw [isCache]
        exact keepsLists.ageBound.trans holds.ageless
      · rw [isCache]
        exact keepsLists.listBound.trans holds.listBound
      · intro key
        rw [isCache, Registry.layouts, keepsLists.lists]
        exact holds.layouts key
      · rw [isCache, sameCount]
        exact holds.served
  | @handedOut target handed pruned after accepted keepsLists registered counted hasId hasKey
      hasRows isMemory =>
      have isKey : call.key? = some handed.table.key := by
        rw [CacheCall.key?, accepted, hasKey]
        rfl
      have prunedBound : pruned.listBound = max bounds.instancesPerKey 1 :=
        keepsLists.listBound.trans holds.listBound
      refine ⟨?_, ?_, ?_, ?_⟩
      · rw [isCache, registered]
        exact keepsLists.ageBound.trans holds.ageless
      · rw [isCache, registered]
        exact prunedBound
      · intro key
        have before : pruned.layouts key =
            (flattenedLayouts flattened key).take (max bounds.instancesPerKey 1) := by
          rw [Registry.layouts, keepsLists.lists]
          exact holds.layouts key
        obtain ⟨bound, isBound⟩ :=
          Nat.exists_eq_add_of_le' (Nat.le_max_right bounds.instancesPerKey 1)
        have isLatest : (if Except.isOk (.ok handed : Outcome HandedOut) then [call] else []) ++
            flattened = call :: flattened := rfl
        rw [isCache, registered, Registry.layouts_register, prunedBound, before, isLatest,
          flattenedLayouts_cons]
        by_cases same : key = handed.table.key
        · have sameKey : call.key? = some key := by rw [isKey, same]
          rw [if_pos same, if_pos sameKey, hasRows, isBound, List.take_succ_cons,
            List.take_succ_cons, Registry.take_filter_ne (nodup_flattenedLayouts flattened key)]
        · have otherKey : call.key? ≠ some key := by
            rw [isKey]
            exact fun isSame => same (Option.some.inj isSame).symm
          rw [if_neg same, if_neg otherKey]
      · rw [isCache, counted, holds.served]
        rfl

section Ageless

variable (settings : FlattenSettings) (ageless : bounds.memoryBound = none)

include ageless

theorem exists_serves (calls : List (CacheCall σ)) {call : CacheCall σ}
    (storeIsKeyed : call.StoreIsKeyed) :
    ∃ answer cache left,
      call.answer ((new settings bounds).run calls).cache = (answer, cache, left) ∧
      ((new settings bounds).run calls).cache.Serves call.now call.table call.flattenBy call.id
        answer cache := by
  have holds := (holdsTables_run settings bounds calls).1
  exact FlattenCache.serves_flatten (holds.ageBound.trans ageless)
    (fun key entry isListed => (holds.listed key entry isListed).2) storeIsKeyed call.now
    call.content call.table call.flattenBy call.id

theorem holdsLayouts_run {calls : List (CacheCall σ)}
    (keyed : ∀ call ∈ calls, call.StoreIsKeyed) :
    ((new settings bounds).run calls).HoldsLayouts bounds
      ((new settings bounds).successes calls) := by
  induction calls using List.reverseRecOn with
  | nil => exact ⟨ageless, rfl, fun _ => List.take_nil.symm, rfl⟩
  | append_singleton made call inductionHypothesis =>
      have before := inductionHypothesis fun earlier isMade =>
        keyed earlier (List.mem_append_left _ isMade)
      obtain ⟨answer, cache, left, isAnswer, serves⟩ :=
        exists_serves settings ageless made (keyed call (by simp))
      rw [run_append_singleton, successes_append_singleton]
      exact before.after isAnswer serves

/-- What a call hands out is found by its name right after it. -/
theorem flattened?_of_handsOut? (calls : List (CacheCall σ)) {call : CacheCall σ}
    {table : FlattenedTable}
    (handsOut : call.handsOut? ((new settings bounds).run calls).cache = some table) (now : Nat) :
    ((((new settings bounds).run calls).after call).cache.flattened? now call.id).1 =
      some table := by
  have holds := (holdsTables_run settings bounds (calls ++ [call])).1
  have hasId := ((holdsTables_run settings bounds calls).1.after call).2 table handsOut
  rw [run_append_singleton, handedOut_append_singleton, handsOut, Option.toList_some,
    List.singleton_append] at holds
  have resolved := holds.names.get_eq (holds.ageBound.trans ageless) now call.id
  obtain ⟨bound, isBound⟩ := Nat.exists_eq_add_of_le' (Nat.le_max_right bounds.maxFlattenIds 1)
  rw [holds.nameBound, isBound, Registry.latestNames, List.take_succ_cons, hasId,
    if_pos List.mem_cons_self, List.find?_cons_of_pos (by simp [hasId])] at resolved
  exact resolved

/-- If no table expires, a call with a field of a loaded table is served from memory exactly if the
table's first rows are among the latest distinct ones, as many as the bound says, for which a call
flattened a table of this name by this field.  Every call that is not refused is counted once, and
right after it its table is the valid one for the field and is found by its name. -/
theorem isServedFromMemory_iff {calls : List (CacheCall σ)}
    (keyed : ∀ call ∈ calls, call.StoreIsKeyed) :
    (∀ made call later, calls = made ++ call :: later →
      (∀ target, call.table.isFlattened = false → readTarget call.flattenBy = .ok target →
        ((∃ handed, (call.answer ((new settings bounds).run made).cache).1 = .ok handed ∧
            handed.source = .memory) ↔
          call.table.firstRows ∈
            (flattenedLayouts ((new settings bounds).successes made)
              ⟨call.table.name, target.toText⟩).take (max bounds.instancesPerKey 1))) ∧
      ∀ handed, (call.answer ((new settings bounds).run made).cache).1 = .ok handed → ∀ now,
        ((((new settings bounds).run made).after call).cache.validId? now call.table
          call.flattenBy).1 = some call.id ∧
        handed.table.id = call.id ∧
        ((((new settings bounds).run made).after call).cache.flattened? now call.id).1 =
          some handed.table) ∧
    ((new settings bounds).run calls).cache.statistics.memoryHits +
        ((new settings bounds).run calls).cache.statistics.diskHits +
        ((new settings bounds).run calls).cache.statistics.computed =
      ((new settings bounds).successes calls).length := by
  refine ⟨?_, (holdsLayouts_run settings ageless keyed).served⟩
  rintro made call later rfl
  have holds := holdsLayouts_run settings ageless fun earlier isMade =>
    keyed earlier (List.mem_append_left _ isMade)
  obtain ⟨answer, cache, left, isAnswer, serves⟩ :=
    exists_serves settings ageless made (keyed call (by simp))
  have isCache : (((new settings bounds).run made).after call).cache = cache :=
    (after_cache _ call).trans (congrArg (fun result => result.2.1) isAnswer)
  have sameAnswer : (call.answer ((new settings bounds).run made).cache).1 = answer :=
    congrArg (fun result => result.1) isAnswer
  cases serves with
  | refused keepsLists sameCount notListed =>
      rw [sameAnswer]
      refine ⟨?_, fun _ isOk => nomatch isOk⟩
      intro target isLoaded accepted
      rw [← holds.layouts]
      constructor
      · rintro ⟨handed, isOk, _⟩
        cases isOk
      · intro isListed
        exact absurd isListed (notListed target isLoaded accepted)
  | @handedOut target handed pruned after accepted keepsLists registered counted hasId hasKey
      hasRows isMemory =>
      have prunedAgeless : pruned.ageBound = none := keepsLists.ageBound.trans holds.ageless
      have prunedPositive : 1 ≤ pruned.listBound := by
        rw [keepsLists.listBound, holds.listBound]
        exact Nat.le_max_right _ _
      refine ⟨?_, ?_⟩
      · intro other _ isTarget
        rw [accepted] at isTarget
        cases isTarget
        rw [sameAnswer, ← holds.layouts, ← isMemory]
        constructor
        · rintro ⟨_, isOk, fromMemory⟩
          cases isOk
          exact fromMemory
        · intro fromMemory
          exact ⟨handed, rfl, fromMemory⟩
      · intro other isOk now
        rw [sameAnswer] at isOk
        cases isOk
        refine ⟨?_, hasId, ?_⟩
        · rw [isCache, ← hasId]
          exact FlattenCache.validId?_of_register registered prunedAgeless prunedPositive accepted
            hasKey hasRows now
        · have handsOut : call.handsOut? ((new settings bounds).run made).cache =
              some handed.table := by
            rw [CacheCall.handsOut?, sameAnswer]
            rfl
          exact flattened?_of_handsOut? settings ageless made handsOut now

end Ageless

/-- The flattenings of two layouts by one array, and between them one by the other array. -/
def pairedCalls : List (CacheCall Unit) :=
  [pairedCall "a[*]" 1, pairedCall "b[*]" 2,
    { pairedCall "a[*]" 3 with table :=
      { pairedTable with shards := pairedTable.shards.map fun shard => shard.startingAt 5 } }]

theorem isServedFromMemory_iff_pairedCalls :
    ∃ handed,
      ((pairedCall "a[*]" 4).answer
        ((new {} { instancesPerKey := 2, memorySeconds := 0 }).run pairedCalls).cache).1 =
          .ok handed ∧
      handed.source = .memory ∧ handed.table.id = Identifier.ofNat 4 ∧
      ((new {} { instancesPerKey := 2, memorySeconds := 0 }).run
        (pairedCalls ++ [pairedCall "a[*]" 4])).cache.served = 4 := by
  have keyed : ∀ call ∈ pairedCalls ++ [pairedCall "a[*]" 4], call.StoreIsKeyed := by
    intro call isCall store isStore
    simp only [pairedCalls, List.cons_append, List.nil_append, List.mem_cons, List.not_mem_nil,
      or_false] at isCall
    rcases isCall with rfl | rfl | rfl | rfl <;> cases isStore
  obtain ⟨served, counted⟩ :=
    @isServedFromMemory_iff Unit { instancesPerKey := 2, memorySeconds := 0 } {} rfl _ keyed
  obtain ⟨fromMemory, handsOut⟩ := served pairedCalls (pairedCall "a[*]" 4) [] rfl
  have isTarget : readTarget "a[*]" = .ok [⟨"a", .all⟩] := by decide +kernel
  obtain ⟨handed, isOk, isMemory⟩ := (fromMemory _ rfl isTarget).mpr (by decide +kernel)
  refine ⟨handed, isOk, isMemory, (handsOut handed isOk 0).2.1, counted.trans ?_⟩
  decide +kernel

end CacheHistory

end Unnest
