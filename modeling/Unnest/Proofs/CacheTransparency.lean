import Mathlib.Data.List.Induction
import Unnest.Proofs.CacheAnswers
import Unnest.Proofs.ShardFlattening

/-!
# Caches do not show

A flattening that is taken from a cache cannot be told from a fresh one, apart from the time it
takes.  The store may change in any way from call to call, as long as it only returns what was last
offered to it for exactly what it is asked for.  The main statement is
`CacheHistory.answer_eq_fresh`; it rests on `CacheHistory.IsTrue`, which a call keeps: every listed
and every offered table shows what flattening one of the known tables gives.
-/

namespace Unnest

/-! ## Calls -/

/-- A call of a cache, with the store as it is at that time. -/
structure CacheCall (σ : Type) where
  store : Option (TableStore σ)
  content : σ
  now : Nat
  table : Table
  flattenBy : String
  id : FlattenId

/-- A cache, and the tables that it has offered to the store so far, the latest first. -/
structure CacheHistory where
  cache : FlattenCache
  offered : List FlattenedTable := []

/-- What was last offered for a source, a field and first rows. -/
def lastOffered? (offered : List FlattenedTable) (source flattenBy : String)
    (firstRows : FirstRows) : Option FlattenedTable :=
  offered.find? fun table =>
    table.source == source && table.flattenBy == flattenBy && table.originalFirstRows == firstRows

namespace CacheCall

variable {σ : Type}

/-- The answer to a call, with the cache and the store after it. -/
def answer (call : CacheCall σ) (cache : FlattenCache) : Outcome HandedOut × FlattenCache × σ :=
  cache.flatten call.store call.now call.content call.table call.flattenBy call.id

/-- The store fails, finds nothing, or returns what was last offered for exactly what it is asked
for, though it may have encoded it anew. -/
def StoreIsFaithful (call : CacheCall σ) (offered : List FlattenedTable) : Prop :=
  ∀ store, call.store = some store → ∀ source flattenBy firstRows found,
    store.load call.now call.content source flattenBy firstRows = .ok (some found) →
    ∃ kept, lastOffered? offered source flattenBy firstRows = some kept ∧ found.ShowsSameAs kept

end CacheCall

namespace CacheHistory

variable {σ : Type}

/-- A new cache with its bounds. -/
def new (settings : FlattenSettings) (bounds : CacheSettings) : CacheHistory where
  cache := FlattenCache.ofSettings settings bounds

/-- The history after a call.  What is computed is offered to the store. -/
def after (history : CacheHistory) (call : CacheCall σ) : CacheHistory :=
  let (answer, cache, _) := call.answer history.cache
  { cache := cache
    offered :=
      match call.store, answer with
      | some _, .ok ⟨table, .computed⟩ => table :: history.offered
      | _, _ => history.offered }

/-- The history after calls that are made one after the other. -/
def run (history : CacheHistory) (calls : List (CacheCall σ)) : CacheHistory :=
  calls.foldl after history

theorem after_cache (history : CacheHistory) (call : CacheCall σ) :
    (history.after call).cache = (call.answer history.cache).2.1 := rfl

theorem run_append_singleton (history : CacheHistory) (made : List (CacheCall σ))
    (call : CacheCall σ) : history.run (made ++ [call]) = (history.run made).after call :=
  List.foldl_concat after history call made

end CacheHistory

/-! ## Tables that could have been computed just now -/

/-- Tables with the same name and the same first rows have the same shards. -/
def Agree (first second : Table) : Prop :=
  first.name = second.name → first.firstRows = second.firstRows → first.shards = second.shards

/-- The flattened table shows what flattening a table anew gives. -/
def IsFlatteningOf (settings : FlattenSettings) (table : Table) (flattened : FlattenedTable) :
    Prop :=
  ∃ fresh, Flattening.flattenTable settings table none flattened.flattenBy flattened.id =
    .ok fresh ∧ flattened.ShowsSameAs fresh

namespace IsFlatteningOf

variable {settings : FlattenSettings} {table : Table} {flattenBy : String}

/-- What is computed is a flattening, under the canonical text of its field. -/
theorem of_flattenTable {id : FlattenId} {fresh : FlattenedTable}
    (succeeds : Flattening.flattenTable settings table none flattenBy id = .ok fresh) :
    IsFlatteningOf settings table fresh := by
  obtain ⟨_, target, accepted, sameKey, sameId, _⟩ := Flattening.flattenTable_eq_ok succeeds
  have sameField : fresh.flattenBy = target.toText := congrArg FlattenKey.flattenBy sameKey
  refine ⟨fresh, ?_, FlattenedTable.ShowsSameAs.refl fresh⟩
  rw [sameField, sameId, Flattening.flattenTable_toText settings table accepted id]
  exact succeeds

/-- A flattening of one table fits every table with its name and its first rows, under any name. -/
theorem rebase {first : Table} {hit : FlattenedTable} {target : FieldPath}
    (isFlattening : IsFlatteningOf settings first hit) (agree : Agree first table)
    (isLoaded : table.isFlattened = false) (sameKey : hit.key = ⟨table.name, target.toText⟩)
    (sameRows : hit.originalFirstRows = table.firstRows) (id : FlattenId) :
    IsFlatteningOf settings table (hit.rebase id) := by
  obtain ⟨made, succeeds, shows⟩ := isFlattening
  obtain ⟨_, _, _, madeKey, _, madeRows, madeOrdered⟩ := Flattening.flattenTable_eq_ok succeeds
  have sameName : first.name = table.name := by
    have ofMade : made.source = first.name := congrArg FlattenKey.source madeKey
    have ofHit : hit.source = table.name := congrArg FlattenKey.source sameKey
    rw [← ofMade, ← shows.source, ofHit]
  have sameFirstRows : first.firstRows = table.firstRows := by
    rw [← madeRows, ← shows.originalFirstRows, sameRows]
  have sameShards : first.shards = table.shards := agree sameName sameFirstRows
  have again := Flattening.flattenTable_congr isLoaded sameName sameShards succeeds id
  have hitOrdered : hit.IsInRowOrder := shows.isInRowOrder madeOrdered
  have rebased := FlattenedTable.rebase_showsSameAs hitOrdered id
  have renamed : made.ShowsSameAs { made with id := id } := ⟨rfl, rfl, rfl, rfl, rfl, rfl⟩
  exact ⟨{ made with id := id }, again, (rebased.trans shows).trans renamed⟩

/-- A table that shows the same as a flattening under the same name is a flattening. -/
theorem of_showsSameAs {kept found : FlattenedTable}
    (isFlattening : IsFlatteningOf settings table kept) (shows : found.ShowsSameAs kept) :
    IsFlatteningOf settings table found := by
  obtain ⟨fresh, succeeds, keptShows⟩ := isFlattening
  obtain ⟨isLoaded, _⟩ := Flattening.flattenTable_eq_ok succeeds
  have again := Flattening.flattenTable_congr isLoaded rfl rfl succeeds found.id
  have renamed : fresh.ShowsSameAs { fresh with id := found.id } := ⟨rfl, rfl, rfl, rfl, rfl, rfl⟩
  refine ⟨{ fresh with id := found.id }, ?_, (shows.trans keptShows).trans renamed⟩
  rw [shows.flattenBy]
  exact again

end IsFlatteningOf

/-! ## What a cache knows -/

namespace CacheHistory

variable {σ : Type} {settings : FlattenSettings} {known : Table → Prop}

/-- Everything that is listed or was offered shows what flattening a known table gives. -/
structure IsTrue (settings : FlattenSettings) (known : Table → Prop) (history : CacheHistory) :
    Prop where
  sameSettings : history.cache.settings = settings
  listed : ∀ key, ∀ entry ∈ history.cache.registry.listOf key,
    entry.table.key = key ∧ ∃ table, known table ∧ IsFlatteningOf settings table entry.table
  offered : ∀ kept ∈ history.offered,
    ∃ table, known table ∧ IsFlatteningOf settings table kept

theorem isTrue_new (bounds : CacheSettings) : (new settings bounds).IsTrue settings known where
  sameSettings := rfl
  listed := by
    intro key entry isListed
    cases isListed
  offered := by
    intro kept isOffered
    cases isOffered

/-- What is remembered for the key and the first rows of a table is a flattening of it. -/
theorem IsTrue.remembered {history : CacheHistory} (isTrue : history.IsTrue settings known)
    {call : CacheCall σ} (agree : ∀ other, known other → Agree other call.table)
    (faithful : call.StoreIsFaithful history.offered)
    (isLoaded : call.table.isFlattened = false) {target : FieldPath} {hit : FlattenedTable}
    {source : CacheSource}
    (remembers : FlattenCache.Remembers call.store call.now history.cache call.content
      ⟨call.table.name, target.toText⟩ call.table.firstRows hit source) :
    hit.key = ⟨call.table.name, target.toText⟩ ∧
      hit.originalFirstRows = call.table.firstRows ∧
      IsFlatteningOf settings call.table (hit.rebase call.id) := by
  obtain ⟨sameKey, sameRows, other, isKnown, isFlattening⟩ :
      hit.key = ⟨call.table.name, target.toText⟩ ∧
        hit.originalFirstRows = call.table.firstRows ∧
        ∃ other, known other ∧ IsFlatteningOf settings other hit := by
    cases remembers with
    | inMemory isListed isValid =>
        obtain ⟨sameKey, isFlattening⟩ := isTrue.listed _ _ isListed
        exact ⟨sameKey, beq_iff_eq.mp isValid, isFlattening⟩
    | inStore isStore isFound =>
        obtain ⟨kept, isLast, shows⟩ := faithful _ isStore _ _ _ _ isFound
        have isOffered : kept ∈ history.offered := List.mem_of_find?_eq_some isLast
        have asked := List.find?_some isLast
        simp only [Bool.and_eq_true, beq_iff_eq] at asked
        obtain ⟨⟨sameSource, sameField⟩, sameRows⟩ := asked
        obtain ⟨other, isKnown, isFlattening⟩ := isTrue.offered kept isOffered
        refine ⟨?_, shows.originalFirstRows.trans sameRows, other, isKnown,
          isFlattening.of_showsSameAs shows⟩
        rw [FlattenedTable.key, shows.source, shows.flattenBy, sameSource, sameField]
  exact ⟨sameKey, sameRows,
    isFlattening.rebase (agree other isKnown) isLoaded sameKey sameRows call.id⟩

/-- Registering a flattening of a known table keeps what the lists say. -/
theorem IsTrue.register {history : CacheHistory} (isTrue : history.IsTrue settings known)
    {registry : Registry} (registersNothing : history.cache.registry.RegistersNothing registry)
    {table : Table} (isKnown : known table) {flattened : FlattenedTable}
    (isFlattening : IsFlatteningOf settings table flattened) (now : Nat) (key : FlattenKey) :
    ∀ entry ∈ (registry.register now flattened).listOf key,
      entry.table.key = key ∧ ∃ table, known table ∧ IsFlatteningOf settings table entry.table := by
  intro entry isListed
  rcases Registry.mem_listOf_register isListed with ⟨isNew, sameKey⟩ | wasListed
  · rw [isNew]
    exact ⟨sameKey.symm, table, isKnown, isFlattening⟩
  · exact isTrue.listed key entry ((registersNothing.shorter key).subset wasListed)

/-- A table is offered when it was offered before or has just been computed. -/
theorem mem_offered_after {history : CacheHistory} {call : CacheCall σ} {kept : FlattenedTable}
    (isOffered : kept ∈ (history.after call).offered) :
    kept ∈ history.offered ∨ (call.answer history.cache).1 = .ok ⟨kept, .computed⟩ := by
  unfold after at isOffered
  cases isStore : call.store with
  | none =>
      simp only [isStore] at isOffered
      exact Or.inl isOffered
  | some store =>
      simp only [isStore] at isOffered
      rcases isAnswer : (call.answer history.cache).1 with cause | ⟨table, source⟩
      · simp only [isAnswer] at isOffered
        exact Or.inl isOffered
      · cases source with
        | memory =>
            simp only [isAnswer] at isOffered
            exact Or.inl isOffered
        | disk =>
            simp only [isAnswer] at isOffered
            exact Or.inl isOffered
        | computed =>
            simp only [isAnswer] at isOffered
            rcases List.mem_cons.mp isOffered with isNew | wasOffered
            · exact Or.inr (by rw [isNew])
            · exact Or.inl wasOffered

/-! ## Answers -/

/-- The answer is that of a fresh flattening, under the name and with the first rows of the call.  A
call that fails registers nothing. -/
def AnswersFresh (settings : FlattenSettings) (call : CacheCall σ) (before : Registry)
    (answer : Outcome HandedOut) (registry : Registry) (left : σ) : Prop :=
  (∃ fresh handed source,
    Flattening.flattenTable settings call.table none call.flattenBy call.id = .ok fresh ∧
    answer = .ok ⟨handed, source⟩ ∧
    handed.id = call.id ∧
    handed.originalFirstRows = call.table.firstRows ∧
    handed.ShowsSameAs fresh) ∨
  ∃ cause,
    Flattening.flattenTable settings call.table none call.flattenBy call.id = .error cause ∧
    answer = .error cause ∧
    before.RegistersNothing registry ∧
    left = call.content

/-- Whichever way the cache comes to its answer, the answer is fresh, and the lists stay true. -/
theorem IsTrue.answered {history : CacheHistory} (isTrue : history.IsTrue settings known)
    {call : CacheCall σ} (isKnown : known call.table)
    (agree : ∀ other, known other → Agree other call.table)
    (faithful : call.StoreIsFaithful history.offered) {answer : Outcome HandedOut}
    {registry : Registry} {left : σ}
    (answers : FlattenCache.Answers call.store call.now history.cache call.content call.table
      call.flattenBy call.id answer registry left) :
    AnswersFresh settings call history.cache.registry answer registry left ∧
      (∀ key, ∀ entry ∈ registry.listOf key, entry.table.key = key ∧
        ∃ table, known table ∧ IsFlatteningOf settings table entry.table) ∧
      ∀ table, answer = .ok ⟨table, .computed⟩ → IsFlatteningOf settings call.table table := by
  cases answers with
  | refused fails registersNothing =>
      rw [isTrue.sameSettings] at fails
      refine ⟨Or.inr ⟨_, fails, rfl, registersNothing, rfl⟩, ?_, ?_⟩
      · intro key entry isListed
        exact isTrue.listed key entry ((registersNothing.shorter key).subset isListed)
      · intro table isOk
        cases isOk
  | @recalled target hit source _ isLoaded accepted remembers registersNothing =>
      obtain ⟨sameKey, sameRows, isFlattening⟩ :=
        isTrue.remembered agree faithful isLoaded remembers
      have sameField : (hit.rebase call.id).flattenBy = target.toText :=
        congrArg FlattenKey.flattenBy sameKey
      refine ⟨Or.inl ?_, isTrue.register registersNothing isKnown isFlattening call.now, ?_⟩
      · obtain ⟨fresh, succeeds, shows⟩ := isFlattening
        rw [sameField, FlattenedTable.rebase_id,
          Flattening.flattenTable_toText settings call.table accepted] at succeeds
        exact ⟨fresh, hit.rebase call.id, source, succeeds, rfl, rfl, sameRows, shows⟩
      · intro table isOk
        cases isOk
        exact isFlattening
  | @computed fresh _ _ succeeds registersNothing =>
      rw [isTrue.sameSettings] at succeeds
      have isFlattening := IsFlatteningOf.of_flattenTable succeeds
      obtain ⟨_, _, _, _, sameId, sameRows, _⟩ := Flattening.flattenTable_eq_ok succeeds
      have shows := FlattenedTable.ShowsSameAs.refl fresh
      refine ⟨Or.inl ⟨fresh, fresh, .computed, succeeds, rfl, sameId, sameRows, shows⟩,
        isTrue.register registersNothing isKnown isFlattening call.now, ?_⟩
      intro table isOk
      cases isOk
      exact isFlattening

/-- One call is answered as if it were the first one, and the cache still knows only what is
true. -/
theorem IsTrue.after {history : CacheHistory} (isTrue : history.IsTrue settings known)
    {call : CacheCall σ} (isKnown : known call.table)
    (agree : ∀ other, known other → Agree other call.table)
    (faithful : call.StoreIsFaithful history.offered) :
    (∃ answer cache left, call.answer history.cache = (answer, cache, left) ∧
      AnswersFresh settings call history.cache.registry answer cache.registry left) ∧
    (history.after call).IsTrue settings known := by
  obtain ⟨answer, cache, left, isAnswer, sameSettings, answers⟩ :=
    history.cache.answers_flatten call.store call.now call.content call.table call.flattenBy call.id
  have answered : call.answer history.cache = (answer, cache, left) := isAnswer
  have answeredCache : (history.after call).cache = cache := by
    rw [after_cache, answered]
  obtain ⟨isFresh, listed, computed⟩ := isTrue.answered isKnown agree faithful answers
  refine ⟨⟨answer, cache, left, answered, isFresh⟩, ?_, ?_, ?_⟩
  · rw [answeredCache]
    exact sameSettings.trans isTrue.sameSettings
  · rw [answeredCache]
    exact listed
  · intro kept isOffered
    rcases mem_offered_after isOffered with wasOffered | isComputed
    · exact isTrue.offered kept wasOffered
    · rw [answered] at isComputed
      exact ⟨call.table, isKnown, computed kept isComputed⟩

/-- Calls that are made one after the other leave a cache that knows only what is true. -/
theorem isTrue_run (bounds : CacheSettings) {calls : List (CacheCall σ)}
    (known_of_mem : ∀ call ∈ calls, known call.table)
    (agree : ∀ call ∈ calls, ∀ other, known other → Agree other call.table)
    (faithful : ∀ made call later, calls = made ++ call :: later →
      call.StoreIsFaithful ((new settings bounds).run made).offered) :
    ((new settings bounds).run calls).IsTrue settings known := by
  induction calls using List.reverseRecOn with
  | nil => exact isTrue_new bounds
  | append_singleton made last inductionHypothesis =>
      have lastMem : last ∈ made ++ [last] := List.mem_append_right made List.mem_cons_self
      have before : ((new settings bounds).run made).IsTrue settings known := by
        apply inductionHypothesis
        · intro call isMade
          exact known_of_mem call (List.mem_append_left [last] isMade)
        · intro call isMade
          exact agree call (List.mem_append_left [last] isMade)
        · intro earlier call later isSplit
          apply faithful earlier call (later ++ [last])
          rw [isSplit, List.append_assoc, List.cons_append]
      rw [run_append_singleton]
      exact (before.after (known_of_mem last lastMem) (agree last lastMem)
        (faithful made last [] rfl)).2

/-- Whatever was computed, kept, lost or dropped before, a call is answered as if it were the first
one, as long as tables with the same name and first rows agree and no store makes things up. -/
theorem answer_eq_fresh (settings : FlattenSettings) (bounds : CacheSettings)
    {calls : List (CacheCall σ)}
    (agree : ∀ first ∈ calls, ∀ second ∈ calls, Agree first.table second.table)
    (faithful : ∀ made call later, calls = made ++ call :: later →
      call.StoreIsFaithful ((new settings bounds).run made).offered)
    {made later : List (CacheCall σ)} {call : CacheCall σ}
    (isCall : calls = made ++ call :: later) :
    ∃ answer cache left,
      call.answer ((new settings bounds).run made).cache = (answer, cache, left) ∧
      AnswersFresh settings call ((new settings bounds).run made).cache.registry answer
        cache.registry left := by
  -- Tables of later calls count as known from the start; they agree with the earlier ones anyway.
  let known := fun table => ∃ call ∈ calls, call.table = table
  have mem_of_made : ∀ earlier ∈ made, earlier ∈ calls := by
    intro earlier isMade
    rw [isCall]
    exact List.mem_append_left _ isMade
  have isMember : call ∈ calls := by
    rw [isCall]
    exact List.mem_append_right _ List.mem_cons_self
  have agreeKnown : ∀ second ∈ calls, ∀ table, known table → Agree table second.table := by
    intro second isSecond table isKnown
    obtain ⟨first, isFirst, sameTable⟩ := isKnown
    rw [← sameTable]
    exact agree first isFirst second isSecond
  have before : ((new settings bounds).run made).IsTrue settings known := by
    apply isTrue_run bounds
    · intro earlier isMade
      exact ⟨earlier, mem_of_made earlier isMade, rfl⟩
    · intro earlier isMade
      exact agreeKnown earlier (mem_of_made earlier isMade)
    · intro first earlier rest isSplit
      apply faithful first earlier (rest ++ call :: later)
      rw [isCall, isSplit, List.append_assoc, List.cons_append]
  exact (before.after ⟨call, isMember, rfl⟩ (agreeKnown call isMember)
    (faithful made call later isCall)).1

/-! ## A store that loses nothing -/

/-- A store that keeps all that it is offered, the latest first. -/
def recordingStore : TableStore (List FlattenedTable) where
  load _ content source flattenBy firstRows :=
    .ok (lastOffered? content source flattenBy firstRows)
  offer _ content table := (.ok (), table :: content)

theorem storeIsFaithful_recordingStore {call : CacheCall (List FlattenedTable)}
    (isStore : call.store = some recordingStore) : call.StoreIsFaithful call.content := by
  intro store sameStore source flattenBy firstRows found isFound
  rw [isStore] at sameStore
  cases sameStore
  refine ⟨found, ?_, FlattenedTable.ShowsSameAs.refl found⟩
  exact Except.ok.inj isFound

/-- A cache that holds a table for one second. -/
def shortMemory : CacheHistory :=
  new {} { memorySeconds := 1 }

def raggedTable : Table :=
  ⟨"t", [Flattening.raggedShard], .loaded⟩

def firstRaggedCall : CacheCall (List FlattenedTable) :=
  ⟨some recordingStore, [], 0, raggedTable, "a[*]", Identifier.ofNat 1⟩

/-- The same call under another name, after memory has forgotten the first one. -/
def secondRaggedCall : CacheCall (List FlattenedTable) :=
  ⟨some recordingStore, (shortMemory.run [firstRaggedCall]).offered, 5000, raggedTable, "a[*]",
    Identifier.ofNat 2⟩

theorem raggedTable_flattens (id : FlattenId) :
    ∃ fresh, Flattening.flattenTable {} raggedTable none "a[*]" id = .ok fresh ∧
      fresh.shards.map Shard.rows =
        [[[("a", .long 5), ("d", .text "x")], [("a", .long 8), ("d", .text "y")],
          [("a", .long 6), ("d", .text "x")]]] := by
  have accepted : readTarget "a[*]" = .ok [⟨"a", .all⟩] := by decide +kernel
  obtain ⟨flattening, isFlattening, meets⟩ :=
    Flattening.raggedShard_flattens (flattenedTableName "t" (FieldPath.toText [⟨"a", .all⟩]))
  have hasColumn : flattening.shard.columns ≠ [] := by
    intro noColumn
    have isThere := (meets.names "d").mpr (Or.inl (by decide +kernel))
    rw [Shard.column?, noColumn] at isThere
    cases isThere
  have rows : flattening.shard.rows =
      [[("a", .long 5), ("d", .text "x")], [("a", .long 8), ("d", .text "y")],
        [("a", .long 6), ("d", .text "x")]] := by
    rw [meets.rows hasColumn]
    decide +kernel
  have flattens : Flattening.flattenTable {} raggedTable none "a[*]" id =
      Flattening.flattenTableBy {} raggedTable raggedTable.shards [⟨"a", .all⟩] id :=
    Flattening.flattenTable_eq_by rfl accepted id
  rw [Flattening.flattenTableBy] at flattens
  simp only [raggedTable, Flattening.flattenShards, isFlattening] at flattens
  refine ⟨_, flattens, ?_⟩
  simp [FlattenedTable.ofShards, inRowOrder, rows]

theorem answer_eq_fresh_secondRaggedCall :
    ∃ handed source cache left,
      secondRaggedCall.answer (shortMemory.run [firstRaggedCall]).cache =
        (.ok ⟨handed, source⟩, cache, left) ∧
      handed.id = Identifier.ofNat 2 ∧
      handed.originalFirstRows = [10] ∧
      handed.shards.map Shard.rows =
        [[[("a", .long 5), ("d", .text "x")], [("a", .long 8), ("d", .text "y")],
          [("a", .long 6), ("d", .text "x")]]] := by
  have agree : ∀ first ∈ [firstRaggedCall, secondRaggedCall],
      ∀ second ∈ [firstRaggedCall, secondRaggedCall], Agree first.table second.table := by
    intro first isFirst second isSecond
    simp only [List.mem_cons, List.not_mem_nil, or_false] at isFirst isSecond
    rcases isFirst with rfl | rfl <;> rcases isSecond with rfl | rfl <;> exact fun _ _ => rfl
  have faithful : ∀ made call later, [firstRaggedCall, secondRaggedCall] = made ++ call :: later →
      call.StoreIsFaithful (shortMemory.run made).offered := by
    intro made call later isSplit
    cases made with
    | nil =>
        cases isSplit
        exact storeIsFaithful_recordingStore rfl
    | cons first rest =>
        cases rest with
        | nil =>
            cases isSplit
            exact storeIsFaithful_recordingStore rfl
        | cons second others => simp at isSplit
  have isSecond : [firstRaggedCall, secondRaggedCall] =
      [firstRaggedCall] ++ secondRaggedCall :: [] := rfl
  obtain ⟨answer, cache, left, isAnswer, isFresh⟩ :=
    answer_eq_fresh {} { memorySeconds := 1 } agree faithful isSecond
  obtain ⟨expected, flattens, rows⟩ := raggedTable_flattens (Identifier.ofNat 2)
  rcases isFresh with ⟨fresh, handed, source, succeeds, isOk, sameId, sameRows, shows⟩ |
    ⟨cause, fails, _⟩
  · rw [isOk] at isAnswer
    have sameFresh : expected = fresh := Except.ok.inj (flattens.symm.trans succeeds)
    refine ⟨handed, source, cache, left, isAnswer, sameId, ?_, ?_⟩
    · rw [sameRows]
      decide +kernel
    · rw [shows.rows, ← sameFresh, rows]
  · cases flattens.symm.trans fails

end CacheHistory

end Unnest
