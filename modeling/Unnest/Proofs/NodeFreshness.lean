import Unnest.Proofs.NodeReports

/-!
# How old an answer can be

A worker looks up its table once, and everything that it reports shows the shards which the table
had at that moment.  The moment lies after the request that started the computation, so that this
request and all that were attached before the table was read are answered with shards that are at
least as new as they are (`NodeHistory.answers_from_read`).  A request that is attached later shares
the result, and may be answered with older shards (`NodeHistory.answers_can_be_outdated`).
-/

namespace Unnest

variable {σ : Type}

/-! ## Names -/

namespace Registry

theorem dropOldest_sublist (bound : Nat) (byName : OrderedMap FlattenId RegisteredTable)
    (ids : List FlattenId) : (dropOldest bound byName ids).1.Sublist byName := by
  induction ids generalizing byName with
  | nil => exact List.Sublist.refl byName
  | cons oldest later inductionHypothesis =>
      unfold dropOldest
      by_cases beyond : bound < later.length + 1
      · rw [if_pos beyond]
        exact (inductionHypothesis _).trans (OrderedMap.erase_sublist oldest byName)
      · rw [if_neg beyond]

/-- The latest name is not dropped. -/
theorem find?_dropOldest {bound : Nat} (positive : 1 ≤ bound)
    (byName : OrderedMap FlattenId RegisteredTable) {earlier : List FlattenId} {latest : FlattenId}
    (absent : latest ∉ earlier) :
    OrderedMap.find? latest (dropOldest bound byName (earlier ++ [latest])).1 =
      OrderedMap.find? latest byName := by
  induction earlier generalizing byName with
  | nil =>
      rw [List.nil_append, dropOldest, if_neg]
      exact Nat.not_lt.mpr positive
  | cons oldest later inductionHypothesis =>
      have different : latest ≠ oldest := List.ne_of_not_mem_cons absent
      rw [List.cons_append, dropOldest]
      by_cases beyond : bound < (later ++ [latest]).length + 1
      · rw [if_pos beyond, inductionHypothesis _ (List.not_mem_of_not_mem_cons absent),
          OrderedMap.find?_erase_of_ne different]
      · rw [if_neg beyond]

/-- A name that is known after a table is registered is that of the table or was known before. -/
theorem mem_byName_register {registry : Registry} {now : Nat} {table : FlattenedTable}
    {id : FlattenId} {entry : RegisteredTable}
    (isNamed : (id, entry) ∈ (registry.register now table).byName) :
    (id = table.id ∧ entry.table = table) ∨ (id, entry) ∈ registry.byName := by
  have inserted := (dropOldest_sublist _ _ _).subset isNamed
  rcases OrderedMap.mem_insert inserted with isNew | wasNamed
  · cases isNew
    exact Or.inl ⟨rfl, rfl⟩
  · exact Or.inr wasNamed

/-- A table that has just been registered is found by its name. -/
theorem get_register {registry : Registry} (positive : 1 ≤ registry.nameBound) (now : Nat)
    (table : FlattenedTable) : ((registry.register now table).get now table.id).1 = some table := by
  have absent : table.id ∉ registry.nameOrder.filter (· != table.id) := by
    simp
  have found : OrderedMap.find? table.id (registry.register now table).byName =
      some ⟨table, now⟩ :=
    (find?_dropOldest positive _ absent).trans (OrderedMap.find?_insert_self _ _ _)
  have notExpired : (registry.register now table).isExpired now ⟨table, now⟩ = false := by
    unfold isExpired
    cases (registry.register now table).ageBound with
    | none => rfl
    | some bound => simp
  rw [get, found]
  simp [notExpired]

theorem mem_byName_of_get {registry : Registry} {now : Nat} {id : FlattenId}
    {table : FlattenedTable} (found : (registry.get now id).1 = some table) :
    ∃ entry, (id, entry) ∈ registry.byName ∧ entry.table = table := by
  unfold get at found
  cases isNamed : OrderedMap.find? id registry.byName with
  | none => simp [isNamed] at found
  | some entry =>
      simp only [isNamed] at found
      by_cases isExpired : registry.isExpired now entry = true
      · simp [isExpired] at found
      · simp only [isExpired] at found
        exact ⟨entry, OrderedMap.mem_of_find? isNamed, Option.some.inj found⟩

end Registry

/-! ## What a computation has read -/

theorem FlattenRequest.key_source (request : FlattenRequest) :
    request.key.source = request.table := by
  unfold key
  cases readTarget request.flattenBy with
  | ok target => rfl
  | error cause => rfl

namespace Computation

/-- The table was read after the computation was started, and is what the node held at that
moment. -/
structure IsTimely (computation : Computation) (past : List (FlattenNode σ)) : Prop where
  begun : computation.begun < past.length
  read : ∀ moment found, computation.read = some (moment, found) →
    computation.begun < moment ∧ ∃ node, past[moment]? = some node ∧
      OrderedMap.find? computation.starter.table node.tables = found

theorem IsTimely.append {computation : Computation} {past : List (FlattenNode σ)}
    (timely : computation.IsTimely past) (node : FlattenNode σ) :
    computation.IsTimely (past ++ [node]) where
  begun := by
    rw [List.length_append]
    exact Nat.lt_add_right _ timely.begun
  read := by
    intro moment found wasRead
    obtain ⟨isLater, earlier, isThere, held⟩ := timely.read moment found wasRead
    have within := (List.getElem?_eq_some_iff.mp isThere).1
    exact ⟨isLater, earlier, (List.getElem?_append_left within).trans isThere, held⟩

/-- The table could be what the computation has made of the table that it has read. -/
def HasMade (computation : Computation) (id : FlattenId) (flattened : FlattenedTable) : Prop :=
  id = computation.starter.id ∧ ∃ moment table,
    computation.read = some (moment, some table) ∧ flattened.originalFirstRows = table.firstRows

theorem HasMade.continues {earlier later : Computation} {id : FlattenId}
    {flattened : FlattenedTable} (made : earlier.HasMade id flattened)
    (continues : earlier.Continues later) : later.HasMade id flattened := by
  obtain ⟨sameId, moment, table, wasRead, sameRows⟩ := made
  exact ⟨sameId.trans (congrArg FlattenRequest.id continues.starter.symm), moment, table,
    continues.read _ wasRead, sameRows⟩

end Computation

namespace NodeHistory

/-- The node before each event, and as it is now. -/
def moments (history : NodeHistory σ) : List (FlattenNode σ) :=
  history.past ++ [history.node]

structure IsTimely (history : NodeHistory σ) : Prop where
  starters : (history.computations.map fun computation =>
    (computation.begun, computation.starter)).Sublist history.accepted
  timely : ∀ computation ∈ history.computations, computation.IsTimely history.past

theorem isTimely_new (id : NodeId) (settings : FlattenSettings) (bounds : CacheSettings)
    (store : Option (KeyedStore σ)) (content : σ) :
    (new id settings bounds store content).IsTimely where
  starters := List.Sublist.refl []
  timely := by
    intro computation isComputation
    cases isComputation

theorem map_modify {α β : Type} (items : List α) (place : Nat) {change : α → α} {image : α → β}
    (same : ∀ item, image (change item) = image item) :
    (items.modify place change).map image = items.map image := by
  apply List.ext_getElem?
  intro index
  rw [List.getElem?_map, List.getElem?_map, List.getElem?_modify]
  cases items[index]? with
  | none => rfl
  | some item =>
      by_cases isPlace : place = index
      · simp [isPlace, same]
      · simp [isPlace]

theorem IsTimely.follows {before after : NodeHistory σ} (timely : before.IsTimely)
    (numbers : before.NumbersWorkers) (follows : before.Follows after) : after.IsTimely := by
  have starters := timely.starters
  have old : ∀ computation ∈ before.computations,
      computation.IsTimely (before.past ++ [before.node]) := by
    intro computation isComputation
    exact (timely.timely computation isComputation).append before.node
  cases follows with
  | attached isRunning => exact ⟨starters.trans (List.sublist_append_left _ _), old⟩
  | @began request isNew =>
      constructor
      · change ((before.computations ++ [_]).map _).Sublist (before.accepted ++ [_])
        rw [List.map_append]
        exact starters.append (List.Sublist.refl _)
      · intro computation isComputation
        rcases List.mem_append.mp isComputation with isOld | isNew
        · exact old computation isOld
        · rw [List.mem_singleton.mp isNew]
          refine ⟨?_, ?_⟩
          · change before.past.length < (before.past ++ [before.node]).length
            rw [List.length_append]
            exact Nat.lt_succ_self before.past.length
          · intro moment found wasRead
            cases wasRead
  | @read place number worker isWorker isRunning stage =>
      constructor
      · change ((before.computations.modify number _).map _).Sublist before.accepted
        rw [map_modify]
        · exact starters
        · exact fun _ => rfl
      · intro computation isComputation
        rcases mem_modify isComputation with isOld | ⟨running, isRunningComputation, isChanged⟩
        · exact old computation isOld
        · have fits := numbers.fits_of isWorker isRunning isRunningComputation
          have isMember := List.mem_of_getElem? isRunningComputation
          rw [isChanged]
          refine ⟨(old running isMember).begun, ?_⟩
          intro moment found wasRead
          cases wasRead
          refine ⟨(timely.timely running isMember).begun, before.node, ?_, ?_⟩
          · exact List.getElem?_concat_length
          · rw [fits.key, FlattenRequest.key_source]
  | @computed now place number worker table result cache content isWorker isRunning stage
      computes =>
      constructor
      · change ((before.computations.modify number _).map _).Sublist before.accepted
        rw [map_modify]
        · exact starters
        · exact fun _ => rfl
      · intro computation isComputation
        rcases mem_modify isComputation with isOld | ⟨running, isRunningComputation, isChanged⟩
        · exact old computation isOld
        · have known := old running (List.mem_of_getElem? isRunningComputation)
          rw [isChanged]
          exact ⟨known.begun, known.read⟩
  | took isWorker isRunning stage => exact ⟨starters, old⟩
  | reported isWorker isRunning stage => exact ⟨starters, old⟩
  | ended isWorker isRunning stage => exact ⟨starters, old⟩
  | idle tables content onlyForgets => exact ⟨starters, old⟩

/-! ## What a name stands for -/

/-- Every name stands for what the computation has made that goes by this name, and what is reported
has been there. -/
structure NamesWhatWasMade (history : NodeHistory σ) : Prop where
  bound : 1 ≤ history.node.cache.registry.nameBound
  named : ∀ node ∈ history.moments, ∀ id entry, (id, entry) ∈ node.cache.registry.byName →
    ∃ computation ∈ history.computations, computation.HasMade id entry.table
  made : ∀ computation ∈ history.computations, ∀ id, computation.result = some (.flattened id) →
    ∃ node ∈ history.moments, ∃ now flattened, (node.flattened? now id).1 = some flattened ∧
      computation.HasMade id flattened

theorem namesWhatWasMade_new (id : NodeId) (settings : FlattenSettings) (bounds : CacheSettings)
    (store : Option (KeyedStore σ)) (content : σ) :
    (new id settings bounds store content).NamesWhatWasMade where
  bound := Nat.le_max_right bounds.maxFlattenIds 1
  named := by
    intro node isThere id entry isNamed
    rw [List.mem_singleton.mp isThere] at isNamed
    cases isNamed
  made := by
    intro computation isComputation
    cases isComputation

theorem Follows.exists_continues {before after : NodeHistory σ} (follows : before.Follows after)
    (numbers : before.NumbersWorkers) {computation : Computation}
    (isComputation : computation ∈ before.computations) :
    ∃ later ∈ after.computations, computation.Continues later := by
  obtain ⟨number, isThere⟩ := List.mem_iff_getElem?.mp isComputation
  obtain ⟨later, isLater, continues⟩ := follows.continues numbers isThere
  exact ⟨later, List.mem_of_getElem? isLater, continues⟩

/-- What names stand for after an event, from what the event has changed. -/
theorem NamesWhatWasMade.goOn {before after : NodeHistory σ} (names : before.NamesWhatWasMade)
    (moments : after.moments = before.moments ++ [after.node])
    (bound : 1 ≤ after.node.cache.registry.nameBound)
    (named : ∀ id entry, (id, entry) ∈ after.node.cache.registry.byName →
      (id, entry) ∈ before.node.cache.registry.byName ∨
        ∃ computation ∈ after.computations, computation.HasMade id entry.table)
    (continues : ∀ computation ∈ before.computations, ∃ later ∈ after.computations,
      computation.Continues later)
    (made : ∀ computation ∈ after.computations, ∀ id,
      computation.result = some (.flattened id) →
      (∃ earlier ∈ before.computations, earlier.result = some (.flattened id) ∧
        earlier.Continues computation) ∨
      ∃ now flattened, (after.node.flattened? now id).1 = some flattened ∧
        computation.HasMade id flattened) :
    after.NamesWhatWasMade where
  bound := bound
  named := by
    have wasNamed : ∀ node ∈ before.moments, ∀ id entry,
        (id, entry) ∈ node.cache.registry.byName →
          ∃ computation ∈ after.computations, computation.HasMade id entry.table := by
      intro node isThere id entry isNamed
      obtain ⟨computation, isComputation, hasMade⟩ := names.named node isThere id entry isNamed
      obtain ⟨later, isLater, isContinued⟩ := continues computation isComputation
      exact ⟨later, isLater, hasMade.continues isContinued⟩
    intro node isThere id entry isNamed
    rw [moments] at isThere
    rcases List.mem_append.mp isThere with isPast | isNow
    · exact wasNamed node isPast id entry isNamed
    · rw [List.mem_singleton.mp isNow] at isNamed
      rcases named id entry isNamed with isOld | isNew
      · have isLast : before.node ∈ before.moments :=
          List.mem_append_right before.past List.mem_cons_self
        exact wasNamed before.node isLast id entry isOld
      · exact isNew
  made := by
    intro computation isComputation id isFlattened
    rcases made computation isComputation id isFlattened with
      ⟨earlier, isEarlier, hadResult, isContinued⟩ | ⟨now, flattened, found, hasMade⟩
    · obtain ⟨node, isThere, now, flattened, found, hasMade⟩ :=
        names.made earlier isEarlier id hadResult
      refine ⟨node, ?_, now, flattened, found, hasMade.continues isContinued⟩
      rw [moments]
      exact List.mem_append_left _ isThere
    · refine ⟨after.node, ?_, now, flattened, found, hasMade⟩
      exact List.mem_append_right after.past List.mem_cons_self

theorem NamesWhatWasMade.onlyForgets {before after : NodeHistory σ}
    (names : before.NamesWhatWasMade) (moments : after.moments = before.moments ++ [after.node])
    (onlyForgets : before.node.cache.registry.OnlyForgets after.node.cache.registry)
    (continues : ∀ computation ∈ before.computations, ∃ later ∈ after.computations,
      computation.Continues later)
    (origin : ∀ computation ∈ after.computations, ∀ id,
      computation.result = some (.flattened id) → ∃ earlier ∈ before.computations,
        earlier.result = some (.flattened id) ∧ earlier.Continues computation) :
    after.NamesWhatWasMade := by
  refine names.goOn moments ?_ ?_ continues ?_
  · rw [onlyForgets.nameBound]
    exact names.bound
  · intro id entry isNamed
    exact Or.inl (onlyForgets.byName.subset isNamed)
  · intro computation isComputation id isFlattened
    exact Or.inl (origin computation isComputation id isFlattened)

/-- What a worker has made is registered under the name of its request. -/
theorem NamesWhatWasMade.flattened {before after : NodeHistory σ} (names : before.NamesWhatWasMade)
    (numbers : before.NumbersWorkers) {now place number : Nat} {worker : Worker} {table : Table}
    {flattened : FlattenedTable} {pruned : Registry}
    (isWorker : before.node.workers[place]? = some worker)
    (isRunning : before.running[place]? = some number)
    (stage : worker.stage = .loaded (some table)) (sameId : flattened.id = worker.request)
    (sameRows : flattened.originalFirstRows = table.firstRows)
    (onlyForgets : before.node.cache.registry.OnlyForgets pruned)
    (moments : after.moments = before.moments ++ [after.node])
    (registered : after.node.cache.registry = pruned.register now flattened)
    (computations : after.computations = before.computations.modify number fun computation =>
      { computation with result := some (.flattened worker.request) })
    (continues : ∀ computation ∈ before.computations, ∃ later ∈ after.computations,
      computation.Continues later) :
    after.NamesWhatWasMade := by
  have positive : 1 ≤ pruned.nameBound := onlyForgets.nameBound ▸ names.bound
  have hasMade : ∀ running, before.computations[number]? = some running →
      ({ running with result := some (.flattened worker.request) } : Computation).HasMade
        worker.request flattened := by
    intro running isRunningComputation
    have fits := numbers.fits_of isWorker isRunning isRunningComputation
    have known := fits.stage
    rw [stage] at known
    obtain ⟨⟨moment, wasRead⟩, _⟩ := known
    exact ⟨fits.request, moment, table, wasRead, sameRows⟩
  refine names.goOn moments ?_ ?_ continues ?_
  · rw [registered]
    exact positive
  · intro id entry isNamed
    rw [registered] at isNamed
    rcases Registry.mem_byName_register isNamed with ⟨rfl, rfl⟩ | wasNamed
    · obtain ⟨running, isRunningComputation, _⟩ := numbers.fits _ _ _ isWorker isRunning
      have isChanged := List.mem_of_getElem? (getElem?_note isRunningComputation
        fun computation => { computation with result := some (.flattened worker.request) })
      rw [sameId, computations]
      exact Or.inr ⟨_, isChanged, hasMade running isRunningComputation⟩
    · exact Or.inl (onlyForgets.byName.subset wasNamed)
  · intro computation isComputation id isFlattened
    rw [computations] at isComputation
    rcases mem_modify isComputation with isOld | ⟨running, isRunningComputation, isChanged⟩
    · exact Or.inl ⟨computation, isOld, isFlattened, .refl computation⟩
    · rw [isChanged] at isFlattened ⊢
      cases isFlattened
      refine Or.inr ⟨now, flattened, ?_, hasMade running isRunningComputation⟩
      change (after.node.cache.registry.get now worker.request).1 = some flattened
      rw [registered, ← sameId]
      exact Registry.get_register positive now flattened

theorem NamesWhatWasMade.follows {before after : NodeHistory σ} (names : before.NamesWhatWasMade)
    (numbers : before.NumbersWorkers) (follows : before.Follows after) :
    after.NamesWhatWasMade := by
  have continues : ∀ computation ∈ before.computations, ∃ later ∈ after.computations,
      computation.Continues later :=
    fun computation isComputation => follows.exists_continues numbers isComputation
  have unchanged : ∀ computation ∈ before.computations, ∀ id,
      computation.result = some (.flattened id) → ∃ earlier ∈ before.computations,
        earlier.result = some (.flattened id) ∧ earlier.Continues computation :=
    fun computation isComputation _ isFlattened =>
      ⟨computation, isComputation, isFlattened, .refl computation⟩
  have same := Registry.OnlyForgets.refl before.node.cache.registry
  cases follows with
  | attached isRunning => exact names.onlyForgets rfl same continues unchanged
  | @began request isNew =>
      refine names.onlyForgets rfl same continues ?_
      intro computation isComputation id isFlattened
      rcases List.mem_append.mp isComputation with isOld | isNew
      · exact unchanged computation isOld id isFlattened
      · rw [List.mem_singleton.mp isNew] at isFlattened
        cases isFlattened
  | read isWorker isRunning stage =>
      refine names.onlyForgets rfl same continues ?_
      intro computation isComputation id isFlattened
      rcases mem_modify isComputation with isOld | ⟨running, isRunningComputation, isChanged⟩
      · exact unchanged computation isOld id isFlattened
      · have known := (numbers.fits_of isWorker isRunning isRunningComputation).stage
        rw [stage] at known
        rw [isChanged] at isFlattened
        cases known.2.symm.trans isFlattened
  | @computed now place number worker table result cache content isWorker isRunning stage
      computes =>
      generalize isRegistry : cache.registry = registry at computes
      cases computes with
      | failed onlyForgets =>
          rw [← isRegistry] at onlyForgets
          refine names.onlyForgets rfl onlyForgets continues ?_
          intro computation isComputation id isFlattened
          rcases mem_modify isComputation with isOld | ⟨running, _, isChanged⟩
          · exact unchanged computation isOld id isFlattened
          · rw [isChanged] at isFlattened
            cases isFlattened
      | flattened sameId sameRows onlyForgets =>
          exact names.flattened numbers isWorker isRunning stage sameId sameRows onlyForgets rfl
            isRegistry rfl continues
  | took isWorker isRunning stage => exact names.onlyForgets rfl same continues unchanged
  | reported isWorker isRunning stage => exact names.onlyForgets rfl same continues unchanged
  | ended isWorker isRunning stage => exact names.onlyForgets rfl same continues unchanged
  | idle tables content onlyForgets => exact names.onlyForgets rfl onlyForgets continues unchanged

/-! ## Answers -/

/-- If no two requests have the same id, a computation is known by the id of its starter. -/
theorem IsTimely.eq_of_starter_id {history : NodeHistory σ} (timely : history.IsTimely)
    (distinct : (history.accepted.map fun accepted => accepted.2.id).Nodup)
    {first second : Computation} (isFirst : first ∈ history.computations)
    (isSecond : second ∈ history.computations) (sameId : first.starter.id = second.starter.id) :
    first = second := by
  have starters := timely.starters.map fun accepted => accepted.2.id
  rw [List.map_map] at starters
  exact List.inj_on_of_nodup_map (distinct.sublist starters) isFirst isSecond sameId

theorem mem_accepted_of_sent {history : NodeHistory σ} (balanced : history.IsBalanced)
    {report : SentReport} (isSent : report ∈ history.sent) :
    ∃ asked ∈ history.accepted, asked.2.id = report.delivery.report.request ∧
      asked.2.key = report.key ∧ report.delivery.target ∈ asked.2.notify := by
  have isEntry : report.entry ∈ history.sent.map SentReport.entry := List.mem_map_of_mem isSent
  have isAsked : report.entry ∈ history.asked := by
    have counted := balanced report.entry
    have positive := List.count_pos_iff.mpr isEntry
    exact List.count_pos_iff.mp (by omega)
  obtain ⟨asked, isAccepted, isNamed⟩ := List.mem_flatMap.mp isAsked
  obtain ⟨target, isTarget, sameEntry⟩ := List.mem_map.mp isNamed
  simp only [SentReport.entry, Prod.mk.injEq] at sameEntry
  obtain ⟨sameKey, sameId, sameTarget⟩ := sameEntry
  exact ⟨asked, isAccepted, sameId, sameKey, sameTarget ▸ isTarget⟩

section Events

variable (id : NodeId) (settings : FlattenSettings) (bounds : CacheSettings)
  (store : Option (KeyedStore σ)) (content : σ) (events : List (NodeEvent σ))

theorem isTimely_run : ((new id settings bounds store content).run events).IsTimely :=
  run_induction (isTimely_new id settings bounds store content)
    (fun _ _ numbers timely follows => timely.follows numbers follows) events

theorem namesWhatWasMade_run :
    ((new id settings bounds store content).run events).NamesWhatWasMade :=
  run_induction (namesWhatWasMade_new id settings bounds store content)
    (fun _ _ numbers names follows => names.follows numbers follows) events

end Events

/-- However requests, workers and changes of tables and of the store are interleaved: a success
that is reported for a request names a flattening of the shards that the table had when the worker
read it.  This was after the request that started the computation.  The name keeps its meaning if no
two requests share an id. -/
theorem answers_from_read (id : NodeId) (settings : FlattenSettings) (bounds : CacheSettings)
    (store : Option (KeyedStore σ)) (content : σ) (events : List (NodeEvent σ)) :
    let history := (new id settings bounds store content).run events
    ∀ report ∈ history.sent, ∀ flattenId, report.delivery.report.result = .flattened flattenId →
      ∃ computation : Computation, ∃ read table,
        history.computations[report.computation]? = some computation ∧
        flattenId = computation.starter.id ∧
        (computation.begun, computation.starter) ∈ history.accepted ∧
        (∃ asked ∈ history.accepted, asked.2.id = report.delivery.report.request ∧
          asked.2.key = computation.starter.key ∧ report.delivery.target ∈ asked.2.notify) ∧
        computation.read = some (read, some table) ∧ computation.begun < read ∧
        (∃ node, history.moments[read]? = some node ∧
          OrderedMap.find? computation.starter.table node.tables = some table) ∧
        (∃ node ∈ history.moments, ∃ now flattened,
          (node.flattened? now flattenId).1 = some flattened ∧
          flattened.originalFirstRows = table.firstRows) ∧
        ((history.accepted.map fun accepted => accepted.2.id).Nodup →
          ∀ node ∈ history.moments, ∀ now flattened,
            (node.flattened? now flattenId).1 = some flattened →
            flattened.originalFirstRows = table.firstRows) := by
  intro history report isSent flattenId isFlattened
  have timely : history.IsTimely := isTimely_run id settings bounds store content events
  have names : history.NamesWhatWasMade :=
    namesWhatWasMade_run id settings bounds store content events
  have balanced : history.IsBalanced := isBalanced_run id settings bounds store content events
  have settled : history.IsSettled := isSettled_run id settings bounds store content events
  obtain ⟨computation, isComputation, result, sameKey⟩ := settled.sent report isSent
  rw [isFlattened] at result
  have isMember := List.mem_of_getElem? isComputation
  obtain ⟨made, isMade, now, flattened, found, sameId, read, table, wasRead, sameRows⟩ :=
    names.made computation isMember flattenId result
  obtain ⟨isLater, node, isThere, held⟩ := (timely.timely computation isMember).read _ _ wasRead
  have isMoment : history.moments[read]? = some node := by
    have within := (List.getElem?_eq_some_iff.mp isThere).1
    exact (List.getElem?_append_left within).trans isThere
  have isAccepted : (computation.begun, computation.starter) ∈ history.accepted :=
    timely.starters.subset (List.mem_map_of_mem isMember)
  have isAsked := mem_accepted_of_sent balanced isSent
  rw [← sameKey] at isAsked
  refine ⟨computation, read, table, isComputation, sameId, isAccepted, isAsked, wasRead, isLater,
    ⟨node, isMoment, held⟩, ⟨made, isMade, now, flattened, found, sameRows⟩, ?_⟩
  intro distinct other isOther later otherFlattened otherFound
  obtain ⟨entry, isNamed, sameTable⟩ := Registry.mem_byName_of_get otherFound
  -- Whatever goes by the name later was made by a computation with the same starter.
  obtain ⟨maker, isMaker, makerId, makerRead, makerTable, makerWasRead, makerRows⟩ :=
    names.named other isOther flattenId entry isNamed
  have sameComputation : maker = computation :=
    timely.eq_of_starter_id distinct isMaker isMember (makerId.symm.trans sameId)
  rw [sameComputation, wasRead] at makerWasRead
  cases makerWasRead
  rw [← sameTable, makerRows]

/-! ## Answers that are older than their requests -/

/-- From a moment on, the node has once held a table with these first rows. -/
def HeldSince (history : NodeHistory σ) (moment : Nat) (name : String) (firstRows : FirstRows) :
    Prop :=
  ∃ node ∈ history.moments.drop moment, ∃ table,
    OrderedMap.find? name node.tables = some table ∧ table.firstRows = firstRows

/-- Every success that was reported for a request names a flattening of shards that the table had
after the request was accepted. -/
def IsNeverOutdated (history : NodeHistory σ) : Prop :=
  ∀ report ∈ history.sent, ∀ flattenId, report.delivery.report.result = .flattened flattenId →
    ∀ asked ∈ history.accepted, asked.2.id = report.delivery.report.request →
      asked.2.key = report.key →
      ∀ now flattened, (history.node.flattened? now flattenId).1 = some flattened →
        history.HeldSince asked.1 asked.2.table flattened.originalFirstRows

/-- A table of one row with an array of one entry. -/
def oneRowTable (name : String) (row : Int) : Table :=
  ⟨name, [⟨name, row, 1, [("a[0]", ⟨.long, .array #[5], [Page.constant row 1 0]⟩),
    ("a[length]", ⟨.long, .array #[1], [Page.constant row 1 0]⟩)]⟩], .loaded⟩

def requestOf (id : Nat) (name : String) : FlattenRequest :=
  ⟨.ofNat id, name, "a[*]", [⟨9⟩]⟩

/-- The table is replaced after it was read; then the second request is attached. -/
def attachedAfterChange : NodeHistory Unit :=
  (new ⟨1⟩ {} {} none ()).run
    [.putTable (oneRowTable "t" 10), .accepted (requestOf 1 "t"), .worked 0 0 true,
      .putTable (oneRowTable "t" 20), .accepted (requestOf 2 "t"), .worked 0 0 true,
      .worked 0 0 true, .worked 0 0 true, .worked 0 0 true]

/-- Two requests for different tables under one id. -/
def sameIdTwice : NodeHistory Unit :=
  (new ⟨1⟩ {} {} none ()).run
    [.putTable (oneRowTable "t" 0), .putTable (oneRowTable "u" 100),
      .accepted (requestOf 5 "t"), .worked 0 0 true, .worked 0 0 true, .worked 0 0 true,
      .worked 0 0 true, .worked 0 0 true,
      .accepted { requestOf 5 "u" with notify := [] }, .worked 0 0 true, .worked 0 0 true,
      .worked 0 0 true]

theorem not_isNeverOutdated {history : NodeHistory σ} {report : SentReport} {flattenId : FlattenId}
    {moment : Nat} {request : FlattenRequest} {firstRows : FirstRows}
    (isSent : report ∈ history.sent)
    (isFlattened : report.delivery.report.result = .flattened flattenId)
    (isAccepted : (moment, request) ∈ history.accepted)
    (sameId : request.id = report.delivery.report.request) (sameKey : request.key = report.key)
    (found : (history.node.flattened? 0 flattenId).1.map FlattenedTable.originalFirstRows =
      some firstRows)
    (otherRows : ∀ node ∈ history.moments.drop moment,
      (OrderedMap.find? request.table node.tables).map Table.firstRows ≠ some firstRows) :
    ¬ history.IsNeverOutdated := by
  intro neverOutdated
  obtain ⟨flattened, isFound, rows⟩ := Option.map_eq_some_iff.mp found
  obtain ⟨node, isNode, table, held, sameRows⟩ :=
    neverOutdated report isSent flattenId isFlattened (moment, request) isAccepted sameId sameKey 0
      flattened isFound
  apply otherRows node isNode
  rw [held, Option.map_some, sameRows, rows]

theorem answers_can_be_outdated :
    ¬ attachedAfterChange.IsNeverOutdated ∧ ¬ sameIdTwice.IsNeverOutdated := by
  constructor
  · have isSent : (⟨0, ⟨"t", "a[*]"⟩,
        ⟨⟨9⟩, ⟨.ofNat 2, ⟨1⟩, .flattened (.ofNat 1)⟩⟩, true⟩ : SentReport) ∈
        attachedAfterChange.sent := by
      decide +kernel
    have isAccepted : (4, requestOf 2 "t") ∈ attachedAfterChange.accepted := by decide +kernel
    have found : (attachedAfterChange.node.flattened? 0 (.ofNat 1)).1.map
        FlattenedTable.originalFirstRows = some [10] := by
      decide +kernel
    exact not_isNeverOutdated isSent rfl isAccepted rfl (by decide +kernel) found
      (by decide +kernel)
  · have isSent : (⟨0, ⟨"t", "a[*]"⟩,
        ⟨⟨9⟩, ⟨.ofNat 5, ⟨1⟩, .flattened (.ofNat 5)⟩⟩, true⟩ : SentReport) ∈
        sameIdTwice.sent := by
      decide +kernel
    have isAccepted : (2, requestOf 5 "t") ∈ sameIdTwice.accepted := by decide +kernel
    have found : (sameIdTwice.node.flattened? 0 (.ofNat 5)).1.map
        FlattenedTable.originalFirstRows = some [100] := by
      decide +kernel
    exact not_isNeverOutdated isSent rfl isAccepted rfl (by decide +kernel) found
      (by decide +kernel)

end NodeHistory

end Unnest
