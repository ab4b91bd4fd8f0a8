import Unnest.Proofs.NodeListing
import Unnest.Proofs.NodeReports

/-!
# How a node works for a client

A client asks a node for flattenings and wants to know what becomes of them.  The node works for it
if all its workers go back to what was asked and what they have computed is so
(`FlattenNode.WorksFor`).  Steps of workers keep this, and they change nothing about keys for which
nothing is being computed (`FlattenNode.GoesOn`).  A request is owed a report until the report is
sent (`FlattenNode.Owes`).
-/

namespace Unnest

variable {σ : Type}

/-! ## What stays true while a node works -/

namespace FlattenNode

variable {asked more : List (RequestId × FlattenKey)} {before after : FlattenNode σ}
  {key : FlattenKey} {requested : Option FlattenKey} {result : NodeResult}

/-- Nothing is being computed for the key. -/
def IsQuiet (node : FlattenNode σ) (key : FlattenKey) : Prop :=
  OrderedMap.find? key node.inFlight = none

/-- Between two moments of a node only flattenings that were asked for came to be listed.  A request
may have been made for one key; nothing happened to other keys for which nothing was being
computed. -/
structure GoesOn (asked : List (RequestId × FlattenKey)) (requested : Option FlattenKey)
    (before after : FlattenNode σ) : Prop extends before.IsSame after where
  lists : ∀ key, after.listed? key = before.listed? key ∨
    ∃ request, (request, key) ∈ asked ∧ after.listed? key = some request
  quiet : ∀ key, requested ≠ some key → before.IsQuiet key →
    after.IsQuiet key ∧ after.listed? key = before.listed? key

theorem GoesOn.refl (node : FlattenNode σ) : node.GoesOn asked requested node :=
  ⟨.refl node, fun _ => Or.inl rfl, fun _ _ isQuiet => ⟨isQuiet, rfl⟩⟩

theorem GoesOn.mono (goesOn : before.GoesOn asked requested after) (grows : asked ⊆ more) :
    before.GoesOn more requested after where
  toIsSame := goesOn.toIsSame
  lists := by
    intro key
    rcases goesOn.lists key with same | ⟨request, isAsked, isListed⟩
    · exact Or.inl same
    · exact Or.inr ⟨request, grows isAsked, isListed⟩
  quiet := goesOn.quiet

/-- The lists stay as they are, and nothing new is being computed. -/
theorem GoesOn.of_lists (same : before.IsSame after)
    (lists : ∀ key, after.listed? key = before.listed? key)
    (quiet : ∀ key, requested ≠ some key → before.IsQuiet key → after.IsQuiet key) :
    before.GoesOn asked requested after where
  toIsSame := same
  lists := fun key => Or.inl (lists key)
  quiet := fun key notRequested isQuiet => ⟨quiet key notRequested isQuiet, lists key⟩

theorem IsSame.listed? (same : before.IsSame after)
    (sameRegistry : after.cache.registry = before.cache.registry) (key : FlattenKey) :
    after.listed? key = before.listed? key := by
  rw [FlattenNode.listed?, FlattenNode.listed?, same.tables, sameRegistry]

/-- What a worker has computed is so. -/
inductive Upholds (node : FlattenNode σ) (key : FlattenKey) : NodeResult → Prop where
  | flattened {id : FlattenId} (isListed : node.listed? key = some id) :
      Upholds node key (.flattened id)
  | failed {reason : String} (notListed : node.listed? key = none)
      (cannotFlatten : ¬ node.CanFlatten key) : Upholds node key (.failed reason)

theorem Upholds.of_same (upholds : before.Upholds key result) (same : before.IsSame after)
    (sameListed : after.listed? key = before.listed? key) : after.Upholds key result := by
  cases upholds with
  | flattened isListed => exact .flattened (sameListed.trans isListed)
  | failed notListed cannotFlatten =>
      refine .failed (sameListed.trans notListed) fun canFlatten => ?_
      exact cannotFlatten ((same.canFlatten_iff key).mp canFlatten)

/-- The node has come to a result, and is not about to come to another one. -/
structure IsSettled (node : FlattenNode σ) (key : FlattenKey) (result : NodeResult) : Prop where
  quiet : node.IsQuiet key
  upholds : node.Upholds key result

theorem IsSettled.goesOn (settled : before.IsSettled key result)
    (goesOn : before.GoesOn asked requested after) (notRequested : requested ≠ some key) :
    after.IsSettled key result := by
  rcases goesOn.quiet key notRequested settled.quiet with ⟨isQuiet, sameListed⟩
  exact ⟨isQuiet, settled.upholds.of_same goesOn.toIsSame sameListed⟩

end FlattenNode

/-! ## Workers -/

section Workers

variable {asked more : List (RequestId × FlattenKey)} {client : NodeId}
  {before after : FlattenNode σ} {worker : Worker}

/-- A worker works on the table of its node, has computed what is so, names what it lists after its
request, and reports to the client. -/
inductive WorkerStage.Fits (asked : List (RequestId × FlattenKey)) (client : NodeId)
    (node : FlattenNode σ) (key : FlattenKey) (request : RequestId) : WorkerStage → Prop where
  | started : Fits asked client node key request .started
  | loaded : Fits asked client node key request
      (.loaded (OrderedMap.find? key.source node.tables))
  | computed {result : NodeResult} (upholds : node.Upholds key result)
      (named : ∀ id, result = .flattened id → id = request) :
      Fits asked client node key request (.computed result)
  | reporting {result : NodeResult} {remaining : List (RequestId × NodeId)}
      (owed : ∀ entry ∈ remaining, (entry.1, key) ∈ asked ∧ entry.2 = client) :
      Fits asked client node key request (.reporting result remaining)

theorem WorkerStage.Fits.mono {key : FlattenKey} {request : RequestId} {stage : WorkerStage}
    (fits : stage.Fits asked client before key request) (grows : asked ⊆ more) :
    stage.Fits more client before key request := by
  cases fits with
  | started => exact .started
  | loaded => exact .loaded
  | computed upholds named => exact .computed upholds named
  | reporting owed =>
      refine .reporting fun entry isEntry => ?_
      exact ⟨grows (owed entry isEntry).1, (owed entry isEntry).2⟩

structure Worker.WorksFor (asked : List (RequestId × FlattenKey)) (client : NodeId)
    (node : FlattenNode σ) (worker : Worker) : Prop where
  isAsked : (worker.request, worker.key) ∈ asked
  stage : worker.stage.Fits asked client node worker.key worker.request

/-- A worker does not notice what happens to its node, unless the node lists something else for what
it is busy with. -/
theorem Worker.WorksFor.of_same (works : worker.WorksFor asked client before)
    (same : before.IsSame after)
    (sameListed : worker.isBusy = true →
      after.listed? worker.key = before.listed? worker.key) :
    worker.WorksFor asked client after := by
  refine ⟨works.isAsked, ?_⟩
  have fits := works.stage
  cases isStage : worker.stage with
  | started => exact .started
  | loaded table =>
      rw [isStage] at fits
      cases fits
      rw [← same.tables]
      exact .loaded
  | computed result =>
      rw [isStage] at fits
      cases fits with
      | computed upholds named =>
          refine .computed (upholds.of_same same (sameListed ?_)) named
          simp only [Worker.isBusy, isStage]
  | reporting result remaining =>
      rw [isStage] at fits
      cases fits with
      | reporting owed => exact .reporting owed

theorem Worker.WorksFor.mono (works : worker.WorksFor asked client before)
    (grows : asked ⊆ more) : worker.WorksFor more client before :=
  ⟨grows works.isAsked, works.stage.mono grows⟩

end Workers

namespace FlattenNode

/-- What the worker at a place does in one step, and what it sends. -/
inductive WorkerStep (now place : Nat) (before : FlattenNode σ) :
    Option Delivery → FlattenNode σ → Prop where
  | absent (isAbsent : before.workers[place]? = none) : WorkerStep now place before none before
  | read {worker : Worker} (isWorker : before.workers[place]? = some worker)
      (stage : worker.stage = .started) :
      WorkerStep now place before none
        (before.setStage place worker
          (.loaded (OrderedMap.find? worker.key.source before.tables)))
  | computed {worker : Worker} {table : Option Table}
      (isWorker : before.workers[place]? = some worker) (stage : worker.stage = .loaded table) :
      WorkerStep now place before none
        ((before.compute now worker table).2.setStage place worker
          (.computed (before.compute now worker table).1))
  | took {worker : Worker} {result : NodeResult}
      (isWorker : before.workers[place]? = some worker) (stage : worker.stage = .computed result) :
      WorkerStep now place before none
        ((before.takeWaiters worker.key).2.setStage place worker
          (.reporting result (reportsFor (before.takeWaiters worker.key).1)))
  | reported {worker : Worker} {result : NodeResult} {request : RequestId} {target : NodeId}
      {remaining : List (RequestId × NodeId)}
      (isWorker : before.workers[place]? = some worker)
      (stage : worker.stage = .reporting result ((request, target) :: remaining)) :
      WorkerStep now place before (some ⟨target, ⟨request, before.id, result⟩⟩)
        (before.setStage place worker (.reporting result remaining))
  | ended {worker : Worker} {result : NodeResult}
      (isWorker : before.workers[place]? = some worker)
      (stage : worker.stage = .reporting result []) :
      WorkerStep now place before none
        { before with workers := before.workers.eraseIdx place }

theorem workerStep_runWorker (now place : Nat) (node : FlattenNode σ) :
    WorkerStep now place node (node.runWorker now place).1 (node.runWorker now place).2 := by
  unfold runWorker
  cases isWorker : node.workers[place]? with
  | none => exact .absent isWorker
  | some worker =>
      cases stage : worker.stage with
      | started =>
          simp only [stage]
          exact .read isWorker stage
      | loaded table =>
          simp only [stage]
          exact .computed isWorker stage
      | computed result =>
          simp only [stage]
          exact .took isWorker stage
      | reporting result remaining =>
          cases remaining with
          | nil =>
              simp only [stage]
              exact .ended isWorker stage
          | cons entry later =>
              simp only [stage]
              exact .reported isWorker stage

/-! ## All of a node -/

/-- All that a node does goes back to what its client has asked for. -/
structure WorksFor (asked : List (RequestId × FlattenKey)) (client : NodeId)
    (node : FlattenNode σ) : Prop where
  apart : node.KeepsKeysApart
  workers : ∀ worker ∈ node.workers, worker.WorksFor asked client node
  waiters : ∀ key waiters, OrderedMap.find? key node.inFlight = some waiters →
    ∀ waiter ∈ waiters, (waiter.request, key) ∈ asked ∧ waiter.notify = [client]

section Work

variable {asked more : List (RequestId × FlattenKey)} {client : NodeId} {now : Nat}
  {before after : FlattenNode σ} {place : Nat} {worker other : Worker}

theorem worksFor_of_idle {node : FlattenNode σ} (noWorkers : node.workers = [])
    (nothing : node.inFlight = []) : node.WorksFor asked client where
  apart := keepsKeysApart_of_idle noWorkers nothing
  workers := by
    intro worker isWorker
    rw [noWorkers] at isWorker
    cases isWorker
  waiters := by
    intro key waiters isWaiting
    rw [nothing] at isWaiting
    cases isWaiting

theorem WorksFor.mono (works : before.WorksFor asked client) (grows : asked ⊆ more) :
    before.WorksFor more client where
  apart := works.apart
  workers := fun worker isWorker => (works.workers worker isWorker).mono grows
  waiters := by
    intro key waiters isWaiting waiter isWaiter
    rcases works.waiters key waiters isWaiting waiter isWaiter with ⟨isAsked, notify⟩
    exact ⟨grows isAsked, notify⟩

/-! ### Busy workers -/

/-- What waits has a worker that has not yet taken the requests. -/
theorem KeepsKeysApart.exists_busy (apart : before.KeepsKeysApart) {key : FlattenKey}
    (notQuiet : ¬ before.IsQuiet key) :
    ∃ worker ∈ before.workers, Worker.isBusyWith key worker = true := by
  have isRunning : OrderedMap.contains key before.inFlight = true :=
    Option.isSome_iff_ne_none.mpr notQuiet
  have counted := apart.busy key
  rw [isRunning] at counted
  exact List.countP_pos_iff.mp (by rw [counted]; exact Nat.one_pos)

/-- A worker is busy only with what is being computed. -/
theorem KeepsKeysApart.not_isQuiet (apart : before.KeepsKeysApart) {key : FlattenKey}
    (isWorker : worker ∈ before.workers) (isBusy : Worker.isBusyWith key worker = true) :
    ¬ before.IsQuiet key := by
  intro isQuiet
  have counted := apart.busy key
  have positive := List.countP_pos_iff.mpr ⟨worker, isWorker, isBusy⟩
  rw [OrderedMap.contains, isQuiet, Option.isSome_none, Bool.toNat_false] at counted
  omega

/-- No other worker is busy with the same. -/
theorem KeepsKeysApart.not_isBusyWith (apart : before.KeepsKeysApart)
    (isWorker : before.workers[place]? = some worker) (isBusy : worker.isBusy = true)
    (isOther : other ∈ before.workers.eraseIdx place) :
    Worker.isBusyWith worker.key other = false := by
  have counted := (perm_cons_eraseIdx isWorker).countP_eq (Worker.isBusyWith worker.key)
  have isBusyWith : Worker.isBusyWith worker.key worker = true := by
    simp [Worker.isBusyWith, isBusy]
  have atMostOne := Bool.toNat_le (OrderedMap.contains worker.key before.inFlight)
  rw [apart.busy, List.countP_cons, isBusyWith] at counted
  have noOther : (before.workers.eraseIdx place).countP (Worker.isBusyWith worker.key) = 0 := by
    simp only [if_true] at counted
    omega
  exact Bool.eq_false_iff.mpr (List.countP_eq_zero.mp noOther other isOther)

theorem mem_eraseIdx_or_eq {items : List Worker} (isWorker : items[place]? = some worker)
    {changed : Worker} (isOther : other ∈ items.set place changed) :
    other ∈ items.eraseIdx place ∨ other = changed := by
  rcases List.mem_cons.mp ((set_perm_cons_eraseIdx isWorker changed).mem_iff.mp isOther) with
    isChanged | isRest
  · exact Or.inr isChanged
  · exact Or.inl isRest

/-! ### Steps of workers -/

/-- A worker that stays as busy as it was keeps to what was asked. -/
theorem WorksFor.setStage (works : before.WorksFor asked client)
    (isWorker : before.workers[place]? = some worker) {stage : WorkerStage}
    (workers : after.workers = before.workers.set place { worker with stage := stage })
    (inFlight : after.inFlight = before.inFlight)
    (others : ∀ other ∈ before.workers.eraseIdx place, other.WorksFor asked client after)
    (fits : stage.Fits asked client after worker.key worker.request)
    (asBusy : ({ worker with stage := stage } : Worker).isBusy = worker.isBusy) :
    after.WorksFor asked client where
  apart := works.apart.setStage isWorker workers inFlight asBusy
  workers := by
    intro other isOther
    rw [workers] at isOther
    rcases mem_eraseIdx_or_eq isWorker isOther with isRest | isChanged
    · exact others other isRest
    · rw [isChanged]
      exact ⟨(works.workers worker (List.mem_of_getElem? isWorker)).isAsked, fits⟩
  waiters := by
    rw [inFlight]
    exact works.waiters

/-- The workers at other places go on as they were. -/
theorem WorksFor.others (works : before.WorksFor asked client) (same : before.IsSame after)
    (lists : ∀ key, after.listed? key = before.listed? key) (place : Nat) :
    ∀ other ∈ before.workers.eraseIdx place, other.WorksFor asked client after := by
  intro other isOther
  exact (works.workers other (List.mem_of_mem_eraseIdx isOther)).of_same same fun _ => lists _

/-- Nothing happens to the work of a node: only what it has cached or stored may differ. -/
theorem WorksFor.of_work (works : before.WorksFor asked client) (same : before.IsSame after)
    (lists : ∀ key, after.listed? key = before.listed? key)
    (workers : after.workers = before.workers) (inFlight : after.inFlight = before.inFlight) :
    after.WorksFor asked client where
  apart := by
    refine ⟨?_, fun key => ?_⟩
    · rw [inFlight]
      exact works.apart.ordered
    · rw [workers, inFlight]
      exact works.apart.busy key
  workers := by
    intro worker isWorker
    rw [workers] at isWorker
    exact (works.workers worker isWorker).of_same same fun _ => lists _
  waiters := by
    rw [inFlight]
    exact works.waiters

/-- What waits under other keys than the one that is taken has waited before. -/
theorem WorksFor.find?_takeWaiters (works : before.WorksFor asked client) {key : FlattenKey}
    {waiters : List Waiter}
    (isWaiting : OrderedMap.find? key (before.takeWaiters worker.key).2.inFlight = some waiters) :
    key ≠ worker.key ∧ OrderedMap.find? key before.inFlight = some waiters := by
  have isThere : OrderedMap.find? key (OrderedMap.erase worker.key before.inFlight) =
      some waiters := isWaiting
  by_cases same : key = worker.key
  · rw [same, OrderedMap.find?_erase_self _ works.apart.ordered] at isThere
    cases isThere
  · rw [OrderedMap.find?_erase_of_ne same] at isThere
    exact ⟨same, isThere⟩

/-- Whoever is to be told by a worker that takes the waiting requests is the client. -/
theorem WorksFor.owed_takeWaiters (works : before.WorksFor asked client) (key : FlattenKey) :
    ∀ entry ∈ reportsFor (before.takeWaiters key).1,
      (entry.1, key) ∈ asked ∧ entry.2 = client := by
  intro entry isEntry
  rcases List.mem_flatMap.mp isEntry with ⟨waiter, isWaiter, isNotified⟩
  rcases List.mem_map.mp isNotified with ⟨target, isTarget, sameEntry⟩
  rw [← sameEntry]
  cases found : OrderedMap.find? key before.inFlight with
  | none => simp [takeWaiters, found] at isWaiter
  | some waiters =>
      rw [takeWaiters, found, Option.getD_some] at isWaiter
      rcases works.waiters key waiters found waiter isWaiter with ⟨isAsked, notify⟩
      rw [notify] at isTarget
      exact ⟨isAsked, List.mem_singleton.mp isTarget⟩

/-- What a worker computes is listed under its request, and nothing else changes. -/
theorem WorksFor.computed (works : before.WorksFor asked client) (steady : before.IsSteady)
    (canonical : ∀ entry ∈ asked, entry.2.IsCanonical) {table : Option Table}
    (isWorker : before.workers[place]? = some worker) (stage : worker.stage = .loaded table) :
    let computed := before.compute now worker table
    let after := computed.2.setStage place worker (.computed computed.1)
    before.GoesOn asked none after ∧ after.IsSteady ∧ after.WorksFor asked client := by
  have isThere := List.mem_of_getElem? isWorker
  have workerWorks := works.workers worker isThere
  have fits := workerWorks.stage
  rw [stage] at fits
  cases fits
  have isBusy : worker.isBusy = true := by
    simp only [Worker.isBusy, stage]
  have notQuiet : ¬ before.IsQuiet worker.key := by
    apply works.apart.not_isQuiet isThere
    simp [Worker.isBusyWith, isBusy]
  rcases steady.computesAs (canonical _ workerWorks.isAsked) now with
    ⟨result, cache, content, isResult, same, steadyAfter, computesAs⟩
  rw [isResult]
  let computed : FlattenNode σ := { before with cache := cache, content := content }
  have sameAfter : before.IsSame (computed.setStage place worker (.computed result)) :=
    ⟨same.id, same.tables, same.store, same.settings⟩
  have otherLists : ∀ key, key ≠ worker.key → computed.listed? key = before.listed? key := by
    intro key otherKey
    cases computesAs with
    | flattened canFlatten lists => exact (lists key).trans (if_neg otherKey)
    | failed cannotFlatten notListed lists => exact lists key
  refine ⟨⟨sameAfter, ?_, ?_⟩, steadyAfter.of_keepsLists ⟨rfl, rfl, rfl, rfl⟩ (.refl _), ?_⟩
  · intro key
    by_cases isKey : key = worker.key
    · cases computesAs with
      | flattened canFlatten lists =>
          refine Or.inr ⟨worker.request, isKey ▸ workerWorks.isAsked, ?_⟩
          exact (lists key).trans (if_pos isKey)
      | failed cannotFlatten notListed lists => exact Or.inl (lists key)
    · exact Or.inl (otherLists key isKey)
  · intro key _ isQuiet
    have otherKey : key ≠ worker.key := by
      intro isKey
      exact notQuiet (isKey ▸ isQuiet)
    exact ⟨isQuiet, otherLists key otherKey⟩
  · refine works.setStage isWorker rfl rfl ?_ ?_ ?_
    · intro other isOther
      refine (works.workers other (List.mem_of_mem_eraseIdx isOther)).of_same sameAfter ?_
      intro otherIsBusy
      refine otherLists other.key fun isKey => ?_
      have notBusyWith := works.apart.not_isBusyWith isWorker isBusy isOther
      simp [Worker.isBusyWith, otherIsBusy, isKey] at notBusyWith
    · cases computesAs with
      | flattened canFlatten lists =>
          refine .computed (.flattened ((lists worker.key).trans (if_pos rfl))) ?_
          intro id isId
          cases isId
          rfl
      | failed cannotFlatten notListed lists =>
          refine .computed (.failed ((lists worker.key).trans notListed) ?_) ?_
          · exact fun canFlatten => cannotFlatten ((same.canFlatten_iff _).mp canFlatten)
          · intro id isId
            cases isId
    · rw [isBusy]
      rfl

/-- Whatever a worker does, its node goes on to work for the client. -/
theorem WorksFor.workerStep (works : before.WorksFor asked client) (steady : before.IsSteady)
    (canonical : ∀ entry ∈ asked, entry.2.IsCanonical) {sent : Option Delivery}
    (step : WorkerStep now place before sent after) :
    before.GoesOn asked none after ∧ after.IsSteady ∧ after.WorksFor asked client := by
  cases step with
  | absent isAbsent => exact ⟨.refl before, steady, works⟩
  | @read worker isWorker stage =>
      have goesOn : before.GoesOn asked none (before.setStage place worker
          (.loaded (OrderedMap.find? worker.key.source before.tables))) :=
        .of_lists ⟨rfl, rfl, rfl, rfl⟩ (fun _ => rfl) fun _ _ isQuiet => isQuiet
      refine ⟨goesOn, steady.of_keepsLists goesOn.toIsSame (.refl _), ?_⟩
      refine works.setStage isWorker rfl rfl
        (works.others goesOn.toIsSame (fun _ => rfl) place) .loaded ?_
      simp only [Worker.isBusy, stage]
  | @computed worker table isWorker stage =>
      rcases works.computed steady canonical isWorker stage with ⟨goesOn, steadyAfter, worksAfter⟩
      exact ⟨goesOn, steadyAfter, worksAfter⟩
  | @took worker result isWorker stage =>
      have isBusy : worker.isBusy = true := by
        simp only [Worker.isBusy, stage]
      have stillQuiet : ∀ key, (none : Option FlattenKey) ≠ some key → before.IsQuiet key →
          (before.takeWaiters worker.key).2.IsQuiet key := by
        intro key _ isQuiet
        by_contra notQuiet
        rcases Option.ne_none_iff_exists'.mp notQuiet with ⟨waiters, isWaiting⟩
        have wasWaiting := (works.find?_takeWaiters isWaiting).2
        rw [isQuiet] at wasWaiting
        cases wasWaiting
      have goesOn : before.GoesOn asked none
          ((before.takeWaiters worker.key).2.setStage place worker
            (.reporting result (reportsFor (before.takeWaiters worker.key).1))) :=
        .of_lists ⟨rfl, rfl, rfl, rfl⟩ (fun _ => rfl) stillQuiet
      refine ⟨goesOn, steady.of_keepsLists goesOn.toIsSame (.refl _),
        works.apart.took isWorker rfl rfl isBusy rfl, ?_, ?_⟩
      · intro other isOther
        rcases mem_eraseIdx_or_eq isWorker isOther with isRest | isChanged
        · exact works.others goesOn.toIsSame (fun _ => rfl) place other isRest
        · rw [isChanged]
          exact ⟨(works.workers worker (List.mem_of_getElem? isWorker)).isAsked,
            .reporting (works.owed_takeWaiters worker.key)⟩
      · intro key waiters isWaiting
        exact works.waiters key waiters (works.find?_takeWaiters isWaiting).2
  | @reported worker result request target remaining isWorker stage =>
      have fits := (works.workers worker (List.mem_of_getElem? isWorker)).stage
      rw [stage] at fits
      have goesOn : before.GoesOn asked none
          (before.setStage place worker (.reporting result remaining)) :=
        .of_lists ⟨rfl, rfl, rfl, rfl⟩ (fun _ => rfl) fun _ _ isQuiet => isQuiet
      refine ⟨goesOn, steady.of_keepsLists goesOn.toIsSame (.refl _), ?_⟩
      cases fits with
      | reporting owed =>
          refine works.setStage isWorker rfl rfl
            (works.others goesOn.toIsSame (fun _ => rfl) place) (.reporting ?_) ?_
          · exact fun entry isEntry => owed entry (List.mem_cons_of_mem _ isEntry)
          · simp only [Worker.isBusy, stage]
  | @ended worker result isWorker stage =>
      have notBusy : worker.isBusy = false := by
        simp only [Worker.isBusy, stage]
      have goesOn : before.GoesOn asked none
          { before with workers := before.workers.eraseIdx place } :=
        .of_lists ⟨rfl, rfl, rfl, rfl⟩ (fun _ => rfl) fun _ _ isQuiet => isQuiet
      exact ⟨goesOn, steady.of_keepsLists goesOn.toIsSame (.refl _),
        works.apart.ended isWorker notBusy rfl rfl,
        works.others goesOn.toIsSame (fun _ => rfl) place, works.waiters⟩

/-- A report that a worker sends goes to the client. -/
theorem WorksFor.target_of_sent (works : before.WorksFor asked client) {delivery : Delivery}
    (step : WorkerStep now place before (some delivery) after) :
    delivery.target = client ∧ delivery.report.node = before.id ∧
      ∃ key, (delivery.report.request, key) ∈ asked := by
  cases step with
  | @reported worker result request target remaining isWorker stage =>
      have fits := (works.workers worker (List.mem_of_getElem? isWorker)).stage
      rw [stage] at fits
      cases fits with
      | reporting owed =>
          rcases owed (request, target) List.mem_cons_self with ⟨isAsked, isClient⟩
          exact ⟨isClient, rfl, worker.key, isAsked⟩

/-! ## Debts -/

/-- A report on a request will still be sent to a target. -/
def Owes (node : FlattenNode σ) (request : RequestId) (target : NodeId) : Prop :=
  (∃ key waiters, OrderedMap.find? key node.inFlight = some waiters ∧
    (request, target) ∈ reportsFor waiters) ∨
  ∃ worker ∈ node.workers, ∃ result remaining,
    worker.stage = .reporting result remaining ∧ (request, target) ∈ remaining

/-- A worker that has nothing to report moves on, and all debts stay. -/
theorem Owes.setStage {request : RequestId} {target : NodeId} (owes : before.Owes request target)
    (isWorker : before.workers[place]? = some worker) {changed : Worker}
    (workers : after.workers = before.workers.set place changed)
    (inFlight : after.inFlight = before.inFlight)
    (notOwed : ∀ result remaining, worker.stage = .reporting result remaining →
      (request, target) ∈ remaining → ∃ later,
        changed.stage = .reporting result later ∧ (request, target) ∈ later) :
    after.Owes request target := by
  rcases owes with waits | ⟨debtor, isDebtor, result, remaining, stage, isOwed⟩
  · left
    rw [inFlight]
    exact waits
  · right
    rw [workers]
    rcases List.mem_cons.mp ((perm_cons_eraseIdx isWorker).mem_iff.mp isDebtor) with
      isChanged | isOther
    · rcases notOwed result remaining (isChanged ▸ stage) isOwed with ⟨later, laterStage, stillOwed⟩
      exact ⟨changed, (set_perm_cons_eraseIdx isWorker _).mem_iff.mpr List.mem_cons_self, result,
        later, laterStage, stillOwed⟩
    · exact ⟨debtor, (set_perm_cons_eraseIdx isWorker _).mem_iff.mpr
        (List.mem_cons_of_mem _ isOther), result, remaining, stage, isOwed⟩

/-- A debt stays until its report is sent. -/
theorem Owes.workerStep {request : RequestId} {target : NodeId} (owes : before.Owes request target)
    {sent : Option Delivery} (step : WorkerStep now place before sent after) :
    after.Owes request target ∨
      ∃ result, sent = some ⟨target, ⟨request, before.id, result⟩⟩ := by
  cases step with
  | absent isAbsent => exact Or.inl owes
  | read isWorker stage =>
      refine Or.inl (owes.setStage isWorker rfl rfl ?_)
      intro result remaining isReporting
      rw [stage] at isReporting
      cases isReporting
  | @computed worker table isWorker stage =>
      rcases before.compute_outcome now worker table with ⟨result, cache, content, isResult, _⟩
      rw [isResult]
      refine Or.inl (owes.setStage isWorker rfl rfl ?_)
      intro result remaining isReporting
      rw [stage] at isReporting
      cases isReporting
  | @took worker result isWorker stage =>
      left
      rcases owes with ⟨key, waiters, isWaiting, isOwed⟩ |
        ⟨debtor, isDebtor, told, remaining, debtorStage, isOwed⟩
      · by_cases same : key = worker.key
        · right
          refine ⟨_, (set_perm_cons_eraseIdx isWorker _).mem_iff.mpr List.mem_cons_self, result,
            _, rfl, ?_⟩
          rw [same] at isWaiting
          rw [takeWaiters, isWaiting]
          exact isOwed
        · exact Or.inl
            ⟨key, waiters, (OrderedMap.find?_erase_of_ne same _).trans isWaiting, isOwed⟩
      · right
        refine ⟨debtor, (set_perm_cons_eraseIdx isWorker _).mem_iff.mpr ?_, told, remaining,
          debtorStage, isOwed⟩
        rcases List.mem_cons.mp ((perm_cons_eraseIdx isWorker).mem_iff.mp isDebtor) with
          isChanged | isOther
        · rw [isChanged, stage] at debtorStage
          cases debtorStage
        · exact List.mem_cons_of_mem _ isOther
  | @reported worker result next nextTarget remaining isWorker stage =>
      by_cases isNext : (request, target) = (next, nextTarget)
      · cases isNext
        exact Or.inr ⟨result, rfl⟩
      · refine Or.inl (owes.setStage isWorker rfl rfl ?_)
        intro told owed isReporting isOwed
        rw [stage] at isReporting
        cases isReporting
        rcases List.mem_cons.mp isOwed with isFirst | isLater
        · exact absurd isFirst isNext
        · exact ⟨remaining, rfl, isLater⟩
  | @ended worker result isWorker stage =>
      left
      rcases owes with waits | ⟨debtor, isDebtor, told, remaining, debtorStage, isOwed⟩
      · exact Or.inl waits
      · rcases List.mem_cons.mp ((perm_cons_eraseIdx isWorker).mem_iff.mp isDebtor) with
          isEnded | isOther
        · rw [isEnded, stage] at debtorStage
          cases debtorStage
          cases isOwed
        · exact Or.inr ⟨debtor, isOther, told, remaining, debtorStage, isOwed⟩

/-- Nobody comes to be owed a report when a worker moves to another stage. -/
theorem Owes.of_setStage {request : RequestId} {target : NodeId} (owes : after.Owes request target)
    (isWorker : before.workers[place]? = some worker) {changed : Worker}
    (workers : after.workers = before.workers.set place changed)
    (waited : ∀ key waiters, OrderedMap.find? key after.inFlight = some waiters →
      OrderedMap.find? key before.inFlight = some waiters)
    (wasOwed : ∀ result remaining, changed.stage = .reporting result remaining →
      (request, target) ∈ remaining → before.Owes request target) :
    before.Owes request target := by
  rcases owes with ⟨key, waiters, isWaiting, isOwed⟩ |
    ⟨debtor, isDebtor, result, remaining, stage, isOwed⟩
  · exact Or.inl ⟨key, waiters, waited key waiters isWaiting, isOwed⟩
  · rw [workers] at isDebtor
    rcases mem_eraseIdx_or_eq isWorker isDebtor with isRest | isChanged
    · exact Or.inr ⟨debtor, List.mem_of_mem_eraseIdx isRest, result, remaining, stage, isOwed⟩
    · rw [isChanged] at stage
      exact wasOwed result remaining stage isOwed

/-- What is owed after a step of a worker was owed before it, and so was what it has sent. -/
theorem WorksFor.owes_of_workerStep (works : before.WorksFor asked client) {request : RequestId}
    {target : NodeId} {sent : Option Delivery} (step : WorkerStep now place before sent after)
    (owes : after.Owes request target ∨
      ∃ result, sent = some ⟨target, ⟨request, before.id, result⟩⟩) :
    before.Owes request target := by
  rcases owes with owes | ⟨told, isSent⟩
  · cases step with
    | absent isAbsent => exact owes
    | read isWorker stage =>
        refine owes.of_setStage isWorker rfl (fun _ _ isWaiting => isWaiting) ?_
        intro result remaining isReporting
        cases isReporting
    | @computed worker table isWorker stage =>
        rcases before.compute_outcome now worker table with ⟨result, cache, content, isResult, _⟩
        rw [isResult] at owes
        refine owes.of_setStage isWorker rfl (fun _ _ isWaiting => isWaiting) ?_
        intro result remaining isReporting
        cases isReporting
    | @took worker result isWorker stage =>
        refine owes.of_setStage isWorker rfl
          (fun _ _ isWaiting => (works.find?_takeWaiters isWaiting).2) ?_
        intro told remaining isReporting isOwed
        cases isReporting
        cases found : OrderedMap.find? worker.key before.inFlight with
        | none => simp [takeWaiters, found, reportsFor] at isOwed
        | some waiters =>
            rw [takeWaiters, found, Option.getD_some] at isOwed
            exact Or.inl ⟨worker.key, waiters, found, isOwed⟩
    | @reported worker result next nextTarget remaining isWorker stage =>
        refine owes.of_setStage isWorker rfl (fun _ _ isWaiting => isWaiting) ?_
        intro told later isReporting isOwed
        cases isReporting
        exact Or.inr ⟨worker, List.mem_of_getElem? isWorker, _, _, stage,
          List.mem_cons_of_mem _ isOwed⟩
    | ended isWorker stage =>
        rcases owes with waits | ⟨debtor, isDebtor, isReporting⟩
        · exact Or.inl waits
        · exact Or.inr ⟨debtor, List.mem_of_mem_eraseIdx isDebtor, isReporting⟩
  · cases step with
    | @reported worker result next nextTarget remaining isWorker stage =>
        cases isSent
        exact Or.inr ⟨worker, List.mem_of_getElem? isWorker, _, _, stage, List.mem_cons_self⟩
    | absent | read | computed | took | ended => cases isSent

/-- Reports are owed only on requests that were made, and only to the client. -/
theorem WorksFor.isAsked_of_owes (works : before.WorksFor asked client) {request : RequestId}
    {target : NodeId} (owes : before.Owes request target) :
    (∃ key, (request, key) ∈ asked) ∧ target = client := by
  rcases owes with ⟨key, waiters, isWaiting, isOwed⟩ | ⟨debtor, isDebtor, _, _, stage, isOwed⟩
  · rcases List.mem_flatMap.mp isOwed with ⟨waiter, isWaiter, isNotified⟩
    rcases List.mem_map.mp isNotified with ⟨notified, isTarget, sameEntry⟩
    cases sameEntry
    rcases works.waiters key waiters isWaiting waiter isWaiter with ⟨isAsked, notify⟩
    rw [notify] at isTarget
    exact ⟨⟨key, isAsked⟩, List.mem_singleton.mp isTarget⟩
  · have fits := (works.workers debtor isDebtor).stage
    rw [stage] at fits
    cases fits with
    | reporting owed => exact ⟨⟨debtor.key, (owed _ isOwed).1⟩, (owed _ isOwed).2⟩

/-- A node without workers owes nothing. -/
theorem WorksFor.not_owes (works : before.WorksFor asked client) (noWorkers : before.workers = [])
    (request : RequestId) (target : NodeId) : ¬ before.Owes request target := by
  rintro (⟨key, waiters, isWaiting, _⟩ | ⟨worker, isWorker, _⟩)
  · have notQuiet : ¬ before.IsQuiet key := by
      rw [IsQuiet, isWaiting]
      exact Option.some_ne_none waiters
    rcases works.apart.exists_busy notQuiet with ⟨worker, isWorker, _⟩
    rw [noWorkers] at isWorker
    cases isWorker
  · rw [noWorkers] at isWorker
    cases isWorker

/-! ## Requests -/

/-- A request changes what is being computed for its key, and nothing else. -/
structure Accepts (before after : FlattenNode σ) (request : FlattenRequest) : Prop
    extends before.IsSame after where
  cache : after.cache = before.cache
  elsewhere : ∀ key, key ≠ request.key →
    OrderedMap.find? key after.inFlight = OrderedMap.find? key before.inFlight
  workers : after.workers = before.workers ∨
    after.workers = before.workers ++ [⟨request.key, request.id, .started⟩]

theorem accepts_accept (node : FlattenNode σ) (request : FlattenRequest) :
    node.Accepts (node.accept request) request := by
  cases found : OrderedMap.find? request.key node.inFlight with
  | some waiters =>
      simp only [accept, found]
      exact ⟨⟨rfl, rfl, rfl, rfl⟩, rfl,
        fun key otherKey => OrderedMap.find?_insert_of_ne otherKey _ _, Or.inl rfl⟩
  | none =>
      simp only [accept, found]
      exact ⟨⟨rfl, rfl, rfl, rfl⟩, rfl,
        fun key otherKey => OrderedMap.find?_insert_of_ne otherKey _ _, Or.inr rfl⟩

theorem Accepts.lists {request : FlattenRequest} (accepts : before.Accepts after request)
    (key : FlattenKey) : after.listed? key = before.listed? key :=
  accepts.toIsSame.listed? (congrArg FlattenCache.registry accepts.cache) key

theorem Accepts.goesOn {request : FlattenRequest} (accepts : before.Accepts after request) :
    before.GoesOn asked (some request.key) after :=
  .of_lists accepts.toIsSame accepts.lists fun key notRequested isQuiet =>
    (accepts.elsewhere key fun same => notRequested (congrArg some same.symm)).trans isQuiet

/-- One more request waits, and is owed a report. -/
theorem WorksFor.wait (works : before.WorksFor asked client) {request : FlattenRequest}
    (accepts : before.Accepts after request) {held : List Waiter}
    (isAsked : (request.id, request.key) ∈ asked) (notify : request.notify = [client])
    (heldBefore : ∀ waiter ∈ held, (waiter.request, request.key) ∈ asked ∧
      waiter.notify = [client])
    (isThere : OrderedMap.find? request.key after.inFlight =
      some (held ++ [⟨request.id, request.notify⟩]))
    (apart : after.KeepsKeysApart) :
    after.WorksFor asked client ∧ after.Owes request.id client := by
  have isReported :
      (request.id, client) ∈ reportsFor (held ++ [⟨request.id, request.notify⟩]) := by
    rw [reportsFor, List.flatMap_append, List.flatMap_singleton, notify]
    exact List.mem_append_right _ List.mem_cons_self
  refine ⟨⟨apart, ?_, ?_⟩, Or.inl ⟨request.key, _, isThere, isReported⟩⟩
  · intro worker isWorker
    have wasThere : ∀ worker ∈ before.workers, worker.WorksFor asked client after := by
      intro worker isWorker
      exact (works.workers worker isWorker).of_same accepts.toIsSame fun _ => accepts.lists _
    rcases accepts.workers with sameWorkers | oneMore
    · exact wasThere worker (sameWorkers ▸ isWorker)
    · rw [oneMore] at isWorker
      rcases List.mem_append.mp isWorker with isOld | isNew
      · exact wasThere worker isOld
      · rw [List.mem_singleton.mp isNew]
        exact ⟨isAsked, .started⟩
  · intro key waiters isWaiting waiter isWaiter
    by_cases same : key = request.key
    · rw [same, isThere] at isWaiting
      cases isWaiting
      rcases List.mem_append.mp isWaiter with wasHeld | isNew
      · exact same ▸ heldBefore waiter wasHeld
      · rw [List.mem_singleton.mp isNew, same]
        exact ⟨isAsked, notify⟩
    · rw [accepts.elsewhere key same] at isWaiting
      exact works.waiters key waiters isWaiting waiter isWaiter

/-- A node that accepts a request of its client works for it and owes it a report. -/
theorem WorksFor.accept (works : before.WorksFor asked client) {request : FlattenRequest}
    (isAsked : (request.id, request.key) ∈ asked) (notify : request.notify = [client]) :
    (before.accept request).WorksFor asked client ∧
      (before.accept request).Owes request.id client := by
  have accepts := before.accepts_accept request
  cases found : OrderedMap.find? request.key before.inFlight with
  | some waiters =>
      refine works.wait accepts isAsked notify (works.waiters request.key waiters found) ?_ ?_
      · simp only [FlattenNode.accept, found]
        exact OrderedMap.find?_insert_self _ _ _
      · simp only [FlattenNode.accept, found]
        exact works.apart.attached found rfl rfl
  | none =>
      have noneHeld : ∀ waiter ∈ ([] : List Waiter),
          (waiter.request, request.key) ∈ asked ∧ waiter.notify = [client] := by
        intro waiter isWaiter
        cases isWaiter
      refine works.wait accepts isAsked notify noneHeld ?_ ?_
      · simp only [FlattenNode.accept, found]
        exact OrderedMap.find?_insert_self _ _ _
      · simp only [FlattenNode.accept, found]
        exact works.apart.began found rfl rfl

end Work

end FlattenNode

end Unnest
