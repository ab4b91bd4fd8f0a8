import Unnest.Cluster.Node
import Unnest.Proofs.CacheAnswers

/-!
# What happens on a node

A history is a node together with everything that has happened on it, so that one can speak of the
computations of a node and of the reports that it has sent.  Requests, steps of workers and changes
of tables may come in any order.  The relation `NodeHistory.Follows` lists what one event can do.
-/

namespace Unnest

variable {σ : Type}

/-! ## Names -/

namespace Registry

/-- Between two states of a registry nothing is registered, and names may be forgotten. -/
structure OnlyForgets (before after : Registry) : Prop where
  nameBound : after.nameBound = before.nameBound
  byName : after.byName.Sublist before.byName

theorem OnlyForgets.refl (registry : Registry) : registry.OnlyForgets registry :=
  ⟨rfl, List.Sublist.refl _⟩

theorem RegistersNothing.onlyForgets {before after : Registry}
    (registersNothing : before.RegistersNothing after) : before.OnlyForgets after where
  nameBound := registersNothing.nameBound
  byName := by
    rw [registersNothing.byName]

theorem get_onlyForgets (registry : Registry) (now : Nat) (id : FlattenId) :
    registry.OnlyForgets (registry.get now id).2 := by
  unfold get
  cases found : OrderedMap.find? id registry.byName with
  | none => exact .refl registry
  | some entry =>
      by_cases isExpired : registry.isExpired now entry = true
      · simp only [isExpired, if_true]
        exact ⟨rfl, OrderedMap.erase_sublist id registry.byName⟩
      · simp only [isExpired]
        exact .refl registry

end Registry

theorem FlattenNode.validId?_outcome (node : FlattenNode σ) (now : Nat) (table flattenBy : String) :
    ∃ cache, (node.validId? now table flattenBy).2 = { node with cache := cache } ∧
      node.cache.registry.OnlyForgets cache.registry := by
  unfold validId?
  cases found : OrderedMap.find? table node.tables with
  | none => exact ⟨node.cache, rfl, .refl node.cache.registry⟩
  | some content =>
      refine ⟨(node.cache.validId? now content flattenBy).2, rfl, ?_⟩
      unfold FlattenCache.validId?
      cases accepted : readTarget flattenBy with
      | error cause => exact .refl node.cache.registry
      | ok target =>
          have recent := node.cache.findRecent_outcome now ⟨content.name, target.toText⟩
            content.firstRows
          exact recent.2.1.onlyForgets

/-- What a worker can compute from the table that it has looked up, with the registry after it. -/
inductive FlattenNode.Computes (node : FlattenNode σ) (now : Nat) (worker : Worker) :
    Option Table → NodeResult → Registry → Prop where
  | failed {table : Option Table} {reason : String} {registry : Registry}
      (onlyForgets : node.cache.registry.OnlyForgets registry) :
      Computes node now worker table (.failed reason) registry
  | flattened {table : Table} {flattened : FlattenedTable} {registry : Registry}
      (sameId : flattened.id = worker.request)
      (sameRows : flattened.originalFirstRows = table.firstRows)
      (onlyForgets : node.cache.registry.OnlyForgets registry) :
      Computes node now worker (some table) (.flattened worker.request)
        (registry.register now flattened)

theorem FlattenNode.Computes.eq_request {node : FlattenNode σ} {now : Nat} {worker : Worker}
    {table : Option Table} {id : FlattenId} {registry : Registry}
    (computes : node.Computes now worker table (.flattened id) registry) : id = worker.request := by
  cases computes with
  | flattened sameId sameRows onlyForgets => rfl

theorem FlattenNode.compute_outcome (node : FlattenNode σ) (now : Nat) (worker : Worker)
    (table : Option Table) :
    ∃ result cache content,
      node.compute now worker table = (result, { node with cache := cache, content := content }) ∧
      node.Computes now worker table result cache.registry := by
  unfold compute
  cases table with
  | none => exact ⟨_, node.cache, node.content, rfl, .failed (.refl node.cache.registry)⟩
  | some table =>
      obtain ⟨answer, cache, left, isAnswer, _, answers⟩ :=
        node.cache.answers_flatten (node.store.map KeyedStore.toTableStore) now node.content table
          worker.key.flattenBy worker.request
      simp only [isAnswer]
      cases answer with
      | error cause =>
          exact ⟨_, cache, left, rfl, .failed answers.registersNothing.onlyForgets⟩
      | ok handedOut =>
          obtain ⟨sameId, sameRows, pruned, registersNothing, registered⟩ := answers.handedOut
          refine ⟨.flattened worker.request, cache, left, by simp only [sameId], ?_⟩
          rw [registered]
          exact .flattened sameId sameRows registersNothing.onlyForgets

/-! ## Histories -/

/-- Something that happens on a node. -/
inductive NodeEvent (σ : Type) where
  | accepted (request : FlattenRequest)
  /-- The worker at a place makes a step; if it sends a report, this reaches its target or is
  dropped. -/
  | worked (now place : Nat) (reaches : Bool)
  | putTable (table : Table)
  | removedTable (name : String)
  | probed (now : Nat) (table flattenBy : String)
  | lookedUp (now : Nat) (id : FlattenId)
  /-- Somebody else has changed what is in the store. -/
  | storeChanged (content : σ)

/-- A computation, which goes back to the request that started it. -/
structure Computation where
  starter : FlattenRequest
  /-- The moment when it was started. -/
  begun : Nat
  /-- The moment when its worker looked up the table, and what it found. -/
  read : Option (Nat × Option Table) := none
  result : Option NodeResult := none

/-- A report that a worker has sent, and whether it has reached its target. -/
structure SentReport where
  computation : Nat
  key : FlattenKey
  delivery : Delivery
  hasArrived : Bool
deriving DecidableEq

/-- A node and what has happened on it.  A moment is the number of events before it. -/
structure NodeHistory (σ : Type) where
  node : FlattenNode σ
  /-- The node before each event. -/
  past : List (FlattenNode σ) := []
  /-- The requests that were accepted, each with its moment. -/
  accepted : List (Nat × FlattenRequest) := []
  /-- The computations in the order they were started. -/
  computations : List Computation := []
  /-- The computation of each worker. -/
  running : List Nat := []
  sent : List SentReport := []

namespace NodeHistory

/-- A new node without tables. -/
def new (id : NodeId) (settings : FlattenSettings) (bounds : CacheSettings)
    (store : Option (KeyedStore σ)) (content : σ) : NodeHistory σ where
  node := { id := id, cache := .ofSettings settings bounds, store := store, content := content }

/-- Go on with another node. -/
def goOn (history : NodeHistory σ) (node : FlattenNode σ) : NodeHistory σ :=
  { history with node := node, past := history.past ++ [history.node] }

/-- Note something about a computation. -/
def note (history : NodeHistory σ) (number : Nat) (change : Computation → Computation) :
    NodeHistory σ :=
  { history with computations := history.computations.modify number change }

theorem getElem?_note {history : NodeHistory σ} {number : Nat} {computation : Computation}
    (isComputation : history.computations[number]? = some computation)
    (change : Computation → Computation) :
    (history.note number change).computations[number]? = some (change computation) := by
  rw [note, List.getElem?_modify_eq, isComputation]
  rfl

/-- Accept a request. -/
def accept (history : NodeHistory σ) (request : FlattenRequest) : NodeHistory σ :=
  let moment := history.past.length
  let next :=
    { history.goOn (history.node.accept request) with
      accepted := history.accepted ++ [(moment, request)] }
  match OrderedMap.find? request.key history.node.inFlight with
  | some _ => next
  | none =>
      { next with
        computations := history.computations ++ [{ starter := request, begun := moment }]
        running := history.running ++ [history.computations.length] }

/-- Run the worker at a place. -/
def work (history : NodeHistory σ) (now place : Nat) (reaches : Bool) : NodeHistory σ :=
  let (delivery, node) := history.node.runWorker now place
  let next := history.goOn node
  match history.node.workers[place]?, history.running[place]? with
  | some worker, some number =>
      match worker.stage with
      | .started =>
          let found := OrderedMap.find? worker.key.source history.node.tables
          next.note number fun computation =>
            { computation with read := some (history.past.length, found) }
      | .loaded table =>
          next.note number fun computation =>
            { computation with result := some (history.node.compute now worker table).1 }
      | .computed _ => next
      | .reporting _ (_ :: _) =>
          let reports := delivery.toList.map fun delivery =>
            { computation := number, key := worker.key, delivery, hasArrived := reaches }
          { next with sent := history.sent ++ reports }
      | .reporting _ [] => { next with running := history.running.eraseIdx place }
  | _, _ => next

/-- The history after an event. -/
def after (history : NodeHistory σ) : NodeEvent σ → NodeHistory σ
  | .accepted request => history.accept request
  | .worked now place reaches => history.work now place reaches
  | .putTable table => history.goOn (history.node.putTable table)
  | .removedTable name => history.goOn (history.node.removeTable name)
  | .probed now table flattenBy => history.goOn (history.node.validId? now table flattenBy).2
  | .lookedUp now id => history.goOn (history.node.flattened? now id).2
  | .storeChanged content => history.goOn { history.node with content := content }

/-- The history after events in any order. -/
def run (history : NodeHistory σ) (events : List (NodeEvent σ)) : NodeHistory σ :=
  events.foldl after history

theorem run_append_singleton (history : NodeHistory σ) (events : List (NodeEvent σ))
    (event : NodeEvent σ) : history.run (events ++ [event]) = (history.run events).after event :=
  List.foldl_concat after history event events

/-- What one event can do. -/
inductive Follows (before : NodeHistory σ) : NodeHistory σ → Prop where
  | attached {request : FlattenRequest} {waiters : List Waiter}
      (isRunning : OrderedMap.find? request.key before.node.inFlight = some waiters) :
      Follows before
        { before.goOn
            { before.node with
              inFlight := OrderedMap.insert request.key
                (waiters ++ [⟨request.id, request.notify⟩]) before.node.inFlight
              mergedCount := before.node.mergedCount + 1 } with
          accepted := before.accepted ++ [(before.past.length, request)] }
  | began {request : FlattenRequest}
      (isNew : OrderedMap.find? request.key before.node.inFlight = none) :
      Follows before
        { before.goOn
            { before.node with
              inFlight := OrderedMap.insert request.key
                [⟨request.id, request.notify⟩] before.node.inFlight
              workers := before.node.workers ++ [⟨request.key, request.id, .started⟩]
              startedCount := before.node.startedCount + 1 } with
          accepted := before.accepted ++ [(before.past.length, request)]
          computations := before.computations ++
            [{ starter := request, begun := before.past.length }]
          running := before.running ++ [before.computations.length] }
  | read {place number : Nat} {worker : Worker}
      (isWorker : before.node.workers[place]? = some worker)
      (isRunning : before.running[place]? = some number) (stage : worker.stage = .started) :
      Follows before
        ((before.goOn
            (before.node.setStage place worker
              (.loaded (OrderedMap.find? worker.key.source before.node.tables)))).note number
          fun computation =>
            { computation with
              read := some (before.past.length,
                OrderedMap.find? worker.key.source before.node.tables) })
  | computed {now place number : Nat} {worker : Worker} {table : Option Table}
      {result : NodeResult} {cache : FlattenCache} {content : σ}
      (isWorker : before.node.workers[place]? = some worker)
      (isRunning : before.running[place]? = some number) (stage : worker.stage = .loaded table)
      (computes : before.node.Computes now worker table result cache.registry) :
      Follows before
        ((before.goOn
            ({ before.node with cache := cache, content := content }.setStage place worker
              (.computed result))).note number
          fun computation => { computation with result := some result })
  | took {place number : Nat} {worker : Worker} {result : NodeResult}
      (isWorker : before.node.workers[place]? = some worker)
      (isRunning : before.running[place]? = some number) (stage : worker.stage = .computed result) :
      Follows before
        (before.goOn
          ((before.node.takeWaiters worker.key).2.setStage place worker
            (.reporting result
              (FlattenNode.reportsFor (before.node.takeWaiters worker.key).1))))
  | reported {place number : Nat} {worker : Worker} {result : NodeResult} {request : RequestId}
      {target : NodeId} {remaining : List (RequestId × NodeId)} {reaches : Bool}
      (isWorker : before.node.workers[place]? = some worker)
      (isRunning : before.running[place]? = some number)
      (stage : worker.stage = .reporting result ((request, target) :: remaining)) :
      Follows before
        { before.goOn (before.node.setStage place worker (.reporting result remaining)) with
          sent := before.sent ++
            [⟨number, worker.key, ⟨target, ⟨request, before.node.id, result⟩⟩, reaches⟩] }
  | ended {place number : Nat} {worker : Worker} {result : NodeResult}
      (isWorker : before.node.workers[place]? = some worker)
      (isRunning : before.running[place]? = some number)
      (stage : worker.stage = .reporting result []) :
      Follows before
        { before.goOn { before.node with workers := before.node.workers.eraseIdx place } with
          running := before.running.eraseIdx place }
  /-- Tables or the store are changed, or the cache is asked, or there is no worker at the place. -/
  | idle (tables : OrderedMap String Table) (content : σ) {cache : FlattenCache}
      (onlyForgets : before.node.cache.registry.OnlyForgets cache.registry) :
      Follows before
        (before.goOn { before.node with tables := tables, cache := cache, content := content })

/-- An accepted request is attached to a computation or begins one. -/
theorem follows_accept (history : NodeHistory σ) (request : FlattenRequest) :
    history.Follows (history.accept request) := by
  unfold accept
  cases found : OrderedMap.find? request.key history.node.inFlight with
  | some waiters =>
      simp only [FlattenNode.accept, found]
      exact .attached found
  | none =>
      simp only [FlattenNode.accept, found]
      exact .began found

/-- A worker makes the step of its stage. -/
theorem follows_work {history : NodeHistory σ}
    (parallel : history.running.length = history.node.workers.length) (now place : Nat)
    (reaches : Bool) : history.Follows (history.work now place reaches) := by
  unfold work FlattenNode.runWorker
  cases isWorker : history.node.workers[place]? with
  | none => exact .idle history.node.tables history.node.content (.refl history.node.cache.registry)
  | some worker =>
      obtain ⟨within, _⟩ := List.getElem?_eq_some_iff.mp isWorker
      have isRunning : history.running[place]? = some history.running[place] :=
        List.getElem?_eq_getElem (parallel ▸ within)
      simp only [isRunning]
      cases stage : worker.stage with
      | started => exact .read isWorker isRunning stage
      | loaded table =>
          obtain ⟨result, cache, content, isComputed, computes⟩ :=
            history.node.compute_outcome now worker table
          simp only [isComputed]
          exact .computed isWorker isRunning stage computes
      | computed result => exact .took isWorker isRunning stage
      | reporting result remaining =>
          cases remaining with
          | nil => exact .ended isWorker isRunning stage
          | cons entry remaining => exact .reported isWorker isRunning stage

theorem follows_after {history : NodeHistory σ}
    (parallel : history.running.length = history.node.workers.length) (event : NodeEvent σ) :
    history.Follows (history.after event) := by
  cases event with
  | accepted request => exact history.follows_accept request
  | worked now place reaches => exact follows_work parallel now place reaches
  | putTable table =>
      exact .idle (OrderedMap.insert table.name table history.node.tables) history.node.content
        (.refl history.node.cache.registry)
  | removedTable name =>
      exact .idle (OrderedMap.erase name history.node.tables) history.node.content
        (.refl history.node.cache.registry)
  | probed now table flattenBy =>
      obtain ⟨cache, isAfter, onlyForgets⟩ :=
        history.node.validId?_outcome now table flattenBy
      simp only [after, isAfter]
      exact .idle history.node.tables history.node.content onlyForgets
  | lookedUp now id =>
      exact .idle history.node.tables history.node.content
        (history.node.cache.registry.get_onlyForgets now id)
  | storeChanged content =>
      exact .idle history.node.tables content (.refl history.node.cache.registry)

end NodeHistory

/-! ## The computations of workers -/

/-- What is known of a computation is what its worker knows. -/
structure Computation.Fits (computation : Computation) (worker : Worker) : Prop where
  key : worker.key = computation.starter.key
  request : worker.request = computation.starter.id
  stage :
    match worker.stage with
    | .started => computation.read = none ∧ computation.result = none
    | .loaded table =>
        (∃ moment, computation.read = some (moment, table)) ∧ computation.result = none
    | .computed result => computation.result = some result
    | .reporting result _ => computation.result = some result

namespace NodeHistory

/-- Every worker belongs to a computation of its own. -/
structure NumbersWorkers (history : NodeHistory σ) : Prop where
  parallel : history.running.length = history.node.workers.length
  ascending : history.running.Pairwise (· < ·)
  fits : ∀ (place number : Nat) (worker : Worker), history.node.workers[place]? = some worker →
    history.running[place]? = some number →
    ∃ computation : Computation, history.computations[number]? = some computation ∧
      computation.Fits worker

theorem NumbersWorkers.fits_of {history : NodeHistory σ} (numbers : history.NumbersWorkers)
    {place number : Nat} {worker : Worker} {computation : Computation}
    (isWorker : history.node.workers[place]? = some worker)
    (isRunning : history.running[place]? = some number)
    (isComputation : history.computations[number]? = some computation) :
    computation.Fits worker := by
  obtain ⟨fitting, isFitting, fits⟩ := numbers.fits place number worker isWorker isRunning
  cases isFitting.symm.trans isComputation
  exact fits

/-- A worker that moves to another stage still fits its computation, and the others are not
affected. -/
theorem NumbersWorkers.setStage {before after : NodeHistory σ} (numbers : before.NumbersWorkers)
    {place number : Nat} {worker : Worker} {stage : WorkerStage}
    (isWorker : before.node.workers[place]? = some worker)
    (isRunning : before.running[place]? = some number)
    (workers : after.node.workers = before.node.workers.set place { worker with stage := stage })
    (running : after.running = before.running)
    (others : ∀ other, other ≠ number → after.computations[other]? = before.computations[other]?)
    (fits : ∀ computation, before.computations[number]? = some computation →
      computation.Fits worker →
        ∃ changed : Computation, after.computations[number]? = some changed ∧
          changed.Fits { worker with stage := stage }) :
    after.NumbersWorkers where
  parallel := by
    rw [workers, running, List.length_set]
    exact numbers.parallel
  ascending := by
    rw [running]
    exact numbers.ascending
  fits := by
    intro otherPlace otherNumber other isOther isOtherRunning
    rw [running] at isOtherRunning
    rw [workers] at isOther
    by_cases samePlace : otherPlace = place
    · subst samePlace
      obtain ⟨computation, isComputation, computationFits⟩ :=
        numbers.fits otherPlace number worker isWorker isRunning
      obtain ⟨within, _⟩ := List.getElem?_eq_some_iff.mp isWorker
      have sameNumber : number = otherNumber :=
        Option.some.inj (isRunning.symm.trans isOtherRunning)
      have sameWorker : { worker with stage := stage } = other := by
        simpa [within] using isOther
      rw [← sameNumber, ← sameWorker]
      exact fits computation isComputation computationFits
    · -- Numbers ascend, so that a worker at another place has another computation.
      have distinct : otherNumber ≠ number := by
        intro sameNumber
        rw [sameNumber] at isOtherRunning
        have nodup : before.running.Nodup := numbers.ascending.imp fun below => Nat.ne_of_lt below
        obtain ⟨otherWithin, isThere⟩ := List.getElem?_eq_some_iff.mp isOtherRunning
        obtain ⟨within, isHere⟩ := List.getElem?_eq_some_iff.mp isRunning
        exact samePlace ((nodup.getElem_inj_iff).mp (isThere.trans isHere.symm))
      rw [List.getElem?_set_ne (Ne.symm samePlace)] at isOther
      rw [others otherNumber distinct]
      exact numbers.fits otherPlace otherNumber other isOther isOtherRunning

theorem numbersWorkers_new (id : NodeId) (settings : FlattenSettings) (bounds : CacheSettings)
    (store : Option (KeyedStore σ)) (content : σ) :
    (new id settings bounds store content).NumbersWorkers where
  parallel := rfl
  ascending := List.Pairwise.nil
  fits := by
    intro place number worker isWorker
    cases isWorker

theorem NumbersWorkers.lt_of_mem {history : NodeHistory σ} (numbers : history.NumbersWorkers)
    {number : Nat} (isRunning : number ∈ history.running) :
    number < history.computations.length := by
  obtain ⟨place, isHere⟩ := List.mem_iff_getElem?.mp isRunning
  obtain ⟨within, _⟩ := List.getElem?_eq_some_iff.mp isHere
  rw [numbers.parallel] at within
  obtain ⟨computation, isComputation, _⟩ :=
    numbers.fits place number _ (List.getElem?_eq_getElem within) isHere
  exact (List.getElem?_eq_some_iff.mp isComputation).1

theorem NumbersWorkers.began {before : NodeHistory σ} (numbers : before.NumbersWorkers)
    {after : NodeHistory σ} (request : FlattenRequest)
    (workers : after.node.workers = before.node.workers ++ [⟨request.key, request.id, .started⟩])
    (running : after.running = before.running ++ [before.computations.length])
    (computations : after.computations = before.computations ++
      [{ starter := request, begun := before.past.length }]) : after.NumbersWorkers where
  parallel := by
    rw [workers, running, List.length_append, List.length_append, numbers.parallel]
    rfl
  ascending := by
    rw [running]
    apply List.pairwise_append.mpr
    refine ⟨numbers.ascending, List.pairwise_singleton _ _, ?_⟩
    intro number isRunning last isLast
    rw [List.mem_singleton.mp isLast]
    exact numbers.lt_of_mem isRunning
  fits := by
    intro place number worker isWorker isRunning
    rw [workers] at isWorker
    rw [running] at isRunning
    rw [computations]
    by_cases isOld : place < before.node.workers.length
    · rw [List.getElem?_append_left isOld] at isWorker
      rw [List.getElem?_append_left (numbers.parallel ▸ isOld)] at isRunning
      obtain ⟨computation, isComputation, fits⟩ :=
        numbers.fits place number worker isWorker isRunning
      have within := (List.getElem?_eq_some_iff.mp isComputation).1
      refine ⟨computation, ?_, fits⟩
      rw [List.getElem?_append_left within]
      exact isComputation
    · have isNew : before.node.workers.length ≤ place := Nat.not_lt.mp isOld
      rw [List.getElem?_append_right isNew, List.getElem?_singleton] at isWorker
      rw [List.getElem?_append_right (numbers.parallel ▸ isNew), List.getElem?_singleton,
        numbers.parallel] at isRunning
      by_cases isLast : place - before.node.workers.length = 0
      · rw [if_pos isLast] at isWorker isRunning
        cases isWorker
        cases isRunning
        exact ⟨_, List.getElem?_concat_length, rfl, rfl, rfl, rfl⟩
      · rw [if_neg isLast] at isWorker
        cases isWorker

theorem NumbersWorkers.ended {before : NodeHistory σ} (numbers : before.NumbersWorkers)
    {after : NodeHistory σ} (place : Nat)
    (workers : after.node.workers = before.node.workers.eraseIdx place)
    (running : after.running = before.running.eraseIdx place)
    (computations : after.computations = before.computations) : after.NumbersWorkers where
  parallel := by
    rw [workers, running, List.length_eraseIdx, List.length_eraseIdx, numbers.parallel]
  ascending := by
    rw [running]
    exact numbers.ascending.sublist (List.eraseIdx_sublist before.running place)
  fits := by
    intro otherPlace number worker isWorker isRunning
    rw [workers, List.getElem?_eraseIdx] at isWorker
    rw [running, List.getElem?_eraseIdx] at isRunning
    rw [computations]
    by_cases isBefore : otherPlace < place
    · rw [if_pos isBefore] at isWorker isRunning
      exact numbers.fits otherPlace number worker isWorker isRunning
    · rw [if_neg isBefore] at isWorker isRunning
      exact numbers.fits (otherPlace + 1) number worker isWorker isRunning

theorem NumbersWorkers.follows {before after : NodeHistory σ} (numbers : before.NumbersWorkers)
    (follows : before.Follows after) : after.NumbersWorkers := by
  cases follows with
  | attached isRunning => exact ⟨numbers.parallel, numbers.ascending, numbers.fits⟩
  | began isNew => exact numbers.began _ rfl rfl rfl
  | read isWorker isRunning stage =>
      refine numbers.setStage isWorker isRunning rfl rfl ?_ ?_
      · intro other different
        exact List.getElem?_modify_ne _ _ different.symm
      · intro computation isComputation fits
        have known := fits.stage
        rw [stage] at known
        refine ⟨_, getElem?_note isComputation _, fits.key, fits.request, ?_⟩
        exact ⟨⟨_, rfl⟩, known.2⟩
  | computed isWorker isRunning stage computes =>
      refine numbers.setStage isWorker isRunning rfl rfl ?_ ?_
      · intro other different
        exact List.getElem?_modify_ne _ _ different.symm
      · intro computation isComputation fits
        exact ⟨_, getElem?_note isComputation _, fits.key, fits.request, rfl⟩
  | took isWorker isRunning stage =>
      refine numbers.setStage isWorker isRunning rfl rfl (fun _ _ => rfl) ?_
      intro computation isComputation fits
      have known := fits.stage
      rw [stage] at known
      exact ⟨computation, isComputation, fits.key, fits.request, known⟩
  | reported isWorker isRunning stage =>
      refine numbers.setStage isWorker isRunning rfl rfl (fun _ _ => rfl) ?_
      intro computation isComputation fits
      have known := fits.stage
      rw [stage] at known
      exact ⟨computation, isComputation, fits.key, fits.request, known⟩
  | ended isWorker isRunning stage => exact numbers.ended _ rfl rfl rfl
  | idle tables content onlyForgets => exact ⟨numbers.parallel, numbers.ascending, numbers.fits⟩

end NodeHistory

/-! ## What is noted about computations -/

/-- The later computation is the earlier one, about which more may be known. -/
structure Computation.Continues (earlier later : Computation) : Prop where
  starter : later.starter = earlier.starter
  begun : later.begun = earlier.begun
  read : ∀ found, earlier.read = some found → later.read = some found
  result : ∀ result, earlier.result = some result → later.result = some result

theorem Computation.Continues.refl (computation : Computation) :
    computation.Continues computation :=
  ⟨rfl, rfl, fun _ known => known, fun _ known => known⟩

/-- An item after a change at one place was there before, or is what was changed. -/
theorem mem_modify {α : Type} {items : List α} {place : Nat} {change : α → α} {item : α}
    (isItem : item ∈ items.modify place change) :
    item ∈ items ∨ ∃ old, items[place]? = some old ∧ item = change old := by
  obtain ⟨index, isThere⟩ := List.mem_iff_getElem?.mp isItem
  by_cases same : place = index
  · subst same
    rw [List.getElem?_modify_eq] at isThere
    cases isOld : items[place]? with
    | none => simp [isOld] at isThere
    | some old =>
        rw [isOld] at isThere
        cases isThere
        exact Or.inr ⟨old, rfl, rfl⟩
  · rw [List.getElem?_modify_ne _ _ same] at isThere
    exact Or.inl (List.mem_of_getElem? isThere)

namespace NodeHistory

theorem continues_note {history : NodeHistory σ} {place : Nat} {change : Computation → Computation}
    (continues : ∀ computation, history.computations[place]? = some computation →
      computation.Continues (change computation)) {number : Nat} {computation : Computation}
    (isComputation : history.computations[number]? = some computation) :
    ∃ later, (history.note place change).computations[number]? = some later ∧
      computation.Continues later := by
  by_cases same : place = number
  · subst same
    exact ⟨change computation, getElem?_note isComputation change,
      continues computation isComputation⟩
  · refine ⟨computation, ?_, .refl computation⟩
    rw [note, List.getElem?_modify_ne _ _ same]
    exact isComputation

/-- Whatever happens, nothing that is known of a computation is taken back. -/
theorem Follows.continues {before after : NodeHistory σ} (follows : before.Follows after)
    (numbers : before.NumbersWorkers) {number : Nat} {computation : Computation}
    (isComputation : before.computations[number]? = some computation) :
    ∃ later, after.computations[number]? = some later ∧ computation.Continues later := by
  have unchanged := Computation.Continues.refl computation
  cases follows with
  | attached isRunning => exact ⟨computation, isComputation, unchanged⟩
  | began isNew =>
      have within := (List.getElem?_eq_some_iff.mp isComputation).1
      exact ⟨computation, (List.getElem?_append_left within).trans isComputation, unchanged⟩
  | read isWorker isRunning stage =>
      refine continues_note ?_ isComputation
      intro running isRunningComputation
      have known := (numbers.fits_of isWorker isRunning isRunningComputation).stage
      rw [stage] at known
      refine ⟨rfl, rfl, ?_, fun _ known => known⟩
      intro found wasRead
      rw [known.1] at wasRead
      cases wasRead
  | computed isWorker isRunning stage computes =>
      refine continues_note ?_ isComputation
      intro running isRunningComputation
      have known := (numbers.fits_of isWorker isRunning isRunningComputation).stage
      rw [stage] at known
      refine ⟨rfl, rfl, fun _ known => known, ?_⟩
      intro result hadResult
      rw [known.2] at hadResult
      cases hadResult
  | took isWorker isRunning stage => exact ⟨computation, isComputation, unchanged⟩
  | reported isWorker isRunning stage => exact ⟨computation, isComputation, unchanged⟩
  | ended isWorker isRunning stage => exact ⟨computation, isComputation, unchanged⟩
  | idle tables content onlyForgets => exact ⟨computation, isComputation, unchanged⟩

/-! ## All events -/

theorem numbersWorkers_run (id : NodeId) (settings : FlattenSettings) (bounds : CacheSettings)
    (store : Option (KeyedStore σ)) (content : σ) (events : List (NodeEvent σ)) :
    ((new id settings bounds store content).run events).NumbersWorkers := by
  induction events using List.reverseRecOn with
  | nil => exact numbersWorkers_new id settings bounds store content
  | append_singleton earlier event numbers =>
      rw [run_append_singleton]
      exact numbers.follows (follows_after numbers.parallel event)

/-- What holds of a new node and is kept by every event holds after all events. -/
theorem run_induction {holds : NodeHistory σ → Prop} {id : NodeId} {settings : FlattenSettings}
    {bounds : CacheSettings} {store : Option (KeyedStore σ)} {content : σ}
    (atStart : holds (new id settings bounds store content))
    (step : ∀ before after : NodeHistory σ, before.NumbersWorkers → holds before →
      before.Follows after → holds after) (events : List (NodeEvent σ)) :
    holds ((new id settings bounds store content).run events) := by
  induction events using List.reverseRecOn with
  | nil => exact atStart
  | append_singleton earlier event held =>
      have numbers := numbersWorkers_run id settings bounds store content earlier
      rw [run_append_singleton]
      exact step _ _ numbers held (follows_after numbers.parallel event)

end NodeHistory

end Unnest
