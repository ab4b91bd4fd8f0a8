import Unnest.Proofs.NodeDuties

/-!
# How a node answers the latest request for a key

Nothing is requested for a key until its latest request is over.  From the moment when a worker has
taken this request, the node computes nothing for the key any more, so that it keeps to what it
reports (`FlattenNode.Answers`).  If nothing else was being computed for the key when the request
came, a flattening has the name of the request.  What one step of a worker does to this is
`FlattenNode.Handles.workerStep`.
-/

namespace Unnest

variable {σ : Type}

namespace FlattenNode

variable {asked : List (RequestId × FlattenKey)} {client : NodeId} {now place : Nat}
  {before after : FlattenNode σ} {worker : Worker} {key : FlattenKey} {request : RequestId}
  {isAlone : Prop}

/-- The node has come to what it reports on a request.  If nothing else was computed for the key, a
flattening has the name of the request. -/
structure Answers (node : FlattenNode σ) (key : FlattenKey) (request : RequestId)
    (isAlone : Prop) (result : NodeResult) : Prop extends node.IsSettled key result where
  named : isAlone → ∀ id, result = .flattened id → id = request

theorem Answers.goesOn {result : NodeResult} (answers : before.Answers key request isAlone result)
    (goesOn : before.GoesOn asked none after) : after.Answers key request isAlone result :=
  ⟨answers.toIsSettled.goesOn goesOn (Option.some_ne_none key).symm, answers.named⟩

/-- The request is the latest one for its key: its reports are answers. -/
structure Handles (node : FlattenNode σ) (key : FlattenKey) (request : RequestId)
    (isAlone : Prop) : Prop where
  busy : isAlone → ∀ worker ∈ node.workers, Worker.isBusyWith key worker = true →
    worker.request = request
  answers : ∀ worker ∈ node.workers, ∀ result remaining target,
    worker.stage = .reporting result remaining → (request, target) ∈ remaining →
    node.Answers key request isAlone result

/-- A request of which the node does not know yet is the latest one. -/
theorem handles_of_not_owes (apart : before.KeepsKeysApart) (isQuiet : isAlone → before.IsQuiet key)
    (notOwed : ∀ target, ¬ before.Owes request target) :
    before.Handles key request isAlone where
  busy := by
    intro alone worker isWorker isBusy
    exact absurd (isQuiet alone) (apart.not_isQuiet isWorker isBusy)
  answers := by
    intro worker isWorker result remaining target stage isOwed
    exact absurd (Or.inr ⟨worker, isWorker, result, remaining, stage, isOwed⟩) (notOwed target)

theorem Handles.of_workers (handles : before.Handles key request isAlone)
    (goesOn : before.GoesOn asked none after) (workers : after.workers ⊆ before.workers) :
    after.Handles key request isAlone where
  busy := fun alone worker isWorker => handles.busy alone worker (workers isWorker)
  answers := by
    intro worker isWorker result remaining target stage isOwed
    exact (handles.answers worker (workers isWorker) result remaining target stage isOwed).goesOn
      goesOn

/-- A worker moves to another stage, in which its reports are answers. -/
theorem Handles.setStage (handles : before.Handles key request isAlone)
    (goesOn : before.GoesOn asked none after) (isWorker : before.workers[place]? = some worker)
    {stage : WorkerStage}
    (workers : after.workers = before.workers.set place { worker with stage := stage })
    (wasBusy : ({ worker with stage := stage } : Worker).isBusy = true → worker.isBusy = true)
    (answers : ∀ result remaining target, stage = .reporting result remaining →
      (request, target) ∈ remaining → after.Answers key request isAlone result) :
    after.Handles key request isAlone where
  busy := by
    intro alone other isOther isBusy
    rw [workers] at isOther
    rcases mem_eraseIdx_or_eq isWorker isOther with isRest | isChanged
    · exact handles.busy alone other (List.mem_of_mem_eraseIdx isRest) isBusy
    · rw [isChanged] at isBusy ⊢
      simp only [Worker.isBusyWith, Bool.and_eq_true] at isBusy
      refine handles.busy alone worker (List.mem_of_getElem? isWorker) ?_
      rw [Worker.isBusyWith, wasBusy isBusy.1, isBusy.2]
      rfl
  answers := by
    intro other isOther result remaining target isReporting isOwed
    rw [workers] at isOther
    rcases mem_eraseIdx_or_eq isWorker isOther with isRest | isChanged
    · exact (handles.answers other (List.mem_of_mem_eraseIdx isRest) result remaining target
        isReporting isOwed).goesOn goesOn
    · rw [isChanged] at isReporting
      exact answers result remaining target isReporting isOwed

/-- What a worker that takes the waiting requests reports is an answer. -/
theorem Handles.answers_of_took (handles : before.Handles key request isAlone)
    (works : before.WorksFor asked client)
    (unique : ∀ other, (request, other) ∈ asked → other = key)
    (isWorker : before.workers[place]? = some worker) {result : NodeResult}
    (stage : worker.stage = .computed result) {target : NodeId}
    (isOwed : (request, target) ∈ reportsFor (before.takeWaiters worker.key).1) :
    (before.takeWaiters worker.key).2.Answers key request isAlone result := by
  have isThere := List.mem_of_getElem? isWorker
  have isKey : worker.key = key := unique _ (works.owed_takeWaiters worker.key _ isOwed).1
  have fits := (works.workers worker isThere).stage
  rw [stage] at fits
  cases fits with
  | computed upholds named =>
      refine ⟨⟨?_, ?_⟩, ?_⟩
      · rw [← isKey]
        exact OrderedMap.find?_erase_self _ works.apart.ordered
      · exact isKey ▸ upholds.of_same ⟨rfl, rfl, rfl, rfl⟩ rfl
      · intro alone id isId
        have isRequest := handles.busy alone worker isThere
          (by simp [Worker.isBusyWith, Worker.isBusy, stage, isKey])
        exact (named id isId).trans isRequest

/-- Whatever a worker does, the request stays the latest one. -/
theorem Handles.workerStep (handles : before.Handles key request isAlone)
    (works : before.WorksFor asked client)
    (unique : ∀ other, (request, other) ∈ asked → other = key) {sent : Option Delivery}
    (step : WorkerStep now place before sent after) (goesOn : before.GoesOn asked none after) :
    after.Handles key request isAlone := by
  cases step with
  | absent isAbsent => exact handles
  | read isWorker stage =>
      refine handles.setStage goesOn isWorker rfl ?_ ?_
      · intro _
        simp only [Worker.isBusy, stage]
      · intro told remaining target isReporting
        cases isReporting
  | @computed worker table isWorker stage =>
      rcases before.compute_outcome now worker table with ⟨result, cache, content, isResult, _⟩
      rw [isResult] at goesOn ⊢
      refine handles.setStage goesOn isWorker rfl ?_ ?_
      · intro _
        simp only [Worker.isBusy, stage]
      · intro told remaining target isReporting
        cases isReporting
  | @took worker result isWorker stage =>
      refine handles.setStage goesOn isWorker rfl (absurd · Bool.false_ne_true) ?_
      intro told remaining target isReporting isOwed
      cases isReporting
      have answers := handles.answers_of_took works unique isWorker stage isOwed
      exact ⟨⟨answers.quiet, answers.upholds.of_same ⟨rfl, rfl, rfl, rfl⟩ rfl⟩, answers.named⟩
  | @reported worker result next nextTarget remaining isWorker stage =>
      refine handles.setStage goesOn isWorker rfl (absurd · Bool.false_ne_true) ?_
      intro told later target isReporting isOwed
      cases isReporting
      exact (handles.answers worker (List.mem_of_getElem? isWorker) _ _ target stage
        (List.mem_cons_of_mem _ isOwed)).goesOn goesOn
  | ended isWorker stage =>
      exact handles.of_workers goesOn fun other isOther => List.mem_of_mem_eraseIdx isOther

/-- The report on the latest request is an answer. -/
theorem Handles.answers_of_sent (handles : before.Handles key request isAlone)
    {delivery : Delivery} (step : WorkerStep now place before (some delivery) after)
    (goesOn : before.GoesOn asked none after) (isRequest : delivery.report.request = request) :
    after.Answers key request isAlone delivery.report.result := by
  cases step with
  | @reported worker result next nextTarget remaining isWorker stage =>
      cases isRequest
      exact (handles.answers worker (List.mem_of_getElem? isWorker) _ _ nextTarget stage
        List.mem_cons_self).goesOn goesOn

/-- A request of which the node did not know is the latest one when it is accepted. -/
theorem Handles.accept {asking : FlattenRequest}
    (handles : before.Handles asking.key asking.id isAlone)
    (notOwed : ∀ target, ¬ before.Owes asking.id target) :
    (before.accept asking).Handles asking.key asking.id isAlone := by
  have accepts := before.accepts_accept asking
  constructor
  case busy =>
    intro alone worker isWorker isBusy
    rcases accepts.workers with sameWorkers | oneMore
    · exact handles.busy alone worker (sameWorkers ▸ isWorker) isBusy
    · rw [oneMore] at isWorker
      rcases List.mem_append.mp isWorker with isOld | isNew
      · exact handles.busy alone worker isOld isBusy
      · rw [List.mem_singleton.mp isNew]
  case answers =>
    intro worker isWorker result remaining target stage isOwed
    have isOld : worker ∈ before.workers := by
      rcases accepts.workers with sameWorkers | oneMore
      · exact sameWorkers ▸ isWorker
      · rw [oneMore] at isWorker
        rcases List.mem_append.mp isWorker with isOld | isNew
        · exact isOld
        · rw [List.mem_singleton.mp isNew] at stage
          cases stage
    exact absurd (Or.inr ⟨worker, isOld, result, remaining, stage, isOwed⟩) (notOwed target)

end FlattenNode

end Unnest
