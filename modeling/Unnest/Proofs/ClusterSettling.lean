import Unnest.Proofs.CourseSteps

/-!
# Letting the nodes work

Each step of a worker leaves fewer steps to its node (`FlattenNode.WorkerStep.stepsLeft_lt`), so
that a node that settles has no workers left.  When all nodes of a cluster settle one after the
other, this is a course like any other, at whose end no node has anything to do.
-/

namespace Unnest

variable {σ : Type}

/-! ## Nodes run out of work -/

theorem total_eraseIdx {α : Type} {items : List α} {place : Nat} {old : α}
    (isOld : items[place]? = some old) (count : α → Nat) :
    total count items = count old + total count (items.eraseIdx place) :=
  total_perm (perm_cons_eraseIdx isOld)

theorem total_set {α : Type} {items : List α} {place : Nat} {old : α}
    (isOld : items[place]? = some old) (new : α) (count : α → Nat) :
    total count (items.set place new) = count new + total count (items.eraseIdx place) :=
  total_perm (set_perm_cons_eraseIdx isOld new)

namespace FlattenNode

section Steps

variable {now place : Nat} {before after : FlattenNode σ} {worker : Worker}

theorem stepsLeft_setStage (isWorker : before.workers[place]? = some worker)
    (stage : WorkerStage) :
    (before.setStage place worker stage).stepsLeft + Worker.stepsLeft worker =
      before.stepsLeft + Worker.stepsLeft { worker with stage := stage } := by
  simp only [stepsLeft, setStage, total_set isWorker, total_eraseIdx isWorker]
  omega

/-- The requests that a worker takes are the ones that no longer wait. -/
theorem stepsLeft_takeWaiters (node : FlattenNode σ) (key : FlattenKey) :
    (node.takeWaiters key).2.stepsLeft + (reportsFor (node.takeWaiters key).1).length =
      node.stepsLeft := by
  simp only [takeWaiters, stepsLeft]
  cases found : OrderedMap.find? key node.inFlight with
  | none =>
      rw [OrderedMap.erase_of_find?_eq_none found]
      rfl
  | some waiters =>
      rw [total_perm (OrderedMap.perm_of_find? found), total_cons]
      simp only [Option.getD_some]
      omega

/-- A step of a worker leaves fewer steps. -/
theorem WorkerStep.stepsLeft_lt {sent : Option Delivery}
    (step : WorkerStep now place before sent after) (isThere : before.workers[place]? ≠ none) :
    after.stepsLeft < before.stepsLeft := by
  cases step with
  | absent isAbsent => exact absurd isAbsent isThere
  | @read worker isWorker stage =>
      have counted := stepsLeft_setStage isWorker
        (.loaded (OrderedMap.find? worker.key.source before.tables))
      simp only [Worker.stepsLeft, stage] at counted
      omega
  | @computed worker table isWorker stage =>
      obtain ⟨result, cache, content, isResult, _⟩ := before.compute_outcome now worker table
      have counted := stepsLeft_setStage isWorker (.computed result)
      have sameSteps : ({ before with cache := cache, content := content }.setStage place worker
          (.computed result)).stepsLeft =
            (before.setStage place worker (.computed result)).stepsLeft := rfl
      rw [isResult, sameSteps]
      simp only [Worker.stepsLeft, stage] at counted
      omega
  | @took worker result isWorker stage =>
      have isStillWorker : (before.takeWaiters worker.key).2.workers[place]? = some worker :=
        isWorker
      have counted := stepsLeft_setStage isStillWorker
        (.reporting result (reportsFor (before.takeWaiters worker.key).1))
      have taken := before.stepsLeft_takeWaiters worker.key
      simp only [Worker.stepsLeft, stage] at counted
      omega
  | @reported worker result request target remaining isWorker stage =>
      have counted := stepsLeft_setStage isWorker (.reporting result remaining)
      simp only [Worker.stepsLeft, stage, List.length_cons] at counted
      omega
  | @ended worker result isWorker stage =>
      simp only [stepsLeft, total_eraseIdx isWorker, Worker.stepsLeft, stage]
      omega

theorem workers_of_stepsLeft {node : FlattenNode σ} (nothing : node.stepsLeft = 0) :
    node.workers = [] := by
  cases workers : node.workers with
  | nil => rfl
  | cons worker rest =>
      exfalso
      have takesSteps : 0 < Worker.stepsLeft worker := by
        unfold Worker.stepsLeft
        split <;> omega
      rw [stepsLeft, workers, total_cons] at nothing
      omega

theorem runWorker_of_idle {node : FlattenNode σ} (idle : node.workers = []) (now place : Nat) :
    node.runWorker now place = (none, node) := by
  simp [runWorker, idle]

/-- Enough steps leave no worker. -/
theorem workers_runFirst (now : Nat) {steps : Nat} {node : FlattenNode σ}
    (enough : node.stepsLeft ≤ steps ∨ node.workers = []) :
    (runFirst now steps node).2.workers = [] := by
  induction steps generalizing node with
  | zero =>
      rcases enough with nothing | idle
      · exact workers_of_stepsLeft (Nat.le_zero.mp nothing)
      · exact idle
  | succ steps inductionHypothesis =>
      have enoughLater : (node.runWorker now 0).2.stepsLeft ≤ steps ∨
          (node.runWorker now 0).2.workers = [] := by
        by_cases idle : node.workers = []
        · rw [runWorker_of_idle idle]
          exact Or.inr idle
        · have isThere : node.workers[0]? ≠ none := by
            simpa [List.getElem?_eq_none_iff] using idle
          have fewer := (workerStep_runWorker now 0 node).stepsLeft_lt isThere
          rcases enough with enough | isIdle
          · exact Or.inl (by omega)
          · exact absurd isIdle idle
      exact inductionHypothesis enoughLater

theorem workers_settle (now : Nat) (node : FlattenNode σ) : (node.settle now).2.workers = [] :=
  workers_runFirst now (Or.inl le_rfl)

end Steps

end FlattenNode

/-! ## Time, names and requests -/

namespace Cluster

/-- No time passes, no names are given, and the coordinator, the same one, makes no requests. -/
structure KeepsTime (before after : Cluster σ) : Prop where
  now : after.now = before.now
  namesGiven : after.namesGiven = before.namesGiven
  coordinator : after.coordinator.id = before.coordinator.id
  triggered : after.coordinator.triggered = before.coordinator.triggered

theorem KeepsTime.refl (cluster : Cluster σ) : cluster.KeepsTime cluster :=
  ⟨rfl, rfl, rfl, rfl⟩

theorem KeepsTime.trans {first second third : Cluster σ} (before : first.KeepsTime second)
    (after : second.KeepsTime third) : first.KeepsTime third :=
  ⟨after.now.trans before.now, after.namesGiven.trans before.namesGiven,
    after.coordinator.trans before.coordinator, after.triggered.trans before.triggered⟩

theorem keepsTime_deliver (cluster : Cluster σ) (delivery : Delivery) :
    cluster.KeepsTime (cluster.deliver delivery) := by
  unfold deliver
  cases cluster.sink? delivery.target with
  | error cause => exact .refl cluster
  | ok sink =>
      cases sink with
      | coordinator =>
          exact ⟨rfl, rfl, Coordinator.receive_id _ _, Coordinator.receive_triggered _ _⟩
      | recorder received => exact ⟨rfl, rfl, rfl, rfl⟩

theorem keepsTime_deliverAll (cluster : Cluster σ) (deliveries : List Delivery) :
    cluster.KeepsTime (cluster.deliverAll deliveries) := by
  induction deliveries generalizing cluster with
  | nil => exact .refl cluster
  | cons first rest inductionHypothesis =>
      exact (cluster.keepsTime_deliver first).trans (inductionHypothesis _)

theorem keepsTime_work (cluster : Cluster σ) (id : NodeId) (node : FlattenNode σ) (place : Nat) :
    cluster.KeepsTime (cluster.work id node place) := by
  let worked := cluster.setMember id (.service (node.runWorker cluster.millis place).2 false)
  have keeps : cluster.KeepsTime worked := ⟨rfl, rfl, rfl, rfl⟩
  exact keeps.trans (keepsTime_deliverAll worked _)

theorem keepsTime_settleMember (cluster : Cluster σ) (id : NodeId) :
    cluster.KeepsTime (cluster.settleMember id) := by
  unfold settleMember
  split
  · next node isNode =>
      let settled := cluster.setMember id (.service (node.settle cluster.millis).2 false)
      have keeps : cluster.KeepsTime settled := ⟨rfl, rfl, rfl, rfl⟩
      exact keeps.trans (keepsTime_deliverAll settled _)
  · exact .refl cluster

theorem keepsTime_settle (cluster : Cluster σ) : cluster.KeepsTime cluster.settle := by
  have keeps : ∀ (ids : List NodeId) (earlier : Cluster σ),
      earlier.KeepsTime (ids.foldl settleMember earlier) := by
    intro ids
    induction ids with
    | nil => exact .refl
    | cons first rest inductionHypothesis =>
        exact fun earlier =>
          (earlier.keepsTime_settleMember first).trans (inductionHypothesis _)
  exact keeps _ cluster

theorem keepsTime_connect (cluster : Cluster σ) (id : NodeId) :
    cluster.KeepsTime (cluster.connect id).2 := by
  unfold connect
  rcases cluster.connections.connect id with ⟨connected, connections⟩
  cases connected with
  | error cause => exact ⟨rfl, rfl, rfl, rfl⟩
  | ok _ => exact ⟨rfl, rfl, rfl, rfl⟩

theorem keepsTime_probe (cluster : Cluster σ) (table flattenBy : String) (id : NodeId) :
    cluster.KeepsTime (cluster.probe table flattenBy id).2 := by
  have keeps := cluster.keepsTime_connect id
  unfold probe
  rcases isConnected : cluster.connect id with ⟨connected, later⟩
  rw [isConnected] at keeps
  rcases connected with cause | member
  · exact keeps
  · cases member with
    | service node isHeld => exact keeps.trans ⟨rfl, rfl, rfl, rfl⟩
    | scripted node => exact keeps.trans ⟨rfl, rfl, rfl, rfl⟩

theorem keepsTime_trigger (cluster : Cluster σ) (request : FlattenRequest) (id : NodeId) :
    cluster.KeepsTime (cluster.trigger request id).2 := by
  have keeps := cluster.keepsTime_connect id
  unfold trigger
  rcases isConnected : cluster.connect id with ⟨connected, later⟩
  rw [isConnected] at keeps
  rcases connected with cause | member
  · exact keeps
  · refine keeps.trans ?_
    cases member with
    | service node isHeld => exact ⟨rfl, rfl, rfl, rfl⟩
    | scripted node =>
        rcases isAnswer : node.flatten request with ⟨reply, sent, changed⟩
        let asked := later.setMember id (.scripted changed)
        have keepsAsked : later.KeepsTime asked := ⟨rfl, rfl, rfl, rfl⟩
        simp only [submit, isAnswer]
        exact keepsAsked.trans (asked.keepsTime_deliverAll sent)

/-! ## Deliveries and members -/

theorem deliver_setMember (cluster : Cluster σ) (id : NodeId) (member : Member σ)
    (delivery : Delivery) :
    (cluster.setMember id member).deliver delivery =
      (cluster.deliver delivery).setMember id member := by
  have sameSink : (cluster.setMember id member).sink? delivery.target =
      cluster.sink? delivery.target := rfl
  rw [deliver, deliver, sameSink]
  cases cluster.sink? delivery.target with
  | error cause => rfl
  | ok sink =>
      cases sink with
      | coordinator => rfl
      | recorder received => rfl

theorem deliverAll_setMember (cluster : Cluster σ) (id : NodeId) (member : Member σ)
    (deliveries : List Delivery) :
    (cluster.setMember id member).deliverAll deliveries =
      (cluster.deliverAll deliveries).setMember id member := by
  induction deliveries generalizing cluster with
  | nil => rfl
  | cons first rest inductionHypothesis =>
      rw [deliverAll, List.foldl_cons, deliver_setMember]
      exact inductionHypothesis _

theorem setMember_setMember (cluster : Cluster σ) (id : NodeId) (first last : Member σ) :
    (cluster.setMember id first).setMember id last = cluster.setMember id last := by
  simp only [setMember, OrderedMap.insert_insert]

theorem find?_setMember_self (cluster : Cluster σ) (id : NodeId) (member : Member σ) :
    OrderedMap.find? id (cluster.setMember id member).members = some member :=
  OrderedMap.find?_insert_self id member cluster.members

theorem deliverAll_append (cluster : Cluster σ) (first second : List Delivery) :
    cluster.deliverAll (first ++ second) = (cluster.deliverAll first).deliverAll second :=
  List.foldl_append

theorem members_deliverAll (cluster : Cluster σ) (deliveries : List Delivery) :
    (cluster.deliverAll deliveries).members = cluster.members := by
  induction deliveries generalizing cluster with
  | nil => rfl
  | cons first rest inductionHypothesis =>
      have sameMembers : (cluster.deliver first).members = cluster.members := by
        unfold deliver
        split <;> rfl
      exact (inductionHypothesis (cluster.deliver first)).trans sameMembers

end Cluster

/-! ## Settling is a course -/

namespace Course

section Settling

variable {course : Course σ} {id : NodeId} {node : FlattenNode σ}

/-- Steps of the first worker, with all reports delivered at the end, are steps of the course. -/
theorem reaches_runFirst
    (isNode : OrderedMap.find? id course.cluster.members = some (.service node false))
    (steps : Nat) :
    course.Reaches
      { course with
        cluster :=
          (course.cluster.setMember id
            (.service (node.runFirst course.cluster.millis steps).2 false)).deliverAll
              (node.runFirst course.cluster.millis steps).1 } := by
  induction steps generalizing course node with
  | zero =>
      have isQuiet : course.cluster.work id node node.workers.length =
          course.cluster.setMember id (.service node false) := by
        simp [Cluster.work, FlattenNode.runWorker, Cluster.deliverAll]
      have step : course.Step { course with cluster := course.cluster.work id node _ } :=
        .works node.workers.length isNode
      rw [isQuiet] at step
      exact .single step
  | succ steps inductionHypothesis =>
      let moved := course.cluster.work id node 0
      have step : course.Step { course with cluster := moved } := .works 0 isNode
      have isMoved : moved = (course.cluster.deliverAll
          (node.runWorker course.cluster.millis 0).1.toList).setMember id
            (.service (node.runWorker course.cluster.millis 0).2 false) :=
        course.cluster.deliverAll_setMember id _ _
      have isStillNode : OrderedMap.find? id moved.members =
          some (.service (node.runWorker course.cluster.millis 0).2 false) := by
        rw [isMoved]
        exact Cluster.find?_setMember_self _ id _
      have sameTime : moved.millis = course.cluster.millis := by
        have keeps := course.cluster.keepsTime_deliverAll
          (node.runWorker course.cluster.millis 0).1.toList
        rw [isMoved]
        exact congrArg (· / 1000) keeps.now
      have later : Reaches { course with cluster := moved } _ := inductionHypothesis isStillNode
      refine .head step ?_
      convert later using 2
      rw [sameTime, isMoved, Cluster.setMember_setMember, Cluster.deliverAll_setMember,
        Cluster.deliverAll_setMember, ← Cluster.deliverAll_append]
      rfl

theorem reaches_settleMember (course : Course σ) (id : NodeId) :
    course.Reaches { course with cluster := course.cluster.settleMember id } := by
  unfold Cluster.settleMember
  split
  · next node isNode => exact reaches_runFirst isNode node.stepsLeft
  · exact .refl

theorem reaches_settleMembers (course : Course σ) (ids : List NodeId) :
    course.Reaches { course with cluster := ids.foldl Cluster.settleMember course.cluster } := by
  induction ids generalizing course with
  | nil => exact .refl
  | cons first rest inductionHypothesis =>
      exact .trans (course.reaches_settleMember first) (inductionHypothesis _)

theorem reaches_settle (course : Course σ) :
    course.Reaches { course with cluster := course.cluster.settle } :=
  course.reaches_settleMembers _

end Settling

end Course

/-! ## Nothing is left to do -/

section Idle

variable {cluster : Cluster σ} {id other : NodeId}

namespace Cluster

theorem service?_settleMember {node : FlattenNode σ}
    (isNode : OrderedMap.find? id cluster.members = some (.service node false)) (other : NodeId) :
    (cluster.settleMember id).service? other =
      if other = id then some (node.settle cluster.millis).2 else cluster.service? other := by
  simp only [settleMember, isNode]
  rw [service?_of_members (members_deliverAll _ _), service?_setMember]

theorem IsIdle.settleMember (idle : cluster.IsIdle other) (id : NodeId) :
    (cluster.settleMember id).IsIdle other := by
  intro node isService
  by_cases isMember : ∃ member, OrderedMap.find? id cluster.members = some (.service member false)
  · obtain ⟨member, isMember⟩ := isMember
    rw [service?_settleMember isMember] at isService
    split at isService
    · cases isService
      exact FlattenNode.workers_settle _ _
    · exact idle node isService
  · rw [Cluster.settleMember] at isService
    split at isService
    · next member isNode => exact absurd ⟨member, isNode⟩ isMember
    · exact idle node isService

theorem isIdle_settleMember
    (free : ∀ node, cluster.service? id = some node →
      OrderedMap.find? id cluster.members = some (.service node false)) :
    (cluster.settleMember id).IsIdle id := by
  cases isService : cluster.service? id with
  | none =>
      have wasIdle : cluster.IsIdle id := by
        intro node isNode
        rw [isService] at isNode
        cases isNode
      exact wasIdle.settleMember id
  | some node =>
      intro settled isSettled
      rw [service?_settleMember (free node isService), if_pos rfl] at isSettled
      cases isSettled
      exact FlattenNode.workers_settle _ _

theorem isIdle_of_not_mem_keys (notMember : id ∉ OrderedMap.keys cluster.members) :
    cluster.IsIdle id := by
  intro node isService
  cases found : OrderedMap.find? id cluster.members with
  | none =>
      rw [service?, found] at isService
      cases isService
  | some member =>
      exact absurd (List.mem_map_of_mem (OrderedMap.mem_of_find? found)) notMember

end Cluster

namespace Course

variable {course : Course σ}

theorem IsSound.isIdle_settleMembers (sound : course.IsSound) (ids : List NodeId)
    (willBeIdle : id ∈ ids ∨ course.cluster.IsIdle id) :
    (ids.foldl Cluster.settleMember course.cluster).IsIdle id := by
  induction ids generalizing course with
  | nil =>
      rcases willBeIdle with isThere | isIdle
      · cases isThere
      · exact isIdle
  | cons first rest inductionHypothesis =>
      have settled := sound.reaches (course.reaches_settleMember first)
      refine inductionHypothesis settled ?_
      rcases willBeIdle with isThere | isIdle
      · rcases List.mem_cons.mp isThere with isFirst | isLater
        · right
          rw [← isFirst]
          exact Cluster.isIdle_settleMember fun node isService =>
            (sound.orderly.service isService).1
        · exact Or.inl isLater
      · exact Or.inr (isIdle.settleMember first)

/-- When a cluster has settled, none of its nodes has workers. -/
theorem IsSound.isIdle_settle (sound : course.IsSound) (id : NodeId) :
    course.cluster.settle.IsIdle id := by
  apply sound.isIdle_settleMembers
  by_cases isMember : id ∈ OrderedMap.keys course.cluster.members
  · exact Or.inl isMember
  · exact Or.inr (Cluster.isIdle_of_not_mem_keys isMember)

end Course

end Idle

end Unnest
