import Unnest.Cluster
import Unnest.Proofs.Attempt
import Unnest.Proofs.ClusterServices

/-!
# How a cluster moves

A node that is probed tells what it lists, a worker makes a step, the store of a node is changed by
somebody else, or time passes: all of these are moves of the cluster (`Cluster.Moves`).  A move may
tell the coordinator something, which the node then no longer owes, and keeps the answers to the
latest requests.  A node that is sent a request accepts it and owes a report
(`Cluster.IsOrderly.trigger`).
-/

namespace Unnest

variable {σ : Type}

/-- A report changes nothing but what is waited for. -/
theorem Coordinator.receive_outcome (coordinator : Coordinator) (report : Report) :
    ∃ awaited, coordinator.receive report = { coordinator with awaited := awaited } := by
  unfold Coordinator.receive
  cases OrderedMap.find? report.request coordinator.awaited with
  | none => exact ⟨coordinator.awaited, rfl⟩
  | some awaited => exact ⟨_, rfl⟩

theorem Coordinator.receive_id (coordinator : Coordinator) (report : Report) :
    (coordinator.receive report).id = coordinator.id := by
  rcases coordinator.receive_outcome report with ⟨awaited, isReceived⟩
  rw [isReceived]

theorem Coordinator.receive_triggered (coordinator : Coordinator) (report : Report) :
    (coordinator.receive report).triggered = coordinator.triggered := by
  rcases coordinator.receive_outcome report with ⟨awaited, isReceived⟩
  rw [isReceived]

namespace Cluster

variable {asked : List (RequestId × FlattenKey)} {cluster : Cluster σ} {id : NodeId}
  {node changed : FlattenNode σ} {told : Option Report}

/-! ## Moves -/

/-- The nodes go on, and may tell the coordinator something. -/
structure Moves (asked : List (RequestId × FlattenKey)) (before : Cluster σ) (told : Option Report)
    (after : Cluster σ) : Prop where
  orderly : after.IsOrderly asked
  goesOn : before.GoesOn asked none after
  hears : after.coordinator = told.elim before.coordinator before.coordinator.receive
  isAsked : ∀ report, told = some report →
    ∃ key, (report.request, key) ∈ asked ∧ report.node ∈ before.servingNodes key.source
  owes_iff : ∀ id request, before.Owes id request ↔ after.Owes id request ∨
    ∃ report, told = some report ∧ report.node = id ∧ report.request = request
  handles : ∀ id key request isAlone, (∀ other, (request, other) ∈ asked → other = key) →
    before.Handles id key request isAlone → after.Handles id key request isAlone ∧
      ∀ report, told = some report → report.node = id → report.request = request →
        after.Answers id key request isAlone report.result

/-- Nothing happens to the nodes. -/
theorem IsOrderly.moves_of_members {after : Cluster σ} (orderly : cluster.IsOrderly asked)
    (coordinator : after.coordinator = cluster.coordinator)
    (connections : after.connections = cluster.connections)
    (departed : after.departed = cluster.departed) (serving : after.serving = cluster.serving)
    (members : after.members = cluster.members) : cluster.Moves asked none after where
  orderly := orderly.of_members connections departed serving (coordinator ▸ rfl)
    (coordinator ▸ orderly.awaited) members
  goesOn := .of_members (coordinator ▸ rfl) serving members
  hears := coordinator
  isAsked := fun _ isTold => nomatch isTold
  owes_iff := by
    intro id request
    have sameOwes : after.Owes id request ↔ cluster.Owes id request := by
      rw [Owes, Owes, service?_of_members members, coordinator]
    rw [sameOwes]
    simp
  handles := by
    intro id key request isAlone _ handles
    refine ⟨?_, fun _ isTold => nomatch isTold⟩
    intro node isService
    rw [service?_of_members members] at isService
    exact handles node isService

/-- If one node has changed, only what this one owes has changed. -/
theorem owes_iff_of_services {after : Cluster σ}
    (sameCoordinator : after.coordinator.id = cluster.coordinator.id)
    (services : ∀ other, after.service? other =
      if other = id then some changed else cluster.service? other) (other : NodeId)
    (request : RequestId) : after.Owes other request ↔
      if other = id then changed.Owes request cluster.coordinator.id
      else cluster.Owes other request := by
  rw [Owes, services, sameCoordinator]
  by_cases same : other = id
  · rw [if_pos same, if_pos same]
    simp only [Option.some.injEq, exists_eq_left']
  · rw [if_neg same, if_neg same]
    rfl

/-- A node goes on, and may tell the coordinator something. -/
theorem IsOrderly.moves_service (orderly : cluster.IsOrderly asked)
    (isService : cluster.service? id = some node)
    (goesOn : node.GoesOn (cluster.askedOf asked id) none changed) (steady : changed.IsSteady)
    (works : changed.WorksFor (cluster.askedOf asked id) cluster.coordinator.id)
    (isAsked : ∀ report, told = some report → report.node = id ∧
      ∃ key, (report.request, key) ∈ cluster.askedOf asked id)
    (owes_iff : ∀ request, node.Owes request cluster.coordinator.id ↔
      changed.Owes request cluster.coordinator.id ∨
        ∃ report, told = some report ∧ report.request = request)
    (handles : ∀ key request isAlone,
      (∀ other, (request, other) ∈ cluster.askedOf asked id → other = key) →
      node.Handles key request isAlone → changed.Handles key request isAlone ∧
        ∀ report, told = some report → report.request = request →
          changed.Answers key request isAlone report.result) :
    cluster.Moves asked told
      { cluster.setMember id (.service changed false) with
        coordinator := told.elim cluster.coordinator cluster.coordinator.receive } := by
  let heard := told.elim cluster.coordinator cluster.coordinator.receive
  let after : Cluster σ :=
    { cluster.setMember id (.service changed false) with coordinator := heard }
  have sameCoordinator : heard.id = cluster.coordinator.id := by
    cases told with
    | none => rfl
    | some report => exact Coordinator.receive_id cluster.coordinator report
  have inOrder : OrderedMap.IsOrdered heard.awaited := by
    cases told with
    | none => exact orderly.awaited
    | some report => exact CallState.isOrdered_receive orderly.awaited report
  have services : ∀ other, after.service? other =
      if other = id then some changed else cluster.service? other :=
    fun other => service?_setMember cluster id other changed false
  have clusterGoesOn : cluster.GoesOn asked none (cluster.setMember id (.service changed false)) :=
    .setMember isService (goesOn.mono (askedOf_subset cluster asked id))
  refine
    { orderly := ?orderly, goesOn := ?goesOn, hears := rfl, isAsked := ?isAsked
      owes_iff := ?owes_iff, handles := ?handles }
  case orderly =>
    exact (orderly.setMember isService goesOn.id steady works).of_members rfl rfl rfl
      sameCoordinator inOrder rfl
  case goesOn =>
    exact ⟨sameCoordinator, clusterGoesOn.serving, clusterGoesOn.services, clusterGoesOn.absent⟩
  case isAsked =>
    intro report isTold
    rcases isAsked report isTold with ⟨isNode, key, isEntry⟩
    rcases mem_askedOf.mp isEntry with ⟨wasAsked, isServing⟩
    exact ⟨key, wasAsked, isNode ▸ isServing⟩
  case owes_iff =>
    intro other request
    have isOwed : after.Owes other request ↔ _ :=
      owes_iff_of_services sameCoordinator services other request
    change _ ↔ after.Owes other request ∨ _
    rw [isOwed]
    by_cases same : other = id
    · have owedBefore : cluster.Owes other request ↔ node.Owes request cluster.coordinator.id := by
        rw [same, Owes, isService]
        simp only [Option.some.injEq, exists_eq_left']
      rw [if_pos same, owedBefore, owes_iff request]
      apply or_congr_right
      constructor
      · intro isReported
        rcases isReported with ⟨report, isTold, isRequest⟩
        exact ⟨report, isTold, (isAsked report isTold).1.trans same.symm, isRequest⟩
      · intro isReported
        rcases isReported with ⟨report, isTold, _, isRequest⟩
        exact ⟨report, isTold, isRequest⟩
    · rw [if_neg same]
      constructor
      · exact Or.inl
      · intro owesOrReported
        rcases owesOrReported with owes | ⟨report, isTold, isNode, _⟩
        · exact owes
        · exact absurd (isNode.symm.trans (isAsked report isTold).1) same
  case handles =>
    intro other key request isAlone unique clusterHandles
    by_cases same : other = id
    · have isThere : after.service? other = some changed := (services other).trans (if_pos same)
      have uniqueOf : ∀ name, (request, name) ∈ cluster.askedOf asked id → name = key :=
        fun name isEntry => unique name (mem_askedOf.mp isEntry).1
      rcases handles key request isAlone uniqueOf (clusterHandles node (same ▸ isService)) with
        ⟨stillHandles, answers⟩
      constructor
      · intro later isLater
        cases isThere.symm.trans isLater
        exact stillHandles
      · intro report isTold _ isRequest
        exact ⟨changed, isThere, answers report isTold isRequest⟩
    · constructor
      · intro later isLater
        exact clusterHandles later (((services other).trans (if_neg same)).symm.trans isLater)
      · intro report isTold isNode _
        exact absurd (isNode.symm.trans (isAsked report isTold).1) same

/-- Only what a node has cached or stored changes. -/
theorem IsOrderly.moves_of_work (orderly : cluster.IsOrderly asked)
    (isService : cluster.service? id = some node) (same : node.IsSame changed)
    (lists : ∀ key, changed.listed? key = node.listed? key) (steady : changed.IsSteady)
    (workers : changed.workers = node.workers) (inFlight : changed.inFlight = node.inFlight) :
    cluster.Moves asked none (cluster.setMember id (.service changed false)) := by
  rcases orderly.service isService with ⟨_, _, _, works⟩
  have goesOn : node.GoesOn (cluster.askedOf asked id) none changed := by
    refine .of_lists same lists fun key _ isQuiet => ?_
    rw [FlattenNode.IsQuiet, inFlight]
    exact isQuiet
  refine orderly.moves_service isService goesOn steady
    (works.of_work same lists workers inFlight) ?_ ?_ ?_
  · intro delivery isTold
    cases isTold
  · intro request
    simp [FlattenNode.Owes, workers, inFlight]
  · intro key request isAlone _ handles
    constructor
    · apply handles.of_workers goesOn
      rw [workers]
      exact List.Subset.refl _
    · intro delivery isTold
      cases isTold

/-! ## Calling a node -/

theorem IsOrderly.connect_eq (orderly : cluster.IsOrderly asked) (id : NodeId) :
    cluster.connect id = (cluster.member? id, cluster) := by
  have connects : cluster.connections.connect id = (.ok (), cluster.connections) := by
    simp [Connections.connect, orderly.cutOff, orderly.failNext]
  simp only [connect, connects]

theorem IsOrderly.connect_of_some (orderly : cluster.IsOrderly asked)
    (isService : cluster.service? id = some node) :
    cluster.connect id = (.ok (.service node false), cluster) := by
  rw [orderly.connect_eq, member?, (orderly.service isService).1]
  simp [orderly.departed]

theorem IsOrderly.connect_of_none (orderly : cluster.IsOrderly asked)
    (isAbsent : cluster.service? id = none) :
    cluster.connect id = (.error (.unknownNode id), cluster) := by
  have noMember : OrderedMap.find? id cluster.members = none := by
    cases found : OrderedMap.find? id cluster.members with
    | none => rfl
    | some member =>
        rcases orderly.members id member found with ⟨known, rfl, _⟩
        simp [service?, found] at isAbsent
  rw [orderly.connect_eq, member?, noMember]

/-- What a node has replied to the question which flattening it has.  It is what the node lists,
unless some node has failed; where nothing is listed, nothing was found. -/
inductive IsProbeReply (cluster : Cluster σ) (key : FlattenKey) (id : NodeId) :
    Reply (Option FlattenId) → Prop where
  | unknown (isAbsent : cluster.service? id = none) :
      IsProbeReply cluster key id (.answered (.error (.unknownNode id)))
  | found {found : Option FlattenId} (isService : cluster.service? id ≠ none)
      (isListed : found = cluster.listed? id key ∨
        ∃ other ∈ cluster.servingNodes key.source, cluster.IsBlocked other key)
      (isLacking : cluster.listed? id key = none → found = none) :
      IsProbeReply cluster key id (.answered (.ok found))

theorem IsOrderly.probe (orderly : cluster.IsOrderly asked) {key : FlattenKey}
    (canonical : key.IsCanonical) (id : NodeId) :
    cluster.Moves asked none (cluster.probe key.source key.flattenBy id).2 ∧
      (cluster.probe key.source key.flattenBy id).2.IsProbeReply key id
        (cluster.probe key.source key.flattenBy id).1 := by
  cases isService : cluster.service? id with
  | none =>
      have isReply : cluster.probe key.source key.flattenBy id =
          (.answered (.error (.unknownNode id)), cluster) := by
        simp only [Cluster.probe, orderly.connect_of_none isService]
      rw [isReply]
      exact ⟨orderly.moves_of_members rfl rfl rfl rfl rfl, .unknown isService⟩
  | some node =>
      rcases orderly.service isService with ⟨_, _, steady, _⟩
      rcases steady.validId?_eq canonical cluster.millis with ⟨cache, isAnswer, same, keepsLists⟩
      have isReply : cluster.probe key.source key.flattenBy id =
          (.answered (.ok (node.listed? key)),
            cluster.setMember id (.service { node with cache := cache } false)) := by
        simp only [Cluster.probe, orderly.connect_of_some isService, isAnswer]
      have sameLists := FlattenNode.listed?_of_keepsLists same keepsLists
      have isThere := (service?_setMember cluster id id { node with cache := cache } false).trans
        (if_pos rfl)
      have isListed : (cluster.setMember id
          (.service { node with cache := cache } false)).listed? id key = node.listed? key := by
        rw [listed?, isThere]
        exact sameLists key
      rw [isReply]
      refine ⟨orderly.moves_of_work isService same sameLists
        (steady.of_keepsLists same keepsLists) rfl rfl, .found ?_ ?_ ?_⟩
      · rw [isThere]
        exact Option.some_ne_none _
      · exact Or.inl isListed.symm
      · intro notListed
        exact isListed.symm.trans notListed

/-- A request is handed to a node. -/
structure Submits (asked : List (RequestId × FlattenKey)) (before : Cluster σ)
    (asking : FlattenRequest) (id : NodeId) (after : Cluster σ) : Prop where
  orderly : after.IsOrderly asked
  goesOn : before.GoesOn asked (some asking.key) after
  coordinator : after.coordinator = before.coordinator
  elsewhere : ∀ other, other ≠ id → after.service? other = before.service? other
  owes : after.Owes id asking.id
  handles : ∀ isAlone, ¬ before.Owes id asking.id →
    before.Handles id asking.key asking.id isAlone → after.Handles id asking.key asking.id isAlone

/-- A node accepts a request of the coordinator, and from now on owes it a report. -/
theorem IsOrderly.trigger (orderly : cluster.IsOrderly asked)
    (isService : cluster.service? id ≠ none) {asking : FlattenRequest}
    (isAsked : (asking.id, asking.key) ∈ cluster.askedOf asked id)
    (notify : asking.notify = [cluster.coordinator.id]) :
    (cluster.trigger asking id).1 = .answered (.ok ()) ∧
      cluster.Submits asked asking id (cluster.trigger asking id).2 := by
  rcases Option.ne_none_iff_exists'.mp isService with ⟨node, isNode⟩
  rcases orderly.service isNode with ⟨_, _, steady, works⟩
  have accepts := node.accepts_accept asking
  rcases works.accept isAsked notify with ⟨worksOn, owes⟩
  have isReply : cluster.trigger asking id =
      (.answered (.ok ()), cluster.setMember id (.service (node.accept asking) false)) := by
    simp only [Cluster.trigger, orderly.connect_of_some isNode, submit]
  have keepsLists : node.cache.registry.KeepsLists (node.accept asking).cache.registry := by
    rw [accepts.cache]
    exact .refl _
  have isThere := (service?_setMember cluster id id (node.accept asking) false).trans (if_pos rfl)
  rw [isReply]
  refine ⟨rfl,
    { orderly := orderly.setMember isNode accepts.id
        (steady.of_keepsLists accepts.toIsSame keepsLists) worksOn
      goesOn := .setMember isNode accepts.goesOn
      coordinator := rfl, elsewhere := ?elsewhere
      owes := ⟨node.accept asking, isThere, owes⟩, handles := ?handles }⟩
  case elsewhere =>
    intro other isOther
    exact (service?_setMember cluster id other (node.accept asking) false).trans (if_neg isOther)
  case handles =>
    intro isAlone notOwed handles later isLater
    cases isThere.symm.trans isLater
    refine (handles node isNode).accept fun target isOwed => notOwed ⟨node, isNode, ?_⟩
    rw [← (works.isAsked_of_owes isOwed).2]
    exact isOwed

/-! ## Work, reports and stores -/

/-- A step of the worker of a node at a place, with the delivery of its report. -/
def work (cluster : Cluster σ) (id : NodeId) (node : FlattenNode σ) (place : Nat) : Cluster σ :=
  let (sent, after) := node.runWorker cluster.millis place
  (cluster.setMember id (.service after false)).deliverAll sent.toList

theorem deliver_of_target {delivery : Delivery}
    (isTarget : delivery.target = cluster.coordinator.id) :
    cluster.deliver delivery =
      { cluster with coordinator := cluster.coordinator.receive delivery.report } := by
  simp [deliver, sink?, isTarget]

/-- Whatever a worker does, the cluster moves on. -/
theorem IsOrderly.work (orderly : cluster.IsOrderly asked)
    (canonical : ∀ entry ∈ asked, entry.2.IsCanonical)
    (isService : cluster.service? id = some node) (place : Nat) :
    ∃ told, cluster.Moves asked told (cluster.work id node place) := by
  rcases orderly.service isService with ⟨_, sameId, steady, works⟩
  have grows := askedOf_subset cluster asked id
  have ranStep := FlattenNode.workerStep_runWorker cluster.millis place node
  rcases ran : node.runWorker cluster.millis place with ⟨sent, after⟩
  rw [ran] at ranStep
  have step : FlattenNode.WorkerStep cluster.millis place node sent after := ranStep
  rcases works.workerStep steady (fun entry isEntry => canonical entry (grows isEntry)) step with
    ⟨goesOn, steadyAfter, worksAfter⟩
  -- Whatever is sent is a report of this node to the coordinator.
  have toCoordinator : ∀ delivery, sent = some delivery →
      delivery.target = cluster.coordinator.id ∧ delivery.report.node = id ∧
        ∃ key, (delivery.report.request, key) ∈ cluster.askedOf asked id := by
    intro delivery isSent
    rw [isSent] at step
    rcases works.target_of_sent step with ⟨isTarget, isNode, isAsked⟩
    exact ⟨isTarget, isNode.trans sameId, isAsked⟩
  have isWorked : cluster.work id node place =
      { cluster.setMember id (.service after false) with
        coordinator := (sent.map Delivery.report).elim cluster.coordinator
          cluster.coordinator.receive } := by
    simp only [Cluster.work, ran]
    cases sent with
    | none => rfl
    | some delivery => exact deliver_of_target (toCoordinator delivery rfl).1
  rw [isWorked]
  refine ⟨sent.map Delivery.report, orderly.moves_service isService goesOn steadyAfter worksAfter
    ?_ ?_ ?_⟩
  · intro report isTold
    rcases Option.map_eq_some_iff.mp isTold with ⟨delivery, isSent, isReport⟩
    rw [← isReport]
    exact (toCoordinator delivery isSent).2
  · intro request
    constructor
    · intro owes
      rcases owes.workerStep step with stillOwed | ⟨result, isSent⟩
      · exact Or.inl stillOwed
      · rw [isSent]
        exact Or.inr ⟨_, rfl, rfl⟩
    · intro owes
      apply works.owes_of_workerStep step
      rcases owes with stillOwed | ⟨report, isTold, isRequest⟩
      · exact Or.inl stillOwed
      · rcases Option.map_eq_some_iff.mp isTold with ⟨delivery, isSent, isReport⟩
        rcases toCoordinator delivery isSent with ⟨isTarget, isNode, _⟩
        refine Or.inr ⟨report.result, ?_⟩
        rw [isSent, ← isTarget, ← isRequest, sameId, ← isNode, ← isReport]
  · intro key request isAlone unique handles
    refine ⟨handles.workerStep works unique step goesOn, ?_⟩
    intro report isTold isRequest
    rcases Option.map_eq_some_iff.mp isTold with ⟨delivery, isSent, isReport⟩
    rw [isSent] at step
    rw [← isReport] at isRequest ⊢
    exact handles.answers_of_sent step goesOn isRequest

/-- Somebody else changes what is in the store of a node. -/
def changeStore (cluster : Cluster σ) (id : NodeId) (node : FlattenNode σ) (content : σ) :
    Cluster σ :=
  cluster.setMember id (.service { node with content := content } false)

theorem IsOrderly.changeStore (orderly : cluster.IsOrderly asked)
    (isService : cluster.service? id = some node) (content : σ) :
    cluster.Moves asked none (cluster.changeStore id node content) := by
  rcases orderly.service isService with ⟨_, _, steady, _⟩
  exact orderly.moves_of_work isService ⟨rfl, rfl, rfl, rfl⟩ (fun _ => rfl)
    (steady.of_keepsLists ⟨rfl, rfl, rfl, rfl⟩ (.refl _)) rfl rfl

end Cluster

end Unnest
