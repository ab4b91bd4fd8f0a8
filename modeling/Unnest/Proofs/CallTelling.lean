import Unnest.Proofs.CallPhases
import Unnest.Proofs.SingleCalls

/-!
# What a call is told

Whatever the members of a cluster do, a call of its coordinator is told events one after the other,
and the coordinator hears reports in between (`Cluster.Tells`).  None of these events is the error
that a call ends with when its time is over, the deadline stays, and a request that is tried stays
among those that are waited for.
-/

namespace Unnest

variable {σ : Type}

/-! ## Stages -/

namespace CallStage

/-- Nothing happens before time passes. -/
def IsSettled (stage : CallStage) : Prop :=
  (∃ request, stage = .waiting request) ∨ ∃ reply, stage = .ended reply

end CallStage

namespace CallState

/-- A request that is tried is waited for. -/
def KnowsRequest (state : CallState) : Prop :=
  ∀ request, state.IsTrying request →
    (OrderedMap.find? request state.coordinator.awaited).isSome = true

section Steps

variable {state : CallState}

theorem knowsRequest_of_notTrying (notTrying : ∀ request, ¬ state.IsTrying request) :
    state.KnowsRequest :=
  fun request isTrying => absurd isTrying (notTrying request)

theorem stage_start (state : CallState) (now : Nat) :
    (state.start now).call.stage = .probing ∧ now < state.call.deadline ∨
      ∃ reply, (state.start now).call.stage = .ended reply := by
  unfold start
  by_cases isOver : state.call.deadline ≤ now
  · rw [if_pos isOver]
    exact Or.inr ⟨_, rfl⟩
  · rw [if_neg isOver]
    exact Or.inl ⟨rfl, Nat.lt_of_not_le isOver⟩

theorem stage_judgeProbes (state : CallState) (replies : List (Reply (Option FlattenId)))
    (fresh : RequestId) :
    (state.judgeProbes replies fresh).call.stage = .pausing ∨
      (∃ reply, (state.judgeProbes replies fresh).call.stage = .ended reply) ∨
      (state.judgeProbes replies fresh).call.stage = .triggering fresh ∧
        (OrderedMap.find? fresh
          (state.judgeProbes replies fresh).coordinator.awaited).isSome = true := by
  unfold judgeProbes
  split
  · exact Or.inr (Or.inl ⟨_, rfl⟩)
  · next cause _ =>
      rcases (refuse_ends state cause).2 with isPausing | hasEnded
      · exact Or.inl isPausing
      · exact Or.inr (Or.inl ⟨_, hasEnded⟩)
  · next ids _ =>
      cases Call.commonId? ids with
      | some id => exact Or.inr (Or.inl ⟨_, rfl⟩)
      | none =>
          refine Or.inr (Or.inr ⟨rfl, ?_⟩)
          dsimp only [Coordinator.openRequest]
          rw [OrderedMap.find?_insert_self]
          rfl

theorem stage_judgeTriggers (state : CallState) (request : RequestId)
    (replies : List (Reply Unit)) :
    (state.judgeTriggers request replies).call.stage = .pausing ∨
      (∃ reply, (state.judgeTriggers request replies).call.stage = .ended reply) ∨
      (state.judgeTriggers request replies).call.stage = .waiting request ∧
        (state.judgeTriggers request replies).coordinator = state.coordinator := by
  unfold judgeTriggers
  split
  · exact Or.inr (Or.inl ⟨_, rfl⟩)
  · next cause _ =>
      rcases (refuse_ends { state with coordinator := state.coordinator.closeRequest request }
        cause).2 with isPausing | hasEnded
      · exact Or.inl isPausing
      · exact Or.inr (Or.inl ⟨_, hasEnded⟩)
  · exact Or.inr (Or.inr ⟨rfl, rfl⟩)

/-- A look leaves the call waiting only if nothing is decided. -/
theorem stage_look (state : CallState) (request : RequestId) (now : Nat) :
    (state.look request now).call.stage = .starting ∨
      (∃ reply, (state.look request now).call.stage = .ended reply) ∨
      state.look request now = state ∧
        state.coordinator.verdict request (state.call.deadline ≤ now) = .undecided := by
  unfold look
  cases verdict : state.coordinator.verdict request (state.call.deadline ≤ now) with
  | undecided => exact Or.inr (Or.inr ⟨rfl, rfl⟩)
  | failed failures => exact Or.inr (Or.inl ⟨_, rfl⟩)
  | expired => exact Or.inr (Or.inl ⟨_, rfl⟩)
  | complete results =>
      simp only [judgeResults]
      split
      · exact Or.inr (Or.inl ⟨_, rfl⟩)
      · exact Or.inl rfl

/-- A request that is waited for is decided when the time is over. -/
theorem verdict_ne_undecided {coordinator : Coordinator} {request : RequestId}
    (known : (OrderedMap.find? request coordinator.awaited).isSome = true) :
    coordinator.verdict request true ≠ .undecided := by
  obtain ⟨awaited, isAwaited⟩ := Option.isSome_iff_exists.mp known
  simp only [Coordinator.verdict, isAwaited, AwaitedRequest.verdict]
  split
  · simp
  · split <;> simp

/-- Every event leaves the request that is tried among those that are waited for. -/
theorem KnowsRequest.step (known : state.KnowsRequest) (event : CallEvent) :
    (state.step event).KnowsRequest := by
  have start (now : Nat) : (state.start now).KnowsRequest := by
    apply knowsRequest_of_notTrying
    intro request isTrying
    rcases state.stage_start now with ⟨isProbing, _⟩ | ⟨reply, hasEnded⟩
    · simp [IsTrying, isProbing] at isTrying
    · simp [IsTrying, hasEnded] at isTrying
  unfold CallState.step
  split
  case h_1 report =>
    intro request isTrying
    dsimp only
    rw [find?_receive, Option.isSome_map]
    exact known request isTrying
  case h_2 now _ => exact start now
  case h_3 now _ => exact start now
  case h_4 replies fresh _ =>
    intro request isTrying
    rcases state.stage_judgeProbes replies fresh with
      isPausing | ⟨reply, hasEnded⟩ | ⟨isTriggering, isKnown⟩
    · simp [IsTrying, isPausing] at isTrying
    · simp [IsTrying, hasEnded] at isTrying
    · have sameRequest : fresh = request := by simpa [IsTrying, isTriggering] using isTrying
      rw [← sameRequest]
      exact isKnown
  case h_5 replies tried isTriggering =>
    intro request isTrying
    rcases state.stage_judgeTriggers tried replies with
      isPausing | ⟨reply, hasEnded⟩ | ⟨isWaiting, sameCoordinator⟩
    · simp [IsTrying, isPausing] at isTrying
    · simp [IsTrying, hasEnded] at isTrying
    · have sameRequest : tried = request := by simpa [IsTrying, isWaiting] using isTrying
      rw [sameCoordinator, ← sameRequest]
      exact known tried (Or.inl isTriggering)
  case h_6 now tried isWaiting =>
    intro request isTrying
    rcases state.stage_look tried now with isStarting | ⟨reply, hasEnded⟩ | ⟨isSame, _⟩
    · simp [IsTrying, isStarting] at isTrying
    · simp [IsTrying, hasEnded] at isTrying
    · rw [isSame] at isTrying ⊢
      exact known request isTrying
  case h_7 => exact known

theorem KnowsRequest.run (known : state.KnowsRequest) (events : List CallEvent) :
    (state.run events).KnowsRequest := by
  induction events generalizing state with
  | nil => exact known
  | cons event rest inductionHypothesis => exact inductionHypothesis (known.step event)

theorem run_reported (state : CallState) (reports : List Report) :
    state.run (reports.map .reported) =
      { state with coordinator := reports.foldl Coordinator.receive state.coordinator } := by
  induction reports generalizing state with
  | nil => rfl
  | cons report rest inductionHypothesis =>
      exact inductionHypothesis (state.step (.reported report))

theorem deadline_step (state : CallState) (event : CallEvent) :
    (state.step event).call.deadline = state.call.deadline := by
  have refuse (told : CallState) (cause : Error) :
      (told.refuse cause).call.deadline = told.call.deadline := by
    unfold CallState.refuse
    split <;> rfl
  unfold CallState.step
  split
  case h_2 now _ => unfold start; split <;> rfl
  case h_3 now _ => unfold start; split <;> rfl
  case h_4 replies fresh _ =>
    unfold judgeProbes
    split
    · rfl
    · exact refuse state _
    · split <;> rfl
  case h_5 replies request _ =>
    unfold judgeTriggers
    split
    · rfl
    · exact refuse _ _
    · rfl
  case h_6 now request _ =>
    unfold look judgeResults
    split
    · rfl
    · rfl
    · rfl
    · split <;> rfl
  all_goals rfl

theorem deadline_run (state : CallState) (events : List CallEvent) :
    (state.run events).call.deadline = state.call.deadline := by
  induction events generalizing state with
  | nil => rfl
  | cons event rest inductionHypothesis =>
      exact (inductionHypothesis (state.step event)).trans (state.deadline_step event)

end Steps

end CallState

/-! ## What nodes answer -/

theorem Connections.isTimeout_connect {connections : Connections} {node : NodeId} {cause : Error}
    (refused : (connections.connect node).1 = .error cause) : cause.isTimeout = false := by
  unfold connect at refused
  split at refused
  · cases refused
    rfl
  · split at refused
    · cases refused
    · cases refused
      rfl

theorem ScriptedNode.isTimeout_faultReply {α : Type} (node : ScriptedNode)
    (fault : ScriptedFault) : (node.faultReply fault : Reply α).isTimeout = false := by
  cases fault with
  | _ => rfl

namespace Cluster

/-! ## What the coordinator hears -/

/-- The coordinator has received reports meanwhile, and nothing else has happened to it. -/
def Hears (before after : Cluster σ) : Prop :=
  ∃ reports : List Report,
    after.coordinator = reports.foldl Coordinator.receive before.coordinator

section Hearing

variable {before after : Cluster σ}

theorem hears_of_eq (same : after.coordinator = before.coordinator) : before.Hears after :=
  ⟨[], same⟩

theorem Hears.trans {later : Cluster σ} (earlier : before.Hears after) (hears : after.Hears later) :
    before.Hears later := by
  obtain ⟨first, isFirst⟩ := earlier
  obtain ⟨second, isSecond⟩ := hears
  exact ⟨first ++ second, by rw [isSecond, isFirst, List.foldl_append]⟩

theorem hears_deliver (cluster : Cluster σ) (delivery : Delivery) :
    cluster.Hears (cluster.deliver delivery) := by
  unfold deliver
  cases cluster.sink? delivery.target with
  | error cause => exact hears_of_eq rfl
  | ok sink =>
      cases sink with
      | coordinator => exact ⟨[delivery.report], rfl⟩
      | recorder received => exact hears_of_eq rfl

theorem hears_deliverAll (cluster : Cluster σ) (deliveries : List Delivery) :
    cluster.Hears (cluster.deliverAll deliveries) := by
  induction deliveries generalizing cluster with
  | nil => exact hears_of_eq rfl
  | cons first rest inductionHypothesis =>
      exact (cluster.hears_deliver first).trans (inductionHypothesis _)

theorem hears_settleMember (cluster : Cluster σ) (id : NodeId) :
    cluster.Hears (cluster.settleMember id) := by
  unfold settleMember
  split
  · next node isNode =>
      exact hears_deliverAll
        (cluster.setMember id (.service (node.settle cluster.millis).2 false)) _
  · exact hears_of_eq rfl

theorem hears_settle (cluster : Cluster σ) : cluster.Hears cluster.settle := by
  have hears : ∀ (ids : List NodeId) (earlier : Cluster σ),
      earlier.Hears (ids.foldl settleMember earlier) := by
    intro ids
    induction ids with
    | nil => exact fun _ => hears_of_eq rfl
    | cons first rest inductionHypothesis =>
        exact fun earlier => (earlier.hears_settleMember first).trans (inductionHypothesis _)
  exact hears _ cluster

theorem coordinator_connect (cluster : Cluster σ) (id : NodeId) :
    (cluster.connect id).2.coordinator = cluster.coordinator := by
  unfold connect
  rcases cluster.connections.connect id with ⟨connected, connections⟩
  cases connected with
  | error cause => rfl
  | ok _ => rfl

theorem isTimeout_connect {cluster : Cluster σ} {id : NodeId} {cause : Error}
    (refused : (cluster.connect id).1 = .error cause) : cause.isTimeout = false := by
  unfold connect at refused
  rcases isConnected : cluster.connections.connect id with ⟨connected, connections⟩
  rw [isConnected] at refused
  cases connected with
  | error other =>
      cases refused
      exact Connections.isTimeout_connect (by rw [isConnected])
  | ok _ =>
      dsimp only [member?] at refused
      split at refused
      · cases refused
        rfl
      · split at refused
        · cases refused
          rfl
        · cases refused

theorem probe_outcome (cluster : Cluster σ) (table flattenBy : String) (id : NodeId) :
    (cluster.probe table flattenBy id).1.isTimeout = false ∧
      cluster.Hears (cluster.probe table flattenBy id).2 := by
  have sameCoordinator := cluster.coordinator_connect id
  have noTimeout : ∀ cause, (cluster.connect id).1 = .error cause → cause.isTimeout = false :=
    fun cause refused => isTimeout_connect refused
  unfold probe
  rcases isConnected : cluster.connect id with ⟨connected, later⟩
  rw [isConnected] at sameCoordinator noTimeout
  rcases connected with cause | member
  · exact ⟨noTimeout cause rfl, hears_of_eq sameCoordinator⟩
  · cases member with
    | service node isHeld => exact ⟨rfl, hears_of_eq sameCoordinator⟩
    | scripted node =>
        refine ⟨?_, hears_of_eq sameCoordinator⟩
        dsimp only
        unfold ScriptedNode.probe
        split
        · rfl
        · rfl
        · rfl
        · exact ScriptedNode.isTimeout_faultReply node _

theorem trigger_outcome (cluster : Cluster σ) (request : FlattenRequest) (id : NodeId) :
    (cluster.trigger request id).1.isTimeout = false ∧
      cluster.Hears (cluster.trigger request id).2 := by
  have sameCoordinator := cluster.coordinator_connect id
  have noTimeout : ∀ cause, (cluster.connect id).1 = .error cause → cause.isTimeout = false :=
    fun cause refused => isTimeout_connect refused
  unfold trigger
  rcases isConnected : cluster.connect id with ⟨connected, later⟩
  rw [isConnected] at sameCoordinator noTimeout
  rcases connected with cause | member
  · exact ⟨noTimeout cause rfl, hears_of_eq sameCoordinator⟩
  · cases member with
    | service node isHeld => exact ⟨rfl, hears_of_eq sameCoordinator⟩
    | scripted node =>
        rcases isAnswer : node.flatten request with ⟨reply, sent, changed⟩
        have replyOf : reply = (node.flatten request).1 := by rw [isAnswer]
        simp only [submit, isAnswer]
        constructor
        · rw [replyOf]
          unfold ScriptedNode.flatten
          split
          · rfl
          · rfl
          · rfl
          · rfl
          · rfl
          · exact ScriptedNode.isTimeout_faultReply node _
        · have hears := hears_deliverAll (later.setMember id (.scripted changed)) sent
          exact (hears_of_eq sameCoordinator).trans hears

theorem callEach_outcome {α : Type} {ask : Cluster σ → NodeId → Reply α × Cluster σ}
    (asks : ∀ (cluster : Cluster σ) id,
      (ask cluster id).1.isTimeout = false ∧ cluster.Hears (ask cluster id).2)
    (ids : List NodeId) (cluster : Cluster σ) :
    (callEach ask ids cluster).1.any Reply.isTimeout = false ∧
      cluster.Hears (callEach ask ids cluster).2 := by
  induction ids generalizing cluster with
  | nil => exact ⟨rfl, hears_of_eq rfl⟩
  | cons first rest inductionHypothesis =>
      have isAsked := asks cluster first
      have areAsked := inductionHypothesis (ask cluster first).2
      refine ⟨?_, isAsked.2.trans areAsked.2⟩
      rw [callEach, List.any_cons, isAsked.1, Bool.false_or]
      exact areAsked.1

end Hearing

/-! ## What a call is told -/

/-- A call and its cluster go on by events that the call is told. -/
def Tells (earlier later : Call × Cluster σ) : Prop :=
  ∃ events : List CallEvent, (∀ event ∈ events, event.tellsTimeout = false) ∧
    CallState.run ⟨earlier.1, earlier.2.coordinator⟩ events = ⟨later.1, later.2.coordinator⟩

section Telling

variable {call : Call} {cluster later : Cluster σ}

theorem Tells.trans {first second third : Call × Cluster σ} (before : Tells first second)
    (after : Tells second third) : Tells first third := by
  obtain ⟨earlier, earlierTimely, isSecond⟩ := before
  obtain ⟨events, timely, isThird⟩ := after
  refine ⟨earlier ++ events, ?_, ?_⟩
  · intro event isEvent
    rcases List.mem_append.mp isEvent with isEarlier | isLater
    · exact earlierTimely event isEarlier
    · exact timely event isLater
  · rw [CallState.run, List.foldl_append]
    rw [CallState.run] at isSecond
    rw [isSecond]
    exact isThird

theorem Hears.tells (hears : cluster.Hears later) (call : Call) :
    Tells (call, cluster) (call, later) := by
  obtain ⟨reports, areHeard⟩ := hears
  refine ⟨reports.map .reported, ?_, ?_⟩
  · intro event isEvent
    obtain ⟨report, _, isReport⟩ := List.mem_map.mp isEvent
    rw [← isReport]
    rfl
  · rw [CallState.run_reported, areHeard]

theorem tells_refl (call : Call) (same : later.coordinator = cluster.coordinator) :
    Tells (call, cluster) (call, later) :=
  (hears_of_eq same).tells call

theorem tells_tell (call : Call) (cluster : Cluster σ) {event : CallEvent}
    (noTimeout : event.tellsTimeout = false) :
    Tells (call, cluster) (cluster.tell event call) := by
  refine ⟨[event], ?_, rfl⟩
  intro other isEvent
  rw [List.mem_singleton.mp isEvent]
  exact noTimeout

theorem Tells.deadline_eq {earlier later : Call × Cluster σ} (tells : Tells earlier later) :
    later.1.deadline = earlier.1.deadline := by
  obtain ⟨events, _, isLater⟩ := tells
  have sameDeadline := CallState.deadline_run ⟨earlier.1, earlier.2.coordinator⟩ events
  rw [isLater] at sameDeadline
  exact sameDeadline

theorem Tells.knowsRequest {earlier later : Call × Cluster σ} (tells : Tells earlier later)
    (known : CallState.KnowsRequest ⟨earlier.1, earlier.2.coordinator⟩) :
    CallState.KnowsRequest ⟨later.1, later.2.coordinator⟩ := by
  obtain ⟨events, _, isLater⟩ := tells
  rw [← isLater]
  exact known.run events

end Telling

end Cluster

end Unnest
