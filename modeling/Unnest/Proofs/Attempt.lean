import Mathlib.Data.List.Induction
import Mathlib.Data.List.Infix
import Unnest.Cluster.Agreement
import Unnest.Proofs.OrderedMap
import Unnest.Proofs.Replies

/-!
# What an attempt comes to

While an attempt goes on, what the coordinator knows of its request is the replay of the reports on
this request, whatever else it is told (`CallState.IsAttempt`).  So the outcome of an attempt can be
read off these reports: it is a flattening only if all nodes have reported it last, a remote failure
if there is a failure among them, and a timeout only if a report is missing.  At its end the request
is forgotten, unless two of the calls that sent it have broken down.  The main statement is
`CallState.attempt_outcome`.
-/

namespace Unnest

/-! ## Reports -/

namespace Report

def failure? (report : Report) : Option (NodeId × String) :=
  match report.result with
  | .flattened _ => none
  | .failed reason => some (report.node, reason)

def flattening? (report : Report) : Option FlattenId :=
  match report.result with
  | .flattened id => some id
  | .failed _ => none

end Report

/-- The failures among reports, in their order. -/
def failuresIn (reports : List Report) : List (NodeId × String) :=
  reports.filterMap Report.failure?

/-- The flattening that a node has reported last. -/
def latestFlattening? (reports : List Report) (node : NodeId) : Option FlattenId :=
  ((reports.filter fun report => report.node == node).filterMap Report.flattening?).getLast?

theorem latestFlattening?_concat (reports : List Report) (report : Report) (node : NodeId) :
    latestFlattening? (reports ++ [report]) node =
      if report.node = node then report.flattening?.or (latestFlattening? reports node)
      else latestFlattening? reports node := by
  by_cases same : report.node = node
  · cases flattening : report.flattening? with
    | none => simp [latestFlattening?, same, flattening]
    | some id => simp [latestFlattening?, same, flattening]
  · simp [latestFlattening?, same]

theorem exists_latestFlattening? {reports : List Report} (noFailure : failuresIn reports = [])
    {report : Report} (isReport : report ∈ reports) :
    ∃ id, latestFlattening? reports report.node = some id := by
  have succeeds : ∃ id, report.flattening? = some id := by
    cases result : report.result with
    | flattened id => exact ⟨id, by rw [Report.flattening?, result]⟩
    | failed reason =>
        have isFailure : (report.node, reason) ∈ failuresIn reports :=
          List.mem_filterMap.mpr ⟨report, isReport, by rw [Report.failure?, result]⟩
        rw [noFailure] at isFailure
        cases isFailure
  rcases succeeds with ⟨id, isFlattening⟩
  have isThere : id ∈ (reports.filter fun other => other.node == report.node).filterMap
      Report.flattening? := by
    apply List.mem_filterMap.mpr
    exact ⟨report, List.mem_filter.mpr ⟨isReport, beq_self_eq_true _⟩, isFlattening⟩
  cases latest : latestFlattening? reports report.node with
  | some latestId => exact ⟨latestId, rfl⟩
  | none =>
      rw [latestFlattening?, List.getLast?_eq_none_iff] at latest
      rw [latest] at isThere
      cases isThere

namespace AwaitedRequest

/-- What is known of a request after reports. -/
def afterReports (nodes : List NodeId) (reports : List Report) : AwaitedRequest :=
  reports.foldl record { pending := nodes }

theorem afterReports_concat (nodes : List NodeId) (reports : List Report) (report : Report) :
    afterReports nodes (reports ++ [report]) = (afterReports nodes reports).record report :=
  List.foldl_concat record { pending := nodes } report reports

/-- The replay of the reports: who is missing, what has failed, and what each node has reported
last. -/
structure Replays (nodes : List NodeId) (reports : List Report) (awaited : AwaitedRequest) :
    Prop where
  pending : ∀ node, node ∈ awaited.pending ↔
    node ∈ nodes ∧ ∀ report ∈ reports, report.node ≠ node
  failures : awaited.failures = failuresIn reports
  results : ∀ node, OrderedMap.find? node awaited.results = latestFlattening? reports node

theorem Replays.record {nodes : List NodeId} {reports : List Report} {awaited : AwaitedRequest}
    (replays : Replays nodes reports awaited) (report : Report) :
    Replays nodes (reports ++ [report]) (awaited.record report) := by
  have pending : ∀ node, node ∈ awaited.pending.filter (· != report.node) ↔
      node ∈ nodes ∧ ∀ other ∈ reports ++ [report], other.node ≠ node := by
    intro node
    rw [List.mem_filter, replays.pending node]
    simp only [bne_iff_ne, List.mem_append, List.mem_singleton]
    grind
  cases result : report.result with
  | flattened id =>
      simp only [AwaitedRequest.record, result]
      refine ⟨pending, ?_, ?_⟩
      · simp [failuresIn, Report.failure?, result, replays.failures]
      · intro node
        rw [latestFlattening?_concat]
        by_cases same : report.node = node
        · rw [if_pos same, ← same, OrderedMap.find?_insert_self, Report.flattening?, result]
          rfl
        · rw [if_neg same, OrderedMap.find?_insert_of_ne (Ne.symm same), replays.results]
  | failed reason =>
      simp only [AwaitedRequest.record, result]
      refine ⟨pending, ?_, ?_⟩
      · simp [failuresIn, Report.failure?, result, replays.failures]
      · intro node
        rw [latestFlattening?_concat, replays.results, Report.flattening?, result]
        by_cases same : report.node = node
        · rw [if_pos same, Option.none_or]
        · rw [if_neg same]

theorem replays_afterReports (nodes : List NodeId) (reports : List Report) :
    Replays nodes reports (afterReports nodes reports) := by
  induction reports using List.reverseRecOn with
  | nil => exact ⟨by simp [afterReports], rfl, fun _ => rfl⟩
  | append_singleton earlier last inductionHypothesis =>
      rw [afterReports_concat]
      exact inductionHypothesis.record last

/-- What a look at a request tells, by the reports that were received on it. -/
theorem verdict_afterReports (nodes : List NodeId) (reports : List Report) (isOver : Bool) :
    (failuresIn reports ≠ [] ∧
      (afterReports nodes reports).verdict isOver = .failed (failuresIn reports)) ∨
    failuresIn reports = [] ∧
      ((∀ node ∈ nodes, ∃ report ∈ reports, report.node = node) ∧
        (afterReports nodes reports).verdict isOver =
          .complete (afterReports nodes reports).results ∨
      (∃ node ∈ nodes, ∀ report ∈ reports, report.node ≠ node) ∧
        (afterReports nodes reports).verdict isOver =
          if isOver then .expired else .undecided) := by
  have replays := replays_afterReports nodes reports
  unfold verdict
  rw [replays.failures]
  cases failures : failuresIn reports with
  | cons first rest => exact Or.inl ⟨by simp, rfl⟩
  | nil =>
      refine Or.inr ⟨rfl, ?_⟩
      cases pending : (afterReports nodes reports).pending with
      | nil =>
          refine Or.inl ⟨?_, rfl⟩
          intro node isNode
          by_contra missing
          have isPending := (replays.pending node).mpr ⟨isNode, by grind⟩
          rw [pending] at isPending
          cases isPending
      | cons node others =>
          have isPending : node ∈ (afterReports nodes reports).pending := by
            rw [pending]
            exact List.mem_cons_self
          rcases (replays.pending node).mp isPending with ⟨isNode, missing⟩
          exact Or.inr ⟨⟨node, isNode, missing⟩, rfl⟩

end AwaitedRequest

theorem Call.eq_of_commonId? {ids : List (Option FlattenId)} {id : FlattenId}
    (common : commonId? ids = some id) {other : Option FlattenId} (isOther : other ∈ ids) :
    other = some id := by
  cases ids with
  | nil => cases isOther
  | cons first rest =>
      simp only [commonId?] at common
      by_cases same : (rest.all (· == first)) = true
      · rw [if_pos same] at common
        rcases List.mem_cons.mp isOther with isFirst | isLater
        · rw [isFirst, common]
        · rw [beq_iff_eq.mp (List.all_eq_true.mp same other isLater), common]
      · rw [if_neg same] at common
        cases common

/-- If all nodes have reported and none has failed, the id that the results have in common is what
every node has reported last. -/
theorem latestFlattening?_of_commonId? {nodes : List NodeId} {reports : List Report}
    (noFailure : failuresIn reports = [])
    (complete : ∀ node ∈ nodes, ∃ report ∈ reports, report.node = node) {id : FlattenId}
    (common : Call.commonId? ((AwaitedRequest.afterReports nodes reports).results.map
      fun (_, id) => some id) = some id) :
    ∀ node ∈ nodes, latestFlattening? reports node = some id := by
  intro node isNode
  rcases complete node isNode with ⟨report, isReport, sameNode⟩
  rcases exists_latestFlattening? noFailure isReport with ⟨latest, isLatest⟩
  rw [sameNode] at isLatest
  have found := (AwaitedRequest.replays_afterReports nodes reports).results node
  rw [isLatest] at found
  have isResult : some latest ∈ (AwaitedRequest.afterReports nodes reports).results.map
      fun (_, id) => some id :=
    List.mem_map.mpr ⟨(node, latest), OrderedMap.mem_of_find? found, rfl⟩
  rw [isLatest, Call.eq_of_commonId? common isResult]

/-! ## The course of an attempt -/

namespace CallEvent

def reportOn? (request : RequestId) : CallEvent → Option Report
  | .reported report => if report.request = request then some report else none
  | _ => none

/-- The event is not a report on another request. -/
def concerns (request : RequestId) : CallEvent → Bool
  | .reported report => decide (report.request = request)
  | _ => true

/-- Two calls of nodes have broken down, so that whoever waits for them breaks down. -/
def breaksDown : CallEvent → Bool
  | .probed replies _ => decide (2 ≤ replies.countP Reply.isCrash)
  | .triggered replies => decide (2 ≤ replies.countP Reply.isCrash)
  | _ => false

end CallEvent

/-- The reports on a request among events. -/
def reportsOn (request : RequestId) (events : List CallEvent) : List Report :=
  events.filterMap (CallEvent.reportOn? request)

theorem reportsOn_concat (request : RequestId) (events : List CallEvent) (event : CallEvent) :
    reportsOn request (events ++ [event]) =
      reportsOn request events ++ (event.reportOn? request).toList := by
  rw [reportsOn, List.filterMap_append]
  cases reported : event.reportOn? request with
  | none => simp [reportsOn, reported]
  | some report => simp [reportsOn, reported]

namespace CallState

/-- The nodes are being sent the request, or its reports are awaited. -/
def IsTrying (request : RequestId) (state : CallState) : Prop :=
  state.call.stage = .triggering request ∨ state.call.stage = .waiting request

/-- An attempt of a call after reports on its request. -/
structure IsAttempt (call : Call) (request : RequestId) (reports : List Report)
    (state : CallState) : Prop where
  sameCall : ∃ stage phases, state.call = { call with stage := stage, phases := phases }
  ordered : OrderedMap.IsOrdered state.coordinator.awaited
  awaited : OrderedMap.find? request state.coordinator.awaited =
    some (AwaitedRequest.afterReports call.nodes reports)

/-- What an event can do in an attempt. -/
inductive AttemptStep (call : Call) (request : RequestId) (reports : List Report)
    (before : CallState) : CallEvent → CallState → Prop where
  | heard (report : Report) :
      AttemptStep call request reports before (.reported report)
        { before with coordinator := before.coordinator.receive report }
  | accepted {replies : List (Reply Unit)} {answers : List Unit}
      (isTriggering : before.call.stage = .triggering request)
      (answered : Reply.gather "E-COORD-002" replies = .answered (.ok answers)) :
      AttemptStep call request reports before (.triggered replies)
        { before with call := before.call.enter (.waiting request) [.waiting] }
  | refused {replies : List (Reply Unit)} {cause : Error}
      (isTriggering : before.call.stage = .triggering request)
      (answered : Reply.gather "E-COORD-002" replies = .answered (.error cause)) :
      AttemptStep call request reports before (.triggered replies)
        ({ before with coordinator := before.coordinator.closeRequest request }.refuse cause)
  | brokeDown {replies : List (Reply Unit)}
      (isTriggering : before.call.stage = .triggering request)
      (crashed : Reply.gather "E-COORD-002" replies = .crashed) :
      AttemptStep call request reports before (.triggered replies)
        { before with call := before.call.breakDown }
  | failed {now : Nat} (isWaiting : before.call.stage = .waiting request)
      (hasFailed : failuresIn reports ≠ []) :
      AttemptStep call request reports before (.looked now)
        { call := before.call.fail (.remoteFailure request (failuresIn reports))
          coordinator := before.coordinator.closeRequest request }
  | expired {now : Nat} (isWaiting : before.call.stage = .waiting request)
      (noFailure : failuresIn reports = []) (isOver : call.deadline ≤ now)
      (isMissing : ∃ node ∈ call.nodes, ∀ report ∈ reports, report.node ≠ node) :
      AttemptStep call request reports before (.looked now)
        { call := before.call.expire now
          coordinator := before.coordinator.closeRequest request }
  | flattened {now : Nat} {id : FlattenId} (isWaiting : before.call.stage = .waiting request)
      (noFailure : failuresIn reports = [])
      (agree : ∀ node ∈ call.nodes, latestFlattening? reports node = some id) :
      AttemptStep call request reports before (.looked now)
        { call := before.call.finish id true
          coordinator := before.coordinator.closeRequest request }
  | disagreed {now : Nat} (isWaiting : before.call.stage = .waiting request)
      (noFailure : failuresIn reports = []) :
      AttemptStep call request reports before (.looked now)
        { call := before.call.enter .starting []
          coordinator :=
            { before.coordinator.closeRequest request with
              disagreements := before.coordinator.disagreements + 1 } }
  | undecided {now : Nat} (isWaiting : before.call.stage = .waiting request)
      (noFailure : failuresIn reports = []) :
      AttemptStep call request reports before (.looked now) before
  | ignored (event : CallEvent) (noReport : ∀ report, event ≠ .reported report)
      (noLook : ∀ now, event = .looked now → before.call.stage ≠ .waiting request) :
      AttemptStep call request reports before event before

variable {call : Call} {request : RequestId} {reports : List Report} {state : CallState}

theorem IsAttempt.look (isAttempt : state.IsAttempt call request reports)
    (isWaiting : state.call.stage = .waiting request) (now : Nat) :
    AttemptStep call request reports state (.looked now) (state.look request now) := by
  rcases isAttempt.sameCall with ⟨stage, phases, sameCall⟩
  have sameDeadline : state.call.deadline = call.deadline := by rw [sameCall]
  unfold CallState.look
  simp only [Coordinator.verdict, isAttempt.awaited]
  rcases AwaitedRequest.verdict_afterReports call.nodes reports (state.call.deadline ≤ now) with
    ⟨hasFailed, verdict⟩ | ⟨noFailure, ⟨complete, verdict⟩ | ⟨isMissing, verdict⟩⟩
  · simp only [verdict]
    exact .failed isWaiting hasFailed
  · simp only [verdict, judgeResults]
    cases common : Call.commonId? ((AwaitedRequest.afterReports call.nodes reports).results.map
        fun (_, id) => some id) with
    | some id =>
        exact .flattened isWaiting noFailure
          (latestFlattening?_of_commonId? noFailure complete common)
    | none => exact .disagreed isWaiting noFailure
  · rw [verdict]
    by_cases isOver : state.call.deadline ≤ now
    · simp only [isOver, decide_true, if_true]
      exact .expired isWaiting noFailure (sameDeadline ▸ isOver) isMissing
    · simp only [isOver, decide_false]
      exact .undecided isWaiting noFailure

theorem IsAttempt.step (isAttempt : state.IsAttempt call request reports)
    (isTrying : state.IsTrying request) (event : CallEvent) :
    AttemptStep call request reports state event (state.step event) := by
  unfold CallState.step
  rcases isTrying with isTriggering | isWaiting
  · rw [isTriggering]
    cases event with
    | reported report => exact .heard report
    | triggered replies =>
        simp only [judgeTriggers]
        split
        · next crashed => exact .brokeDown isTriggering crashed
        · next cause answered => exact .refused isTriggering answered
        · next answers answered => exact .accepted isTriggering answered
    | clock now => exact .ignored _ (by simp) (by simp)
    | probed replies fresh => exact .ignored _ (by simp) (by simp)
    | looked now => exact .ignored _ (by simp) (by simp [isTriggering])
  · rw [isWaiting]
    cases event with
    | reported report => exact .heard report
    | looked now => exact isAttempt.look isWaiting now
    | clock now => exact .ignored _ (by simp) (by simp)
    | probed replies fresh => exact .ignored _ (by simp) (by simp)
    | triggered replies => exact .ignored _ (by simp) (by simp)

/-! ## The end of an attempt -/

theorem find?_receive (coordinator : Coordinator) (report : Report) (request : RequestId) :
    OrderedMap.find? request (coordinator.receive report).awaited =
      (OrderedMap.find? request coordinator.awaited).map fun awaited =>
        if report.request = request then awaited.record report else awaited := by
  unfold Coordinator.receive
  cases found : OrderedMap.find? report.request coordinator.awaited with
  | none =>
      by_cases same : report.request = request
      · rw [← same, found]
        rfl
      · simp [same]
  | some awaited =>
      by_cases same : report.request = request
      · rw [← same, OrderedMap.find?_insert_self, found]
        simp
      · rw [OrderedMap.find?_insert_of_ne (Ne.symm same)]
        simp [same]

theorem isOrdered_receive {coordinator : Coordinator}
    (ordered : OrderedMap.IsOrdered coordinator.awaited) (report : Report) :
    OrderedMap.IsOrdered (coordinator.receive report).awaited := by
  unfold Coordinator.receive
  cases OrderedMap.find? report.request coordinator.awaited with
  | none => exact ordered
  | some awaited => exact OrderedMap.isOrdered_insert _ _ ordered

/-- An error ends the attempt; whether the call goes on is another matter. -/
theorem refuse_ends (state : CallState) (cause : Error) :
    (state.refuse cause).coordinator.awaited = state.coordinator.awaited ∧
      ((state.refuse cause).call.stage = .pausing ∨
        (state.refuse cause).call.stage = .ended (.answered (.error cause))) := by
  unfold refuse
  by_cases isUnreachable : cause.isUnreachable = true
  · rw [if_pos isUnreachable]
    exact ⟨rfl, Or.inl rfl⟩
  · rw [if_neg isUnreachable]
    exact ⟨rfl, Or.inr rfl⟩

/-- The event is no report, and after it the request is no longer tried; it is still waited for only
if the event breaks the call down. -/
structure IsEnd (request : RequestId) (event : CallEvent) (after : CallState) : Prop where
  noReport : event.reportOn? request = none
  notTrying : ¬ after.IsTrying request
  stays : (OrderedMap.find? request after.coordinator.awaited).isSome = event.breaksDown

/-- An event lets an attempt go on, with the report that it may bring, or ends it. -/
theorem AttemptStep.goesOn_or_ends {event : CallEvent} {after : CallState}
    (step : AttemptStep call request reports state event after)
    (isAttempt : state.IsAttempt call request reports) (isTrying : state.IsTrying request) :
    (after.IsTrying request ∧
      after.IsAttempt call request (reports ++ (event.reportOn? request).toList)) ∨
    IsEnd request event after := by
  rcases isAttempt with ⟨sameCall, ordered, awaited⟩
  have closed :
      (OrderedMap.find? request (state.coordinator.closeRequest request).awaited).isSome =
        false := by
    rw [Option.isSome_eq_false_iff, Option.isNone_iff_eq_none]
    exact OrderedMap.find?_erase_self request ordered
  cases step with
  | heard report =>
      refine Or.inl ⟨isTrying, sameCall, isOrdered_receive ordered report, ?_⟩
      change OrderedMap.find? request (state.coordinator.receive report).awaited = _
      rw [find?_receive, awaited, Option.map_some, CallEvent.reportOn?]
      by_cases same : report.request = request
      · rw [if_pos same, if_pos same, Option.toList_some, AwaitedRequest.afterReports_concat]
      · rw [if_neg same, if_neg same, Option.toList_none, List.append_nil]
  | @accepted replies answers isTriggering answered =>
      rcases sameCall with ⟨stage, phases, same⟩
      have nothing : (CallEvent.triggered replies).reportOn? request = none := rfl
      rw [nothing, Option.toList_none, List.append_nil]
      refine Or.inl ⟨Or.inr rfl, ⟨.waiting request, state.call.phases ++ [.waiting], ?_⟩, ordered,
        awaited⟩
      simp only [Call.enter, same]
  | @refused replies cause isTriggering answered =>
      have noBreak : (CallEvent.triggered replies).breaksDown = false := by
        apply decide_eq_false
        intro crashes
        cases answered.symm.trans (Reply.gather_eq_crashed_iff.mpr crashes)
      rcases refuse_ends { state with coordinator := state.coordinator.closeRequest request } cause
        with ⟨sameAwaited, isPausing | hasEnded⟩
      · exact Or.inr ⟨rfl, by simp [IsTrying, isPausing], by rw [sameAwaited, closed, noBreak]⟩
      · exact Or.inr ⟨rfl, by simp [IsTrying, hasEnded], by rw [sameAwaited, closed, noBreak]⟩
  | @brokeDown replies isTriggering crashed =>
      have breaks : (CallEvent.triggered replies).breaksDown = true :=
        decide_eq_true (Reply.gather_eq_crashed_iff.mp crashed)
      refine Or.inr ⟨rfl, by simp [IsTrying, Call.breakDown, Call.enter], ?_⟩
      rw [awaited, breaks]
      rfl
  | failed isWaiting hasFailed =>
      exact Or.inr ⟨rfl, by simp [IsTrying, Call.fail, Call.enter], closed⟩
  | expired isWaiting noFailure isOver isMissing =>
      exact Or.inr ⟨rfl, by simp [IsTrying, Call.expire, Call.enter], closed⟩
  | flattened isWaiting noFailure agree =>
      exact Or.inr ⟨rfl, by simp [IsTrying, Call.finish, Call.enter], closed⟩
  | disagreed isWaiting noFailure =>
      exact Or.inr ⟨rfl, by simp [IsTrying, Call.enter], closed⟩
  | @undecided now isWaiting noFailure =>
      have nothing : (CallEvent.looked now).reportOn? request = none := rfl
      rw [nothing, Option.toList_none, List.append_nil]
      exact Or.inl ⟨isTrying, sameCall, ordered, awaited⟩
  | ignored event noReport noLook =>
      have nothing : event.reportOn? request = none := by
        cases event with
        | reported report => exact absurd rfl (noReport report)
        | _ => rfl
      rw [nothing, Option.toList_none, List.append_nil]
      exact Or.inl ⟨isTrying, sameCall, ordered, awaited⟩

theorem not_isTrying_of_ended {reply : Reply Agreement}
    (hasEnded : state.call.stage = .ended reply) : ¬ state.IsTrying request := by
  simp [IsTrying, hasEnded]

/-- An attempt that comes to a flattening has it from every node. -/
theorem AttemptStep.of_ended_ok {event : CallEvent} {after : CallState}
    (step : AttemptStep call request reports state event after) (isTrying : state.IsTrying request)
    {agreement : Agreement} (hasEnded : after.call.stage = .ended (.answered (.ok agreement))) :
    failuresIn reports = [] ∧
      ∀ node ∈ call.nodes, latestFlattening? reports node = some agreement.id := by
  cases step with
  | heard report => exact absurd isTrying (not_isTrying_of_ended hasEnded)
  | accepted isTriggering answered => cases hasEnded
  | refused isTriggering answered =>
      rcases (refuse_ends _ _).2 with isPausing | hasFailed
      · cases isPausing.symm.trans hasEnded
      · cases hasFailed.symm.trans hasEnded
  | brokeDown isTriggering crashed => cases hasEnded
  | failed isWaiting hasFailed => cases hasEnded
  | expired isWaiting noFailure isOver isMissing => cases hasEnded
  | flattened isWaiting noFailure agree =>
      cases hasEnded
      exact ⟨noFailure, agree⟩
  | disagreed isWaiting noFailure => cases hasEnded
  | undecided isWaiting noFailure => exact absurd isTrying (not_isTrying_of_ended hasEnded)
  | ignored event noReport noLook => exact absurd isTrying (not_isTrying_of_ended hasEnded)

/-- An attempt that fails has met an error when it sent the request, or a failure, or the
deadline. -/
theorem AttemptStep.of_ended_error {event : CallEvent} {after : CallState}
    (step : AttemptStep call request reports state event after)
    (isAttempt : state.IsAttempt call request reports) (isTrying : state.IsTrying request)
    {cause : Error} (hasEnded : after.call.stage = .ended (.answered (.error cause))) :
    (∃ answers, event = .triggered answers ∧
      Reply.gather "E-COORD-002" answers = .answered (.error cause)) ∨
    ∃ now, event = .looked now ∧ state.call.stage = .waiting request ∧
      (failuresIn reports ≠ [] ∧ cause = .remoteFailure request (failuresIn reports) ∨
      failuresIn reports = [] ∧ call.deadline ≤ now ∧
        (∃ node ∈ call.nodes, ∀ report ∈ reports, report.node ≠ node) ∧
        ∃ waited, cause = .timeout call.table call.flattenBy waited) := by
  cases step with
  | heard report => exact absurd isTrying (not_isTrying_of_ended hasEnded)
  | accepted isTriggering answered => cases hasEnded
  | refused isTriggering answered =>
      rcases (refuse_ends _ _).2 with isPausing | hasFailed
      · cases isPausing.symm.trans hasEnded
      · cases hasFailed.symm.trans hasEnded
        exact Or.inl ⟨_, rfl, answered⟩
  | brokeDown isTriggering crashed => cases hasEnded
  | failed isWaiting hasFailed =>
      cases hasEnded
      exact Or.inr ⟨_, rfl, isWaiting, Or.inl ⟨hasFailed, rfl⟩⟩
  | expired isWaiting noFailure isOver isMissing =>
      cases hasEnded
      rcases isAttempt.sameCall with ⟨stage, phases, same⟩
      refine Or.inr ⟨_, rfl, isWaiting, Or.inr ⟨noFailure, isOver, isMissing, ?_⟩⟩
      rw [same]
      exact ⟨_, rfl⟩
  | flattened isWaiting noFailure agree => cases hasEnded
  | disagreed isWaiting noFailure => cases hasEnded
  | undecided isWaiting noFailure => exact absurd isTrying (not_isTrying_of_ended hasEnded)
  | ignored event noReport noLook => exact absurd isTrying (not_isTrying_of_ended hasEnded)

/-- A look at the reports ends the attempt with the failures so far, if there are any. -/
theorem AttemptStep.remoteFailure_iff {now : Nat} {after : CallState}
    (step : AttemptStep call request reports state (.looked now) after)
    (isAttempt : state.IsAttempt call request reports)
    (isWaiting : state.call.stage = .waiting request) (named : RequestId)
    (failures : List (NodeId × String)) :
    after.call.stage = .ended (.answered (.error (.remoteFailure named failures))) ↔
      failuresIn reports ≠ [] ∧ named = request ∧ failures = failuresIn reports := by
  constructor
  · intro hasEnded
    rcases step.of_ended_error isAttempt (Or.inr isWaiting) hasEnded with
      ⟨_, isTrigger, _⟩ | ⟨_, _, _, ⟨hasFailed, same⟩ | ⟨_, _, _, _, isTimeout⟩⟩
    · cases isTrigger
    · cases same
      exact ⟨hasFailed, rfl, rfl⟩
    · cases isTimeout
  · rintro ⟨hasFailed, rfl, rfl⟩
    cases step with
    | failed _ _ => rfl
    | expired _ noFailure _ _ => exact absurd noFailure hasFailed
    | flattened _ noFailure _ => exact absurd noFailure hasFailed
    | disagreed _ noFailure => exact absurd noFailure hasFailed
    | undecided _ noFailure => exact absurd noFailure hasFailed
    | ignored _ _ noLook => exact absurd isWaiting (noLook now rfl)

theorem IsAttempt.goesOn (isAttempt : state.IsAttempt call request reports)
    (isTrying : state.IsTrying request) {event : CallEvent}
    (stillTrying : (state.step event).IsTrying request) :
    (state.step event).IsAttempt call request (reports ++ (event.reportOn? request).toList) := by
  rcases (isAttempt.step isTrying event).goesOn_or_ends isAttempt isTrying with
    ⟨_, goesOn⟩ | ends
  · exact goesOn
  · exact absurd stillTrying ends.notTrying

/-- An attempt that goes on replays the reports on its request. -/
theorem IsAttempt.run {opened : CallState} (isAttempt : opened.IsAttempt call request [])
    {events : List CallEvent}
    (isGoing : ∀ earlier, earlier <+: events → (opened.run earlier).IsTrying request) :
    (opened.run events).IsAttempt call request (reportsOn request events) := by
  induction events using List.reverseRecOn with
  | nil => exact isAttempt
  | append_singleton earlier event inductionHypothesis =>
      have isPrefix : earlier <+: earlier ++ [event] := List.prefix_append earlier [event]
      have before := inductionHypothesis fun first isFirst => isGoing first (isFirst.trans isPrefix)
      have stillTrying := isGoing (earlier ++ [event]) (List.prefix_refl _)
      have isStep : opened.run (earlier ++ [event]) = (opened.run earlier).step event :=
        List.foldl_concat CallState.step opened event earlier
      rw [isStep] at stillTrying ⊢
      rw [reportsOn_concat]
      exact before.goesOn (isGoing earlier isPrefix) stillTrying

/-! ## Reports on other requests -/

theorem IsTrying.of_call {other : CallState} (isTrying : state.IsTrying request)
    (same : other.call = state.call) : other.IsTrying request := by
  rw [IsTrying, same]
  exact isTrying

/-- The call learns about its request only what the reports on it say. -/
theorem IsAttempt.step_call {other : CallState} (isAttempt : state.IsAttempt call request reports)
    (isOther : other.IsAttempt call request reports) (same : other.call = state.call)
    (isTrying : state.IsTrying request) (event : CallEvent) :
    (other.step event).call = (state.step event).call := by
  -- The states may differ in what is awaited under other requests, which no stage looks at.
  unfold CallState.step
  rw [same]
  rcases isTrying with isTriggering | isWaiting
  · rw [isTriggering]
    cases event with
    | reported report => rfl
    | triggered replies =>
        simp only [judgeTriggers]
        cases Reply.gather "E-COORD-002" replies with
        | crashed => simp only [same]
        | answered outcome =>
            cases outcome with
            | ok answers => simp only [same]
            | error cause =>
                simp only [refuse]
                by_cases isUnreachable : cause.isUnreachable = true
                · simp only [if_pos isUnreachable, same]
                · simp only [if_neg isUnreachable, same]
    | clock now => exact same
    | probed replies fresh => exact same
    | looked now => exact same
  · rw [isWaiting]
    cases event with
    | reported report => rfl
    | looked now =>
        have sameVerdict : other.coordinator.verdict request (other.call.deadline ≤ now) =
            state.coordinator.verdict request (state.call.deadline ≤ now) := by
          rw [Coordinator.verdict, Coordinator.verdict, isOther.awaited, isAttempt.awaited, same]
        simp only [CallState.look, sameVerdict]
        cases state.coordinator.verdict request (state.call.deadline ≤ now) with
        | undecided => exact same
        | failed failures => simp only [same]
        | expired => simp only [same]
        | complete results =>
            simp only [judgeResults]
            cases Call.commonId? (results.map fun (_, id) => some id) with
            | some id => simp only [same]
            | none => simp only [same]
    | clock now => exact same
    | probed replies fresh => exact same
    | triggered replies => exact same

/-- Without the reports on other requests, an attempt goes on in the same way. -/
theorem IsAttempt.run_concerns {opened : CallState} (isAttempt : opened.IsAttempt call request [])
    {events : List CallEvent}
    (isGoing : ∀ earlier, earlier <+: events → (opened.run earlier).IsTrying request) :
    (opened.run (events.filter (CallEvent.concerns request))).IsAttempt call request
        (reportsOn request events) ∧
      (opened.run (events.filter (CallEvent.concerns request))).call =
        (opened.run events).call := by
  induction events using List.reverseRecOn with
  | nil => exact ⟨isAttempt, rfl⟩
  | append_singleton earlier event inductionHypothesis =>
      have isPrefix : earlier <+: earlier ++ [event] := List.prefix_append earlier [event]
      have isGoingBefore : ∀ first, first <+: earlier → (opened.run first).IsTrying request :=
        fun first isFirst => isGoing first (isFirst.trans isPrefix)
      rcases inductionHypothesis isGoingBefore with ⟨other, same⟩
      have before := isAttempt.run isGoingBefore
      have isTrying := isGoing earlier isPrefix
      have stillTrying := isGoing (earlier ++ [event]) (List.prefix_refl _)
      have run_concat : ∀ events, opened.run (events ++ [event]) = (opened.run events).step event :=
        fun events => List.foldl_concat CallState.step opened event events
      rw [run_concat] at stillTrying ⊢
      rw [reportsOn_concat, List.filter_append]
      cases concerns : event.concerns request with
      | true =>
          rw [List.filter_cons_of_pos concerns, List.filter_nil, run_concat]
          have sameCall := before.step_call other same isTrying event
          exact ⟨other.goesOn (isTrying.of_call same) (stillTrying.of_call sameCall), sameCall⟩
      | false =>
          -- Only a report on another request is left out, and it leaves the call as it is.
          rw [List.filter_cons_of_neg (by simp [concerns]), List.filter_nil, List.append_nil]
          cases event with
          | reported report =>
              have otherRequest : report.request ≠ request := of_decide_eq_false concerns
              have nothing : (CallEvent.reported report).reportOn? request = none :=
                if_neg otherRequest
              rw [nothing, Option.toList_none, List.append_nil]
              exact ⟨other, same⟩
          | _ => cases concerns

/-! ## All courses of an attempt -/

/-- Reports neither bring a request back that is no longer waited for, nor end the waiting. -/
theorem isSome_find?_run_reported (after : CallState) (request : RequestId)
    (late : List Report) :
    (OrderedMap.find? request (after.run (late.map .reported)).coordinator.awaited).isSome =
      (OrderedMap.find? request after.coordinator.awaited).isSome := by
  induction late generalizing after with
  | nil => rfl
  | cons report rest inductionHypothesis =>
      have received := inductionHypothesis (after.step (.reported report))
      refine received.trans ?_
      change (OrderedMap.find? request (after.coordinator.receive report).awaited).isSome = _
      rw [find?_receive, Option.isSome_map]

/-- Asking the nodes opens a request if they do not agree. -/
theorem isAttempt_of_opens (ordered : OrderedMap.IsOrdered state.coordinator.awaited)
    (isProbing : state.call.stage = .probing) {replies : List (Reply (Option FlattenId))}
    (opens : (state.step (.probed replies request)).call.stage = .triggering request) :
    (state.step (.probed replies request)).IsAttempt state.call request [] := by
  unfold CallState.step at opens ⊢
  simp only [isProbing] at opens ⊢
  unfold judgeProbes at opens ⊢
  split at opens
  · cases opens
  · next cause _ =>
      rcases (refuse_ends state cause).2 with isPausing | hasEnded
      · rw [isPausing] at opens
        cases opens
      · rw [hasEnded] at opens
        cases opens
  · next ids _ =>
      cases common : Call.commonId? ids with
      | some id =>
          simp only [common] at opens
          cases opens
      | none =>
          refine ⟨⟨_, _, rfl⟩, OrderedMap.isOrdered_insert _ _ ordered, ?_⟩
          exact OrderedMap.find?_insert_self _ _ _

/-- However an attempt is told of reports: it comes to a flattening only if every node of the call
has reported it last and none has failed; it looks at failures exactly as far as they were reported;
its time is over only while a report is missing; other requests do not matter to it; and at its end
its request is forgotten, exactly if no two calls of nodes have broken down. -/
theorem attempt_outcome (ordered : OrderedMap.IsOrdered state.coordinator.awaited)
    (isProbing : state.call.stage = .probing) {replies : List (Reply (Option FlattenId))}
    (opens : (state.step (.probed replies request)).call.stage = .triggering request)
    {events : List CallEvent}
    (isGoing : ∀ earlier, earlier <+: events →
      ((state.step (.probed replies request)).run earlier).IsTrying request) (event : CallEvent) :
    let opened := state.step (.probed replies request)
    let before := opened.run events
    let after := before.step event
    let reports := reportsOn request events
    (∀ agreement, after.call.stage = .ended (.answered (.ok agreement)) →
      failuresIn reports = [] ∧
      ∀ node ∈ state.call.nodes, latestFlattening? reports node = some agreement.id) ∧
    (∀ now, event = .looked now → before.call.stage = .waiting request → ∀ named failures,
      after.call.stage = .ended (.answered (.error (.remoteFailure named failures))) ↔
        failuresIn reports ≠ [] ∧ named = request ∧ failures = failuresIn reports) ∧
    (∀ cause, after.call.stage = .ended (.answered (.error cause)) →
      (∃ answers, event = .triggered answers ∧
        Reply.gather "E-COORD-002" answers = .answered (.error cause)) ∨
      ∃ now, event = .looked now ∧ before.call.stage = .waiting request ∧
        (failuresIn reports ≠ [] ∧ cause = .remoteFailure request (failuresIn reports) ∨
        failuresIn reports = [] ∧ state.call.deadline ≤ now ∧
          (∃ node ∈ state.call.nodes, ∀ report ∈ reports, report.node ≠ node) ∧
          ∃ waited, cause = .timeout state.call.table state.call.flattenBy waited)) ∧
    ((opened.run (events.filter (CallEvent.concerns request))).step event).call = after.call ∧
    (¬ after.IsTrying request → ∀ late : List Report,
      OrderedMap.find? request (after.run (late.map .reported)).coordinator.awaited = none ↔
        event.breaksDown = false) := by
  intro opened before after reports
  have atStart : opened.IsAttempt state.call request [] :=
    isAttempt_of_opens ordered isProbing opens
  have isAttempt : before.IsAttempt state.call request reports := atStart.run isGoing
  have isTrying : before.IsTrying request := isGoing events (List.prefix_refl events)
  have step : AttemptStep state.call request reports before event after :=
    isAttempt.step isTrying event
  rcases atStart.run_concerns isGoing with ⟨other, same⟩
  refine ⟨?_, ?_, ?_, isAttempt.step_call other same isTrying event, ?_⟩
  · intro agreement hasEnded
    exact step.of_ended_ok isTrying hasEnded
  · intro now isLook isWaiting
    rw [isLook] at step
    exact step.remoteFailure_iff isAttempt isWaiting
  · intro cause hasEnded
    exact step.of_ended_error isAttempt isTrying hasEnded
  · intro notTrying late
    rcases step.goesOn_or_ends isAttempt isTrying with ⟨stillTrying, _⟩ | ends
    · exact absurd stillTrying notTrying
    · rw [← Option.isNone_iff_eq_none, ← Option.isSome_eq_false_iff, isSome_find?_run_reported,
        ends.stays]

/-- Two nodes are being asked for what they have, while another request is awaited. -/
def twoNodes : CallState where
  call :=
    { table := "t", flattenBy := "a", nodes := [⟨1⟩, ⟨2⟩], startedAt := 0, deadline := 100,
      stage := .probing }
  coordinator :=
    { id := ⟨9⟩, settings := {}, awaited := [(Identifier.ofNat 7, { pending := [⟨2⟩] })] }

/-- Both nodes report on request 4, one of them early; a failure belongs to request 7. -/
def twoNodesReport : List CallEvent :=
  [.reported ⟨Identifier.ofNat 4, ⟨1⟩, .flattened (Identifier.ofNat 5)⟩,
    .reported ⟨Identifier.ofNat 7, ⟨2⟩, .failed "lost"⟩,
    .triggered [.answered (.ok ()), .answered (.ok ())],
    .looked 1,
    .reported ⟨Identifier.ofNat 4, ⟨2⟩, .flattened (Identifier.ofNat 5)⟩]

theorem attempt_outcome_twoNodes :
    let opened := twoNodes.step
      (.probed [.answered (.ok none), .answered (.ok none)] (Identifier.ofNat 4))
    let after := (opened.run twoNodesReport).step (.looked 2)
    ∃ agreement, after.call.stage = .ended (.answered (.ok agreement)) ∧
      (∀ node ∈ ([⟨1⟩, ⟨2⟩] : List NodeId),
        latestFlattening? (reportsOn (Identifier.ofNat 4) twoNodesReport) node =
          some agreement.id) ∧
      OrderedMap.find? (Identifier.ofNat 4) after.coordinator.awaited = none := by
  intro opened after
  have ordered : OrderedMap.IsOrdered twoNodes.coordinator.awaited := by
    simp [twoNodes, OrderedMap.IsOrdered]
  have isGoing : ∀ earlier, earlier <+: twoNodesReport →
      (opened.run earlier).IsTrying (Identifier.ofNat 4) := by
    intro earlier isPrefix
    have isInitial := (List.mem_inits earlier twoNodesReport).mpr isPrefix
    simp only [twoNodesReport, List.inits, List.map_cons, List.map_nil, List.mem_cons,
      List.not_mem_nil, or_false] at isInitial
    rcases isInitial with rfl | rfl | rfl | rfl | rfl | rfl
    · exact Or.inl rfl
    · exact Or.inl rfl
    · exact Or.inl rfl
    · exact Or.inr rfl
    · exact Or.inr rfl
    · exact Or.inr rfl
  have outcome := attempt_outcome ordered rfl rfl isGoing (.looked 2)
  have hasEnded :
      after.call.stage = .ended (.answered (.ok ⟨Identifier.ofNat 5, [⟨1⟩, ⟨2⟩], true⟩)) := rfl
  have notTrying : ¬ after.IsTrying (Identifier.ofNat 4) := not_isTrying_of_ended hasEnded
  exact ⟨_, hasEnded, (outcome.1 _ hasEnded).2, (outcome.2.2.2.2 notTrying []).mpr rfl⟩

/-- The calls that send the request to the two nodes break down: the attempt is over, and its
request is still waited for, whatever the nodes report. -/
theorem brokenAttempt_keeps_request :
    let opened := twoNodes.step
      (.probed [.answered (.ok none), .answered (.ok none)] (Identifier.ofNat 4))
    let after := opened.step (.triggered [.crashed, .crashed])
    after.call.stage = .ended .crashed ∧
      ∀ late : List Report,
        OrderedMap.find? (Identifier.ofNat 4) (after.run (late.map .reported)).coordinator.awaited ≠
          none := by
  intro opened after
  refine ⟨rfl, ?_⟩
  intro late isForgotten
  have stays := isSome_find?_run_reported after (Identifier.ofNat 4) late
  rw [isForgotten] at stays
  cases stays

end CallState

end Unnest
