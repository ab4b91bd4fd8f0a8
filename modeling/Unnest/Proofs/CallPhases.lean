import Unnest.Proofs.ClusterCourse

/-!
# The phases of a call

A call makes attempts, each of which comes to probing, to triggering or to waiting.  An attempt that
is given up is counted once, as a retry or, if it came to waiting, as a disagreement; then the next
one may begin.  The call ends in its last attempt, or between two attempts if the time is over.  If
two nodes break down on a call, it breaks down in the attempt that it is making.

`CallState.IsHistory` says this of a call at any moment, whatever it was told:
`CallState.exists_isHistory`.
-/

namespace Unnest

/-! ## Attempts -/

/-- How far an attempt comes. -/
inductive Reach where
  | probing
  | triggering
  | waiting
deriving DecidableEq, Repr

/-- The phases of an attempt. -/
def Reach.phases : Reach → List Phase
  | .probing => [.probing]
  | .triggering => [.probing, .triggering]
  | .waiting => [.probing, .triggering, .waiting]

/-- How far the attempt is that a call is making; between attempts there is none. -/
def CallStage.reach? : CallStage → Option Reach
  | .probing => some .probing
  | .triggering _ => some .triggering
  | .waiting _ => some .waiting
  | .starting | .pausing | .ended _ => none

namespace CallStage

/-- The next attempt may begin. -/
def IsBetween (stage : CallStage) : Prop :=
  stage = .starting ∨ stage = .pausing

variable {stage : CallStage}

theorem IsBetween.reach? (isBetween : stage.IsBetween) : stage.reach? = none := by
  rcases isBetween with rfl | rfl
  · rfl
  · rfl

theorem IsBetween.ne_ended (isBetween : stage.IsBetween) (reply : Reply Agreement) :
    stage ≠ .ended reply := by
  rcases isBetween with rfl | rfl
  · exact nofun
  · exact nofun

theorem ne_ended_of_reach? {reach : Reach} (isReach : stage.reach? = some reach)
    (reply : Reply Agreement) : stage ≠ .ended reply := by
  rintro rfl
  cases isReach

end CallStage

/-- How the last phase of a call is counted. -/
def Phase.countedAs : Phase → String
  | .done => "flattened"
  | .agreed => "agreed"
  | .timedOut => "timeout"
  | _ => "failed"

/-! ## Errors that nodes answer -/

def Error.isTimeout : Error → Bool
  | .timeout .. => true
  | _ => false

namespace Reply

variable {α : Type}

def isTimeout : Reply α → Bool
  | .answered (.error cause) => cause.isTimeout
  | _ => false

theorem isTimeout_of_gather {code : String} {replies : List (Reply α)} {cause : Error}
    (gathered : gather code replies = .answered (.error cause))
    (noTimeout : ∀ reply ∈ replies, reply.isTimeout = false) : cause.isTimeout = false := by
  rcases of_gather_error gathered with isRefusal | isBug
  · exact noTimeout _ isRefusal
  · rw [isBug]
    rfl

end Reply

/-- A node answers the call with the error that a call ends with when its time is over. -/
def CallEvent.tellsTimeout : CallEvent → Bool
  | .probed replies _ => replies.any Reply.isTimeout
  | .triggered replies => replies.any Reply.isTimeout
  | _ => false

/-! ## The end of a call -/

/-- The events that end a call: how far the attempt is in which they come, the last phase, and the
outcome. -/
inductive Call.Closes (call : Call) :
    CallEvent → Option Reach → Phase → Outcome Agreement → Prop where
  | agreed {replies : List (Reply (Option FlattenId))} {fresh : RequestId} {id : FlattenId}
      (notEmpty : replies ≠ []) (common : ∀ reply ∈ replies, reply = .answered (.ok (some id))) :
      Closes call (.probed replies fresh) (some .probing) .agreed (.ok ⟨id, call.nodes, false⟩)
  | done {now : Nat} {id : FlattenId} :
      Closes call (.looked now) (some .waiting) .done (.ok ⟨id, call.nodes, true⟩)
  | probeFailed {replies : List (Reply (Option FlattenId))} {fresh : RequestId} {cause : Error}
      (gathered : Reply.gather "E-COORD-001" replies = .answered (.error cause))
      (notUnreachable : cause.isUnreachable = false) (noTimeout : cause.isTimeout = false) :
      Closes call (.probed replies fresh) (some .probing) .failed (.error cause)
  | triggerFailed {replies : List (Reply Unit)} {cause : Error}
      (gathered : Reply.gather "E-COORD-002" replies = .answered (.error cause))
      (notUnreachable : cause.isUnreachable = false) (noTimeout : cause.isTimeout = false) :
      Closes call (.triggered replies) (some .triggering) .failed (.error cause)
  | remoteFailed {now : Nat} {request : RequestId} {failures : List (NodeId × String)} :
      Closes call (.looked now) (some .waiting) .failed (.error (.remoteFailure request failures))
  | expiredBetween {now : Nat} (isOver : call.deadline ≤ now) :
      Closes call (.clock now) none .timedOut
        (.error (.timeout call.table call.flattenBy ((now - call.startedAt) / 1000)))
  | expiredWaiting {now : Nat} (isOver : call.deadline ≤ now) :
      Closes call (.looked now) (some .waiting) .timedOut
        (.error (.timeout call.table call.flattenBy ((now - call.startedAt) / 1000)))

theorem CallAnswer.outcomeCounters_eq (name : String) :
    outcomeCounters name =
      [(Counters.labelled "strata_cluster_flatten_total" "outcome" name, 1)] := rfl

theorem CallAnswer.outcomeName_error {cause : Error} (noTimeout : cause.isTimeout = false) :
    outcomeName (.error cause) = "failed" := by
  cases cause with
  | timeout table flattenBy waitedMillis => cases noTimeout
  | _ => rfl

/-- The outcome is counted as the last phase says. -/
theorem Call.Closes.outcomeName {call : Call} {event : CallEvent} {last : Option Reach}
    {terminal : Phase} {outcome : Outcome Agreement}
    (closes : call.Closes event last terminal outcome) :
    CallAnswer.outcomeName outcome = terminal.countedAs := by
  cases closes with
  | probeFailed _ _ noTimeout => exact CallAnswer.outcomeName_error noTimeout
  | triggerFailed _ _ noTimeout => exact CallAnswer.outcomeName_error noTimeout
  | _ => rfl

theorem Call.Closes.count_triggering {call : Call} {event : CallEvent} {last : Option Reach}
    {terminal : Phase} {outcome : Outcome Agreement}
    (closes : call.Closes event last terminal outcome) : [terminal].count .triggering = 0 := by
  cases closes with
  | _ => rfl

/-- How a call ends does not depend on its earlier stages and phases. -/
theorem Call.Closes.of_enter {call : Call} {stage : CallStage} {phases : List Phase}
    {event : CallEvent} {last : Option Reach} {terminal : Phase} {outcome : Outcome Agreement}
    (closes : { call with stage := stage, phases := phases : Call }.Closes event last terminal
      outcome) : call.Closes event last terminal outcome := by
  cases closes with
  | agreed notEmpty common => exact .agreed notEmpty common
  | done => exact .done
  | probeFailed gathered notUnreachable noTimeout =>
      exact .probeFailed gathered notUnreachable noTimeout
  | triggerFailed gathered notUnreachable noTimeout =>
      exact .triggerFailed gathered notUnreachable noTimeout
  | remoteFailed => exact .remoteFailed
  | expiredBetween isOver => exact .expiredBetween isOver
  | expiredWaiting isOver => exact .expiredWaiting isOver

/-! ## What is counted -/

/-- How often a coordinator has counted requests, retries and disagreements meanwhile. -/
structure Coordinator.Tallies (before after : Coordinator) (requests retries disagreements : Nat) :
    Prop where
  triggered : after.triggered = before.triggered + requests
  retries : after.retries = before.retries + retries
  disagreements : after.disagreements = before.disagreements + disagreements

theorem Coordinator.isOver_of_expired {coordinator : Coordinator} {request : RequestId}
    {deadline now : Nat} (isExpired : coordinator.verdict request (deadline ≤ now) = .expired) :
    deadline ≤ now := by
  by_contra inTime
  rw [decide_eq_false inTime, Coordinator.verdict] at isExpired
  cases found : OrderedMap.find? request coordinator.awaited with
  | none =>
      rw [found] at isExpired
      cases isExpired
  | some awaited =>
      simp only [found, AwaitedRequest.verdict] at isExpired
      split at isExpired
      · cases isExpired
      · split at isExpired
        · cases isExpired
        · cases isExpired

theorem Coordinator.tallies_receive (coordinator : Coordinator) (report : Report) :
    coordinator.Tallies (coordinator.receive report) 0 0 0 := by
  rcases coordinator.receive_outcome report with ⟨awaited, isReceived⟩
  rw [isReceived]
  exact ⟨rfl, rfl, rfl⟩

/-! ## Histories -/

/-- Where a call is after attempts that were given up: on its way, at its end, or broken down. -/
inductive Call.HasCome (opened : Call) (events : List CallEvent) (givenUp : List Reach)
    (call : Call) : Prop where
  | underWay (notEnded : ∀ reply, call.stage ≠ .ended reply)
      (phases : call.phases = (givenUp ++ call.stage.reach?.toList).flatMap Reach.phases)
  | closed {event : CallEvent} {last : Option Reach} {terminal : Phase}
      {outcome : Outcome Agreement} (isEvent : event ∈ events)
      (closes : opened.Closes event last terminal outcome)
      (hasEnded : call.stage = .ended (.answered outcome))
      (phases : call.phases = (givenUp ++ last.toList).flatMap Reach.phases ++ [terminal])
  | brokeDown {event : CallEvent} {last : Reach} (isEvent : event ∈ events)
      (breaks : event.breaksDown = true) (hasEnded : call.stage = .ended .crashed)
      (phases : call.phases = (givenUp ++ [last]).flatMap Reach.phases)

section Ends

variable {opened call : Call} {events : List CallEvent} {givenUp : List Reach}

/-- An outcome comes with the event that closes the call, and one last phase. -/
theorem Call.HasCome.of_outcome (hasCome : opened.HasCome events givenUp call)
    {outcome : Outcome Agreement} (hasEnded : call.stage = .ended (.answered outcome)) :
    ∃ event ∈ events, ∃ last terminal, opened.Closes event last terminal outcome ∧
      call.phases = (givenUp ++ last.toList).flatMap Reach.phases ++ [terminal] := by
  cases hasCome with
  | underWay notEnded _ => exact absurd hasEnded (notEnded _)
  | closed isEvent closes hasCome phases =>
      cases hasEnded.symm.trans hasCome
      exact ⟨_, isEvent, _, _, closes, phases⟩
  | brokeDown _ _ hasBroken _ => cases hasEnded.symm.trans hasBroken

/-- Without an outcome the call has ended because nodes broke down. -/
theorem Call.HasCome.of_crashed (hasCome : opened.HasCome events givenUp call)
    (hasEnded : call.stage = .ended .crashed) :
    (∃ event ∈ events, event.breaksDown = true) ∧
      ∃ last, call.phases = (givenUp ++ [last]).flatMap Reach.phases := by
  cases hasCome with
  | underWay notEnded _ => exact absurd hasEnded (notEnded _)
  | closed _ _ hasCome _ => cases hasEnded.symm.trans hasCome
  | brokeDown isEvent breaks _ phases => exact ⟨⟨_, isEvent, breaks⟩, _, phases⟩

end Ends

namespace CallState

/-- The history of a call since it was opened: the attempts that were given up, the phases, and what
was counted for them. -/
structure IsHistory (opened : CallState) (events : List CallEvent) (givenUp : List Reach)
    (state : CallState) : Prop where
  sameCall : ∃ stage phases, state.call = { opened.call with stage := stage, phases := phases }
  tallies : opened.coordinator.Tallies state.coordinator (state.call.phases.count .triggering)
    (givenUp.countP (· != .waiting)) (givenUp.count .waiting)
  hasCome : opened.call.HasCome events givenUp state.call

section Steps

variable {opened state after : CallState} {events : List CallEvent} {event : CallEvent}
  {givenUp : List Reach}

theorem IsHistory.phases (history : opened.IsHistory events givenUp state)
    (notEnded : ∀ reply, state.call.stage ≠ .ended reply) :
    state.call.phases = (givenUp ++ state.call.stage.reach?.toList).flatMap Reach.phases := by
  cases history.hasCome with
  | underWay _ phases => exact phases
  | closed _ _ hasEnded _ => exact absurd hasEnded (notEnded _)
  | brokeDown _ _ hasEnded _ => exact absurd hasEnded (notEnded _)

theorem sameCall_enter {stage : CallStage} {added : List Phase}
    (sameCall : ∃ stage phases,
      state.call = { opened.call with stage := stage, phases := phases })
    (entered : after.call = state.call.enter stage added) :
    ∃ stage phases, after.call = { opened.call with stage := stage, phases := phases } := by
  rcases sameCall with ⟨_, _, isCall⟩
  exact ⟨stage, state.call.phases ++ added, by rw [entered, isCall]; rfl⟩

/-- Nothing happens to the call itself. -/
theorem IsHistory.waits (history : opened.IsHistory events givenUp state)
    (sameCall : after.call = state.call)
    (tallies : state.coordinator.Tallies after.coordinator 0 0 0) (event : CallEvent) :
    opened.IsHistory (events ++ [event]) givenUp after := by
  constructor
  case sameCall =>
      rw [sameCall]
      exact history.sameCall
  case tallies =>
      rw [sameCall]
      constructor
      · rw [tallies.triggered, history.tallies.triggered, Nat.add_zero]
      · rw [tallies.retries, history.tallies.retries, Nat.add_zero]
      · rw [tallies.disagreements, history.tallies.disagreements, Nat.add_zero]
  case hasCome =>
      rw [sameCall]
      cases history.hasCome with
      | underWay notEnded phases => exact .underWay notEnded phases
      | closed isEvent closes hasEnded phases =>
          exact .closed (List.mem_append_left _ isEvent) closes hasEnded phases
      | brokeDown isEvent breaks hasEnded phases =>
          exact .brokeDown (List.mem_append_left _ isEvent) breaks hasEnded phases

/-- The attempt comes one phase farther, or the next one begins. -/
theorem IsHistory.advances (history : opened.IsHistory events givenUp state)
    (notEnded : ∀ reply, state.call.stage ≠ .ended reply) (stage : CallStage) (phase : Phase)
    {reach : Reach} (isReach : stage.reach? = some reach)
    (farther : reach.phases = state.call.stage.reach?.toList.flatMap Reach.phases ++ [phase])
    (entered : after.call = state.call.enter stage [phase])
    (tallies : state.coordinator.Tallies after.coordinator ([phase].count .triggering) 0 0)
    (event : CallEvent) : opened.IsHistory (events ++ [event]) givenUp after := by
  have phases : after.call.phases = state.call.phases ++ [phase] := by rw [entered, Call.enter]
  have isStage : after.call.stage = stage := by rw [entered, Call.enter]
  constructor
  case sameCall => exact sameCall_enter history.sameCall entered
  case tallies =>
      constructor
      · rw [tallies.triggered, history.tallies.triggered, phases, List.count_append,
          Nat.add_assoc]
      · rw [tallies.retries, history.tallies.retries, Nat.add_zero]
      · rw [tallies.disagreements, history.tallies.disagreements, Nat.add_zero]
  case hasCome =>
      refine .underWay ?_ ?_
      · rw [isStage]
        exact CallStage.ne_ended_of_reach? isReach
      · rw [phases, isStage, isReach, history.phases notEnded, List.flatMap_append,
          List.flatMap_append, List.append_assoc, ← farther, Option.toList_some,
          List.flatMap_singleton]

/-- The attempt is given up and counted. -/
theorem IsHistory.givesUp (history : opened.IsHistory events givenUp state) {reach : Reach}
    (isReach : state.call.stage.reach? = some reach) {stage : CallStage}
    (isBetween : stage.IsBetween) (entered : after.call = state.call.enter stage [])
    (tallies : state.coordinator.Tallies after.coordinator 0
      ([reach].countP (· != .waiting)) ([reach].count .waiting)) (event : CallEvent) :
    opened.IsHistory (events ++ [event]) (givenUp ++ [reach]) after := by
  have notEnded := CallStage.ne_ended_of_reach? isReach
  have phases : after.call.phases = state.call.phases := by
    rw [entered, Call.enter, List.append_nil]
  have isStage : after.call.stage = stage := by rw [entered, Call.enter]
  constructor
  case sameCall => exact sameCall_enter history.sameCall entered
  case tallies =>
      constructor
      · rw [tallies.triggered, history.tallies.triggered, phases, Nat.add_zero]
      · rw [tallies.retries, history.tallies.retries, List.countP_append, Nat.add_assoc]
      · rw [tallies.disagreements, history.tallies.disagreements, List.count_append,
          Nat.add_assoc]
  case hasCome =>
      refine .underWay ?_ ?_
      · rw [isStage]
        exact isBetween.ne_ended
      · rw [phases, isStage, isBetween.reach?, history.phases notEnded, isReach,
          Option.toList_some, Option.toList_none, List.append_nil]

/-- The call ends in the attempt that it is making. -/
theorem IsHistory.closes (history : opened.IsHistory events givenUp state)
    (notEnded : ∀ reply, state.call.stage ≠ .ended reply) {terminal : Phase}
    {outcome : Outcome Agreement}
    (closes : state.call.Closes event state.call.stage.reach? terminal outcome)
    (entered : after.call = state.call.enter (.ended (.answered outcome)) [terminal])
    (tallies : state.coordinator.Tallies after.coordinator 0 0 0) :
    opened.IsHistory (events ++ [event]) givenUp after := by
  have phases : after.call.phases = state.call.phases ++ [terminal] := by
    rw [entered, Call.enter]
  have closesOpened : opened.call.Closes event state.call.stage.reach? terminal outcome := by
    rcases history.sameCall with ⟨_, _, isCall⟩
    generalize state.call.stage.reach? = last at closes
    rw [isCall] at closes
    exact closes.of_enter
  constructor
  case sameCall => exact sameCall_enter history.sameCall entered
  case tallies =>
      constructor
      · rw [tallies.triggered, history.tallies.triggered, phases, List.count_append,
          closes.count_triggering, Nat.add_zero, Nat.add_zero]
      · rw [tallies.retries, history.tallies.retries, Nat.add_zero]
      · rw [tallies.disagreements, history.tallies.disagreements, Nat.add_zero]
  case hasCome =>
      refine .closed (List.mem_append_right _ List.mem_cons_self) closesOpened
        (by rw [entered, Call.enter]) ?_
      rw [phases, history.phases notEnded]

/-- The call breaks down in the attempt that it is making, of which nothing is counted. -/
theorem IsHistory.breaksDown (history : opened.IsHistory events givenUp state) {reach : Reach}
    (isReach : state.call.stage.reach? = some reach) (breaks : event.breaksDown = true)
    (entered : after.call = state.call.breakDown)
    (tallies : state.coordinator.Tallies after.coordinator 0 0 0) :
    opened.IsHistory (events ++ [event]) givenUp after := by
  have phases : after.call.phases = state.call.phases := by
    rw [entered, Call.breakDown, Call.enter, List.append_nil]
  constructor
  case sameCall => exact sameCall_enter history.sameCall entered
  case tallies =>
      constructor
      · rw [tallies.triggered, history.tallies.triggered, phases, Nat.add_zero]
      · rw [tallies.retries, history.tallies.retries, Nat.add_zero]
      · rw [tallies.disagreements, history.tallies.disagreements, Nat.add_zero]
  case hasCome =>
      have hasBroken : after.call.stage = .ended .crashed := by
        rw [entered, Call.breakDown, Call.enter]
      have isHere : after.call.phases = (givenUp ++ [reach]).flatMap Reach.phases := by
        rw [phases, history.phases (CallStage.ne_ended_of_reach? isReach), isReach,
          Option.toList_some]
      exact .brokeDown (List.mem_append_right _ List.mem_cons_self) breaks hasBroken isHere

/-! ## What an event does -/

/-- An error that nodes answer ends the attempt, and the call unless a connection was lost. -/
theorem IsHistory.refuse (history : opened.IsHistory events givenUp state) {told : CallState}
    (sameCall : told.call = state.call)
    (tallies : state.coordinator.Tallies told.coordinator 0 0 0) {reach : Reach}
    (isReach : state.call.stage.reach? = some reach) (beforeWaiting : reach ≠ .waiting)
    {cause : Error} (closes : cause.isUnreachable = false →
      state.call.Closes event (some reach) .failed (.error cause)) :
    ∃ givenUp, opened.IsHistory (events ++ [event]) givenUp (told.refuse cause) := by
  unfold CallState.refuse
  cases isUnreachable : cause.isUnreachable with
  | true =>
      refine ⟨givenUp ++ [reach], history.givesUp isReach (Or.inr rfl) ?_ ?_ event⟩
      · simp only [if_true, sameCall]
      · constructor
        · exact tallies.triggered
        · simp [tallies.retries, beforeWaiting]
        · simp [tallies.disagreements, beforeWaiting]
  | false =>
      have notEnded := CallStage.ne_ended_of_reach? isReach
      rw [← isReach] at closes
      refine ⟨givenUp, history.closes notEnded (closes isUnreachable) ?_ tallies⟩
      simp only [Bool.false_eq_true, if_false, sameCall]
      rfl

theorem noTimeout_of_any {α : Type} {replies : List (Reply α)}
    (noTimeout : replies.any Reply.isTimeout = false) :
    ∀ reply ∈ replies, reply.isTimeout = false := by
  simpa using noTimeout

theorem IsHistory.start (history : opened.IsHistory events givenUp state)
    (isBetween : state.call.stage.IsBetween) (now : Nat) :
    opened.IsHistory (events ++ [.clock now]) givenUp (state.start now) := by
  have noReach := isBetween.reach?
  have notEnded := isBetween.ne_ended
  unfold CallState.start
  by_cases isOver : state.call.deadline ≤ now
  · rw [if_pos isOver]
    have closes := Call.Closes.expiredBetween isOver
    rw [← noReach] at closes
    exact history.closes notEnded closes rfl ⟨rfl, rfl, rfl⟩
  · rw [if_neg isOver]
    refine history.advances notEnded .probing .probing rfl ?_ ?_ ?_ _
    · rw [noReach]
      rfl
    · rfl
    · exact ⟨rfl, rfl, rfl⟩

theorem IsHistory.judgeProbes (history : opened.IsHistory events givenUp state)
    (isProbing : state.call.stage = .probing) {replies : List (Reply (Option FlattenId))}
    {fresh : RequestId} (noTimeout : (CallEvent.probed replies fresh).tellsTimeout = false) :
    ∃ givenUp, opened.IsHistory (events ++ [.probed replies fresh]) givenUp
      (state.judgeProbes replies fresh) := by
  have isReach : state.call.stage.reach? = some .probing := by
    rw [isProbing]
    rfl
  have notEnded := CallStage.ne_ended_of_reach? isReach
  unfold CallState.judgeProbes
  split
  · next crashed =>
      have breaks : (CallEvent.probed replies fresh).breaksDown = true :=
        decide_eq_true (Reply.gather_eq_crashed_iff.mp crashed)
      exact ⟨givenUp, history.breaksDown isReach breaks rfl ⟨rfl, rfl, rfl⟩⟩
  · next cause gathered =>
      refine history.refuse rfl ⟨rfl, rfl, rfl⟩ isReach (by decide) ?_
      intro notUnreachable
      exact .probeFailed gathered notUnreachable
        (Reply.isTimeout_of_gather gathered (noTimeout_of_any noTimeout))
  · next ids gathered =>
      have areReplies := Reply.of_gather_ok gathered
      cases common : Call.commonId? ids with
      | some id =>
          have notEmpty : replies ≠ [] := by
            intro isEmpty
            rw [areReplies, List.map_eq_nil_iff] at isEmpty
            rw [isEmpty] at common
            cases common
          have sameReply : ∀ reply ∈ replies, reply = .answered (.ok (some id)) := by
            intro reply isReply
            rw [areReplies] at isReply
            rcases List.mem_map.mp isReply with ⟨other, isOther, isAnswer⟩
            rw [← isAnswer, Call.eq_of_commonId? common isOther]
          have closes : state.call.Closes (.probed replies fresh) state.call.stage.reach? .agreed
              (.ok ⟨id, state.call.nodes, false⟩) := by
            rw [isReach]
            exact .agreed notEmpty sameReply
          exact ⟨givenUp, history.closes notEnded closes rfl ⟨rfl, rfl, rfl⟩⟩
      | none =>
          refine ⟨givenUp, history.advances notEnded (.triggering fresh) .triggering rfl ?_ ?_ ?_ _⟩
          · rw [isReach]
            rfl
          · rfl
          · exact ⟨rfl, rfl, rfl⟩

theorem IsHistory.judgeTriggers (history : opened.IsHistory events givenUp state)
    {request : RequestId} (isTriggering : state.call.stage = .triggering request)
    {replies : List (Reply Unit)}
    (noTimeout : (CallEvent.triggered replies).tellsTimeout = false) :
    ∃ givenUp, opened.IsHistory (events ++ [.triggered replies]) givenUp
      (state.judgeTriggers request replies) := by
  have isReach : state.call.stage.reach? = some .triggering := by
    rw [isTriggering]
    rfl
  have notEnded := CallStage.ne_ended_of_reach? isReach
  unfold CallState.judgeTriggers
  split
  · next crashed =>
      have breaks : (CallEvent.triggered replies).breaksDown = true :=
        decide_eq_true (Reply.gather_eq_crashed_iff.mp crashed)
      exact ⟨givenUp, history.breaksDown isReach breaks rfl ⟨rfl, rfl, rfl⟩⟩
  · next cause gathered =>
      refine history.refuse ?_ ?_ isReach (by decide) ?_
      · rfl
      · exact ⟨rfl, rfl, rfl⟩
      · intro notUnreachable
        exact .triggerFailed gathered notUnreachable
          (Reply.isTimeout_of_gather gathered (noTimeout_of_any noTimeout))
  · next answers gathered =>
      refine ⟨givenUp, history.advances notEnded (.waiting request) .waiting rfl ?_ ?_ ?_ _⟩
      · rw [isReach]
        rfl
      · rfl
      · exact ⟨rfl, rfl, rfl⟩

theorem IsHistory.look (history : opened.IsHistory events givenUp state) {request : RequestId}
    (isWaiting : state.call.stage = .waiting request) (now : Nat) :
    ∃ givenUp, opened.IsHistory (events ++ [.looked now]) givenUp (state.look request now) := by
  have isReach : state.call.stage.reach? = some .waiting := by
    rw [isWaiting]
    rfl
  have notEnded := CallStage.ne_ended_of_reach? isReach
  unfold CallState.look
  cases verdict : state.coordinator.verdict request (state.call.deadline ≤ now) with
  | undecided => exact ⟨givenUp, history.waits rfl ⟨rfl, rfl, rfl⟩ _⟩
  | failed failures =>
      have closes : state.call.Closes (.looked now) state.call.stage.reach? .failed
          (.error (.remoteFailure request failures)) := by
        rw [isReach]
        exact .remoteFailed
      exact ⟨givenUp, history.closes notEnded closes rfl ⟨rfl, rfl, rfl⟩⟩
  | expired =>
      have closes := Call.Closes.expiredWaiting (Coordinator.isOver_of_expired verdict)
      rw [← isReach] at closes
      exact ⟨givenUp, history.closes notEnded closes rfl ⟨rfl, rfl, rfl⟩⟩
  | complete results =>
      simp only [judgeResults]
      split
      · rename_i id _
        have closes : state.call.Closes (.looked now) state.call.stage.reach? .done
            (.ok ⟨id, state.call.nodes, true⟩) := by
          rw [isReach]
          exact .done
        exact ⟨givenUp, history.closes notEnded closes rfl ⟨rfl, rfl, rfl⟩⟩
      · refine ⟨givenUp ++ [.waiting], history.givesUp isReach (Or.inl rfl) ?_ ?_ _⟩
        · rfl
        · exact ⟨rfl, rfl, rfl⟩

/-- Whatever event a call is told next, it has a history again. -/
theorem IsHistory.step (history : opened.IsHistory events givenUp state) (event : CallEvent)
    (noTimeout : event.tellsTimeout = false) :
    ∃ givenUp, opened.IsHistory (events ++ [event]) givenUp (state.step event) := by
  have waits : opened.IsHistory (events ++ [event]) givenUp state :=
    history.waits rfl ⟨rfl, rfl, rfl⟩ event
  unfold CallState.step
  split
  case h_1 report =>
    refine ⟨givenUp, history.waits ?_ ?_ _⟩
    · rfl
    · exact state.coordinator.tallies_receive report
  case h_2 now isStarting => exact ⟨givenUp, history.start (Or.inl isStarting) now⟩
  case h_3 now isPausing => exact ⟨givenUp, history.start (Or.inr isPausing) now⟩
  case h_4 replies fresh isProbing => exact history.judgeProbes isProbing noTimeout
  case h_5 replies request isTriggering => exact history.judgeTriggers isTriggering noTimeout
  case h_6 now request isWaiting => exact history.look isWaiting now
  case h_7 => exact ⟨givenUp, waits⟩

end Steps

/-- Whatever a call is told, it has a history. -/
theorem exists_isHistory {opened : CallState} (isStarting : opened.call.stage = .starting)
    (noPhases : opened.call.phases = []) (events : List CallEvent)
    (noTimeout : ∀ event ∈ events, event.tellsTimeout = false) :
    ∃ givenUp, opened.IsHistory events givenUp (opened.run events) := by
  induction events using List.reverseRecOn with
  | nil =>
      refine ⟨[], ⟨_, _, rfl⟩, ?_, .underWay ?_ ?_⟩
      · constructor <;> simp [noPhases, CallState.run]
      · simp [isStarting, CallState.run]
      · simp [isStarting, noPhases, CallState.run, CallStage.reach?]
  | append_singleton earlier event inductionHypothesis =>
      rcases inductionHypothesis fun other isEarlier => noTimeout other (List.mem_append_left _
        isEarlier) with ⟨givenUp, history⟩
      have isStep : opened.run (earlier ++ [event]) = (opened.run earlier).step event :=
        List.foldl_concat CallState.step opened event earlier
      rw [isStep]
      exact history.step event (noTimeout event (List.mem_append_right _ List.mem_cons_self))

end CallState

end Unnest
