import Unnest.Proofs.ClusterSettling

/-!
# Requests are counted

A coordinator counts its requests.  In a course these are the requests of its calls, those that are
over and the one that is under way (`Course.counts_of_reaches`): no call makes a request that is not
noted, and none is noted that was not made.
-/

namespace Unnest

variable {σ : Type}

/-! ## What a coordinator counts -/

/-- How many requests a call makes when it enters a stage. -/
def CallStage.requestCount : CallStage → Nat
  | .triggering _ => 1
  | _ => 0

@[simp] theorem CallStage.requestCount_ended (reply : Reply Agreement) :
    (ended reply).requestCount = 0 := rfl

@[simp] theorem CallStage.requestCount_triggering (request : RequestId) :
    (triggering request).requestCount = 1 := rfl

theorem CallStage.requestCount_of_ne {stage : CallStage}
    (notTriggering : ∀ request, stage ≠ .triggering request) : stage.requestCount = 0 := by
  cases stage with
  | triggering request => exact absurd rfl (notTriggering request)
  | _ => rfl

namespace CallState

/-- The coordinator counts the requests that its call makes. -/
def Counts (before after : CallState) : Prop :=
  after.coordinator.triggered = before.coordinator.triggered + after.call.stage.requestCount

theorem counts_refuse (state : CallState) (cause : Error) : state.Counts (state.refuse cause) := by
  unfold refuse
  split <;> rfl

theorem counts_start (state : CallState) (now : Nat) : state.Counts (state.start now) := by
  unfold start
  split <;> rfl

theorem counts_judgeProbes (state : CallState) (replies : List (Reply (Option FlattenId)))
    (fresh : RequestId) : state.Counts (state.judgeProbes replies fresh) := by
  unfold judgeProbes
  split
  · rfl
  · exact state.counts_refuse _
  · split <;> rfl

theorem counts_judgeTriggers (state : CallState) (request : RequestId)
    (replies : List (Reply Unit)) : state.Counts (state.judgeTriggers request replies) := by
  unfold judgeTriggers
  split
  · rfl
  · exact counts_refuse _ _
  · rfl

theorem counts_judgeResults (state : CallState) (results : OrderedMap NodeId FlattenId) :
    state.Counts (state.judgeResults results) := by
  unfold judgeResults
  split <;> rfl

theorem counts_look {state : CallState} {request : RequestId}
    (isWaiting : state.call.stage = .waiting request) (now : Nat) :
    state.Counts (state.look request now) := by
  unfold look
  cases state.coordinator.verdict request (state.call.deadline ≤ now) with
  | undecided =>
      rw [Counts, isWaiting]
      rfl
  | failed failures => rfl
  | expired => rfl
  | complete results => exact counts_judgeResults _ results

end CallState

namespace Course

/-! ## What a course counts -/

/-- The requests that the calls of a course have made. -/
def requestCount (course : Course σ) : Nat :=
  total (fun record => record.requests.length) course.answered +
    course.underway.elim 0 fun undertaking => undertaking.requests.length

/-- The coordinator counts the requests that its calls make. -/
def Counts (before after : Course σ) : Prop :=
  after.cluster.coordinator.triggered + before.requestCount =
    before.cluster.coordinator.triggered + after.requestCount

section Steps

variable {course after : Course σ} {undertaking told : Undertaking}

/-- Nothing is counted when no request is made. -/
theorem counts_of_keepsTime {cluster : Cluster σ} (keeps : course.cluster.KeepsTime cluster)
    (isUnderway : course.underway = some undertaking)
    (sameRequests : told.requests = undertaking.requests) :
    course.Counts { course with cluster := cluster, underway := some told } := by
  simp only [Counts, requestCount, isUnderway, Option.elim_some, sameRequests, keeps.triggered]

theorem counts_tell (isUnderway : course.underway = some undertaking)
    (sameRequests : told.requests = undertaking.requests) {event : CallEvent}
    (counts : CallState.Counts ⟨told.call, course.cluster.coordinator⟩
      (CallState.step ⟨told.call, course.cluster.coordinator⟩ event)) :
    course.Counts (course.tell told event) := by
  rw [CallState.Counts] at counts
  simp only [tell, Cluster.tell]
  split
  · next reply hasEnded =>
      rw [hasEnded, CallStage.requestCount_ended] at counts
      simp only [Counts, requestCount, close, counts, isUnderway, Undertaking.record, sameRequests,
        total_cons, Option.elim_some, Option.elim_none]
      omega
  · next request isTriggering =>
      rw [isTriggering, CallStage.requestCount_triggering] at counts
      simp only [Counts, requestCount, noteRequest, counts, isUnderway, sameRequests,
        Option.elim_some, List.length_append, List.length_singleton]
      omega
  · next notEnded notTriggering =>
      rw [CallStage.requestCount_of_ne notTriggering] at counts
      simp only [Counts, requestCount, counts, isUnderway, sameRequests, Option.elim_some,
        Nat.add_zero]

/-- Whatever happens, the coordinator counts the requests that its calls make. -/
theorem Step.counts (step : course.Step after) : course.Counts after := by
  cases step with
  | passes isLater => rfl
  | @works id node place isNode =>
      have keeps := course.cluster.keepsTime_work id node place
      simp only [Counts, requestCount, keeps.triggered]
  | storeChanges content isNode => rfl
  | refuses isIdle isRefused =>
      simp only [Counts, requestCount, total_cons, List.length_nil, Nat.zero_add]
  | begins isIdle isStarted =>
      simp only [Counts, requestCount, isIdle, Option.elim_some, Option.elim_none, List.length_nil]
  | @attempts undertaking isUnderway isReady inTime =>
      apply counts_tell isUnderway
      · rfl
      · rcases isReady with isStarting | isPausing
        · simp only [CallState.step, isStarting]
          exact CallState.counts_start _ _
        · simp only [CallState.step, isPausing]
          exact CallState.counts_start _ _
  | probes isUnderway isProbing isNode isOpen =>
      exact counts_of_keepsTime (Cluster.keepsTime_probe _ _ _ _) isUnderway rfl
  | @judgesProbes undertaking replies fresh isUnderway isProbing haveReplied isFresh =>
      -- Giving the name changes neither count.
      have isUnderwayNamed : course.giveName.underway = some undertaking := isUnderway
      have counts : course.giveName.Counts
          (course.giveName.tell undertaking (.probed replies fresh)) := by
        refine counts_tell isUnderwayNamed rfl ?_
        simp only [CallState.step, isProbing]
        exact CallState.counts_judgeProbes _ _ _
      exact counts
  | triggers isUnderway isTriggering isNode isOpen =>
      exact counts_of_keepsTime (Cluster.keepsTime_trigger _ _ _) isUnderway rfl
  | judgesTriggers isUnderway isTriggering haveReplied =>
      refine counts_tell isUnderway rfl ?_
      simp only [CallState.step, isTriggering]
      exact CallState.counts_judgeTriggers _ _ _
  | looks isUnderway isWaiting inTime =>
      refine counts_tell isUnderway rfl ?_
      simp only [CallState.step, isWaiting]
      exact CallState.counts_look isWaiting _

theorem counts_of_reaches (reaches : course.Reaches after) : course.Counts after := by
  induction reaches with
  | refl => rfl
  | @tail middle last _ step inductionHypothesis =>
      have counts := step.counts
      rw [Counts] at counts inductionHypothesis ⊢
      omega

end Steps

end Course

end Unnest
