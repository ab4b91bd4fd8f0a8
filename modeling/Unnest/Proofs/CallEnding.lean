import Unnest.Proofs.CallTelling

/-!
# Every call ends

A call that waits has a request that is waited for, so that a look at its deadline decides; and an
attempt that begins at the deadline ends the call.  So the call has ended when its caller gets an
answer, and its phases are those of a history: one last phase closes them, unless two nodes broke
down on the call.
-/

namespace Unnest

variable {σ : Type}

namespace Cluster

/-! ## The parts of a call -/

theorem tells_probeNodes (call : Call) (cluster : Cluster σ) :
    Tells (call, cluster) (cluster.probeNodes call) := by
  have areAsked := callEach_outcome
    (fun cluster id => cluster.probe_outcome call.table call.flattenBy id) call.nodes cluster
  exact (areAsked.2.tells call).trans ((tells_refl call rfl).trans (tells_tell call _ areAsked.1))

theorem stage_probeNodes {call : Call} (isProbing : call.stage = .probing) (cluster : Cluster σ) :
    (cluster.probeNodes call).1.stage = .pausing ∨
      (∃ reply, (cluster.probeNodes call).1.stage = .ended reply) ∨
      ∃ request, (cluster.probeNodes call).1.stage = .triggering request := by
  simp only [probeNodes, tell, CallState.step, isProbing]
  rcases CallState.stage_judgeProbes _ _ _ with isPausing | hasEnded | isTriggering
  · exact Or.inl isPausing
  · exact Or.inr (Or.inl hasEnded)
  · exact Or.inr (Or.inr ⟨_, isTriggering.1⟩)

theorem tells_triggerNodes (request : RequestId) (call : Call) (cluster : Cluster σ) :
    Tells (call, cluster) (cluster.triggerNodes request call) := by
  let named : FlattenRequest :=
    { id := request
      table := call.table
      flattenBy := call.flattenBy
      notify := [cluster.coordinator.id] }
  have areAsked := callEach_outcome (fun cluster id => cluster.trigger_outcome named id) call.nodes
    cluster
  exact (areAsked.2.tells call).trans (tells_tell call _ areAsked.1)

theorem stage_triggerNodes {call : Call} {request : RequestId}
    (isTriggering : call.stage = .triggering request) (cluster : Cluster σ) :
    (cluster.triggerNodes request call).1.stage = .pausing ∨
      (∃ reply, (cluster.triggerNodes request call).1.stage = .ended reply) ∨
      (cluster.triggerNodes request call).1.stage = .waiting request := by
  simp only [triggerNodes, tell, CallState.step, isTriggering]
  rcases CallState.stage_judgeTriggers _ _ _ with isPausing | hasEnded | isWaiting
  · exact Or.inl isPausing
  · exact Or.inr (Or.inl hasEnded)
  · exact Or.inr (Or.inr isWaiting.1)

theorem tells_look (call : Call) (cluster : Cluster σ) :
    Tells (call, cluster) (cluster.look call) :=
  (cluster.hears_settle.tells call).trans (tells_tell call _ rfl)

/-- A look leaves a call between attempts or settled, if it is so. -/
theorem rests_look {call : Call} (rests : call.stage.IsBetween ∨ call.stage.IsSettled)
    (cluster : Cluster σ) :
    (cluster.look call).1.stage.IsBetween ∨ (cluster.look call).1.stage.IsSettled := by
  rcases rests with (isStarting | isPausing) | (⟨request, isWaiting⟩ | ⟨reply, hasEnded⟩)
  · simp only [look, tell, CallState.step, isStarting]
    exact Or.inl (Or.inl rfl)
  · simp only [look, tell, CallState.step, isPausing]
    exact Or.inl (Or.inr rfl)
  · simp only [look, tell, CallState.step, isWaiting]
    rcases CallState.stage_look _ request _ with isStarting | hasEnded | ⟨isSame, _⟩
    · exact Or.inl (Or.inl isStarting)
    · exact Or.inr (Or.inr hasEnded)
    · rw [isSame]
      exact Or.inr (Or.inl ⟨request, isWaiting⟩)
  · rw [look_of_ended cluster hasEnded]
    exact Or.inr (Or.inr ⟨reply, hasEnded⟩)

/-- Once the nodes have been asked, the rest of the attempt leads on. -/
theorem finishAttempt_leadsOn {call : Call} (cluster : Cluster σ)
    (isAsked : call.stage = .pausing ∨ (∃ reply, call.stage = .ended reply) ∨
      ∃ request, call.stage = .triggering request) :
    Tells (call, cluster) (cluster.finishAttempt call) ∧
      ((cluster.finishAttempt call).1.stage.IsBetween ∨
        (cluster.finishAttempt call).1.stage.IsSettled) := by
  rcases isAsked with isPausing | ⟨reply, hasEnded⟩ | ⟨request, isTriggering⟩
  · simp only [finishAttempt, isPausing]
    exact ⟨tells_look call cluster, rests_look (Or.inl (Or.inr isPausing)) cluster⟩
  · rw [finishAttempt_of_ended cluster hasEnded]
    exact ⟨tells_look call cluster, rests_look (Or.inr (Or.inr ⟨reply, hasEnded⟩)) cluster⟩
  · rw [finishAttempt_of_triggering cluster isTriggering]
    refine ⟨(tells_triggerNodes request call cluster).trans (tells_look _ _), rests_look ?_ _⟩
    rcases stage_triggerNodes isTriggering cluster with isPausing | hasEnded | isWaiting
    · exact Or.inl (Or.inr isPausing)
    · exact Or.inr (Or.inr hasEnded)
    · exact Or.inr (Or.inl ⟨request, isWaiting⟩)

/-- An attempt leads on, and if the time is over to the end. -/
theorem attempt_leadsOn {call : Call} (isBetween : call.stage.IsBetween) (now : Nat)
    (cluster : Cluster σ) :
    Tells (call, cluster) (attempt now call cluster) ∧
      ((attempt now call cluster).1.stage.IsBetween ∨
        (attempt now call cluster).1.stage.IsSettled) ∧
      (call.deadline ≤ now → ∃ reply, (attempt now call cluster).1.stage = .ended reply) := by
  let begun := { cluster with now := now }.tell (.clock now) call
  have begins : Tells (call, cluster) begun := (tells_refl call rfl).trans (tells_tell call _ rfl)
  have isStart : begun.1 = (CallState.start ⟨call, cluster.coordinator⟩ now).call := by
    rcases isBetween with isStarting | isPausing
    · simp only [begun, tell, CallState.step, isStarting]
    · simp only [begun, tell, CallState.step, isPausing]
  rcases CallState.stage_start ⟨call, cluster.coordinator⟩ now with
    ⟨isProbing, inTime⟩ | ⟨reply, hasEnded⟩
  · rw [← isStart] at isProbing
    have isRest : attempt now call cluster =
        (begun.2.probeNodes begun.1).2.finishAttempt (begun.2.probeNodes begun.1).1 := by
      simp only [attempt, begun, isProbing]
      rfl
    obtain ⟨finishes, rests⟩ := finishAttempt_leadsOn (begun.2.probeNodes begun.1).2
      (stage_probeNodes isProbing begun.2)
    rw [isRest]
    refine ⟨begins.trans ((tells_probeNodes begun.1 begun.2).trans finishes), rests, ?_⟩
    exact fun isOver => absurd inTime (Nat.not_lt_of_le isOver)
  · rw [← isStart] at hasEnded
    have isRest : attempt now call cluster = begun.2.look begun.1 := by
      simp only [attempt, hasEnded, begun]
    rw [isRest, look_of_ended _ hasEnded]
    exact ⟨begins.trans (begun.2.hears_settle.tells begun.1), Or.inr (Or.inr ⟨reply, hasEnded⟩),
      fun _ => ⟨reply, hasEnded⟩⟩

/-- Attempts follow each other until the call is settled, at the deadline at the latest. -/
theorem proceed_settles (deadline backoff now : Nat) (call : Call) (cluster : Cluster σ)
    (isBetween : call.stage.IsBetween) (isDeadline : call.deadline = deadline) :
    Tells (call, cluster) (proceed deadline backoff now call cluster) ∧
      (proceed deadline backoff now call cluster).1.stage.IsSettled ∧
      (deadline ≤ now →
        ∃ reply, (proceed deadline backoff now call cluster).1.stage = .ended reply) := by
  -- The recursion is that of `proceed`: every round starts nearer to the deadline.
  obtain ⟨tells, rests, ends⟩ := attempt_leadsOn isBetween now cluster
  rw [proceed]
  by_cases isOver : deadline ≤ now
  · rw [isDeadline] at ends
    rw [if_pos isOver]
    exact ⟨tells, Or.inr (ends isOver), ends⟩
  · have sameDeadline : (attempt now call cluster).1.deadline = deadline := by
      rw [tells.deadline_eq, isDeadline]
    rw [if_neg isOver]
    simp only [isOver, false_implies, and_true]
    rcases rests with isBetweenLater | isSettled
    · rcases isBetweenLater with isStarting | isPausing
      · have later := proceed_settles deadline backoff (now + 1) (attempt now call cluster).1
          (attempt now call cluster).2 (Or.inl isStarting) sameDeadline
        simp only [isStarting]
        exact ⟨tells.trans later.1, later.2.1⟩
      · have later := proceed_settles deadline backoff
          (now + max 1 (min backoff (deadline - now))) (attempt now call cluster).1
          (attempt now call cluster).2 (Or.inr isPausing) sameDeadline
        simp only [isPausing]
        exact ⟨tells.trans later.1, later.2.1⟩
    · rcases isSettled with ⟨request, isWaiting⟩ | ⟨reply, hasEnded⟩
      · simp only [isWaiting]
        exact ⟨tells, Or.inl ⟨request, rfl⟩⟩
      · simp only [hasEnded]
        exact ⟨tells, Or.inr ⟨reply, rfl⟩⟩
termination_by deadline - now

/-- A call goes on until it is settled; at its deadline, only if it waits it has not ended then. -/
theorem goOn_settles {call : Call} (rests : call.stage.IsBetween ∨ call.stage.IsSettled)
    (cluster : Cluster σ) :
    Tells (call, cluster) (cluster.goOn call) ∧ (cluster.goOn call).1.stage.IsSettled ∧
      (call.deadline ≤ cluster.now → (∀ request, call.stage ≠ .waiting request) →
        ∃ reply, (cluster.goOn call).1.stage = .ended reply) := by
  have proceeds := proceed_settles call.deadline
    (cluster.coordinator.settings.backoffMillis * 1000) cluster.now call cluster
  rcases rests with isBetween | (⟨request, isWaiting⟩ | ⟨reply, hasEnded⟩)
  · obtain ⟨tells, isSettled, ends⟩ := proceeds isBetween rfl
    have isRest : cluster.goOn call = cluster.proceed call.deadline
        (cluster.coordinator.settings.backoffMillis * 1000) cluster.now call := by
      rcases isBetween with isStarting | isPausing
      · simp only [goOn, isStarting]
      · simp only [goOn, isPausing]
    rw [isRest]
    exact ⟨tells, isSettled, fun isOver _ => ends isOver⟩
  · simp only [goOn, isWaiting]
    exact ⟨tells_refl call rfl, Or.inl ⟨request, rfl⟩,
      fun _ notWaiting => absurd rfl (notWaiting request)⟩
  · simp only [goOn, hasEnded]
    exact ⟨tells_refl call rfl, Or.inr ⟨reply, rfl⟩, fun _ _ => ⟨reply, rfl⟩⟩

/-- A look at the deadline decides a request that is waited for. -/
theorem lookAtDeadline_decides {call : Call} {request : RequestId}
    (isWaiting : call.stage = .waiting request) {cluster : Cluster σ}
    (known : CallState.KnowsRequest ⟨call, cluster.coordinator⟩) :
    Tells (call, cluster) (cluster.lookAtDeadline call) ∧
      (cluster.lookAtDeadline call).2.now ≥ call.deadline ∧
      ((cluster.lookAtDeadline call).1.stage = .starting ∨
        ∃ reply, (cluster.lookAtDeadline call).1.stage = .ended reply) := by
  let late := { cluster with now := max cluster.now call.deadline }
  have waits : Tells (call, cluster) (call, late.settle) :=
    (tells_refl call rfl).trans (late.hears_settle.tells call)
  have isLate : call.deadline ≤ late.settle.now := by
    rw [(keepsTime_settle late).now]
    exact Nat.le_max_right _ _
  have isKnown := waits.knowsRequest known request (Or.inr isWaiting)
  refine ⟨(tells_refl call rfl).trans (tells_look call late), isLate, ?_⟩
  simp only [lookAtDeadline, look, tell, CallState.step, isWaiting]
  rcases CallState.stage_look _ request _ with isStarting | hasEnded | ⟨_, isUndecided⟩
  · exact Or.inl isStarting
  · exact Or.inr hasEnded
  · rw [decide_eq_true isLate] at isUndecided
    exact absurd isUndecided (CallState.verdict_ne_undecided isKnown)

/-- A settled call is carried on to its end. -/
theorem conclude_ends {call : Call} (isSettled : call.stage.IsSettled) {cluster : Cluster σ}
    (known : CallState.KnowsRequest ⟨call, cluster.coordinator⟩) :
    Tells (call, cluster) (cluster.conclude call) ∧
      ∃ reply, (cluster.conclude call).1.stage = .ended reply := by
  let looked := cluster.look call
  let gone := looked.2.goOn looked.1
  obtain ⟨goesOn, isSettledLater, _⟩ :=
    goOn_settles (rests_look (Or.inr isSettled) cluster) looked.2
  have tells : Tells (call, cluster) gone := (tells_look call cluster).trans goesOn
  have isKnown := tells.knowsRequest known
  rcases isSettledLater with ⟨request, isWaiting⟩ | ⟨reply, hasEnded⟩
  · have isConclusion : cluster.conclude call =
        (gone.2.lookAtDeadline gone.1).2.goOn (gone.2.lookAtDeadline gone.1).1 := by
      simp only [conclude, isWaiting, gone, looked]
    obtain ⟨looks, isLate, decides⟩ := lookAtDeadline_decides isWaiting isKnown
    have rests : (gone.2.lookAtDeadline gone.1).1.stage.IsBetween ∨
        (gone.2.lookAtDeadline gone.1).1.stage.IsSettled := by
      rcases decides with isStarting | hasEnded
      · exact Or.inl (Or.inl isStarting)
      · exact Or.inr (Or.inr hasEnded)
    obtain ⟨finishes, _, ends⟩ := goOn_settles rests (gone.2.lookAtDeadline gone.1).2
    rw [isConclusion]
    refine ⟨tells.trans (looks.trans finishes), ends ?_ ?_⟩
    · rw [looks.deadline_eq]
      exact isLate
    · intro other isWaitingLater
      rcases decides with isStarting | ⟨reply, hasEnded⟩
      · rw [isStarting] at isWaitingLater
        cases isWaitingLater
      · rw [hasEnded] at isWaitingLater
        cases isWaitingLater
  · have isConclusion : cluster.conclude call = gone := by
      simp only [conclude, hasEnded, gone, looked]
    rw [isConclusion]
    exact ⟨tells, reply, hasEnded⟩

/-! ## Whole calls -/

theorem stage_of_startCall {cluster : Cluster σ} {table flattenBy : String} {call : Call}
    (isStarted : cluster.startCall table flattenBy = .ok call) :
    call.stage = .starting ∧ call.phases = [] := by
  unfold startCall at isStarted
  split at isStarted
  · cases isStarted
  · split at isStarted
    · cases isStarted
    · cases isStarted
      exact ⟨rfl, rfl⟩

/-- A call that has begun is told events until it has ended, and its answer is that of its end. -/
theorem ensureFlattened_ends {cluster : Cluster σ} {table flattenBy : String} {call : Call}
    (isStarted : cluster.startCall table flattenBy = .ok call) :
    ∃ (events : List CallEvent) (reply : Reply Agreement),
      (∀ event ∈ events, event.tellsTimeout = false) ∧
      (CallState.run ⟨call, cluster.coordinator⟩ events).call.stage = .ended reply ∧
      (cluster.ensureFlattened table flattenBy).1 =
        answerOf (CallState.run ⟨call, cluster.coordinator⟩ events).call ∧
      (cluster.ensureFlattened table flattenBy).2.coordinator =
        (CallState.run ⟨call, cluster.coordinator⟩ events).coordinator := by
  have isStarting := (stage_of_startCall isStarted).1
  have known : CallState.KnowsRequest ⟨call, cluster.coordinator⟩ := by
    apply CallState.knowsRequest_of_notTrying
    intro request isTrying
    simp [CallState.IsTrying, isStarting] at isTrying
  obtain ⟨goesOn, isSettled, _⟩ := goOn_settles (Or.inl (Or.inl isStarting)) cluster
  obtain ⟨concludes, reply, hasEnded⟩ := conclude_ends isSettled (goesOn.knowsRequest known)
  obtain ⟨events, noTimeout, isRun⟩ := goesOn.trans concludes
  refine ⟨events, reply, noTimeout, ?_⟩
  rw [isRun]
  refine ⟨hasEnded, ?_, ?_⟩
  · simp only [ensureFlattened, isStarted]
  · simp only [ensureFlattened, isStarted]

/-- Whatever a call is told, its phases are those of its attempts, closed by one last phase when it
comes to an outcome; each attempt that was given up is counted once, and so is the outcome.  Only if
two nodes break down on the call, it breaks down as well, with neither a last phase nor an outcome.
And however the members of the cluster behave, the call ends. -/
theorem ensureFlattened_phases {cluster : Cluster σ} {table flattenBy : String} {call : Call}
    (isStarted : cluster.startCall table flattenBy = .ok call) :
    (∀ (coordinator : Coordinator) (events : List CallEvent),
      (∀ event ∈ events, event.tellsTimeout = false) →
      let state := CallState.run ⟨call, coordinator⟩ events
      ∃ givenUp : List Reach,
        coordinator.Tallies state.coordinator (state.call.phases.count .triggering)
          (givenUp.countP (· != .waiting)) (givenUp.count .waiting) ∧
        ((∀ reply, state.call.stage ≠ .ended reply) →
          state.call.phases =
            (givenUp ++ state.call.stage.reach?.toList).flatMap Reach.phases) ∧
        (∀ outcome, state.call.stage = .ended (.answered outcome) →
          ∃ event ∈ events, ∃ last terminal, call.Closes event last terminal outcome ∧
            state.call.phases =
              (givenUp ++ last.toList).flatMap Reach.phases ++ [terminal] ∧
            (answerOf state.call).counters =
              [(Counters.labelled "strata_cluster_flatten_total" "outcome" terminal.countedAs,
                1)]) ∧
        (state.call.stage = .ended .crashed →
          (∃ event ∈ events, event.breaksDown = true) ∧
          (∃ last, state.call.phases = (givenUp ++ [last]).flatMap Reach.phases) ∧
          (answerOf state.call).counters = [])) ∧
    ∃ (events : List CallEvent) (reply : Reply Agreement),
      (∀ event ∈ events, event.tellsTimeout = false) ∧
      (CallState.run ⟨call, cluster.coordinator⟩ events).call.stage = .ended reply ∧
      (cluster.ensureFlattened table flattenBy).1 =
        answerOf (CallState.run ⟨call, cluster.coordinator⟩ events).call ∧
      (cluster.ensureFlattened table flattenBy).2.coordinator =
        (CallState.run ⟨call, cluster.coordinator⟩ events).coordinator := by
  refine ⟨?_, ensureFlattened_ends isStarted⟩
  intro coordinator events noTimeout state
  obtain ⟨isStarting, noPhases⟩ := stage_of_startCall isStarted
  have isOpened : ∃ givenUp, CallState.IsHistory ⟨call, coordinator⟩ events givenUp state :=
    CallState.exists_isHistory isStarting noPhases events noTimeout
  obtain ⟨givenUp, history⟩ := isOpened
  refine ⟨givenUp, history.tallies, history.phases, ?_, ?_⟩
  · intro outcome hasEnded
    obtain ⟨event, isEvent, last, terminal, closes, phases⟩ := history.hasCome.of_outcome hasEnded
    refine ⟨event, isEvent, last, terminal, closes, phases, ?_⟩
    rw [answerOf, hasEnded]
    simp only [CallAnswer.ofOutcome, closes.outcomeName, CallAnswer.outcomeCounters_eq]
  · intro hasEnded
    obtain ⟨breaks, isHere⟩ := history.hasCome.of_crashed hasEnded
    refine ⟨breaks, isHere, ?_⟩
    rw [answerOf, hasEnded]
    rfl

/-- Two nodes, one of which is not reached at first; then their flattenings differ once. -/
def retryingCluster : Cluster Unit where
  coordinator := { id := ⟨9⟩, settings := { timeoutMillis := 5, backoffMillis := 1 } }
  members :=
    [(⟨1⟩, .scripted
        { id := ⟨1⟩
          probes := [.fault .unreachable, .answer none, .lastReported]
          flattens := [.flattened (.ofNat 5), .flattened (.ofNat 7)] }),
      (⟨2⟩, .scripted
        { id := ⟨2⟩
          probes := [.answer (some (.ofNat 4)), .answer (some (.ofNat 4)), .lastReported]
          flattens := [.flattened (.ofNat 6), .flattened (.ofNat 7)] })]
  serving := [("t", [⟨1⟩, ⟨2⟩])]

/-- The only call for the cluster above. -/
def retryingCall : Call where
  table := "t"
  flattenBy := "a[*]"
  nodes := [⟨1⟩, ⟨2⟩]
  startedAt := 0
  deadline := 5000

theorem ensureFlattened_phases_retryingCluster :
    retryingCluster.startCall "t" "a[*]" = .ok retryingCall ∧
      (retryingCluster.ensureFlattened "t" "a[*]").1.phases =
        [.probing, .probing, .triggering, .waiting, .probing, .triggering, .waiting, .done] ∧
      ∃ givenUp last,
        [.probing, .probing, .triggering, .waiting, .probing, .triggering, .waiting, .done] =
          (givenUp ++ Option.toList last).flatMap Reach.phases ++ [.done] ∧
        (retryingCluster.ensureFlattened "t" "a[*]").2.coordinator.retries =
          givenUp.countP (· != .waiting) ∧
        (retryingCluster.ensureFlattened "t" "a[*]").2.coordinator.disagreements =
          givenUp.count .waiting ∧
        (retryingCluster.ensureFlattened "t" "a[*]").1.counters =
          [("strata_cluster_flatten_total,outcome=flattened", 1)] := by
  have isStarted : retryingCluster.startCall "t" "a[*]" = .ok retryingCall := rfl
  have isAnswered : (retryingCluster.ensureFlattened "t" "a[*]").1.phases =
      [.probing, .probing, .triggering, .waiting, .probing, .triggering, .waiting, .done] := by
    decide +kernel
  have isCounted : (retryingCluster.ensureFlattened "t" "a[*]").1.counters =
      [("strata_cluster_flatten_total,outcome=flattened", 1)] := by
    decide +kernel
  obtain ⟨anyCourse, events, reply, noTimeout, hasEnded, isAnswer, sameCoordinator⟩ :=
    ensureFlattened_phases isStarted
  obtain ⟨givenUp, tallies, _, ends, breaks⟩ :=
    anyCourse retryingCluster.coordinator events noTimeout
  cases reply with
  | crashed =>
      -- An outcome is counted, so the call has not broken down.
      obtain ⟨_, _, noCounters⟩ := breaks hasEnded
      rw [isAnswer, noCounters] at isCounted
      cases isCounted
  | answered outcome =>
      obtain ⟨_, _, last, terminal, _, phases, _⟩ := ends outcome hasEnded
      have isEnd := isAnswered
      rw [isAnswer, answerOf, hasEnded] at isEnd
      simp only [CallAnswer.ofOutcome, phases] at isEnd
      have isDone : terminal = .done := by
        have lastPhases := congrArg List.getLast? isEnd
        rw [List.getLast?_concat] at lastPhases
        exact Option.some.inj lastPhases
      rw [isDone] at isEnd
      refine ⟨isStarted, isAnswered, givenUp, last, isEnd.symm, ?_, ?_, isCounted⟩
      · rw [sameCoordinator, tallies.retries]
        exact Nat.zero_add _
      · rw [sameCoordinator, tallies.disagreements]
        exact Nat.zero_add _

end Cluster

end Unnest
