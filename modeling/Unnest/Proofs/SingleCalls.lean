import Unnest.Proofs.ClusterSettling

/-!
# One call from beginning to end

In a sound course in which nothing is under way, a call that has some time is a course of its own:
it asks all nodes, makes a request if they do not agree, lets the nodes work, and finds all reports
when it looks for them, if need be in a second attempt.  `Course.IsSound.carriesOut` is about the
call as a whole, the other results are about its parts, the last one first.
-/

namespace Unnest

variable {σ : Type}

namespace Cluster

/-! ## Calls take no time -/

theorem keepsTime_callEach {α : Type} {ask : Cluster σ → NodeId → Reply α × Cluster σ}
    (keeps : ∀ (cluster : Cluster σ) id, cluster.KeepsTime (ask cluster id).2) (ids : List NodeId)
    (cluster : Cluster σ) : cluster.KeepsTime (callEach ask ids cluster).2 := by
  induction ids generalizing cluster with
  | nil => exact .refl cluster
  | cons first rest inductionHypothesis =>
      exact (keeps cluster first).trans (inductionHypothesis _)

theorem freshName_of_keepsTime {before after : Cluster σ} (keeps : before.KeepsTime after) :
    after.freshName.1 = before.freshName.1 := by
  rw [freshName, freshName, keeps.namesGiven]

/-- A call that has ended looks for nothing. -/
theorem look_of_ended (cluster : Cluster σ) {call : Call} {reply : Reply Agreement}
    (hasEnded : call.stage = .ended reply) : cluster.look call = (call, cluster.settle) := by
  simp only [look, tell, CallState.step, hasEnded]

/-- The rest of an attempt once all nodes have been asked. -/
def finishAttempt (cluster : Cluster σ) (call : Call) : Call × Cluster σ :=
  let (call, cluster) :=
    match call.stage with
    | .triggering request => cluster.triggerNodes request call
    | _ => (call, cluster)
  cluster.look call

theorem finishAttempt_of_ended (cluster : Cluster σ) {call : Call} {reply : Reply Agreement}
    (hasEnded : call.stage = .ended reply) : cluster.finishAttempt call = cluster.look call := by
  simp only [finishAttempt, hasEnded]

theorem finishAttempt_of_triggering (cluster : Cluster σ) {call : Call} {request : RequestId}
    (isTriggering : call.stage = .triggering request) :
    cluster.finishAttempt call =
      (cluster.triggerNodes request call).2.look (cluster.triggerNodes request call).1 := by
  simp only [finishAttempt, isTriggering]

theorem attempt_of_starting {cluster : Cluster σ} {call : Call}
    (isStarting : call.stage = .starting) (inTime : cluster.now < call.deadline) :
    cluster.attempt cluster.now call =
      (cluster.probeNodes (call.enter .probing [.probing])).2.finishAttempt
        (cluster.probeNodes (call.enter .probing [.probing])).1 := by
  have isTold := Course.tell_clock isStarting inTime
  simp only [attempt, isTold, Call.enter]
  rfl

/-! ## Names -/

/-- The name that is given to a request after a number of others. -/
def nameAt (count : Nat) : RequestId :=
  .ofNat (firstName + count)

/-- The names that the next call may give to its requests. -/
def nextNames (cluster : Cluster σ) : List RequestId :=
  [nameAt cluster.namesGiven, nameAt (cluster.namesGiven + 1)]

/-- A name was given between two moments. -/
def Gives (before after : Cluster σ) (name : RequestId) : Prop :=
  ∃ count, before.namesGiven ≤ count ∧ count < after.namesGiven ∧ name = nameAt count

theorem Gives.mono {first before after last : Cluster σ} {name : RequestId}
    (gives : before.Gives after name) (earlier : first.namesGiven ≤ before.namesGiven)
    (later : after.namesGiven ≤ last.namesGiven) : first.Gives last name := by
  rcases gives with ⟨count, isGiven, notGiven, isName⟩
  exact ⟨count, earlier.trans isGiven, notGiven.trans_le later, isName⟩

theorem nameAt_ne_succ (count : Nat) : nameAt count ≠ nameAt (count + 1) := by
  intro same
  have sameBits := congrArg (fun identifier => identifier.bits.toNat) same
  simp only [nameAt, Identifier.ofNat, BitVec.toNat_ofNat] at sameBits
  omega

/-! ## Attempts -/

theorem proceed_of_ended {cluster : Cluster σ} {call : Call} {deadline backoff now : Nat}
    {reply : Reply Agreement} (inTime : now < deadline)
    (hasEnded : (cluster.attempt now call).1.stage = .ended reply) :
    cluster.proceed deadline backoff now call = cluster.attempt now call := by
  rw [proceed, if_neg (Nat.not_le.mpr inTime)]
  simp only [hasEnded]

theorem proceed_of_starting {cluster : Cluster σ} {call : Call} {deadline backoff now : Nat}
    (inTime : now < deadline) (isStarting : (cluster.attempt now call).1.stage = .starting) :
    cluster.proceed deadline backoff now call =
      (cluster.attempt now call).2.proceed deadline backoff (now + 1)
        (cluster.attempt now call).1 := by
  rw [proceed, if_neg (Nat.not_le.mpr inTime)]
  simp only [isStarting]

end Cluster

namespace Course

/-! ## Calling all nodes -/

/-- Calling all nodes of a list is calling each of them, as long as one call after the other is a
step. -/
theorem reaches_callEach {α : Type} {ask : Cluster σ → NodeId → Reply α × Cluster σ}
    {nodes : List NodeId} {stands : Cluster σ → List (Option (Reply α)) → Course σ}
    {fits : Cluster σ → Prop}
    (steps : ∀ cluster replies place id, fits cluster → nodes[place]? = some id →
      replies[place]? = some none → (stands cluster replies).Step
        (stands (ask cluster id).2 (replies.set place (some (ask cluster id).1))))
    (keeps : ∀ cluster id, fits cluster → fits (ask cluster id).2)
    {front rest : List NodeId} (isSplit : nodes = front ++ rest) {replied : List (Reply α)}
    (places : replied.length = front.length) (cluster : Cluster σ) (isFit : fits cluster) :
    (stands cluster (replied.map some ++ rest.map fun _ => none)).Reaches
      (stands (cluster.callEach ask rest).2
        ((replied ++ (cluster.callEach ask rest).1).map some)) := by
  induction rest generalizing front replied cluster with
  | nil =>
      rw [List.map_nil, List.append_nil, Cluster.callEach, List.append_nil]
      exact .refl
  | cons id rest inductionHypothesis =>
      have isNode : nodes[replied.length]? = some id := by
        rw [isSplit, places, List.getElem?_append_right le_rfl, Nat.sub_self]
        rfl
      have isOpen : (replied.map some ++ (id :: rest).map fun _ => none)[replied.length]? =
          some (none : Option (Reply α)) := by
        rw [List.getElem?_append_right (by simp), List.length_map, Nat.sub_self]
        rfl
      have isSet : (replied.map some ++ (id :: rest).map fun _ => none).set replied.length
          (some (ask cluster id).1) =
            (replied ++ [(ask cluster id).1]).map some ++ rest.map fun _ => none := by
        rw [List.set_append_right _ _ (by simp), List.length_map, Nat.sub_self]
        simp
      have step := steps cluster _ _ id isFit isNode isOpen
      rw [isSet] at step
      have isSplitLater : nodes = (front ++ [id]) ++ rest := by simp [isSplit]
      have placesLater : (replied ++ [(ask cluster id).1]).length = (front ++ [id]).length := by
        simp [places]
      have later := inductionHypothesis isSplitLater placesLater _ (keeps cluster id isFit)
      rw [List.append_assoc] at later
      exact .head step later

/-! ## Parts of a call -/

/-- The call that is under way is carried on, and its requests have the names that are given
meanwhile. -/
structure Leads (course : Course σ) (outcome : Call × Cluster σ) (after : Course σ) : Prop where
  reaches : course.Reaches after
  cluster : after.cluster = outcome.2
  gives : course.cluster.namesGiven ≤ outcome.2.namesGiven
  asked : ∀ entry ∈ after.asked, entry ∈ course.asked ∨ course.cluster.Gives outcome.2 entry.1

/-- The call for a field of a table is brought to its end. -/
structure Brings (course : Course σ) (table flattenBy : String) (ended : Call × Cluster σ)
    (after : Course σ) : Prop extends course.Leads ended after where
  idle : after.underway = none
  hasEnded : ∃ reply, ended.1.stage = .ended reply
  answered : ∃ requests, after.answered =
    ⟨table, flattenBy, requests, Cluster.answerOf ended.1⟩ :: course.answered

/-- The call that is under way is about to begin another attempt, at the same time, after a number
of names were given. -/
structure Retries (course : Course σ) (given : Nat) (undertaking : Undertaking)
    (begun : Call × Cluster σ) (after : Course σ) : Prop extends course.Leads begun after where
  underway : ∃ later, after.underway = some later ∧ later.call = begun.1 ∧
    later.flattenBy = undertaking.flattenBy ∧ later.requests ≠ []
  stage : begun.1.stage = .starting
  table : begun.1.table = undertaking.call.table
  deadline : begun.1.deadline = undertaking.call.deadline
  answered : after.answered = course.answered
  now : begun.2.now = course.cluster.now
  namesGiven : begun.2.namesGiven = course.cluster.namesGiven + given

/-- An attempt ends the call, or it was the first one of two. -/
def Tries (course : Course σ) (given : Nat) (undertaking : Undertaking) (isFirst : Prop)
    (outcome : Call × Cluster σ) : Prop :=
  ∃ after, course.Brings undertaking.call.table undertaking.flattenBy outcome after ∨
    isFirst ∧ course.Retries given undertaking outcome after

section Parts

variable {course before : Course σ} {undertaking : Undertaking} {table flattenBy : String}
  {given more : Nat} {outcome : Call × Cluster σ} {after : Course σ}

theorem Leads.of_reaches (leads : course.Leads outcome after) (reaches : before.Reaches course)
    (gives : before.cluster.namesGiven ≤ course.cluster.namesGiven)
    (asked : ∀ entry ∈ course.asked,
      entry ∈ before.asked ∨ before.cluster.Gives course.cluster entry.1) :
    before.Leads outcome after where
  reaches := reaches.trans leads.reaches
  cluster := leads.cluster
  gives := gives.trans leads.gives
  asked := by
    intro entry isAsked
    rcases leads.asked entry isAsked with wasAsked | isGiven
    · exact (asked entry wasAsked).imp_right fun isGiven => isGiven.mono le_rfl leads.gives
    · exact Or.inr (isGiven.mono gives le_rfl)

theorem Brings.of_reaches (brings : course.Brings table flattenBy outcome after)
    (reaches : before.Reaches course)
    (gives : before.cluster.namesGiven ≤ course.cluster.namesGiven)
    (asked : ∀ entry ∈ course.asked,
      entry ∈ before.asked ∨ before.cluster.Gives course.cluster entry.1)
    (answered : course.answered = before.answered) :
    before.Brings table flattenBy outcome after where
  toLeads := brings.toLeads.of_reaches reaches gives asked
  idle := brings.idle
  hasEnded := brings.hasEnded
  answered := answered ▸ brings.answered

/-- What the call came through before its attempt goes on belongs to the attempt. -/
theorem Tries.of_reaches {isFirst wasFirst : Prop} {earlier : Undertaking}
    (tries : course.Tries given undertaking isFirst outcome) (reaches : before.Reaches course)
    (asked : ∀ entry ∈ course.asked,
      entry ∈ before.asked ∨ before.cluster.Gives course.cluster entry.1)
    (answered : course.answered = before.answered) (now : course.cluster.now = before.cluster.now)
    (namesGiven : course.cluster.namesGiven = before.cluster.namesGiven + more)
    (flattenBy : undertaking.flattenBy = earlier.flattenBy)
    (table : undertaking.call.table = earlier.call.table)
    (deadline : undertaking.call.deadline = earlier.call.deadline)
    (first : isFirst → wasFirst) : before.Tries (more + given) earlier wasFirst outcome := by
  have gives : before.cluster.namesGiven ≤ course.cluster.namesGiven :=
    namesGiven ▸ Nat.le_add_right _ _
  rcases tries with ⟨after, brings | ⟨isFirst, retries⟩⟩
  · rw [table, flattenBy] at brings
    exact ⟨after, Or.inl (brings.of_reaches reaches gives asked answered)⟩
  · refine ⟨after, Or.inr ⟨first isFirst,
      { toLeads := retries.toLeads.of_reaches reaches gives asked
        underway := flattenBy ▸ retries.underway
        stage := retries.stage, table := retries.table.trans table
        deadline := retries.deadline.trans deadline
        answered := retries.answered.trans answered, now := retries.now.trans now
        namesGiven := ?_ }⟩⟩
    rw [retries.namesGiven, namesGiven, Nat.add_assoc]

/-- When a call has ended, another look only lets the nodes work. -/
theorem Brings.look (brings : course.Brings table flattenBy outcome after) :
    course.Brings table flattenBy (outcome.2.look outcome.1)
      { after with cluster := after.cluster.settle } := by
  rcases brings.hasEnded with ⟨reply, hasEnded⟩
  have sameNames : outcome.2.settle.namesGiven = outcome.2.namesGiven :=
    outcome.2.keepsTime_settle.namesGiven
  rw [Cluster.look_of_ended _ hasEnded]
  refine ⟨⟨brings.reaches.trans after.reaches_settle, ?_, sameNames ▸ brings.gives, ?_⟩,
    brings.idle, ⟨reply, hasEnded⟩, brings.answered⟩
  · rw [brings.cluster]
  · intro entry isAsked
    exact (brings.asked entry isAsked).imp_right fun isGiven =>
      isGiven.mono le_rfl sameNames.symm.le

theorem tell_keepsNames (cluster : Cluster σ) (event : CallEvent) (call : Call) :
    (cluster.tell event call).2.namesGiven = cluster.namesGiven :=
  rfl

theorem Ends.brings {event : CallEvent} (ends : course.Ends undertaking event)
    (reaches : before.Reaches (course.tell undertaking event))
    (answered : course.answered = before.answered) (asked : course.asked = before.asked)
    (gives : before.cluster.namesGiven ≤ course.cluster.namesGiven) :
    before.Brings undertaking.call.table undertaking.flattenBy
      (course.cluster.tell event undertaking.call) (course.tell undertaking event) := by
  rcases ends with ⟨call, cluster, reply, isTold, sameTable, hasEnded, _⟩
  have sameNames := tell_keepsNames course.cluster event undertaking.call
  rw [tell_eq_close isTold hasEnded] at reaches ⊢
  rw [isTold] at sameNames ⊢
  refine ⟨⟨reaches, rfl, sameNames ▸ gives, fun _ isAsked => Or.inl (asked ▸ isAsked)⟩, rfl,
    ⟨reply, hasEnded⟩, undertaking.requests, ?_⟩
  rw [← sameTable, ← answered]
  rfl

theorem TriesAgain.retries {event : CallEvent} {request : RequestId}
    (triesAgain : course.TriesAgain undertaking event request)
    (reaches : before.Reaches (course.tell undertaking event))
    (answered : course.answered = before.answered) (asked : course.asked = before.asked)
    (keeps : before.cluster.KeepsTime course.cluster) :
    before.Retries 0 undertaking (course.cluster.tell event undertaking.call)
      (course.tell undertaking event) := by
  rw [triesAgain.tell_eq] at reaches ⊢
  rw [triesAgain.isTold]
  refine ⟨⟨reaches, rfl, keeps.namesGiven.symm.le, fun _ isAsked => Or.inl (asked ▸ isAsked)⟩,
    ⟨_, rfl, rfl, rfl, ?_⟩, rfl, rfl, rfl, answered, keeps.now, keeps.namesGiven⟩
  simp only [triesAgain.requests]
  exact List.cons_ne_nil request []

/-- A call that waits finds all reports once the nodes have worked. -/
theorem IsSound.tries_look (sound : course.IsSound) {request : RequestId}
    (isUnderway : course.underway = some undertaking)
    (isWaiting : undertaking.call.stage = .waiting request)
    (inTime : course.cluster.now < undertaking.call.deadline) :
    course.Tries 0 undertaking (undertaking.requests = [request])
      (course.cluster.look undertaking.call) := by
  let settled : Course σ := { course with cluster := course.cluster.settle }
  have keeps : course.cluster.KeepsTime settled.cluster := course.cluster.keepsTime_settle
  have isUnderwaySettled : settled.underway = some undertaking := isUnderway
  have inTimeSettled : settled.cluster.now < undertaking.call.deadline := keeps.now.symm ▸ inTime
  have step : settled.Step (settled.tell undertaking (.looked settled.cluster.now)) :=
    .looks isUnderwaySettled isWaiting inTimeSettled
  have reaches := course.reaches_settle.tail step
  rcases (sound.reaches course.reaches_settle).tell_looked_of_idle isUnderwaySettled isWaiting
    inTimeSettled fun id _ => sound.isIdle_settle id with ends | triesAgain
  · exact ⟨_, Or.inl (ends.brings reaches rfl rfl keeps.namesGiven.symm.le)⟩
  · exact ⟨_, Or.inr ⟨triesAgain.requests, triesAgain.retries reaches rfl rfl keeps⟩⟩

/-- All nodes are sent the request, one after the other. -/
theorem reaches_triggers {request : RequestId} (isUnderway : course.underway = some undertaking)
    (isTriggering : undertaking.call.stage = .triggering request)
    (noReplies : undertaking.triggers = undertaking.call.nodes.map fun _ => none) :
    let called := course.cluster.callEach
      (fun cluster =>
        cluster.trigger (undertaking.call.requestBy course.cluster.coordinator.id request))
      undertaking.call.nodes
    course.Reaches
      { course with
        cluster := called.2
        underway := some { undertaking with triggers := called.1.map some } } := by
  let asking := undertaking.call.requestBy course.cluster.coordinator.id request
  let stands : Cluster σ → List (Option (Reply Unit)) → Course σ := fun cluster replies =>
    { course with
      cluster := cluster
      underway := some { undertaking with triggers := replies } }
  have steps : ∀ cluster replies place id,
      cluster.coordinator.id = course.cluster.coordinator.id →
      undertaking.call.nodes[place]? = some id → replies[place]? = some none →
      (stands cluster replies).Step (stands (cluster.trigger asking id).2
        (replies.set place (some (cluster.trigger asking id).1))) := by
    intro cluster replies place id sameCoordinator isNode isOpen
    have step : (stands cluster replies).Step
        ((stands cluster replies).trigger { undertaking with triggers := replies } request place
          id) := .triggers rfl isTriggering isNode isOpen
    have sameRequest : undertaking.call.requestBy (stands cluster replies).cluster.coordinator.id
        request = asking := congrArg (undertaking.call.requestBy · request) sameCoordinator
    rw [trigger, sameRequest] at step
    exact step
  have keepsId : ∀ (cluster : Cluster σ) (id : NodeId),
      cluster.coordinator.id = course.cluster.coordinator.id →
      (cluster.trigger asking id).2.coordinator.id = course.cluster.coordinator.id :=
    fun cluster id same => (cluster.keepsTime_trigger asking id).coordinator.trans same
  have isCourse : stands course.cluster (undertaking.call.nodes.map fun _ => none) = course := by
    simp only [stands, ← noReplies, ← isUnderway]
  have reaches := reaches_callEach steps keepsId (List.nil_append _).symm
    (rfl : ([] : List (Reply Unit)).length = 0) course.cluster rfl
  rw [List.map_nil, List.nil_append, isCourse] at reaches
  exact reaches

/-- A call that has made a request sends it to all nodes and finds the reports. -/
theorem IsSound.tries_triggerNodes (sound : course.IsSound) {request : RequestId}
    (isUnderway : course.underway = some undertaking)
    (isTriggering : undertaking.call.stage = .triggering request)
    (noReplies : undertaking.triggers = undertaking.call.nodes.map fun _ => none)
    (inTime : course.cluster.now < undertaking.call.deadline) :
    course.Tries 0 undertaking (undertaking.requests = [request])
      ((course.cluster.triggerNodes request undertaking.call).2.look
        (course.cluster.triggerNodes request undertaking.call).1) := by
  let asking := undertaking.call.requestBy course.cluster.coordinator.id request
  let called := course.cluster.callEach (fun cluster => cluster.trigger asking)
    undertaking.call.nodes
  let sent : Course σ :=
    { course with
      cluster := called.2
      underway := some { undertaking with triggers := called.1.map some } }
  have reaches : course.Reaches sent := reaches_triggers isUnderway isTriggering noReplies
  have keeps : course.cluster.KeepsTime called.2 :=
    Cluster.keepsTime_callEach (fun cluster => cluster.keepsTime_trigger asking) _ _
  have inTimeCalled : called.2.now < undertaking.call.deadline := keeps.now.symm ▸ inTime
  rcases (sound.reaches reaches).tell_triggered rfl isTriggering rfl with ⟨isTold, soundAfter⟩
  have step : sent.Step
      (sent.tell { undertaking with triggers := called.1.map some } (.triggered called.1)) :=
    .judgesTriggers rfl isTriggering rfl
  simp only [tell, isTold] at step
  have isTriggered : course.cluster.triggerNodes request undertaking.call =
      (undertaking.call.enter (.waiting request) [.waiting], called.2) := isTold
  rw [isTriggered]
  exact (soundAfter.tries_look rfl rfl inTimeCalled).of_reaches (reaches.tail step)
    (fun _ => Or.inl) rfl keeps.now keeps.namesGiven rfl rfl rfl id

/-- All nodes are asked, one after the other. -/
theorem reaches_probes (isUnderway : course.underway = some undertaking)
    (isProbing : undertaking.call.stage = .probing)
    (noReplies : undertaking.probes = undertaking.call.nodes.map fun _ => none) :
    let called := course.cluster.callEach
      (fun cluster => cluster.probe undertaking.call.table undertaking.call.flattenBy)
      undertaking.call.nodes
    course.Reaches
      { course with
        cluster := called.2
        underway := some { undertaking with probes := called.1.map some } } := by
  let ask : Cluster σ → NodeId → Reply (Option FlattenId) × Cluster σ := fun cluster =>
    cluster.probe undertaking.call.table undertaking.call.flattenBy
  let stands : Cluster σ → List (Option (Reply (Option FlattenId))) → Course σ :=
    fun cluster replies =>
      { course with
        cluster := cluster
        underway := some { undertaking with probes := replies } }
  have steps : ∀ cluster replies place id, True → undertaking.call.nodes[place]? = some id →
      replies[place]? = some none → (stands cluster replies).Step
        (stands (ask cluster id).2 (replies.set place (some (ask cluster id).1))) := by
    intro cluster replies place id _ isNode isOpen
    have step : (stands cluster replies).Step
        ((stands cluster replies).probe { undertaking with probes := replies } place id) :=
      .probes rfl isProbing isNode isOpen
    exact step
  have isCourse : stands course.cluster (undertaking.call.nodes.map fun _ => none) = course := by
    simp only [stands, ← noReplies, ← isUnderway]
  have reaches := reaches_callEach steps (fun _ _ _ => trivial) (List.nil_append _).symm
    (rfl : ([] : List (Reply (Option FlattenId))).length = 0) course.cluster trivial
  rw [List.map_nil, List.nil_append, isCourse] at reaches
  exact reaches

/-- A call that asks its nodes ends, at the latest when it looks for the reports on its request. -/
theorem IsSound.tries_probeNodes (sound : course.IsSound)
    (isUnderway : course.underway = some undertaking)
    (isProbing : undertaking.call.stage = .probing)
    (noReplies : undertaking.probes = undertaking.call.nodes.map fun _ => none)
    (inTime : course.cluster.now < undertaking.call.deadline)
    (isFresh : ∀ entry ∈ course.asked, entry.1 ≠ course.cluster.freshName.1) :
    course.Tries 1 undertaking (undertaking.requests = [])
      ((course.cluster.probeNodes undertaking.call).2.finishAttempt
        (course.cluster.probeNodes undertaking.call).1) := by
  let called := course.cluster.callEach
    (fun cluster => cluster.probe undertaking.call.table undertaking.call.flattenBy)
    undertaking.call.nodes
  let asked : Course σ :=
    { course with
      cluster := called.2
      underway := some { undertaking with probes := called.1.map some } }
  have reaches : course.Reaches asked := reaches_probes isUnderway isProbing noReplies
  have keeps : course.cluster.KeepsTime called.2 :=
    Cluster.keepsTime_callEach (fun cluster =>
      cluster.keepsTime_probe undertaking.call.table undertaking.call.flattenBy) _ _
  let named := asked.giveName
  let fresh := called.2.freshName.1
  have sameName : fresh = course.cluster.freshName.1 := Cluster.freshName_of_keepsTime keeps
  have isStillFresh : ∀ entry ∈ course.asked, entry.1 ≠ fresh := sameName ▸ isFresh
  have soundNamed : named.IsSound := (sound.reaches reaches).moves
    ((sound.reaches reaches).orderly.moves_of_members rfl rfl rfl rfl rfl)
  have step : asked.Step
      (named.tell { undertaking with probes := called.1.map some } (.probed called.1 fresh)) :=
    .judgesProbes rfl isProbing rfl isStillFresh
  have isProbed : course.cluster.probeNodes undertaking.call =
      named.cluster.tell (.probed called.1 fresh) undertaking.call := rfl
  rw [isProbed]
  rcases soundNamed.tell_probed rfl isProbing rfl isStillFresh with ends | ⟨isTold, soundAfter⟩
  · have gives : course.cluster.namesGiven ≤ named.cluster.namesGiven :=
      keeps.namesGiven ▸ Nat.le_succ _
    have brings : course.Brings undertaking.call.table undertaking.flattenBy _ _ :=
      ends.brings (reaches.tail step) rfl rfl gives
    rcases brings.hasEnded with ⟨reply, hasEnded⟩
    rw [Cluster.finishAttempt_of_ended _ hasEnded]
    exact ⟨_, Or.inl brings.look⟩
  · have inTimeNamed : called.2.now < undertaking.call.deadline := keeps.now.symm ▸ inTime
    simp only [tell, isTold] at step
    rw [isTold, Cluster.finishAttempt_of_triggering _ rfl]
    refine (soundAfter.tries_triggerNodes rfl rfl rfl inTimeNamed).of_reaches (reaches.tail step)
      ?_ rfl keeps.now (congrArg (· + 1) keeps.namesGiven) rfl rfl rfl ?_
    · intro entry isEntry
      rcases List.mem_cons.mp isEntry with isNew | wasAsked
      · refine Or.inr ⟨course.cluster.namesGiven, le_rfl, ?_, ?_⟩
        · exact keeps.namesGiven ▸ Nat.lt_succ_self _
        · rw [isNew]
          exact sameName
      · exact Or.inl wasAsked
    · intro isOnly
      rcases List.append_eq_singleton_iff.mp isOnly with noEarlier | isEarlier
      · exact noEarlier.1
      · cases isEarlier.2

/-- An attempt that begins in time ends the call, unless it was the first one. -/
theorem IsSound.tries_attempt (sound : course.IsSound)
    (isUnderway : course.underway = some undertaking)
    (isStarting : undertaking.call.stage = .starting)
    (inTime : course.cluster.now < undertaking.call.deadline)
    (isFresh : ∀ entry ∈ course.asked, entry.1 ≠ course.cluster.freshName.1) :
    course.Tries 1 undertaking (undertaking.requests = [])
      (course.cluster.attempt course.cluster.now undertaking.call) := by
  have isTold := tell_clock isStarting inTime
  have step : course.Step (course.tell
      { undertaking with probes := undertaking.call.nodes.map fun _ => none }
      (.clock course.cluster.now)) := .attempts isUnderway (Or.inl isStarting) inTime
  simp only [tell, isTold] at step
  rw [Cluster.attempt_of_starting isStarting inTime]
  exact ((sound.step step).tries_probeNodes rfl rfl rfl inTime isFresh).of_reaches (.single step)
    (fun _ => Or.inl) rfl rfl rfl rfl rfl rfl id

/-! ## A whole call -/

/-- The second attempt ends the call, a moment later. -/
theorem IsSound.brings_again (sound : course.IsSound)
    (isUnderway : course.underway = some undertaking)
    (isStarting : undertaking.call.stage = .starting) (isSecond : undertaking.requests ≠ [])
    (inTime : course.cluster.now + 1 < undertaking.call.deadline)
    (isFresh : ∀ entry ∈ course.asked, entry.1 ≠ course.cluster.freshName.1) :
    ∃ after, course.Brings undertaking.call.table undertaking.flattenBy
      (course.cluster.attempt (course.cluster.now + 1) undertaking.call) after := by
  let later : Course σ :=
    { course with cluster := { course.cluster with now := course.cluster.now + 1 } }
  have step : course.Step later := .passes (Nat.le_succ _)
  have isUnderwayLater : later.underway = some undertaking := isUnderway
  have tries := (sound.step step).tries_attempt isUnderwayLater isStarting inTime isFresh
  rcases tries with ⟨after, brings | ⟨isFirst, _⟩⟩
  · exact ⟨after, brings.of_reaches (.single step) le_rfl (fun _ => Or.inl) rfl⟩
  · exact absurd isFirst isSecond

/-- A call that has begun in time is brought to its end in two attempts at most. -/
theorem IsSound.brings_goOn (sound : course.IsSound)
    (isUnderway : course.underway = some undertaking)
    (isStarting : undertaking.call.stage = .starting)
    (inTime : course.cluster.now + 1 < undertaking.call.deadline)
    (isFresh : ∀ entry ∈ course.asked, entry.1 ∉ course.cluster.nextNames) :
    ∃ after, course.Brings undertaking.call.table undertaking.flattenBy
      (course.cluster.goOn undertaking.call) after := by
  have isGoOn : course.cluster.goOn undertaking.call = course.cluster.proceed
      undertaking.call.deadline (course.cluster.coordinator.settings.backoffMillis * 1000)
      course.cluster.now undertaking.call := by
    simp only [Cluster.goOn, isStarting]
  have isFirstFresh : ∀ entry ∈ course.asked, entry.1 ≠ course.cluster.freshName.1 := by
    intro entry isAsked isName
    exact isFresh entry isAsked (isName ▸ List.mem_cons_self)
  have inTimeNow : course.cluster.now < undertaking.call.deadline := by omega
  rw [isGoOn]
  rcases sound.tries_attempt isUnderway isStarting inTimeNow isFirstFresh with
    ⟨after, brings | ⟨_, retries⟩⟩
  · rcases brings.hasEnded with ⟨reply, hasEnded⟩
    rw [Cluster.proceed_of_ended inTimeNow hasEnded]
    exact ⟨after, brings⟩
  · rcases retries.underway with ⟨later, isLater, isCall, sameField, isSecond⟩
    rw [Cluster.proceed_of_starting inTimeNow retries.stage, ← retries.cluster, ← isCall]
    have namesGiven : after.cluster.namesGiven = course.cluster.namesGiven + 1 :=
      retries.cluster ▸ retries.namesGiven
    have isSecondFresh : ∀ entry ∈ after.asked, entry.1 ≠ after.cluster.freshName.1 := by
      intro entry isAsked isName
      have isSecondName : entry.1 = Cluster.nameAt (course.cluster.namesGiven + 1) := by
        rw [isName, Cluster.freshName, namesGiven]
        rfl
      rcases retries.asked entry isAsked with wasAsked | ⟨count, isGiven, notGiven, isFirst⟩
      · refine isFresh entry wasAsked (List.mem_cons_of_mem _ ?_)
        exact isSecondName ▸ List.mem_cons_self
      · rw [retries.namesGiven] at notGiven
        have sameCount : count = course.cluster.namesGiven := by omega
        rw [sameCount] at isFirst
        exact Cluster.nameAt_ne_succ _ (isFirst.symm.trans isSecondName)
    have sameNow : after.cluster.now = course.cluster.now := retries.cluster ▸ retries.now
    have inTimeLater : after.cluster.now + 1 < later.call.deadline := by
      rw [isCall, retries.deadline, sameNow]
      exact inTime
    rcases (sound.reaches retries.reaches).brings_again isLater (isCall ▸ retries.stage) isSecond
      inTimeLater isSecondFresh with ⟨last, brings⟩
    rw [sameNow] at brings
    rcases brings.hasEnded with ⟨reply, hasEnded⟩
    rw [Cluster.proceed_of_ended inTime hasEnded, ← retries.table, ← isCall, ← sameField]
    refine ⟨last, brings.of_reaches retries.reaches ?_ ?_ retries.answered⟩
    · exact retries.cluster ▸ retries.gives
    · exact retries.cluster ▸ retries.asked

/-- Nothing is left to conclude for a call that has ended. -/
theorem Brings.conclude (brings : course.Brings table flattenBy outcome after) :
    course.Brings table flattenBy (outcome.2.conclude outcome.1)
      { after with cluster := after.cluster.settle } := by
  have looked := brings.look
  rcases looked.hasEnded with ⟨reply, hasEnded⟩
  have isLook : outcome.2.conclude outcome.1 = outcome.2.look outcome.1 := by
    simp only [Cluster.conclude, Cluster.goOn, hasEnded]
  rw [isLook]
  exact looked

end Parts

/-- A call is carried out at once, from its beginning to its answer. -/
structure CarriesOut (course : Course σ) (record : CallRecord) (after : Course σ) : Prop where
  reaches : course.Reaches after
  idle : after.underway = none
  cluster : after.cluster = (course.cluster.ensureFlattened record.table record.flattenBy).2
  answer : record.answer = (course.cluster.ensureFlattened record.table record.flattenBy).1
  answered : after.answered = record :: course.answered
  asked : ∀ entry ∈ after.asked,
    entry ∈ course.asked ∨ course.cluster.Gives after.cluster entry.1

/-- A call for which there is some time can be carried out at once. -/
theorem IsSound.carriesOut {course : Course σ} (sound : course.IsSound)
    (isIdle : course.underway = none)
    (hasTime : 0 < course.cluster.coordinator.settings.timeoutMillis)
    (isFresh : ∀ entry ∈ course.asked, entry.1 ∉ course.cluster.nextNames)
    (table flattenBy : String) :
    ∃ record after, record.table = table ∧ record.flattenBy = flattenBy ∧
      course.CarriesOut record after := by
  cases isStarted : course.cluster.startCall table flattenBy with
  | error answer =>
      have isAnswer : course.cluster.ensureFlattened table flattenBy =
          (answer, course.cluster) := by
        simp only [Cluster.ensureFlattened, isStarted]
      have step : course.Step
          { course with answered := ⟨table, flattenBy, [], answer⟩ :: course.answered } :=
        .refuses isIdle isStarted
      refine ⟨⟨table, flattenBy, [], answer⟩, _, rfl, rfl, .single step, isIdle, ?_, ?_, rfl,
        fun _ => Or.inl⟩
      · rw [isAnswer]
      · rw [isAnswer]
  | ok call =>
      have starts := Cluster.starts_of_startCall isStarted
      have step : course.Step
          { course with underway := some { flattenBy := flattenBy, call := call } } :=
        .begins isIdle isStarted
      have inTime : course.cluster.now + 1 < call.deadline := by
        rw [starts.deadline]
        omega
      rcases (sound.step step).brings_goOn rfl starts.stage inTime isFresh with ⟨after, brings⟩
      have concluded := (brings.of_reaches (.single step) le_rfl (fun _ => Or.inl) rfl).conclude
      rcases concluded.answered with ⟨requests, answered⟩
      rw [starts.isTable] at answered
      have isAnswer : course.cluster.ensureFlattened table flattenBy =
          (Cluster.answerOf ((course.cluster.goOn call).2.conclude (course.cluster.goOn call).1).1,
            ((course.cluster.goOn call).2.conclude (course.cluster.goOn call).1).2) := by
        simp only [Cluster.ensureFlattened, isStarted]
      refine ⟨⟨table, flattenBy, requests, _⟩, _, rfl, rfl, concluded.reaches, concluded.idle, ?_,
        ?_, answered, concluded.cluster ▸ concluded.asked⟩
      · rw [isAnswer]
        exact concluded.cluster
      · rw [isAnswer]

end Course

end Unnest
