import Unnest.Proofs.CourseVerdicts

/-!
# Every step keeps a course sound

Whatever happens next (`Course.Step`), the invariants of a course hold again, and so they hold in
every course that a sound one reaches (`Course.IsSound.reaches`).
-/

namespace Unnest

variable {σ : Type}

namespace Course

section Steps

variable {course : Course σ} {undertaking : Undertaking}

/-! ## Beginning -/

theorem tell_clock {cluster : Cluster σ} {call : Call} (stage : call.stage = .starting)
    (inTime : cluster.now < call.deadline) :
    cluster.tell (.clock cluster.now) call = (call.enter .probing [.probing], cluster) := by
  simp only [Cluster.tell, CallState.step, stage, CallState.start, Nat.not_le.mpr inTime, if_false]

theorem IsSound.attempts (sound : course.IsSound)
    (isUnderway : course.underway = some undertaking)
    (isReady : undertaking.call.stage = .starting ∨ undertaking.call.stage = .pausing)
    (inTime : course.cluster.now < undertaking.call.deadline) :
    (course.tell { undertaking with probes := undertaking.call.nodes.map fun _ => none }
      (.clock course.cluster.now)).IsSound := by
  rcases (sound.underway undertaking isUnderway).stage.of_starting isReady with
    ⟨stage, begins, phases⟩
  have isTold : course.tell
      { undertaking with probes := undertaking.call.nodes.map fun _ => none }
      (.clock course.cluster.now) =
      { course with
        underway := some
          { undertaking with
            call := undertaking.call.enter .probing [.probing]
            probes := undertaking.call.nodes.map fun _ => none } } := by
    simp only [tell, tell_clock stage inTime]
    rfl
  rw [isTold]
  refine sound.continues isUnderway ⟨rfl, rfl, rfl, rfl⟩
    (.probing rfl begins ?_ (collects_none _ _))
  simp only [Call.enter, phases]

theorem IsSound.begins (sound : course.IsSound) {table flattenBy : String} {call : Call}
    (isIdle : course.underway = none)
    (isStarted : course.cluster.startCall table flattenBy = .ok call) :
    { course with underway := some { flattenBy := flattenBy, call := call } }.IsSound := by
  have starts := Cluster.starts_of_startCall isStarted
  have isTable : call.key.source = table := starts.isTable
  have rests : ∀ key, course.cluster.Rests key := by
    intro key
    refine sound.rests key fun concerned => ?_
    rcases concerned with ⟨other, isOther, _⟩
    rw [isIdle] at isOther
    cases isOther
  refine
    { orderly := sound.orderly, canonical := sound.canonical, named := sound.named
      rests := fun key _ => rests key, underway := ?underway
      settles := sound.settles, tries := sound.tries, succeeds := sound.succeeds
      repeats := sound.repeats }
  case underway =>
    intro other isOther
    cases isOther
    refine ⟨?_, ?_, starts.served, fun _ _ _ _ _ => rfl,
      .starting starts.stage (.anew (rests _)) starts.phases⟩
    · rw [isTable]
      exact starts.isKey
    · rw [isTable]
      exact starts.nodes

/-- A call that is refused could not have come to an agreement before. -/
theorem IsSound.refuses (sound : course.IsSound) {table flattenBy : String} {answer : CallAnswer}
    (isRefused : course.cluster.startCall table flattenBy = .error answer) :
    { course with answered := ⟨table, flattenBy, [], answer⟩ :: course.answered }.IsSound := by
  have refuses := Cluster.refuses_of_startCall isRefused
  refine
    { orderly := sound.orderly, canonical := sound.canonical, named := sound.named
      rests := sound.rests, underway := ?underway, settles := ?settles, tries := ?tries
      succeeds := ?succeeds
      repeats := List.pairwise_cons.mpr ⟨?repeats, sound.repeats⟩ }
  case underway =>
    intro undertaking isUnderway
    rcases sound.underway undertaking isUnderway with ⟨isKey, nodes, served, needless, stage⟩
    refine ⟨isKey, nodes, served, ?_, stage⟩
    intro record isRecord sameKey agreement isOk
    rcases List.mem_cons.mp isRecord with isNew | isOld
    · rw [isNew] at isOk
      exact absurd isOk (refuses.noAgreement agreement)
    · exact needless record isOld sameKey agreement isOk
  case settles =>
    intro record isRecord agreement isOk
    rcases List.mem_cons.mp isRecord with isNew | isOld
    · rw [isNew] at isOk
      exact absurd isOk (refuses.noAgreement agreement)
    · exact sound.settles record isOld agreement isOk
  case tries =>
    intro record isRecord
    rcases List.mem_cons.mp isRecord with isNew | isOld
    · rw [isNew]
      exact fun hasRequested => absurd rfl hasRequested
    · exact sound.tries record isOld
  case succeeds =>
    intro record isRecord hasRequested
    rcases List.mem_cons.mp isRecord with isNew | isOld
    · rw [isNew] at hasRequested
      exact absurd rfl hasRequested
    · exact sound.succeeds record isOld hasRequested
  case repeats =>
    intro older isOlder agreement isOk sameKey
    -- The older call could read the field and found nodes, so that this one is not refused.
    rcases sound.settles older isOlder agreement isOk with ⟨key, isKey, _, settles⟩
    have isSameKey : FlattenKey.of? table flattenBy = some key := sameKey.trans isKey
    rcases FlattenKey.of?_eq_some isSameKey with ⟨target, _, rfl⟩
    rcases refuses.needless with isNoKey | notServed
    · cases isNoKey.symm.trans isSameKey
    · exact absurd notServed settles.served

/-! ## Calling nodes -/

theorem IsSound.probes (sound : course.IsSound) {place : Nat} {id : NodeId}
    (isUnderway : course.underway = some undertaking)
    (isProbing : undertaking.call.stage = .probing)
    (isNode : undertaking.call.nodes[place]? = some id) :
    (course.probe undertaking place id).IsSound := by
  have canonical := FlattenKey.isCanonical_of_of? (sound.underway undertaking isUnderway).isKey
  rcases sound.orderly.probe canonical id with ⟨moves, isReply⟩
  have fits := sound.stageFits_of_moves isUnderway moves
  rcases fits.of_probing isProbing with ⟨begins, phases, replies⟩
  exact (sound.moves moves).continues isUnderway ⟨rfl, rfl, rfl, rfl⟩
    (.probing isProbing begins phases (replies.set isNode isReply))

/-- What a call sends to its nodes is about its key. -/
theorem Undertakes.key_requestBy (undertakes : course.Undertakes undertaking) (client : NodeId)
    (request : RequestId) :
    (undertaking.call.requestBy client request).key = undertaking.call.key :=
  FlattenRequest.key_of_isCanonical (FlattenKey.isCanonical_of_of? undertakes.isKey)

/-- A call that is still to be made after another one has returned goes to another node. -/
theorem isElsewhere_of_set {nodes : List NodeId} (distinct : nodes.Nodup)
    {replies : List (Option (Reply Unit))} {place otherPlace : Nat} {id other : NodeId}
    {reply : Reply Unit} (isNode : nodes[place]? = some id)
    (isOther : nodes[otherPlace]? = some other) (isOpen : replies[place]? = some none)
    (isStillOpen : (replies.set place (some reply))[otherPlace]? = some none) :
    other ≠ id ∧ replies[otherPlace]? = some none := by
  have isElsewhere : place ≠ otherPlace := by
    intro same
    rw [← same, List.getElem?_set_self (List.getElem?_eq_some_iff.mp isOpen).1] at isStillOpen
    cases isStillOpen
  constructor
  · intro isSame
    rw [isSame, ← isNode] at isOther
    have isPlace : place < nodes.length := (List.getElem?_eq_some_iff.mp isNode).1
    exact isElsewhere ((List.getElem?_inj isPlace distinct).mp isOther.symm)
  · rwa [List.getElem?_set_ne isElsewhere] at isStillOpen

theorem IsSound.triggers (sound : course.IsSound) {request : RequestId} {place : Nat} {id : NodeId}
    (isUnderway : course.underway = some undertaking)
    (isTriggering : undertaking.call.stage = .triggering request)
    (isNode : undertaking.call.nodes[place]? = some id)
    (isOpen : undertaking.triggers[place]? = some none) :
    (course.trigger undertaking request place id).IsSound := by
  have undertakes := sound.underway undertaking isUnderway
  have isThere := List.mem_of_getElem? isNode
  rcases undertakes.stage.of_triggering isTriggering with
    ⟨earlier, isAlone, reports, requests, phases, tries, replies, untouched⟩
  let asking := undertaking.call.requestBy course.cluster.coordinator.id request
  have isKey : asking.key = undertaking.call.key := undertakes.key_requestBy _ request
  have isAsked : (asking.id, asking.key) ∈ course.cluster.askedOf course.asked id := by
    rw [isKey]
    exact Cluster.mem_askedOf.mpr ⟨tries.isAsked, undertakes.nodes ▸ isThere⟩
  rcases sound.orderly.trigger (tries.services id isThere) isAsked rfl with ⟨isReply, submits⟩
  have goesOn := submits.goesOn
  rw [isKey] at goesOn
  rw [← isKey] at tries
  have triesOn := tries.submits submits (untouched place id isNode isOpen)
  rw [isKey] at triesOn
  refine sound.goOn submits.orderly goesOn ?_ (fun isDropped => nomatch isDropped) ?_
  · intro key isRequested
    refine ⟨undertaking, isUnderway, Option.some.inj isRequested, ?_⟩
    rw [requests]
    exact List.append_ne_nil_of_right_ne_nil _ (List.cons_ne_nil _ _)
  · intro changed isChanged
    cases isChanged
    refine ⟨undertaking, isUnderway, ⟨rfl, rfl, rfl, rfl⟩,
      .triggering isTriggering requests phases triesOn ?_ ?_⟩
    · refine (replies.imp fun other _ reply responds => ?_).set isNode ⟨isReply, ?_⟩
      · exact ⟨responds.1, (submits.responds_iff other).mpr (Or.inl responds.2)⟩
      · exact (submits.responds_iff id).mpr (Or.inr rfl)
    · intro otherPlace other isOther isStillOpen responds
      have distinct : undertaking.call.nodes.Nodup :=
        undertakes.nodes ▸ sound.orderly.distinct undertaking.call.key.source
      rcases isElsewhere_of_set distinct isNode isOther isOpen isStillOpen with
        ⟨isAnother, wasOpen⟩
      rcases (submits.responds_iff other).mp responds with responded | isSame
      · exact untouched otherPlace other isOther wasOpen responded
      · exact isAnother isSame

/-! ## Concluding -/

theorem IsSound.judgesProbes (sound : course.IsSound)
    {replies : List (Reply (Option FlattenId))} {fresh : RequestId}
    (isUnderway : course.underway = some undertaking)
    (isProbing : undertaking.call.stage = .probing)
    (haveReplied : undertaking.probes = replies.map some)
    (isFresh : ∀ entry ∈ course.asked, entry.1 ≠ fresh) :
    (course.tell undertaking (.probed replies fresh)).IsSound := by
  rcases sound.tell_probed isUnderway isProbing haveReplied isFresh with
    ends | ⟨isTold, soundAfter⟩
  · exact ends.isSound
  · simp only [tell, isTold]
    exact soundAfter

theorem IsSound.judgesTriggers (sound : course.IsSound) {request : RequestId}
    {replies : List (Reply Unit)} (isUnderway : course.underway = some undertaking)
    (isTriggering : undertaking.call.stage = .triggering request)
    (haveReplied : undertaking.triggers = replies.map some) :
    (course.tell undertaking (.triggered replies)).IsSound := by
  rcases sound.tell_triggered isUnderway isTriggering haveReplied with ⟨isTold, soundAfter⟩
  simp only [tell, isTold]
  exact soundAfter

theorem TriesAgain.tell_eq {event : CallEvent} {request : RequestId}
    (triesAgain : course.TriesAgain undertaking event request) :
    course.tell undertaking event =
      { course with
        cluster := course.noteDisagreement request
        underway := some { undertaking with call := undertaking.call.enter .starting [] } } := by
  simp only [tell, triesAgain.isTold]
  rfl

theorem IsSound.looks (sound : course.IsSound) {request : RequestId}
    (isUnderway : course.underway = some undertaking)
    (isWaiting : undertaking.call.stage = .waiting request)
    (inTime : course.cluster.now < undertaking.call.deadline) :
    (course.tell undertaking (.looked course.cluster.now)).IsSound := by
  rcases sound.tell_looked isUnderway isWaiting inTime with ends | triesAgain | ⟨isTold, _⟩
  · exact ends.isSound
  · rw [triesAgain.tell_eq]
    exact triesAgain.isSound
  · simp only [tell, isTold, isWaiting]
    exact sound.continues isUnderway (.refl undertaking)
      (sound.underway undertaking isUnderway).stage

/-! ## Runs -/

/-- Each step keeps a course sound. -/
theorem IsSound.step {after : Course σ} (sound : course.IsSound) (step : course.Step after) :
    after.IsSound := by
  cases step with
  | passes isLater => exact sound.moves (sound.orderly.moves_of_members rfl rfl rfl rfl rfl)
  | works place isNode =>
      have isService := Cluster.service?_of_find? isNode
      rcases sound.orderly.work sound.canonical isService place with ⟨told, moves⟩
      exact sound.moves moves
  | storeChanges content isNode =>
      exact sound.moves (sound.orderly.changeStore (Cluster.service?_of_find? isNode) content)
  | refuses isIdle isRefused => exact sound.refuses isRefused
  | begins isIdle isStarted => exact sound.begins isIdle isStarted
  | attempts isUnderway isReady inTime => exact sound.attempts isUnderway isReady inTime
  | probes isUnderway isProbing isNode isOpen => exact sound.probes isUnderway isProbing isNode
  | judgesProbes isUnderway isProbing haveReplied isFresh =>
      have named : course.giveName.IsSound :=
        sound.moves (sound.orderly.moves_of_members rfl rfl rfl rfl rfl)
      exact named.judgesProbes isUnderway isProbing haveReplied isFresh
  | triggers isUnderway isTriggering isNode isOpen =>
      exact sound.triggers isUnderway isTriggering isNode isOpen
  | judgesTriggers isUnderway isTriggering haveReplied =>
      exact sound.judgesTriggers isUnderway isTriggering haveReplied
  | looks isUnderway isWaiting inTime => exact sound.looks isUnderway isWaiting inTime

theorem IsSound.reaches {after : Course σ} (sound : course.IsSound)
    (reaches : course.Reaches after) : after.IsSound := by
  induction reaches with
  | refl => exact sound
  | tail _ step inductionHypothesis => exact inductionHypothesis.step step

end Steps

end Course

end Unnest
