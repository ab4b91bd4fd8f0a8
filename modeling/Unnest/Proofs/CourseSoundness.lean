import Unnest.Proofs.ClusterCourse

/-!
# What holds in every course

A table and field that no call is concerned with rests: either its nodes compute nothing for it, or
one of them has failed and is not asked again (`Course.IsSound.rests`).  So an agreement is there
for good (`Cluster.Settles`): nobody computes anything that could change what its nodes list.  A
call that makes a request succeeds with it or hears of a node that has failed, unless the nodes
report different names.  This happens only if one of them lists what it cannot compute, and then
nothing is under way any more, so that another attempt brings them together
(`Undertaking.StageFits`).
-/

namespace Unnest

variable {σ : Type}

/-! ## Calls that are over -/

namespace CallRecord

/-- What the caller wanted to know, if the field can be read. -/
def key? (record : CallRecord) : Option FlattenKey :=
  FlattenKey.of? record.table record.flattenBy

end CallRecord

/-- The phases of attempts after which the nodes had reported different names. -/
def triedPhases (requests : List RequestId) : List Phase :=
  requests.flatMap fun _ => [.probing, .triggering, .waiting]

namespace CallRecord

/-- The call ended with its last request: the nodes agreed on its name, or one of them failed. -/
def EndsWith (record : CallRecord) (earlier : List RequestId) (request : RequestId) : Prop :=
  record.requests = earlier ++ [request] ∧
    ((∃ nodes, record.answer.result = .answered (.ok (some ⟨request, nodes, true⟩)) ∧
        record.answer.phases =
          triedPhases earlier ++ [.probing, .triggering, .waiting, .done]) ∨
      ∃ failures, record.answer.result = .answered (.error (.remoteFailure request failures)) ∧
        record.answer.phases =
          triedPhases earlier ++ [.probing, .triggering, .waiting, .failed])

/-- The call ended with its first request. -/
def TriesOnce (record : CallRecord) : Prop :=
  ∃ request, record.EndsWith [] request

/-- The nodes reported different names on a first request, and the call ended with a second one. -/
def TriesTwice (record : CallRecord) : Prop :=
  ∃ first request, record.EndsWith [first] request

/-- If the older call came to an agreement, the newer one finds it and requests nothing. -/
def Repeats (newer older : CallRecord) : Prop :=
  ∀ agreement, older.answer.result = .answered (.ok (some agreement)) → newer.key? = older.key? →
    newer.requests = [] ∧ newer.answer.phases = [.probing, .agreed] ∧
      newer.answer.result = .answered (.ok (some { agreement with isNew := false }))

end CallRecord

/-! ## Invariants -/

section Invariants

variable (asked : List (RequestId × FlattenKey)) (cluster : Cluster σ)

namespace Cluster

/-- The nodes agree on a name, and compute nothing that could change it. -/
structure Settles (key : FlattenKey) (name : FlattenId) : Prop where
  served : cluster.servingNodes key.source ≠ []
  isQuiet : cluster.IsQuiet key
  lists : cluster.AllList key name

/-- An attempt begins after some requests of the call: it is the first one, or the nodes have
reported different names, one of them for what it has found in its store. -/
inductive Begins (key : FlattenKey) : List RequestId → Prop where
  | anew (rests : cluster.Rests key) : Begins key []
  | again {request : RequestId} (isQuiet : cluster.IsQuiet key)
      (lists : ∀ id ∈ cluster.servingNodes key.source, cluster.listed? id key ≠ none)
      (disagrees : ∀ name, ¬ cluster.AllList key name) (foreign : cluster.ListsForeign key) :
      Begins key [request]

/-- The requests of a call before its last one. -/
inductive MayPrecede (key : FlattenKey) : List RequestId → Prop where
  | first : MayPrecede key []
  | second {request : RequestId} (foreign : cluster.ListsForeign key) : MayPrecede key [request]

/-- A node has reported on a request, or still has to. -/
def Responds (request : RequestId) (reports : List Report) (id : NodeId) : Prop :=
  (∃ report ∈ reports, report.node = id) ∨ cluster.Owes id request

/-- A request was made to nodes, and some reports on it were heard.  Some of the nodes computed
nothing else for the key when it was made. -/
structure Tries (key : FlattenKey) (nodes : List NodeId) (earlier : List RequestId)
    (request : RequestId) (isAlone : NodeId → Prop) (reports : List Report) : Prop where
  isAsked : (request, key) ∈ asked
  services : ∀ id ∈ nodes, cluster.service? id ≠ none
  awaited : OrderedMap.find? request cluster.coordinator.awaited =
    some (AwaitedRequest.afterReports nodes reports)
  mayPrecede : cluster.MayPrecede key earlier
  oneAlone : ∃ id ∈ nodes, isAlone id
  allAlone : cluster.CanAgree key ∨ earlier ≠ [] → ∀ id ∈ nodes, isAlone id
  handles : ∀ id ∈ nodes, cluster.Handles id key request (isAlone id)
  answers : ∀ report ∈ reports, report.node ∈ nodes ∧
    cluster.Answers report.node key request (isAlone report.node) report.result

end Cluster

/-- What is known of a call that is under way, stage by stage. -/
inductive Undertaking.StageFits (undertaking : Undertaking) : Prop where
  | starting (stage : undertaking.call.stage = .starting)
      (begins : cluster.Begins undertaking.call.key undertaking.requests)
      (phases : undertaking.call.phases = triedPhases undertaking.requests)
  | probing (stage : undertaking.call.stage = .probing)
      (begins : cluster.Begins undertaking.call.key undertaking.requests)
      (phases : undertaking.call.phases = triedPhases undertaking.requests ++ [.probing])
      (replies : Collects (cluster.IsProbeReply undertaking.call.key)
        undertaking.call.nodes undertaking.probes)
  | triggering {earlier : List RequestId} {request : RequestId} {isAlone : NodeId → Prop}
      {reports : List Report} (stage : undertaking.call.stage = .triggering request)
      (requests : undertaking.requests = earlier ++ [request])
      (phases : undertaking.call.phases = triedPhases earlier ++ [.probing, .triggering])
      (tries : cluster.Tries asked undertaking.call.key undertaking.call.nodes earlier request
        isAlone reports)
      (replies : Collects
        (fun id reply => reply = .answered (.ok ()) ∧ cluster.Responds request reports id)
        undertaking.call.nodes undertaking.triggers)
      (untouched : ∀ (place : Nat) (id : NodeId), undertaking.call.nodes[place]? = some id →
        undertaking.triggers[place]? = some none → ¬ cluster.Responds request reports id)
  | waiting {earlier : List RequestId} {request : RequestId} {isAlone : NodeId → Prop}
      {reports : List Report} (stage : undertaking.call.stage = .waiting request)
      (requests : undertaking.requests = earlier ++ [request])
      (phases : undertaking.call.phases = triedPhases earlier ++ [.probing, .triggering, .waiting])
      (tries : cluster.Tries asked undertaking.call.key undertaking.call.nodes earlier request
        isAlone reports)
      (respond : ∀ id ∈ undertaking.call.nodes, cluster.Responds request reports id)

namespace Undertaking.StageFits

variable {asked cluster} {undertaking : Undertaking} {request : RequestId}

theorem of_starting (fits : undertaking.StageFits asked cluster)
    (isReady : undertaking.call.stage = .starting ∨ undertaking.call.stage = .pausing) :
    undertaking.call.stage = .starting ∧
      cluster.Begins undertaking.call.key undertaking.requests ∧
      undertaking.call.phases = triedPhases undertaking.requests := by
  cases fits with
  | starting stage begins phases => exact ⟨stage, begins, phases⟩
  | probing stage | triggering stage | waiting stage =>
      rw [stage] at isReady
      rcases isReady with isStarting | isPausing
      · cases isStarting
      · cases isPausing

theorem of_probing (fits : undertaking.StageFits asked cluster)
    (isProbing : undertaking.call.stage = .probing) :
    cluster.Begins undertaking.call.key undertaking.requests ∧
      undertaking.call.phases = triedPhases undertaking.requests ++ [.probing] ∧
      Collects (cluster.IsProbeReply undertaking.call.key) undertaking.call.nodes
        undertaking.probes := by
  cases fits with
  | probing stage begins phases replies => exact ⟨begins, phases, replies⟩
  | starting stage | triggering stage | waiting stage =>
      rw [isProbing] at stage
      cases stage

theorem of_triggering (fits : undertaking.StageFits asked cluster)
    (isTriggering : undertaking.call.stage = .triggering request) :
    ∃ earlier isAlone reports, undertaking.requests = earlier ++ [request] ∧
      undertaking.call.phases = triedPhases earlier ++ [.probing, .triggering] ∧
      cluster.Tries asked undertaking.call.key undertaking.call.nodes earlier request isAlone
        reports ∧
      Collects
        (fun id reply => reply = .answered (.ok ()) ∧ cluster.Responds request reports id)
        undertaking.call.nodes undertaking.triggers ∧
      ∀ (place : Nat) (id : NodeId), undertaking.call.nodes[place]? = some id →
        undertaking.triggers[place]? = some none → ¬ cluster.Responds request reports id := by
  cases fits with
  | triggering stage requests phases tries replies untouched =>
      cases isTriggering.symm.trans stage
      exact ⟨_, _, _, requests, phases, tries, replies, untouched⟩
  | starting stage | probing stage | waiting stage =>
      rw [isTriggering] at stage
      cases stage

theorem of_waiting (fits : undertaking.StageFits asked cluster)
    (isWaiting : undertaking.call.stage = .waiting request) :
    ∃ earlier isAlone reports, undertaking.requests = earlier ++ [request] ∧
      undertaking.call.phases = triedPhases earlier ++ [.probing, .triggering, .waiting] ∧
      cluster.Tries asked undertaking.call.key undertaking.call.nodes earlier request isAlone
        reports ∧
      ∀ id ∈ undertaking.call.nodes, cluster.Responds request reports id := by
  cases fits with
  | waiting stage requests phases tries respond =>
      cases isWaiting.symm.trans stage
      exact ⟨_, _, _, requests, phases, tries, respond⟩
  | starting stage | probing stage | triggering stage =>
      rw [isWaiting] at stage
      cases stage

end Undertaking.StageFits

end Invariants

/-- The call is the same one, and no further request was made. -/
structure Undertaking.Continues (earlier later : Undertaking) : Prop where
  flattenBy : later.flattenBy = earlier.flattenBy
  key : later.call.key = earlier.call.key
  nodes : later.call.nodes = earlier.call.nodes
  requests : later.requests = earlier.requests

theorem Undertaking.Continues.refl (undertaking : Undertaking) :
    undertaking.Continues undertaking :=
  ⟨rfl, rfl, rfl, rfl⟩

namespace Course

/-- The call that is under way is about a key. -/
def Concerns (course : Course σ) (key : FlattenKey) : Prop :=
  ∃ undertaking, course.underway = some undertaking ∧ undertaking.call.key = key

structure Undertakes (course : Course σ) (undertaking : Undertaking) : Prop where
  isKey : FlattenKey.of? undertaking.call.key.source undertaking.flattenBy =
    some undertaking.call.key
  nodes : undertaking.call.nodes = course.cluster.servingNodes undertaking.call.key.source
  served : undertaking.call.nodes ≠ []
  /-- Once there is an agreement, nothing is requested. -/
  needless : ∀ record ∈ course.answered, record.key? = some undertaking.call.key →
    ∀ agreement, record.answer.result = .answered (.ok (some agreement)) →
    undertaking.requests = []
  stage : undertaking.StageFits course.asked course.cluster

structure IsSound (course : Course σ) : Prop where
  orderly : course.cluster.IsOrderly course.asked
  canonical : ∀ entry ∈ course.asked, entry.2.IsCanonical
  named : ∀ request first second, (request, first) ∈ course.asked →
    (request, second) ∈ course.asked → first = second
  rests : ∀ key, ¬ course.Concerns key → course.cluster.Rests key
  underway : ∀ undertaking, course.underway = some undertaking → course.Undertakes undertaking
  settles : ∀ record ∈ course.answered, ∀ agreement,
    record.answer.result = .answered (.ok (some agreement)) → ∃ key, record.key? = some key ∧
      agreement.nodes = course.cluster.servingNodes key.source ∧
      course.cluster.Settles key agreement.id
  /-- A call that has made a request ends with it, or with the second one. -/
  tries : ∀ record ∈ course.answered, record.requests ≠ [] → ∃ key, record.key? = some key ∧
    (record.TriesOnce ∨ record.TriesTwice ∧ course.cluster.ListsForeign key)
  /-- A request for a table that all its nodes can flatten succeeds. -/
  succeeds : ∀ record ∈ course.answered, record.requests ≠ [] → ∀ key, record.key? = some key →
    course.cluster.CanAgree key →
    ∃ agreement, record.answer.result = .answered (.ok (some agreement))
  repeats : course.answered.Pairwise CallRecord.Repeats

end Course

/-! ## The nodes go on -/

namespace Cluster

section Moves

variable {asked : List (RequestId × FlattenKey)} {requested : Option FlattenKey}
  {before after : Cluster σ} {told : Option Report} {key : FlattenKey}

theorem Settles.goesOn {name : FlattenId} (settles : before.Settles key name)
    (goesOn : before.GoesOn asked requested after) (notRequested : requested ≠ some key) :
    after.Settles key name where
  served := (goesOn.servingNodes key.source).symm ▸ settles.served
  isQuiet := goesOn.isQuiet notRequested settles.isQuiet
  lists := goesOn.allList notRequested settles.isQuiet settles.lists

theorem Begins.goesOn {requests : List RequestId} (begins : before.Begins key requests)
    (goesOn : before.GoesOn asked none after) : after.Begins key requests := by
  have notRequested : (none : Option FlattenKey) ≠ some key := (Option.some_ne_none key).symm
  cases begins with
  | anew rests => exact .anew (goesOn.rests notRequested rests)
  | again isQuiet lists disagrees foreign =>
      refine .again (goesOn.isQuiet notRequested isQuiet) ?_ ?_ (goesOn.listsForeign foreign)
      · intro id isServing
        rw [goesOn.servingNodes] at isServing
        exact goesOn.listed?_ne_none (lists id isServing)
      · intro name allList
        refine disagrees name fun id isServing => ?_
        rw [← goesOn.listed?_of_isQuiet notRequested isQuiet isServing]
        exact allList id ((goesOn.servingNodes key.source).symm ▸ isServing)

theorem Begins.rests {requests : List RequestId} (begins : before.Begins key requests) :
    before.Rests key := by
  cases begins with
  | anew rests => exact rests
  | again isQuiet => exact Or.inl isQuiet

theorem MayPrecede.goesOn {requests : List RequestId} (mayPrecede : before.MayPrecede key requests)
    (goesOn : before.GoesOn asked requested after) : after.MayPrecede key requests := by
  cases mayPrecede with
  | first => exact .first
  | second foreign => exact .second (goesOn.listsForeign foreign)

theorem IsProbeReply.goesOn {id : NodeId} {reply : Reply (Option FlattenId)}
    (isReply : before.IsProbeReply key id reply) (goesOn : before.GoesOn asked none after)
    (rests : before.Rests key) (isServing : id ∈ before.servingNodes key.source) :
    after.IsProbeReply key id reply := by
  have notRequested : (none : Option FlattenKey) ≠ some key := (Option.some_ne_none key).symm
  have stillBlocked : (∃ other ∈ before.servingNodes key.source, before.IsBlocked other key) →
      ∃ other ∈ after.servingNodes key.source, after.IsBlocked other key := by
    rintro ⟨other, isOther, isBlocked⟩
    rw [goesOn.servingNodes]
    exact ⟨other, isOther, goesOn.isBlocked notRequested isBlocked⟩
  cases isReply with
  | unknown isAbsent => exact .unknown (goesOn.absent id isAbsent)
  | found isService isListed isLacking =>
      refine .found (goesOn.isService isService) ?_ ?_
      · rcases isListed with isListed | someBlocked
        · rcases rests with isQuiet | someBlocked
          · exact Or.inl
              (isListed.trans (goesOn.listed?_of_isQuiet notRequested isQuiet isServing).symm)
          · exact Or.inr (stillBlocked someBlocked)
        · exact Or.inr (stillBlocked someBlocked)
      · intro notListed
        by_contra wasFound
        exact goesOn.listed?_ne_none (fun wasNotListed => wasFound (isLacking wasNotListed))
          notListed

variable {nodes : List NodeId} {earlier : List RequestId} {request : RequestId}
  {isAlone : NodeId → Prop} {reports : List Report}

/-- What a move tells about a request. -/
def heardOn (request : RequestId) (told : Option Report) : List Report :=
  told.toList.filter fun report => report.request = request

theorem mem_heardOn {report : Report} :
    report ∈ heardOn request told ↔ told = some report ∧ report.request = request := by
  simp [heardOn]

/-- What is awaited is the replay of what was heard. -/
theorem Moves.awaited (moves : before.Moves asked told after)
    (awaited : OrderedMap.find? request before.coordinator.awaited =
      some (AwaitedRequest.afterReports nodes reports)) :
    OrderedMap.find? request after.coordinator.awaited =
      some (AwaitedRequest.afterReports nodes (reports ++ heardOn request told)) := by
  have hears := moves.hears
  cases told with
  | none =>
      rw [Option.elim_none] at hears
      rw [hears, awaited, heardOn, Option.toList_none, List.filter_nil, List.append_nil]
  | some report =>
      rw [Option.elim_some] at hears
      rw [hears, CallState.find?_receive, awaited, Option.map_some]
      by_cases same : report.request = request
      · rw [if_pos same, ← AwaitedRequest.afterReports_concat]
        simp [heardOn, same]
      · rw [if_neg same]
        simp [heardOn, same]

/-- A node that reports on a request owes nothing any more; the others do what they did. -/
theorem Moves.responds_iff (moves : before.Moves asked told after) (id : NodeId) :
    before.Responds request reports id ↔
      after.Responds request (reports ++ heardOn request told) id := by
  rw [Responds, Responds, moves.owes_iff]
  constructor
  · intro responds
    rcases responds with ⟨report, isReport, isNode⟩ | owes | ⟨report, isTold, isNode, isRequest⟩
    · exact Or.inl ⟨report, List.mem_append_left _ isReport, isNode⟩
    · exact Or.inr owes
    · exact Or.inl
        ⟨report, List.mem_append_right _ (mem_heardOn.mpr ⟨isTold, isRequest⟩), isNode⟩
  · intro responds
    rcases responds with ⟨report, isReport, isNode⟩ | owes
    · rcases List.mem_append.mp isReport with wasThere | isHeard
      · exact Or.inl ⟨report, wasThere, isNode⟩
      · rcases mem_heardOn.mp isHeard with ⟨isTold, isRequest⟩
        exact Or.inr (Or.inr ⟨report, isTold, isNode, isRequest⟩)
    · exact Or.inr (Or.inl owes)

theorem Answers.goesOn {id : NodeId} {isAlone : Prop} {result : NodeResult}
    (answers : before.Answers id key request isAlone result)
    (goesOn : before.GoesOn asked none after) : after.Answers id key request isAlone result := by
  rcases answers with ⟨node, isService, nodeAnswers⟩
  rcases goesOn.services id node isService with ⟨later, isLater, nodeGoesOn⟩
  exact ⟨later, isLater, nodeAnswers.goesOn nodeGoesOn⟩

/-- What was reported stays so, and what is heard now is so, too. -/
theorem Tries.moves (tries : before.Tries asked key nodes earlier request isAlone reports)
    (named : ∀ other, (request, other) ∈ asked → other = key)
    (areServing : nodes = before.servingNodes key.source)
    (moves : before.Moves asked told after) :
    after.Tries asked key nodes earlier request isAlone (reports ++ heardOn request told) where
  isAsked := tries.isAsked
  services := fun id isNode => moves.goesOn.isService (tries.services id isNode)
  awaited := moves.awaited tries.awaited
  mayPrecede := tries.mayPrecede.goesOn moves.goesOn
  oneAlone := tries.oneAlone
  allAlone := by
    rw [moves.goesOn.canAgree_iff key]
    exact tries.allAlone
  handles := fun id isNode =>
    (moves.handles id key request (isAlone id) named (tries.handles id isNode)).1
  answers := by
    intro report isReport
    rcases List.mem_append.mp isReport with wasThere | isHeard
    · rcases tries.answers report wasThere with ⟨isNode, answers⟩
      exact ⟨isNode, answers.goesOn moves.goesOn⟩
    · rcases mem_heardOn.mp isHeard with ⟨isTold, isRequest⟩
      rcases moves.isAsked report isTold with ⟨other, isAsked, isServing⟩
      rw [isRequest] at isAsked
      have isNode : report.node ∈ nodes := by
        rw [areServing, ← named other isAsked]
        exact isServing
      exact ⟨isNode, (moves.handles report.node key request (isAlone report.node) named
        (tries.handles report.node isNode)).2 report isTold rfl isRequest⟩

end Moves

/-! ## The nodes are sent a request -/

section Submits

variable {asked : List (RequestId × FlattenKey)} {before after : Cluster σ} {id : NodeId}
  {asking : FlattenRequest} {nodes : List NodeId} {earlier : List RequestId}
  {isAlone : NodeId → Prop} {reports : List Report}

/-- The node that was sent the request owes a report; the others do what they did. -/
theorem Submits.responds_iff (submits : before.Submits asked asking id after) (other : NodeId) :
    after.Responds asking.id reports other ↔
      before.Responds asking.id reports other ∨ other = id := by
  by_cases same : other = id
  · rw [same]
    exact ⟨fun _ => Or.inr rfl, fun _ => Or.inr submits.owes⟩
  · have sameOwes : after.Owes other asking.id ↔ before.Owes other asking.id := by
      rw [Owes, Owes, submits.elsewhere other same, submits.coordinator]
    rw [Responds, Responds, sameOwes, or_iff_left same]

/-- A node that was not yet sent the request takes it as the latest one for its key. -/
theorem Tries.submits
    (tries : before.Tries asked asking.key nodes earlier asking.id isAlone reports)
    (submits : before.Submits asked asking id after)
    (untouched : ¬ before.Responds asking.id reports id) :
    after.Tries asked asking.key nodes earlier asking.id isAlone reports where
  isAsked := tries.isAsked
  services := fun other isNode => submits.goesOn.isService (tries.services other isNode)
  awaited := submits.coordinator ▸ tries.awaited
  mayPrecede := tries.mayPrecede.goesOn submits.goesOn
  oneAlone := tries.oneAlone
  allAlone := by
    rw [submits.goesOn.canAgree_iff asking.key]
    exact tries.allAlone
  handles := by
    intro other isNode
    by_cases same : other = id
    · rw [same] at isNode ⊢
      exact submits.handles (isAlone id) (fun owes => untouched (Or.inr owes))
        (tries.handles id isNode)
    · intro node isService
      rw [submits.elsewhere other same] at isService
      exact tries.handles other isNode node isService
  answers := by
    intro report isReport
    rcases tries.answers report isReport with ⟨isNode, answers⟩
    have isOther : report.node ≠ id := fun same => untouched (Or.inl ⟨report, isReport, same⟩)
    refine ⟨isNode, ?_⟩
    rw [Answers, submits.elsewhere report.node isOther]
    exact answers

end Submits

end Cluster

/-! ## The course goes on -/

namespace Course

variable {course : Course σ} {undertaking : Undertaking} {after : Cluster σ}
  {told : Option Report}

section Records

variable {requested : Option FlattenKey}

/-- What was agreed on stays so, as long as nothing is requested for its key. -/
theorem IsSound.settles_of_goesOn (sound : course.IsSound)
    (goesOn : course.cluster.GoesOn course.asked requested after)
    (notRequested : ∀ record ∈ course.answered, ∀ agreement,
      record.answer.result = .answered (.ok (some agreement)) →
      ∀ key, record.key? = some key → requested ≠ some key) :
    ∀ record ∈ course.answered, ∀ agreement,
      record.answer.result = .answered (.ok (some agreement)) → ∃ key, record.key? = some key ∧
        agreement.nodes = after.servingNodes key.source ∧ after.Settles key agreement.id := by
  intro record isRecord agreement isOk
  rcases sound.settles record isRecord agreement isOk with ⟨key, isKey, nodes, settles⟩
  exact ⟨key, isKey, nodes.trans (goesOn.servingNodes _).symm,
    settles.goesOn goesOn (notRequested record isRecord agreement isOk key isKey)⟩

theorem IsSound.tries_of_goesOn (sound : course.IsSound)
    (goesOn : course.cluster.GoesOn course.asked requested after) :
    ∀ record ∈ course.answered, record.requests ≠ [] → ∃ key, record.key? = some key ∧
      (record.TriesOnce ∨ record.TriesTwice ∧ after.ListsForeign key) := by
  intro record isRecord hasRequested
  rcases sound.tries record isRecord hasRequested with ⟨key, isKey, tries⟩
  exact ⟨key, isKey, tries.imp_right fun twice => ⟨twice.1, goesOn.listsForeign twice.2⟩⟩

theorem IsSound.succeeds_of_goesOn (sound : course.IsSound)
    (goesOn : course.cluster.GoesOn course.asked requested after) :
    ∀ record ∈ course.answered, record.requests ≠ [] → ∀ key, record.key? = some key →
      after.CanAgree key →
      ∃ agreement, record.answer.result = .answered (.ok (some agreement)) := by
  intro record isRecord hasRequested key isKey canAgree
  exact sound.succeeds record isRecord hasRequested key isKey
    ((goesOn.canAgree_iff key).mp canAgree)

end Records

/-- Whatever happens to the nodes, a call of which the stage is still known may go on; only for this
call the nodes may be sent a request. -/
theorem IsSound.goOn (sound : course.IsSound) {requested : Option FlattenKey}
    {later : Option Undertaking} (orderly : after.IsOrderly course.asked)
    (goesOn : course.cluster.GoesOn course.asked requested after)
    (onlyThis : ∀ key, requested = some key → ∃ undertaking,
      course.underway = some undertaking ∧ undertaking.call.key = key ∧ undertaking.requests ≠ [])
    (isDropped : later = none → course.underway = none)
    (stages : ∀ changed, later = some changed → ∃ undertaking,
      course.underway = some undertaking ∧ undertaking.Continues changed ∧
        changed.StageFits course.asked after) :
    { course with cluster := after, underway := later }.IsSound where
  orderly := orderly
  canonical := sound.canonical
  named := sound.named
  rests := by
    intro key notConcerned
    have wasNotConcerned : ¬ course.Concerns key := by
      intro concerned
      rcases concerned with ⟨undertaking, isUnderway, isKey⟩
      cases isLater : later with
      | none =>
          rw [isDropped isLater] at isUnderway
          cases isUnderway
      | some changed =>
          rcases stages changed isLater with ⟨other, isOther, continues, _⟩
          cases isUnderway.symm.trans isOther
          exact notConcerned ⟨changed, isLater, continues.key.trans isKey⟩
    refine goesOn.rests (fun isRequested => ?_) (sound.rests key wasNotConcerned)
    rcases onlyThis key isRequested with ⟨undertaking, isUnderway, isKey, _⟩
    exact wasNotConcerned ⟨undertaking, isUnderway, isKey⟩
  underway := by
    intro changed isLater
    rcases stages changed isLater with ⟨undertaking, isUnderway, continues, stage⟩
    rcases sound.underway undertaking isUnderway with ⟨isKey, nodes, served, needless, _⟩
    refine ⟨?_, ?_, continues.nodes.symm ▸ served, ?_, stage⟩
    · rw [continues.key, continues.flattenBy]
      exact isKey
    · rw [continues.key, continues.nodes, goesOn.servingNodes]
      exact nodes
    · rw [continues.key, continues.requests]
      exact needless
  settles := by
    apply sound.settles_of_goesOn goesOn
    intro record isRecord agreement isOk key isKey isRequested
    rcases onlyThis key isRequested with ⟨undertaking, isUnderway, sameKey, hasRequested⟩
    exact hasRequested ((sound.underway undertaking isUnderway).needless record isRecord
      (sameKey ▸ isKey) agreement isOk)
  tries := sound.tries_of_goesOn goesOn
  succeeds := sound.succeeds_of_goesOn goesOn
  repeats := sound.repeats

theorem IsSound.stageFits_of_moves (sound : course.IsSound)
    (isUnderway : course.underway = some undertaking)
    (moves : course.cluster.Moves course.asked told after) :
    undertaking.StageFits course.asked after := by
  have undertakes := sound.underway undertaking isUnderway
  cases undertakes.stage with
  | starting stage begins phases => exact .starting stage (begins.goesOn moves.goesOn) phases
  | probing stage begins phases replies =>
      refine .probing stage (begins.goesOn moves.goesOn) phases
        (replies.imp fun id isNode reply isReply => ?_)
      exact isReply.goesOn moves.goesOn begins.rests (undertakes.nodes ▸ isNode)
  | triggering stage requests phases tries replies untouched =>
      have named := fun key isAsked => sound.named _ key _ isAsked tries.isAsked
      refine .triggering stage requests phases (tries.moves named undertakes.nodes moves)
        (replies.imp fun id _ reply isReply => ?_) ?_
      · exact ⟨isReply.1, (moves.responds_iff id).mp isReply.2⟩
      · intro place id isNode isOpen responds
        exact untouched place id isNode isOpen ((moves.responds_iff id).mpr responds)
  | waiting stage requests phases tries respond =>
      have named := fun key isAsked => sound.named _ key _ isAsked tries.isAsked
      refine .waiting stage requests phases (tries.moves named undertakes.nodes moves) ?_
      intro id isNode
      exact (moves.responds_iff id).mp (respond id isNode)

/-- Whatever the nodes do, the course stays sound. -/
theorem IsSound.moves (sound : course.IsSound)
    (moves : course.cluster.Moves course.asked told after) :
    { course with cluster := after }.IsSound := by
  refine sound.goOn moves.orderly moves.goesOn (fun _ isRequested => nomatch isRequested) id ?_
  intro undertaking isUnderway
  exact ⟨undertaking, isUnderway, .refl undertaking,
    sound.stageFits_of_moves isUnderway moves⟩

/-- The call goes on, and nothing happens to the nodes. -/
theorem IsSound.continues (sound : course.IsSound) {changed : Undertaking}
    (isUnderway : course.underway = some undertaking) (continues : undertaking.Continues changed)
    (stage : changed.StageFits course.asked course.cluster) :
    { course with underway := some changed }.IsSound := by
  have stays : course.cluster.GoesOn course.asked none course.cluster := .of_members rfl rfl rfl
  refine sound.goOn sound.orderly stays (fun _ isRequested => nomatch isRequested)
    (fun isDropped => nomatch isDropped) ?_
  intro other isOther
  cases isOther
  exact ⟨undertaking, isUnderway, continues, stage⟩

/-! ## The call ends -/

/-- A call that ends leaves its record, and its key at rest. -/
theorem IsSound.close (sound : course.IsSound) (isUnderway : course.underway = some undertaking)
    {call : Call} {coordinator : Coordinator} (sameTable : call.table = undertaking.call.table)
    (sameId : coordinator.id = course.cluster.coordinator.id)
    (ordered : OrderedMap.IsOrdered coordinator.awaited)
    (rests : course.cluster.Rests undertaking.call.key)
    (settles : ∀ agreement,
      (undertaking.record call).answer.result = .answered (.ok (some agreement)) →
      agreement.nodes = undertaking.call.nodes ∧
        course.cluster.Settles undertaking.call.key agreement.id)
    (tries : undertaking.requests ≠ [] → (undertaking.record call).TriesOnce ∨
      (undertaking.record call).TriesTwice ∧ course.cluster.ListsForeign undertaking.call.key)
    (succeeds : undertaking.requests ≠ [] → course.cluster.CanAgree undertaking.call.key →
      ∃ agreement, (undertaking.record call).answer.result = .answered (.ok (some agreement)))
    (repeats : ∀ older ∈ course.answered, older.key? = some undertaking.call.key →
      ∀ agreement, older.answer.result = .answered (.ok (some agreement)) →
      undertaking.requests = [] ∧
        (undertaking.record call).answer.phases = [.probing, .agreed] ∧
        (undertaking.record call).answer.result =
          .answered (.ok (some { agreement with isNew := false }))) :
    (course.close undertaking call
      { course.cluster with coordinator := coordinator }).IsSound := by
  have isKey : (undertaking.record call).key? = some undertaking.call.key := by
    rw [CallRecord.key?, Undertaking.record, sameTable]
    exact (sound.underway undertaking isUnderway).isKey
  have goesOn : course.cluster.GoesOn course.asked none
      { course.cluster with coordinator := coordinator } := .of_members sameId rfl rfl
  have notRequested : ∀ key : FlattenKey, none ≠ some key :=
    fun key => (Option.some_ne_none key).symm
  refine
    { orderly := sound.orderly.of_members rfl rfl rfl sameId ordered rfl
      canonical := sound.canonical, named := sound.named, rests := ?rests
      underway := fun _ isOther => nomatch isOther
      settles := ?settles, tries := ?tries, succeeds := ?succeeds
      repeats := List.pairwise_cons.mpr ⟨?repeats, sound.repeats⟩ }
  case rests =>
    intro key _
    refine goesOn.rests (notRequested key) ?_
    by_cases concerned : course.Concerns key
    · rcases concerned with ⟨other, isOther, sameKey⟩
      cases isUnderway.symm.trans isOther
      exact sameKey ▸ rests
    · exact sound.rests key concerned
  case settles =>
    intro other isOther agreement isOk
    rcases List.mem_cons.mp isOther with isNew | isOld
    · subst isNew
      rcases settles agreement isOk with ⟨nodes, settled⟩
      refine ⟨_, isKey, ?_, settled.goesOn goesOn (notRequested _)⟩
      exact nodes.trans (sound.underway undertaking isUnderway).nodes
    · exact sound.settles_of_goesOn goesOn (fun _ _ _ _ key _ => notRequested key) other isOld
        agreement isOk
  case tries =>
    intro other isOther hasRequested
    rcases List.mem_cons.mp isOther with isNew | isOld
    · subst isNew
      exact ⟨_, isKey, (tries hasRequested).imp_right fun twice =>
        ⟨twice.1, goesOn.listsForeign twice.2⟩⟩
    · exact sound.tries_of_goesOn goesOn other isOld hasRequested
  case succeeds =>
    intro other isOther hasRequested key isOtherKey canAgree
    rcases List.mem_cons.mp isOther with isNew | isOld
    · rw [isNew] at hasRequested isOtherKey ⊢
      cases isKey.symm.trans isOtherKey
      exact succeeds hasRequested ((goesOn.canAgree_iff _).mp canAgree)
    · exact sound.succeeds_of_goesOn goesOn other isOld hasRequested key isOtherKey canAgree
  case repeats =>
    intro older isOlder agreement isOk sameKey
    exact repeats older isOlder (sameKey.symm.trans isKey) agreement isOk

end Course

end Unnest
