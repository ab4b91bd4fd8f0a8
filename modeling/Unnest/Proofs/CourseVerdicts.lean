import Unnest.Proofs.CourseSoundness

/-!
# What a call concludes

A call that has asked its nodes ends if they agree, and otherwise makes a request; so a request is
never made for a table that is agreed on.  A call that waits ends when a node has failed, and also
when all have reported one name, which is that of the request (`Cluster.Tries.settles_of_common`).
If all have reported, but different names, one of them lists what it cannot compute, and the call
makes another attempt (`Cluster.Tries.begins_of_disagreement`).  In this attempt nothing else is
under way, so that it is the last one.
-/

namespace Unnest

variable {σ : Type}

/-! ## What reports say -/

section Reports

variable {asked : List (RequestId × FlattenKey)} {cluster : Cluster σ} {key : FlattenKey}
  {nodes : List NodeId} {earlier : List RequestId} {request : RequestId}
  {isAlone : NodeId → Prop} {reports : List Report} {id : NodeId}

/-- The results are what nodes have reported. -/
theorem AwaitedRequest.exists_report_of_result {entry : NodeId × FlattenId}
    (isResult : entry ∈ (afterReports nodes reports).results) :
    ∃ report ∈ reports, report.node = entry.1 ∧ report.result = .flattened entry.2 := by
  induction reports using List.reverseRecOn with
  | nil => cases isResult
  | append_singleton earlier last inductionHypothesis =>
      have fromEarlier : entry ∈ (afterReports nodes earlier).results →
          ∃ report ∈ earlier ++ [last], report.node = entry.1 ∧
            report.result = .flattened entry.2 := by
        intro wasResult
        rcases inductionHypothesis wasResult with ⟨report, isReport, result⟩
        exact ⟨report, List.mem_append_left _ isReport, result⟩
      rw [afterReports_concat, record] at isResult
      cases result : last.result with
      | flattened id =>
          simp only [result] at isResult
          rcases OrderedMap.mem_insert isResult with isNew | wasResult
          · rw [isNew]
            exact ⟨last, List.mem_append_right _ List.mem_cons_self, rfl, result⟩
          · exact fromEarlier wasResult
      | failed reason =>
          simp only [result] at isResult
          exact fromEarlier isResult

namespace Cluster

theorem IsBlocked.listed?_eq_none (isBlocked : cluster.IsBlocked id key) :
    cluster.listed? id key = none := by
  rcases isBlocked with ⟨node, reason, isService, settled⟩
  cases settled.upholds with
  | failed notListed cannotFlatten =>
      rw [listed?, isService, Option.bind_some]
      exact notListed

theorem IsBlocked.not_canFlatten (isBlocked : cluster.IsBlocked id key) :
    ¬ cluster.CanFlatten id key := by
  intro canFlatten
  rcases isBlocked with ⟨node, reason, isService, settled⟩
  rcases canFlatten with ⟨able, isAble, nodeCanFlatten⟩
  cases isService.symm.trans isAble
  cases settled.upholds with
  | failed notListed cannotFlatten => exact cannotFlatten nodeCanFlatten

theorem Answers.isQuietAt {isAlone : Prop} {result : NodeResult}
    (answers : cluster.Answers id key request isAlone result) : cluster.IsQuietAt key id := by
  rcases answers with ⟨node, isService, nodeAnswers⟩
  intro other isOther
  cases isService.symm.trans isOther
  exact nodeAnswers.quiet

theorem Answers.listed?_of_flattened {isAlone : Prop} {name : FlattenId}
    (answers : cluster.Answers id key request isAlone (.flattened name)) :
    cluster.listed? id key = some name := by
  rcases answers with ⟨node, isService, nodeAnswers⟩
  cases nodeAnswers.upholds with
  | flattened isListed =>
      rw [listed?, isService, Option.bind_some]
      exact isListed

theorem Answers.named {isAlone : Prop} {name : FlattenId}
    (answers : cluster.Answers id key request isAlone (.flattened name)) (alone : isAlone) :
    name = request := by
  rcases answers with ⟨node, isService, nodeAnswers⟩
  exact nodeAnswers.named alone name rfl

section Tries

variable (tries : cluster.Tries asked key nodes earlier request isAlone reports)

include tries

/-- A node that has reported a failure does not try again. -/
theorem Tries.exists_blocked (hasFailed : failuresIn reports ≠ []) :
    ∃ id ∈ nodes, cluster.IsBlocked id key := by
  rcases List.exists_mem_of_ne_nil _ hasFailed with ⟨failure, isFailure⟩
  rcases List.mem_filterMap.mp isFailure with ⟨report, isReport, isFailed⟩
  rcases tries.answers report isReport with ⟨isNode, node, isService, answers⟩
  cases result : report.result with
  | flattened id =>
      rw [Report.failure?, result] at isFailed
      cases isFailed
  | failed reason =>
      rw [result] at answers
      exact ⟨report.node, isNode, node, reason, isService, answers.toIsSettled⟩

/-- The results are answers of nodes. -/
theorem Tries.answers_of_result {entry : NodeId × FlattenId}
    (isResult : entry ∈ (AwaitedRequest.afterReports nodes reports).results) :
    entry.1 ∈ nodes ∧
      cluster.Answers entry.1 key request (isAlone entry.1) (.flattened entry.2) := by
  rcases AwaitedRequest.exists_report_of_result isResult with ⟨report, isReport, isNode, result⟩
  rw [← isNode, ← result]
  exact tries.answers report isReport

section Complete

variable (noFailure : failuresIn reports = [])
  (complete : ∀ id ∈ nodes, ∃ report ∈ reports, report.node = id)

include noFailure complete

/-- If all nodes have reported and none has failed, there is a result of each. -/
theorem Tries.exists_result (isNode : id ∈ nodes) :
    ∃ name, (id, name) ∈ (AwaitedRequest.afterReports nodes reports).results ∧
      cluster.Answers id key request (isAlone id) (.flattened name) := by
  rcases complete id isNode with ⟨report, isReport, isReporter⟩
  rcases exists_latestFlattening? noFailure isReport with ⟨name, isLatest⟩
  rw [isReporter, ← (AwaitedRequest.replays_afterReports nodes reports).results] at isLatest
  have isResult := OrderedMap.mem_of_find? isLatest
  exact ⟨name, isResult, (tries.answers_of_result isResult).2⟩

/-- All that was reported is one name if it is what all nodes list. -/
theorem Tries.common (served : nodes ≠ []) {name : FlattenId}
    (lists : ∀ id ∈ nodes, cluster.listed? id key = some name) :
    Call.commonId? ((AwaitedRequest.afterReports nodes reports).results.map
      fun (_, id) => some id) = some name := by
  apply Call.commonId?_eq_some
  · rcases List.exists_mem_of_ne_nil _ served with ⟨id, isNode⟩
    rcases tries.exists_result noFailure complete isNode with ⟨known, isResult, _⟩
    exact List.ne_nil_of_mem (List.mem_map_of_mem isResult)
  · intro found isFound
    rcases List.mem_map.mp isFound with ⟨entry, isResult, rfl⟩
    rcases tries.answers_of_result isResult with ⟨isNode, answers⟩
    exact answers.listed?_of_flattened.symm.trans (lists entry.1 isNode)

variable (areServing : nodes = cluster.servingNodes key.source)

include areServing

theorem Tries.isQuiet : cluster.IsQuiet key := by
  intro id isServing
  rcases tries.exists_result noFailure complete (areServing ▸ isServing) with ⟨name, _, answers⟩
  exact answers.isQuietAt

/-- One name that all nodes have reported is the name of the request: some node was alone. -/
theorem Tries.settles_of_common {name : FlattenId}
    (common : Call.commonId? ((AwaitedRequest.afterReports nodes reports).results.map
      fun (_, id) => some id) = some name) :
    name = request ∧ cluster.Settles key name := by
  have sameName : ∀ id known,
      (id, known) ∈ (AwaitedRequest.afterReports nodes reports).results → known = name := by
    intro id known isResult
    exact Option.some.inj (Call.eq_of_commonId? common (List.mem_map_of_mem isResult))
  rcases tries.oneAlone with ⟨first, isFirst, isFirstAlone⟩
  constructor
  · rcases tries.exists_result noFailure complete isFirst with ⟨known, isResult, answers⟩
    rw [← sameName first known isResult]
    exact answers.named isFirstAlone
  · refine ⟨areServing ▸ List.ne_nil_of_mem isFirst,
      tries.isQuiet noFailure complete areServing, ?_⟩
    intro id isServing
    rcases tries.exists_result noFailure complete (areServing ▸ isServing) with
      ⟨known, isResult, answers⟩
    rw [← sameName id known isResult]
    exact answers.listed?_of_flattened

/-- If the nodes have reported different names, one of them lists what it cannot compute, and
nothing else is under way. -/
theorem Tries.begins_of_disagreement (served : nodes ≠ [])
    (common : Call.commonId? ((AwaitedRequest.afterReports nodes reports).results.map
      fun (_, id) => some id) = none) :
    earlier = [] ∧ cluster.ListsForeign key ∧ cluster.Begins key [request] := by
  have disagrees : ∀ name, ¬ ∀ id ∈ nodes, cluster.listed? id key = some name := by
    intro name lists
    cases common.symm.trans (tries.common noFailure complete served lists)
  have notAllAlone : ¬ ∀ id ∈ nodes, isAlone id := by
    intro allAlone
    refine disagrees request fun id isNode => ?_
    rcases tries.exists_result noFailure complete isNode with ⟨name, _, answers⟩
    rw [← answers.named (allAlone id isNode)]
    exact answers.listed?_of_flattened
  have lists : ∀ id ∈ cluster.servingNodes key.source, cluster.listed? id key ≠ none := by
    intro id isServing
    rcases tries.exists_result noFailure complete (areServing ▸ isServing) with ⟨name, _, answers⟩
    rw [answers.listed?_of_flattened]
    exact Option.some_ne_none name
  have isFirst : earlier = [] := by
    by_contra isSecond
    exact notAllAlone (tries.allAlone (Or.inr isSecond))
  have foreign : cluster.ListsForeign key := by
    have cannotAgree : ¬ cluster.CanAgree key :=
      fun canAgree => notAllAlone (tries.allAlone (Or.inl canAgree))
    simp only [CanAgree, not_forall] at cannotAgree
    rcases cannotAgree with ⟨id, isServing, cannotFlatten⟩
    exact ⟨id, isServing, lists id isServing, cannotFlatten⟩
  refine ⟨isFirst, foreign, .again (tries.isQuiet noFailure complete areServing) lists ?_ foreign⟩
  intro name allList
  exact disagrees name fun id isNode => allList id (areServing ▸ isNode)

end Complete

end Tries

/-! ## What nodes tell -/

theorem IsProbeReply.of_found {found : Option FlattenId}
    (isReply : cluster.IsProbeReply key id (.answered (.ok found))) :
    cluster.service? id ≠ none ∧
      (found = cluster.listed? id key ∨
        ∃ other ∈ cluster.servingNodes key.source, cluster.IsBlocked other key) ∧
      (cluster.listed? id key = none → found = none) := by
  cases isReply with
  | found isService isListed isLacking => exact ⟨isService, isListed, isLacking⟩

/-- All nodes that serve the table have told what they list. -/
structure HaveTold (cluster : Cluster σ) (key : FlattenKey) (ids : List (Option FlattenId)) :
    Prop where
  areReplies : ∀ found ∈ ids, ∃ id ∈ cluster.servingNodes key.source,
    cluster.IsProbeReply key id (.answered (.ok found))
  ofNodes : ∀ id ∈ cluster.servingNodes key.source, ∃ found ∈ ids,
    cluster.IsProbeReply key id (.answered (.ok found))

theorem haveTold_of_collects {probes : List (Option (Reply (Option FlattenId)))}
    {replies : List (Reply (Option FlattenId))} {ids : List (Option FlattenId)}
    (collects : Collects (cluster.IsProbeReply key) (cluster.servingNodes key.source) probes)
    (haveReplied : probes = replies.map some)
    (areIds : replies = ids.map fun id => .answered (.ok id)) : cluster.HaveTold key ids := by
  rcases collects.complete haveReplied with ⟨areReplies, ofNodes⟩
  rw [areIds] at areReplies ofNodes
  constructor
  · intro found isFound
    exact areReplies _ (List.mem_map_of_mem isFound)
  · intro id isServing
    rcases ofNodes id isServing with ⟨reply, isReply, isProbeReply⟩
    rcases List.mem_map.mp isReply with ⟨found, isFound, rfl⟩
    exact ⟨found, isFound, isProbeReply⟩

section HaveTold

variable {ids : List (Option FlattenId)} (haveTold : cluster.HaveTold key ids)

include haveTold

/-- If all nodes have told the same name, they agree on it. -/
theorem HaveTold.settles (rests : cluster.Rests key)
    (served : cluster.servingNodes key.source ≠ []) {name : FlattenId}
    (common : Call.commonId? ids = some name) : cluster.Settles key name := by
  have noneBlocked : ¬ ∃ other ∈ cluster.servingNodes key.source, cluster.IsBlocked other key := by
    intro someBlocked
    rcases someBlocked with ⟨other, isServing, isBlocked⟩
    rcases haveTold.ofNodes other isServing with ⟨found, isFound, isReply⟩
    rcases isReply.of_found with ⟨_, _, isLacking⟩
    have isName := Call.eq_of_commonId? common isFound
    rw [isLacking isBlocked.listed?_eq_none] at isName
    cases isName
  refine ⟨served, rests.resolve_right noneBlocked, ?_⟩
  intro id isServing
  rcases haveTold.ofNodes id isServing with ⟨found, isFound, isReply⟩
  rcases isReply.of_found with ⟨_, isListed, _⟩
  rw [← isListed.resolve_right noneBlocked]
  exact Call.eq_of_commonId? common isFound

/-- If the nodes agree on a name, they have told it. -/
theorem HaveTold.common {name : FlattenId} (settles : cluster.Settles key name) :
    Call.commonId? ids = some name := by
  have noneBlocked : ¬ ∃ other ∈ cluster.servingNodes key.source, cluster.IsBlocked other key := by
    intro someBlocked
    rcases someBlocked with ⟨other, isServing, isBlocked⟩
    cases (settles.lists other isServing).symm.trans isBlocked.listed?_eq_none
  apply Call.commonId?_eq_some
  · rcases List.exists_mem_of_ne_nil _ settles.served with ⟨id, isServing⟩
    rcases haveTold.ofNodes id isServing with ⟨found, isFound, _⟩
    exact List.ne_nil_of_mem isFound
  · intro found isFound
    rcases haveTold.areReplies found isFound with ⟨id, isServing, isReply⟩
    rcases isReply.of_found with ⟨_, isListed, _⟩
    exact (isListed.resolve_right noneBlocked).trans (settles.lists id isServing)

end HaveTold

/-! ## Making a request -/

theorem Begins.mayPrecede {requests : List RequestId} (begins : cluster.Begins key requests) :
    cluster.MayPrecede key requests := by
  cases begins with
  | anew => exact .first
  | again isQuiet lists disagrees foreign => exact .second foreign

theorem MayPrecede.tries {record : CallRecord} (mayPrecede : cluster.MayPrecede key earlier)
    (endsWith : record.EndsWith earlier request) :
    record.TriesOnce ∨ record.TriesTwice ∧ cluster.ListsForeign key := by
  cases mayPrecede with
  | first => exact Or.inl ⟨request, endsWith⟩
  | second foreign => exact Or.inr ⟨⟨_, request, endsWith⟩, foreign⟩

theorem CanAgree.not_blocked (canAgree : cluster.CanAgree key) :
    ¬ ∃ id ∈ cluster.servingNodes key.source, cluster.IsBlocked id key := by
  intro someBlocked
  rcases someBlocked with ⟨id, isServing, isBlocked⟩
  exact isBlocked.not_canFlatten (canAgree id isServing)

/-- When a request is made, some nodes compute nothing else for the key, and none of them does if
all can flatten the table. -/
theorem Begins.alone {requests : List RequestId} (begins : cluster.Begins key requests)
    (served : cluster.servingNodes key.source ≠ []) :
    (∃ id ∈ cluster.servingNodes key.source, cluster.IsQuietAt key id) ∧
      (cluster.CanAgree key ∨ requests ≠ [] →
        ∀ id ∈ cluster.servingNodes key.source, cluster.IsQuietAt key id) := by
  cases begins with
  | anew rests =>
      constructor
      · rcases rests with isQuiet | ⟨id, isServing, node, reason, isService, settled⟩
        · rcases List.exists_mem_of_ne_nil _ served with ⟨id, isServing⟩
          exact ⟨id, isServing, isQuiet id isServing⟩
        · refine ⟨id, isServing, fun other isOther => ?_⟩
          cases isService.symm.trans isOther
          exact settled.quiet
      · intro agreeOrLater
        rcases agreeOrLater with canAgree | isLater
        · exact rests.resolve_right canAgree.not_blocked
        · exact absurd rfl isLater
  | again isQuiet =>
      rcases List.exists_mem_of_ne_nil _ served with ⟨id, isServing⟩
      exact ⟨⟨id, isServing, isQuiet id isServing⟩, fun _ => isQuiet⟩

/-- No node owes a report on a request that was not made. -/
theorem IsOrderly.not_owes_fresh (orderly : cluster.IsOrderly asked)
    (isFresh : ∀ entry ∈ asked, entry.1 ≠ request) {node : FlattenNode σ}
    (isService : cluster.service? id = some node) (target : NodeId) :
    ¬ node.Owes request target := by
  intro owes
  rcases orderly.service isService with ⟨_, _, _, works⟩
  rcases works.isAsked_of_owes owes with ⟨⟨other, isAsked⟩, _⟩
  exact isFresh _ (mem_askedOf.mp isAsked).1 rfl

/-- The cluster with a new request that its coordinator awaits the reports on. -/
def openRequest (cluster : Cluster σ) (request : RequestId) (nodes : List NodeId) : Cluster σ :=
  { cluster with coordinator := cluster.coordinator.openRequest request nodes }

/-- A new request is tried, and no node has anything to do with it yet. -/
theorem Begins.tries {requests : List RequestId} (begins : cluster.Begins key requests)
    (orderly : cluster.IsOrderly asked) (isFresh : ∀ entry ∈ asked, entry.1 ≠ request)
    (served : cluster.servingNodes key.source ≠ [])
    (services : ∀ id ∈ cluster.servingNodes key.source, cluster.service? id ≠ none) :
    (cluster.openRequest request (cluster.servingNodes key.source)).Tries
        ((request, key) :: asked) key (cluster.servingNodes key.source) requests request
        (cluster.IsQuietAt key) [] ∧
      ∀ id, ¬ (cluster.openRequest request (cluster.servingNodes key.source)).Responds request []
        id := by
  have opened : cluster.GoesOn asked none
      (cluster.openRequest request (cluster.servingNodes key.source)) :=
    .of_members rfl rfl rfl
  rcases begins.alone served with ⟨oneAlone, allAlone⟩
  constructor
  case left =>
    refine
      { isAsked := List.mem_cons_self
        services := fun id isServing => opened.isService (services id isServing)
        awaited := OrderedMap.find?_insert_self _ _ _
        mayPrecede := begins.mayPrecede.goesOn opened
        oneAlone := oneAlone, allAlone := ?_, handles := ?_
        answers := fun _ isReport => nomatch isReport }
    · rw [opened.canAgree_iff key]
      exact allAlone
    · intro id isServing node isService
      have isThere : cluster.service? id = some node := isService
      rcases orderly.service isThere with ⟨_, _, _, works⟩
      exact FlattenNode.handles_of_not_owes works.apart (fun isQuiet => isQuiet node isThere)
        (orderly.not_owes_fresh isFresh isThere)
  case right =>
    intro id responds
    rcases responds with ⟨report, isReport, _⟩ | ⟨node, isService, owes⟩
    · cases isReport
    · exact orderly.not_owes_fresh isFresh isService _ owes

end Cluster

end Reports

namespace Course

section Verdicts

variable {course : Course σ} {undertaking : Undertaking} {ids : List (Option FlattenId)}

/-- What the call is told ends it, and the course stays sound. -/
def Ends (course : Course σ) (undertaking : Undertaking) (event : CallEvent) : Prop :=
  ∃ call cluster reply, course.cluster.tell event undertaking.call = (call, cluster) ∧
    call.table = undertaking.call.table ∧ call.stage = .ended reply ∧
    (course.close undertaking call cluster).IsSound

theorem Ends.isSound {event : CallEvent} (ends : course.Ends undertaking event) :
    (course.tell undertaking event).IsSound := by
  rcases ends with ⟨call, cluster, reply, isTold, _, hasEnded, sound⟩
  rw [tell_eq_close isTold hasEnded]
  exact sound

/-- Where the call has not settled its key, there was no agreement before. -/
theorem IsSound.not_agreed (sound : course.IsSound)
    (notSettled : ∀ name, ¬ course.cluster.Settles undertaking.call.key name)
    {older : CallRecord} (isOlder : older ∈ course.answered)
    (sameKey : older.key? = some undertaking.call.key) (agreement : Agreement) :
    older.answer.result ≠ .answered (.ok (some agreement)) := by
  intro isOk
  rcases sound.settles older isOlder agreement isOk with ⟨key, isKey, _, settles⟩
  cases isKey.symm.trans sameKey
  exact notSettled agreement.id settles

/-! ## Asking and requesting -/

/-- A request under a new name still says which flattening was asked for. -/
theorem named_cons {asked : List (RequestId × FlattenKey)}
    (named : ∀ request first second, (request, first) ∈ asked → (request, second) ∈ asked →
      first = second) {fresh : RequestId} (isFresh : ∀ entry ∈ asked, entry.1 ≠ fresh)
    (key : FlattenKey) (request : RequestId) (first second : FlattenKey)
    (isFirst : (request, first) ∈ (fresh, key) :: asked)
    (isSecond : (request, second) ∈ (fresh, key) :: asked) : first = second := by
  rcases List.mem_cons.mp isFirst with firstIsNew | firstIsOld
  · cases firstIsNew
    rcases List.mem_cons.mp isSecond with secondIsNew | secondIsOld
    · cases secondIsNew
      rfl
    · exact absurd rfl (isFresh _ secondIsOld)
  · rcases List.mem_cons.mp isSecond with secondIsNew | secondIsOld
    · cases secondIsNew
      exact absurd rfl (isFresh _ firstIsOld)
    · exact named request first second firstIsOld secondIsOld

/-- A request is made only if the nodes do not agree. -/
theorem IsSound.requests (sound : course.IsSound) (isUnderway : course.underway = some undertaking)
    {fresh : RequestId} (haveTold : course.cluster.HaveTold undertaking.call.key ids)
    (common : Call.commonId? ids = none)
    (begins : course.cluster.Begins undertaking.call.key undertaking.requests)
    (phases : undertaking.call.phases = triedPhases undertaking.requests ++ [.probing])
    (isFresh : ∀ entry ∈ course.asked, entry.1 ≠ fresh) :
    (course.noteRequest undertaking (undertaking.call.enter (.triggering fresh) [.triggering])
      (course.cluster.openRequest fresh undertaking.call.nodes) fresh).IsSound := by
  have undertakes := sound.underway undertaking isUnderway
  have goesOn : course.cluster.GoesOn course.asked none
      (course.cluster.openRequest fresh undertaking.call.nodes) := .of_members rfl rfl rfl
  have notRequested : ∀ key : FlattenKey, none ≠ some key :=
    fun key => (Option.some_ne_none key).symm
  have notSettled : ∀ name, ¬ course.cluster.Settles undertaking.call.key name := by
    intro name settles
    cases common.symm.trans (haveTold.common settles)
  refine
    { orderly := ?orderly, canonical := ?canonical
      named := named_cons sound.named isFresh undertaking.call.key
      rests := ?rests, underway := ?underway
      settles := sound.settles_of_goesOn goesOn fun _ _ _ _ key _ => notRequested key
      tries := sound.tries_of_goesOn goesOn, succeeds := sound.succeeds_of_goesOn goesOn
      repeats := sound.repeats }
  case orderly =>
    exact (sound.orderly.mono (List.subset_cons_self _ _)).of_members rfl rfl rfl rfl
      (OrderedMap.isOrdered_insert _ _ sound.orderly.awaited) rfl
  case canonical =>
    intro entry isEntry
    rcases List.mem_cons.mp isEntry with isNew | isOld
    · rw [isNew]
      exact FlattenKey.isCanonical_of_of? undertakes.isKey
    · exact sound.canonical entry isOld
  case rests =>
    intro key notConcerned
    refine goesOn.rests (notRequested key) (sound.rests key fun concerned => notConcerned ?_)
    rcases concerned with ⟨other, isOther, sameKey⟩
    cases isUnderway.symm.trans isOther
    exact ⟨_, rfl, sameKey⟩
  case underway =>
    intro other isOther
    cases isOther
    refine ⟨undertakes.isKey, undertakes.nodes, undertakes.served, ?_, ?_⟩
    · intro record isRecord sameKey agreement isOk
      exact absurd isOk (sound.not_agreed notSettled isRecord sameKey agreement)
    · have served : course.cluster.servingNodes undertaking.call.key.source ≠ [] :=
        undertakes.nodes ▸ undertakes.served
      have services : ∀ id ∈ course.cluster.servingNodes undertaking.call.key.source,
          course.cluster.service? id ≠ none := by
        intro id isServing
        rcases haveTold.ofNodes id isServing with ⟨found, _, isReply⟩
        exact isReply.of_found.1
      rcases begins.tries sound.orderly isFresh served services with ⟨tries, notResponds⟩
      rw [← undertakes.nodes] at tries notResponds
      refine .triggering rfl rfl ?_ tries (collects_none _ _) fun _ id _ _ => notResponds id
      simp only [Call.enter, phases, List.append_assoc, List.cons_append, List.nil_append]

/-- The nodes have told one name, which ends the call. -/
theorem IsSound.ends_of_common (sound : course.IsSound)
    (isUnderway : course.underway = some undertaking)
    (haveTold : course.cluster.HaveTold undertaking.call.key ids) {name : FlattenId}
    (common : Call.commonId? ids = some name)
    (begins : course.cluster.Begins undertaking.call.key undertaking.requests)
    (phases : undertaking.call.phases = triedPhases undertaking.requests ++ [.probing])
    {event : CallEvent}
    (isTold : course.cluster.tell event undertaking.call =
      (undertaking.call.finish name false, course.cluster)) : course.Ends undertaking event := by
  have undertakes := sound.underway undertaking isUnderway
  have settles := haveTold.settles begins.rests (undertakes.nodes ▸ undertakes.served) common
  have requests : undertaking.requests = [] := by
    cases isBegun : undertaking.requests with
    | nil => rfl
    | cons first rest =>
        rw [isBegun] at begins
        cases begins with
        | again isQuiet lists disagrees foreign => exact absurd settles.lists (disagrees name)
  rw [requests] at phases
  refine ⟨_, _, _, isTold, rfl, rfl, ?_⟩
  refine sound.close isUnderway rfl rfl sound.orderly.awaited (Or.inl settles.isQuiet) ?_
    (fun hasRequested => absurd requests hasRequested)
    (fun hasRequested => absurd requests hasRequested) ?_
  · intro agreement isOk
    cases isOk
    exact ⟨rfl, settles⟩
  · intro older isOlder sameKey agreement isOk
    rcases sound.settles older isOlder agreement isOk with ⟨key, isKey, nodes, settled⟩
    cases isKey.symm.trans sameKey
    rcases List.exists_mem_of_ne_nil _ settles.served with ⟨id, isNode⟩
    have sameName : name = agreement.id := Option.some.inj
      ((settles.lists id isNode).symm.trans (settled.lists id isNode))
    have sameNodes : undertaking.call.nodes = agreement.nodes :=
      undertakes.nodes.trans nodes.symm
    refine ⟨requests, ?_, ?_⟩
    · simp only [Undertaking.record, Cluster.answerOf, Call.finish, Call.enter,
        CallAnswer.ofOutcome, phases]
      rfl
    · rw [← sameName, ← sameNodes]
      rfl

/-- A node that serves the table is not there, which ends the call. -/
theorem IsSound.ends_of_absent (sound : course.IsSound)
    (isUnderway : course.underway = some undertaking) {id : NodeId}
    (isNode : id ∈ undertaking.call.nodes) (isAbsent : course.cluster.service? id = none)
    (begins : course.cluster.Begins undertaking.call.key undertaking.requests)
    {event : CallEvent} {cause : Error}
    (isTold : course.cluster.tell event undertaking.call =
      (undertaking.call.fail cause, course.cluster)) : course.Ends undertaking event := by
  have isServing : id ∈ course.cluster.servingNodes undertaking.call.key.source :=
    (sound.underway undertaking isUnderway).nodes ▸ isNode
  have notListed : course.cluster.listed? id undertaking.call.key = none := by
    rw [Cluster.listed?, isAbsent, Option.bind_none]
  have requests : undertaking.requests = [] := by
    cases isBegun : undertaking.requests with
    | nil => rfl
    | cons first rest =>
        rw [isBegun] at begins
        cases begins with
        | again isQuiet lists disagrees foreign => exact absurd notListed (lists id isServing)
  have notSettled : ∀ name, ¬ course.cluster.Settles undertaking.call.key name := by
    intro name settles
    cases notListed.symm.trans (settles.lists id isServing)
  refine ⟨_, _, _, isTold, rfl, rfl, ?_⟩
  refine sound.close isUnderway rfl rfl sound.orderly.awaited begins.rests ?_
    (fun hasRequested => absurd requests hasRequested)
    (fun hasRequested => absurd requests hasRequested) ?_
  · intro agreement isOk
    cases isOk
  · intro older isOlder sameKey agreement isOk
    exact absurd isOk (sound.not_agreed notSettled isOlder sameKey agreement)

/-- When all nodes have been asked, the call ends or makes a request. -/
theorem IsSound.tell_probed (sound : course.IsSound)
    {replies : List (Reply (Option FlattenId))} {fresh : RequestId}
    (isUnderway : course.underway = some undertaking)
    (isProbing : undertaking.call.stage = .probing)
    (haveReplied : undertaking.probes = replies.map some)
    (isFresh : ∀ entry ∈ course.asked, entry.1 ≠ fresh) :
    let call := undertaking.call.enter (.triggering fresh) [.triggering]
    let cluster := course.cluster.openRequest fresh undertaking.call.nodes
    course.Ends undertaking (.probed replies fresh) ∨
      course.cluster.tell (.probed replies fresh) undertaking.call = (call, cluster) ∧
        (course.noteRequest undertaking call cluster fresh).IsSound := by
  intro call cluster
  have undertakes := sound.underway undertaking isUnderway
  rcases undertakes.stage.of_probing isProbing with ⟨begins, phases, collects⟩
  rcases collects.complete haveReplied with ⟨areReplies, _⟩
  have answered : ∀ reply ∈ replies, ∃ outcome, reply = .answered outcome := by
    intro reply isReply
    rcases areReplies reply isReply with ⟨id, _, isProbeReply⟩
    cases isProbeReply with
    | unknown isAbsent => exact ⟨_, rfl⟩
    | found isService isListed isLacking => exact ⟨_, rfl⟩
  rcases Reply.gather_outcome "E-COORD-001" answered with
    ⟨ids, isGathered, areIds⟩ | ⟨cause, isGathered, isCause⟩
  · rw [undertakes.nodes] at collects
    have haveTold := Cluster.haveTold_of_collects collects haveReplied areIds
    cases common : Call.commonId? ids with
    | some name =>
        refine Or.inl (sound.ends_of_common isUnderway haveTold common begins phases ?_)
        simp only [Cluster.tell, CallState.step, isProbing, CallState.judgeProbes, isGathered,
          common]
    | none =>
        refine Or.inr ⟨?_, sound.requests isUnderway haveTold common begins phases isFresh⟩
        simp only [Cluster.tell, CallState.step, isProbing, CallState.judgeProbes, isGathered,
          common]
        rfl
  · rcases areReplies _ isCause with ⟨id, isNode, isProbeReply⟩
    cases isProbeReply with
    | unknown isAbsent =>
        have isTold : course.cluster.tell (.probed replies fresh) undertaking.call =
            (undertaking.call.fail (.unknownNode id), course.cluster) := by
          simp only [Cluster.tell, CallState.step, isProbing, CallState.judgeProbes, isGathered]
          rfl
        exact Or.inl (sound.ends_of_absent isUnderway isNode isAbsent begins isTold)

/-! ## Sending and waiting -/

/-- All nodes have accepted the request. -/
theorem IsSound.tell_triggered (sound : course.IsSound) {request : RequestId}
    {replies : List (Reply Unit)} (isUnderway : course.underway = some undertaking)
    (isTriggering : undertaking.call.stage = .triggering request)
    (haveReplied : undertaking.triggers = replies.map some) :
    course.cluster.tell (.triggered replies) undertaking.call =
        (undertaking.call.enter (.waiting request) [.waiting], course.cluster) ∧
      { course with
        underway := some
          { undertaking with
            call := undertaking.call.enter (.waiting request) [.waiting] } }.IsSound := by
  rcases (sound.underway undertaking isUnderway).stage.of_triggering isTriggering with
    ⟨earlier, isAlone, reports, requests, phases, tries, collected, _⟩
  rcases collected.complete haveReplied with ⟨areReplies, ofNodes⟩
  have allOk : ∀ reply ∈ replies, reply = .answered (.ok ()) := by
    intro reply isReply
    rcases areReplies reply isReply with ⟨id, _, isOk, _⟩
    exact isOk
  rcases Reply.gather_outcome "E-COORD-002" fun reply isReply => ⟨_, allOk reply isReply⟩ with
    ⟨values, isGathered, _⟩ | ⟨cause, _, isCause⟩
  · constructor
    · simp only [Cluster.tell, CallState.step, isTriggering, CallState.judgeTriggers, isGathered]
    · refine sound.continues isUnderway ⟨rfl, rfl, rfl, rfl⟩ (.waiting rfl requests ?_ tries ?_)
      · simp only [Call.enter, phases, List.append_assoc, List.cons_append, List.nil_append]
      · intro id isNode
        rcases ofNodes id isNode with ⟨reply, _, _, responds⟩
        exact responds
  · cases allOk _ isCause

section Looks

variable {earlier : List RequestId} {request : RequestId} {isAlone : NodeId → Prop}
  {reports : List Report} {event : CallEvent}

/-- A call that has made a request ends with it, with the time before it. -/
theorem IsSound.ends_of_request (sound : course.IsSound)
    (isUnderway : course.underway = some undertaking)
    (requests : undertaking.requests = earlier ++ [request])
    (mayPrecede : course.cluster.MayPrecede undertaking.call.key earlier)
    (rests : course.cluster.Rests undertaking.call.key) {call : Call} {reply : Reply Agreement}
    (isTold : course.cluster.tell event undertaking.call =
      (call, { course.cluster with
        coordinator := course.cluster.coordinator.closeRequest request }))
    (sameTable : call.table = undertaking.call.table) (hasEnded : call.stage = .ended reply)
    (settles : ∀ agreement,
      (undertaking.record call).answer.result = .answered (.ok (some agreement)) →
      agreement.nodes = undertaking.call.nodes ∧
        course.cluster.Settles undertaking.call.key agreement.id)
    (endsWith : (undertaking.record call).EndsWith earlier request)
    (succeeds : course.cluster.CanAgree undertaking.call.key →
      ∃ agreement, (undertaking.record call).answer.result = .answered (.ok (some agreement))) :
    course.Ends undertaking event := by
  have hasRequested : undertaking.requests ≠ [] := by
    rw [requests]
    exact List.append_ne_nil_of_right_ne_nil _ (List.cons_ne_nil _ _)
  have undertakes := sound.underway undertaking isUnderway
  refine ⟨_, _, _, isTold, sameTable, hasEnded, ?_⟩
  exact sound.close isUnderway sameTable rfl
    (OrderedMap.isOrdered_erase _ sound.orderly.awaited) rests settles
    (fun _ => mayPrecede.tries endsWith) (fun _ => succeeds)
    fun older isOlder sameKey agreement isOk =>
      absurd (undertakes.needless older isOlder sameKey agreement isOk) hasRequested

/-- A node has failed, which ends the call. -/
theorem IsSound.ends_of_failure (sound : course.IsSound)
    (isUnderway : course.underway = some undertaking)
    (requests : undertaking.requests = earlier ++ [request])
    (phases : undertaking.call.phases =
      triedPhases earlier ++ [.probing, .triggering, .waiting])
    (mayPrecede : course.cluster.MayPrecede undertaking.call.key earlier)
    (someBlocked : ∃ id ∈ course.cluster.servingNodes undertaking.call.key.source,
      course.cluster.IsBlocked id undertaking.call.key)
    {failures : List (NodeId × String)}
    (isTold : course.cluster.tell event undertaking.call =
      (undertaking.call.fail (.remoteFailure request failures),
        { course.cluster with coordinator := course.cluster.coordinator.closeRequest request })) :
    course.Ends undertaking event := by
  refine sound.ends_of_request isUnderway requests mayPrecede (Or.inr someBlocked) isTold rfl rfl
    (fun _ isOk => nomatch isOk) ⟨requests, Or.inr ⟨failures, rfl, ?_⟩⟩
    fun canAgree => absurd someBlocked canAgree.not_blocked
  simp only [Undertaking.record, Cluster.answerOf, Call.fail, Call.enter, CallAnswer.ofOutcome,
    phases, List.append_assoc, List.cons_append, List.nil_append]

/-- All nodes have reported the name of the request, which ends the call. -/
theorem IsSound.ends_of_complete (sound : course.IsSound)
    (isUnderway : course.underway = some undertaking)
    (requests : undertaking.requests = earlier ++ [request])
    (phases : undertaking.call.phases =
      triedPhases earlier ++ [.probing, .triggering, .waiting])
    (mayPrecede : course.cluster.MayPrecede undertaking.call.key earlier)
    (settles : course.cluster.Settles undertaking.call.key request)
    (isTold : course.cluster.tell event undertaking.call =
      (undertaking.call.finish request true,
        { course.cluster with coordinator := course.cluster.coordinator.closeRequest request })) :
    course.Ends undertaking event := by
  refine sound.ends_of_request isUnderway requests mayPrecede (Or.inl settles.isQuiet) isTold rfl
    rfl ?_ ⟨requests, Or.inl ⟨undertaking.call.nodes, rfl, ?_⟩⟩ fun _ => ⟨_, rfl⟩
  · intro agreement isOk
    cases isOk
    exact ⟨rfl, settles⟩
  · simp only [Undertaking.record, Cluster.answerOf, Call.finish, Call.enter,
      CallAnswer.ofOutcome, phases, List.append_assoc, List.cons_append, List.nil_append, if_true]

/-- The cluster after the nodes have reported different names on a request. -/
def noteDisagreement (course : Course σ) (request : RequestId) : Cluster σ :=
  let closed := course.cluster.coordinator.closeRequest request
  { course.cluster with coordinator := { closed with disagreements := closed.disagreements + 1 } }

/-- After its first request the call makes another attempt. -/
structure TriesAgain (course : Course σ) (undertaking : Undertaking) (event : CallEvent)
    (request : RequestId) : Prop where
  requests : undertaking.requests = [request]
  isTold : course.cluster.tell event undertaking.call =
    (undertaking.call.enter .starting [], course.noteDisagreement request)
  foreign : course.cluster.ListsForeign undertaking.call.key
  isSound : { course with
    cluster := course.noteDisagreement request
    underway := some
      { undertaking with call := undertaking.call.enter .starting [] } }.IsSound

/-- The nodes have reported different names, and the call begins again. -/
theorem IsSound.triesAgain (sound : course.IsSound)
    (isUnderway : course.underway = some undertaking) (requests : undertaking.requests = [request])
    (phases : undertaking.call.phases = [.probing, .triggering, .waiting])
    (foreign : course.cluster.ListsForeign undertaking.call.key)
    (begins : course.cluster.Begins undertaking.call.key [request])
    (isTold : course.cluster.tell event undertaking.call =
      (undertaking.call.enter .starting [], course.noteDisagreement request)) :
    course.TriesAgain undertaking event request := by
  refine ⟨requests, isTold, foreign, ?_⟩
  have goesOn : course.cluster.GoesOn course.asked none (course.noteDisagreement request) :=
    .of_members rfl rfl rfl
  have orderly : (course.noteDisagreement request).IsOrderly course.asked :=
    sound.orderly.of_members rfl rfl rfl rfl
      (OrderedMap.isOrdered_erase _ sound.orderly.awaited) rfl
  refine sound.goOn orderly goesOn (fun _ isRequested => nomatch isRequested)
    (fun isDropped => nomatch isDropped) ?_
  intro other isOther
  cases isOther
  refine ⟨undertaking, isUnderway, ⟨rfl, rfl, rfl, rfl⟩, .starting rfl ?_ ?_⟩
  · rw [requests]
    exact begins.goesOn goesOn
  · simp only [Call.enter, phases, requests]
    rfl

/-- A look in time ends the call or leads to another attempt, unless some node still has to
report. -/
theorem IsSound.tell_looked (sound : course.IsSound)
    (isUnderway : course.underway = some undertaking)
    (isWaiting : undertaking.call.stage = .waiting request)
    (inTime : course.cluster.now < undertaking.call.deadline) :
    course.Ends undertaking (.looked course.cluster.now) ∨
      course.TriesAgain undertaking (.looked course.cluster.now) request ∨
      course.cluster.tell (.looked course.cluster.now) undertaking.call =
          (undertaking.call, course.cluster) ∧
        ∃ id ∈ undertaking.call.nodes, course.cluster.Owes id request := by
  have undertakes := sound.underway undertaking isUnderway
  rcases undertakes.stage.of_waiting isWaiting with
    ⟨earlier, isAlone, reports, requests, phases, tries, respond⟩
  have isAwaited : course.cluster.coordinator.verdict request
      (undertaking.call.deadline ≤ course.cluster.now) =
      (AwaitedRequest.afterReports undertaking.call.nodes reports).verdict false := by
    rw [Coordinator.verdict, tries.awaited, decide_eq_false (Nat.not_le.mpr inTime)]
  rcases AwaitedRequest.verdict_afterReports undertaking.call.nodes reports false with
    ⟨hasFailed, verdict⟩ | ⟨noFailure, ⟨complete, verdict⟩ | ⟨isMissing, verdict⟩⟩
  · have isTold : course.cluster.tell (.looked course.cluster.now) undertaking.call =
        (undertaking.call.fail (.remoteFailure request (failuresIn reports)),
          { course.cluster with
            coordinator := course.cluster.coordinator.closeRequest request }) := by
      simp only [Cluster.tell, CallState.step, isWaiting, CallState.look, isAwaited, verdict]
    have someBlocked := tries.exists_blocked hasFailed
    rw [undertakes.nodes] at someBlocked
    exact Or.inl (sound.ends_of_failure isUnderway requests phases tries.mayPrecede someBlocked
      isTold)
  · cases common : Call.commonId? ((AwaitedRequest.afterReports undertaking.call.nodes
        reports).results.map fun (_, id) => some id) with
    | some name =>
        rcases tries.settles_of_common noFailure complete undertakes.nodes common with
          ⟨isRequest, settles⟩
        rw [isRequest] at common settles
        refine Or.inl (sound.ends_of_complete isUnderway requests phases tries.mayPrecede settles
          ?_)
        simp only [Cluster.tell, CallState.step, isWaiting, CallState.look, isAwaited, verdict,
          CallState.judgeResults, common]
    | none =>
        rcases tries.begins_of_disagreement noFailure complete undertakes.nodes undertakes.served
          common with ⟨isFirst, foreign, begins⟩
        rw [isFirst] at requests phases
        refine Or.inr (Or.inl (sound.triesAgain isUnderway requests phases foreign begins ?_))
        simp only [Cluster.tell, CallState.step, isWaiting, CallState.look, isAwaited, verdict,
          CallState.judgeResults, common]
        rfl
  · rcases isMissing with ⟨id, isNode, notReported⟩
    refine Or.inr (Or.inr ⟨?_, id, isNode, ?_⟩)
    · simp only [Cluster.tell, CallState.step, isWaiting, CallState.look, isAwaited, verdict,
        Bool.false_eq_true, if_false]
    · rcases respond id isNode with ⟨report, isReport, sameNode⟩ | owes
      · exact absurd sameNode (notReported report isReport)
      · exact owes

/-- If no node of the call has a worker left, a look in time ends the call or leads to another
attempt. -/
theorem IsSound.tell_looked_of_idle (sound : course.IsSound)
    (isUnderway : course.underway = some undertaking)
    (isWaiting : undertaking.call.stage = .waiting request)
    (inTime : course.cluster.now < undertaking.call.deadline)
    (idle : ∀ id ∈ undertaking.call.nodes, course.cluster.IsIdle id) :
    course.Ends undertaking (.looked course.cluster.now) ∨
      course.TriesAgain undertaking (.looked course.cluster.now) request := by
  rcases sound.tell_looked isUnderway isWaiting inTime with
    ends | triesAgain | ⟨_, id, isNode, owes⟩
  · exact Or.inl ends
  · exact Or.inr triesAgain
  · exact absurd owes (sound.orderly.not_owes (idle id isNode) request)

end Looks

end Verdicts

end Course

end Unnest
