import Mathlib.Logic.Relation
import Unnest.Proofs.ClusterMoves
import Unnest.Proofs.Replies

/-!
# Calls of a coordinator one after the other

A course is a cluster together with the call that is under way and all calls that have been
answered.  Nodes are asked at any moments, workers make their steps at any moments, stores that are
shared with others change, and a call that is over may leave workers behind; only the calls
themselves do not overlap.  `Course.Step` lists what can happen as long as no connection fails and
every call has enough time.
-/

namespace Unnest

variable {σ : Type}

/-! ## Calls -/

/-- What is to be known by a call. -/
def Call.key (call : Call) : FlattenKey :=
  ⟨call.table, call.flattenBy⟩

/-- What a call sends to its nodes. -/
def Call.requestBy (call : Call) (client : NodeId) (request : RequestId) : FlattenRequest where
  id := request
  table := call.table
  flattenBy := call.flattenBy
  notify := [client]

/-- A call that is about to begin: the field can be read, and nodes serve the table. -/
structure Cluster.Starts (cluster : Cluster σ) (table flattenBy : String) (call : Call) :
    Prop where
  isKey : FlattenKey.of? table flattenBy = some call.key
  isTable : call.table = table
  nodes : call.nodes = cluster.servingNodes table
  served : call.nodes ≠ []
  deadline : call.deadline = cluster.now + cluster.coordinator.settings.timeoutMillis * 1000
  stage : call.stage = .starting
  phases : call.phases = []

/-- What a call comes to that cannot begin. -/
structure Cluster.Refuses (cluster : Cluster σ) (table flattenBy : String) (answer : CallAnswer) :
    Prop where
  needless : FlattenKey.of? table flattenBy = none ∨ cluster.servingNodes table = []
  noAgreement : ∀ agreement, answer.result ≠ .answered (.ok (some agreement))

theorem Cluster.startCall_outcome (cluster : Cluster σ) (table flattenBy : String) :
    (∃ call, cluster.startCall table flattenBy = .ok call ∧ cluster.Starts table flattenBy call) ∨
      ∃ answer, cluster.startCall table flattenBy = .error answer ∧
        cluster.Refuses table flattenBy answer := by
  unfold startCall
  cases accepted : readTarget flattenBy with
  | error cause =>
      have isNoKey : FlattenKey.of? table flattenBy = none := by
        rw [FlattenKey.of?, accepted]
        rfl
      refine Or.inr ⟨_, rfl, Or.inl isNoKey, ?_⟩
      intro agreement isOk
      cases isOk
  | ok target =>
      have isKey : FlattenKey.of? table flattenBy = some ⟨table, target.toText⟩ := by
        rw [FlattenKey.of?, accepted]
        rfl
      cases serving : cluster.servingNodes table with
      | nil =>
          refine Or.inr ⟨_, rfl, Or.inr serving, ?_⟩
          intro agreement isOk
          cases isOk
      | cons first rest =>
          exact Or.inl ⟨_, rfl, isKey, rfl, serving.symm, List.cons_ne_nil first rest, rfl, rfl,
            rfl⟩

theorem Cluster.starts_of_startCall {cluster : Cluster σ} {table flattenBy : String} {call : Call}
    (isStarted : cluster.startCall table flattenBy = .ok call) :
    cluster.Starts table flattenBy call := by
  rcases cluster.startCall_outcome table flattenBy with
    ⟨other, isOther, starts⟩ | ⟨answer, isRefused, _⟩
  · cases isStarted.symm.trans isOther
    exact starts
  · cases isStarted.symm.trans isRefused

theorem Cluster.refuses_of_startCall {cluster : Cluster σ} {table flattenBy : String}
    {answer : CallAnswer} (isRefused : cluster.startCall table flattenBy = .error answer) :
    cluster.Refuses table flattenBy answer := by
  rcases cluster.startCall_outcome table flattenBy with
    ⟨call, isStarted, _⟩ | ⟨other, isOther, refuses⟩
  · cases isRefused.symm.trans isStarted
  · cases isRefused.symm.trans isOther
    exact refuses

/-! ## Courses -/

/-- A call that is under way. -/
structure Undertaking where
  /-- The field as the caller spells it. -/
  flattenBy : String
  call : Call
  /-- What the nodes have replied in this attempt, each at its place. -/
  probes : List (Option (Reply (Option FlattenId))) := []
  triggers : List (Option (Reply Unit)) := []
  /-- The requests that the call has made. -/
  requests : List RequestId := []

/-- A call that is over. -/
structure CallRecord where
  table : String
  flattenBy : String
  requests : List RequestId
  answer : CallAnswer

structure Course (σ : Type) where
  cluster : Cluster σ
  underway : Option Undertaking := none
  /-- The calls that are over, the latest first. -/
  answered : List CallRecord := []
  /-- The requests that were ever made. -/
  asked : List (RequestId × FlattenKey) := []

/-- What is noted of a call when it is over. -/
def Undertaking.record (undertaking : Undertaking) (call : Call) : CallRecord where
  table := call.table
  flattenBy := undertaking.flattenBy
  requests := undertaking.requests
  answer := Cluster.answerOf call

namespace Course

/-- The call that is under way is over. -/
def close (course : Course σ) (undertaking : Undertaking) (call : Call) (cluster : Cluster σ) :
    Course σ :=
  { course with
    cluster := cluster
    underway := none
    answered := undertaking.record call :: course.answered }

/-- The call that is under way makes a request. -/
def noteRequest (course : Course σ) (undertaking : Undertaking) (call : Call) (cluster : Cluster σ)
    (request : RequestId) : Course σ :=
  { course with
    cluster := cluster
    underway := some
      { undertaking with
        call := call
        triggers := call.nodes.map fun _ => none
        requests := undertaking.requests ++ [request] }
    asked := (request, call.key) :: course.asked }

/-- Tell the call that is under way what has happened. -/
def tell (course : Course σ) (undertaking : Undertaking) (event : CallEvent) : Course σ :=
  let (call, cluster) := course.cluster.tell event undertaking.call
  match call.stage with
  | .ended _ => course.close undertaking call cluster
  | .triggering request => course.noteRequest undertaking call cluster request
  | _ => { course with cluster := cluster, underway := some { undertaking with call := call } }

theorem tell_eq_close {course : Course σ} {undertaking : Undertaking} {event : CallEvent}
    {call : Call} {cluster : Cluster σ} {reply : Reply Agreement}
    (isTold : course.cluster.tell event undertaking.call = (call, cluster))
    (hasEnded : call.stage = .ended reply) :
    course.tell undertaking event = course.close undertaking call cluster := by
  simp only [tell, isTold, hasEnded]

/-- Ask the node at a place which flattening it has. -/
def probe (course : Course σ) (undertaking : Undertaking) (place : Nat) (id : NodeId) : Course σ :=
  let replied := course.cluster.probe undertaking.call.table undertaking.call.flattenBy id
  { course with
    cluster := replied.2
    underway := some
      { undertaking with probes := undertaking.probes.set place (some replied.1) } }

/-- Send a request to the node at a place. -/
def trigger (course : Course σ) (undertaking : Undertaking) (request : RequestId) (place : Nat)
    (id : NodeId) : Course σ :=
  let replied :=
    course.cluster.trigger (undertaking.call.requestBy course.cluster.coordinator.id request) id
  { course with
    cluster := replied.2
    underway := some
      { undertaking with triggers := undertaking.triggers.set place (some replied.1) } }

/-- A name was given to a request. -/
def giveName (course : Course σ) : Course σ :=
  { course with
    cluster := { course.cluster with namesGiven := course.cluster.namesGiven + 1 } }

/-- What can happen in a course. -/
inductive Step (course : Course σ) : Course σ → Prop where
  | passes {now : Nat} (isLater : course.cluster.now ≤ now) :
      Step course { course with cluster := { course.cluster with now := now } }
  | works {id : NodeId} {node : FlattenNode σ} (place : Nat)
      (isNode : OrderedMap.find? id course.cluster.members = some (.service node false)) :
      Step course { course with cluster := course.cluster.work id node place }
  /-- Somebody else changes what is in the store of a node. -/
  | storeChanges {id : NodeId} {node : FlattenNode σ} (content : σ)
      (isNode : OrderedMap.find? id course.cluster.members = some (.service node false)) :
      Step course { course with cluster := course.cluster.changeStore id node content }
  | refuses {table flattenBy : String} {answer : CallAnswer} (isIdle : course.underway = none)
      (isRefused : course.cluster.startCall table flattenBy = .error answer) :
      Step course
        { course with answered := ⟨table, flattenBy, [], answer⟩ :: course.answered }
  | begins {table flattenBy : String} {call : Call} (isIdle : course.underway = none)
      (isStarted : course.cluster.startCall table flattenBy = .ok call) :
      Step course { course with underway := some { flattenBy := flattenBy, call := call } }
  | attempts {undertaking : Undertaking} (isUnderway : course.underway = some undertaking)
      (isReady : undertaking.call.stage = .starting ∨ undertaking.call.stage = .pausing)
      (inTime : course.cluster.now < undertaking.call.deadline) :
      Step course
        (course.tell
          { undertaking with probes := undertaking.call.nodes.map fun _ => none }
          (.clock course.cluster.now))
  | probes {undertaking : Undertaking} {place : Nat} {id : NodeId}
      (isUnderway : course.underway = some undertaking)
      (isProbing : undertaking.call.stage = .probing)
      (isNode : undertaking.call.nodes[place]? = some id)
      (isOpen : undertaking.probes[place]? = some none) :
      Step course (course.probe undertaking place id)
  | judgesProbes {undertaking : Undertaking} {replies : List (Reply (Option FlattenId))}
      {fresh : RequestId} (isUnderway : course.underway = some undertaking)
      (isProbing : undertaking.call.stage = .probing)
      (haveReplied : undertaking.probes = replies.map some)
      (isFresh : ∀ entry ∈ course.asked, entry.1 ≠ fresh) :
      Step course (course.giveName.tell undertaking (.probed replies fresh))
  | triggers {undertaking : Undertaking} {request : RequestId} {place : Nat} {id : NodeId}
      (isUnderway : course.underway = some undertaking)
      (isTriggering : undertaking.call.stage = .triggering request)
      (isNode : undertaking.call.nodes[place]? = some id)
      (isOpen : undertaking.triggers[place]? = some none) :
      Step course (course.trigger undertaking request place id)
  | judgesTriggers {undertaking : Undertaking} {request : RequestId}
      {replies : List (Reply Unit)} (isUnderway : course.underway = some undertaking)
      (isTriggering : undertaking.call.stage = .triggering request)
      (haveReplied : undertaking.triggers = replies.map some) :
      Step course (course.tell undertaking (.triggered replies))
  | looks {undertaking : Undertaking} {request : RequestId}
      (isUnderway : course.underway = some undertaking)
      (isWaiting : undertaking.call.stage = .waiting request)
      (inTime : course.cluster.now < undertaking.call.deadline) :
      Step course (course.tell undertaking (.looked course.cluster.now))

/-- One course can become the other. -/
def Reaches : Course σ → Course σ → Prop :=
  Relation.ReflTransGen Step

end Course

theorem Call.commonId?_eq_some {ids : List (Option FlattenId)} (notEmpty : ids ≠ [])
    {name : FlattenId} (same : ∀ id ∈ ids, id = some name) : commonId? ids = some name := by
  cases ids with
  | nil => exact absurd rfl notEmpty
  | cons first rest =>
      have isFirst := same first List.mem_cons_self
      have isCommon : rest.all (· == first) = true := by
        apply List.all_eq_true.mpr
        intro other isOther
        rw [isFirst, same other (List.mem_cons_of_mem _ isOther)]
        exact beq_self_eq_true _
      rw [commonId?, if_pos isCommon, isFirst]

end Unnest
