import Unnest.Proofs.NameRetention
import Unnest.Proofs.RecentLayouts
import Unnest.Proofs.RequestCounts
import Unnest.Proofs.SingleCalls

/-!
# Agreements are stable

A coordinator makes its calls one after the other, no connection fails, the tables of the nodes stay
as they are, and none expires.  Nothing else is requested from the nodes, but the stores of their
caches may be shared with others.  Then an agreement that a call has come to is what all later calls
for the same table and field find (`Course.agreement_stays`), whatever other calls came in between.
A call that makes a request ends with it, or with a second one if a node has found in its store what
it cannot compute.
-/

namespace Unnest

variable {σ : Type}

/-- Nothing fails, no node has gone or is held back, and nothing is being computed or awaited.  The
nodes that serve a table are a set.  A new node is steady by `FlattenNode.isSteady_of_empty`. -/
structure Cluster.IsReady (cluster : Cluster σ) : Prop where
  distinct : ∀ table, (cluster.servingNodes table).Nodup
  cutOff : cluster.connections.cutOff = []
  failNext : cluster.connections.failNext = 0
  departed : cluster.departed = []
  awaited : cluster.coordinator.awaited = []
  members : ∀ id member, OrderedMap.find? id cluster.members = some member →
    ∃ node : FlattenNode σ, member = .service node false ∧ node.id = id ∧ node.IsSteady ∧
      node.workers = [] ∧ node.inFlight = []

namespace Course

/-- A cluster whose coordinator has made no calls. -/
def new (cluster : Cluster σ) : Course σ where
  cluster := cluster

theorem isOrderly_new {cluster : Cluster σ} (ready : cluster.IsReady) : cluster.IsOrderly [] where
  distinct := ready.distinct
  cutOff := ready.cutOff
  failNext := ready.failNext
  departed := ready.departed
  awaited := by
    rw [OrderedMap.IsOrdered, ready.awaited]
    exact List.Pairwise.nil
  members := by
    intro id member isMember
    rcases ready.members id member isMember with
      ⟨node, isService, sameId, steady, noWorkers, nothing⟩
    exact ⟨node, isService, sameId, steady, FlattenNode.worksFor_of_idle noWorkers nothing⟩

theorem isSound_new {cluster : Cluster σ} (ready : cluster.IsReady) : (new cluster).IsSound where
  orderly := isOrderly_new ready
  canonical := fun _ isAsked => nomatch isAsked
  named := fun _ _ _ isAsked => nomatch isAsked
  rests := by
    intro key _
    refine Or.inl fun id _ node isService => ?_
    rcases (isOrderly_new ready).service isService with ⟨isMember, _⟩
    rcases ready.members id _ isMember with ⟨known, isKnown, _, _, _, nothing⟩
    cases isKnown
    rw [FlattenNode.IsQuiet, nothing]
    rfl
  underway := fun _ isUnderway => nomatch isUnderway
  settles := fun _ isRecord => nomatch isRecord
  tries := fun _ isRecord => nomatch isRecord
  succeeds := fun _ isRecord => nomatch isRecord
  repeats := List.Pairwise.nil

/-- A node that lists what it cannot compute has a store. -/
theorem IsSound.exists_store {course : Course σ} (sound : course.IsSound) {key : FlattenKey}
    (foreign : course.cluster.ListsForeign key) :
    ∃ id ∈ course.cluster.servingNodes key.source, ∃ node,
      course.cluster.service? id = some node ∧ node.store.isSome = true := by
  rcases foreign with ⟨id, isServing, isListed, cannotFlatten⟩
  cases isService : course.cluster.service? id with
  | none =>
      rw [Cluster.listed?, isService] at isListed
      exact absurd rfl isListed
  | some node =>
      rcases sound.orderly.service isService with ⟨_, _, steady, _⟩
      rw [Cluster.listed?, isService, Option.bind_some] at isListed
      refine ⟨id, isServing, node, isService, ?_⟩
      by_contra notSome
      have noStore : node.store = none := Option.not_isSome_iff_eq_none.mp notSome
      exact cannotFlatten ⟨node, isService, steady.listed noStore key isListed⟩

/-- What the calls of a coordinator come to, from a cluster on in which nothing was requested. -/
structure KeepsAgreements (course : Course σ) (cluster : Cluster σ) : Prop where
  /-- A call finds the agreement that an earlier one for the same table and field has come to, and
  requests nothing. -/
  repeats : course.answered.Pairwise CallRecord.Repeats
  counts : course.cluster.coordinator.triggered =
    cluster.coordinator.triggered + course.requestCount
  /-- A call that makes a request ends with it, or with the failure of a node.  Only where a node
  lists what it cannot compute, the nodes may report different names; then the call ends so with its
  second request. -/
  tries : ∀ record ∈ course.answered, record.requests ≠ [] → ∃ key, record.key? = some key ∧
    (record.TriesOnce ∨ record.TriesTwice ∧ course.cluster.ListsForeign key)
  /-- A request fails only if some node cannot flatten the table. -/
  succeeds : ∀ record ∈ course.answered, record.requests ≠ [] → ∀ key, record.key? = some key →
    course.cluster.CanAgree key →
    ∃ agreement, record.answer.result = .answered (.ok (some agreement))
  /-- A node that lists what it cannot compute has found it in its store. -/
  stores : ∀ key, course.cluster.ListsForeign key →
    ∃ id ∈ course.cluster.servingNodes key.source, ∃ node,
      course.cluster.service? id = some node ∧ node.store.isSome = true
  /-- What was agreed on is what all nodes that serve the table list. -/
  lists : ∀ record ∈ course.answered, ∀ agreement,
    record.answer.result = .answered (.ok (some agreement)) →
    ∃ key, record.key? = some key ∧ agreement.nodes = course.cluster.servingNodes key.source ∧
      ∀ id ∈ agreement.nodes, course.cluster.listed? id key = some agreement.id
  /-- A call that waits ends with the next look once its nodes have worked, or makes its second
  attempt. -/
  looks : ∀ undertaking request, course.underway = some undertaking →
    undertaking.call.stage = .waiting request →
    course.cluster.now < undertaking.call.deadline →
    (∀ id ∈ undertaking.call.nodes, course.cluster.IsIdle id) →
    (course.tell undertaking (.looked course.cluster.now)).underway = none ∨
      course.TriesAgain undertaking (.looked course.cluster.now) request
  /-- A call can be carried out at once, and ends with an answer. -/
  carriesOut : course.underway = none → 0 < course.cluster.coordinator.settings.timeoutMillis →
    (∀ entry ∈ course.asked, entry.1 ∉ course.cluster.nextNames) → ∀ table flattenBy,
    ∃ record after, record.table = table ∧ record.flattenBy = flattenBy ∧
      course.CarriesOut record after

/-- However the calls, the nodes, their workers and their stores go on, agreements stay. -/
theorem agreement_stays {cluster : Cluster σ} (ready : cluster.IsReady) {course : Course σ}
    (reaches : (new cluster).Reaches course) : course.KeepsAgreements cluster := by
  have sound := (isSound_new ready).reaches reaches
  refine
    { repeats := sound.repeats, counts := counts_of_reaches reaches, tries := sound.tries
      succeeds := sound.succeeds, stores := fun key => sound.exists_store, lists := ?lists
      looks := ?looks, carriesOut := sound.carriesOut }
  case lists =>
    intro record isRecord agreement isOk
    rcases sound.settles record isRecord agreement isOk with ⟨key, isKey, nodes, settles⟩
    exact ⟨key, isKey, nodes, fun id isNode => settles.lists id (nodes ▸ isNode)⟩
  case looks =>
    intro undertaking request isUnderway isWaiting inTime idle
    refine (sound.tell_looked_of_idle isUnderway isWaiting inTime idle).imp_left fun ends => ?_
    rcases ends with ⟨call, later, reply, isTold, _, hasEnded, _⟩
    rw [tell_eq_close isTold hasEnded]
    rfl

/-- A new node that holds a table with two arrays.  The directory of its cache is not there, so that
nothing is stored. -/
def pairedNode (id : Nat) : FlattenNode Directory where
  id := ⟨id⟩
  tables := [("t", CacheHistory.pairedTable)]
  cache := { settings := {}, registry := .empty 2 8 none }
  store := some (DirectoryStore.toKeyedStore ⟨"d", none⟩)
  content := .missing

def pairedCluster : Cluster Directory where
  coordinator := { id := ⟨9⟩, settings := {} }
  members := [(⟨1⟩, .service (pairedNode 1) false), (⟨2⟩, .service (pairedNode 2) false)]
  serving := [("t", [⟨1⟩, ⟨2⟩])]

theorem isSteady_pairedNode (id : Nat) : (pairedNode id).IsSteady := by
  refine FlattenNode.isSteady_of_empty rfl (Nat.le_max_right _ _) rfl ?_
  intro name table isTable
  have isEntry := OrderedMap.mem_of_find? isTable
  rw [pairedNode, List.mem_singleton] at isEntry
  cases isEntry
  rfl

theorem isReady_pairedCluster : pairedCluster.IsReady where
  distinct := by
    intro table
    rw [Cluster.servingNodes]
    cases found : OrderedMap.find? table pairedCluster.serving with
    | none => exact List.nodup_nil
    | some nodes =>
        have isEntry := OrderedMap.mem_of_find? found
        rw [pairedCluster, List.mem_singleton] at isEntry
        cases isEntry
        decide
  cutOff := rfl
  failNext := rfl
  departed := rfl
  awaited := rfl
  members := by
    intro id member isMember
    have isEntry := OrderedMap.mem_of_find? isMember
    simp only [pairedCluster, List.mem_cons, List.not_mem_nil, or_false, Prod.mk.injEq] at isEntry
    rcases isEntry with ⟨rfl, rfl⟩ | ⟨rfl, rfl⟩
    · exact ⟨pairedNode 1, rfl, rfl, isSteady_pairedNode 1, rfl, rfl⟩
    · exact ⟨pairedNode 2, rfl, rfl, isSteady_pairedNode 2, rfl, rfl⟩

/-- The agreement that a call has come to. -/
def agreement? (answer : CallAnswer) : Option Agreement :=
  match answer.result with
  | .answered (.ok found) => found
  | _ => none

theorem result_of_agreement? {answer : CallAnswer} {agreement : Agreement}
    (isAgreement : agreement? answer = some agreement) :
    answer.result = .answered (.ok (some agreement)) := by
  unfold agreement? at isAgreement
  split at isAgreement
  · next found isResult => rw [isResult, isAgreement]
  · cases isAgreement

/-- Two calls, one after the other, by the first array of the table. -/
theorem agreement_stays_pairedCluster :
    ∃ course agreement first second, (new pairedCluster).Reaches course ∧
      course.answered = [second, first] ∧ first.answer.result = .answered (.ok (some agreement)) ∧
      agreement.nodes = [⟨1⟩, ⟨2⟩] ∧ agreement.isNew = true ∧
      second.answer.result = .answered (.ok (some { agreement with isNew := false })) ∧
      second.requests = [] ∧ course.cluster.coordinator.triggered = 1 := by
  rcases (agreement_stays isReady_pairedCluster .refl).carriesOut rfl (by decide) (fun _ isAsked =>
    nomatch isAsked) "t" "a[*]" with ⟨first, once, isTable, isField, carriedOut⟩
  have keepsOnce := agreement_stays isReady_pairedCluster carriedOut.reaches
  have isOnce : once.cluster = (pairedCluster.ensureFlattened "t" "a[*]").2 := by
    rw [carriedOut.cluster, isTable, isField]
    rfl
  have hasTime : 0 < once.cluster.coordinator.settings.timeoutMillis := by
    rw [isOnce]
    decide +kernel
  have isFresh : ∀ entry ∈ once.asked, entry.1 ∉ once.cluster.nextNames := by
    intro entry isAsked
    rcases carriedOut.asked entry isAsked with wasAsked | ⟨count, _, isGiven, isName⟩
    · cases wasAsked
    · have oneName : (pairedCluster.ensureFlattened "t" "a[*]").2.namesGiven = 1 := by
        decide +kernel
      rw [isOnce, oneName] at isGiven
      rw [isName, Nat.lt_one_iff.mp isGiven, isOnce, Cluster.nextNames, oneName]
      decide
  rcases keepsOnce.carriesOut carriedOut.idle hasTime isFresh "t" "a[*]" with
    ⟨second, twice, isSameTable, isSameField, carriedOutAgain⟩
  have reaches := carriedOut.reaches.trans carriedOutAgain.reaches
  have keepsTwice := agreement_stays isReady_pairedCluster reaches
  have answered : twice.answered = [second, first] := by
    rw [carriedOutAgain.answered, carriedOut.answered]
    rfl
  have isOk : first.answer.result =
      .answered (.ok (some ⟨pairedCluster.freshName.1, [⟨1⟩, ⟨2⟩], true⟩)) := by
    rw [carriedOut.answer, isTable, isField]
    exact result_of_agreement? (by decide +kernel)
  have repeats := keepsTwice.repeats
  rw [answered] at repeats
  have isSameKey : second.key? = first.key? := by
    rw [CallRecord.key?, CallRecord.key?, isTable, isField, isSameTable, isSameField]
  rcases (List.pairwise_cons.mp repeats).1 first List.mem_cons_self _ isOk isSameKey with
    ⟨noRequests, _, isAgain⟩
  have sameCount : twice.cluster.coordinator.triggered = once.cluster.coordinator.triggered := by
    rw [keepsTwice.counts, keepsOnce.counts]
    simp only [requestCount, carriedOut.idle, carriedOutAgain.idle, carriedOutAgain.answered,
      total_cons, noRequests, List.length_nil, Nat.zero_add]
  have isOne : once.cluster.coordinator.triggered = 1 := by
    rw [isOnce]
    decide +kernel
  exact ⟨twice, _, first, second, reaches, answered, isOk, rfl, rfl, isAgain, noRequests,
    sameCount.trans isOne⟩

/-! ## Second attempts -/

/-- A store that keeps the last table that it was offered. -/
def lastTableStore : KeyedStore (Option FlattenedTable) where
  load _ content source flattenBy firstRows :=
    .ok (content.filter fun table =>
      table.source = source ∧ table.flattenBy = flattenBy ∧ table.originalFirstRows = firstRows)
  offer _ _ table := (.ok (), some table)
  isKeyed := by
    intro now content source flattenBy firstRows found _ isFound
    simp only [Except.ok.injEq, Option.filter_eq_some_iff, decide_eq_true_eq] at isFound
    exact isFound.2

/-- A new node that holds a table of one row with one entry in an array, and has such a store. -/
def storingNode (id : Nat) (entry : OrderedMap String Column) :
    FlattenNode (Option FlattenedTable) where
  id := ⟨id⟩
  tables :=
    let lengths : Column := ⟨.long, .array #[1], [.constant 0 1 0]⟩
    [("t", ⟨"t", [⟨"t", 0, 1, entry ++ [("a[length]", lengths)]⟩], .loaded⟩)]
  cache := { settings := {}, registry := .empty 2 8 none }
  store := some lastTableStore
  content := none

/-- On the first node the entry has no array of its own, so that it cannot flatten the table by
`a[*].b[*]`. -/
def storingCluster : Cluster (Option FlattenedTable) where
  coordinator := { id := ⟨9⟩, settings := {} }
  members := [
    (⟨1⟩, .service (storingNode 1 [("a[0].b", ⟨.long, .array #[1], [.constant 0 1 0]⟩)]) false),
    (⟨2⟩, .service (storingNode 2 [
      ("a[0].b[0]", ⟨.long, .array #[1], [.constant 0 1 0]⟩),
      ("a[0].b[length]", ⟨.long, .array #[1], [.constant 0 1 0]⟩)]) false)]
  serving := [("t", [⟨1⟩, ⟨2⟩])]

/-- One step of the first worker of a node. -/
def workOnce (cluster : Cluster σ) (id : NodeId) : Cluster σ :=
  match cluster.service? id with
  | some node => cluster.work id node 0
  | none => cluster

/-- A node sees in its store what another one has put there. -/
def shareStore (cluster : Cluster σ) (giver taker : NodeId) : Cluster σ :=
  match cluster.service? giver, cluster.service? taker with
  | some node, some other => cluster.changeStore taker other node.content
  | _, _ => cluster

/-- Two calls, while the two nodes share their store.  The first call fails on the first node, and
the second node has then stored its table, but not yet reported. -/
def sharedStoreRun : CallAnswer × List CallAnswer × Cluster (Option FlattenedTable) :=
  let (failed, cluster) :=
    (storingCluster.hold true ⟨2⟩).ensureFlattened "t" "a[*].b[*]"
  let stored := workOnce (workOnce cluster ⟨2⟩) ⟨2⟩
  (failed, (shareStore stored ⟨2⟩ ⟨1⟩).ensureTogether 1 "t" "a[*].b[*]")

/-- One call, after somebody else has sent a request to the second node. -/
def otherClientRun : List CallAnswer × Cluster Directory :=
  let (_, cluster) := (pairedCluster.hold true ⟨2⟩).trigger ⟨.ofNat 5, "t", "a[*]", []⟩ ⟨2⟩
  cluster.ensureTogether 1 "t" "a[*]"

/-- A call that makes a request can succeed with another one, in its second attempt: one node finds
a table in its store and gives it the name of the first request, while the other node, to whose
worker this request is attached, reports an earlier name.  So it is if they share a store, and if
somebody else has requested the same. -/
theorem agreement_can_take_two_attempts :
    sharedStoreRun.1.phases = [.probing, .triggering, .waiting, .failed] ∧
    sharedStoreRun.2.1.map CallAnswer.phases =
      [[.probing, .triggering, .waiting, .probing, .triggering, .waiting, .done]] ∧
    sharedStoreRun.2.1.map agreement? = [some ⟨Cluster.nameAt 2, [⟨1⟩, ⟨2⟩], true⟩] ∧
    sharedStoreRun.2.2.coordinator.disagreements = 1 ∧
    otherClientRun.1.map CallAnswer.phases =
      [[.probing, .triggering, .waiting, .probing, .triggering, .waiting, .done]] ∧
    otherClientRun.1.map agreement? = [some ⟨Cluster.nameAt 1, [⟨1⟩, ⟨2⟩], true⟩] ∧
    otherClientRun.2.coordinator.disagreements = 1 := by
  decide +kernel

end Course

end Unnest
