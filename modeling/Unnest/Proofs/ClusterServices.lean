import Unnest.Cluster
import Unnest.Proofs.NodeAnswers

/-!
# A cluster whose nodes work for its coordinator

What the nodes of a cluster list changes only for what they were asked for, and not at all where
nothing is being computed (`Cluster.GoesOn`).  So a table and field rests if no node is busy with
it, but also if a node has failed, as long as nothing new is requested (`Cluster.Rests`).  A cluster
is in order if no connection fails, no node has gone, and all that its nodes do goes back to what
the coordinator has asked (`Cluster.IsOrderly`).
-/

namespace Unnest

variable {σ : Type}

namespace Cluster

/-! ## What nodes list -/

/-- The node with an id, if it is one that flattens its tables. -/
def service? (cluster : Cluster σ) (id : NodeId) : Option (FlattenNode σ) :=
  match OrderedMap.find? id cluster.members with
  | some (.service node _) => some node
  | _ => none

def listed? (cluster : Cluster σ) (id : NodeId) (key : FlattenKey) : Option FlattenId :=
  (cluster.service? id).bind fun node => node.listed? key

def CanFlatten (cluster : Cluster σ) (id : NodeId) (key : FlattenKey) : Prop :=
  ∃ node, cluster.service? id = some node ∧ node.CanFlatten key

/-- All nodes that serve the table can flatten it. -/
def CanAgree (cluster : Cluster σ) (key : FlattenKey) : Prop :=
  ∀ id ∈ cluster.servingNodes key.source, cluster.CanFlatten id key

/-- All nodes that serve the table list it under one name. -/
def AllList (cluster : Cluster σ) (key : FlattenKey) (name : FlattenId) : Prop :=
  ∀ id ∈ cluster.servingNodes key.source, cluster.listed? id key = some name

/-- A node still has to report on a request. -/
def Owes (cluster : Cluster σ) (id : NodeId) (request : RequestId) : Prop :=
  ∃ node, cluster.service? id = some node ∧ node.Owes request cluster.coordinator.id

/-- The node computes nothing for the key. -/
def IsQuietAt (cluster : Cluster σ) (key : FlattenKey) (id : NodeId) : Prop :=
  ∀ node, cluster.service? id = some node → node.IsQuiet key

/-- No node that serves the table computes anything for the key. -/
def IsQuiet (cluster : Cluster σ) (key : FlattenKey) : Prop :=
  ∀ id ∈ cluster.servingNodes key.source, cluster.IsQuietAt key id

/-- A node has failed, and does not try it again. -/
def IsBlocked (cluster : Cluster σ) (id : NodeId) (key : FlattenKey) : Prop :=
  ∃ node reason, cluster.service? id = some node ∧ node.IsSettled key (.failed reason)

/-- Whatever is still being computed for the key, the nodes will not come to list one name. -/
def Rests (cluster : Cluster σ) (key : FlattenKey) : Prop :=
  cluster.IsQuiet key ∨ ∃ id ∈ cluster.servingNodes key.source, cluster.IsBlocked id key

/-- A node lists a flattening that it cannot compute: it has found it in its store. -/
def ListsForeign (cluster : Cluster σ) (key : FlattenKey) : Prop :=
  ∃ id ∈ cluster.servingNodes key.source, cluster.listed? id key ≠ none ∧
    ¬ cluster.CanFlatten id key

/-- The request is the latest one for its key at a node. -/
def Handles (cluster : Cluster σ) (id : NodeId) (key : FlattenKey) (request : RequestId)
    (isAlone : Prop) : Prop :=
  ∀ node, cluster.service? id = some node → node.Handles key request isAlone

/-- A node has come to what it answers to a request. -/
def Answers (cluster : Cluster σ) (id : NodeId) (key : FlattenKey) (request : RequestId)
    (isAlone : Prop) (result : NodeResult) : Prop :=
  ∃ node, cluster.service? id = some node ∧ node.Answers key request isAlone result

/-- The node has no workers, if it is there at all. -/
def IsIdle (cluster : Cluster σ) (id : NodeId) : Prop :=
  ∀ node, cluster.service? id = some node → node.workers = []

theorem service?_of_find? {cluster : Cluster σ} {id : NodeId} {node : FlattenNode σ} {isHeld : Bool}
    (isNode : OrderedMap.find? id cluster.members = some (.service node isHeld)) :
    cluster.service? id = some node := by
  rw [service?, isNode]

theorem service?_setMember (cluster : Cluster σ) (id other : NodeId) (node : FlattenNode σ)
    (isHeld : Bool) :
    (cluster.setMember id (.service node isHeld)).service? other =
      if other = id then some node else cluster.service? other := by
  by_cases same : other = id
  · rw [if_pos same, same, service?, setMember, OrderedMap.find?_insert_self]
  · rw [if_neg same, service?, setMember, OrderedMap.find?_insert_of_ne same]
    rfl

theorem service?_of_members {before after : Cluster σ} (members : after.members = before.members)
    (id : NodeId) : after.service? id = before.service? id := by
  rw [service?, service?, members]

section GoesOn

variable {asked more : List (RequestId × FlattenKey)} {requested : Option FlattenKey}
  {before after : Cluster σ} {id : NodeId} {key : FlattenKey}

/-- Between two moments of a cluster only flattenings that were asked for came to be listed. -/
structure GoesOn (asked : List (RequestId × FlattenKey)) (requested : Option FlattenKey)
    (before after : Cluster σ) : Prop where
  coordinator : after.coordinator.id = before.coordinator.id
  serving : after.serving = before.serving
  services : ∀ id node, before.service? id = some node →
    ∃ later, after.service? id = some later ∧ node.GoesOn asked requested later
  absent : ∀ id, before.service? id = none → after.service? id = none

theorem GoesOn.of_members (coordinator : after.coordinator.id = before.coordinator.id)
    (serving : after.serving = before.serving) (members : after.members = before.members) :
    before.GoesOn asked requested after where
  coordinator := coordinator
  serving := serving
  services := fun id node isService =>
    ⟨node, (service?_of_members members id).trans isService, .refl node⟩
  absent := fun id isAbsent => (service?_of_members members id).trans isAbsent

theorem GoesOn.servingNodes (goesOn : before.GoesOn asked requested after) (table : String) :
    after.servingNodes table = before.servingNodes table := by
  rw [Cluster.servingNodes, Cluster.servingNodes, goesOn.serving]

theorem GoesOn.isService (goesOn : before.GoesOn asked requested after)
    (isService : before.service? id ≠ none) : after.service? id ≠ none := by
  rcases Option.ne_none_iff_exists'.mp isService with ⟨node, isNode⟩
  rcases goesOn.services id node isNode with ⟨later, isLater, _⟩
  rw [isLater]
  exact Option.some_ne_none later

/-- A node that is there now was there before. -/
theorem GoesOn.exists_service (goesOn : before.GoesOn asked requested after)
    {later : FlattenNode σ} (isLater : after.service? id = some later) :
    ∃ node, before.service? id = some node ∧ node.GoesOn asked requested later := by
  cases isService : before.service? id with
  | none =>
      rw [goesOn.absent id isService] at isLater
      cases isLater
  | some node =>
      rcases goesOn.services id node isService with ⟨other, isOther, nodeGoesOn⟩
      rw [isOther] at isLater
      cases isLater
      exact ⟨node, rfl, nodeGoesOn⟩

theorem GoesOn.canFlatten_iff (goesOn : before.GoesOn asked requested after) (id : NodeId)
    (key : FlattenKey) : after.CanFlatten id key ↔ before.CanFlatten id key := by
  cases isService : before.service? id with
  | none => simp [CanFlatten, isService, goesOn.absent id isService]
  | some node =>
      rcases goesOn.services id node isService with ⟨later, isLater, nodeGoesOn⟩
      simp [CanFlatten, isService, isLater, nodeGoesOn.canFlatten_iff key]

theorem GoesOn.canAgree_iff (goesOn : before.GoesOn asked requested after) (key : FlattenKey) :
    after.CanAgree key ↔ before.CanAgree key := by
  simp only [CanAgree, goesOn.servingNodes, goesOn.canFlatten_iff]

/-- What a node lists is never taken away. -/
theorem GoesOn.listed?_ne_none (goesOn : before.GoesOn asked requested after)
    (isListed : before.listed? id key ≠ none) : after.listed? id key ≠ none := by
  cases isService : before.service? id with
  | none =>
      rw [listed?, isService] at isListed
      exact absurd rfl isListed
  | some node =>
      rcases goesOn.services id node isService with ⟨later, isLater, nodeGoesOn⟩
      rw [listed?, isService, Option.bind_some] at isListed
      rw [listed?, isLater, Option.bind_some]
      rcases nodeGoesOn.lists key with same | ⟨request, _, isRequest⟩
      · rw [same]
        exact isListed
      · rw [isRequest]
        exact Option.some_ne_none request

theorem GoesOn.listsForeign (goesOn : before.GoesOn asked requested after)
    (foreign : before.ListsForeign key) : after.ListsForeign key := by
  rcases foreign with ⟨id, isServing, isListed, cannotFlatten⟩
  refine ⟨id, ?_, goesOn.listed?_ne_none isListed, fun canFlatten => ?_⟩
  · rw [goesOn.servingNodes]
    exact isServing
  · exact cannotFlatten ((goesOn.canFlatten_iff id key).mp canFlatten)

section Quiet

variable (goesOn : before.GoesOn asked requested after) (notRequested : requested ≠ some key)

include goesOn notRequested

theorem GoesOn.isQuiet (isQuiet : before.IsQuiet key) : after.IsQuiet key := by
  intro id isServing later isLater
  rw [goesOn.servingNodes] at isServing
  rcases goesOn.exists_service isLater with ⟨node, isService, nodeGoesOn⟩
  exact (nodeGoesOn.quiet key notRequested (isQuiet id isServing node isService)).1

theorem GoesOn.listed?_of_isQuiet (isQuiet : before.IsQuiet key)
    (isServing : id ∈ before.servingNodes key.source) :
    after.listed? id key = before.listed? id key := by
  cases isService : before.service? id with
  | none => rw [listed?, listed?, isService, goesOn.absent id isService]
  | some node =>
      rcases goesOn.services id node isService with ⟨later, isLater, nodeGoesOn⟩
      rw [listed?, listed?, isService, isLater, Option.bind_some, Option.bind_some]
      exact (nodeGoesOn.quiet key notRequested (isQuiet id isServing node isService)).2

theorem GoesOn.isBlocked (isBlocked : before.IsBlocked id key) : after.IsBlocked id key := by
  rcases isBlocked with ⟨node, reason, isService, settled⟩
  rcases goesOn.services id node isService with ⟨later, isLater, nodeGoesOn⟩
  exact ⟨later, reason, isLater, settled.goesOn nodeGoesOn notRequested⟩

theorem GoesOn.rests (rests : before.Rests key) : after.Rests key := by
  rcases rests with isQuiet | ⟨id, isServing, isBlocked⟩
  · exact Or.inl (goesOn.isQuiet notRequested isQuiet)
  · refine Or.inr ⟨id, ?_, goesOn.isBlocked notRequested isBlocked⟩
    rw [goesOn.servingNodes]
    exact isServing

/-- Nodes that agree on a name and compute nothing keep to it. -/
theorem GoesOn.allList {name : FlattenId} (isQuiet : before.IsQuiet key)
    (allList : before.AllList key name) : after.AllList key name := by
  intro id isServing
  rw [goesOn.servingNodes] at isServing
  exact (goesOn.listed?_of_isQuiet notRequested isQuiet isServing).trans (allList id isServing)

end Quiet

end GoesOn

/-! ## Order -/

section Order

variable {asked more : List (RequestId × FlattenKey)} {requested : Option FlattenKey}
  {cluster : Cluster σ} {id : NodeId} {node changed : FlattenNode σ}

/-- What was asked of a node: what is to be known of the tables that it serves. -/
def askedOf (cluster : Cluster σ) (asked : List (RequestId × FlattenKey)) (id : NodeId) :
    List (RequestId × FlattenKey) :=
  asked.filter fun entry => id ∈ cluster.servingNodes entry.2.source

theorem mem_askedOf {entry : RequestId × FlattenKey} :
    entry ∈ cluster.askedOf asked id ↔
      entry ∈ asked ∧ id ∈ cluster.servingNodes entry.2.source := by
  simp [askedOf]

theorem askedOf_subset (cluster : Cluster σ) (asked : List (RequestId × FlattenKey)) (id : NodeId) :
    cluster.askedOf asked id ⊆ asked :=
  fun _ isAsked => (mem_askedOf.mp isAsked).1

/-- Nothing fails, and all that nodes do goes back to what the coordinator has asked of them.  The
nodes that serve a table are a set. -/
structure IsOrderly (asked : List (RequestId × FlattenKey)) (cluster : Cluster σ) : Prop where
  distinct : ∀ table, (cluster.servingNodes table).Nodup
  cutOff : cluster.connections.cutOff = []
  failNext : cluster.connections.failNext = 0
  departed : cluster.departed = []
  awaited : OrderedMap.IsOrdered cluster.coordinator.awaited
  members : ∀ id member, OrderedMap.find? id cluster.members = some member →
    ∃ node : FlattenNode σ, member = .service node false ∧ node.id = id ∧ node.IsSteady ∧
      node.WorksFor (cluster.askedOf asked id) cluster.coordinator.id

theorem IsOrderly.mono (orderly : cluster.IsOrderly asked) (grows : asked ⊆ more) :
    cluster.IsOrderly more where
  distinct := orderly.distinct
  cutOff := orderly.cutOff
  failNext := orderly.failNext
  departed := orderly.departed
  awaited := orderly.awaited
  members := by
    intro id member isMember
    rcases orderly.members id member isMember with ⟨node, isService, sameId, steady, works⟩
    refine ⟨node, isService, sameId, steady, works.mono fun entry isAsked => ?_⟩
    rcases mem_askedOf.mp isAsked with ⟨isEntry, isServing⟩
    exact mem_askedOf.mpr ⟨grows isEntry, isServing⟩

/-- What is awaited, the time and the names that were given do not matter to the nodes. -/
theorem IsOrderly.of_members {after : Cluster σ} (orderly : cluster.IsOrderly asked)
    (connections : after.connections = cluster.connections)
    (departed : after.departed = cluster.departed) (serving : after.serving = cluster.serving)
    (coordinator : after.coordinator.id = cluster.coordinator.id)
    (awaited : OrderedMap.IsOrdered after.coordinator.awaited)
    (members : after.members = cluster.members) : after.IsOrderly asked where
  distinct := by
    intro table
    rw [servingNodes, serving]
    exact orderly.distinct table
  cutOff := connections ▸ orderly.cutOff
  failNext := connections ▸ orderly.failNext
  departed := departed ▸ orderly.departed
  awaited := awaited
  members := by
    intro id member isMember
    rw [members] at isMember
    rw [askedOf, coordinator]
    simp only [servingNodes, serving]
    exact orderly.members id member isMember

theorem IsOrderly.service (orderly : cluster.IsOrderly asked)
    (isService : cluster.service? id = some node) :
    OrderedMap.find? id cluster.members = some (.service node false) ∧ node.id = id ∧
      node.IsSteady ∧ node.WorksFor (cluster.askedOf asked id) cluster.coordinator.id := by
  rw [service?] at isService
  cases found : OrderedMap.find? id cluster.members with
  | none => simp [found] at isService
  | some member =>
      rcases orderly.members id member found with ⟨known, rfl, sameId, steady, works⟩
      simp only [found, Option.some.injEq] at isService
      subst isService
      exact ⟨rfl, sameId, steady, works⟩

theorem IsOrderly.not_owes (orderly : cluster.IsOrderly asked) (idle : cluster.IsIdle id)
    (request : RequestId) : ¬ cluster.Owes id request := by
  rintro ⟨node, isService, isOwed⟩
  rcases orderly.service isService with ⟨_, _, _, works⟩
  exact works.not_owes (idle node isService) request _ isOwed

theorem IsOrderly.setMember (orderly : cluster.IsOrderly asked)
    (isService : cluster.service? id = some node)
    (sameId : changed.id = node.id) (steady : changed.IsSteady)
    (works : changed.WorksFor (cluster.askedOf asked id) cluster.coordinator.id) :
    (cluster.setMember id (.service changed false)).IsOrderly asked := by
  refine ⟨orderly.distinct, orderly.cutOff, orderly.failNext, orderly.departed, orderly.awaited,
    ?_⟩
  intro other member isMember
  by_cases same : other = id
  · rw [same, Cluster.setMember, OrderedMap.find?_insert_self] at isMember
    cases isMember
    rw [same]
    exact ⟨changed, rfl, sameId.trans (orderly.service isService).2.1, steady, works⟩
  · rw [Cluster.setMember, OrderedMap.find?_insert_of_ne same] at isMember
    exact orderly.members other member isMember

/-- A node goes on in its place. -/
theorem GoesOn.setMember (isService : cluster.service? id = some node)
    (goesOn : node.GoesOn asked requested changed) :
    cluster.GoesOn asked requested (cluster.setMember id (.service changed false)) := by
  refine ⟨rfl, rfl, ?_, ?_⟩
  · intro other earlier isEarlier
    rw [service?_setMember]
    by_cases same : other = id
    · rw [same, isService] at isEarlier
      cases isEarlier
      exact ⟨changed, if_pos same, goesOn⟩
    · exact ⟨earlier, (if_neg same).trans isEarlier, .refl earlier⟩
  · intro other isAbsent
    rw [service?_setMember]
    by_cases same : other = id
    · rw [same, isService] at isAbsent
      cases isAbsent
    · rw [if_neg same, isAbsent]

end Order

end Cluster

end Unnest
