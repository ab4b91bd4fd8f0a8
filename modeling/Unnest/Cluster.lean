import Unnest.Cluster.Agreement
import Unnest.Cluster.ScriptedNode

/-!
# A cluster

A cluster is a coordinator, the nodes it can call, and the recorders that only keep the reports they
are sent.  Time passes where nothing else can happen: a call that waits for a report that never
comes waits until its deadline.

A call is carried out by telling it what the nodes reply, as in `Unnest.Cluster.Agreement`; the
nodes run until nothing is left to do whenever the coordinator has asked all of them.  A node can
hold its workers back: requests are then accepted and wait.
-/

namespace Unnest

/-- A node that can be called. -/
inductive Member (σ : Type) where
  /-- A node that flattens its tables, and whether it holds its workers back. -/
  | service (node : FlattenNode σ) (isHeld : Bool)
  | scripted (node : ScriptedNode)
deriving Inhabited

/-- Where a report arrives. -/
inductive ReportSink where
  | coordinator
  | recorder (received : List Report)
deriving Inhabited

/-- A cluster at some time.  The stores of its nodes have contents of type `σ`. -/
structure Cluster (σ : Type) where
  coordinator : Coordinator
  members : OrderedMap NodeId (Member σ) := []
  recorders : OrderedMap NodeId (List Report) := []
  /-- The nodes that have gone. -/
  departed : List NodeId := []
  connections : Connections := {}
  /-- The nodes that serve a table. -/
  serving : OrderedMap String (List NodeId) := []
  /-- The time in microseconds. -/
  now : Nat := 0
  /-- How many names have been given to requests. -/
  namesGiven : Nat := 0
deriving Inhabited

namespace Cluster

variable {σ : Type}

/-! ## Nodes -/

/-- The time in milliseconds. -/
def millis (cluster : Cluster σ) : Nat :=
  cluster.now / 1000

def servingNodes (cluster : Cluster σ) (table : String) : List NodeId :=
  (OrderedMap.find? table cluster.serving).getD []

def setMember (cluster : Cluster σ) (id : NodeId) (member : Member σ) : Cluster σ :=
  { cluster with members := OrderedMap.insert id member cluster.members }

/-- The node with an id, unless it has gone. -/
def member? (cluster : Cluster σ) (id : NodeId) : Outcome (Member σ) :=
  match OrderedMap.find? id cluster.members with
  | none => .error (.unknownNode id)
  | some member =>
      if id ∈ cluster.departed then .error (.unreachable id "node shut down") else .ok member

/-- Where the reports to a node arrive. -/
def sink? (cluster : Cluster σ) (id : NodeId) : Outcome ReportSink :=
  if id = cluster.coordinator.id then .ok .coordinator
  else
    match OrderedMap.find? id cluster.recorders with
    | none => .error (.unknownNode id)
    | some received =>
        if id ∈ cluster.departed then .error (.unreachable id "node shut down")
        else .ok (.recorder received)

/-- Connect to a node. -/
def connect (cluster : Cluster σ) (id : NodeId) : Outcome (Member σ) × Cluster σ :=
  let (connected, connections) := cluster.connections.connect id
  let cluster := { cluster with connections := connections }
  match connected with
  | .error cause => (.error cause, cluster)
  | .ok () => (cluster.member? id, cluster)

/-- Change the tables of a node, or whether it holds its workers back. -/
def changeService (cluster : Cluster σ) (id : NodeId)
    (change : FlattenNode σ → Bool → FlattenNode σ × Bool) : Cluster σ :=
  match OrderedMap.find? id cluster.members with
  | some (.service node isHeld) =>
      let (node, isHeld) := change node isHeld
      cluster.setMember id (.service node isHeld)
  | _ => cluster

/-- Hold the workers of a node back, or let them run. -/
def hold (cluster : Cluster σ) (isHeld : Bool) (id : NodeId) : Cluster σ :=
  cluster.changeService id fun node _ => (node, isHeld)

/-- A node goes away. -/
def depart (cluster : Cluster σ) (id : NodeId) : Cluster σ :=
  { cluster with departed := id :: cluster.departed }

/-! ## Reports -/

/-- Bring a report to its target.  A report that has nowhere to go is dropped. -/
def deliver (cluster : Cluster σ) (delivery : Delivery) : Cluster σ :=
  match cluster.sink? delivery.target with
  | .error _ => cluster
  | .ok .coordinator =>
      { cluster with coordinator := cluster.coordinator.receive delivery.report }
  | .ok (.recorder received) =>
      { cluster with
        recorders :=
          OrderedMap.insert delivery.target (received ++ [delivery.report]) cluster.recorders }

def deliverAll (cluster : Cluster σ) (deliveries : List Delivery) : Cluster σ :=
  deliveries.foldl deliver cluster

/-- Let the workers of one node run until nothing is left to do. -/
def settleMember (cluster : Cluster σ) (id : NodeId) : Cluster σ :=
  match OrderedMap.find? id cluster.members with
  | some (.service node false) =>
      let (sent, node) := node.settle cluster.millis
      (cluster.setMember id (.service node false)).deliverAll sent
  | _ => cluster

/-- Let all workers run that are not held back. -/
def settle (cluster : Cluster σ) : Cluster σ :=
  (OrderedMap.keys cluster.members).foldl settleMember cluster

/-! ## Calling nodes -/

/-- Ask a node which flattening it has. -/
def probe (cluster : Cluster σ) (table flattenBy : String) (id : NodeId) :
    Reply (Option FlattenId) × Cluster σ :=
  match cluster.connect id with
  | (.error cause, cluster) => (.answered (.error cause), cluster)
  | (.ok (.service node isHeld), cluster) =>
      let (found, node) := node.validId? cluster.millis table flattenBy
      (.answered (.ok found), cluster.setMember id (.service node isHeld))
  | (.ok (.scripted node), cluster) =>
      let (reply, node) := node.probe
      (reply, cluster.setMember id (.scripted node))

/-- Hand a request to a node. -/
def submit (cluster : Cluster σ) (request : FlattenRequest) (id : NodeId) (member : Member σ) :
    Reply Unit × Cluster σ :=
  match member with
  | .service node isHeld =>
      (.answered (.ok ()), cluster.setMember id (.service (node.accept request) isHeld))
  | .scripted node =>
      let (reply, sent, node) := node.flatten request
      (reply, (cluster.setMember id (.scripted node)).deliverAll sent)

/-- Connect to a node and hand it a request. -/
def trigger (cluster : Cluster σ) (request : FlattenRequest) (id : NodeId) :
    Reply Unit × Cluster σ :=
  match cluster.connect id with
  | (.error cause, cluster) => (.answered (.error cause), cluster)
  | (.ok member, cluster) => cluster.submit request id member

/-- Call nodes in order, whatever they reply. -/
def callEach {α : Type} (ask : Cluster σ → NodeId → Reply α × Cluster σ) :
    List NodeId → Cluster σ → List (Reply α) × Cluster σ
  | [], cluster => ([], cluster)
  | id :: rest, cluster =>
      let (reply, cluster) := ask cluster id
      let (replies, cluster) := callEach ask rest cluster
      (reply :: replies, cluster)

/-! ## Calls of the coordinator -/

/-- Tell a call what happened. -/
def tell (event : CallEvent) (call : Call) (cluster : Cluster σ) : Call × Cluster σ :=
  let state := CallState.step ⟨call, cluster.coordinator⟩ event
  (state.call, { cluster with coordinator := state.coordinator })

/-- The name of the first request of a coordinator; the others follow. -/
def firstName : Nat := Nat.pow 2 127

/-- A name for a request that has not been given before. -/
def freshName (cluster : Cluster σ) : RequestId × Cluster σ :=
  (.ofNat (firstName + cluster.namesGiven),
    { cluster with namesGiven := cluster.namesGiven + 1 })

/-- Ask the nodes of a call which flattening they have. -/
def probeNodes (call : Call) (cluster : Cluster σ) : Call × Cluster σ :=
  let (replies, cluster) :=
    callEach (fun cluster id => cluster.probe call.table call.flattenBy id) call.nodes cluster
  let (fresh, cluster) := cluster.freshName
  cluster.tell (.probed replies fresh) call

/-- Send the request of a call to its nodes. -/
def triggerNodes (request : RequestId) (call : Call) (cluster : Cluster σ) : Call × Cluster σ :=
  let request : FlattenRequest :=
    { id := request
      table := call.table
      flattenBy := call.flattenBy
      notify := [cluster.coordinator.id] }
  let (replies, cluster) :=
    callEach (fun cluster id => cluster.trigger request id) call.nodes cluster
  cluster.tell (.triggered replies) call

/-- Let the nodes work, and look for their reports. -/
def look (call : Call) (cluster : Cluster σ) : Call × Cluster σ :=
  let cluster := cluster.settle
  cluster.tell (.looked cluster.now) call

/-- Let time pass until the deadline of a call, and look for reports a last time. -/
def lookAtDeadline (call : Call) (cluster : Cluster σ) : Call × Cluster σ :=
  look call { cluster with now := max cluster.now call.deadline }

/-- One attempt that begins at the given time. -/
def attempt (now : Nat) (call : Call) (cluster : Cluster σ) : Call × Cluster σ :=
  let (call, cluster) := { cluster with now := now }.tell (.clock now) call
  let (call, cluster) :=
    match call.stage with
    | .probing => cluster.probeNodes call
    | _ => (call, cluster)
  let (call, cluster) :=
    match call.stage with
    | .triggering request => cluster.triggerNodes request call
    | _ => (call, cluster)
  cluster.look call

/-- Make attempts until the call ends or waits for reports.  A pause ends at the deadline at the
latest, and any attempt takes some time. -/
def proceed (deadline backoff now : Nat) (call : Call) (cluster : Cluster σ) : Call × Cluster σ :=
  if deadline ≤ now then
    attempt now call cluster
  else
    let (call, cluster) := attempt now call cluster
    match call.stage with
    | .starting => proceed deadline backoff (now + 1) call cluster
    | .pausing => proceed deadline backoff (now + max 1 (min backoff (deadline - now))) call cluster
    | _ => (call, cluster)
termination_by deadline - now
decreasing_by all_goals omega

/-- Make attempts from now on until the call ends or waits for reports. -/
def goOn (call : Call) (cluster : Cluster σ) : Call × Cluster σ :=
  match call.stage with
  | .ended _ => (call, cluster)
  | .waiting _ => (call, cluster)
  | _ =>
      cluster.proceed call.deadline (cluster.coordinator.settings.backoffMillis * 1000) cluster.now
        call

/-- Carry a call that waits for reports on to its end. -/
def conclude (call : Call) (cluster : Cluster σ) : Call × Cluster σ :=
  let (call, cluster) := cluster.look call
  let (call, cluster) := cluster.goOn call
  match call.stage with
  | .waiting _ =>
      let (call, cluster) := cluster.lookAtDeadline call
      cluster.goOn call
  | _ => (call, cluster)

/-- A call that is about to begin; there is none if the field cannot be read or no node serves the
table. -/
def startCall (cluster : Cluster σ) (table flattenBy : String) : Except CallAnswer Call :=
  match readTarget flattenBy with
  | .error cause => .error { result := .answered (.error cause) }
  | .ok target =>
      match cluster.servingNodes table with
      | [] => .error .noNodes
      | nodes =>
          .ok
            { table := table
              flattenBy := target.toText
              nodes := nodes
              startedAt := cluster.now
              deadline := cluster.now + cluster.coordinator.settings.timeoutMillis * 1000 }

/-- The answer of a call; a call that has not ended has none. -/
def answerOf (call : Call) : CallAnswer :=
  match call.stage with
  | .ended (.answered outcome) => .ofOutcome call outcome
  | .ended .crashed => .brokenDown call
  | _ => { result := .answered (.error (.internal "the call has not ended")) }

/-- Make sure that all nodes that serve a table hold a flattening of it under one name. -/
def ensureFlattened (cluster : Cluster σ) (table flattenBy : String) : CallAnswer × Cluster σ :=
  match cluster.startCall table flattenBy with
  | .error answer => (answer, cluster)
  | .ok call =>
      let (call, cluster) := cluster.goOn call
      let (call, cluster) := cluster.conclude call
      (answerOf call, cluster)

/-- Begin calls one after the other, each when the ones before it have ended or wait. -/
def beginEach (table flattenBy : String) :
    Nat → Cluster σ → List (Except CallAnswer Call) × Cluster σ
  | 0, cluster => ([], cluster)
  | count + 1, cluster =>
      match cluster.startCall table flattenBy with
      | .error answer =>
          let (later, cluster) := beginEach table flattenBy count cluster
          (.error answer :: later, cluster)
      | .ok call =>
          let (call, cluster) := cluster.goOn call
          let (later, cluster) := beginEach table flattenBy count cluster
          (.ok call :: later, cluster)

/-- Carry calls to their end in the order they were begun. -/
def concludeEach :
    List (Except CallAnswer Call) → Cluster σ → List CallAnswer × Cluster σ
  | [], cluster => ([], cluster)
  | .error answer :: rest, cluster =>
      let (answers, cluster) := concludeEach rest cluster
      (answer :: answers, cluster)
  | .ok call :: rest, cluster =>
      let (call, cluster) := cluster.conclude call
      let (answers, cluster) := concludeEach rest cluster
      (answerOf call :: answers, cluster)

/-- Several calls for the same flattening at once.  The nodes hold their workers back until all
calls have been begun. -/
def ensureTogether (cluster : Cluster σ) (count : Nat) (table flattenBy : String) :
    List CallAnswer × Cluster σ :=
  let nodes := cluster.servingNodes table
  let (begun, cluster) := beginEach table flattenBy count (nodes.foldl (hold · true) cluster)
  concludeEach begun (nodes.foldl (hold · false) cluster)

end Cluster

end Unnest
