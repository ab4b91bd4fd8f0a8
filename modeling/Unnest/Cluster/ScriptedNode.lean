import Unnest.Cluster.Node
import Unnest.Error

/-!
# Nodes that act by a script

A scripted node answers each call as its script says, whatever it is asked about.  The last line of
a script is repeated.  Such nodes stand for everything that a coordinator may meet, without any
tables.

Nodes are reached over connections.  To see how the rest copes, the connections to some nodes can be
cut, and a number of connections can be made to fail wherever they lead.
-/

namespace Unnest

/-- How a scripted call fails. -/
inductive ScriptedFault where
  | unreachable
  | crash
  | internal (reason : String)
deriving DecidableEq, Repr, Inhabited

/-- A scripted answer to the question for a fitting flattening. -/
inductive ScriptedProbe where
  | answer (id : Option FlattenId)
  /-- The flattening that was reported last. -/
  | lastReported
  | fault (fault : ScriptedFault)
deriving DecidableEq, Repr, Inhabited

/-- A scripted reaction to a request. -/
inductive ScriptedFlatten where
  /-- The request is accepted, and nothing is ever reported. -/
  | silence
  /-- A flattening with the name of the request is reported. -/
  | asRequested
  | flattened (id : FlattenId)
  | failed (reason : String)
  | fault (fault : ScriptedFault)
deriving DecidableEq, Repr, Inhabited

/-- A node that acts by a script. -/
structure ScriptedNode where
  id : NodeId
  probes : List ScriptedProbe
  flattens : List ScriptedFlatten
  probeCount : Nat := 0
  flattenCount : Nat := 0
  lastReported : Option FlattenId := none
deriving DecidableEq, Repr, Inhabited

namespace ScriptedNode

/-- The line of a script for a call; the last line is repeated. -/
def line {α : Type} (script : List α) (calls : Nat) : Option α :=
  script[min calls (script.length - 1)]?

/-- What a scripted fault looks like from outside. -/
def faultReply {α : Type} (node : ScriptedNode) : ScriptedFault → Reply α
  | .unreachable => .answered (.error (.unreachable node.id "scripted"))
  | .crash => .crashed
  | .internal reason => .answered (.error (.internal ("scripted " ++ reason)))

/-- Answer the question for a fitting flattening. -/
def probe (node : ScriptedNode) : Reply (Option FlattenId) × ScriptedNode :=
  let asked := { node with probeCount := node.probeCount + 1 }
  match line node.probes node.probeCount with
  | none => (.answered (.ok none), asked)
  | some (.answer id) => (.answered (.ok id), asked)
  | some .lastReported => (.answered (.ok node.lastReported), asked)
  | some (.fault fault) => (node.faultReply fault, asked)

/-- The same result for every node that a request names. -/
def reportToAll (node : ScriptedNode) (request : FlattenRequest) (result : NodeResult) :
    List Delivery :=
  request.notify.map fun target => ⟨target, ⟨request.id, node.id, result⟩⟩

/-- React to a request, with the reports that are sent before the call returns. -/
def flatten (node : ScriptedNode) (request : FlattenRequest) :
    Reply Unit × List Delivery × ScriptedNode :=
  let asked := { node with flattenCount := node.flattenCount + 1 }
  let report (id : FlattenId) : Reply Unit × List Delivery × ScriptedNode :=
    (.answered (.ok ()), node.reportToAll request (.flattened id),
      { asked with lastReported := some id })
  match line node.flattens node.flattenCount with
  | none => (.answered (.ok ()), [], asked)
  | some .silence => (.answered (.ok ()), [], asked)
  | some .asRequested => report request.id
  | some (.flattened id) => report id
  | some (.failed reason) =>
      (.answered (.ok ()), node.reportToAll request (.failed reason), asked)
  | some (.fault fault) => (node.faultReply fault, [], asked)

end ScriptedNode

/-! ## Connections that fail -/

/-- Which connections fail, and how many have failed so far. -/
structure Connections where
  /-- The nodes that are cut off. -/
  cutOff : List NodeId := []
  /-- How many of the next connections fail. -/
  failNext : Nat := 0
  /-- How many connections failed. -/
  failed : Nat := 0
deriving DecidableEq, Repr, Inhabited

namespace Connections

/-- Cut a node off. -/
def disconnect (connections : Connections) (node : NodeId) : Connections :=
  { connections with cutOff := node :: connections.cutOff }

/-- Let a node be reached again. -/
def reconnect (connections : Connections) (node : NodeId) : Connections :=
  { connections with cutOff := connections.cutOff.filter (· != node) }

/-- Connect to a node.  A node that is cut off uses up none of the failures to come. -/
def connect (connections : Connections) (node : NodeId) : Outcome Unit × Connections :=
  if node ∈ connections.cutOff then
    (.error (.unreachable node "node disconnected"),
      { connections with failed := connections.failed + 1 })
  else
    match connections.failNext with
    | 0 => (.ok (), connections)
    | left + 1 =>
        (.error (.unreachable node "injected connection failure"),
          { connections with failNext := left, failed := connections.failed + 1 })

end Connections

end Unnest
