import Unnest.Cluster.Request
import Unnest.Settings

/-!
# Waiting for the reports of nodes

A coordinator remembers each request that it waits for: which nodes have not reported, which
flattening the others have, and what went wrong.  A report for any other request is ignored.  A look
at a request gives its `Verdict`.
-/

namespace Unnest

/-- A request that is waited for. -/
structure AwaitedRequest where
  /-- The nodes that have not reported. -/
  pending : List NodeId
  /-- The latest flattening of each node that has one. -/
  results : OrderedMap NodeId FlattenId := []
  /-- The failures in the order they were reported. -/
  failures : List (NodeId × String) := []
deriving DecidableEq, Repr, Inhabited

/-- What is known about a request. -/
inductive Verdict where
  /-- Some node has failed. -/
  | failed (failures : List (NodeId × String))
  /-- Every node has reported. -/
  | complete (results : OrderedMap NodeId FlattenId)
  /-- The time is over. -/
  | expired
  /-- Reports are missing. -/
  | undecided
deriving DecidableEq, Repr, Inhabited

namespace AwaitedRequest

/-- Note a report. -/
def record (awaited : AwaitedRequest) (report : Report) : AwaitedRequest :=
  let pending := awaited.pending.filter (· != report.node)
  match report.result with
  | .flattened id =>
      { awaited with
        pending := pending
        results := OrderedMap.insert report.node id awaited.results }
  | .failed reason =>
      { awaited with
        pending := pending
        failures := awaited.failures ++ [(report.node, reason)] }

/-- What is known about a request, given whether the time is over. -/
def verdict (awaited : AwaitedRequest) (isOver : Bool) : Verdict :=
  if !awaited.failures.isEmpty then .failed awaited.failures
  else if awaited.pending.isEmpty then .complete awaited.results
  else if isOver then .expired
  else .undecided

end AwaitedRequest

/-- The requests that are waited for, and what has happened so far. -/
structure Coordinator where
  id : NodeId
  settings : ClusterSettings
  awaited : OrderedMap RequestId AwaitedRequest := []
  /-- How many requests were made. -/
  triggered : Nat := 0
  /-- How many attempts were given up because of a connection. -/
  retries : Nat := 0
  /-- How many times the nodes had different flattenings. -/
  disagreements : Nat := 0
deriving DecidableEq, Repr, Inhabited

namespace Coordinator

/-- Wait for the reports of nodes. -/
def openRequest (coordinator : Coordinator) (request : RequestId) (nodes : List NodeId) :
    Coordinator :=
  { coordinator with
    awaited := OrderedMap.insert request { pending := nodes } coordinator.awaited
    triggered := coordinator.triggered + 1 }

/-- Wait no longer. -/
def closeRequest (coordinator : Coordinator) (request : RequestId) : Coordinator :=
  { coordinator with awaited := OrderedMap.erase request coordinator.awaited }

/-- Note a report if its request is waited for. -/
def receive (coordinator : Coordinator) (report : Report) : Coordinator :=
  match OrderedMap.find? report.request coordinator.awaited with
  | none => coordinator
  | some awaited =>
      { coordinator with
        awaited := OrderedMap.insert report.request (awaited.record report) coordinator.awaited }

/-- What is known about a request. -/
def verdict (coordinator : Coordinator) (request : RequestId) (isOver : Bool) : Verdict :=
  match OrderedMap.find? request coordinator.awaited with
  | none => .undecided
  | some awaited => awaited.verdict isOver

end Coordinator

end Unnest
