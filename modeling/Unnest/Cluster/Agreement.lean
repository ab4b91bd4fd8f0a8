import Unnest.Cluster.Coordinator
import Unnest.Total

/-!
# Making nodes agree on one flattening

All nodes that serve a table are to hold a flattening of it under one name.  A `Call` tries to bring
this about in attempts.  An attempt asks the nodes which flattening they have; if it is the same one
everywhere, that is all.  Otherwise it requests a new one and waits for the reports.  A lost
connection or reports of different names lead to another attempt, until the time is over.  A call
that two of its nodes break down on breaks down itself.

A call goes from stage to stage by what it is told: the time, the replies of nodes, and the reports
that the coordinator receives meanwhile.  These are the `CallEvent`s; `CallState.step` says what
each of them does.  Every list of events is a possible course of things.
-/

namespace Unnest

/-- What a call is doing, or how it ended. -/
inductive Phase where
  | probing
  | agreed
  | triggering
  | waiting
  | done
  | failed
  | timedOut
deriving DecidableEq, Repr, Inhabited

def Phase.name : Phase → String
  | .probing => "PROBING"
  | .agreed => "AGREED"
  | .triggering => "TRIGGERING"
  | .waiting => "WAITING"
  | .done => "DONE"
  | .failed => "FAILED"
  | .timedOut => "TIMED_OUT"

/-- A flattening that every node holds under the same name. -/
structure Agreement where
  id : FlattenId
  nodes : List NodeId
  /-- It was requested by the call. -/
  isNew : Bool
deriving DecidableEq, Repr, Inhabited

/-- How far a call is. -/
inductive CallStage where
  /-- The next attempt may begin. -/
  | starting
  /-- The next attempt may begin after a pause. -/
  | pausing
  /-- The nodes are being asked which flattening they have. -/
  | probing
  /-- The nodes are being sent a request. -/
  | triggering (request : RequestId)
  /-- The reports on a request are awaited. -/
  | waiting (request : RequestId)
  /-- The call has come to an outcome, or it broke down. -/
  | ended (reply : Reply Agreement)
deriving Inhabited

/-- An attempt, or several, to make the nodes that serve a table agree.  Times are in
microseconds. -/
structure Call where
  table : String
  flattenBy : String
  nodes : List NodeId
  startedAt : Nat
  deadline : Nat
  stage : CallStage := .starting
  /-- The phases so far. -/
  phases : List Phase := []
deriving Inhabited

/-- What a call is told. -/
inductive CallEvent where
  /-- The time at which an attempt may begin. -/
  | clock (now : Nat)
  /-- The flattenings that the nodes have, and an unused name for a request. -/
  | probed (replies : List (Reply (Option FlattenId))) (fresh : RequestId)
  /-- Whether the nodes have accepted the request. -/
  | triggered (replies : List (Reply Unit))
  /-- The time at which the call looks for reports. -/
  | looked (now : Nat)
  /-- A report that reaches the coordinator. -/
  | reported (report : Report)

namespace Call

/-- The name that all nodes gave, if they gave the same one. -/
def commonId? (ids : List (Option FlattenId)) : Option FlattenId :=
  match ids with
  | [] => none
  | first :: rest => if rest.all (· == first) then first else none

/-- Go on to a stage. -/
def enter (call : Call) (stage : CallStage) (phases : List Phase) : Call :=
  { call with stage := stage, phases := call.phases ++ phases }

/-- The call has an agreement. -/
def finish (call : Call) (id : FlattenId) (isNew : Bool) : Call :=
  call.enter (.ended (.answered (.ok ⟨id, call.nodes, isNew⟩))) [if isNew then .done else .agreed]

/-- The call gives up. -/
def fail (call : Call) (cause : Error) : Call :=
  call.enter (.ended (.answered (.error cause))) [.failed]

/-- The time is over. -/
def expire (call : Call) (now : Nat) : Call :=
  call.enter
    (.ended (.answered
      (.error (.timeout call.table call.flattenBy ((now - call.startedAt) / 1000)))))
    [.timedOut]

/-- The call breaks down where it is. -/
def breakDown (call : Call) : Call :=
  call.enter (.ended .crashed) []

end Call

/-- A call and the coordinator that makes it. -/
structure CallState where
  call : Call
  coordinator : Coordinator
deriving Inhabited

namespace CallState

/-- The attempt met an error: a lost connection leads to another attempt, any other error ends the
call. -/
def refuse (state : CallState) (cause : Error) : CallState :=
  if cause.isUnreachable then
    { call := state.call.enter .pausing []
      coordinator := { state.coordinator with retries := state.coordinator.retries + 1 } }
  else
    { state with call := state.call.fail cause }

/-- Begin an attempt, unless the time is over. -/
def start (state : CallState) (now : Nat) : CallState :=
  if state.call.deadline ≤ now then
    { state with call := state.call.expire now }
  else
    { state with call := state.call.enter .probing [.probing] }

/-- All nodes have been asked which flattening they have. -/
def judgeProbes (state : CallState) (replies : List (Reply (Option FlattenId)))
    (fresh : RequestId) : CallState :=
  match Reply.gather "E-COORD-001" replies with
  | .crashed => { state with call := state.call.breakDown }
  | .answered (.error cause) => state.refuse cause
  | .answered (.ok ids) =>
      match Call.commonId? ids with
      | some id => { state with call := state.call.finish id false }
      | none =>
          { call := state.call.enter (.triggering fresh) [.triggering]
            coordinator := state.coordinator.openRequest fresh state.call.nodes }

/-- All nodes have been sent the request.  A call that breaks down leaves its request behind. -/
def judgeTriggers (state : CallState) (request : RequestId) (replies : List (Reply Unit)) :
    CallState :=
  match Reply.gather "E-COORD-002" replies with
  | .crashed => { state with call := state.call.breakDown }
  | .answered (.error cause) =>
      { state with coordinator := state.coordinator.closeRequest request }.refuse cause
  | .answered (.ok _) => { state with call := state.call.enter (.waiting request) [.waiting] }

/-- All nodes have reported the names of their flattenings. -/
def judgeResults (state : CallState) (results : OrderedMap NodeId FlattenId) : CallState :=
  match Call.commonId? (results.map fun (_, id) => some id) with
  | some id => { state with call := state.call.finish id true }
  | none =>
      { call := state.call.enter .starting []
        coordinator :=
          { state.coordinator with disagreements := state.coordinator.disagreements + 1 } }

/-- Look for the reports on a request. -/
def look (state : CallState) (request : RequestId) (now : Nat) : CallState :=
  let closed := { state with coordinator := state.coordinator.closeRequest request }
  match state.coordinator.verdict request (state.call.deadline ≤ now) with
  | .undecided => state
  | .failed failures =>
      { closed with call := state.call.fail (.remoteFailure request failures) }
  | .expired => { closed with call := state.call.expire now }
  | .complete results => closed.judgeResults results

/-- What an event does.  An event that does not belong to the stage of the call does nothing. -/
def step (state : CallState) (event : CallEvent) : CallState :=
  match event, state.call.stage with
  | .reported report, _ =>
      { state with coordinator := state.coordinator.receive report }
  | .clock now, .starting => state.start now
  | .clock now, .pausing => state.start now
  | .probed replies fresh, .probing => state.judgeProbes replies fresh
  | .triggered replies, .triggering request => state.judgeTriggers request replies
  | .looked now, .waiting request => state.look request now
  | _, _ => state

/-- What a list of events does. -/
def run (state : CallState) (events : List CallEvent) : CallState :=
  events.foldl step state

end CallState

/-- What the caller gets. -/
structure CallAnswer where
  /-- The agreement; there is none if no node serves the table. -/
  result : Reply (Option Agreement)
  phases : List Phase := []
  counters : Counters := []
deriving Inhabited

namespace CallAnswer

/-- The counter of the outcomes of calls. -/
def outcomeCounters (outcome : String) : Counters :=
  Counters.raiseEach "strata_cluster_flatten_total" "outcome" [outcome] []

/-- How the outcome of a call is counted. -/
def outcomeName : Outcome Agreement → String
  | .ok agreement => if agreement.isNew then "flattened" else "agreed"
  | .error (.timeout ..) => "timeout"
  | .error _ => "failed"

/-- No node serves the table. -/
def noNodes : CallAnswer :=
  { result := .answered (.ok none), counters := outcomeCounters "no_nodes" }

/-- The answer of a call that has come to an outcome. -/
def ofOutcome (call : Call) (outcome : Outcome Agreement) : CallAnswer where
  result := .answered (outcome.map some)
  phases := call.phases
  counters := outcomeCounters (outcomeName outcome)

/-- What is left of a call that broke down, of which no outcome is counted. -/
def brokenDown (call : Call) : CallAnswer where
  result := .crashed
  phases := call.phases

end CallAnswer

end Unnest
