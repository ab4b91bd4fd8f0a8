import Unnest.Cache
import Unnest.Cluster.Request

/-!
# A node that flattens its tables

A node holds tables and a cache of their flattenings, which may have a store.  A request for
something that is not being computed starts a worker; any other request is attached to the worker
that is already computing it.  A worker takes the table as it is at that moment, flattens it, takes
the requests that are attached to it, and reports to each node that one of them names.

`accept` is what a request does, and `runWorker` is one step of one worker.  Any interleaving of the
two is a possible history.  `settle` is one of them: it runs the workers one after the other until
nothing is left to do.
-/

namespace Unnest

/-- A request that waits for a computation. -/
structure Waiter where
  request : RequestId
  notify : List NodeId
deriving DecidableEq, Repr, Inhabited

/-- How far a worker is. -/
inductive WorkerStage where
  | started
  /-- The table was looked up. -/
  | loaded (table : Option Table)
  /-- The computation is over. -/
  | computed (result : NodeResult)
  /-- The attached requests were taken, and some reports are left. -/
  | reporting (result : NodeResult) (remaining : List (RequestId × NodeId))
deriving Inhabited

/-- A computation for one or more requests. -/
structure Worker where
  key : FlattenKey
  /-- The request that started it, which names the result. -/
  request : RequestId
  stage : WorkerStage
deriving Inhabited

/-- A report on its way to a node. -/
structure Delivery where
  target : NodeId
  report : Report
deriving DecidableEq, Repr, Inhabited

/-- A node that flattens its tables.  Its cache may have a store, whose content is a value of type
`σ`. -/
structure FlattenNode (σ : Type) where
  id : NodeId
  tables : OrderedMap String Table := []
  cache : FlattenCache
  store : Option (KeyedStore σ) := none
  /-- What is in the store. -/
  content : σ
  /-- What is being computed, and the requests that wait for it. -/
  inFlight : OrderedMap FlattenKey (List Waiter) := []
  /-- The workers in the order they were started. -/
  workers : List Worker := []
  /-- How many computations were started. -/
  startedCount : Nat := 0
  /-- How many requests were attached to a computation. -/
  mergedCount : Nat := 0
deriving Inhabited

namespace FlattenNode

variable {σ : Type}

/-! ## Tables -/

/-- Hold a table, in the place of one with the same name. -/
def putTable (node : FlattenNode σ) (table : Table) : FlattenNode σ :=
  { node with tables := OrderedMap.insert table.name table node.tables }

/-- Give up a table. -/
def removeTable (node : FlattenNode σ) (name : String) : FlattenNode σ :=
  { node with tables := OrderedMap.erase name node.tables }

/-- The name of a flattening that fits the current shards of a table. -/
def validId? (node : FlattenNode σ) (now : Nat) (table flattenBy : String) :
    Option FlattenId × FlattenNode σ :=
  match OrderedMap.find? table node.tables with
  | none => (none, node)
  | some content =>
      let (found, cache) := node.cache.validId? now content flattenBy
      (found, { node with cache := cache })

/-- The flattening of a name. -/
def flattened? (node : FlattenNode σ) (now : Nat) (id : FlattenId) :
    Option FlattenedTable × FlattenNode σ :=
  let (found, cache) := node.cache.flattened? now id
  (found, { node with cache := cache })

/-! ## Requests -/

/-- Accept a request: attach it to the worker that computes the same, or start one. -/
def accept (node : FlattenNode σ) (request : FlattenRequest) : FlattenNode σ :=
  let key := request.key
  let waiter : Waiter := ⟨request.id, request.notify⟩
  match OrderedMap.find? key node.inFlight with
  | some waiters =>
      { node with
        inFlight := OrderedMap.insert key (waiters ++ [waiter]) node.inFlight
        mergedCount := node.mergedCount + 1 }
  | none =>
      { node with
        inFlight := OrderedMap.insert key [waiter] node.inFlight
        workers := node.workers ++ [⟨key, request.id, .started⟩]
        startedCount := node.startedCount + 1 }

/-! ## Workers -/

/-- Flatten the table that a worker has looked up. -/
def compute (node : FlattenNode σ) (now : Nat) (worker : Worker) (table : Option Table) :
    NodeResult × FlattenNode σ :=
  match table with
  | none => (.failed (Error.unknownTable worker.key.source).message, node)
  | some table =>
      let (handedOut, cache, content) :=
        node.cache.flatten (node.store.map KeyedStore.toTableStore) now node.content table
          worker.key.flattenBy worker.request
      let node := { node with cache := cache, content := content }
      match handedOut with
      | .ok found => (.flattened found.table.id, node)
      | .error cause => (.failed cause.message, node)

/-- The reports that the waiting requests ask for. -/
def reportsFor (waiters : List Waiter) : List (RequestId × NodeId) :=
  waiters.flatMap fun waiter => waiter.notify.map fun target => (waiter.request, target)

/-- Take the requests that are attached to a computation; from now on it is no longer under way. -/
def takeWaiters (node : FlattenNode σ) (key : FlattenKey) : List Waiter × FlattenNode σ :=
  ((OrderedMap.find? key node.inFlight).getD [],
    { node with inFlight := OrderedMap.erase key node.inFlight })

/-- Move the worker at a place to another stage. -/
def setStage (node : FlattenNode σ) (place : Nat) (worker : Worker) (stage : WorkerStage) :
    FlattenNode σ :=
  { node with workers := node.workers.set place { worker with stage := stage } }

/-- One step of the worker at a place, with the report that it sends, if any. -/
def runWorker (now : Nat) (place : Nat) (node : FlattenNode σ) :
    Option Delivery × FlattenNode σ :=
  match node.workers[place]? with
  | none => (none, node)
  | some worker =>
      match worker.stage with
      | .started =>
          let table := OrderedMap.find? worker.key.source node.tables
          (none, node.setStage place worker (.loaded table))
      | .loaded table =>
          let (result, node) := node.compute now worker table
          (none, node.setStage place worker (.computed result))
      | .computed result =>
          let (waiters, node) := node.takeWaiters worker.key
          (none, node.setStage place worker (.reporting result (reportsFor waiters)))
      | .reporting result ((request, target) :: remaining) =>
          (some ⟨target, ⟨request, node.id, result⟩⟩,
            node.setStage place worker (.reporting result remaining))
      | .reporting _ [] => (none, { node with workers := node.workers.eraseIdx place })

/-- How many steps a worker takes, apart from the reports to requests that are still attached. -/
def Worker.stepsLeft (worker : Worker) : Nat :=
  match worker.stage with
  | .started => 4
  | .loaded _ => 3
  | .computed _ => 2
  | .reporting _ remaining => remaining.length + 1

/-- How many steps the workers take until nothing is left to do. -/
def stepsLeft (node : FlattenNode σ) : Nat :=
  total Worker.stepsLeft node.workers +
    total (fun (_, waiters) => (reportsFor waiters).length) node.inFlight

/-- A number of steps, each of the first worker there is. -/
def runFirst (now : Nat) : Nat → FlattenNode σ → List Delivery × FlattenNode σ
  | 0, node => ([], node)
  | steps + 1, node =>
      let (sent, node) := node.runWorker now 0
      let (later, node) := runFirst now steps node
      (sent.toList ++ later, node)

/-- Run the workers one after the other until nothing is left to do. -/
def settle (now : Nat) (node : FlattenNode σ) : List Delivery × FlattenNode σ :=
  runFirst now node.stepsLeft node

end FlattenNode

end Unnest
