import Unnest.Cluster
import Unnest.Exchange.Error
import Unnest.Exchange.Table

/-!
# JSON forms of clusters

The members of a cluster are described by their tables or by their scripts.  Names that are given at
random cannot be compared from one run to the next, so they are shown as `r1`, `r2` and so on in the
order in which they first appear; a small number is shown as it is.
-/

namespace Unnest

/-! ## Members -/

/-- A fault by its reason. -/
def ScriptedFault.ofReason : String → ScriptedFault
  | "connection" => .unreachable
  | "panic" => .crash
  | reason => .internal reason

/-- What follows a start of a text. -/
def textAfter? (start text : String) : Option String :=
  if start.toList.isPrefixOf text.toList then
    some (String.ofList (text.toList.drop start.length))
  else
    none

instance : FromJson ScriptedProbe where
  fromJson
    | .null => .ok (.answer none)
    | .text "last" => .ok .lastReported
    | .text line =>
        match textAfter? "fail:" line with
        | some reason => .ok (.fault (.ofReason reason))
        | none => (fromJson (.text line)).map fun id => .answer (some id)
    | json => (fromJson json).map fun id => .answer (some id)

instance : FromJson ScriptedFlatten where
  fromJson
    | .null => .ok .silence
    | .text "ok" => .ok .asRequested
    | .text line =>
        match textAfter? "fail:" line, textAfter? "failed:" line with
        | some reason, _ => .ok (.fault (.ofReason reason))
        | none, some reason => .ok (.failed reason)
        | none, none => (fromJson (.text line)).map .flattened
    | json => (fromJson json).map .flattened

/-- Read a node of a cluster; its cache has no store. -/
def decodeMember (settings : FlattenSettings) (json : Json) : Decoded (NodeId × Member Unit) := do
  let id : NodeId ← json.get "id"
  match json.field? "probes" with
  | some _ =>
      pure (id, .scripted
        { id := id, probes := ← json.get "probes", flattens := ← json.get "flattens" })
  | none => do
      let shards ← (← json.findD "tables" (.record []) : Json).entries
      let tables ← shards.mapM fun (name, content) => decodeTable settings name content
      let empty : FlattenNode Unit := { id := id, cache := .ofSettings settings {}, content := () }
      pure (id, .service (tables.foldl FlattenNode.putTable empty) (← json.findD "gated" false))

instance : FromJson ClusterSettings where
  fromJson json := do
    pure
      { timeoutMillis := ← json.findD "timeout_ms" 10000
        backoffMillis := ← json.findD "backoff_ms" 1 }

/-- Read a cluster. -/
def decodeCluster (settings : FlattenSettings) (json : Json) : Decoded (Cluster Unit) := do
  let coordinator : Json ← json.findD "coordinator" (.record [])
  let members : List Json ← json.findD "nodes" []
  let recorders : List NodeId ← json.findD "sinks" []
  let serving ← (← json.findD "serve" (.record []) : Json).entries
  let served ← serving.mapM fun (table, nodes) => do pure (table, ← fromJson nodes)
  pure
    { coordinator :=
        { id := ← coordinator.findD "id" ⟨100⟩
          settings := ← fromJson coordinator }
      members := OrderedMap.ofEntries (← members.mapM (decodeMember settings))
      recorders := OrderedMap.ofEntries (recorders.map fun id => (id, []))
      serving := OrderedMap.ofEntries served }

/-! ## Names -/

/-- Something that is shown after the names that were shown before. -/
abbrev Naming (α : Type) := StateT (List Identifier) Decoded α

/-- The short text of a name. -/
def shortName (id : Identifier) : Naming Json := do
  if id.bits.toNat < UInt64.size then
    pure (.text (toString id.bits.toNat))
  else
    let shown ← get
    if id ∉ shown then set (shown ++ [id])
    pure (.text ("r" ++ toString (shown.idxOf id + 1)))

/-- The short text of a name, if there is one. -/
def shortName? : Option Identifier → Naming Json
  | none => pure .null
  | some id => shortName id

/-! ## Answers -/

/-- A report by its request, its node and its result. -/
def Report.named (report : Report) : Naming Json := do
  let request ← shortName report.request
  let result ←
    match report.result with
    | .flattened id => shortName id
    | .failed reason => pure (.record [("failed", .text reason)])
  pure (.array [request, toJson report.node, result])

/-- The agreement that a call has reached.  Nothing is shown of a call that broke down. -/
def CallAnswer.namedResult (answer : CallAnswer) : Naming Json :=
  match answer.result with
  | .crashed => throw .crashed
  | .answered (.error cause) => pure (toJson cause)
  | .answered (.ok none) => pure .null
  | .answered (.ok (some agreement)) => do
      pure (.record
        [("id", ← shortName agreement.id), ("new", .bool agreement.isNew),
          ("nodes", toJson agreement.nodes)])

/-- A call by its result, its phases and what it counted. -/
def CallAnswer.named (answer : CallAnswer) : Naming Json := do
  pure (.record
    [("result", ← answer.namedResult), ("phases", toJson (answer.phases.map Phase.name)),
      ("metrics", countersToJson answer.counters)])

/-- A coordinator in short. -/
def Coordinator.toText (coordinator : Coordinator) : String :=
  "ClusterFlattenCoordinator \x7b node_id: NodeId(" ++ toString coordinator.id.number ++
    "), waiting_requests: " ++ toString coordinator.awaited.length ++ " \x7d"

/-- What the coordinator of a cluster has done so far. -/
def Cluster.coordinatorToJson {σ : Type} (cluster : Cluster σ) : Json :=
  let coordinator := cluster.coordinator
  .record
    [("triggered", toJson coordinator.triggered), ("retries", toJson coordinator.retries),
      ("disagreements", toJson coordinator.disagreements),
      ("injected", toJson cluster.connections.failed), ("debug", .text coordinator.toText)]

/-- What a node has done so far, and the flattening of a table that it holds. -/
def FlattenNode.named {σ : Type} (node : FlattenNode σ) (now : Nat) (table flattenBy : String) :
    Naming Json := do
  let statistics := node.cache.statistics
  let valid := (node.validId? now table flattenBy).1
  let held := valid.bind fun id => (node.flattened? now id).1
  pure (.record
    [("started", toJson node.startedCount), ("merged", toJson node.mergedCount),
      ("in_flight", toJson node.inFlight.length),
      ("stats", toJson [statistics.memoryHits, statistics.diskHits, statistics.computed,
        statistics.diskErrors]),
      ("valid", ← shortName? valid), ("rows", toJson (held.map (·.toTable.rowCount)))])

end Unnest
