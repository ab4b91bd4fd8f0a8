import Unnest.Exchange.Scalar

/-!
# JSON forms of errors

An error is shown by its code, by what can be done about it, and by its wording where the wording is
all there is to know.  It is described by the name of its cause and the parts of it.
-/

namespace Unnest

def Severity.name : Severity → String
  | .userError => "UserError"
  | .retryable => "Retryable"
  | .transient => "Transient"
  | .internalBug => "InternalBug"

namespace Error

/-- The code of an error: the area it arises in and its cause. -/
def code : Error → String
  | .alreadyFlattened .. => "Flatten.AlreadyFlattened"
  | .invalidFlattenBy .. => "Flatten.InvalidFlattenBy"
  | .flattenedTypeConflict .. => "Flatten.ColumnTypeConflict"
  | .unparsablePath .. => "Pattern.Unparsable"
  | .missingLengthColumn .. => "Pattern.MissingLengthColumn"
  | .rowCountMismatch .. => "Storage.RowCountMismatch"
  | .misalignedShard .. => "Storage.MisalignedShard"
  | .unknownTable .. => "Storage.UnknownTable"
  | .invalidColumnValue .. => "Storage.InvalidColumnValue"
  | .mixedColumn .. => "Storage.ColumnTypeConflict"
  | .storageAccess .. => "Cache.Io"
  | .undecodable .. => "Cache.Serialization"
  | .corruptEntry .. => "Cache.Corrupt"
  | .unreachable .. => "Cluster.Connection"
  | .remoteFailure .. => "Cluster.RemoteFailure"
  | .timeout .. => "Cluster.Timeout"
  | .unknownNode .. => "Cluster.UnknownNode"
  | .invalidSettings .. => "Config"
  | .internal .. => "Internal"
  | .brokenInvariant .. => "InternalBug"

/-- Failures by node, and by their wording for one node. -/
def sortFailures (failures : List (NodeId × String)) : List (NodeId × String) :=
  failures.mergeSort fun left right =>
    left.1.number < right.1.number ||
      (left.1.number == right.1.number && decide (left.2 ≤ right.2))

/-- What is shown of an error besides its code.  The wording is left out where it comes from outside
or holds a time or a random name. -/
def details : Error → List (String × Json)
  | .storageAccess .. => []
  | .undecodable .. => []
  | .invalidSettings .. => []
  | .remoteFailure _ reported => [("failures", toJson (sortFailures reported))]
  | .timeout table flattenBy _ => [("table", .text table), ("flatten_by", .text flattenBy)]
  | error => [("message", .text error.message)]

end Error

instance : ToJson Error where
  toJson error := .record
    ([("error", .text error.code), ("kind", .text error.severity.name)] ++ error.details)

instance : FromJson Error where
  fromJson json := do
    let string (name : String) : Decoded String := json.findD name ""
    match ← json.get "variant" with
    | "AlreadyFlattened" => pure (.alreadyFlattened (← string "table"))
    | "InvalidFlattenBy" => pure (.invalidFlattenBy (← string "by") (← string "reason"))
    | "FlattenTypeConflict" =>
        pure (.flattenedTypeConflict (← string "column") (← json.get "a") (← json.get "b"))
    | "Unparsable" => pure (.unparsablePath (← string "by") (← string "reason"))
    | "MissingLengthColumn" => pure (.missingLengthColumn (← string "column"))
    | "RowCountMismatch" =>
        pure (.rowCountMismatch (← string "column") (← json.get "expected") (← json.get "got"))
    | "MisalignedShard" =>
        pure (.misalignedShard (← string "column") (← json.get "expected") (← json.get "got"))
    | "UnknownTable" => pure (.unknownTable (← string "table"))
    | "InvalidColumnValue" => pure (.invalidColumnValue (← string "column") (← string "reason"))
    | "StorageTypeConflict" =>
        pure (.mixedColumn (← string "column") (← json.get "a") (← json.get "b"))
    | "CacheIo" => pure (.storageAccess (← string "reason"))
    | "CacheSerialization" => pure (.undecodable (← string "reason"))
    | "CacheCorrupt" => pure (.corruptEntry (← string "path") (← string "reason"))
    | "Connection" => pure (.unreachable (← json.get "node") (← string "reason"))
    | "RemoteFailure" => pure (.remoteFailure (← json.get "id") (← json.get "failures"))
    | "Timeout" => pure (.timeout (← string "table") (← string "by") (← json.get "waited"))
    | "UnknownNode" => pure (.unknownNode (← json.get "node"))
    | "Config" => pure (.invalidSettings (← string "reason"))
    | "Internal" => pure (.internal (← string "reason"))
    | "InternalBug" =>
        pure (.brokenInvariant (← string "code") (← string "reason") (← string "context"))
    | _ => json.malformed "error"

end Unnest
