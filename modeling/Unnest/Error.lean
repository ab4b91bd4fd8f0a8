import Unnest.Identifier
import Unnest.Scalar

/-!
# Errors

What can go wrong, by cause.  The wording of every cause is in `Error.message`, and its consequence
for the caller in `Error.severity`.
-/

namespace Unnest

/-- What the caller of a failed operation can do about it. -/
inductive Severity where
  /-- The argument or the data has to change. -/
  | userError
  /-- A node reported a failure; a new request may succeed. -/
  | retryable
  /-- A connection, a deadline or a stored entry failed. -/
  | transient
  /-- An invariant of the program is broken. -/
  | internalBug
deriving DecidableEq, Repr, Inhabited

/-- A cause of failure. -/
inductive Error where
  | alreadyFlattened (table : String)
  | invalidFlattenBy (flattenBy reason : String)
  | flattenedTypeConflict (column : String) (expected got : ScalarType)
  | unparsablePath (path reason : String)
  | missingLengthColumn (column : String)
  | rowCountMismatch (column : String) (expected got : Nat)
  | misalignedShard (column : String) (expected got : Int)
  | unknownTable (table : String)
  | invalidColumnValue (column reason : String)
  | mixedColumn (column : String) (first second : ScalarType)
  | storageAccess (reason : String)
  | undecodable (reason : String)
  | corruptEntry (path reason : String)
  | unreachable (node : NodeId) (reason : String)
  | remoteFailure (request : RequestId) (failures : List (NodeId × String))
  | timeout (table flattenBy : String) (waitedMillis : Nat)
  | unknownNode (node : NodeId)
  | invalidSettings (reason : String)
  | internal (message : String)
  | brokenInvariant (code message context : String)
deriving DecidableEq, Repr, Inhabited

namespace Error

/-- The wording of a fault in the text of a path. -/
def unparsableText (path reason : String) : String :=
  "Cannot parse field pattern '" ++ path ++ "': " ++ reason

/-- The wording of an error. -/
def message : Error → String
  | .alreadyFlattened table =>
      "Flatten error: Table '" ++ table ++
        "' is already the result of a flattening and cannot be flattened again"
  | .invalidFlattenBy flattenBy reason =>
      "Flatten error: Invalid flatten-by field '" ++ flattenBy ++ "': " ++ reason
  | .flattenedTypeConflict column expected got =>
      "Flatten error: Columns contributing to '" ++ column ++ "' disagree on type: " ++
        expected.name ++ " vs " ++ got.name
  | .unparsablePath path reason =>
      "Pattern error: " ++ unparsableText path reason
  | .missingLengthColumn column =>
      "Pattern error: Length column '" ++ column ++ "' required by a realized pattern is missing"
  | .rowCountMismatch column expected got =>
      "Storage error: Column '" ++ column ++ "' has " ++ toString got ++
        " rows but the shard has " ++ toString expected
  | .misalignedShard column expected got =>
      "Storage error: Column '" ++ column ++ "' starts at row " ++ toString got ++
        " but the shard starts at " ++ toString expected
  | .unknownTable table => "Storage error: Unknown table: " ++ table
  | .invalidColumnValue column reason =>
      "Storage error: Unsupported value for column '" ++ column ++ "': " ++ reason
  | .mixedColumn column first second =>
      "Storage error: Column '" ++ column ++ "' holds both " ++ first.name ++ " and " ++
        second.name ++ " values"
  | .storageAccess reason => "Cache error: IO error: " ++ reason
  | .undecodable reason => "Cache error: Serialization error: " ++ reason
  | .corruptEntry path reason => "Cache error: Corrupt cache entry " ++ path ++ ": " ++ reason
  | .unreachable node reason =>
      "Cluster error: Connection to " ++ node.toText ++ " failed: " ++ reason
  | .remoteFailure request failures =>
      "Cluster error: Flatten request " ++ request.requestText ++ " failed remotely: " ++
        "; ".intercalate (failures.map fun (node, reason) => node.toText ++ ": " ++ reason)
  | .timeout table flattenBy waitedMillis =>
      "Cluster error: Flattening '" ++ table ++ "' by '" ++ flattenBy ++ "' timed out after " ++
        toString waitedMillis ++ "ms"
  | .unknownNode node => "Cluster error: Node not found: " ++ node.toText
  | .invalidSettings reason => "Config error: " ++ reason
  | .internal reason => "Internal error: " ++ reason
  | .brokenInvariant code reason context =>
      "InternalBug [" ++ code ++ "]: " ++ reason ++ " | context: " ++ context

/-- What the caller can do about an error. -/
def severity : Error → Severity
  | .alreadyFlattened .. | .invalidFlattenBy .. | .flattenedTypeConflict ..
  | .unparsablePath .. | .missingLengthColumn .. | .unknownTable .. | .invalidColumnValue ..
  | .mixedColumn .. | .invalidSettings .. => .userError
  | .remoteFailure .. => .retryable
  | .storageAccess .. | .undecodable .. | .corruptEntry .. | .unreachable .. | .timeout .. =>
      .transient
  | .rowCountMismatch .. | .misalignedShard .. | .unknownNode .. | .internal ..
  | .brokenInvariant .. => .internalBug

/-- The error is a lost or refused connection, which is retried. -/
def isUnreachable : Error → Bool
  | .unreachable .. => true
  | _ => false

/-- Say where an internal error arose.  Any other error says so itself and is left alone. -/
def inContext (place : String) : Error → Error
  | .internal reason => .internal (place ++ ": " ++ reason)
  | .brokenInvariant code reason context =>
      .brokenInvariant code (place ++ ": " ++ reason) context
  | error => error

end Error

/-- The result of an operation that can fail. -/
abbrev Outcome (α : Type) := Except Error α

end Unnest
