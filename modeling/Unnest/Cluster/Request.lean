import Unnest.Cache.Registry
import Unnest.Error
import Unnest.FieldPath.Reader

/-!
# Requests to the nodes of a cluster

A node is asked to flatten its shards of a table, and reports what became of it to the nodes that
the request names.  Asking comes to a `Reply`: an answer, a refusal, or nothing at all when the call
itself breaks down.  Several nodes are asked at once, and `Reply.gather` makes one reply of theirs.
-/

namespace Unnest

/-- The shards of a table are to be flattened, and the result is to be reported. -/
structure FlattenRequest where
  id : RequestId
  table : String
  flattenBy : String
  /-- The nodes that want to know the result. -/
  notify : List NodeId
deriving DecidableEq, Repr, Inhabited

/-- What is computed for a request.  Different spellings of a field are the same computation; a
field that cannot be read stands for itself. -/
def FlattenRequest.key (request : FlattenRequest) : FlattenKey :=
  match readTarget request.flattenBy with
  | .ok target => ⟨request.table, target.toText⟩
  | .error _ => ⟨request.table, request.flattenBy⟩

/-- What became of a request on a node. -/
inductive NodeResult where
  | flattened (id : FlattenId)
  | failed (reason : String)
deriving DecidableEq, Repr, Inhabited

/-- A node tells what became of a request. -/
structure Report where
  request : RequestId
  node : NodeId
  result : NodeResult
deriving DecidableEq, Repr, Inhabited

/-- What calling a node comes to. -/
inductive Reply (α : Type) where
  | answered (outcome : Outcome α)
  /-- The call broke down. -/
  | crashed
deriving Inhabited

namespace Reply

variable {α : Type}

def isCrash : Reply α → Bool
  | .answered _ => false
  | .crashed => true

/-- Wait for calls one after the other.  The first one that broke down ends the waiting and is told
by the code of the place; nobody waits for the calls after it, which are left over. -/
def joinAll (code : String) : List (Reply α) → Outcome (List (Outcome α)) × List (Reply α)
  | [] => (.ok [], [])
  | .crashed :: rest => (.error (.brokenInvariant code "cluster request thread panicked" ""), rest)
  | .answered outcome :: rest =>
      let (joined, left) := joinAll code rest
      (joined.map (outcome :: ·), left)

/-- The answers of nodes that were called at once, or the first refusal.  A call that broke down
counts before any refusal; if one that is left over has broken down as well, all of it breaks
down. -/
def gather (code : String) (replies : List (Reply α)) : Reply (List α) :=
  let (joined, left) := joinAll code replies
  if left.any isCrash then
    .crashed
  else
    .answered do
      let outcomes ← joined
      outcomes.mapM id

end Reply

end Unnest
