import Unnest.Identifier
import Unnest.Scalar

/-!
# Settings

What a user can set, with the values that hold when nothing is set.  A duration of zero, and an
empty directory, turn the thing off that they belong to.
-/

namespace Unnest

/-- How shards are loaded and flattened. -/
structure FlattenSettings where
  /-- The largest number of rows of a page that is made anew. -/
  maxPageRows : Nat := 65536
  defaultLong : Int64 := 0
  defaultDouble : Double := Double.zero
  defaultText : String := ""
deriving DecidableEq, Repr, Inhabited

namespace FlattenSettings

/-- The scalar that stands for an entry that a row does not have. -/
def default (settings : FlattenSettings) : (kind : ScalarType) → kind.Carrier
  | .long => settings.defaultLong
  | .text => settings.defaultText
  | .double => settings.defaultDouble

/-- The scalar that fills the gaps of a column: zero in a column of lengths. -/
def fill (settings : FlattenSettings) (kind : ScalarType) (isLength : Bool) : kind.Carrier :=
  if isLength then kind.zero else settings.default kind

end FlattenSettings

/-- How flattened tables are kept. -/
structure CacheSettings where
  /-- How many tables are kept in memory for one table and field. -/
  instancesPerKey : Nat := 2
  /-- How many tables can be looked up by their name. -/
  maxFlattenIds : Nat := 1024
  /-- How long a table is kept in memory. -/
  memorySeconds : Nat := 3600
  /-- Where tables are stored on disk. -/
  diskDirectory : String := ""
  /-- How old a stored table may be. -/
  diskSeconds : Nat := 0
deriving DecidableEq, Repr, Inhabited

namespace CacheSettings

/-- A number of seconds in milliseconds, unless it is zero. -/
def bound (seconds : Nat) : Option Nat :=
  if seconds = 0 then none else some (seconds * 1000)

/-- How long a table is kept in memory, in milliseconds. -/
def memoryBound (settings : CacheSettings) : Option Nat :=
  bound settings.memorySeconds

/-- How old a stored table may be, in milliseconds. -/
def diskBound (settings : CacheSettings) : Option Nat :=
  bound settings.diskSeconds

def usesDisk (settings : CacheSettings) : Bool :=
  !settings.diskDirectory.isEmpty

end CacheSettings

/-- How the nodes of a cluster are made to agree. -/
structure ClusterSettings where
  /-- How long one agreement may take, retries included. -/
  timeoutMillis : Nat := 300000
  /-- How long to wait after a lost connection. -/
  backoffMillis : Nat := 1000
deriving DecidableEq, Repr, Inhabited

/-- Everything a user can set. -/
structure Settings where
  node : NodeId := ⟨1⟩
  flatten : FlattenSettings := {}
  cache : CacheSettings := {}
  cluster : ClusterSettings := {}
deriving DecidableEq, Repr, Inhabited

end Unnest
