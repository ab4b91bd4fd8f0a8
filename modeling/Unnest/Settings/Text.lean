import Unnest.Error
import Unnest.Settings
import Unnest.Toml.Reader
import Unnest.Toml.Writer

/-!
# The text of settings

Settings are a TOML text with one table for each group.  What is not given keeps its default, what
is not known is ignored, and what has the wrong type makes the whole text malformed.  A group may
also be given as an array of its values in order.

Settings are written as a TOML text with every field of every group, in a fixed order, and with an
empty line between two groups.
-/

namespace Unnest.Settings

/-! ## Reading -/

/-- How the fields of a group are looked up by name, given the names in order.  A moment counts as a
group that gives none of its fields. -/
def fieldsOf? (names : List String) : Toml → Option (String → Option Toml)
  | .table _ entries => some fun name => OrderedMap.find? name entries
  | .array items => some fun name => List.lookup name (names.zip items)
  | .tables items => some fun name => List.lookup name (names.zip (items.map (.table .header)))
  | .moment => some fun _ => none
  | _ => none

def readNat? : Toml → Option Nat
  | .integer value => if 0 ≤ value then some value.toNat else none
  | _ => none

def readLong? : Toml → Option Int64
  | .integer value => some (Int64.ofInt value)
  | _ => none

/-- A double may be given as an integer. -/
def readDouble? : Toml → Option Double
  | .double value => some value
  | .integer value => some (Double.ofInt value)
  | _ => none

def readText? : Toml → Option String
  | .text value => some value
  | _ => none

/-- A field that keeps its default where it is not given. -/
def field? {α : Type} (fields : String → Option Toml) (name : String) (read : Toml → Option α)
    (default : α) : Option α :=
  match fields name with
  | none => some default
  | some value => read value

/-- A node has to be named where its group is given. -/
def readNode? (group : Toml) : Option NodeId := do
  let fields ← fieldsOf? ["node_id"] group
  let number ← (fields "node_id").bind readNat?
  pure ⟨number⟩

def readFlatten? (group : Toml) : Option FlattenSettings := do
  let defaults : FlattenSettings := {}
  let fields ← fieldsOf?
    ["max_page_rows", "default_long", "default_double", "default_string"] group
  pure
    { maxPageRows := ← field? fields "max_page_rows" readNat? defaults.maxPageRows
      defaultLong := ← field? fields "default_long" readLong? defaults.defaultLong
      defaultDouble := ← field? fields "default_double" readDouble? defaults.defaultDouble
      defaultText := ← field? fields "default_string" readText? defaults.defaultText }

def readCache? (group : Toml) : Option CacheSettings := do
  let defaults : CacheSettings := {}
  let fields ← fieldsOf?
    ["memory_instances_per_key", "memory_max_flatten_ids", "memory_ttl_secs", "disk_dir",
      "disk_max_age_secs"] group
  pure
    { instancesPerKey :=
        ← field? fields "memory_instances_per_key" readNat? defaults.instancesPerKey
      maxFlattenIds := ← field? fields "memory_max_flatten_ids" readNat? defaults.maxFlattenIds
      memorySeconds := ← field? fields "memory_ttl_secs" readNat? defaults.memorySeconds
      diskDirectory := ← field? fields "disk_dir" readText? defaults.diskDirectory
      diskSeconds := ← field? fields "disk_max_age_secs" readNat? defaults.diskSeconds }

def readCluster? (group : Toml) : Option ClusterSettings := do
  let defaults : ClusterSettings := {}
  let fields ← fieldsOf? ["flatten_timeout_ms", "retry_backoff_ms"] group
  pure
    { timeoutMillis := ← field? fields "flatten_timeout_ms" readNat? defaults.timeoutMillis
      backoffMillis := ← field? fields "retry_backoff_ms" readNat? defaults.backoffMillis }

/-- The settings that a table gives. -/
def ofToml? (entries : Toml.Entries) : Option Settings := do
  let groups (name : String) : Option Toml := OrderedMap.find? name entries
  let defaults : Settings := {}
  pure
    { node := ← field? groups "node" readNode? defaults.node
      flatten := ← field? groups "flatten" readFlatten? defaults.flatten
      cache := ← field? groups "cache" readCache? defaults.cache
      cluster := ← field? groups "cluster" readCluster? defaults.cluster }

/-- Read settings. -/
def read (input : String) : Outcome Settings :=
  match (Toml.read? input).bind ofToml? with
  | some settings => .ok settings
  | none => .error (.invalidSettings "malformed settings")

/-- The settings in a file that may be missing; one that is malformed counts as missing. -/
def readOrDefault (contents : Option String) : Settings :=
  match contents.map read with
  | some (.ok settings) => settings
  | _ => {}

/-! ## Writing -/

/-- A group under its header, a field on each line. -/
def writeGroup (name : String) (fields : List (String × String)) : String :=
  "[" ++ name ++ "]\n" ++
    String.join (fields.map fun (field, value) => field ++ " = " ++ value ++ "\n")

def writeNode (node : NodeId) : String :=
  writeGroup "node" [("node_id", toString node.number)]

def writeFlatten (settings : FlattenSettings) : String :=
  writeGroup "flatten"
    [("max_page_rows", toString settings.maxPageRows),
      ("default_long", toString settings.defaultLong.toInt),
      ("default_double", Toml.writeDouble settings.defaultDouble),
      ("default_string", Toml.writeText settings.defaultText)]

def writeCache (settings : CacheSettings) : String :=
  writeGroup "cache"
    [("memory_instances_per_key", toString settings.instancesPerKey),
      ("memory_max_flatten_ids", toString settings.maxFlattenIds),
      ("memory_ttl_secs", toString settings.memorySeconds),
      ("disk_dir", Toml.writeText settings.diskDirectory),
      ("disk_max_age_secs", toString settings.diskSeconds)]

def writeCluster (settings : ClusterSettings) : String :=
  writeGroup "cluster"
    [("flatten_timeout_ms", toString settings.timeoutMillis),
      ("retry_backoff_ms", toString settings.backoffMillis)]

/-- The text of settings. -/
def write (settings : Settings) : String :=
  "\n".intercalate
    [writeNode settings.node, writeFlatten settings.flatten, writeCache settings.cache,
      writeCluster settings.cluster]

end Unnest.Settings
