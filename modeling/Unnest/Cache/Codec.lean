import Unnest.Bytes
import Unnest.Cache.Snapshot

/-!
# Snapshots as bytes

The parts of a snapshot are written one after the other.  The type of a column is a number of four
bytes before its values, and an identifier is a block of sixteen bytes after its length.  Bytes that
follow a snapshot are not looked at.
-/

namespace Unnest

/-! ## Writing -/

namespace ScalarType

/-- The number that stands for a type. -/
def tag : ScalarType → Nat
  | .long => 0
  | .text => 1
  | .double => 2

def ofTag? : Nat → Option ScalarType
  | 0 => some .long
  | 1 => some .text
  | 2 => some .double
  | _ => none

/-- A scalar of a known type as bytes. -/
def writeScalar : (kind : ScalarType) → kind.Carrier → Bytes
  | .long, (number : Int64) => Bytes.ofUInt64 number.toUInt64
  | .text, (content : String) => Bytes.ofText content
  | .double, (number : Double) => Bytes.ofUInt64 number.bits

def readScalar : (kind : ScalarType) → Bytes.Reader kind.Carrier
  | .long => Bytes.readInt64
  | .text => Bytes.readText
  | .double => fun bytes => (Bytes.readUInt64 bytes).map fun (bits, rest) => (⟨bits⟩, rest)

end ScalarType

namespace PageSnapshot

def toBytes (page : PageSnapshot) : Bytes :=
  Bytes.ofInt page.firstRow ++ Bytes.ofList Bytes.ofInt page.ids

def read : Bytes.Reader PageSnapshot := fun bytes => do
  let (firstRow, rest) ← Bytes.readInt bytes
  let (ids, rest) ← Bytes.readList Bytes.readInt rest
  pure (⟨firstRow, ids⟩, rest)

end PageSnapshot

namespace ColumnSnapshot

def toBytes (column : ColumnSnapshot) : Bytes :=
  Bytes.ofText column.name ++ Bytes.ofNat 4 column.kind.tag ++
    Bytes.ofList column.kind.writeScalar column.values ++
    Bytes.ofList PageSnapshot.toBytes column.pages

def read : Bytes.Reader ColumnSnapshot := fun bytes => do
  let (name, rest) ← Bytes.readText bytes
  let (tag, rest) ← Bytes.readNat 4 rest
  let kind ← ScalarType.ofTag? tag
  let (values, rest) ← Bytes.readList kind.readScalar rest
  let (pages, rest) ← Bytes.readList PageSnapshot.read rest
  pure (⟨name, kind, values, pages⟩, rest)

end ColumnSnapshot

namespace ShardSnapshot

def toBytes (shard : ShardSnapshot) : Bytes :=
  Bytes.ofText shard.table ++ Bytes.ofInt shard.lowestRow ++
    Bytes.ofList ColumnSnapshot.toBytes shard.columns

def read : Bytes.Reader ShardSnapshot := fun bytes => do
  let (table, rest) ← Bytes.readText bytes
  let (lowestRow, rest) ← Bytes.readInt rest
  let (columns, rest) ← Bytes.readList ColumnSnapshot.read rest
  pure (⟨table, lowestRow, columns⟩, rest)

end ShardSnapshot

namespace Snapshot

/-- An identifier after its length. -/
def identifierBytes (id : Identifier) : Bytes :=
  Bytes.ofNat 8 id.toBytes.length ++ id.toBytes

/-- A block of bytes after its length, which has to form an identifier. -/
def readIdentifier : Bytes.Reader Identifier := fun bytes => do
  let (length, rest) ← Bytes.readNat 8 bytes
  let (block, rest) ← Bytes.readBlock length rest
  let id ← Identifier.ofBytes? block
  pure (id, rest)

def toBytes (snapshot : Snapshot) : Bytes :=
  Bytes.ofText snapshot.name ++ Bytes.ofText snapshot.source ++
    Bytes.ofText snapshot.flattenBy ++ identifierBytes snapshot.id ++
    Bytes.ofList Bytes.ofInt snapshot.originalFirstRows ++
    Bytes.ofUInt64 snapshot.createdSeconds ++
    Bytes.ofList ShardSnapshot.toBytes snapshot.shards

def read : Bytes.Reader Snapshot := fun bytes => do
  let (name, rest) ← Bytes.readText bytes
  let (source, rest) ← Bytes.readText rest
  let (flattenBy, rest) ← Bytes.readText rest
  let (id, rest) ← readIdentifier rest
  let (originalFirstRows, rest) ← Bytes.readList Bytes.readInt rest
  let (createdSeconds, rest) ← Bytes.readUInt64 rest
  let (shards, rest) ← Bytes.readList ShardSnapshot.read rest
  pure (⟨name, source, flattenBy, id, originalFirstRows, createdSeconds, shards⟩, rest)

/-- The snapshot at the front of some bytes. -/
def ofBytes (bytes : Bytes) : Outcome Snapshot :=
  match read bytes with
  | some (snapshot, _) => .ok snapshot
  | none => .error (.undecodable "the bytes are no snapshot")

end Snapshot

end Unnest
