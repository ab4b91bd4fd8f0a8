import Unnest.Bytes
import Unnest.Cache.Codec
import Unnest.Table
import Unnest.Text.Digits

/-!
# Stores of flattened tables

A store keeps flattened tables outside of memory.  What it does is up to it: it may fail, and it may
have lost a table.  But what it finds is what it was asked for, if it is a `KeyedStore`.  Time is
given in milliseconds since 1970.

A `DirectoryStore` has a file for every table, field and set of first rows in one directory.  The
name of the file is made from the table's name and a checksum of all three, so that two of them can
share a file; the snapshot inside says which of them it belongs to.  A file is written beside its
place and then moved there, so what is found there is always whole.
-/

namespace Unnest

/-! ## Stores -/

/-- A store whose content is a value of type `σ`. -/
structure TableStore (σ : Type) where
  /-- Look for the flattening of a table by a field, made from exactly these first rows. -/
  load (now : Nat) (content : σ) (source flattenBy : String) (firstRows : FirstRows) :
    Outcome (Option FlattenedTable)
  /-- Keep a flattened table. -/
  offer (now : Nat) (content : σ) (table : FlattenedTable) : Outcome Unit × σ

/-- Whatever is found for first rows in their order was made from the source, the field and the
first rows that were asked for. -/
def TableStore.IsKeyed {σ : Type} (store : TableStore σ) : Prop :=
  ∀ now content source flattenBy firstRows found, sortDistinct firstRows = firstRows →
    store.load now content source flattenBy firstRows = .ok (some found) →
    found.source = source ∧ found.flattenBy = flattenBy ∧ found.originalFirstRows = firstRows

/-- A store that finds nothing else than what it is asked for. -/
structure KeyedStore (σ : Type) extends TableStore σ where
  isKeyed : toTableStore.IsKeyed

end Unnest

/-! ## The checksum of stored tables

A cyclic redundancy check of 32 bits, lowest bit first: the remainder starts with all bits set,
every byte is added to its low bits and moved through it bit by bit, and all bits are flipped at the
end.
-/

namespace Unnest.Checksum

/-- The generator, lowest bit first. -/
def polynomial : BitVec 32 := 0xEDB88320

/-- Move the remainder on by one bit. -/
def shift (remainder : BitVec 32) : BitVec 32 :=
  if remainder.getLsbD 0 then (remainder >>> 1) ^^^ polynomial else remainder >>> 1

/-- Move the remainder on by some bits. -/
def shifts : Nat → BitVec 32 → BitVec 32
  | 0, remainder => remainder
  | count + 1, remainder => shifts count (shift remainder)

/-- Take a byte into the remainder. -/
def add (remainder : BitVec 32) (byte : UInt8) : BitVec 32 :=
  shifts 8 (remainder ^^^ byte.toBitVec.setWidth 32)

/-- The checksum of some bytes. -/
def ofBytes (bytes : Bytes) : UInt32 :=
  ⟨~~~(bytes.foldl add (BitVec.allOnes 32))⟩

end Unnest.Checksum

namespace Unnest

/-! ## Directories -/

/-- What stands at a name in a directory. -/
inductive DirectoryEntry where
  | file (content : Bytes)
  | directory
deriving DecidableEq, Repr, Inhabited

/-- What stands at the place of a directory. -/
inductive Directory where
  | missing
  /-- Something that is no directory. -/
  | blocked
  | present (entries : OrderedMap String DirectoryEntry)
deriving Repr, Inhabited

namespace Directory

/-- Make sure that the directory is there. -/
def opened : Directory → Outcome Directory
  | .missing => .ok (.present [])
  | .blocked => .error (.storageAccess "not a directory")
  | .present entries => .ok (.present entries)

def entry? (directory : Directory) (name : String) : Option DirectoryEntry :=
  match directory with
  | .present entries => OrderedMap.find? name entries
  | _ => none

/-- Write a file; this fails where a directory has its name. -/
def write (directory : Directory) (name : String) (content : Bytes) : Outcome Directory :=
  match directory, directory.entry? name with
  | .present _, some .directory => .error (.storageAccess "the file is a directory")
  | .present entries, _ => .ok (.present (OrderedMap.insert name (.file content) entries))
  | _, _ => .error (.storageAccess "no such directory")

/-- Move a file to another name, in the place of a file there. -/
def moveFile (directory : Directory) (source target : String) : Outcome Directory :=
  match directory, directory.entry? source, directory.entry? target with
  | .present _, _, some .directory => .error (.storageAccess "the file is a directory")
  | .present entries, some moved, _ =>
      .ok (.present (OrderedMap.insert target moved (OrderedMap.erase source entries)))
  | _, _, _ => .error (.storageAccess "no such file")

end Directory

namespace StoredTable

/-! ## The name of a file -/

/-- A set of first rows in braces. -/
def firstRowsText (firstRows : FirstRows) : String :=
  "\x7b" ++ ", ".intercalate (firstRows.map toString) ++ "\x7d"

/-- The text whose checksum is part of the file's name. -/
def keyText (source flattenBy : String) (firstRows : FirstRows) : String :=
  source ++ "\x00" ++ flattenBy ++ "\x00" ++ firstRowsText firstRows

/-- A letter, a digit or an underscore stands for itself in a file's name. -/
def nameChar (character : Char) : Char :=
  if ('a' ≤ character && character ≤ 'z') || ('A' ≤ character && character ≤ 'Z') ||
      Text.isDigit character || character == '_' then character else '_'

/-- Eight hexadecimal digits. -/
def checksumText (checksum : UInt32) : String :=
  let digits := Nat.toDigits 16 checksum.toNat
  String.ofList (List.replicate (8 - digits.length) '0' ++ digits)

/-- The name of a table's file without its ending. -/
def baseName (source flattenBy : String) (firstRows : FirstRows) : String :=
  String.ofList (source.toList.map nameChar) ++ "-" ++
    checksumText (Checksum.ofBytes (Bytes.ofChars (keyText source flattenBy firstRows)))

def fileName (source flattenBy : String) (firstRows : FirstRows) : String :=
  baseName source flattenBy firstRows ++ ".flat"

/-- The name under which a file is written before it is moved to its place. -/
def draftName (source flattenBy : String) (firstRows : FirstRows) : String :=
  baseName source flattenBy firstRows ++ ".tmp"

/-! ## The content of a file -/

/-- The four bytes that every file starts with. -/
def magic : Bytes := [0x53, 0x46, 0x4C, 0x54]

/-- The bytes of a snapshot after a header with their checksum. -/
def withHeader (payload : Bytes) : Bytes :=
  magic ++ Bytes.ofUInt32 (Checksum.ofBytes payload) ++ payload

/-- The bytes of a snapshot, if the header fits them. -/
def withoutHeader (path : String) (content : Bytes) : Outcome Bytes :=
  if content.length < 8 ∨ content.take 4 ≠ magic then
    .error (.corruptEntry path "bad header")
  else
    let payload := content.drop 8
    if (content.drop 4).take 4 = Bytes.ofUInt32 (Checksum.ofBytes payload) then .ok payload
    else .error (.corruptEntry path "checksum mismatch")

/-- A snapshot is too old at a time, in milliseconds since 1970. -/
def isTooOld (maxAgeMillis : Option Nat) (now : Nat) (snapshot : Snapshot) : Bool :=
  match maxAgeMillis with
  | none => false
  | some maxAge => maxAge < now - snapshot.createdSeconds.toNat * 1000

/-- The table in a file, if it is the wanted one and not too old. -/
def read (path : String) (maxAgeMillis : Option Nat) (now : Nat) (source flattenBy : String)
    (firstRows : FirstRows) (content : Bytes) : Outcome (Option FlattenedTable) :=
  match withoutHeader path content with
  | .error error => .error error
  | .ok payload =>
      match Snapshot.ofBytes payload with
      | .error error => .error error
      | .ok snapshot =>
          if !snapshot.isOf source flattenBy firstRows then .ok none
          else if isTooOld maxAgeMillis now snapshot then .ok none
          else
            match snapshot.restore with
            | .ok table => .ok (some table)
            | .error error => .error (.corruptEntry path error.message)

end StoredTable

/-- Where a directory is, and how old its tables may be. -/
structure DirectoryStore where
  path : String
  maxAgeMillis : Option Nat
deriving Repr, Inhabited

namespace DirectoryStore

/-- Look for a table at a time. -/
def load (store : DirectoryStore) (now : Nat) (directory : Directory) (source flattenBy : String)
    (firstRows : FirstRows) : Outcome (Option FlattenedTable) :=
  let name := StoredTable.fileName source flattenBy firstRows
  match directory.entry? name with
  | none => .ok none
  | some .directory => .error (.storageAccess "the file is a directory")
  | some (.file content) =>
      StoredTable.read (store.path ++ "/" ++ name) store.maxAgeMillis now source flattenBy
        firstRows content

/-- Store a table.  A draft stays behind where it cannot be moved to its place. -/
def offer (now : Nat) (directory : Directory) (table : FlattenedTable) :
    Outcome Unit × Directory :=
  let rows := table.originalFirstRows
  let draft := StoredTable.draftName table.source table.flattenBy rows
  let target := StoredTable.fileName table.source table.flattenBy rows
  let snapshot := Snapshot.capture table (UInt64.ofNat (now / 1000))
  match directory.write draft (StoredTable.withHeader snapshot.toBytes) with
  | .error error => (.error error, directory)
  | .ok drafted =>
      match drafted.moveFile draft target with
      | .error error => (.error error, drafted)
      | .ok stored => (.ok (), stored)

/-- The directory as a store. -/
def toStore (store : DirectoryStore) : TableStore Directory where
  load := store.load
  offer := offer

end DirectoryStore

end Unnest
