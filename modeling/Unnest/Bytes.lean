/-!
# Values as bytes

Numbers are written with the lowest byte first, and texts and lists after their length.  A reader
takes a value from the front of some bytes and leaves the rest; it fails where the bytes end too
early or do not form a value.
-/

namespace Unnest

abbrev Bytes := List UInt8

namespace Bytes

/-- A reader of values. -/
abbrev Reader (α : Type) := Bytes → Option (α × Bytes)

/-! ## Numbers -/

/-- The lowest `width` bytes of a number, the lowest first. -/
def ofNat : Nat → Nat → Bytes
  | 0, _ => []
  | width + 1, value => UInt8.ofNat value :: ofNat width (value / 256)

/-- A number of `width` bytes. -/
def readNat : Nat → Reader Nat
  | 0, bytes => some (0, bytes)
  | _ + 1, [] => none
  | width + 1, byte :: rest =>
      (readNat width rest).map fun (high, rest) => (byte.toNat + 256 * high, rest)

def ofUInt32 (value : UInt32) : Bytes := ofNat 4 value.toNat

def ofUInt64 (value : UInt64) : Bytes := ofNat 8 value.toNat

/-- A whole number as 64 bits in two's complement. -/
def ofInt (value : Int) : Bytes := ofUInt64 (Int64.ofInt value).toUInt64

def readUInt64 : Reader UInt64 := fun bytes =>
  (readNat 8 bytes).map fun (value, rest) => (UInt64.ofNat value, rest)

def readInt64 : Reader Int64 := fun bytes =>
  (readUInt64 bytes).map fun (value, rest) => (value.toInt64, rest)

def readInt : Reader Int := fun bytes =>
  (readInt64 bytes).map fun (value, rest) => (value.toInt, rest)

/-! ## Texts and lists -/

/-- The bytes of a text itself. -/
def ofChars (text : String) : Bytes := text.toUTF8.data.toList

def ofText (text : String) : Bytes :=
  let chars := ofChars text
  ofNat 8 chars.length ++ chars

/-- So many bytes as they are. -/
def readBlock (length : Nat) : Reader Bytes := fun bytes =>
  let block := bytes.take length
  if block.length = length then some (block, bytes.drop length) else none

def readText : Reader String := fun bytes =>
  (readNat 8 bytes).bind fun (length, rest) =>
    (readBlock length rest).bind fun (chars, rest) =>
      (String.fromUTF8? ⟨chars.toArray⟩).map fun text => (text, rest)

def ofList {α : Type} (write : α → Bytes) (items : List α) : Bytes :=
  ofNat 8 items.length ++ items.flatMap write

/-- So many values after each other. -/
def readMany {α : Type} (read : Reader α) : Nat → Reader (List α)
  | 0, bytes => some ([], bytes)
  | count + 1, bytes =>
      (read bytes).bind fun (item, rest) =>
        (readMany read count rest).map fun (items, rest) => (item :: items, rest)

def readList {α : Type} (read : Reader α) : Reader (List α) := fun bytes =>
  (readNat 8 bytes).bind fun (count, rest) => readMany read count rest

end Bytes

end Unnest
