import Mathlib.Algebra.Group.Int.Defs
import Mathlib.Algebra.Group.Nat.Defs
import Mathlib.Tactic.MkIffOfInductiveProp
import Unnest.Cache.Codec

/-!
# Snapshots are read back from their bytes

What is written of a value is read back, and what follows it is left, as long as its numbers and
the lengths of its texts and lists fit into 64 bits (`Bytes.IsReadBack`).  This is shown of numbers,
texts and lists first, and then of a snapshot part by part.
-/

namespace Unnest

namespace Bytes

/-- The value is read from the front of what is written of it, whatever follows. -/
def IsReadBack {α : Type} (read : Reader α) (write : α → Bytes) (value : α) : Prop :=
  ∀ rest, read (write value ++ rest) = some (value, rest)

/-- The number fits into 64 bits. -/
def IsLength (number : Nat) : Prop := number < 2 ^ 64

/-- The number fits into 64 bits with its sign. -/
def IsLong (number : Int) : Prop := -2 ^ 63 ≤ number ∧ number < 2 ^ 63

instance (number : Nat) : Decidable (IsLength number) :=
  inferInstanceAs (Decidable (number < 2 ^ 64))

instance (number : Int) : Decidable (IsLong number) :=
  inferInstanceAs (Decidable (-2 ^ 63 ≤ number ∧ number < 2 ^ 63))

/-! ## Numbers -/

theorem isReadBack_ofNat {width value : Nat} (bound : value < 256 ^ width) :
    IsReadBack (readNat width) (ofNat width) value := by
  intro rest
  induction width generalizing value with
  | zero =>
      have isZero : value = 0 := by omega
      rw [isZero]
      rfl
  | succ width inductionHypothesis =>
      have highBound : value / 256 < 256 ^ width := by
        rw [Nat.pow_succ] at bound
        omega
      have split : value % 256 + 256 * (value / 256) = value := Nat.mod_add_div value 256
      simp [ofNat, readNat, inductionHypothesis highBound, split]

theorem isReadBack_length {length : Nat} (bound : IsLength length) :
    IsReadBack (readNat 8) (ofNat 8) length :=
  isReadBack_ofNat bound

theorem isReadBack_uint64 (value : UInt64) : IsReadBack readUInt64 ofUInt64 value := by
  intro rest
  have bound : value.toNat < 256 ^ 8 := value.toNat_lt
  simp [readUInt64, ofUInt64, isReadBack_ofNat bound rest]

theorem isReadBack_int64 (value : Int64) :
    IsReadBack readInt64 (fun value => ofUInt64 value.toUInt64) value := by
  intro rest
  simp [readInt64, isReadBack_uint64 value.toUInt64 rest]

theorem isReadBack_int {value : Int} (isLong : IsLong value) : IsReadBack readInt ofInt value := by
  intro rest
  have sameInt : (Int64.ofInt value).toInt = value := Int64.toInt_ofInt_of_le isLong.1 isLong.2
  have readBack := isReadBack_int64 (Int64.ofInt value) rest
  simp [readInt, ofInt, readBack, sameInt]

/-! ## Texts and lists -/

theorem readBlock_append (block rest : Bytes) :
    readBlock block.length (block ++ rest) = some (block, rest) := by
  simp [readBlock]

theorem isReadBack_text {text : String} (isLength : IsLength (ofChars text).length) :
    IsReadBack readText ofText text := by
  intro rest
  have isText : String.fromUTF8? ⟨(ofChars text).toArray⟩ = some text := by
    have isValid : text.toUTF8.IsValidUTF8 := text.isValidUTF8
    exact dif_pos isValid
  rw [ofText, readText, List.append_assoc, isReadBack_length isLength]
  simp [readBlock_append, isText]

theorem isReadBack_many {α : Type} {read : Reader α} {write : α → Bytes} {items : List α}
    (areReadBack : ∀ item ∈ items, IsReadBack read write item) :
    IsReadBack (readMany read items.length) (List.flatMap write) items := by
  intro rest
  induction items with
  | nil => rfl
  | cons item others inductionHypothesis =>
      have first := areReadBack item List.mem_cons_self (others.flatMap write ++ rest)
      have later := inductionHypothesis fun other member =>
        areReadBack other (List.mem_cons_of_mem _ member)
      simp [readMany, first, later]

theorem isReadBack_list {α : Type} {read : Reader α} {write : α → Bytes} {items : List α}
    (isLength : IsLength items.length)
    (areReadBack : ∀ item ∈ items, IsReadBack read write item) :
    IsReadBack (readList read) (ofList write) items := by
  intro rest
  rw [ofList, readList, List.append_assoc, isReadBack_length isLength]
  exact isReadBack_many areReadBack rest

end Bytes

/-! ## Identifiers -/

namespace Identifier

/-- The lowest bytes of a number, the most significant one first, are read as the rest of its
division. -/
theorem foldl_bytes (width value : Nat) :
    ((List.range width).map fun place =>
        UInt8.ofNat (value / Nat.pow 256 (width - 1 - place))).foldl
      (fun read byte => read * 256 + byte.toNat) 0 = value % 256 ^ width := by
  induction width generalizing value with
  | zero => simp [Nat.mod_one]
  | succ width inductionHypothesis =>
      have higher : ∀ place ∈ List.range width,
          UInt8.ofNat (value / Nat.pow 256 (width + 1 - 1 - place)) =
            UInt8.ofNat (value / 256 / Nat.pow 256 (width - 1 - place)) := by
        intro place isPlace
        have isBelow := List.mem_range.mp isPlace
        have exponent : width + 1 - 1 - place = width - 1 - place + 1 := by omega
        rw [exponent, Nat.div_div_eq_div_mul, Nat.mul_comm]
        rfl
      rw [List.range_succ, List.map_append, List.foldl_append, List.map_congr_left higher,
        inductionHypothesis]
      simp only [List.map_cons, List.map_nil, List.foldl_cons, List.foldl_nil]
      have last : (UInt8.ofNat (value / Nat.pow 256 (width + 1 - 1 - width))).toNat =
          value % 256 := by
        simp
      rw [last, Nat.pow_succ, Nat.mul_comm (256 ^ width), Nat.mod_mul]
      omega

theorem ofBytes?_toBytes (id : Identifier) : ofBytes? id.toBytes = some id := by
  have isLength : id.toBytes.length = 16 := by simp [toBytes]
  have bound : id.bits.toNat < 256 ^ 16 := id.bits.isLt
  have sameNumber := foldl_bytes 16 id.bits.toNat
  rw [Nat.mod_eq_of_lt bound] at sameNumber
  rw [ofBytes?, if_pos isLength, toBytes, sameNumber]
  simp [ofNat]

end Identifier

open Bytes

theorem Snapshot.isReadBack_identifier (id : Identifier) :
    IsReadBack Snapshot.readIdentifier Snapshot.identifierBytes id := by
  intro rest
  have isLength : id.toBytes.length = 16 := by simp [Identifier.toBytes]
  have bound : IsLength id.toBytes.length := by
    rw [isLength]
    decide
  rw [Snapshot.readIdentifier, Snapshot.identifierBytes, List.append_assoc,
    isReadBack_length bound]
  simp [readBlock_append, Identifier.ofBytes?_toBytes]

/-! ## The parts of a snapshot -/

namespace ScalarType

/-- A text is not longer than 64 bits can count; numbers always fit. -/
def Fits : (kind : ScalarType) → kind.Carrier → Prop
  | .long, _ => True
  | .text, (content : String) => IsLength (ofChars content).length
  | .double, _ => True

instance : (kind : ScalarType) → (scalar : kind.Carrier) → Decidable (kind.Fits scalar)
  | .long, _ => isTrue trivial
  | .text, (content : String) => inferInstanceAs (Decidable (IsLength (ofChars content).length))
  | .double, _ => isTrue trivial

@[simp]
theorem ofTag?_tag (kind : ScalarType) : ofTag? kind.tag = some kind := by
  cases kind <;> rfl

theorem isReadBack_scalar (kind : ScalarType) {scalar : kind.Carrier} (fits : kind.Fits scalar) :
    IsReadBack kind.readScalar kind.writeScalar scalar := by
  cases kind with
  | long => exact isReadBack_int64 scalar
  | text => exact isReadBack_text fits
  | double =>
      intro rest
      have readBack := isReadBack_uint64 scalar.bits rest
      simp [readScalar, writeScalar, readBack]

end ScalarType

/-- The rows, the ids and their number fit into 64 bits. -/
@[mk_iff]
structure PageSnapshot.Fits (page : PageSnapshot) : Prop where
  firstRow : IsLong page.firstRow
  count : IsLength page.ids.length
  ids : ∀ id ∈ page.ids, IsLong id

instance (page : PageSnapshot) : Decidable page.Fits :=
  decidable_of_iff' _ (PageSnapshot.fits_iff page)

@[mk_iff]
structure ColumnSnapshot.Fits (column : ColumnSnapshot) : Prop where
  name : IsLength (ofChars column.name).length
  valueCount : IsLength column.values.length
  values : ∀ value ∈ column.values, column.kind.Fits value
  pageCount : IsLength column.pages.length
  pages : ∀ page ∈ column.pages, page.Fits

instance (column : ColumnSnapshot) : Decidable column.Fits :=
  decidable_of_iff' _ (ColumnSnapshot.fits_iff column)

@[mk_iff]
structure ShardSnapshot.Fits (shard : ShardSnapshot) : Prop where
  table : IsLength (ofChars shard.table).length
  lowestRow : IsLong shard.lowestRow
  columnCount : IsLength shard.columns.length
  columns : ∀ column ∈ shard.columns, column.Fits

instance (shard : ShardSnapshot) : Decidable shard.Fits :=
  decidable_of_iff' _ (ShardSnapshot.fits_iff shard)

/-- All numbers of a snapshot, and the lengths of its texts and lists, fit into 64 bits. -/
@[mk_iff]
structure Snapshot.Fits (snapshot : Snapshot) : Prop where
  name : IsLength (ofChars snapshot.name).length
  source : IsLength (ofChars snapshot.source).length
  flattenBy : IsLength (ofChars snapshot.flattenBy).length
  firstRowCount : IsLength snapshot.originalFirstRows.length
  originalFirstRows : ∀ row ∈ snapshot.originalFirstRows, IsLong row
  shardCount : IsLength snapshot.shards.length
  shards : ∀ shard ∈ snapshot.shards, shard.Fits

instance (snapshot : Snapshot) : Decidable snapshot.Fits :=
  decidable_of_iff' _ (Snapshot.fits_iff snapshot)

theorem PageSnapshot.Fits.isReadBack {page : PageSnapshot} (fits : page.Fits) :
    IsReadBack PageSnapshot.read PageSnapshot.toBytes page := by
  intro rest
  have ids := isReadBack_list fits.count fun id isId => isReadBack_int (fits.ids id isId)
  rw [read, toBytes, List.append_assoc, isReadBack_int fits.firstRow]
  simp [ids rest]

theorem ColumnSnapshot.Fits.isReadBack {column : ColumnSnapshot} (fits : column.Fits) :
    IsReadBack ColumnSnapshot.read ColumnSnapshot.toBytes column := by
  intro rest
  have tagBound : column.kind.tag < 256 ^ 4 := by cases column.kind <;> decide
  have values := isReadBack_list fits.valueCount fun value isValue =>
    column.kind.isReadBack_scalar (fits.values value isValue)
  have pages := isReadBack_list fits.pageCount fun page isPage =>
    (fits.pages page isPage).isReadBack
  simp only [IsReadBack] at values pages
  simp [read, toBytes, isReadBack_text fits.name _, isReadBack_ofNat tagBound _, values, pages]

theorem ShardSnapshot.Fits.isReadBack {shard : ShardSnapshot} (fits : shard.Fits) :
    IsReadBack ShardSnapshot.read ShardSnapshot.toBytes shard := by
  intro rest
  have columns := isReadBack_list fits.columnCount fun column isColumn =>
    (fits.columns column isColumn).isReadBack
  simp only [IsReadBack] at columns
  simp [read, toBytes, isReadBack_text fits.table _, isReadBack_int fits.lowestRow _, columns]

theorem Snapshot.Fits.isReadBack {snapshot : Snapshot} (fits : snapshot.Fits) :
    IsReadBack Snapshot.read Snapshot.toBytes snapshot := by
  intro rest
  have firstRows := isReadBack_list fits.firstRowCount fun row isRow =>
    isReadBack_int (fits.originalFirstRows row isRow)
  have shards := isReadBack_list fits.shardCount fun shard isShard =>
    (fits.shards shard isShard).isReadBack
  simp only [IsReadBack] at firstRows shards
  simp [read, toBytes, isReadBack_text fits.name _, isReadBack_text fits.source _,
    isReadBack_text fits.flattenBy _, isReadBack_identifier _ _, firstRows,
    isReadBack_uint64 _ _, shards]

theorem Snapshot.ofBytes_toBytes {snapshot : Snapshot} (fits : snapshot.Fits) :
    ofBytes snapshot.toBytes = .ok snapshot := by
  have readBack := fits.isReadBack []
  rw [List.append_nil] at readBack
  rw [ofBytes, readBack]

end Unnest
