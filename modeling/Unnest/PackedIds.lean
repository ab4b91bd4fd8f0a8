/-!
# Packed ids

An immutable sequence of ids in one of two forms: maximal runs of equal ids, when a run is longer
than four ids on average, and otherwise offsets from the least id, all of the same width in bits,
laid one after the other into 64-bit words from the lowest bit on.

An offset is put into the words and read out of them slice by slice; `slices` says which bits of
which word it takes.
-/

namespace Unnest

/-- A run of equal ids; it ends before the position `stop` and starts where the run before it
ends. -/
structure IdRun where
  value : Int
  stop : Nat
deriving DecidableEq, Repr, Inhabited

/-- A sequence of ids in one of its two forms. -/
inductive PackedIds where
  | inRuns (runs : List IdRun)
  | inOffsets (least : Int) (width count : Nat) (words : Array UInt64)
deriving DecidableEq, Repr, Inhabited

namespace PackedIds

/-! ## Runs -/

/-- The maximal runs of a list that starts at `position`. -/
def runsFrom (position : Nat) : List Int → List IdRun
  | [] => []
  | value :: rest =>
      match runsFrom (position + 1) rest with
      | [] => [⟨value, position + 1⟩]
      | next :: others =>
          if next.value = value then next :: others
          else ⟨value, position + 1⟩ :: next :: others

/-- The ids of runs that start at `position`. -/
def expandFrom (position : Nat) : List IdRun → List Int
  | [] => []
  | run :: rest => List.replicate (run.stop - position) run.value ++ expandFrom run.stop rest

/-! ## Words -/

/-- Bits of one word: `width` bits from the bit `shift` on. -/
structure Slice where
  word : Nat
  shift : Nat
  width : Nat
deriving DecidableEq, Repr, Inhabited

/-- The slices of words that hold `width` bits from the bit `start` on, the lowest first. -/
def slices (start width : Nat) : List Slice :=
  if width = 0 then
    []
  else
    let taken := min width (64 - start % 64)
    ⟨start / 64, start % 64, taken⟩ :: slices (start + taken) (width - taken)
termination_by width
decreasing_by
  have : start % 64 < 64 := Nat.mod_lt _ (by decide)
  omega

/-- The number that slices hold, the lowest first. -/
def readSlices (words : Array UInt64) : List Slice → Nat
  | [] => 0
  | slice :: rest =>
      ((words.getD slice.word 0).toNat >>> slice.shift) % Nat.pow 2 slice.width +
        Nat.pow 2 slice.width * readSlices words rest

/-- Put a number into slices that hold no bits yet, its lowest bits first. -/
def storeSlices (number : Nat) (words : Array UInt64) : List Slice → Array UInt64
  | [] => words
  | slice :: rest =>
      let bits := UInt64.ofNat number <<< UInt64.ofNat slice.shift
      storeSlices (number >>> slice.width)
        (words.setIfInBounds slice.word (words.getD slice.word 0 ||| bits)) rest

/-- Store offsets of `width` bits one after the other, from a position on. -/
def storeOffsets (width position : Nat) (words : Array UInt64) : List Nat → Array UInt64
  | [] => words
  | offset :: rest =>
      storeOffsets width (position + 1)
        (storeSlices offset words (slices (position * width) width)) rest

/-- The number of bits of a natural; none for zero. -/
def bitWidth (number : Nat) : Nat :=
  if number = 0 then 0 else number.log2 + 1

def packOffsets (ids : List Int) : PackedIds :=
  let least := ids.min?.getD 0
  let greatest := ids.max?.getD 0
  let width := bitWidth (greatest - least).toNat
  let words := Array.replicate ((ids.length * width + 63) / 64) 0
  .inOffsets least width ids.length
    (storeOffsets width 0 words (ids.map fun value => (value - least).toNat))

/-! ## The sequence -/

/-- Pack a list of ids, in the form that suits it. -/
def encode (ids : List Int) : PackedIds :=
  let runs := runsFrom 0 ids
  if 4 < ids.length ∧ runs.length * 4 < ids.length then
    .inRuns runs
  else
    packOffsets ids

def length : PackedIds → Nat
  | .inRuns runs => (runs.getLast?.map (·.stop)).getD 0
  | .inOffsets _ _ count _ => count

/-- The id at a position, given that it is in range. -/
def unpack (least : Int) (width : Nat) (words : Array UInt64) (position : Nat) : Int :=
  least + readSlices words (slices (position * width) width)

/-- The id at a position. -/
def get? (ids : PackedIds) (position : Nat) : Option Int :=
  match ids with
  | .inRuns runs => (runs.find? fun run => position < run.stop).map (·.value)
  | .inOffsets least width count words =>
      if position < count then some (unpack least width words position) else none

/-- All ids. -/
def toList : PackedIds → List Int
  | .inRuns runs => expandFrom 0 runs
  | .inOffsets least width count words => (List.range count).map (unpack least width words)

/-- The approximate size in bytes. -/
def byteSize : PackedIds → Nat
  | .inRuns runs => runs.length * 16
  | .inOffsets _ _ _ words => words.size * 8

end PackedIds

end Unnest
