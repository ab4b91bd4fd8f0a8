/-!
# Identifiers

Nodes are numbered.  Flatten requests and the tables they produce are named by 128-bit identifiers:
a computation that a request starts gives its result the identifier of that request.  Both are keys
of ordered maps.
-/

namespace Unnest

/-- A node of the cluster. -/
structure NodeId where
  number : Nat
deriving DecidableEq, Repr, Inhabited

namespace NodeId

def toText (node : NodeId) : String :=
  "node:" ++ toString node.number

instance : Ord NodeId where
  compare left right := compare left.number right.number

instance : Std.TransOrd NodeId :=
  inferInstanceAs (Std.TransCmp (compareOn NodeId.number))

instance : Std.LawfulEqOrd NodeId where
  eq_of_compare := by
    rintro ⟨leftNumber⟩ ⟨rightNumber⟩ same
    exact congrArg NodeId.mk (Nat.compare_eq_eq.mp same)

end NodeId

/-- A 128-bit identifier. -/
structure Identifier where
  bits : BitVec 128
deriving DecidableEq, Repr, Inhabited

instance : Ord Identifier :=
  ⟨compareOn fun identifier => identifier.bits.toNat⟩

instance : Std.TransOrd Identifier :=
  inferInstanceAs (Std.TransCmp (compareOn fun identifier : Identifier => identifier.bits.toNat))

instance : Std.LawfulEqOrd Identifier where
  eq_of_compare := by
    rintro ⟨leftBits⟩ ⟨rightBits⟩ same
    have sameNumber : leftBits.toNat = rightBits.toNat := Nat.compare_eq_eq.mp same
    rw [BitVec.eq_of_toNat_eq sameNumber]

/-- The name of one flattened table. -/
abbrev FlattenId := Identifier

/-- The name of one flatten request. -/
abbrev RequestId := Identifier

namespace Identifier

def ofNat (value : Nat) : Identifier := ⟨BitVec.ofNat 128 value⟩

/-- The thirty-two hexadecimal digits, the most significant one first. -/
def digits (identifier : Identifier) : List Char :=
  let significant := Nat.toDigits 16 identifier.bits.toNat
  List.replicate (32 - significant.length) '0' ++ significant

/-- The usual form, with hyphens after 8, 12, 16 and 20 digits. -/
def toText (identifier : Identifier) : String :=
  let digits := identifier.digits
  String.ofList
    (digits.take 8 ++ ['-'] ++ (digits.drop 8).take 4 ++ ['-'] ++ (digits.drop 12).take 4 ++
      ['-'] ++ (digits.drop 16).take 4 ++ ['-'] ++ digits.drop 20)

/-- The text of a flattened table's name. -/
def flattenText (identifier : FlattenId) : String :=
  "flat:" ++ identifier.toText

/-- The text of a request's name. -/
def requestText (identifier : RequestId) : String :=
  "req:" ++ identifier.toText

/-- The sixteen bytes, the most significant one first. -/
def toBytes (identifier : Identifier) : List UInt8 :=
  (List.range 16).map fun place =>
    UInt8.ofNat (identifier.bits.toNat / Nat.pow 256 (15 - place))

/-- The identifier with the given bytes; there have to be sixteen. -/
def ofBytes? (bytes : List UInt8) : Option Identifier :=
  if bytes.length = 16 then
    some (ofNat (bytes.foldl (fun value byte => value * 256 + byte.toNat) 0))
  else
    none

end Identifier

end Unnest
