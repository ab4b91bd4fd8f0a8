import Unnest.Json.Codec
import Unnest.Settings
import Unnest.Text.Digits

/-!
# JSON forms of scalars

A double is given by its sixteen hexadecimal digits, so that no bit of it is lost; where one is
read, a number will do as well.  An identifier is a number or its text.
-/

namespace Unnest

/-- Hexadecimal digits, filled up with leading zeros. -/
def hexText (width value : Nat) : String :=
  let digits := Nat.toDigits 16 value
  String.ofList (List.replicate (width - digits.length) '0' ++ digits)

def hexOfBytes (bytes : List UInt8) : String :=
  String.join (bytes.map fun byte => hexText 2 byte.toNat)

/-- The bytes that pairs of hexadecimal digits stand for. -/
def bytesOfHex? : List Char → Option (List UInt8)
  | [] => some []
  | first :: second :: rest => do
      let byte ← Text.hexValue? [first, second]
      pure (UInt8.ofNat byte :: (← bytesOfHex? rest))
  | _ => none

instance : ToJson Double :=
  ⟨fun double => .record [("d", .text (hexText 16 double.bits.toNat))]⟩

instance : ToJson Int64 := ⟨fun long => .integer long.toInt⟩

instance : ToJson Value where
  toJson
    | .long number => toJson number
    | .text content => toJson content
    | .double number => toJson number

instance : ToJson ScalarType := ⟨fun kind => .text kind.name⟩

instance : ToJson NodeId := ⟨fun node => toJson node.number⟩

def scalarToJson (kind : ScalarType) (scalar : kind.Carrier) : Json :=
  toJson (kind.toValue scalar)

def decodeHex (text : String) : Decoded Nat :=
  match Text.hexValue? text.toList with
  | some value => .ok value
  | none => (Json.text text).malformed "hexadecimal digits"

instance : FromJson Double where
  fromJson
    | .double value => .ok value
    | .integer value => .ok (Double.ofInt value)
    | json => do pure ⟨UInt64.ofNat (← decodeHex (← json.get "d"))⟩

instance : FromJson Int64 := ⟨fun json => (fromJson json).map Int64.ofInt⟩

instance : FromJson NodeId := ⟨fun json => (fromJson json).map NodeId.mk⟩

instance : FromJson ScalarType where
  fromJson json := do
    match ← fromJson json with
    | "long" => pure .long
    | "double" => pure .double
    | "string" => pure .text
    | _ => json.malformed "type"

instance (kind : ScalarType) : FromJson kind.Carrier :=
  match kind with
  | .long => inferInstanceAs (FromJson Int64)
  | .text => inferInstanceAs (FromJson String)
  | .double => inferInstanceAs (FromJson Double)

instance : FromJson Identifier where
  fromJson
    | .integer value => .ok (Identifier.ofNat value.toNat)
    | json => do
        let text : String ← fromJson json
        pure (Identifier.ofNat (← decodeHex (String.ofList (text.toList.filter (· != '-')))))

instance : FromJson FlattenSettings where
  fromJson json := do
    let defaults : FlattenSettings := {}
    pure
      { maxPageRows := ← json.findD "max_page_rows" defaults.maxPageRows
        defaultLong := ← json.findD "default_long" defaults.defaultLong
        defaultDouble := ← json.findD "default_double" defaults.defaultDouble
        defaultText := ← json.findD "default_string" defaults.defaultText }

instance : ToJson Settings where
  toJson settings :=
    let flatten := settings.flatten
    let cache := settings.cache
    let cluster := settings.cluster
    let durations := toJson [cluster.timeoutMillis, cluster.backoffMillis]
    .record
      [("node", .array [toJson settings.node, .text settings.node.toText]),
        ("flatten", .array [toJson flatten.maxPageRows, toJson flatten.defaultLong,
          toJson flatten.defaultDouble, .text flatten.defaultText]),
        ("cache", .array [toJson cache.instancesPerKey, toJson cache.maxFlattenIds,
          toJson cache.memorySeconds, .text cache.diskDirectory, toJson cache.diskSeconds]),
        ("cache_derived", .array [toJson cache.memoryBound, toJson cache.diskBound,
          .bool cache.usesDisk]),
        ("cluster", durations), ("cluster_derived", durations)]

end Unnest
