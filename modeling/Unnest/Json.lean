import Unnest.Decimal.Layout
import Unnest.Double
import Unnest.OrderedMap

/-!
# JSON values

A document row, as it comes in.  A number is an integer or a double, as it was written: `1` is an
integer and `1.0` a double.  The fields of an object are an ordered map, so a row is visited in the
byte order of its field names, and it is written in this order.
-/

namespace Unnest

/-- A JSON value. -/
inductive Json where
  | null
  | bool (value : Bool)
  | integer (value : Int)
  | double (value : Double)
  | text (value : String)
  | array (items : List Json)
  | object (fields : List (String × Json))
deriving Repr, Inhabited

namespace Json

/-- The field of an object; `none` on any other value. -/
def field? (name : String) : Json → Option Json
  | .object fields => OrderedMap.find? name fields
  | _ => none

/-- An object whose later fields replace earlier ones of the same name. -/
def ofFields (fields : List (String × Json)) : Json :=
  .object (OrderedMap.ofEntries fields)

/-- An object with a further field; any other value stays as it is. -/
def withField (json : Json) (name : String) (value : Json) : Json :=
  match json with
  | .object fields => .object (OrderedMap.insert name value fields)
  | other => other

/-! ## Writing

The compact form: no blanks, fields in their order, doubles in `Decimal.jsonLayout`.  A double that
is not finite has no JSON form and is written as `null`.
-/

def hexDigit (value : Nat) : Char :=
  (Nat.toDigits 16 value).headD '0'

/-- A character inside quotes. -/
def escapeCharacter (character : Char) : List Char :=
  match character with
  | '"' => ['\\', '"']
  | '\\' => ['\\', '\\']
  | '\x08' => ['\\', 'b']
  | '\x0c' => ['\\', 'f']
  | '\n' => ['\\', 'n']
  | '\r' => ['\\', 'r']
  | '\t' => ['\\', 't']
  | _ =>
      if character.toNat < 0x20 then
        ['\\', 'u', '0', '0', hexDigit (character.toNat / 16), hexDigit (character.toNat % 16)]
      else
        [character]

def quote (value : String) : String :=
  "\"" ++ String.ofList (value.toList.flatMap escapeCharacter) ++ "\""

def writeDouble (number : Double) : String :=
  if number.isFinite then Decimal.jsonLayout.write number else "null"

mutual

def write : Json → String
  | .null => "null"
  | .bool value => if value then "true" else "false"
  | .integer value => toString value
  | .double value => writeDouble value
  | .text value => quote value
  | .array items => "[" ++ writeItems items ++ "]"
  | .object fields => "\x7b" ++ writeFields fields ++ "\x7d"

/-- The items of an array, separated by commas. -/
def writeItems : List Json → String
  | [] => ""
  | [item] => write item
  | item :: next :: rest => write item ++ "," ++ writeItems (next :: rest)

/-- The fields of an object, separated by commas. -/
def writeFields : List (String × Json) → String
  | [] => ""
  | [(name, value)] => quote name ++ ":" ++ write value
  | (name, value) :: next :: rest =>
      quote name ++ ":" ++ write value ++ "," ++ writeFields (next :: rest)

end

end Json

end Unnest
