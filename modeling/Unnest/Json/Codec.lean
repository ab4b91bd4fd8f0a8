import Unnest.Error
import Unnest.Json

/-!
# Types with a JSON form

A type says how its values are written as JSON, how they are read, or both.  Reading fails in two
ways: the JSON has the wrong shape, or it has the right shape and describes something that does not
exist.  And what is described can break down when it is carried out.
-/

namespace Unnest

/-- Why nothing was read. -/
inductive ReadFault where
  /-- Something else was expected. -/
  | malformed (expected : String)
  /-- What is described was refused. -/
  | refused (cause : Error)
  /-- What is described broke down. -/
  | crashed
deriving Repr, Inhabited

/-- The result of reading JSON. -/
abbrev Decoded (α : Type) := Except ReadFault α

instance : MonadLift (Except Error) (Except ReadFault) where
  monadLift attempt :=
    match attempt with
    | .ok result => .ok result
    | .error cause => .error (.refused cause)

class ToJson (α : Type) where
  toJson : α → Json

class FromJson (α : Type) where
  fromJson : Json → Decoded α

export ToJson (toJson)
export FromJson (fromJson)

namespace Json

def malformed {α : Type} (expected : String) (json : Json) : Decoded α :=
  .error (.malformed (expected ++ " expected: " ++ json.write))

/-- An object of the given fields. -/
abbrev record (fields : List (String × Json)) : Json := ofFields fields

end Json

/-! ## Writing -/

instance : ToJson Json := ⟨id⟩

instance : ToJson String := ⟨.text⟩

instance : ToJson Int := ⟨.integer⟩

instance : ToJson Nat := ⟨fun value => .integer value⟩

instance : ToJson Bool := ⟨.bool⟩

instance {α : Type} [ToJson α] : ToJson (List α) :=
  ⟨fun items => .array (items.map toJson)⟩

instance {α : Type} [ToJson α] : ToJson (Option α) :=
  ⟨fun optional => optional.elim .null toJson⟩

instance {α β : Type} [ToJson α] [ToJson β] : ToJson (α × β) :=
  ⟨fun pair => .array [toJson pair.1, toJson pair.2]⟩

/-! ## Reading -/

instance : FromJson Json := ⟨.ok⟩

instance : FromJson String where
  fromJson
    | .text value => .ok value
    | json => json.malformed "text"

instance : FromJson Int where
  fromJson
    | .integer value => .ok value
    | json => json.malformed "integer"

instance : FromJson Nat where
  fromJson
    | .integer value => .ok value.toNat
    | json => json.malformed "natural number"

instance : FromJson Bool where
  fromJson
    | .bool value => .ok value
    | json => json.malformed "truth value"

instance {α : Type} [FromJson α] : FromJson (List α) where
  fromJson
    | .array items => items.mapM fromJson
    | json => json.malformed "list"

instance {α β : Type} [FromJson α] [FromJson β] : FromJson (α × β) where
  fromJson
    | .array [first, second] => do pure (← fromJson first, ← fromJson second)
    | json => json.malformed "pair"

namespace Json

/-- A field that may be missing or null, read in a given way. -/
def readWith? {α : Type} (json : Json) (name : String) (read : Json → Decoded α) :
    Decoded (Option α) :=
  match json.field? name with
  | none => .ok none
  | some .null => .ok none
  | some value => (read value).map some

/-- A field that has to be there, read in a given way. -/
def readWith {α : Type} (json : Json) (name : String) (read : Json → Decoded α) : Decoded α :=
  match readWith? json name read with
  | .ok (some value) => .ok value
  | .ok none => .error (.malformed ("missing field " ++ name))
  | .error fault => .error fault

/-- A field that may be missing or null. -/
def find? {α : Type} [FromJson α] (json : Json) (name : String) : Decoded (Option α) :=
  json.readWith? name fromJson

/-- A field that has a default. -/
def findD {α : Type} [FromJson α] (json : Json) (name : String) (default : α) : Decoded α :=
  (json.readWith? name fromJson).map (·.getD default)

/-- A field that has to be there. -/
def get {α : Type} [FromJson α] (json : Json) (name : String) : Decoded α :=
  json.readWith name fromJson

/-- The fields of an object. -/
def entries : Json → Decoded (List (String × Json))
  | .object fields => .ok fields
  | json => json.malformed "object"

end Json

end Unnest
