import Unnest.Exchange.Scalar
import Unnest.Json.Reader
import Unnest.Page

/-!
# JSON forms of dictionaries and pages

A dictionary is described by its values, a page by its ids or by the parts it is made of.
-/

namespace Unnest

/-! ## Dictionaries -/

/-- Read a dictionary of a known type. -/
def decodeDictionary (kind : ScalarType) (json : Json) :
    Decoded (Dictionary kind.Carrier) := do
  match ← json.findD "how" "unsorted" with
  | "unsorted" => pure (Dictionary.ofList (← json.get "values"))
  | "sorted" => Dictionary.ofAscending kind (← json.get "values")
  | "constant" => pure (.constant (← json.get "value"))
  | "empty" => pure .empty
  | _ => json.malformed "dictionary"

/-! ## Pages -/

instance : FromJson IdMap where
  fromJson json := do
    let pairs : List (Int × Int) ← fromJson json
    pure (pairs.foldl (fun ids (old, new) => ids.insert old new) IdMap.identity)

/-- Read a page dictionary that is nested no deeper than `fuel`. -/
def decodePageDictionary : Nat → Json → Decoded PageDictionary
  | 0, json => json.malformed "shallow page dictionary"
  | fuel + 1, json =>
      match json.field? "plain", json.field? "constant" with
      | some ids, _ => do pure (.plain (← fromJson ids : List Int).toArray)
      | none, some id => do pure (.constant (← fromJson id))
      | none, none => do
          let base ← json.readWith "base" (decodePageDictionary fuel)
          pure (.renumbered base (← json.get "remap"))

/-- Read page values that are nested no deeper than `fuel`. -/
def decodePageValues : Nat → Json → Decoded PageValues
  | 0, json => json.malformed "shallow page values"
  | fuel + 1, json =>
      match json.field? "encode", json.field? "constant" with
      | some ids, _ => do pure (.packed (PackedIds.encode (← fromJson ids)))
      | none, some count => do pure (.constant (← fromJson count))
      | none, none => do
          let base ← json.readWith "base" (decodePageValues fuel)
          match json.field? "removed" with
          | some removed => pure (.without base (← fromJson removed : List Nat).toArray)
          | none => pure (.only base (← json.get "kept" : List Nat).toArray)

instance : FromJson Page where
  fromJson json := do
    let first : Int ← json.findD "first" 0
    match json.field? "ids", json.field? "constant" with
    | some ids, _ => pure (Page.encode first (← fromJson ids))
    | none, some shape => do
        let (count, id) : Nat × Int ← fromJson shape
        pure (Page.constant first count id)
    | none, none =>
        pure ⟨first, ← json.readWith "dict" (decodePageDictionary Json.deepest),
          ← json.readWith "values" (decodePageValues Json.deepest)⟩

/-- A short text that names the layers of page values. -/
def PageValues.describe : PageValues → String
  | .packed (.inRuns runs) => "encoded:rle" ++ toString runs.length
  | .packed (.inOffsets _ width _ _) => "encoded:bits" ++ toString width
  | .without base removed =>
      "index_removing:" ++ positionsText removed.toList ++ "(" ++ base.describe ++ ")"
  | .only base kept =>
      "index_filtering:" ++ positionsText kept.toList ++ "(" ++ base.describe ++ ")"
  | .constant count => "constant:" ++ toString count
where
  /-- Positions in brackets, with commas between them. -/
  positionsText (positions : List Nat) : String :=
    "[" ++ ", ".intercalate (positions.map toString) ++ "]"

def PageDictionary.describe : PageDictionary → Json
  | .plain ids => .record [("plain", toJson ids.toList)]
  | .constant id => .record [("constant", toJson id)]
  | .renumbered base ids =>
      let dictionary := PageDictionary.renumbered base ids
      let decoded := (List.range dictionary.size).map fun (localId : Nat) =>
        dictionary.decode? localId
      .record
        [("remapped", toJson decoded), ("changed", toJson ids.changedCount),
          ("base", base.describe)]

instance : ToJson Page where
  toJson page := .record
    [("first", toJson page.firstRow), ("end", toJson page.endRow),
      ("size", toJson page.rowCount), ("enc", .text page.values.describe),
      ("dict", page.dictionary.describe), ("ids", toJson page.ids)]

end Unnest
