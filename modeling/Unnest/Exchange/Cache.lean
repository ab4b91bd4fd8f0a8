import Unnest.Cache
import Unnest.Exchange.Table
import Unnest.Settings.Text

/-!
# JSON forms of snapshots and caches

A snapshot is described part by part, so that one can be given that no table has.
-/

namespace Unnest

instance : FromJson PageSnapshot where
  fromJson json := do pure ⟨← json.get "first_row_id", ← json.get "column_ids"⟩

instance : FromJson ColumnSnapshot where
  fromJson json := do
    let name ← json.get "name"
    let pages ← json.get "pages"
    let (kind, values) : String × Json ←
      match ← (← json.get "dictionary" : Json).entries with
      | [dictionary] => pure dictionary
      | _ => json.malformed "dictionary"
    match kind with
    | "Long" => pure ⟨name, .long, ← fromJson values, pages⟩
    | "String" => pure ⟨name, .text, ← fromJson values, pages⟩
    | "Double" => pure ⟨name, .double, ← fromJson values, pages⟩
    | _ => json.malformed "dictionary"

instance : FromJson ShardSnapshot where
  fromJson json := do
    pure ⟨← json.get "table_name", ← json.get "lowest_row_id", ← json.get "columns"⟩

instance : FromJson Snapshot where
  fromJson json := do
    let created : Nat ← json.get "created_at_secs"
    pure
      { name := ← json.get "table_name"
        source := ← json.get "source_table"
        flattenBy := ← json.get "flatten_by"
        id := ← json.get "flatten_id"
        originalFirstRows := ← json.get "original_first_row_ids"
        createdSeconds := UInt64.ofNat created
        shards := ← json.get "shards" }

/-- Read bytes that are given by hexadecimal digits. -/
def decodeBytes (text : String) : Decoded Bytes :=
  match bytesOfHex? text.toList with
  | some bytes => .ok bytes
  | none => (Json.text text).malformed "hexadecimal digits"

instance : ToJson CacheStatistics where
  toJson statistics := .record
    [("memory", toJson statistics.memoryHits), ("disk", toJson statistics.diskHits),
      ("computed", toJson statistics.computed), ("disk_errors", toJson statistics.diskErrors)]

end Unnest
