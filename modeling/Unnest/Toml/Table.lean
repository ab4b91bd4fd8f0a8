import Unnest.Double
import Unnest.OrderedMap

/-!
# TOML tables

A TOML text denotes a table.  Every table remembers how it was written, because that decides whether
a later line may add to it.

Lines add to a table by paths of keys.  A key is given once, a table is opened by one header or by
one place that dots its keys, and nothing is added to a table in braces.
-/

namespace Unnest

/-- How a table came to be. -/
inductive Toml.TableForm where
  /-- By a header line of its own, or as the whole text. -/
  | header
  /-- By the header line of a table further inside. -/
  | passed
  /-- By a dotted key. -/
  | dotted
  /-- In braces. -/
  | inline
deriving DecidableEq, Repr, Inhabited

inductive Toml where
  | text (value : String)
  | integer (value : Int)
  | double (value : Double)
  | bool (value : Bool)
  /-- A date, a time of day or both; which one makes no difference here. -/
  | moment
  | array (items : List Toml)
  | table (form : Toml.TableForm) (entries : List (String × Toml))
  /-- Tables that are written under one repeated header, each given by its entries. -/
  | tables (items : List (List (String × Toml)))
deriving Repr, Inhabited

/-- The entries of a table, by key. -/
abbrev Toml.Entries := OrderedMap String Toml

end Unnest

namespace Unnest.Toml

/-- May a path go through a table of this form?  A dotted path may not enter a table that has a
header. -/
def mayEnter (dotted : Bool) : TableForm → Bool
  | .header => !dotted
  | .passed => true
  | .dotted => true
  | .inline => false

/-- Edit the entries at the end of a path, and make the tables on the way that are missing.  The
edit sees how the table there was written. -/
def editAt (dotted : Bool) (edit : TableForm → Entries → Option Entries) :
    List String → TableForm → Entries → Option Entries
  | [], form, entries => edit form entries
  | key :: rest, _, entries =>
      match OrderedMap.find? key entries with
      | none =>
          let form := if dotted then .dotted else .passed
          (editAt dotted edit rest form []).map fun made =>
            OrderedMap.insert key (.table form made) entries
      | some (.table form inner) =>
          if mayEnter dotted form then
            (editAt dotted edit rest form inner).map fun edited =>
              OrderedMap.insert key (.table form edited) entries
          else none
      | some (.tables items) =>
          (editAt dotted edit rest .header (items.getLast?.getD [])).map fun edited =>
            OrderedMap.insert key (.tables (items.dropLast ++ [edited])) entries
      | some _ => none

/-- Give a value to a key that has none yet. -/
def addNew (key : String) (value : Toml) (entries : Entries) : Option Entries :=
  if OrderedMap.contains key entries then none else some (OrderedMap.insert key value entries)

/-- The path of a table, and the key of what lies directly in it. -/
def splitPath (path : List String) : List String × String :=
  (path.dropLast, path.getLast?.getD "")

/-- Add a value under a path of keys.  If the path has several keys, the innermost table has to be
one that is made of dotted keys. -/
def addValue (entries : Entries) (path : List String) (value : Toml) : Option Entries :=
  let (place, key) := splitPath path
  editAt true
    (fun form inner =>
      if place.isEmpty || form == .dotted then addNew key value inner else none)
    place .header entries

/-- Add values one after the other. -/
def addValues (entries : Entries) : List (List String × Toml) → Option Entries
  | [] => some entries
  | (path, value) :: rest => (addValue entries path value).bind (addValues · rest)

/-! ## Sections -/

/-- Where the lines after a header belong. -/
inductive Header where
  | table (path : List String)
  /-- A new table under a repeated header. -/
  | item (path : List String)
deriving DecidableEq, Repr, Inhabited

/-- Add the lines of a section to the whole table. -/
def addSection (root : Entries) (header : Header) (values : List (List String × Toml)) :
    Option Entries :=
  match header with
  | .table path =>
      let (place, key) := splitPath path
      let define (_ : TableForm) (entries : Entries) : Option Entries :=
        let earlier :=
          match OrderedMap.find? key entries with
          | none => some []
          | some (.table .passed inner) => some inner
          | some _ => none
        (earlier.bind (addValues · values)).map fun inner =>
          OrderedMap.insert key (.table .header inner) entries
      editAt false define place .header root
  | .item path =>
      let (place, key) := splitPath path
      let append (_ : TableForm) (entries : Entries) : Option Entries :=
        let earlier :=
          match OrderedMap.find? key entries with
          | none => some []
          | some (.tables items) => some items
          | some _ => none
        earlier.bind fun items => (addValues [] values).map fun item =>
          OrderedMap.insert key (.tables (items ++ [item])) entries
      editAt false append place .header root

end Unnest.Toml
