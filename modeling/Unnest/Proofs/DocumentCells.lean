import Unnest.Document.Cells
import Unnest.Proofs.FieldPathText
import Unnest.Proofs.OrderedMap

/-!
# Where the cells of a document are

A cell stands at a path if following the path through the document leads to its scalar
(`Json.cellAt?`).  Collecting the cells of a document succeeds if every field name can stand in a
path and no array is an item of another one, and it finds exactly the cells that stand at paths.
-/

namespace Unnest

namespace Json

/-! ## Values inside values -/

/-- The second value is the first one, or is found inside of it. -/
inductive Contains : Json → Json → Prop where
  | self (value : Json) : Contains value value
  | field {fields : List (String × Json)} {entry : String × Json} {inner : Json}
      (isField : entry ∈ fields) (inside : Contains entry.2 inner) :
      Contains (.object fields) inner
  | item {items : List Json} {item inner : Json} (isItem : item ∈ items)
      (inside : Contains item inner) : Contains (.array items) inner

/-- Every value inside of this one meets a condition. -/
def Everywhere (Meets : Json → Prop) (value : Json) : Prop :=
  ∀ inner, value.Contains inner → Meets inner

theorem everywhere_object (Meets : Json → Prop) (fields : List (String × Json)) :
    (Json.object fields).Everywhere Meets ↔
      Meets (.object fields) ∧ ∀ entry ∈ fields, entry.2.Everywhere Meets := by
  constructor
  · intro everywhere
    exact ⟨everywhere _ (.self _),
      fun entry isField inner inside => everywhere inner (.field isField inside)⟩
  · rintro ⟨here, below⟩ inner inside
    cases inside with
    | self => exact here
    | field isField isInner => exact below _ isField inner isInner

theorem everywhere_array (Meets : Json → Prop) (items : List Json) :
    (Json.array items).Everywhere Meets ↔
      Meets (.array items) ∧ ∀ item ∈ items, item.Everywhere Meets := by
  constructor
  · intro everywhere
    exact ⟨everywhere _ (.self _),
      fun item isItem inner inside => everywhere inner (.item isItem inside)⟩
  · rintro ⟨here, below⟩ inner inside
    cases inside with
    | self => exact here
    | item isItem isInner => exact below _ isItem inner isInner

theorem everywhere_flat {Meets : Json → Prop} {value : Json}
    (notObject : ∀ fields, value ≠ .object fields) (notArray : ∀ items, value ≠ .array items)
    (meets : Meets value) : value.Everywhere Meets := by
  intro inner inside
  cases inside with
  | self => exact meets
  | field => exact absurd rfl (notObject _)
  | item => exact absurd rfl (notArray _)

/-- Whatever holds of the scalars, and of arrays and objects if it holds of their parts, holds of
all values. -/
theorem induction {Meets : Json → Prop} (null : Meets .null) (bool : ∀ value, Meets (.bool value))
    (integer : ∀ value, Meets (.integer value)) (double : ∀ value, Meets (.double value))
    (text : ∀ value, Meets (.text value))
    (array : ∀ items, (∀ item ∈ items, Meets item) → Meets (.array items))
    (object : ∀ fields, (∀ entry ∈ fields, Meets entry.2) → Meets (.object fields)) :
    ∀ value, Meets value
  | .null => null
  | .bool value => bool value
  | .integer value => integer value
  | .double value => double value
  | .text value => text value
  | .array items => array items fun item isItem =>
      have := List.sizeOf_lt_of_mem isItem
      induction null bool integer double text array object item
  | .object fields => object fields fun (name, value) isField =>
      have isSmaller : sizeOf value < sizeOf fields := by
        have := List.sizeOf_lt_of_mem isField
        rw [Prod.mk.sizeOf_spec] at this
        omega
      induction null bool integer double text array object value

/-! ## What can be loaded -/

def isArray : Json → Bool
  | .array _ => true
  | _ => false

/-- The name is not empty, and has no dots or brackets. -/
def IsPlainName (name : String) : Prop :=
  name ≠ "" ∧ ∀ character ∈ name.toList, character ≠ '.' ∧ character ≠ '[' ∧ character ≠ ']'

/-- The fields of an object have plain names, and no item of an array is an array. -/
def HasPlainParts : Json → Prop
  | .object fields => ∀ entry ∈ fields, IsPlainName entry.1
  | .array items => ∀ item ∈ items, item.isArray = false
  | _ => True

/-- The document is an object, all field names in it are plain, and no array is an item of
another. -/
structure IsLoadable (document : Json) : Prop where
  isObject : ∃ fields, document = .object fields
  plain : document.Everywhere HasPlainParts

/-- The fields of an object are an ordered map, and the places of an array have thirty-two bits. -/
def HasRegularParts : Json → Prop
  | .object fields => OrderedMap.IsOrdered fields
  | .array items => items.length < FieldPath.positionBound
  | _ => True

/-- All objects are ordered maps, and all arrays are short enough. -/
def IsRegular (value : Json) : Prop :=
  value.Everywhere HasRegularParts

/-! ## Cells at paths -/

/-- A scalar as the value of a cell; `null`, arrays and objects have none. -/
def scalar? : Json → Option Value
  | .bool value => some (.long (if value then 1 else 0))
  | .integer value => some (integerValue value)
  | .double value => some (.double value)
  | .text value => some (.text value)
  | _ => none

/-- The value behind an index: the value itself, an item, or the number of items. -/
def indexed? : PathIndex → Json → Option Json
  | .none, value => some value
  | .entry position, .array items => items[position]?
  | .length, .array items => some (.integer items.length)
  | _, _ => none

/-- The scalar that a path leads to. -/
def cellAt? : FieldPath → Json → Option Value
  | [], value => value.scalar?
  | segment :: rest, value =>
      ((value.field? segment.name).bind (indexed? segment.index)).bind (cellAt? rest)

theorem cellAt?_eq_some_iff {value : Json} (noField : ∀ name, value.field? name = none)
    (path : FieldPath) (found : Value) :
    value.cellAt? path = some found ↔ path = [] ∧ value.scalar? = some found := by
  cases path with
  | nil => simp [cellAt?]
  | cons segment rest => simp [cellAt?, noField]

theorem indexed?_of_not_isArray {value : Json} (notArray : value.isArray = false)
    {index : PathIndex} (isIndex : index ≠ .none) : value.indexed? index = none := by
  cases value with
  | array items => cases notArray
  | _ =>
      cases index with
      | none => exact absurd rfl isIndex
      | _ => rfl

end Json

/-! ## Cells of values -/

/-- The path with an index, unless there is none, on its last segment. -/
def FieldPath.indexedBy (path : FieldPath) (index : PathIndex) : FieldPath :=
  if index = .none then path else path.withLastIndex index

theorem FieldPath.withLastIndex_concat (path : FieldPath) (name : String)
    (before index : PathIndex) :
    withLastIndex index (path ++ [⟨name, before⟩]) = path ++ [⟨name, index⟩] := by
  induction path with
  | nil => rfl
  | cons segment rest inductionHypothesis =>
      cases rest with
      | nil => rfl
      | cons next others =>
          rw [List.cons_append, List.cons_append, withLastIndex, ← List.cons_append,
            inductionHypothesis]
          rfl

theorem FieldPath.indexedBy_concat (path : FieldPath) (name : String) (index : PathIndex) :
    indexedBy (path ++ [⟨name, .none⟩]) index = path ++ [⟨name, index⟩] := by
  by_cases isNone : index = .none
  · rw [indexedBy, if_pos isNone, isNone]
  · rw [indexedBy, if_neg isNone, withLastIndex_concat]

namespace Json

/-- The cell stands somewhere in a value, which itself stands at a path. -/
def HasCell (path : FieldPath) (value : Json) (cell : Cell) : Prop :=
  ∃ index rest, cell.path = path.indexedBy index ++ rest ∧
    (value.indexed? index).bind (cellAt? rest) = some cell.value

variable {path : FieldPath} {value : Json} {cell : Cell}

theorem hasCell_of_not_isArray (notArray : value.isArray = false) :
    value.HasCell path cell ↔
      ∃ rest, cell.path = path ++ rest ∧ value.cellAt? rest = some cell.value := by
  constructor
  · rintro ⟨index, rest, isPath, isCell⟩
    by_cases isNone : index = .none
    · subst isNone
      exact ⟨rest, isPath, isCell⟩
    · rw [indexed?_of_not_isArray notArray isNone] at isCell
      cases isCell
  · rintro ⟨rest, isPath, isCell⟩
    exact ⟨.none, rest, isPath, isCell⟩

theorem hasCell_scalar (notArray : value.isArray = false)
    (noField : ∀ name, value.field? name = none) :
    value.HasCell path cell ↔ cell.path = path ∧ value.scalar? = some cell.value := by
  rw [hasCell_of_not_isArray notArray]
  constructor
  · rintro ⟨rest, isPath, isCell⟩
    obtain ⟨rfl, isScalar⟩ := (cellAt?_eq_some_iff noField rest _).mp isCell
    exact ⟨isPath.trans (List.append_nil path), isScalar⟩
  · rintro ⟨isPath, isScalar⟩
    exact ⟨[], isPath.trans (List.append_nil path).symm, isScalar⟩

theorem hasCell_object {fields : List (String × Json)} (ordered : OrderedMap.IsOrdered fields) :
    (Json.object fields).HasCell path cell ↔
      ∃ entry ∈ fields, entry.2.HasCell (path ++ [⟨entry.1, .none⟩]) cell := by
  rw [hasCell_of_not_isArray rfl]
  constructor
  · rintro ⟨rest, isPath, isCell⟩
    cases rest with
    | nil => cases isCell
    | cons segment more =>
        obtain ⟨inner, isInner, isThere⟩ := Option.bind_eq_some_iff.mp isCell
        obtain ⟨field, isField, isIndexed⟩ := Option.bind_eq_some_iff.mp isInner
        refine ⟨(segment.name, field), OrderedMap.mem_of_find? isField, segment.index, more, ?_, ?_⟩
        · rw [isPath, FieldPath.indexedBy_concat, List.append_assoc]
          rfl
        · rw [isIndexed]
          exact isThere
  · rintro ⟨⟨name, field⟩, isField, index, rest, isPath, isCell⟩
    refine ⟨⟨name, index⟩ :: rest, ?_, ?_⟩
    · rw [isPath, FieldPath.indexedBy_concat, List.append_assoc]
      rfl
    · have isFound : (Json.object fields).field? name = some field :=
        (OrderedMap.find?_eq_some_iff_mem ordered name field).mpr isField
      rw [cellAt?, isFound]
      exact isCell

theorem integerValue_length {items : List Json} (short : items.length < FieldPath.positionBound) :
    integerValue items.length = .long (Int64.ofNat items.length) := by
  have fits : Int64.minValue.toInt ≤ (items.length : Int) ∧
      (items.length : Int) ≤ Int64.maxValue.toInt := by
    have isBound : FieldPath.positionBound = 4294967296 := rfl
    have isLeast : Int64.minValue.toInt = -9223372036854775808 := by decide
    have isGreatest : Int64.maxValue.toInt = 9223372036854775807 := by decide
    omega
  rw [integerValue, if_pos fits]
  rfl

theorem hasCell_array {items : List Json} (short : items.length < FieldPath.positionBound)
    (flat : ∀ item ∈ items, item.isArray = false) :
    (Json.array items).HasCell path cell ↔
      cell = ⟨path.lengthColumn, .long (Int64.ofNat items.length)⟩ ∨
        ∃ position, ∃ item : Json, items[position]? = some item ∧
          item.HasCell (path.withLastIndex (.entry position)) cell := by
  constructor
  · rintro ⟨index, rest, isPath, isCell⟩
    cases index with
    | none =>
        obtain ⟨_, isScalar⟩ := (cellAt?_eq_some_iff (fun _ => rfl) rest _).mp isCell
        cases isScalar
    | all => cases isCell
    | entry position =>
        obtain ⟨item, isItem, isThere⟩ := Option.bind_eq_some_iff.mp isCell
        have notArray := flat item (List.mem_of_getElem? isItem)
        exact Or.inr ⟨position, item, isItem,
          (hasCell_of_not_isArray notArray).mpr ⟨rest, isPath, isThere⟩⟩
    | length =>
        obtain ⟨rfl, isLength⟩ := (cellAt?_eq_some_iff (fun _ => rfl) rest _).mp isCell
        have isValue := (integerValue_length short).symm.trans (Option.some.inj isLength)
        exact Or.inl (congrArg₂ Cell.mk (isPath.trans (List.append_nil _)) isValue.symm)
  · rintro (rfl | ⟨position, item, isItem, itemHasCell⟩)
    · refine ⟨.length, [], (List.append_nil _).symm, ?_⟩
      exact congrArg some (integerValue_length short)
    · have notArray := flat item (List.mem_of_getElem? isItem)
      obtain ⟨rest, isPath, isThere⟩ := (hasCell_of_not_isArray notArray).mp itemHasCell
      refine ⟨.entry position, rest, isPath, ?_⟩
      rw [indexed?, isItem]
      exact isThere

end Json

/-! ## Outcomes -/

/-- The outcome is a result that meets a condition if something holds, and an error otherwise. -/
inductive SucceedsIff {α : Type} (Holds : Prop) (Meets : α → Prop) : Outcome α → Prop where
  | success {result : α} (holds : Holds) (meets : Meets result) :
      SucceedsIff Holds Meets (.ok result)
  | failure (error : Error) (fails : ¬ Holds) : SucceedsIff Holds Meets (.error error)

theorem SucceedsIff.change {α : Type} {Holds Also : Prop} {Meets Fits : α → Prop}
    {outcome : Outcome α} (succeeds : SucceedsIff Holds Meets outcome) (same : Holds ↔ Also)
    (fits : Holds → ∀ result, Meets result → Fits result) : SucceedsIff Also Fits outcome := by
  cases succeeds with
  | success holds meets => exact .success (same.mp holds) (fits holds _ meets)
  | failure error fails => exact .failure error fun also => fails (same.mpr also)

namespace Document

open Json (HasPlainParts)

theorem isFieldName_iff (name : String) : isFieldName name = true ↔ Json.IsPlainName name := by
  simp [isFieldName, Json.IsPlainName, and_assoc]

/-- The cells are exactly those that meet a condition. -/
def Lists (IsCell : Cell → Prop) (cells : List Cell) : Prop :=
  ∀ cell, cell ∈ cells ↔ IsCell cell

theorem Lists.change {IsCell Other : Cell → Prop} {cells : List Cell} (lists : Lists IsCell cells)
    (same : ∀ cell, IsCell cell ↔ Other cell) : Lists Other cells :=
  fun cell => (lists cell).trans (same cell)

theorem Lists.append {First Second : Cell → Prop} {first second : List Cell}
    (listsFirst : Lists First first) (listsSecond : Lists Second second) :
    Lists (fun cell => First cell ∨ Second cell) (first ++ second) := by
  intro cell
  rw [List.mem_append, listsFirst, listsSecond]

theorem succeedsIff_append {Holds Also : Prop} {First Second : Cell → Prop}
    {first second : Outcome (List Cell)} :
    SucceedsIff Holds (Lists First) first → SucceedsIff Also (Lists Second) second →
      SucceedsIff (Holds ∧ Also) (Lists fun cell => First cell ∨ Second cell)
        (match first with
        | .error error => .error error
        | .ok cells =>
            match second with
            | .error error => .error error
            | .ok others => .ok (cells ++ others)) := by
  intro firstSucceeds secondSucceeds
  cases firstSucceeds with
  | failure error fails => exact .failure error fun both => fails both.1
  | success holds listsFirst =>
      cases secondSucceeds with
      | failure error fails => exact .failure error fun both => fails both.2
      | success also listsSecond => exact .success ⟨holds, also⟩ (listsFirst.append listsSecond)

/-! ## Collecting cells -/

theorem cellsOfFields_outcome {path : FieldPath} {fields : List (String × Json)}
    (each : ∀ entry ∈ fields, SucceedsIff (entry.2.Everywhere HasPlainParts)
      (Lists (entry.2.HasCell (path ++ [⟨entry.1, .none⟩])))
      (cellsAt (path ++ [⟨entry.1, .none⟩]) false entry.2)) :
    SucceedsIff (∀ entry ∈ fields, Json.IsPlainName entry.1 ∧ entry.2.Everywhere HasPlainParts)
      (Lists fun cell => ∃ entry ∈ fields, entry.2.HasCell (path ++ [⟨entry.1, .none⟩]) cell)
      (cellsOfFields path fields) := by
  induction fields with
  | nil => exact .success (by simp) (by simp [Lists])
  | cons entry rest inductionHypothesis =>
      obtain ⟨name, value⟩ := entry
      have here := each (name, value) List.mem_cons_self
      have later := inductionHypothesis fun other member =>
        each other (List.mem_cons_of_mem _ member)
      rw [cellsOfFields]
      simp only [List.forall_mem_cons, List.exists_mem_cons_iff]
      by_cases isPlain : Json.IsPlainName name
      · rw [if_pos ((isFieldName_iff name).mpr isPlain)]
        apply (succeedsIff_append here later).change
        · rw [and_iff_right isPlain]
        · exact fun _ _ lists => lists
      · rw [if_neg fun isName => isPlain ((isFieldName_iff name).mp isName)]
        exact .failure _ fun all => isPlain all.1.1

theorem cellsOfItems_outcome {path : FieldPath} {position : Nat} {items : List Json}
    (each : ∀ item ∈ items, ∀ place,
      SucceedsIff (item.isArray = false ∧ item.Everywhere HasPlainParts)
        (Lists (item.HasCell (path.withLastIndex (.entry place))))
        (cellsAt (path.withLastIndex (.entry place)) true item)) :
    SucceedsIff (∀ item ∈ items, item.isArray = false ∧ item.Everywhere HasPlainParts)
      (Lists fun cell => ∃ place, ∃ item : Json, items[place]? = some item ∧
        item.HasCell (path.withLastIndex (.entry (position + place))) cell)
      (cellsOfItems path position items) := by
  induction items generalizing position with
  | nil => exact .success (by simp) (by simp [Lists])
  | cons first rest inductionHypothesis =>
      have here := each first List.mem_cons_self position
      have later : SucceedsIff _ _ (cellsOfItems path (position + 1) rest) :=
        inductionHypothesis fun other member => each other (List.mem_cons_of_mem _ member)
      rw [cellsOfItems]
      apply (succeedsIff_append here later).change
      · rw [List.forall_mem_cons]
      · intro _ cells lists
        apply lists.change
        intro cell
        constructor
        -- Item number `place` of the rest is the next one of the whole list.
        · rintro (isFirst | ⟨place, item, isItem, isCell⟩)
          · exact ⟨0, first, rfl, isFirst⟩
          · refine ⟨place + 1, item, isItem, ?_⟩
            rwa [← Nat.add_assoc, Nat.add_right_comm]
        · rintro ⟨place, item, isItem, isCell⟩
          cases place with
          | zero =>
              cases isItem
              exact Or.inl isCell
          | succ before =>
              refine Or.inr ⟨before, item, isItem, ?_⟩
              rwa [Nat.add_right_comm, Nat.add_assoc]

theorem lists_scalar {value : Json} (notArray : value.isArray = false)
    (noField : ∀ name, value.field? name = none) (path : FieldPath) :
    Lists (value.HasCell path) (value.scalar?.toList.map fun found => ⟨path, found⟩) := by
  rintro ⟨cellPath, found⟩
  rw [Json.hasCell_scalar notArray noField, List.mem_map]
  constructor
  · rintro ⟨other, isScalar, same⟩
    cases same
    exact ⟨rfl, Option.mem_toList.mp isScalar⟩
  · rintro ⟨rfl, isScalar⟩
    exact ⟨found, Option.mem_toList.mpr isScalar, rfl⟩

/-- Collecting the cells of a value succeeds if its parts are plain and it is not an array inside of
an array, and it finds the cells that stand somewhere in the value. -/
theorem cellsAt_outcome (value : Json) : ∀ path isEntry, value.IsRegular →
    SucceedsIff ((isEntry = true → value.isArray = false) ∧ value.Everywhere HasPlainParts)
      (Lists (value.HasCell path)) (cellsAt path isEntry value) := by
  induction value using Json.induction with
  | null | bool value | integer value | double value | text value =>
      intro path isEntry _
      exact .success ⟨fun _ => rfl, Json.everywhere_flat (by simp) (by simp) trivial⟩
        (lists_scalar rfl (fun _ => rfl) path)
  | array items each =>
      intro path isEntry regular
      obtain ⟨short, itemsRegular⟩ := (Json.everywhere_array _ _).mp regular
      rw [Json.everywhere_array, cellsAt]
      cases isEntry with
      | true =>
          refine .failure _ fun both => ?_
          cases both.1 rfl
      | false =>
          have itemsOutcome : SucceedsIff _ _ (cellsOfItems path 0 items) :=
            cellsOfItems_outcome fun item isItem place =>
              (each item isItem (path.withLastIndex (.entry place)) true
                (itemsRegular item isItem)).change (by simp) fun _ _ lists => lists
          rw [if_neg Bool.false_ne_true]
          generalize cellsOfItems path 0 items = outcome at itemsOutcome
          cases itemsOutcome with
          | failure error fails =>
              exact .failure error fun both => fails fun item isItem =>
                ⟨both.2.1 item isItem, both.2.2 item isItem⟩
          | success holds lists =>
              have flat : ∀ item ∈ items, item.isArray = false :=
                fun item isItem => (holds item isItem).1
              refine .success ⟨by simp, flat, fun item isItem => (holds item isItem).2⟩ ?_
              intro cell
              rw [List.mem_cons, lists, Json.hasCell_array short flat]
              simp only [Nat.zero_add]
  | object fields each =>
      intro path isEntry regular
      obtain ⟨ordered, fieldsRegular⟩ := (Json.everywhere_object _ _).mp regular
      rw [Json.everywhere_object, cellsAt]
      apply (cellsOfFields_outcome fun entry isField =>
        (each entry isField (path ++ [⟨entry.1, .none⟩]) false (fieldsRegular entry isField)).change
          (by simp) fun _ _ lists => lists).change
      · simp only [Json.isArray, implies_true, true_and, HasPlainParts]
        exact forall₂_and
      · intro _ cells lists
        exact lists.change fun cell => (Json.hasCell_object ordered).symm

/-- Collecting the cells of a document succeeds if it can be loaded, and finds the cells that stand
at paths of it. -/
theorem cells_outcome (row : Int) {document : Json} (regular : document.IsRegular) :
    SucceedsIff document.IsLoadable
      (Lists fun cell => document.cellAt? cell.path = some cell.value) (cells row document) := by
  cases document with
  | object fields =>
      have outcome := cellsAt_outcome (.object fields) [] false regular
      rw [cellsAt] at outcome
      apply outcome.change
      · exact ⟨fun both => ⟨⟨fields, rfl⟩, both.2⟩, fun loadable => ⟨fun _ => rfl, loadable.plain⟩⟩
      · intro _ found lists
        apply lists.change
        intro cell
        rw [Json.hasCell_of_not_isArray rfl]
        simp
  | _ =>
      refine .failure _ fun loadable => ?_
      obtain ⟨fields, isObject⟩ := loadable.isObject
      cases isObject

end Document

/-! ## Paths of cells -/

namespace Json

/-- The segments are valid, and only the last one may name a length. -/
structure HasValidSegments (path : FieldPath) : Prop where
  segments : ∀ segment ∈ path, segment.IsValid
  lengthLast : ∀ segment ∈ path.dropLast, segment.index ≠ .length

theorem HasValidSegments.cons {segment : PathSegment} {rest : FieldPath}
    (segmentValid : segment.IsValid) (notLength : segment.index ≠ .length)
    (restValid : HasValidSegments rest) : HasValidSegments (segment :: rest) where
  segments := List.forall_mem_cons.mpr ⟨segmentValid, restValid.segments⟩
  lengthLast := by
    cases rest with
    | nil => simp
    | cons next others => exact List.forall_mem_cons.mpr ⟨notLength, restValid.lengthLast⟩

/-- What is behind an index keeps to the conditions, and behind a length there is a number. -/
theorem indexed?_eq_some {value inner : Json} (plain : value.Everywhere HasPlainParts)
    (regular : value.IsRegular) {index : PathIndex}
    (isIndexed : value.indexed? index = some inner) :
    (inner.Everywhere HasPlainParts ∧ inner.IsRegular) ∧
      (∀ position, index = .entry position → position < FieldPath.positionBound) ∧
      (index = .length → ∃ count, inner = .integer count) := by
  cases index with
  | none =>
      cases isIndexed
      exact ⟨⟨plain, regular⟩, by simp, by simp⟩
  | all => cases value <;> cases isIndexed
  | entry place =>
      cases value with
      | array items =>
          obtain ⟨short, itemsRegular⟩ := (everywhere_array _ _).mp regular
          have isItem := List.mem_of_getElem? isIndexed
          have isBelow : place < items.length := (List.getElem?_eq_some_iff.mp isIndexed).1
          refine ⟨⟨((everywhere_array _ _).mp plain).2 _ isItem, itemsRegular _ isItem⟩, ?_,
            by simp⟩
          intro position sameIndex
          cases sameIndex
          exact Nat.lt_trans isBelow short
      | _ => cases isIndexed
  | length =>
      cases value with
      | array items =>
          cases isIndexed
          exact ⟨⟨everywhere_flat (by simp) (by simp) trivial,
            everywhere_flat (by simp) (by simp) trivial⟩, by simp, fun _ => ⟨_, rfl⟩⟩
      | _ => cases isIndexed

theorem hasValidSegments_of_cellAt? {path : FieldPath} {value : Json} {found : Value}
    (plain : value.Everywhere HasPlainParts) (regular : value.IsRegular)
    (isCell : value.cellAt? path = some found) : HasValidSegments path := by
  induction path generalizing value with
  | nil => exact ⟨by simp, by simp⟩
  | cons segment rest inductionHypothesis =>
      obtain ⟨inner, isInner, isThere⟩ := Option.bind_eq_some_iff.mp isCell
      obtain ⟨field, isField, isIndexed⟩ := Option.bind_eq_some_iff.mp isInner
      cases value with
      | object fields =>
          have isMember := OrderedMap.mem_of_find? isField
          obtain ⟨namesPlain, fieldsPlain⟩ := (everywhere_object _ _).mp plain
          have fieldRegular := ((everywhere_object _ _).mp regular).2 _ isMember
          obtain ⟨named, noSyntax⟩ := namesPlain _ isMember
          obtain ⟨⟨innerPlain, innerRegular⟩, bounded, endsAtLength⟩ :=
            indexed?_eq_some (fieldsPlain _ isMember) fieldRegular isIndexed
          have segmentValid : segment.IsValid :=
            ⟨fun isEmpty => named (String.toList_eq_nil_iff.mp isEmpty), noSyntax, bounded⟩
          by_cases isLength : segment.index = .length
          · -- Nothing can follow, as a number has no fields.
            obtain ⟨count, rfl⟩ := endsAtLength isLength
            obtain ⟨rfl, _⟩ := (cellAt?_eq_some_iff (fun _ => rfl) rest _).mp isThere
            exact ⟨List.forall_mem_singleton.mpr segmentValid, by simp⟩
          · exact .cons segmentValid isLength (inductionHypothesis innerPlain innerRegular isThere)
      | _ => cases isField

theorem isValid_of_cellAt? {document : Json} (loadable : document.IsLoadable)
    (regular : document.IsRegular) {path : FieldPath} {found : Value}
    (isCell : document.cellAt? path = some found) : path.IsValid := by
  have valid := hasValidSegments_of_cellAt? loadable.plain regular isCell
  refine ⟨?_, valid.segments, valid.lengthLast⟩
  rintro rfl
  obtain ⟨fields, rfl⟩ := loadable.isObject
  cases isCell

end Json

end Unnest
