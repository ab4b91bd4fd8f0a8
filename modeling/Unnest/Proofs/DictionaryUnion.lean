import Unnest.Dictionary.Union
import Unnest.Proofs.Dictionary
import Unnest.Proofs.OrderedMap

/-!
# The union of dictionaries

The values of a union are the strictly ascending list of all values of its sources, whatever the
keys of the sources are, and the new id of a value is its place in that list.

What the loop keeps is `UnionProgress.HasTaken`: it ties the cursors in the heap, the values that
the union has so far and the ids that have changed to the number of values taken from each source.
A step takes one more value of one source.
-/

namespace Unnest

variable {kind : ScalarType}

namespace IdMap

/-- An id that stayed gets a new number, and all others keep theirs. -/
theorem apply_insert {ids : IdMap} {old : Int} (stays : ids.apply old = old) (new id : Int) :
    (ids.insert old new).apply id = if id = old then new else ids.apply id := by
  rw [insert]
  split
  · rename_i unchanged
    split
    · rename_i isOld
      rw [isOld, stays, unchanged]
    · rfl
  · simp only [apply, OrderedMap.find?_insert, Std.LawfulEqCmp.compare_eq_iff_eq]
    split
    · rfl
    · rfl

end IdMap

namespace UnionCursor

/-! ## The heap -/

theorem value_isLE {left right : UnionCursor kind} (before : (order left right).isLE = true) :
    (compare left.value right.value).isLE = true := by
  cases compared : compare left.value right.value with
  | lt => rfl
  | eq => rfl
  | gt =>
      rw [order, compareLex, compareOn, compared] at before
      cases before

/-- No cursor of the heap comes before the one that is popped. -/
theorem isLE_of_popFirst {heap others : List (UnionCursor kind)} {first : UnionCursor kind}
    (isFirst : popFirst heap = some (first, others)) :
    ∀ cursor ∈ heap, (order first cursor).isLE = true := by
  have : Std.TransCmp (order : UnionCursor kind → UnionCursor kind → Ordering) := inferInstanceAs
    (Std.TransCmp (compareLex (compareOn UnionCursor.value) (compareOn UnionCursor.source)))
  have isSame (cursor : UnionCursor kind) : (order cursor cursor).isLE = true := by
    rw [show order cursor cursor = .eq from Std.ReflCmp.compare_self]
    rfl
  induction heap generalizing first others with
  | nil => simp
  | cons cursor rest inductionHypothesis =>
      rw [popFirst] at isFirst
      split at isFirst
      · rename_i popped
        cases isFirst
        rw [eq_nil_of_popFirst popped]
        simpa using isSame cursor
      · rename_i least remaining popped
        have restLeast := inductionHypothesis popped
        split at isFirst
        · rename_i before
          cases isFirst
          intro other member
          rcases List.mem_cons.mp member with isHere | inRest
          · rw [isHere]
            exact isSame cursor
          · exact Std.TransCmp.isLE_trans before (restLeast other inRest)
        · rename_i notBefore
          cases isFirst
          intro other member
          rcases List.mem_cons.mp member with isHere | inRest
          · have swapped : order first cursor = (order cursor first).swap :=
              Std.OrientedCmp.eq_swap
            rw [isHere, swapped]
            cases compared : order cursor first with
            | lt => simp [compared] at notBefore
            | eq => simp [compared] at notBefore
            | gt => rfl
          · exact restLeast other inRest

theorem at?_eq_some {dictionaries : List (Dictionary kind.Carrier)} {source position : Nat}
    {cursor : UnionCursor kind} (isNext : at? dictionaries source position = some cursor) :
    cursor.source = source ∧ cursor.position = position ∧
      valueAt? dictionaries source position = some cursor.value := by
  rcases Option.map_eq_some_iff.mp isNext with ⟨value, isValue, shape⟩
  rw [← shape]
  exact ⟨rfl, rfl, isValue⟩

/-- The values of a source ascend. -/
theorem compare_valueAt? {dictionaries : List (Dictionary kind.Carrier)}
    (ascending : ∀ dictionary ∈ dictionaries, dictionary.IsAscending) {source left right : Nat}
    (before : left < right) {leftValue rightValue : kind.Carrier}
    (isLeft : valueAt? dictionaries source left = some leftValue)
    (isRight : valueAt? dictionaries source right = some rightValue) :
    compare leftValue rightValue = .lt := by
  rcases Option.bind_eq_some_iff.mp isLeft with ⟨dictionary, isSource, leftThere⟩
  rw [valueAt?, isSource, Option.bind_some] at isRight
  have sourceAscending := ascending dictionary (List.mem_of_getElem? isSource)
  rw [← Array.getElem?_toList] at leftThere isRight
  rcases List.getElem?_eq_some_iff.mp leftThere with ⟨leftInside, isLeftValue⟩
  rcases List.getElem?_eq_some_iff.mp isRight with ⟨rightInside, isRightValue⟩
  rw [← isLeftValue, ← isRightValue]
  exact List.pairwise_iff_getElem.mp sourceAscending left right leftInside rightInside before

/-- The next cursors of all sources. -/
def nextCursors (dictionaries : List (Dictionary kind.Carrier)) (taken : Nat → Nat) :
    List (UnionCursor kind) :=
  (List.range dictionaries.length).filterMap fun source => at? dictionaries source (taken source)

theorem eq_of_mem_nextCursors {dictionaries : List (Dictionary kind.Carrier)} {taken : Nat → Nat}
    {cursor : UnionCursor kind} (member : cursor ∈ nextCursors dictionaries taken) :
    cursor.source < dictionaries.length ∧ cursor.position = taken cursor.source ∧
      at? dictionaries cursor.source (taken cursor.source) = some cursor := by
  rcases List.mem_filterMap.mp member with ⟨source, isSource, isNext⟩
  rcases at?_eq_some isNext with ⟨sameSource, samePosition, _⟩
  rw [sameSource]
  exact ⟨List.mem_range.mp isSource, samePosition, isNext⟩

/-- When a cursor is taken out of the heap, the one behind it takes its place. -/
theorem nextCursors_update {dictionaries : List (Dictionary kind.Carrier)} {taken : Nat → Nat}
    {first : UnionCursor kind} {others : List (UnionCursor kind)}
    (areNext : (first :: others).Perm (nextCursors dictionaries taken)) :
    ((at? dictionaries first.source (first.position + 1)).toList ++ others).Perm
      (nextCursors dictionaries (Function.update taken first.source (first.position + 1))) := by
  rcases eq_of_mem_nextCursors (areNext.mem_iff.mp List.mem_cons_self) with
    ⟨isSource, _, isThere⟩
  have splits : (List.range dictionaries.length).Perm
      (first.source :: (List.range dictionaries.length).erase first.source) :=
    List.perm_cons_erase (List.mem_range.mpr isSource)
  have before := areNext.trans (splits.filterMap _)
  rw [List.filterMap_cons, isThere] at before
  have after := splits.filterMap fun source => at? dictionaries source
    (Function.update taken first.source (first.position + 1) source)
  -- The other sources stand where they stood.
  have sameOthers : ((List.range dictionaries.length).erase first.source).filterMap
      (fun source => at? dictionaries source
        (Function.update taken first.source (first.position + 1) source)) =
      ((List.range dictionaries.length).erase first.source).filterMap
        fun source => at? dictionaries source (taken source) := by
    apply List.filterMap_congr
    intro source isOther
    have different : source ≠ first.source :=
      ((List.nodup_range.mem_erase_iff).mp isOther).1
    rw [Function.update_of_ne different]
  refine List.Perm.trans ?_ after.symm
  rw [List.filterMap_cons, sameOthers, Function.update_self]
  have othersPerm := List.perm_cons first |>.mp before
  cases at? dictionaries first.source (first.position + 1) with
  | none => exact othersPerm
  | some next => exact othersPerm.cons next

end UnionCursor

namespace DictionaryBuilder

/-- A value above all others is appended under the next id. -/
theorem push_eq_ok (builder : DictionaryBuilder kind) (value : kind.Carrier)
    (above : ∀ last ∈ builder.last?, compare last value = .lt) :
    builder.push value = .ok ((builder.size : Int), ⟨builder.values.push value⟩) := by
  unfold push
  cases found : builder.last? with
  | none => rfl
  | some last => simp [above last found]

theorem last?_eq_getLast? (builder : DictionaryBuilder kind) :
    builder.last? = builder.values.toList.getLast? := by
  rw [last?, Array.getLast?_toList]

/-- In ascending values nothing lies above the last one. -/
theorem isLE_last {builder : DictionaryBuilder kind} (ascending : Ascending builder.values.toList)
    {last : kind.Carrier} (isLast : builder.last? = some last) :
    ∀ value ∈ builder.values.toList, (compare value last).isLE = true := by
  rw [last?_eq_getLast?] at isLast
  rcases List.getLast?_eq_some_iff.mp isLast with ⟨earlier, shape⟩
  rw [shape] at ascending ⊢
  intro value member
  rcases List.mem_append.mp member with isEarlier | isLastValue
  · have below := (List.pairwise_append.mp ascending).2.2 value isEarlier last
      (List.mem_singleton_self last)
    rw [below]
    rfl
  · rw [List.mem_singleton.mp isLastValue]
    simp

theorem idxOf_last {builder : DictionaryBuilder kind} (ascending : Ascending builder.values.toList)
    {last : kind.Carrier} (isLast : builder.last? = some last) :
    (builder.values.toList.idxOf last : Int) = builder.size - 1 := by
  rw [last?_eq_getLast?] at isLast
  rcases List.getLast?_eq_some_iff.mp isLast with ⟨earlier, shape⟩
  have size : builder.size = earlier.length + 1 := by
    rw [DictionaryBuilder.size, ← Array.length_toList, shape, List.length_append]
    rfl
  have distinct := ascending.nodup
  rw [shape] at distinct ⊢
  have notEarlier : last ∉ earlier := fun isEarlier =>
    (List.nodup_append.mp distinct).2.2 last isEarlier last (List.mem_singleton_self last) rfl
  rw [List.idxOf_append_of_notMem notEarlier, size]
  simp

end DictionaryBuilder

namespace UnionProgress

/-! ## One step -/

/-- What taking a cursor does: its value is the last one of the union, which keeps its values in
front of it, and the id of the source becomes the place of the value. -/
structure Takes (cursor : UnionCursor kind) (before after : UnionProgress kind) : Prop where
  ascending : Ascending after.builder.values.toList
  keeps : before.builder.values.toList <+: after.builder.values.toList
  members : ∀ value, value ∈ after.builder.values.toList ↔
    value ∈ before.builder.values.toList ∨ value = cursor.value
  last : after.builder.last? = some cursor.value
  lastId : after.lastId = after.builder.size - 1
  idMaps : after.idMaps = before.idMaps.modify cursor.source
    (IdMap.insert cursor.position (after.builder.values.toList.idxOf cursor.value : Nat))

/-- The value of the cursor is the last one of the union already, and its id is known. -/
theorem takes_note {progress : UnionProgress kind} {cursor : UnionCursor kind}
    (ascending : Ascending progress.builder.values.toList)
    (lastId : progress.lastId = progress.builder.size - 1)
    (isLast : progress.builder.last? = some cursor.value) :
    Takes cursor progress (progress.note cursor progress.lastId) := by
  have isThere : cursor.value ∈ progress.builder.values.toList := by
    rw [DictionaryBuilder.last?_eq_getLast?] at isLast
    exact List.mem_of_getLast? isLast
  constructor
  case ascending => exact ascending
  case keeps => exact List.prefix_refl _
  case members =>
      intro value
      constructor
      · exact Or.inl
      · intro member
        rcases member with isMember | isValue
        · exact isMember
        · rw [isValue]
          exact isThere
  case last => exact isLast
  case lastId => exact lastId
  case idMaps =>
      have place := DictionaryBuilder.idxOf_last ascending isLast
      rw [note, lastId, ← place]

/-- The value of the cursor lies above all values of the union, and is appended. -/
theorem takes_push {progress : UnionProgress kind} {cursor : UnionCursor kind}
    (ascending : Ascending progress.builder.values.toList)
    (above : ∀ value ∈ progress.builder.values.toList, compare value cursor.value = .lt) :
    Takes cursor progress
      ({ progress with builder := ⟨progress.builder.values.push cursor.value⟩ }.note cursor
        progress.builder.size) := by
  have notThere : cursor.value ∉ progress.builder.values.toList :=
    fun member => compare_self_ne_lt _ (above _ member)
  have values : (⟨progress.builder.values.push cursor.value⟩ :
      DictionaryBuilder kind).values.toList =
        progress.builder.values.toList ++ [cursor.value] := by
    simp
  have place : (progress.builder.values.toList ++ [cursor.value]).idxOf cursor.value =
      progress.builder.size := by
    rw [List.idxOf_append_of_notMem notThere]
    simp [DictionaryBuilder.size]
  constructor
  case ascending =>
      rw [note, values]
      refine List.pairwise_append.mpr ⟨ascending, List.pairwise_singleton _ _, ?_⟩
      intro value member last isLast
      rw [List.mem_singleton.mp isLast]
      exact above value member
  case keeps =>
      rw [note, values]
      exact List.prefix_append _ _
  case members =>
      intro value
      rw [note, values, List.mem_append, List.mem_singleton]
  case last => simp [note, DictionaryBuilder.last?]
  case lastId => simp [note, DictionaryBuilder.size]
  case idMaps =>
      rw [note, values, place]

/-- A cursor whose value does not lie below the last one can be taken. -/
theorem take_outcome {progress : UnionProgress kind} {cursor : UnionCursor kind}
    (ascending : Ascending progress.builder.values.toList)
    (lastId : progress.lastId = progress.builder.size - 1)
    (notBelow : ∀ last ∈ progress.builder.last?, (compare last cursor.value).isLE = true) :
    ∃ further, progress.take cursor = .ok further ∧ Takes cursor progress further := by
  by_cases isRepeated :
      (progress.builder.last?.any fun last => compare last cursor.value == .eq) = true
  · have isLast : progress.builder.last? = some cursor.value := by
      rcases (Option.any_eq_true _ _).mp isRepeated with ⟨last, isLast, same⟩
      rw [isLast, Std.LawfulEqCmp.eq_of_compare (eq_of_beq same)]
    exact ⟨_, by rw [take, if_pos isRepeated], takes_note ascending lastId isLast⟩
  · have above : ∀ last ∈ progress.builder.last?, compare last cursor.value = .lt := by
      intro last isLast
      have isLE := notBelow last isLast
      cases compared : compare last cursor.value with
      | lt => rfl
      | eq =>
          apply absurd _ isRepeated
          rw [Option.mem_def.mp isLast, Option.any_some, compared]
          rfl
      | gt =>
          rw [compared] at isLE
          cases isLE
    have aboveAll : ∀ value ∈ progress.builder.values.toList,
        compare value cursor.value = .lt := by
      intro value member
      have someLast : progress.builder.last?.isSome = true := by
        rw [DictionaryBuilder.last?_eq_getLast?, List.getLast?_isSome]
        exact List.ne_nil_of_mem member
      rcases Option.isSome_iff_exists.mp someLast with ⟨last, isLast⟩
      exact Std.TransCmp.lt_of_isLE_of_lt
        (DictionaryBuilder.isLE_last ascending isLast value member)
        (above last isLast)
    have pushed := progress.builder.push_eq_ok cursor.value above
    exact ⟨_, by rw [take, if_neg isRepeated, pushed], takes_push ascending aboveAll⟩

/-! ## All steps -/

/-- The value of an id of a source, if it has been taken. -/
def takenValue? (dictionaries : List (Dictionary kind.Carrier)) (taken : Nat → Nat) (source : Nat)
    (id : Int) : Option kind.Carrier :=
  if 0 ≤ id ∧ id < taken source then UnionCursor.valueAt? dictionaries source id.toNat else none

/-- The first `taken source` values of every source have been taken.  The heap has the next cursor
of each source, the union has the values that were taken, in order and once each, and the ids of
these values have become their places in the union. -/
structure HasTaken (dictionaries : List (Dictionary kind.Carrier)) (taken : Nat → Nat)
    (progress : UnionProgress kind) (heap : List (UnionCursor kind)) : Prop where
  areNext : heap.Perm (UnionCursor.nextCursors dictionaries taken)
  ascending : Ascending progress.builder.values.toList
  members : ∀ value, value ∈ progress.builder.values.toList ↔
    ∃ source position, position < taken source ∧
      UnionCursor.valueAt? dictionaries source position = some value
  notBelow : ∀ last ∈ progress.builder.last?, ∀ cursor ∈ heap,
    (compare last cursor.value).isLE = true
  lastId : progress.lastId = progress.builder.size - 1
  idMaps : progress.idMaps.length = dictionaries.length
  newIds : ∀ source ids, progress.idMaps[source]? = some ids → ∀ id, ids.apply id =
    ((takenValue? dictionaries taken source id).map fun value =>
      (progress.builder.values.toList.idxOf value : Int)).getD id

theorem takenValue?_update {dictionaries : List (Dictionary kind.Carrier)} {taken : Nat → Nat}
    {source : Nat} (other : Nat) {id : Int} (different : other ≠ source ∨ id ≠ taken source) :
    takenValue? dictionaries (Function.update taken source (taken source + 1)) other id =
      takenValue? dictionaries taken other id := by
  rw [takenValue?, takenValue?]
  by_cases same : other = source
  · have notHere : id ≠ taken source := different.resolve_left (not_not_intro same)
    rw [same, Function.update_self]
    congr 1
    apply propext
    omega
  · rw [Function.update_of_ne same]

theorem mem_of_takenValue? {dictionaries : List (Dictionary kind.Carrier)} {taken : Nat → Nat}
    {progress : UnionProgress kind} {heap : List (UnionCursor kind)}
    (hasTaken : HasTaken dictionaries taken progress heap) {source : Nat} {id : Int}
    {value : kind.Carrier} (isTaken : takenValue? dictionaries taken source id = some value) :
    value ∈ progress.builder.values.toList := by
  rw [takenValue?] at isTaken
  split at isTaken
  · rename_i inside
    exact (hasTaken.members value).mpr ⟨source, id.toNat, by omega, isTaken⟩
  · cases isTaken

/-- What is taken when one more value of a source is taken. -/
theorem exists_taken_update_iff {dictionaries : List (Dictionary kind.Carrier)}
    {taken : Nat → Nat} (source : Nat) (value : kind.Carrier) :
    (∃ other position, position < Function.update taken source (taken source + 1) other ∧
        UnionCursor.valueAt? dictionaries other position = some value) ↔
      (∃ other position, position < taken other ∧
        UnionCursor.valueAt? dictionaries other position = some value) ∨
      UnionCursor.valueAt? dictionaries source (taken source) = some value := by
  constructor
  · intro member
    rcases member with ⟨other, position, before, isThere⟩
    by_cases same : other = source
    · rw [same, Function.update_self] at before
      rw [same] at isThere
      rcases Nat.lt_succ_iff_lt_or_eq.mp before with earlier | isHere
      · exact Or.inl ⟨source, position, earlier, isThere⟩
      · exact Or.inr (isHere ▸ isThere)
    · rw [Function.update_of_ne same] at before
      exact Or.inl ⟨other, position, before, isThere⟩
  · intro member
    rcases member with ⟨other, position, before, isThere⟩ | isNew
    · refine ⟨other, position, ?_, isThere⟩
      by_cases same : other = source
      · rw [same] at before
        rw [same, Function.update_self]
        omega
      · rwa [Function.update_of_ne same]
    · exact ⟨source, taken source, by simp, isNew⟩

/-- When a cursor is taken, its id becomes the place of its value, and no other id changes. -/
theorem HasTaken.apply_of_takes {dictionaries : List (Dictionary kind.Carrier)}
    {taken : Nat → Nat} {progress further : UnionProgress kind}
    {heap : List (UnionCursor kind)} {cursor : UnionCursor kind}
    (hasTaken : HasTaken dictionaries taken progress heap)
    (isPosition : cursor.position = taken cursor.source)
    (isValue : UnionCursor.valueAt? dictionaries cursor.source (taken cursor.source) =
      some cursor.value) (takes : Takes cursor progress further) {source : Nat} {ids : IdMap}
    (isIds : further.idMaps[source]? = some ids) (id : Int) :
    ids.apply id =
      ((takenValue? dictionaries
          (Function.update taken cursor.source (taken cursor.source + 1)) source id).map
        fun value => (further.builder.values.toList.idxOf value : Int)).getD id := by
  rw [takes.idMaps, List.getElem?_modify] at isIds
  rcases Option.map_eq_some_iff.mp isIds with ⟨before, isBefore, shape⟩
  have beforeIds := hasTaken.newIds source before isBefore
  have samePlace {value : kind.Carrier} (member : value ∈ progress.builder.values.toList) :
      further.builder.values.toList.idxOf value = progress.builder.values.toList.idxOf value := by
    rcases takes.keeps with ⟨appended, shape⟩
    rw [← shape, List.idxOf_append_of_mem member]
  have oldId (different : source ≠ cursor.source ∨ id ≠ taken cursor.source) :
      before.apply id = ((takenValue? dictionaries
        (Function.update taken cursor.source (taken cursor.source + 1)) source id).map fun value =>
          (further.builder.values.toList.idxOf value : Int)).getD id := by
    rw [takenValue?_update source different, beforeIds id]
    cases isTaken : takenValue? dictionaries taken source id with
    | none => rfl
    | some value =>
        rw [Option.map_some, Option.map_some, samePlace (mem_of_takenValue? hasTaken isTaken)]
  by_cases same : cursor.source = source
  · rw [if_pos same] at shape
    have stays : before.apply cursor.position = cursor.position := by
      rw [beforeIds, takenValue?, isPosition, same, if_neg (by omega)]
      rfl
    rw [← shape, IdMap.apply_insert stays]
    by_cases isHere : id = cursor.position
    · rw [if_pos isHere, isHere, takenValue?, ← same, Function.update_self, isPosition,
        if_pos (by omega), Int.toNat_natCast, isValue]
      rfl
    · rw [if_neg isHere]
      exact oldId (Or.inr (by rwa [← isPosition]))
  · rw [if_neg same] at shape
    rw [← shape]
    exact oldId (Or.inl fun isSame => same isSame.symm)

/-- A step takes one more value of the source of the cursor that is popped. -/
theorem HasTaken.step {dictionaries : List (Dictionary kind.Carrier)}
    (areAscending : ∀ dictionary ∈ dictionaries, dictionary.IsAscending) {taken : Nat → Nat}
    {progress : UnionProgress kind} {heap others : List (UnionCursor kind)}
    {cursor : UnionCursor kind} (hasTaken : HasTaken dictionaries taken progress heap)
    (isFirst : UnionCursor.popFirst heap = some (cursor, others)) :
    ∃ further, progress.take cursor = .ok further ∧
      HasTaken dictionaries (Function.update taken cursor.source (cursor.position + 1)) further
        ((UnionCursor.at? dictionaries cursor.source (cursor.position + 1)).toList ++ others) := by
  have popped := UnionCursor.popFirst_perm isFirst
  have inHeap : cursor ∈ heap := popped.mem_iff.mpr List.mem_cons_self
  rcases UnionCursor.eq_of_mem_nextCursors (hasTaken.areNext.mem_iff.mp inHeap) with
    ⟨_, isPosition, isThere⟩
  have isValue := (UnionCursor.at?_eq_some isThere).2.2
  rcases take_outcome hasTaken.ascending hasTaken.lastId
    (fun last isLast => hasTaken.notBelow last isLast cursor inHeap) with ⟨further, isTaken, takes⟩
  refine ⟨further, isTaken, ?_⟩
  constructor
  case areNext => exact UnionCursor.nextCursors_update (popped.symm.trans hasTaken.areNext)
  case ascending => exact takes.ascending
  case members =>
      intro value
      rw [takes.members, hasTaken.members, isPosition, exists_taken_update_iff, isValue,
        Option.some.injEq, eq_comm (a := value)]
  case notBelow =>
      intro last isLast other member
      rw [takes.last] at isLast
      rw [← Option.some.inj isLast]
      rcases List.mem_append.mp member with isNext | isOther
      · -- The next value of the same source lies above.
        have isLater := UnionCursor.at?_eq_some (Option.mem_toList.mp isNext)
        rw [UnionCursor.compare_valueAt? areAscending (Nat.lt_succ_self _)
          (isPosition ▸ isValue) isLater.2.2]
        rfl
      · have inRest : other ∈ heap := popped.mem_iff.mpr (List.mem_cons_of_mem _ isOther)
        exact UnionCursor.value_isLE (UnionCursor.isLE_of_popFirst isFirst other inRest)
  case lastId => exact takes.lastId
  case idMaps => rw [takes.idMaps, List.length_modify, hasTaken.idMaps]
  case newIds =>
      intro source ids isIds id
      rw [isPosition]
      exact hasTaken.apply_of_takes isPosition isValue takes isIds id

/-- The loop takes all values of all sources. -/
theorem takeAll_outcome {dictionaries : List (Dictionary kind.Carrier)}
    (areAscending : ∀ dictionary ∈ dictionaries, dictionary.IsAscending) {taken : Nat → Nat}
    {progress : UnionProgress kind} {heap : List (UnionCursor kind)}
    (hasTaken : HasTaken dictionaries taken progress heap) :
    ∃ finished taken', takeAll dictionaries progress heap = .ok finished ∧
      HasTaken dictionaries taken' finished [] := by
  fun_induction takeAll dictionaries progress heap generalizing taken with
  | case1 progress heap isEmpty =>
      rw [UnionCursor.eq_nil_of_popFirst isEmpty] at hasTaken
      exact ⟨progress, taken, rfl, hasTaken⟩
  | case2 progress heap cursor others isFirst error fails =>
      rcases hasTaken.step areAscending isFirst with ⟨further, isTaken, _⟩
      rw [fails] at isTaken
      cases isTaken
  | case3 progress heap cursor others isFirst further isTaken inductionHypothesis =>
      rcases hasTaken.step areAscending isFirst with ⟨next, isNext, nextTaken⟩
      rw [isTaken] at isNext
      cases isNext
      exact inductionHypothesis nextTaken

/-- In the beginning nothing has been taken. -/
theorem hasTaken_nothing (dictionaries : List (Dictionary kind.Carrier)) :
    HasTaken dictionaries (fun _ => 0) { idMaps := dictionaries.map fun _ => IdMap.identity }
      (UnionCursor.nextCursors dictionaries fun _ => 0) := by
  constructor
  case areNext => exact List.Perm.refl _
  case ascending => exact List.Pairwise.nil
  case members => simp
  case notBelow =>
      intro last isLast
      simp [DictionaryBuilder.last?] at isLast
  case lastId => rfl
  case idMaps => simp
  case newIds =>
      intro source ids isIds id
      rw [List.getElem?_map] at isIds
      rcases Option.map_eq_some_iff.mp isIds with ⟨_, _, shape⟩
      rw [← shape, takenValue?, if_neg (by omega)]
      rfl

/-- When no cursor is left, every value of every source has been taken. -/
theorem HasTaken.takenValue?_eq_decode? {dictionaries : List (Dictionary kind.Carrier)}
    {taken : Nat → Nat} {progress : UnionProgress kind}
    (hasTaken : HasTaken dictionaries taken progress []) {source : Nat}
    {dictionary : Dictionary kind.Carrier} (isSource : dictionaries[source]? = some dictionary)
    (id : Int) : takenValue? dictionaries taken source id = dictionary.decode? id := by
  have noCursor := List.filterMap_eq_nil_iff.mp hasTaken.areNext.nil_eq.symm source
    (List.mem_range.mpr (List.getElem?_eq_some_iff.mp isSource).1)
  have isOver : dictionary.toArray.size ≤ taken source := by
    rw [UnionCursor.at?, Option.map_eq_none_iff, UnionCursor.valueAt?, isSource,
      Option.bind_some, Array.getElem?_eq_none_iff] at noCursor
    exact noCursor
  rw [takenValue?, Dictionary.decode?, UnionCursor.valueAt?, isSource, Option.bind_some]
  by_cases isNatural : 0 ≤ id
  · rw [if_pos isNatural]
    by_cases inside : id < taken source
    · rw [if_pos ⟨isNatural, inside⟩]
    · rw [if_neg fun both => inside both.2, Array.getElem?_eq_none (by omega)]
  · rw [if_neg isNatural, if_neg fun both => isNatural both.1]

end UnionProgress

namespace DictionaryUnion

variable {κ : Type}

/-- The place of an id's value among `values`; an id without a value stays. -/
def newId (values : List kind.Carrier) (dictionary : Dictionary kind.Carrier) (id : Int) : Int :=
  ((dictionary.decode? id).map fun value => (values.idxOf value : Int)).getD id

/-- Ascending dictionaries can be united.  The union has all their values in order, and the new id
of every id of a source is the place of its value in it. -/
theorem unite_eq_ok {dictionaries : List (Dictionary kind.Carrier)}
    (areAscending : ∀ dictionary ∈ dictionaries, dictionary.IsAscending) :
    ∃ finished, UnionProgress.unite dictionaries = .ok finished ∧
      finished.builder.values.toList = sortDistinct (dictionaries.flatMap Dictionary.toList) ∧
      finished.idMaps.length = dictionaries.length ∧
      ∀ (source : Nat) (dictionary : Dictionary kind.Carrier) (ids : IdMap),
        dictionaries[source]? = some dictionary → finished.idMaps[source]? = some ids →
          ∀ id, ids.apply id = newId finished.builder.values.toList dictionary id := by
  rcases UnionProgress.takeAll_outcome areAscending
    (UnionProgress.hasTaken_nothing dictionaries) with ⟨finished, taken, isFinished, hasTaken⟩
  refine ⟨finished, isFinished, ?_, hasTaken.idMaps, ?_⟩
  · apply hasTaken.ascending.eq_of_mem_iff (ascending_sortDistinct _)
    intro value
    rw [hasTaken.members, mem_sortDistinct, List.mem_flatMap]
    constructor
    · intro isTaken
      rcases isTaken with ⟨source, position, _, isThere⟩
      rcases Option.bind_eq_some_iff.mp isThere with ⟨dictionary, isSource, isValue⟩
      refine ⟨dictionary, List.mem_of_getElem? isSource, ?_⟩
      rw [← Array.getElem?_toList] at isValue
      exact List.mem_of_getElem? isValue
    · intro member
      rcases member with ⟨dictionary, isMember, isThere⟩
      rcases List.mem_iff_getElem?.mp isMember with ⟨source, isSource⟩
      rcases List.mem_iff_getElem?.mp isThere with ⟨position, isValue⟩
      have isDecoded : dictionary.decode? position = some value := by
        rw [Dictionary.decode?_eq, if_pos (Int.natCast_nonneg position)]
        exact isValue
      rw [← hasTaken.takenValue?_eq_decode? isSource, UnionProgress.takenValue?] at isDecoded
      split at isDecoded
      · rename_i inside
        exact ⟨source, position, by omega, isDecoded⟩
      · cases isDecoded
  · intro source dictionary ids isSource isIds id
    rw [hasTaken.newIds source ids isIds id, hasTaken.takenValue?_eq_decode? isSource]
    rfl

/-- The values of all dictionaries, each of them once. -/
def unitedValues (sources : OrderedMap κ (Dictionary kind.Carrier)) : List kind.Carrier :=
  sortDistinct (sources.flatMap fun entry => entry.2.toList)

theorem mem_unitedValues (value : kind.Carrier)
    (sources : OrderedMap κ (Dictionary kind.Carrier)) :
    value ∈ unitedValues sources ↔ ∃ entry ∈ sources, value ∈ entry.2.toList := by
  rw [unitedValues, mem_sortDistinct, List.mem_flatMap]

/-- The loop alone, on the dictionaries of a map. -/
theorem unite_sources {sources : OrderedMap κ (Dictionary kind.Carrier)}
    (ascending : ∀ entry ∈ sources, entry.2.IsAscending) :
    ∃ finished, UnionProgress.unite (sources.map (·.2)) = .ok finished ∧
      finished.builder.build.toList = unitedValues sources ∧
      finished.idMaps.length = sources.length ∧
      ∀ (source : Nat) (entry : κ × Dictionary kind.Carrier) (ids : IdMap),
        sources[source]? = some entry → finished.idMaps[source]? = some ids →
          ∀ id, ids.apply id = newId (unitedValues sources) entry.2 id := by
  have areAscending : ∀ dictionary ∈ sources.map (·.2), dictionary.IsAscending := by
    intro dictionary member
    rcases List.mem_map.mp member with ⟨entry, isEntry, shape⟩
    rw [← shape]
    exact ascending entry isEntry
  rcases unite_eq_ok areAscending with ⟨finished, isFinished, values, sameLength, newIds⟩
  rw [List.flatMap_map] at values
  refine ⟨finished, isFinished, values, by rw [sameLength, List.length_map], ?_⟩
  intro source entry ids isSource isIds id
  have isDictionary : (sources.map (·.2))[source]? = some entry.2 := by
    rw [List.getElem?_map, isSource]
    rfl
  rw [newIds source entry.2 ids isDictionary isIds id, values]
  rfl

/-- Uniting ascending dictionaries succeeds; the union holds all values, and the new id of every
id of a source is the place of its value among them. -/
theorem ofSources_eq_ok [Ord κ] [Std.LawfulEqOrd κ]
    {sources : OrderedMap κ (Dictionary kind.Carrier)}
    (ascending : ∀ entry ∈ sources, entry.2.IsAscending) :
    ∃ union, ofSources sources = .ok union ∧
      union.dictionary.toList = unitedValues sources ∧
      ∀ key dictionary, OrderedMap.find? key sources = some dictionary →
        ∀ id, (union.idMap key).apply id = newId (unitedValues sources) dictionary id := by
  match sources with
  | [] =>
      refine ⟨_, rfl, ?_, ?_⟩
      · simp [unitedValues, Dictionary.empty, Dictionary.toList, Dictionary.toArray, sortDistinct,
          dropRepeats]
      · intro key dictionary found
        cases found
  | [(onlyKey, only)] =>
      have onlyAscending : only.IsAscending := ascending (onlyKey, only) List.mem_cons_self
      have sameValues : unitedValues [(onlyKey, only)] = only.toList := by
        simpa [unitedValues] using sortDistinct_eq_self onlyAscending
      refine ⟨_, rfl, sameValues.symm, ?_⟩
      intro key dictionary found id
      obtain rfl : dictionary = only := by
        have := OrderedMap.mem_of_find? found
        simp only [List.mem_singleton, Prod.mk.injEq] at this
        exact this.2
      rw [sameValues, newId]
      change id = _
      cases decoded : dictionary.decode? id with
      | none => rfl
      | some value => exact (Dictionary.idxOf_eq_of_decode? onlyAscending decoded).symm
  | first :: second :: rest =>
      rcases unite_sources ascending with ⟨finished, isFinished, values, sameLength, newIds⟩
      unfold ofSources
      simp only [isFinished]
      refine ⟨_, rfl, values, ?_⟩
      intro key dictionary found id
      rcases OrderedMap.find?_zip_keys sameLength found with
        ⟨source, entry, ids, isEntry, sameDictionary, isIds, isFound⟩
      rw [idMap, isFound, ← sameDictionary]
      exact newIds source entry ids isEntry isIds id

/-! ## The union -/

/-- `ids` turns the ids of `source` into the ids that their values have in `target`. -/
structure Renumbers (ids : IdMap) (source target : Dictionary kind.Carrier) : Prop where
  decode?_apply : ∀ id : Int, 0 ≤ id → id < source.size →
    target.decode? (ids.apply id) = source.decode? id
  apply_lt_apply : ∀ left right : Int, 0 ≤ left → left < right → right < source.size →
    ids.apply left < ids.apply right
  apply_eq_self : ∀ id : Int, ¬ (0 ≤ id ∧ id < source.size) → ids.apply id = id

/-- Ids that become the places of their values in a larger dictionary are renumbered into it. -/
theorem renumbers_of_newId {ids : IdMap} {source target : Dictionary kind.Carrier}
    (sourceAscending : source.IsAscending) (targetAscending : target.IsAscending)
    (contained : ∀ value ∈ source.toList, value ∈ target.toList)
    (isNewId : ∀ id, ids.apply id = newId target.toList source id) :
    Renumbers ids source target := by
  have decodes (id : Int) (isNatural : 0 ≤ id) (bound : id < source.size) :
      ∃ value, source.decode? id = some value :=
    Option.isSome_iff_exists.mp ((source.isSome_decode?_iff id).mpr ⟨isNatural, bound⟩)
  constructor
  · intro id isNatural bound
    obtain ⟨value, decoded⟩ := decodes id isNatural bound
    rw [isNewId, newId, decoded]
    exact Dictionary.decode?_idxOf (contained value (Dictionary.mem_of_decode? decoded))
  · intro left right leftNatural below rightBound
    obtain ⟨leftValue, leftDecoded⟩ := decodes left leftNatural (by omega)
    obtain ⟨rightValue, rightDecoded⟩ := decodes right (by omega) rightBound
    rw [isNewId, isNewId, newId, newId, leftDecoded, rightDecoded]
    exact Int.ofNat_lt.mpr <| Ascending.idxOf_lt targetAscending
      (contained _ (Dictionary.mem_of_decode? leftDecoded))
      (contained _ (Dictionary.mem_of_decode? rightDecoded))
      (Dictionary.compare_decode? sourceAscending below leftDecoded rightDecoded)
  · intro id outside
    have undecoded : source.decode? id = none := by
      rw [← Option.not_isSome_iff_eq_none, source.isSome_decode?_iff]
      exact outside
    rw [isNewId, newId, undecoded]
    rfl

/-- The values of a union do not depend on the keys of its sources, nor on their order. -/
theorem unitedValues_eq_of_perm {κ' : Type} {sources : OrderedMap κ (Dictionary kind.Carrier)}
    {others : OrderedMap κ' (Dictionary kind.Carrier)}
    (permutation : (others.map fun entry => entry.2.toList).Perm
      (sources.map fun entry => entry.2.toList)) :
    unitedValues others = unitedValues sources := by
  apply (ascending_sortDistinct _).eq_of_mem_iff (ascending_sortDistinct _)
  intro value
  rw [mem_sortDistinct, mem_sortDistinct, List.flatMap_def, List.flatMap_def]
  simp only [List.mem_flatten, permutation.mem_iff]

/-- Ascending dictionaries always have a union.  It is ascending, it holds exactly the values of
its sources, and the ids of every source are renumbered into it.  Its values do not depend on the
keys of the sources, and the loop that unites several sources gives them for a single source as
well. -/
theorem exists_union_of_ascending [Ord κ] [Std.TransOrd κ] [Std.LawfulEqOrd κ]
    (sources : OrderedMap κ (Dictionary kind.Carrier)) (ordered : OrderedMap.IsOrdered sources)
    (ascending : ∀ entry ∈ sources, entry.2.IsAscending) :
    ∃ union, ofSources sources = .ok union ∧
      union.dictionary.IsAscending ∧
      (∀ value, value ∈ union.dictionary.toList ↔
        ∃ entry ∈ sources, value ∈ entry.2.toList) ∧
      (∀ key dictionary, (key, dictionary) ∈ sources →
        Renumbers (union.idMap key) dictionary union.dictionary) ∧
      (∀ (κ' : Type) [Ord κ'] [Std.LawfulEqOrd κ']
          (others : OrderedMap κ' (Dictionary kind.Carrier)),
        (others.map fun entry => entry.2.toList).Perm
            (sources.map fun entry => entry.2.toList) →
          ∃ other, ofSources others = .ok other ∧
            other.dictionary.toList = union.dictionary.toList) ∧
      ∃ finished, UnionProgress.unite (sources.map (·.2)) = .ok finished ∧
        finished.builder.build.toList = union.dictionary.toList ∧
        ∀ (source : Nat) (entry : κ × Dictionary kind.Carrier) (ids : IdMap),
          sources[source]? = some entry → finished.idMaps[source]? = some ids →
            ∀ id, ids.apply id = (union.idMap entry.1).apply id := by
  obtain ⟨union, united, sameValues, isNewId⟩ := ofSources_eq_ok ascending
  have unionAscending : union.dictionary.IsAscending := by
    rw [Dictionary.IsAscending, sameValues]
    exact ascending_sortDistinct _
  refine ⟨union, united, unionAscending, ?_, ?_, ?_, ?_⟩
  · intro value
    rw [sameValues, mem_unitedValues]
  · intro key dictionary member
    apply renumbers_of_newId (ascending (key, dictionary) member) unionAscending
    · intro value isThere
      rw [sameValues, mem_unitedValues]
      exact ⟨(key, dictionary), member, isThere⟩
    · rw [sameValues]
      exact isNewId key dictionary ((OrderedMap.find?_eq_some_iff_mem ordered _ _).mpr member)
  · intro κ' _ _ others permutation
    have othersAscending : ∀ entry ∈ others, entry.2.IsAscending := by
      intro entry member
      have isValues := permutation.mem_iff.mp (List.mem_map_of_mem member)
      obtain ⟨source, isSource, same⟩ := List.mem_map.mp isValues
      rw [Dictionary.IsAscending, ← same]
      exact ascending source isSource
    obtain ⟨other, otherUnited, otherValues, _⟩ := ofSources_eq_ok othersAscending
    refine ⟨other, otherUnited, ?_⟩
    rw [otherValues, sameValues, unitedValues_eq_of_perm permutation]
  · rcases unite_sources ascending with ⟨finished, isFinished, values, _, newIds⟩
    refine ⟨finished, isFinished, values.trans sameValues.symm, ?_⟩
    intro source entry ids isEntry isIds id
    rw [newIds source entry ids isEntry isIds id]
    exact (isNewId entry.1 entry.2 ((OrderedMap.find?_eq_some_iff_mem ordered _ _).mpr
      (List.mem_of_getElem? isEntry)) id).symm

/-- Two lists that share a value, and a constant below both. -/
def overlappingDictionaries : OrderedMap Nat (Dictionary ScalarType.long.Carrier) :=
  [(0, .array #[1, 5, 9]), (1, .array #[2, 5]), (2, .constant 0)]

theorem exists_union_of_overlapping :
    OrderedMap.IsOrdered overlappingDictionaries ∧
      (∀ entry ∈ overlappingDictionaries, entry.2.IsAscending) ∧
      ∃ union, ofSources overlappingDictionaries = .ok union ∧
        union.dictionary.IsAscending ∧
        union.dictionary.decode? ((union.idMap 0).apply 1) = some 5 ∧
        union.dictionary.decode? ((union.idMap 1).apply 1) = some 5 ∧
        (union.idMap 0).apply 3 = 3 := by
  have ordered : OrderedMap.IsOrdered overlappingDictionaries := by
    unfold OrderedMap.IsOrdered
    decide
  have ascending : ∀ entry ∈ overlappingDictionaries, entry.2.IsAscending := by
    unfold Dictionary.IsAscending
    decide
  refine ⟨ordered, ascending, ?_⟩
  obtain ⟨union, united, unionAscending, _, renumbers, _⟩ :=
    exists_union_of_ascending overlappingDictionaries ordered ascending
  have first := renumbers 0 (.array #[1, 5, 9]) (by simp [overlappingDictionaries])
  have second := renumbers 1 (.array #[2, 5]) (by simp [overlappingDictionaries])
  exact ⟨union, united, unionAscending, first.decode?_apply 1 (by decide) (by decide),
    second.decode?_apply 1 (by decide) (by decide), first.apply_eq_self 3 (by decide)⟩

end DictionaryUnion

end Unnest
