import Unnest.Proofs.Ascending

/-!
# Ids of dictionaries

The ids of a dictionary are the numbers below its size.  In an ascending dictionary the id of a
value is its place among the values, so that values and ids determine each other and are ordered
alike.  The dictionary of any list of values is ascending and has an id for each of them.
-/

namespace Unnest

namespace Dictionary

variable {α : Type}

theorem decode?_eq (dictionary : Dictionary α) (id : Int) :
    dictionary.decode? id = if 0 ≤ id then dictionary.toList[id.toNat]? else none := by
  simp [decode?, toList]

theorem size_eq_length (dictionary : Dictionary α) :
    dictionary.size = dictionary.toList.length := by
  simp [size, toList]

/-- The ids of a dictionary are the numbers below its size. -/
theorem isSome_decode?_iff (dictionary : Dictionary α) (id : Int) :
    (dictionary.decode? id).isSome = true ↔ 0 ≤ id ∧ id < dictionary.size := by
  rw [decode?_eq, size_eq_length]
  by_cases isNatural : 0 ≤ id
  · simp [isNatural]
  · simp [isNatural]

theorem mem_of_decode? {dictionary : Dictionary α} {id : Int} {value : α}
    (decoded : dictionary.decode? id = some value) : value ∈ dictionary.toList := by
  rw [decode?_eq] at decoded
  by_cases isNatural : 0 ≤ id
  · simp only [isNatural, if_true] at decoded
    exact List.mem_of_getElem? decoded
  · simp [isNatural] at decoded

theorem decode?_idxOf [DecidableEq α] {dictionary : Dictionary α} {value : α}
    (member : value ∈ dictionary.toList) :
    dictionary.decode? (dictionary.toList.idxOf value : Nat) = some value := by
  have bound := List.idxOf_lt_length_iff.mpr member
  simp [decode?_eq, List.getElem?_eq_getElem bound]

theorem idxOf_eq_of_decode? [Ord α] [Std.ReflOrd α] [DecidableEq α] {dictionary : Dictionary α}
    (ascending : dictionary.IsAscending) {id : Int} {value : α}
    (decoded : dictionary.decode? id = some value) :
    (dictionary.toList.idxOf value : Int) = id := by
  rw [decode?_eq] at decoded
  by_cases isNatural : 0 ≤ id
  · simp only [isNatural, if_true] at decoded
    obtain ⟨bound, isThere⟩ := List.getElem?_eq_some_iff.mp decoded
    rw [← isThere, Ascending.nodup ascending |>.idxOf_getElem]
    omega
  · simp [isNatural] at decoded

/-- Of two ids, the one of the lower value is lower. -/
theorem compare_decode? [Ord α] {dictionary : Dictionary α} (ascending : dictionary.IsAscending)
    {left right : Int} {leftValue rightValue : α} (below : left < right)
    (leftDecoded : dictionary.decode? left = some leftValue)
    (rightDecoded : dictionary.decode? right = some rightValue) :
    compare leftValue rightValue = .lt := by
  have leftNatural := ((isSome_decode?_iff dictionary left).mp (by simp [leftDecoded])).1
  have rightNatural := ((isSome_decode?_iff dictionary right).mp (by simp [rightDecoded])).1
  simp only [decode?_eq, leftNatural, rightNatural, if_true] at leftDecoded rightDecoded
  obtain ⟨leftBound, rfl⟩ := List.getElem?_eq_some_iff.mp leftDecoded
  obtain ⟨rightBound, rfl⟩ := List.getElem?_eq_some_iff.mp rightDecoded
  exact List.pairwise_iff_getElem.mp ascending _ _ leftBound rightBound (by omega)

theorem idOf?_eq_idxOf [Ord α] [Std.TransOrd α] [DecidableEq α] {dictionary : Dictionary α}
    (ascending : dictionary.IsAscending) {value : α} (member : value ∈ dictionary.toList) :
    dictionary.idOf? value = some (dictionary.toList.idxOf value : Int) := by
  have bound := List.idxOf_lt_length_iff.mpr member
  have place : boundary
      (fun position => dictionary.toArray[position]?.any fun other => compare other value == .lt)
      0 dictionary.toArray.size = dictionary.toList.idxOf value := by
    apply Ascending.boundary_eq_idxOf ascending member
    intro position inRange
    have inArray : position < dictionary.toArray.size := by simpa [toList] using inRange
    simp [toList, inArray]
  have isThere : dictionary.toArray[dictionary.toList.idxOf value]? = some value := by
    rw [← Array.getElem?_toList]
    simpa [toList] using List.getElem?_eq_getElem bound
  simp [idOf?, place, isThere]

theorem mem_ofList [Ord α] [Std.LawfulEqOrd α] (value : α) (values : List α) :
    value ∈ (ofList values).toList ↔ value ∈ values :=
  mem_sortDistinct value values

theorem isAscending_ofList [Ord α] [Std.TransOrd α] [Std.LawfulEqOrd α] (values : List α) :
    (ofList values).IsAscending :=
  ascending_sortDistinct values

end Dictionary

end Unnest
