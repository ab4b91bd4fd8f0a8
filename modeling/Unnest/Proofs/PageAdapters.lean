import Mathlib.Data.List.Induction
import Unnest.Proofs.PageReading

/-!
# Adapters of pages

The local ids of a page are packed ids or one id repeated, behind adapters that leave positions out
or keep only some, nested to any depth.  `PageValues.Denotes` says which list such values stand for:
positions are deleted from the list behind an adapter, or kept of it.

Values are as long as this list, and read one by one or as a whole they give it.  In an adapter that
leaves positions out no subtraction goes below zero, and the binary search counts the positions left
out in front of the one that is read.
-/

namespace Unnest

variable {α : Type}

/-! ## Items at wanted positions -/

/-- The items of a list whose positions are wanted. -/
def itemsWhere (isWanted : Nat → Bool) (items : List α) : List α :=
  (items.zipIdx.filter fun entry => isWanted entry.2).map (·.1)

theorem itemsWhere_append_singleton (isWanted : Nat → Bool) (items : List α) (last : α) :
    itemsWhere isWanted (items ++ [last]) =
      itemsWhere isWanted items ++ if isWanted items.length then [last] else [] := by
  rw [itemsWhere, List.zipIdx_append, List.filter_append, List.map_append]
  congr 1
  by_cases wanted : isWanted items.length = true <;> simp [wanted]

/-- The positions that are wanted are picked in their order. -/
theorem pick_filter_range (isWanted : Nat → Bool) (items : List α) :
    pick items ((List.range items.length).filter isWanted) = itemsWhere isWanted items := by
  induction items using List.reverseRecOn with
  | nil => rfl
  | append_singleton items last inductionHypothesis =>
      have sameEarlier : pick (items ++ [last]) ((List.range items.length).filter isWanted) =
          pick items ((List.range items.length).filter isWanted) := by
        apply List.filterMap_congr
        intro position isEarlier
        have inside : position < items.length :=
          List.mem_range.mp (List.mem_filter.mp isEarlier).1
        exact List.getElem?_append_left inside
      rw [itemsWhere_append_singleton, List.length_append, List.length_singleton,
        List.range_succ, List.filter_append, pick, List.filterMap_append, ← pick, sameEarlier,
        inductionHypothesis]
      congr 1
      by_cases wanted : isWanted items.length = true <;> simp [wanted]

/-- Ascending positions below a bound are the wanted ones among all positions below it. -/
theorem eq_filter_range {positions : List Nat} {total : Nat}
    (within : PositionsWithin positions total) :
    positions = (List.range total).filter fun position => decide (position ∈ positions) := by
  apply List.Pairwise.eq_of_mem_iff within.1 (List.Pairwise.filter _ List.pairwise_lt_range)
  intro position
  rw [List.mem_filter, List.mem_range, decide_eq_true_eq]
  exact ⟨fun member => ⟨within.2 position member, member⟩, fun found => found.2⟩

namespace PageValues

/-! ## What values stand for -/

/-- The values stand for this list of local ids. -/
inductive Denotes : PageValues → List Int → Prop where
  | packed (ids : List Int) : Denotes (.packed (PackedIds.encode ids)) ids
  | constant (count : Nat) : Denotes (.constant count) (List.replicate count 0)
  | without {base : PageValues} {items : List Int} {removed : Array Nat}
      (isBase : Denotes base items) (within : PositionsWithin removed.toList base.length) :
      Denotes (.without base removed)
        (itemsWhere (fun position => decide (position ∉ removed.toList)) items)
  | only {base : PageValues} {items : List Int} {kept : Array Nat}
      (isBase : Denotes base items) (within : PositionsWithin kept.toList base.length) :
      Denotes (.only base kept)
        (itemsWhere (fun position => decide (position ∈ kept.toList)) items)

variable {values base : PageValues} {items : List Int} {removed : Array Nat}

theorem Denotes.isWellFormed (denotes : values.Denotes items) : values.IsWellFormed := by
  induction denotes with
  | packed ids => exact PackedIds.isWellFormed_encode ids
  | constant count => trivial
  | without _ within inductionHypothesis => exact ⟨inductionHypothesis, within⟩
  | only _ within inductionHypothesis => exact ⟨inductionHypothesis, within⟩

theorem Denotes.contents_eq (denotes : values.Denotes items) : values.contents = items := by
  induction denotes with
  | packed ids => exact PackedIds.toList_encode ids
  | constant count => rfl
  | without isBase within inductionHypothesis =>
      rw [contents, complement_eq_filter within.1, inductionHypothesis, pick_filter_range]
  | only isBase within inductionHypothesis =>
      rw [← length_contents isBase.isWellFormed, inductionHypothesis] at within
      rw [contents, inductionHypothesis, ← pick_filter_range, ← eq_filter_range within]

/-- The values are read as this list, one by one and as a whole. -/
structure ReadsAs (values : PageValues) (items : List Int) : Prop where
  length : values.length = items.length
  get? : ∀ index, values.get? index = items[index]?
  toList : values.toList = items

/-- Behind these values, positions are left out without a subtraction that goes below zero, and the
search finds how many of them are in front of a position that stays. -/
structure LeavesOut (base : PageValues) (removed : Array Nat) : Prop where
  size_le : removed.size ≤ base.length
  le_position : ∀ place (inside : place < removed.size), place ≤ removed[place]
  stays : ∀ index, index < base.length - removed.size →
    ((List.range base.length).filter fun position => decide (position ∉ removed.toList))[index]? =
      some (index + removedBefore removed index)
  counts : ∀ index, index < base.length - removed.size →
    removedBefore removed index =
      (removed.toList.filter fun position => position < index + removedBefore removed index).length

/-- At any depth, the adapters that leave positions out do so as `LeavesOut` says. -/
def HasSoundRemovals : PageValues → Prop
  | .packed _ => True
  | .without base removed => base.HasSoundRemovals ∧ base.LeavesOut removed
  | .only base _ => base.HasSoundRemovals
  | .constant _ => True

/-! ## Positions that are left out -/

/-- The walk along the positions passes those below the place where it ends. -/
theorem filter_lt_shiftPast (place : Nat) {positions : List Nat}
    (ascending : positions.Pairwise (· < ·)) :
    positions.filter (fun position => decide (position < shiftPast place positions)) =
      positions.take (shiftPast place positions - place) := by
  induction positions generalizing place with
  | nil => simp
  | cons position rest inductionHypothesis =>
      rcases List.pairwise_cons.mp ascending with ⟨below, restAscending⟩
      rw [shiftPast]
      by_cases passed : position ≤ place
      · have isPast := le_shiftPast (place + 1) rest
        have isCounted : shiftPast (place + 1) rest - place =
            shiftPast (place + 1) rest - (place + 1) + 1 := by omega
        have isBelow : position < shiftPast (place + 1) rest := by omega
        rw [if_pos passed, isCounted, List.take_succ_cons, ← inductionHypothesis _ restAscending,
          List.filter_cons, if_pos (decide_eq_true isBelow)]
      · rw [if_neg passed, Nat.sub_self, List.take_zero, List.filter_eq_nil_iff]
        intro other member isBelow
        have notBelow := of_decide_eq_true isBelow
        rcases List.mem_cons.mp member with same | isLater
        · omega
        · have := below other isLater
          omega

theorem leavesOut_of_within (within : PositionsWithin removed.toList base.length) :
    base.LeavesOut removed := by
  have counted := length_complement within
  simp only [Array.length_toList] at counted
  constructor
  case size_le => omega
  case le_position =>
      intro place inside
      have placeInside : place < removed.toList.length := by simpa using inside
      have atLeast := getElem_zero_add_le within.1 place placeInside
      simp only [Array.getElem_toList] at atLeast
      omega
  case stays =>
      intro index inside
      have gap := getElem?_gapsFrom 0 base.length removed.toList within.1 (by simp) index
      rw [← complement, Nat.zero_add, Nat.zero_add, ← add_removedBefore removed within.1] at gap
      rw [← complement_eq_filter within.1, gap]
      apply if_pos
      by_contra notBelow
      rw [if_neg notBelow, List.getElem?_eq_none_iff] at gap
      omega
  case counts =>
      intro index _
      have passed := filter_lt_shiftPast index within.1
      have atMost := shiftPast_le index removed.toList
      have isShift := add_removedBefore removed within.1 index
      rw [← isShift] at passed atMost
      rw [passed, List.length_take]
      omega

theorem Denotes.hasSoundRemovals (denotes : values.Denotes items) : values.HasSoundRemovals := by
  induction denotes with
  | packed ids => trivial
  | constant count => trivial
  | without _ within inductionHypothesis => exact ⟨inductionHypothesis, leavesOut_of_within within⟩
  | only _ _ inductionHypothesis => exact inductionHypothesis

/-- Values that stand for a list are read as this list, at any depth of adapters.  The adapters that
leave positions out never subtract below zero, and their search counts the positions left out in
front of the one that is read. -/
theorem readsAs_of_denotes (denotes : values.Denotes items) :
    values.ReadsAs items ∧ values.HasSoundRemovals := by
  have wellFormed := denotes.isWellFormed
  have sameContents := denotes.contents_eq
  have isRead : values.ReadsAs items := by
    constructor
    case length => rw [← sameContents, length_contents wellFormed]
    case get? =>
        intro index
        rw [get?_eq_getElem? wellFormed, sameContents]
    case toList => rw [toList_eq_contents wellFormed, sameContents]
  exact ⟨isRead, denotes.hasSoundRemovals⟩

/-- Seven ids without the fourth, without the first and the last two of the rest, and of these the
ones at the places zero and two. -/
def nestedValues : PageValues :=
  .only (.without (.without (.packed (PackedIds.encode [10, 11, 12, 13, 14, 15, 16])) #[3])
    #[0, 4, 5]) #[0, 2]

theorem denotes_nestedValues : nestedValues.Denotes [11, 14] := by
  have withoutOne : Denotes
      (.without (.packed (PackedIds.encode [10, 11, 12, 13, 14, 15, 16])) #[3])
      [10, 11, 12, 14, 15, 16] :=
    Denotes.without (Denotes.packed _) ((isWithinPage_iff _ _).mp (by decide +kernel))
  have withoutFour : Denotes
      (.without (.without (.packed (PackedIds.encode [10, 11, 12, 13, 14, 15, 16])) #[3])
        #[0, 4, 5]) [11, 12, 14] :=
    Denotes.without withoutOne ((isWithinPage_iff _ _).mp (by decide +kernel))
  exact Denotes.only withoutFour ((isWithinPage_iff _ _).mp (by decide +kernel))

theorem readsAs_of_denotes_nestedValues :
    nestedValues.Denotes [11, 14] ∧ nestedValues.ReadsAs [11, 14] ∧ nestedValues.HasSoundRemovals :=
  ⟨denotes_nestedValues, readsAs_of_denotes denotes_nestedValues⟩

end PageValues

end Unnest
