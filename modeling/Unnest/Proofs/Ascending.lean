import Mathlib.Data.List.Sort
import Unnest.Dictionary

/-!
# Strictly ascending lists

The values of a dictionary, the leaves of a layout and the distinct ids of a page are strictly
ascending lists.  Such a list is determined by its members, and the place of a member in it grows
with the member.  `sortDistinct` gives the strictly ascending list with the members of any list.
-/

namespace Unnest

variable {α : Type} [Ord α]

theorem compare_self_ne_lt [Std.ReflOrd α] (item : α) : compare item item ≠ .lt := by
  simp

/-- Every item lies below all items after it. -/
def Ascending (items : List α) : Prop :=
  items.Pairwise fun left right => compare left right = .lt

instance (items : List α) : Decidable (Ascending items) :=
  inferInstanceAs (Decidable (items.Pairwise fun left right => compare left right = .lt))

namespace Ascending

theorem nodup [Std.ReflOrd α] {items : List α} (ascending : Ascending items) : items.Nodup := by
  apply List.Pairwise.imp _ ascending
  intro left right below same
  subst same
  exact compare_self_ne_lt left below

theorem tail {first : α} {rest : List α} (ascending : Ascending (first :: rest)) :
    Ascending rest :=
  (List.pairwise_cons.mp ascending).2

theorem head_lt {first later : α} {rest : List α} (ascending : Ascending (first :: rest))
    (isLater : later ∈ rest) : compare first later = .lt :=
  (List.pairwise_cons.mp ascending).1 later isLater

/-- Two strictly ascending lists with the same members are the same list. -/
theorem eq_of_mem_iff [Std.TransOrd α] {left right : List α}
    (leftAscending : Ascending left) (rightAscending : Ascending right)
    (sameMembers : ∀ item, item ∈ left ↔ item ∈ right) : left = right := by
  have irreflexive : Std.Irrefl fun left right : α => compare left right = .lt :=
    ⟨compare_self_ne_lt⟩
  have antisymmetric : Std.Antisymm fun left right : α => compare left right = .lt :=
    ⟨fun _ _ below above => absurd above (Std.OrientedCmp.not_lt_of_lt below)⟩
  exact List.Pairwise.eq_of_mem_iff leftAscending rightAscending sameMembers

theorem idxOf_lt [DecidableEq α] [Std.TransOrd α] {items : List α} (ascending : Ascending items)
    {left right : α} (leftMember : left ∈ items) (rightMember : right ∈ items)
    (below : compare left right = .lt) : items.idxOf left < items.idxOf right := by
  have leftBound := List.idxOf_lt_length_iff.mpr leftMember
  have rightBound := List.idxOf_lt_length_iff.mpr rightMember
  have leftPlace : items[items.idxOf left] = left := List.getElem_idxOf leftBound
  have rightPlace : items[items.idxOf right] = right := List.getElem_idxOf rightBound
  rcases Nat.lt_trichotomy (items.idxOf left) (items.idxOf right) with less | same | greater
  · exact less
  · have equal : left = right := by
      rw [← leftPlace, ← rightPlace]
      congr 1
    rw [equal] at below
    exact absurd below (compare_self_ne_lt right)
  · have above := List.pairwise_iff_getElem.mp ascending _ _ rightBound leftBound greater
    rw [leftPlace, rightPlace] at above
    exact absurd above (Std.OrientedCmp.not_lt_of_lt below)

/-- The binary search for a member stops at its place. -/
theorem boundary_eq_idxOf [DecidableEq α] [Std.TransOrd α] {items : List α}
    (ascending : Ascending items) {item : α} (member : item ∈ items) {isBelow : Nat → Bool}
    (isBelow_iff : ∀ place (bound : place < items.length),
      isBelow place = true ↔ compare items[place] item = .lt) :
    boundary isBelow 0 items.length = items.idxOf item := by
  have bound := List.idxOf_lt_length_iff.mpr member
  have isThere : items[items.idxOf item] = item := List.getElem_idxOf bound
  apply boundary_eq _ _ _ _ (Nat.zero_le _) (Nat.le_of_lt bound)
  intro place _ inRange
  rw [isBelow_iff place inRange]
  constructor
  · intro below
    by_contra notBefore
    rcases Nat.lt_or_eq_of_le (Nat.le_of_not_lt notBefore) with after | same
    · have above := List.pairwise_iff_getElem.mp ascending _ _ bound inRange after
      rw [isThere] at above
      exact Std.OrientedCmp.not_lt_of_lt below above
    · simp only [← same, isThere] at below
      exact compare_self_ne_lt item below
  · intro before
    have below := List.pairwise_iff_getElem.mp ascending _ _ inRange bound before
    rwa [isThere] at below

end Ascending

/-! ## Sorting -/

section Sorting

variable [Std.LawfulEqOrd α]

theorem mem_dropRepeats (item : α) (items : List α) :
    item ∈ dropRepeats items ↔ item ∈ items := by
  induction items with
  | nil => simp [dropRepeats]
  | cons first rest inductionHypothesis =>
      unfold dropRepeats
      cases shape : dropRepeats rest with
      | nil =>
          rw [shape] at inductionHypothesis
          simp [← inductionHypothesis]
      | cons next others =>
          rw [shape] at inductionHypothesis
          by_cases same : compare first next = .eq
          · have equal : first = next := Std.LawfulEqCmp.eq_of_compare same
            subst equal
            simp only [same, if_true, List.mem_cons] at inductionHypothesis ⊢
            rw [← inductionHypothesis]
            exact or_self_left.symm
          · simp only [same, if_false, List.mem_cons, ← inductionHypothesis]

theorem ascending_dropRepeats [Std.TransOrd α] {items : List α}
    (sorted : items.Pairwise fun left right => (compare left right).isLE = true) :
    Ascending (dropRepeats items) := by
  induction items with
  | nil => simp [dropRepeats, Ascending]
  | cons first rest inductionHypothesis =>
      have notAbove := (List.pairwise_cons.mp sorted).1
      have restAscending := inductionHypothesis (List.pairwise_cons.mp sorted).2
      unfold dropRepeats
      cases shape : dropRepeats rest with
      | nil => simp [Ascending]
      | cons next others =>
          rw [shape] at restAscending
          by_cases same : compare first next = .eq
          · have equal : first = next := Std.LawfulEqCmp.eq_of_compare same
            subst equal
            simpa only [same, if_true] using restAscending
          · simp only [same, if_false]
            have nextMember : next ∈ rest := by
              rw [← mem_dropRepeats, shape]
              exact List.mem_cons_self
            have below : compare first next = .lt := by
              have := notAbove next nextMember
              cases order : compare first next with
              | lt => rfl
              | eq => exact absurd order same
              | gt => simp [order] at this
            refine List.pairwise_cons.mpr ⟨?_, restAscending⟩
            intro later isLater
            rcases List.mem_cons.mp isLater with rfl | inOthers
            · exact below
            · exact Std.TransCmp.lt_trans below (restAscending.head_lt inOthers)

theorem mem_sortDistinct (item : α) (items : List α) :
    item ∈ sortDistinct items ↔ item ∈ items := by
  rw [sortDistinct, mem_dropRepeats]
  exact (List.mergeSort_perm _ _).mem_iff

theorem ascending_sortDistinct [Std.TransOrd α] (items : List α) :
    Ascending (sortDistinct items) := by
  apply ascending_dropRepeats
  apply List.pairwise_mergeSort
  · intro first second third
    exact Std.TransCmp.isLE_trans
  · intro first second
    rw [Std.OrientedOrd.eq_swap (a := second) (b := first)]
    cases compare first second <;> rfl

theorem sortDistinct_eq_self [Std.TransOrd α] {items : List α} (ascending : Ascending items) :
    sortDistinct items = items :=
  (ascending_sortDistinct items).eq_of_mem_iff ascending fun item => mem_sortDistinct item items

end Sorting

/-! ## Sorting by rows -/

section SortingByRows

variable {ι : Type} (rowOf : ι → Int)

theorem pairwise_mergeSort_by (items : List ι) :
    (items.mergeSort fun left right => rowOf left ≤ rowOf right).Pairwise
      fun left right => rowOf left ≤ rowOf right := by
  have transitive : ∀ first second third : ι, decide (rowOf first ≤ rowOf second) = true →
      decide (rowOf second ≤ rowOf third) = true → decide (rowOf first ≤ rowOf third) = true := by
    simpa using fun first second third => Int.le_trans
  have connected : ∀ left right : ι,
      (decide (rowOf left ≤ rowOf right) || decide (rowOf right ≤ rowOf left)) = true := by
    simpa using fun left right => Int.le_total (rowOf left) (rowOf right)
  apply (List.pairwise_mergeSort transitive connected items).imp
  intro left right before
  exact of_decide_eq_true before

theorem mergeSort_by_eq_self {items : List ι}
    (inOrder : items.Pairwise fun left right => rowOf left ≤ rowOf right) :
    (items.mergeSort fun left right => rowOf left ≤ rowOf right) = items := by
  apply List.mergeSort_of_pairwise
  apply inOrder.imp
  intro left right before
  exact decide_eq_true before

end SortingByRows

end Unnest
