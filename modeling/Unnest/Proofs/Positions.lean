import Unnest.Page.Selection
import Unnest.Proofs.Ascending

/-!
# Ascending positions

Positions that are strictly ascending and below a bound say which items of a list are left out or
picked.  `gapsFrom` lists the positions between them.  The place of the next gap behind a given
number of gaps is found by walking along the positions (`shiftPast`); the binary search of
`removedBefore` finds it too.
-/

namespace Unnest

/-- Positions are strictly ascending and below a bound. -/
def PositionsWithin (positions : List Nat) (total : Nat) : Prop :=
  positions.Pairwise (· < ·) ∧ ∀ position ∈ positions, position < total

theorem isAscending_iff (positions : List Nat) :
    isAscending positions = true ↔ positions.Pairwise (· < ·) := by
  fun_induction isAscending positions with
  | case1 => simp
  | case2 first => simp
  | case3 first second rest inductionHypothesis =>
      rw [Bool.and_eq_true, decide_eq_true_eq, inductionHypothesis]
      constructor
      · rintro ⟨below, ascending⟩
        refine List.pairwise_cons.mpr ⟨?_, ascending⟩
        intro later isLater
        rcases List.mem_cons.mp isLater with rfl | inRest
        · exact below
        · exact Nat.lt_trans below ((List.pairwise_cons.mp ascending).1 later inRest)
      · intro ascending
        obtain ⟨below, restAscending⟩ := List.pairwise_cons.mp ascending
        exact ⟨below second List.mem_cons_self, restAscending⟩

/-- Of ascending positions it is enough to look at the last one. -/
theorem isWithinPage_iff (positions : List Nat) (total : Nat) :
    isWithinPage positions total = true ↔ PositionsWithin positions total := by
  rw [isWithinPage, Bool.and_eq_true, isAscending_iff, PositionsWithin]
  apply and_congr_right
  intro ascending
  cases found : positions.getLast? with
  | none =>
      rw [List.getLast?_eq_none_iff] at found
      simp [found]
  | some last =>
      obtain ⟨earlier, rfl⟩ := List.getLast?_eq_some_iff.mp found
      simp only [Option.all_some, decide_eq_true_eq, List.mem_append, List.mem_singleton]
      constructor
      · rintro below position (isEarlier | rfl)
        · exact Nat.lt_trans
            ((List.pairwise_append.mp ascending).2.2 position isEarlier last (by simp)) below
        · exact below
      · exact fun below => below last (Or.inr rfl)

/-! ## Gaps -/

/-- Positions from `start` on that do not begin there lie behind it. -/
theorem succ_le_of_mem {start next : Nat} {skipped : List Nat}
    (ascending : (next :: skipped).Pairwise (· < ·))
    (behind : ∀ position ∈ next :: skipped, start ≤ position) (different : ¬ next = start) :
    ∀ position ∈ next :: skipped, start + 1 ≤ position := by
  have nextBehind := behind next List.mem_cons_self
  intro position member
  rcases List.mem_cons.mp member with rfl | inRest
  · omega
  · have := (List.pairwise_cons.mp ascending).1 position inRest
    omega

theorem gapsFrom_eq_filter (start count : Nat) (skipped : List Nat)
    (ascending : skipped.Pairwise (· < ·)) (behind : ∀ position ∈ skipped, start ≤ position) :
    gapsFrom start count skipped =
      (List.range' start count).filter fun position => decide (position ∉ skipped) := by
  fun_induction gapsFrom start count skipped with
  | case1 start skipped => rfl
  | case2 start count inductionHypothesis =>
      rw [inductionHypothesis List.Pairwise.nil (by simp), List.range'_succ]
      simp
  | case3 count start skipped inductionHypothesis =>
      obtain ⟨below, restAscending⟩ := List.pairwise_cons.mp ascending
      rw [inductionHypothesis restAscending below, List.range'_succ,
        List.filter_cons_of_neg (by simp)]
      apply List.filter_congr
      intro position member
      have := (List.mem_range'_1.mp member).1
      have different : position ≠ start := by omega
      simp [different]
  | case4 start count next skipped different inductionHypothesis =>
      have allBehind := succ_le_of_mem ascending behind different
      have notSkipped : start ∉ next :: skipped := by
        intro member
        have := allBehind start member
        omega
      rw [inductionHypothesis ascending allBehind, List.range'_succ,
        List.filter_cons_of_pos (by simpa using notSkipped)]

/-- The complement of positions are the positions that are not among them. -/
theorem complement_eq_filter {positions : List Nat} (ascending : positions.Pairwise (· < ·))
    (total : Nat) :
    complement positions total =
      (List.range total).filter fun position => decide (position ∉ positions) := by
  rw [complement, gapsFrom_eq_filter 0 total positions ascending (by simp),
    List.range_eq_range']

theorem mem_complement {positions : List Nat} (ascending : positions.Pairwise (· < ·))
    (position total : Nat) :
    position ∈ complement positions total ↔ position < total ∧ position ∉ positions := by
  simp [complement_eq_filter ascending]

theorem positionsWithin_complement {positions : List Nat} (ascending : positions.Pairwise (· < ·))
    (total : Nat) : PositionsWithin (complement positions total) total := by
  refine ⟨?_, fun position member => ((mem_complement ascending position total).mp member).1⟩
  rw [complement_eq_filter ascending]
  exact List.Pairwise.filter _ List.pairwise_lt_range

theorem complement_complement {positions : List Nat} {total : Nat}
    (within : PositionsWithin positions total) :
    complement (complement positions total) total = positions := by
  have complementAscending := (positionsWithin_complement within.1 total).1
  have gapsAscending := (positionsWithin_complement complementAscending total).1
  apply List.Pairwise.eq_of_mem_iff gapsAscending within.1
  intro position
  rw [mem_complement complementAscending, mem_complement within.1]
  constructor
  · rintro ⟨below, notGap⟩
    by_cases member : position ∈ positions
    · exact member
    · exact absurd ⟨below, member⟩ notGap
  · exact fun member => ⟨within.2 position member, fun isGap => isGap.2 member⟩

theorem length_gapsFrom (start count : Nat) (skipped : List Nat)
    (ascending : skipped.Pairwise (· < ·))
    (within : ∀ position ∈ skipped, start ≤ position ∧ position < start + count) :
    (gapsFrom start count skipped).length + skipped.length = count := by
  fun_induction gapsFrom start count skipped with
  | case1 start skipped =>
      cases skipped with
      | nil => rfl
      | cons next rest =>
          have := within next List.mem_cons_self
          omega
  | case2 start count inductionHypothesis =>
      simpa using inductionHypothesis List.Pairwise.nil (by simp)
  | case3 count start skipped inductionHypothesis =>
      obtain ⟨below, restAscending⟩ := List.pairwise_cons.mp ascending
      have := inductionHypothesis restAscending fun position member => by
        have := below position member
        have := within position (List.mem_cons_of_mem _ member)
        omega
      rw [List.length_cons]
      omega
  | case4 start count next skipped different inductionHypothesis =>
      have allBehind := succ_le_of_mem ascending (fun position member => (within position member).1)
        different
      have := inductionHypothesis ascending fun position member => by
        have positionWithin := within position member
        have positionBehind := allBehind position member
        omega
      simp only [List.length_cons] at this ⊢
      omega

theorem length_complement {positions : List Nat} {total : Nat}
    (within : PositionsWithin positions total) :
    (complement positions total).length + positions.length = total :=
  length_gapsFrom 0 total positions within.1 fun position member =>
    ⟨Nat.zero_le _, by simpa using within.2 position member⟩

/-! ## Walking along the positions -/

/-- The place of an item that lies at `place` before the ascending positions are put in. -/
def shiftPast (place : Nat) : List Nat → Nat
  | [] => place
  | position :: rest => if position ≤ place then shiftPast (place + 1) rest else place

theorem le_shiftPast (place : Nat) (positions : List Nat) : place ≤ shiftPast place positions := by
  induction positions generalizing place with
  | nil => exact Nat.le_refl place
  | cons position rest inductionHypothesis =>
      rw [shiftPast]
      split
      · exact Nat.le_trans (Nat.le_succ place) (inductionHypothesis (place + 1))
      · exact Nat.le_refl place

theorem shiftPast_le (place : Nat) (positions : List Nat) :
    shiftPast place positions ≤ place + positions.length := by
  induction positions generalizing place with
  | nil => exact Nat.le_refl place
  | cons position rest inductionHypothesis =>
      have := inductionHypothesis (place + 1)
      rw [shiftPast, List.length_cons]
      split <;> omega

theorem getElem?_gapsFrom (start count : Nat) (skipped : List Nat)
    (ascending : skipped.Pairwise (· < ·)) (behind : ∀ position ∈ skipped, start ≤ position)
    (index : Nat) :
    (gapsFrom start count skipped)[index]? =
      if shiftPast (start + index) skipped < start + count then
        some (shiftPast (start + index) skipped)
      else none := by
  fun_induction gapsFrom start count skipped generalizing index with
  | case1 start skipped =>
      have := le_shiftPast (start + index) skipped
      simp [show ¬ shiftPast (start + index) skipped < start by omega]
  | case2 start count inductionHypothesis =>
      cases index with
      | zero => simp [shiftPast]
      | succ index =>
          have later := inductionHypothesis List.Pairwise.nil (by simp) index
          have sameEnd : start + 1 + count = start + (count + 1) := by omega
          have samePlace : start + 1 + index = start + (index + 1) := by omega
          rw [List.getElem?_cons_succ, later, sameEnd, samePlace]
  | case3 count start skipped inductionHypothesis =>
      obtain ⟨below, restAscending⟩ := List.pairwise_cons.mp ascending
      have later := inductionHypothesis restAscending below index
      have sameEnd : start + 1 + count = start + (count + 1) := by omega
      have samePlace : start + 1 + index = start + index + 1 := by omega
      rw [later, shiftPast, if_pos (Nat.le_add_right start index), sameEnd, samePlace]
  | case4 start count next skipped different inductionHypothesis =>
      have allBehind := succ_le_of_mem ascending behind different
      cases index with
      | zero =>
          have notBefore : ¬ next ≤ start := Nat.not_le.mpr (allBehind next List.mem_cons_self)
          simp [shiftPast, notBefore]
      | succ index =>
          have later := inductionHypothesis ascending allBehind index
          have sameEnd : start + 1 + count = start + (count + 1) := by omega
          have samePlace : start + 1 + index = start + (index + 1) := by omega
          rw [List.getElem?_cons_succ, later, sameEnd, samePlace]

theorem getElem_zero_add_le {positions : List Nat} (ascending : positions.Pairwise (· < ·))
    (index : Nat) (bound : index < positions.length) :
    positions[0] + index ≤ positions[index] := by
  induction index with
  | zero => exact Nat.le_refl _
  | succ earlier inductionHypothesis =>
      have earlierLe := inductionHypothesis (by omega)
      have := List.pairwise_iff_getElem.mp ascending earlier (earlier + 1) (by omega) bound
        (by omega)
      omega

/-- The positions that the walk passes are the first ones. -/
theorem le_add_iff_lt_shiftPast (place : Nat) (positions : List Nat)
    (ascending : positions.Pairwise (· < ·)) (index : Nat) (bound : index < positions.length) :
    positions[index] ≤ place + index ↔ index < shiftPast place positions - place := by
  induction positions generalizing place index with
  | nil => cases bound
  | cons position rest inductionHypothesis =>
      obtain ⟨below, restAscending⟩ := List.pairwise_cons.mp ascending
      rw [shiftPast]
      by_cases passed : position ≤ place
      · have := le_shiftPast (place + 1) rest
        simp only [passed, if_true]
        cases index with
        | zero =>
            simp only [List.getElem_cons_zero]
            omega
        | succ index =>
            have later := inductionHypothesis (place + 1) restAscending index
              (by simpa using bound)
            simp only [List.getElem_cons_succ]
            omega
      · simp only [passed, if_false, Nat.sub_self, Nat.not_lt_zero, iff_false]
        have := getElem_zero_add_le ascending index bound
        simp only [List.getElem_cons_zero] at this
        omega

/-- The binary search stops where the walk does. -/
theorem add_removedBefore (removed : Array Nat) (ascending : removed.toList.Pairwise (· < ·))
    (index : Nat) : index + removedBefore removed index = shiftPast index removed.toList := by
  have above := le_shiftPast index removed.toList
  have isPassed (place : Nat) (bound : place < removed.size) :
      (decide (place ≤ removed.getD place 0) && decide (removed.getD place 0 - place ≤ index)) =
          true ↔ place < shiftPast index removed.toList - index := by
    have listBound : place < removed.toList.length := by simpa using bound
    have sameItem : removed.getD place 0 = removed.toList[place] := by
      simp [Array.getD, bound]
    rw [← le_add_iff_lt_shiftPast index removed.toList ascending place listBound, sameItem,
      Bool.and_eq_true, decide_eq_true_eq, decide_eq_true_eq]
    have := getElem_zero_add_le ascending place listBound
    omega
  have limitBound : shiftPast index removed.toList - index ≤ removed.size := by
    have := shiftPast_le index removed.toList
    simp only [Array.length_toList] at this
    omega
  have found := boundary_eq
    (fun place =>
      let position := removed.getD place 0
      decide (place ≤ position) && decide (position - place ≤ index))
    0 removed.size (shiftPast index removed.toList - index) (Nat.zero_le _) limitBound
    fun place _ bound => isPassed place bound
  rw [removedBefore, found]
  omega

end Unnest
