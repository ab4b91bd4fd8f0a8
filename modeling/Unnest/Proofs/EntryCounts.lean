import Unnest.Proofs.EntryLevels
import Unnest.Total

/-!
# How many entries a length stands for

A stored length has sixty-four bits, and a position has thirty-two.  Inside an entry a row has as
many entries as the length stored there says, but without the bits that a position does not have
(`realize_isCut`): exactly the lengths from `2 ^ 32` on stand for fewer entries than they say.  The
row turns into as many rows as the lengths behind its last entries say together, cut in this way.
-/

namespace Unnest

/-- The number of entries that a stored length says: nothing below zero. -/
def wholeCount (storedLength : Int64) : Nat :=
  (max storedLength.toInt 0).toNat

/-- The number of entries that the length inside an entry says; none if it is not stored. -/
def Lengths.wholeCountAt (lengths : Lengths) (pattern : FieldPath) (outer : IndexTuple) : Nat :=
  ((lengths (lengthColumnName pattern outer)).map wholeCount).getD 0

namespace Realization

/-- The entries behind so many prefixes: at first the row itself, then level after level. -/
def entriesAt (realization : Realization) : Nat → List IndexTuple
  | 0 => [[]]
  | depth + 1 => realization.levels.reverse.getD depth []

/-- The number of entries one level deeper that are inside an entry. -/
def countInside (realization : Realization) (outer : IndexTuple) : Nat :=
  (realization.entriesAt (outer.length + 1)).countP fun tuple => decide (tuple.dropLast = outer)

/-- The entries are as many as the stored lengths say without the bits that a position does not
have. -/
structure IsCut (realization : Realization) (prefixes : List FieldPath) (lengths : Lengths) :
    Prop where
  inside : ∀ outer ∈ realization.entriesAt outer.length, ∀ pattern,
    prefixes[outer.length]? = some pattern →
    ∃ length, lengths (lengthColumnName pattern outer) = some length ∧
      realization.countInside outer = wholeCount length % 2 ^ 32 ∧
      (realization.countInside outer = wholeCount length ↔ length.toInt < 2 ^ 32)
  factor : ∀ pattern, prefixes.getLast? = some pattern →
    realization.factor =
      total (fun outer => lengths.wholeCountAt pattern outer % 2 ^ 32)
        (realization.entriesAt (prefixes.length - 1)) ∧
    (realization.factor =
        total (lengths.wholeCountAt pattern) (realization.entriesAt (prefixes.length - 1)) ↔
      ∀ outer ∈ realization.entriesAt (prefixes.length - 1),
        lengths.wholeCountAt pattern outer < 2 ^ 32)

end Realization

/-! ## Counts -/

theorem entryCount_eq_mod (length : Int64) : entryCount length = wholeCount length % 2 ^ 32 := rfl

theorem wholeCount_lt_iff (length : Int64) :
    wholeCount length < 2 ^ 32 ↔ length.toInt < 2 ^ 32 := by
  rw [wholeCount]
  omega

theorem length_entriesInside (lengths : Lengths) (pattern : FieldPath) (outer : IndexTuple) :
    (entriesInside lengths pattern outer).length =
      lengths.wholeCountAt pattern outer % 2 ^ 32 := by
  rw [entriesInside, List.length_map, List.length_range, Lengths.wholeCountAt]
  cases lengths (lengthColumnName pattern outer) with
  | none => rfl
  | some length => exact entryCount_eq_mod length

/-- Totals of counts that are not greater are the same only if all counts are. -/
theorem total_eq_total_iff {α : Type} {smaller greater : α → Nat} {items : List α}
    (atMost : ∀ item ∈ items, smaller item ≤ greater item) :
    total smaller items = total greater items ↔ ∀ item ∈ items, smaller item = greater item := by
  have totalAtMost {others : List α} (below : ∀ item ∈ others, smaller item ≤ greater item) :
      total smaller others ≤ total greater others := by
    induction others with
    | nil => exact Nat.le_refl 0
    | cons first rest inductionHypothesis =>
        rcases List.forall_mem_cons.mp below with ⟨firstBelow, restBelow⟩
        exact Nat.add_le_add firstBelow (inductionHypothesis restBelow)
  induction items with
  | nil => simp
  | cons first rest inductionHypothesis =>
      rcases List.forall_mem_cons.mp atMost with ⟨firstAtMost, restAtMost⟩
      have restTotal := totalAtMost restAtMost
      rw [List.forall_mem_cons, total_cons, total_cons]
      constructor
      · intro same
        exact ⟨by omega, (inductionHypothesis restAtMost).mp (by omega)⟩
      · intro same
        rw [same.1, (inductionHypothesis restAtMost).mpr same.2]

/-! ## Levels -/

section Levels

variable {prefixes : List FieldPath} {lengths : Lengths} {realization : Realization}

theorem isLevel_entriesAt (isRealized : realize prefixes lengths = .ok realization) {depth : Nat}
    (inside : depth ≤ prefixes.length) :
    IsLevel lengths (prefixes.take depth) (realization.entriesAt depth) := by
  rcases realize_levels prefixes lengths with ⟨found, isFound, sameLength, areLevels, _⟩ |
    ⟨_, _, _, fails, _⟩
  · rw [isRealized] at isFound
    cases isFound
    cases depth with
    | zero => exact isLevel_root
    | succ depth =>
        have isPlace : depth < realization.levels.reverse.length := by
          rw [List.length_reverse, sameLength]
          exact inside
        have isThere := List.getElem?_eq_getElem isPlace
        rw [Realization.entriesAt, List.getD_eq_getElem?_getD, isThere]
        exact areLevels depth _ isThere
  · rw [isRealized] at fails
    cases fails

theorem stored_of_realize (isRealized : realize prefixes lengths = .ok realization)
    {outer : IndexTuple} {pattern : FieldPath} (isNext : prefixes[outer.length]? = some pattern)
    (isEntry : Realizes lengths (prefixes.take outer.length) outer) :
    ∃ length, lengths (lengthColumnName pattern outer) = some length := by
  rcases realize_levels prefixes lengths with ⟨_, _, _, _, nothingLacks⟩ | ⟨_, _, _, fails, _⟩
  · apply Option.ne_none_iff_exists'.mp
    intro isMissing
    exact nothingLacks ⟨outer, isEntry, pattern, isNext, isMissing⟩
  · rw [isRealized] at fails
    cases fails

/-- The entries of the next level that are inside an entry are those that its length makes. -/
theorem filter_dropLast_eq {passed : List FieldPath} {pattern : FieldPath}
    {level : List IndexTuple} (isLevel : IsLevel lengths (passed ++ [pattern]) level)
    {outer : IndexTuple} (isEntry : Realizes lengths passed outer) :
    (level.filter fun tuple => decide (tuple.dropLast = outer)) =
      entriesInside lengths pattern outer := by
  apply Ascending.eq_of_mem_iff (List.Pairwise.filter _ isLevel.ascending)
    (ascending_entriesInside pattern outer)
  intro tuple
  rw [List.mem_filter, isLevel.enumerates, Realizes.concat_iff, mem_entriesInside,
    decide_eq_true_eq]
  constructor
  · intro found
    rcases found with ⟨⟨other, length, position, _, isStored, below, shape⟩, isInside⟩
    rw [shape, List.dropLast_concat] at isInside
    rw [isInside] at isStored shape
    exact ⟨length, position, isStored, below, shape⟩
  · intro found
    rcases found with ⟨length, position, isStored, below, shape⟩
    exact ⟨⟨outer, length, position, isEntry, isStored, below, shape⟩,
      by rw [shape, List.dropLast_concat]⟩

theorem countInside_eq (isRealized : realize prefixes lengths = .ok realization)
    {outer : IndexTuple} {pattern : FieldPath} (isNext : prefixes[outer.length]? = some pattern)
    (isEntry : Realizes lengths (prefixes.take outer.length) outer) :
    realization.countInside outer = lengths.wholeCountAt pattern outer % 2 ^ 32 := by
  have inside := (List.getElem?_eq_some_iff.mp isNext).1
  have nextLevel := isLevel_entriesAt isRealized (Nat.succ_le_of_lt inside)
  rw [List.take_add_one, isNext, Option.toList_some] at nextLevel
  rw [Realization.countInside, List.countP_eq_length_filter, filter_dropLast_eq nextLevel isEntry,
    length_entriesInside]

theorem entriesAt_length (isRealized : realize prefixes lengths = .ok realization)
    (notEmpty : prefixes ≠ []) : realization.entriesAt prefixes.length = realization.leaf := by
  rcases realize_levels prefixes lengths with ⟨found, isFound, sameLength, _, _⟩ |
    ⟨_, _, _, fails, _⟩
  · rw [isRealized] at isFound
    cases isFound
    rw [← sameLength]
    cases shape : realization.levels with
    | nil =>
        rw [shape] at sameLength
        exact absurd (List.length_eq_zero_iff.mp sameLength.symm) notEmpty
    | cons level others =>
        simp [Realization.entriesAt, Realization.leaf, shape]
  · rw [isRealized] at fails
    cases fails

/-- The entries that become rows are those inside the entries of the level before. -/
theorem leaf_eq_flatMap (isRealized : realize prefixes lengths = .ok realization)
    {pattern : FieldPath} (isLast : prefixes.getLast? = some pattern) :
    realization.leaf =
      (realization.entriesAt (prefixes.length - 1)).flatMap (entriesInside lengths pattern) := by
  rcases List.getLast?_eq_some_iff.mp isLast with ⟨passed, shape⟩
  have sameCount : prefixes.length - 1 = passed.length := by simp [shape]
  have outerLevel := isLevel_entriesAt isRealized (Nat.sub_le prefixes.length 1)
  rw [sameCount] at outerLevel ⊢
  rw [shape, List.take_left] at outerLevel
  have leafLevel := isLevel_entriesAt isRealized (Nat.le_refl prefixes.length)
  rw [List.take_length, entriesAt_length isRealized (by simp [shape])] at leafLevel
  rw [shape] at leafLevel
  have nextLevel := outerLevel.flatMap_entriesInside pattern
  apply Ascending.eq_of_mem_iff leafLevel.ascending nextLevel.ascending
  intro tuple
  rw [leafLevel.enumerates, nextLevel.enumerates]

/-- A row has as many entries inside an entry as the length stored there says, without the bits that
a position does not have.  Exactly from `2 ^ 32` on the length stands for fewer entries than it
says, and the row turns into fewer rows than its last lengths say together if one of them is so
long. -/
theorem realize_isCut (isRealized : realize prefixes lengths = .ok realization) :
    realization.IsCut prefixes lengths := by
  constructor
  case inside =>
      intro outer isOuter pattern isNext
      have atMost := Nat.le_of_lt (List.getElem?_eq_some_iff.mp isNext).1
      have isEntry := ((isLevel_entriesAt isRealized atMost).enumerates outer).mp isOuter
      rcases stored_of_realize isRealized isNext isEntry with ⟨length, isStored⟩
      have isCount := countInside_eq isRealized isNext isEntry
      rw [Lengths.wholeCountAt, isStored] at isCount
      refine ⟨length, isStored, isCount, ?_⟩
      rw [isCount, ← wholeCount_lt_iff]
      exact Nat.mod_eq_iff_lt (by decide)
  case factor =>
      intro pattern isLast
      have isFactor : realization.factor =
          total (fun outer => lengths.wholeCountAt pattern outer % 2 ^ 32)
            (realization.entriesAt (prefixes.length - 1)) := by
        rw [Realization.factor, leaf_eq_flatMap isRealized isLast, length_flatMap_eq_total]
        exact total_congr fun outer _ => length_entriesInside lengths pattern outer
      refine ⟨isFactor, ?_⟩
      rw [isFactor, total_eq_total_iff fun outer _ => Nat.mod_le _ _]
      exact forall₂_congr fun outer _ => Nat.mod_eq_iff_lt (by decide)

end Levels

/-- A length just above those that fit, and one entry inside the first entry behind it. -/
def overlongLengths : Lengths := fun name =>
  if name = "a[length]" then some 4294967297
  else if name = "a[0].b[length]" then some 1
  else none

theorem realize_isCut_overlongLengths :
    ∃ realization,
      realize (FieldPath.repeatedPrefixes [⟨"a", .all⟩, ⟨"b", .all⟩]) overlongLengths =
        .ok realization ∧
      realization.IsCut (FieldPath.repeatedPrefixes [⟨"a", .all⟩, ⟨"b", .all⟩]) overlongLengths ∧
      realization.countInside [0] = 1 := by
  have isRealized :
      realize (FieldPath.repeatedPrefixes [⟨"a", .all⟩, ⟨"b", .all⟩]) overlongLengths =
        .ok ⟨[[[0, 0]], [[0]]]⟩ := by
    decide +kernel
  exact ⟨_, isRealized, realize_isCut isRealized, by decide⟩

/-- The length says more than four thousand million entries, of which the row has one, also where
they become the rows. -/
theorem overlongLengths_lose_entries :
    (∃ realization,
      realize (FieldPath.repeatedPrefixes [⟨"a", .all⟩, ⟨"b", .all⟩]) overlongLengths =
        .ok realization ∧
      [] ∈ realization.entriesAt 0 ∧
      overlongLengths (lengthColumnName [⟨"a", .all⟩] []) = some 4294967297 ∧
      wholeCount 4294967297 = 2 ^ 32 + 1 ∧ realization.countInside [] = 1) ∧
    ∃ realization,
      realize (FieldPath.repeatedPrefixes [⟨"a", .all⟩]) overlongLengths = .ok realization ∧
      total (overlongLengths.wholeCountAt [⟨"a", .all⟩]) (realization.entriesAt 0) = 2 ^ 32 + 1 ∧
      realization.factor = 1 := by
  have isRealized :
      realize (FieldPath.repeatedPrefixes [⟨"a", .all⟩, ⟨"b", .all⟩]) overlongLengths =
        .ok ⟨[[[0, 0]], [[0]]]⟩ := by
    decide +kernel
  have isOneLevel :
      realize (FieldPath.repeatedPrefixes [⟨"a", .all⟩]) overlongLengths = .ok ⟨[[[0]]]⟩ := by
    decide +kernel
  constructor
  · exact ⟨_, isRealized, by decide, by decide +kernel, by decide +kernel, by decide⟩
  · exact ⟨_, isOneLevel, by decide +kernel, by decide⟩

end Unnest
