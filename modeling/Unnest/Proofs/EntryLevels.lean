import Mathlib.Algebra.Group.Int.Defs
import Mathlib.Algebra.Group.Nat.Defs
import Unnest.Proofs.Ascending
import Unnest.Proofs.Realization

/-!
# The levels of the entries of a row

Realizing a row goes from level to level, and on each level from entry to entry, ascending.  Each
level is the strictly ascending list of the entries that the row has behind the prefixes so far, and
if a length is missing, the first one on this way is reported.

Without lengths of more than thirty-two bits, an entry is a tuple of positions each of which is
below the length stored for the array around it (`StoresEntry`).
-/

namespace Unnest

/-! ## Order -/

/-- What follows two tuples of one length does not change their order. -/
theorem compare_append_of_lt {left right : IndexTuple} (sameLength : left.length = right.length)
    (below : compare left right = .lt) (leftRest rightRest : IndexTuple) :
    compare (left ++ leftRest) (right ++ rightRest) = .lt := by
  induction left generalizing right with
  | nil =>
      rw [List.length_eq_zero_iff.mp sameLength.symm] at below
      cases below
  | cons first others inductionHypothesis =>
      cases right with
      | nil => cases sameLength
      | cons head more =>
          rw [List.cons_append, List.cons_append, List.compare_cons_cons, Ordering.then_eq_lt]
          rw [List.compare_cons_cons, Ordering.then_eq_lt] at below
          rcases below with isLess | ⟨isSame, restBelow⟩
          · exact Or.inl isLess
          · exact Or.inr ⟨isSame, inductionHypothesis (Nat.succ.inj sameLength) restBelow⟩

theorem compare_append_self (outer left right : IndexTuple) :
    compare (outer ++ left) (outer ++ right) = compare left right := by
  induction outer with
  | nil => rfl
  | cons first others inductionHypothesis =>
      rw [List.cons_append, List.cons_append, List.compare_cons_cons, inductionHypothesis]
      simp

/-- Entries of earlier levels come first, and on one level the smaller ones. -/
def ComesBefore (left right : IndexTuple) : Prop :=
  left.length < right.length ∨ left.length = right.length ∧ compare left right = .lt

/-- The first one of the tuples with a property, level by level and ascending on each of them. -/
structure IsFirst (Holds : IndexTuple → Prop) (first : IndexTuple) : Prop where
  holds : Holds first
  comesBefore : ∀ other, Holds other → other = first ∨ ComesBefore first other

/-! ## One level -/

/-- The entries of an array inside an entry; none if its length is not stored. -/
def entriesInside (lengths : Lengths) (pattern : FieldPath) (outer : IndexTuple) :
    List IndexTuple :=
  (List.range (((lengths (lengthColumnName pattern outer)).map entryCount).getD 0)).map
    fun position => outer ++ [position]

section Levels

variable {lengths : Lengths}

/-- A level holds the entries inside all entries, in order, unless one of these lacks its length:
then the first one that does is reported. -/
theorem realizeLevel_eq (pattern : FieldPath) (outers : List IndexTuple) :
    realizeLevel lengths pattern outers =
      match outers.find? fun outer => (lengths (lengthColumnName pattern outer)).isNone with
      | some outer => .error (.missingLengthColumn (lengthColumnName pattern outer))
      | none => .ok (outers.flatMap (entriesInside lengths pattern)) := by
  induction outers with
  | nil => rfl
  | cons outer rest inductionHypothesis =>
      rw [realizeLevel, realizeInside, inductionHypothesis, List.find?_cons]
      cases stored : lengths (lengthColumnName pattern outer) with
      | none => rfl
      | some length =>
          cases rest.find? fun outer => (lengths (lengthColumnName pattern outer)).isNone with
          | some missing => rfl
          | none => simp [entriesInside, stored]

theorem mem_entriesInside {pattern : FieldPath} {outer tuple : IndexTuple} :
    tuple ∈ entriesInside lengths pattern outer ↔
      ∃ length position, lengths (lengthColumnName pattern outer) = some length ∧
        position < entryCount length ∧ tuple = outer ++ [position] := by
  rw [entriesInside, List.mem_map]
  cases lengths (lengthColumnName pattern outer) with
  | none => simp
  | some length => simp [eq_comm]

theorem ascending_entriesInside (pattern : FieldPath) (outer : IndexTuple) :
    Ascending (entriesInside lengths pattern outer) := by
  rw [entriesInside, Ascending, List.pairwise_map]
  apply List.Pairwise.imp _ List.pairwise_lt_range
  intro left right below
  rw [compare_append_self, List.compare_cons_cons, Nat.compare_eq_lt.mpr below]
  rfl

/-- The list is the level behind the prefixes passed so far. -/
structure IsLevel (lengths : Lengths) (passed : List FieldPath) (tuples : List IndexTuple) :
    Prop where
  ascending : Ascending tuples
  enumerates : Enumerates lengths passed tuples

theorem isLevel_root : IsLevel lengths [] [[]] := by
  constructor
  · simp [Ascending]
  · intro tuple
    rw [List.mem_singleton, Realizes.nil_iff]

/-- The entries inside the entries of a level are the next level. -/
theorem IsLevel.flatMap_entriesInside {passed : List FieldPath} {outers : List IndexTuple}
    (isLevel : IsLevel lengths passed outers) (pattern : FieldPath) :
    IsLevel lengths (passed ++ [pattern]) (outers.flatMap (entriesInside lengths pattern)) := by
  constructor
  · -- Entries inside different outer entries are in the order of these.
    rw [Ascending, List.pairwise_flatMap]
    refine ⟨fun outer _ => ascending_entriesInside pattern outer, ?_⟩
    apply List.Pairwise.imp_of_mem _ isLevel.ascending
    intro left right isLeft isRight below first isFirst second isSecond
    rcases mem_entriesInside.mp isFirst with ⟨_, position, _, _, shape⟩
    rcases mem_entriesInside.mp isSecond with ⟨_, other, _, _, otherShape⟩
    have leftLength := ((isLevel.enumerates left).mp isLeft).length_eq
    have rightLength := ((isLevel.enumerates right).mp isRight).length_eq
    rw [shape, otherShape]
    exact compare_append_of_lt (leftLength.trans rightLength.symm) below _ _
  · intro tuple
    rw [List.mem_flatMap, Realizes.concat_iff]
    simp only [mem_entriesInside, isLevel.enumerates _]
    constructor
    · intro found
      rcases found with ⟨outer, isOuter, length, position, others⟩
      exact ⟨outer, length, position, isOuter, others⟩
    · intro found
      rcases found with ⟨outer, length, position, isOuter, others⟩
      exact ⟨outer, isOuter, length, position, others⟩

/-- One level leads to the next, or the length behind the first entry without one is reported. -/
theorem IsLevel.realizeLevel_outcome {passed : List FieldPath} {outers : List IndexTuple}
    (isLevel : IsLevel lengths passed outers) (pattern : FieldPath) :
    (∃ level, realizeLevel lengths pattern outers = .ok level ∧
      IsLevel lengths (passed ++ [pattern]) level ∧
      ∀ outer, Realizes lengths passed outer → lengths (lengthColumnName pattern outer) ≠ none) ∨
    ∃ outer, realizeLevel lengths pattern outers =
        .error (.missingLengthColumn (lengthColumnName pattern outer)) ∧
      Realizes lengths passed outer ∧ lengths (lengthColumnName pattern outer) = none ∧
      ∀ other, Realizes lengths passed other → lengths (lengthColumnName pattern other) = none →
        other = outer ∨ compare outer other = .lt := by
  rw [realizeLevel_eq]
  cases isFound : outers.find? fun outer => (lengths (lengthColumnName pattern outer)).isNone with
  | none =>
      refine Or.inl ⟨_, rfl, isLevel.flatMap_entriesInside pattern, ?_⟩
      intro outer realized
      have isStored := List.find?_eq_none.mp isFound outer ((isLevel.enumerates outer).mpr realized)
      simpa using isStored
  | some outer =>
      rcases List.find?_eq_some_iff_append.mp isFound with
        ⟨isMissing, before, after, shape, storedBefore⟩
      have isOuter : outer ∈ outers := by simp [shape]
      refine Or.inr ⟨outer, rfl, (isLevel.enumerates outer).mp isOuter,
        by simpa using isMissing, ?_⟩
      intro other realized otherMissing
      have isOther := (isLevel.enumerates other).mpr realized
      rw [shape] at isOther
      have ascending := isLevel.ascending
      rw [shape] at ascending
      rcases List.mem_append.mp isOther with isBefore | isLater
      · have isStored := storedBefore other isBefore
        simp [otherMissing] at isStored
      · rcases List.mem_cons.mp isLater with same | isAfter
        · exact Or.inl same
        · have behind : Ascending (outer :: after) := (List.pairwise_append.mp ascending).2.1
          exact Or.inr (behind.head_lt isAfter)

/-! ## All levels -/

/-- The length of the next prefix behind an entry is not stored. -/
def LacksNext (lengths : Lengths) (prefixes : List FieldPath) (outer : IndexTuple) : Prop :=
  ∃ pattern, prefixes[outer.length]? = some pattern ∧
    lengths (lengthColumnName pattern outer) = none

/-- Behind an entry that the row has, the length of the next prefix is not stored. -/
def LacksBehind (lengths : Lengths) (prefixes : List FieldPath) (outer : IndexTuple) : Prop :=
  Realizes lengths (prefixes.take outer.length) outer ∧ LacksNext lengths prefixes outer

theorem take_succ_of_drop {prefixes rest : List FieldPath} {first : FieldPath} {depth : Nat}
    (isRest : prefixes.drop depth = first :: rest) :
    prefixes[depth]? = some first ∧ prefixes.drop (depth + 1) = rest ∧
      prefixes.take (depth + 1) = prefixes.take depth ++ [first] ∧
      (prefixes.take depth).length = depth := by
  have isFirst : prefixes[depth]? = some first := by
    rw [← Nat.add_zero depth, ← List.getElem?_drop, isRest]
    rfl
  have inside : depth < prefixes.length := (List.getElem?_eq_some_iff.mp isFirst).1
  refine ⟨isFirst, ?_, ?_, ?_⟩
  · rw [← List.tail_drop, isRest, List.tail_cons]
  · rw [List.take_add_one, isFirst, Option.toList_some]
  · rw [List.length_take, Nat.min_eq_left (Nat.le_of_lt inside)]

/-- The levels below a level, or the first length that is missing from this level on. -/
theorem IsLevel.realizeBelow_outcome {prefixes : List FieldPath} (deeper : List FieldPath)
    {depth : Nat} {outers : List IndexTuple} (isRest : prefixes.drop depth = deeper)
    (isLevel : IsLevel lengths (prefixes.take depth) outers) :
    (∃ levels, realizeBelow lengths outers deeper = .ok levels ∧
      levels.length = deeper.length ∧
      (∀ place level, levels[place]? = some level →
        IsLevel lengths (prefixes.take (depth + place + 1)) level) ∧
      ¬ ∃ outer, depth ≤ outer.length ∧ LacksBehind lengths prefixes outer) ∨
    ∃ outer pattern, prefixes[outer.length]? = some pattern ∧
      realizeBelow lengths outers deeper =
        .error (.missingLengthColumn (lengthColumnName pattern outer)) ∧
      IsFirst (fun other => depth ≤ other.length ∧ LacksBehind lengths prefixes other) outer := by
  -- Going down one prefix, the outer entries stay the level behind the prefixes passed so far.
  induction deeper generalizing depth outers with
  | nil =>
      refine Or.inl ⟨[], rfl, rfl, by simp, ?_⟩
      intro found
      rcases found with ⟨outer, isDeep, _, pattern, isNext, _⟩
      have atEnd : prefixes.length ≤ depth := List.drop_eq_nil_iff.mp isRest
      have inside := (List.getElem?_eq_some_iff.mp isNext).1
      omega
  | cons first rest inductionHypothesis =>
      rcases take_succ_of_drop isRest with ⟨isFirst, isLater, passedFirst, depthLength⟩
      rcases isLevel.realizeLevel_outcome first with
        ⟨level, isRealized, nextLevel, allStored⟩ |
        ⟨outer, fails, realized, isMissing, firstOfLevel⟩
      · rw [← passedFirst] at nextLevel
        have nothingHere (outer : IndexTuple) (isHere : outer.length = depth) :
            ¬ LacksBehind lengths prefixes outer := by
          intro lacks
          rcases lacks with ⟨realized, pattern, isNext, isMissing⟩
          rw [isHere] at realized isNext
          rw [isFirst] at isNext
          cases isNext
          exact allStored outer realized isMissing
        have deeperThanHere (outer : IndexTuple) (isDeep : depth ≤ outer.length)
            (lacks : LacksBehind lengths prefixes outer) : depth + 1 ≤ outer.length := by
          rcases Nat.eq_or_lt_of_le isDeep with isHere | isBelow
          · exact absurd lacks (nothingHere outer isHere.symm)
          · exact isBelow
        rcases inductionHypothesis isLater nextLevel with
          ⟨levels, areRealized, sameLength, areLevels, nothingLacks⟩ |
          ⟨outer, pattern, isNext, fails, isFirstBelow⟩
        · refine Or.inl ⟨level :: levels, by simp [realizeBelow, isRealized, areRealized],
            by simp [sameLength], ?_, ?_⟩
          · intro place found isFound
            cases place with
            | zero =>
                cases isFound
                exact nextLevel
            | succ place =>
                have isBelow := areLevels place found (by simpa using isFound)
                rwa [show depth + (place + 1) + 1 = depth + 1 + place + 1 by omega]
          · intro found
            rcases found with ⟨outer, isDeep, lacks⟩
            exact nothingLacks ⟨outer, deeperThanHere outer isDeep lacks, lacks⟩
        · refine Or.inr ⟨outer, pattern, isNext, by simp [realizeBelow, isRealized, fails], ?_⟩
          constructor
          · exact ⟨Nat.le_of_succ_le isFirstBelow.holds.1, isFirstBelow.holds.2⟩
          · intro other otherLacks
            exact isFirstBelow.comesBefore other
              ⟨deeperThanHere other otherLacks.1 otherLacks.2, otherLacks.2⟩
      · have isHere : outer.length = depth := realized.length_eq.trans depthLength
        refine Or.inr ⟨outer, first, by rw [isHere, isFirst], by simp [realizeBelow, fails], ?_⟩
        constructor
        · refine ⟨Nat.le_of_eq isHere.symm, ?_, first, ?_, isMissing⟩
          · rwa [isHere]
          · rw [isHere, isFirst]
        · intro other otherLacks
          rcases otherLacks with ⟨isDeep, otherRealized, pattern, isNext, otherMissing⟩
          rcases Nat.eq_or_lt_of_le isDeep with onLevel | isBelow
          · rw [← onLevel] at otherRealized isNext
            rw [isFirst] at isNext
            cases isNext
            rcases firstOfLevel other otherRealized otherMissing with same | isLater
            · exact Or.inl same
            · exact Or.inr (Or.inr ⟨isHere.trans onLevel, isLater⟩)
          · exact Or.inr (Or.inl (isHere.symm ▸ isBelow))

/-- A row is realized into the levels behind its prefixes, or the first missing length is
reported. -/
theorem realize_levels (prefixes : List FieldPath) (lengths : Lengths) :
    (∃ realization, realize prefixes lengths = .ok realization ∧
      realization.levels.length = prefixes.length ∧
      (∀ depth level, realization.levels.reverse[depth]? = some level →
        IsLevel lengths (prefixes.take (depth + 1)) level) ∧
      ¬ ∃ outer, LacksBehind lengths prefixes outer) ∨
    ∃ outer pattern, prefixes[outer.length]? = some pattern ∧
      realize prefixes lengths = .error (.missingLengthColumn (lengthColumnName pattern outer)) ∧
      IsFirst (LacksBehind lengths prefixes) outer := by
  have isRest : prefixes.drop 0 = prefixes := rfl
  have isRoot : IsLevel lengths (prefixes.take 0) [[]] := isLevel_root
  rcases isRoot.realizeBelow_outcome prefixes isRest with
    ⟨levels, areRealized, sameLength, areLevels, nothingLacks⟩ |
    ⟨outer, pattern, isNext, fails, isFirst⟩
  · refine Or.inl ⟨⟨levels.reverse⟩, by simp [realize, areRealized], by simp [sameLength], ?_, ?_⟩
    · intro depth level isLevel
      rw [List.reverse_reverse] at isLevel
      have isThere := areLevels depth level isLevel
      rwa [Nat.zero_add] at isThere
    · intro found
      rcases found with ⟨outer, lacks⟩
      exact nothingLacks ⟨outer, Nat.zero_le _, lacks⟩
  · refine Or.inr ⟨outer, pattern, isNext, by simp [realize, fails], isFirst.holds.2, ?_⟩
    intro other otherLacks
    exact isFirst.comesBefore other ⟨Nat.zero_le _, otherLacks⟩

/-- The entries that become rows are strictly ascending. -/
theorem ascending_leaf {prefixes : List FieldPath} {realization : Realization}
    (isRealized : realize prefixes lengths = .ok realization) : Ascending realization.leaf := by
  rcases realize_levels prefixes lengths with
    ⟨found, isFound, _, areLevels, _⟩ | ⟨outer, pattern, _, fails, _⟩
  · rw [isRealized] at isFound
    cases isFound
    rw [Realization.leaf]
    cases shape : realization.levels with
    | nil => exact List.Pairwise.nil
    | cons level others =>
        have isThere : realization.levels.reverse[others.length]? = some level := by
          simp [shape]
        exact (areLevels _ level isThere).ascending
  · rw [isRealized] at fails
    cases fails

end Levels

/-! ## Positions below lengths -/

/-- Every position of the tuple is below the length that is stored for the array around it, one
repeated prefix after the other. -/
def StoresEntry (lengths : Lengths) (prefixes : List FieldPath) (tuple : IndexTuple) : Prop :=
  ∀ depth (isPlace : depth < tuple.length), ∃ pattern length,
    prefixes[depth]? = some pattern ∧
    lengths (lengthColumnName pattern (tuple.take depth)) = some length ∧
    (tuple[depth] : Int) < length.toInt

/-- No stored length takes more than thirty-two bits. -/
def Lengths.AreShort (lengths : Lengths) : Prop :=
  ∀ name length, lengths name = some length → length.toInt ≤ 2 ^ 32 - 1

theorem lt_entryCount_iff {length : Int64} (short : length.toInt ≤ 2 ^ 32 - 1) (position : Nat) :
    position < entryCount length ↔ (position : Int) < length.toInt := by
  have size : UInt32.size = 2 ^ 32 := rfl
  have noCut : (max length.toInt 0).toNat % UInt32.size = (max length.toInt 0).toNat :=
    Nat.mod_eq_of_lt (by omega)
  rw [entryCount, noCut]
  omega

section Positions

variable {lengths : Lengths} {prefixes : List FieldPath}

theorem storesEntry_concat (outer : IndexTuple) (position : Nat) :
    StoresEntry lengths prefixes (outer ++ [position]) ↔
      StoresEntry lengths prefixes outer ∧ ∃ pattern length,
        prefixes[outer.length]? = some pattern ∧
        lengths (lengthColumnName pattern outer) = some length ∧
        (position : Int) < length.toInt := by
  constructor
  · intro stores
    constructor
    · intro depth isPlace
      have isOuter := stores depth (by rw [List.length_append]; omega)
      rwa [List.take_append_of_le_length (Nat.le_of_lt isPlace),
        List.getElem_append_left isPlace] at isOuter
    · have isLast := stores outer.length (by simp)
      simpa using isLast
  · intro stores
    rcases stores with ⟨isOuter, isLast⟩
    intro depth isPlace
    rcases Nat.lt_or_ge depth outer.length with inOuter | atEnd
    · rw [List.take_append_of_le_length (Nat.le_of_lt inOuter), List.getElem_append_left inOuter]
      exact isOuter depth inOuter
    · have isEnd : depth = outer.length := by
        rw [List.length_append, List.length_singleton] at isPlace
        omega
      subst isEnd
      simpa using isLast

/-- The entries behind the first prefixes are the tuples of so many positions below the lengths. -/
theorem realizes_take_iff (short : lengths.AreShort) {depth : Nat}
    (inside : depth ≤ prefixes.length) (tuple : IndexTuple) :
    Realizes lengths (prefixes.take depth) tuple ↔
      tuple.length = depth ∧ StoresEntry lengths prefixes tuple := by
  induction depth generalizing tuple with
  | zero =>
      rw [List.take_zero, Realizes.nil_iff]
      constructor
      · intro isEmpty
        subst isEmpty
        exact ⟨rfl, fun depth isPlace => absurd isPlace (Nat.not_lt_zero depth)⟩
      · intro stores
        exact List.length_eq_zero_iff.mp stores.1
  | succ depth inductionHypothesis =>
      have isNext : prefixes[depth]? = some (prefixes.get ⟨depth, inside⟩) :=
        List.getElem?_eq_getElem inside
      have outerIff := inductionHypothesis (Nat.le_of_succ_le inside)
      rw [List.take_add_one, isNext, Option.toList_some, Realizes.concat_iff]
      constructor
      · intro realized
        rcases realized with ⟨outer, length, position, isOuter, isStored, below, shape⟩
        rcases (outerIff outer).mp isOuter with ⟨outerLength, stores⟩
        rw [shape, storesEntry_concat]
        refine ⟨by simp [outerLength], stores, _, length, by rw [outerLength, isNext], isStored, ?_⟩
        exact (lt_entryCount_iff (short _ _ isStored) position).mp below
      · intro found
        rcases found with ⟨tupleLength, stores⟩
        rcases List.eq_nil_or_concat tuple with isEmpty | ⟨outer, position, shape⟩
        · rw [isEmpty] at tupleLength
          cases tupleLength
        · rw [List.concat_eq_append] at shape
          rw [shape, storesEntry_concat] at stores
          rcases stores with ⟨isOuter, pattern, length, isPattern, isStored, below⟩
          have outerLength : outer.length = depth := by
            rw [shape, List.length_append] at tupleLength
            exact Nat.succ.inj tupleLength
          rw [outerLength, isNext] at isPattern
          cases isPattern
          exact ⟨outer, length, position, (outerIff outer).mpr ⟨outerLength, isOuter⟩, isStored,
            (lt_entryCount_iff (short _ _ isStored) position).mpr below, shape⟩

theorem lacksBehind_iff (short : lengths.AreShort) (outer : IndexTuple) :
    LacksBehind lengths prefixes outer ↔
      StoresEntry lengths prefixes outer ∧ LacksNext lengths prefixes outer := by
  apply and_congr_left
  intro lacksNext
  rcases lacksNext with ⟨pattern, isNext, _⟩
  have inside := (List.getElem?_eq_some_iff.mp isNext).1
  rw [realizes_take_iff short (Nat.le_of_lt inside)]
  exact and_iff_right rfl

end Positions

/-- Without lengths of more than thirty-two bits, a row is realized exactly if no entry of it lacks
the length that is needed next; otherwise the first such length is reported.  The levels, of which
the most specific one comes first, hold the entries behind each prefix, strictly ascending. -/
theorem realize_exact (prefixes : List FieldPath) {lengths : Lengths} (short : lengths.AreShort) :
    ((∃ error, realize prefixes lengths = .error error) ↔
      ∃ outer, StoresEntry lengths prefixes outer ∧ LacksNext lengths prefixes outer) ∧
    (∀ error, realize prefixes lengths = .error error →
      ∃ outer pattern, prefixes[outer.length]? = some pattern ∧
        error = .missingLengthColumn (lengthColumnName pattern outer) ∧
        IsFirst (fun other => StoresEntry lengths prefixes other ∧ LacksNext lengths prefixes other)
          outer) ∧
    ∀ realization, realize prefixes lengths = .ok realization →
      realization.levels.length = prefixes.length ∧
      ∀ depth level, realization.levels.reverse[depth]? = some level →
        Ascending level ∧ level.Nodup ∧
        ∀ tuple, tuple ∈ level ↔
          tuple.length = depth + 1 ∧ StoresEntry lengths prefixes tuple := by
  have lacksIff : LacksBehind lengths prefixes =
      fun other => StoresEntry lengths prefixes other ∧ LacksNext lengths prefixes other :=
    funext fun other => propext (lacksBehind_iff short other)
  have realized := realize_levels prefixes lengths
  rw [lacksIff] at realized
  rcases realized with ⟨realization, isRealized, sameLength, areLevels, nothingLacks⟩ |
    ⟨outer, pattern, isNext, fails, isFirst⟩
  · rw [isRealized]
    refine ⟨⟨?_, fun lacks => absurd lacks nothingLacks⟩, ?_, ?_⟩
    · intro failure
      rcases failure with ⟨error, isError⟩
      cases isError
    · intro error isError
      cases isError
    · intro found isFound
      cases isFound
      refine ⟨sameLength, ?_⟩
      intro depth level isThere
      have isLevel := areLevels depth level isThere
      have inside : depth + 1 ≤ prefixes.length := by
        have isPlace := (List.getElem?_eq_some_iff.mp isThere).1
        rwa [List.length_reverse, sameLength] at isPlace
      refine ⟨isLevel.ascending, isLevel.ascending.nodup, ?_⟩
      intro tuple
      rw [isLevel.enumerates, realizes_take_iff short inside]
  · rw [fails]
    refine ⟨⟨fun _ => ⟨outer, isFirst.holds⟩, fun _ => ⟨_, rfl⟩⟩, ?_, ?_⟩
    · intro error isError
      cases isError
      exact ⟨outer, pattern, isNext, rfl, isFirst⟩
    · intro realization isRealized
      cases isRealized

/-- Three entries, of which the second one stores a length below zero. -/
def raggedLengths : Lengths := fun name =>
  if name = "a[length]" then some 3
  else if name = "a[0].b[length]" then some 2
  else if name = "a[1].b[length]" then some (-1)
  else if name = "a[2].b[length]" then some 1
  else none

theorem realize_exact_raggedLengths :
    raggedLengths.AreShort ∧
      ∃ realization,
        realize (FieldPath.repeatedPrefixes [⟨"a", .all⟩, ⟨"b", .all⟩]) raggedLengths =
          .ok realization ∧
        realization.levels = [[[0, 0], [0, 1], [2, 0]], [[0], [1], [2]]] ∧
        StoresEntry raggedLengths (FieldPath.repeatedPrefixes [⟨"a", .all⟩, ⟨"b", .all⟩]) [2, 0] ∧
        ¬ StoresEntry raggedLengths (FieldPath.repeatedPrefixes [⟨"a", .all⟩, ⟨"b", .all⟩]) [1, 0] ∧
        ¬ ∃ outer,
          StoresEntry raggedLengths (FieldPath.repeatedPrefixes [⟨"a", .all⟩, ⟨"b", .all⟩]) outer ∧
            LacksNext raggedLengths (FieldPath.repeatedPrefixes [⟨"a", .all⟩, ⟨"b", .all⟩])
              outer := by
  have short : raggedLengths.AreShort := by
    intro name length isStored
    have isOneOf : length = 3 ∨ length = 2 ∨ length = -1 ∨ length = 1 := by
      unfold raggedLengths at isStored
      grind
    rcases isOneOf with isLength | isLength | isLength | isLength <;>
      · rw [isLength]
        decide
  have isRealized :
      realize (FieldPath.repeatedPrefixes [⟨"a", .all⟩, ⟨"b", .all⟩]) raggedLengths =
        .ok ⟨[[[0, 0], [0, 1], [2, 0]], [[0], [1], [2]]]⟩ := by
    decide +kernel
  rcases realize_exact (FieldPath.repeatedPrefixes [⟨"a", .all⟩, ⟨"b", .all⟩]) short with
    ⟨failsIff, _, levels⟩
  have isLeaf := ((levels _ isRealized).2 1 [[0, 0], [0, 1], [2, 0]] rfl).2.2
  refine ⟨short, _, isRealized, rfl, ((isLeaf [2, 0]).mp (by decide)).2, ?_, ?_⟩
  · intro stores
    have isThere := (isLeaf [1, 0]).mpr ⟨rfl, stores⟩
    simp at isThere
  · intro lacks
    rcases failsIff.mpr lacks with ⟨error, fails⟩
    rw [isRealized] at fails
    cases fails

/-- Without the length behind the second entry, it is reported before that behind the third one. -/
example :
    realize (FieldPath.repeatedPrefixes [⟨"a", .all⟩, ⟨"b", .all⟩])
        (fun name => if name = "a[length]" then some 3 else
          if name = "a[0].b[length]" then some 2 else none) =
      .error (.missingLengthColumn "a[1].b[length]") := by
  decide +kernel

end Unnest
