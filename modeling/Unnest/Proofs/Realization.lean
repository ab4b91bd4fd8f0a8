import Unnest.Realization

/-!
# The entries of a row

`Realizes` says which entries a row has, one repeated prefix after the other: behind an entry
stand as many as the length stored for it says.  Realizing a row enumerates exactly these entries,
and it fails exactly if one of them lacks the length that is needed next.
-/

namespace Unnest

/-- The row has this entry behind the prefixes passed so far, the outermost first. -/
inductive Realizes (lengths : Lengths) : List FieldPath → IndexTuple → Prop where
  | root : Realizes lengths [] []
  | entry {passed : List FieldPath} {pattern : FieldPath} {outer : IndexTuple} {length : Int64}
      {position : Nat} (isOuter : Realizes lengths passed outer)
      (isStored : lengths (lengthColumnName pattern outer) = some length)
      (below : position < entryCount length) :
      Realizes lengths (passed ++ [pattern]) (outer ++ [position])

/-- Behind an entry that the row has, this length is needed next and is not stored. -/
def LacksLength (lengths : Lengths) (prefixes : List FieldPath) (name : String) : Prop :=
  ∃ passed pattern deeper outer, prefixes = passed ++ pattern :: deeper ∧
    Realizes lengths passed outer ∧ name = lengthColumnName pattern outer ∧ lengths name = none

namespace Realizes

variable {lengths : Lengths}

theorem entryCount_lt (length : Int64) : entryCount length < UInt32.size :=
  Nat.mod_lt _ (by decide)

theorem length_eq {passed : List FieldPath} {tuple : IndexTuple}
    (realized : Realizes lengths passed tuple) : tuple.length = passed.length := by
  induction realized with
  | root => rfl
  | entry _ _ _ inductionHypothesis => simp [inductionHypothesis]

/-- Positions are below a count of thirty-two bits, so the greatest one is never among them. -/
theorem succ_position_lt {passed : List FieldPath} {tuple : IndexTuple}
    (realized : Realizes lengths passed tuple) :
    ∀ position ∈ tuple, position + 1 < UInt32.size := by
  induction realized with
  | root => simp
  | @entry _ _ _ length _ _ _ below inductionHypothesis =>
      intro found member
      rcases List.mem_append.mp member with isOuter | isLast
      · exact inductionHypothesis found isOuter
      · rw [List.mem_singleton.mp isLast]
        exact Nat.lt_of_le_of_lt below (entryCount_lt length)

theorem position_lt {passed : List FieldPath} {tuple : IndexTuple}
    (realized : Realizes lengths passed tuple) : ∀ position ∈ tuple, position < UInt32.size :=
  fun position member => Nat.lt_of_succ_lt (realized.succ_position_lt position member)

theorem nil_iff {tuple : IndexTuple} : Realizes lengths [] tuple ↔ tuple = [] := by
  constructor
  · intro realized
    exact List.length_eq_zero_iff.mp realized.length_eq
  · rintro rfl
    exact Realizes.root

theorem concat_iff {passed : List FieldPath} {pattern : FieldPath} {tuple : IndexTuple} :
    Realizes lengths (passed ++ [pattern]) tuple ↔
      ∃ outer length position, Realizes lengths passed outer ∧
        lengths (lengthColumnName pattern outer) = some length ∧
        position < entryCount length ∧ tuple = outer ++ [position] := by
  constructor
  · intro realized
    generalize isWhole : passed ++ [pattern] = whole at realized
    cases realized with
    | root => simp at isWhole
    | @entry passed' pattern' outer length position isOuter isStored below =>
        obtain ⟨rfl, samePattern⟩ := List.append_inj' isWhole rfl
        cases samePattern
        exact ⟨outer, length, position, isOuter, isStored, below, rfl⟩
  · rintro ⟨outer, length, position, isOuter, isStored, below, rfl⟩
    exact Realizes.entry isOuter isStored below

end Realizes

/-! ## Levels -/

section Levels

variable (lengths : Lengths)

/-- The list holds the entries that the row has behind the prefixes passed so far. -/
def Enumerates (passed : List FieldPath) (tuples : List IndexTuple) : Prop :=
  ∀ tuple, tuple ∈ tuples ↔ Realizes lengths passed tuple

/-- One level holds the entries behind the entries of the level before, or a length is missing. -/
theorem realizeLevel_outcome (pattern : FieldPath) (outers : List IndexTuple) :
    (∃ level, realizeLevel lengths pattern outers = .ok level ∧
      (∀ outer ∈ outers, lengths (lengthColumnName pattern outer) ≠ none) ∧
      ∀ tuple, tuple ∈ level ↔ ∃ outer length position, outer ∈ outers ∧
        lengths (lengthColumnName pattern outer) = some length ∧
        position < entryCount length ∧ tuple = outer ++ [position]) ∨
    ∃ outer ∈ outers, lengths (lengthColumnName pattern outer) = none ∧
      realizeLevel lengths pattern outers =
        .error (.missingLengthColumn (lengthColumnName pattern outer)) := by
  induction outers with
  | nil => exact Or.inl ⟨[], rfl, by simp, by simp⟩
  | cons outer rest inductionHypothesis =>
      cases stored : lengths (lengthColumnName pattern outer) with
      | none =>
          refine Or.inr ⟨outer, List.mem_cons_self, stored, ?_⟩
          simp [realizeLevel, realizeInside, stored]
      | some length =>
          rcases inductionHypothesis with ⟨level, isLevel, allStored, members⟩ |
            ⟨found, isFound, isMissing, fails⟩
          · refine Or.inl ⟨(List.range (entryCount length)).map (outer ++ [·]) ++ level, ?_, ?_, ?_⟩
            · simp [realizeLevel, realizeInside, stored, isLevel]
            · intro other member
              rcases List.mem_cons.mp member with rfl | inRest
              · simp [stored]
              · exact allStored other inRest
            · intro tuple
              rw [List.mem_append, members]
              constructor
              · rintro (inFirst | ⟨other, otherLength, position, inRest, others⟩)
                · obtain ⟨position, inRange, rfl⟩ := List.mem_map.mp inFirst
                  exact ⟨outer, length, position, List.mem_cons_self, stored,
                    List.mem_range.mp inRange, rfl⟩
                · exact ⟨other, otherLength, position, List.mem_cons_of_mem _ inRest, others⟩
              · rintro ⟨other, otherLength, position, member, isStored, below, rfl⟩
                rcases List.mem_cons.mp member with rfl | inRest
                · rw [stored] at isStored
                  cases isStored
                  exact Or.inl (List.mem_map.mpr ⟨position, List.mem_range.mpr below, rfl⟩)
                · exact Or.inr ⟨other, otherLength, position, inRest, isStored, below, rfl⟩
          · refine Or.inr ⟨found, List.mem_cons_of_mem _ isFound, isMissing, ?_⟩
            simp [realizeLevel, realizeInside, stored, fails]

variable {lengths}

/-- The levels below enumerated entries: the last one is enumerated again, or a length is
missing. -/
theorem realizeBelow_outcome (deeper : List FieldPath) {passed : List FieldPath}
    {outers : List IndexTuple} (enumerated : Enumerates lengths passed outers) :
    (∃ levels, realizeBelow lengths outers deeper = .ok levels ∧
      (∀ between pattern later outer, deeper = between ++ pattern :: later →
        Realizes lengths (passed ++ between) outer →
        lengths (lengthColumnName pattern outer) ≠ none) ∧
      Enumerates lengths (passed ++ deeper) (levels.getLast?.getD outers)) ∨
    ∃ between pattern later outer, deeper = between ++ pattern :: later ∧
      Realizes lengths (passed ++ between) outer ∧
      lengths (lengthColumnName pattern outer) = none ∧
      realizeBelow lengths outers deeper =
        .error (.missingLengthColumn (lengthColumnName pattern outer)) := by
  induction deeper generalizing passed outers with
  | nil => exact Or.inl ⟨[], rfl, by simp, by simpa using enumerated⟩
  | cons first rest inductionHypothesis =>
      rcases realizeLevel_outcome lengths first outers with ⟨level, isLevel, allStored, members⟩ |
        ⟨outer, isOuter, isMissing, fails⟩
      · have levelEnumerated : Enumerates lengths (passed ++ [first]) level := by
          intro tuple
          rw [members, Realizes.concat_iff]
          simp only [enumerated _]
        rcases inductionHypothesis levelEnumerated with
          ⟨levels, isLevels, restStored, lastEnumerated⟩ |
          ⟨between, pattern, later, outer, shape, realized, isMissing, fails⟩
        · refine Or.inl ⟨level :: levels, by simp [realizeBelow, isLevel, isLevels], ?_, ?_⟩
          · intro between pattern later outer shape realized
            cases between with
            | nil =>
                obtain ⟨rfl, rfl⟩ := List.cons.inj shape
                rw [List.append_nil] at realized
                exact allStored outer ((enumerated outer).mpr realized)
            | cons head others =>
                obtain ⟨rfl, restShape⟩ := List.cons.inj shape
                exact restStored others pattern later outer restShape (by simpa using realized)
          · rw [List.append_assoc, List.singleton_append] at lastEnumerated
            rw [List.getLast?_cons]
            exact lastEnumerated
        · refine Or.inr
            ⟨first :: between, pattern, later, outer, by simp [shape], ?_, isMissing, ?_⟩
          · simpa using realized
          · simp [realizeBelow, isLevel, fails]
      · refine Or.inr ⟨[], first, rest, outer, rfl, ?_, isMissing, ?_⟩
        · rw [List.append_nil]
          exact (enumerated outer).mp isOuter
        · simp [realizeBelow, fails]

end Levels

/-! ## Rows -/

/-- A row is realized into exactly the entries that it has, or it lacks a length. -/
theorem realize_outcome {prefixes : List FieldPath} (notEmpty : prefixes ≠ [])
    (lengths : Lengths) :
    (∃ realization, realize prefixes lengths = .ok realization ∧
      (¬ ∃ name, LacksLength lengths prefixes name) ∧
      ∀ tuple, tuple ∈ realization.leaf ↔ Realizes lengths prefixes tuple) ∨
    ∃ name, LacksLength lengths prefixes name ∧
      realize prefixes lengths = .error (.missingLengthColumn name) := by
  have rootEnumerated : Enumerates lengths [] [[]] := by
    intro tuple
    rw [List.mem_singleton, Realizes.nil_iff]
  rcases realizeBelow_outcome prefixes rootEnumerated with
    ⟨levels, isLevels, allStored, lastEnumerated⟩ |
    ⟨between, pattern, later, outer, shape, realized, isMissing, fails⟩
  · refine Or.inl ⟨⟨levels.reverse⟩, by simp [realize, isLevels], ?_, ?_⟩
    · rintro ⟨name, passed, pattern, deeper, outer, shape, realized, rfl, isMissing⟩
      exact allStored passed pattern deeper outer shape realized isMissing
    · have hasLevel : levels ≠ [] := by
        rintro rfl
        obtain ⟨first, rest, rfl⟩ := List.exists_cons_of_ne_nil notEmpty
        rw [realizeBelow] at isLevels
        split at isLevels
        · cases isLevels
        · split at isLevels <;> cases isLevels
      have isLeaf : Realization.leaf ⟨levels.reverse⟩ = levels.getLast?.getD [[]] := by
        rw [Realization.leaf, List.headD_eq_head?_getD, List.head?_reverse,
          List.getLast?_eq_some_getLast hasLevel]
        rfl
      intro tuple
      rw [isLeaf]
      exact lastEnumerated tuple
  · refine Or.inr ⟨lengthColumnName pattern outer, ?_, by simp [realize, fails]⟩
    exact ⟨between, pattern, later, outer, shape, realized, rfl, isMissing⟩

end Unnest
