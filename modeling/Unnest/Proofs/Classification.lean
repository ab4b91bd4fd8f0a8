import Unnest.Proofs.FieldPathMatching
import Unnest.Proofs.OrderedMap

/-!
# What becomes of each column

The columns of a shard are named by paths, which are concrete where the shard was loaded and may be
spelled in several ways elsewhere.  By its path a column is kept, or it is inside
the entries that are flattened and has a rest, or it is the length of a flattened array and is
dropped.  Classifying the columns collects the kept names, and for every rest the type of its
columns; it fails exactly if two columns with one rest have different types, or if a flattened
column would get the name of a kept one.
-/

namespace Unnest

/-- The name is the text of a path, in any of its spellings. -/
def IsPathText (name : String) : Prop :=
  ∃ path, FieldPath.read name = .ok path

theorem IsColumnName.isPathText {name : String} (isName : IsColumnName name) :
    IsPathText name := by
  rcases isName with ⟨path, valid, _, isText⟩
  exact ⟨path, isText ▸ FieldPath.read_toText valid⟩

namespace FieldPath

/-- The rest of the path of a column inside the entries of a target. -/
def restOf? (target : FieldPath) (name : String) : Option FieldPath :=
  match read name with
  | .ok path => (path.matchPrefix target).map (·.2)
  | .error _ => none

/-- The column is neither inside the entries of a target nor the length of one of its arrays. -/
def keeps (target : FieldPath) (name : String) : Bool :=
  match read name with
  | .ok path =>
      (path.matchPrefix target).isNone && !target.repeatedPrefixes.any (isLengthColumnOf path)
  | .error _ => false

/-- What is left of a path that is read fits behind another one. -/
theorem isRest_of_restOf? {target rest : FieldPath} {name : String}
    (isInside : restOf? target name = some rest) : rest.IsRest := by
  rw [restOf?] at isInside
  split at isInside
  · rename_i path isRead
    rcases Option.map_eq_some_iff.mp isInside with ⟨⟨tuple, found⟩, isMatch, same⟩
    cases same
    rcases exists_append_of_matchPrefix isMatch with ⟨front, shape⟩
    have valid := isValid_of_read isRead
    rw [shape] at valid
    exact valid.isRest_of_append
  · cases isInside

/-- A column inside the entries is named by the target with positions, followed by its rest. -/
theorem exists_tuple_of_restOf? {target rest : FieldPath} (isTarget : target.IsTarget)
    {name : String} (isName : IsColumnName name) (isInside : restOf? target name = some rest) :
    rest.IsRest ∧ ∃ tuple : IndexTuple, tuple.length = target.markerCount ∧
      (∀ position ∈ tuple, position < positionBound) ∧
      (target.withIndices tuple ++ rest).toText = name := by
  obtain ⟨path, valid, isConcrete, rfl⟩ := isName
  simp only [restOf?, read_toText valid] at isInside
  obtain ⟨⟨tuple, found⟩, isMatch, same⟩ := Option.map_eq_some_iff.mp isInside
  cases same
  obtain ⟨rfl, full⟩ := eq_of_matchPrefix isConcrete isTarget.isPattern isMatch
  exact ⟨valid.isRest_of_append, tuple, full,
    lt_of_isValid_withIndices_append isTarget.isPattern full valid, rfl⟩

/-- The path of a target with positions, followed by a rest, has this rest. -/
theorem restOf?_withIndices {target rest : FieldPath} (isTarget : target.IsTarget)
    {tuple : IndexTuple} (full : tuple.length = target.markerCount)
    (bounded : ∀ position ∈ tuple, position < positionBound) (isRest : rest.IsRest) :
    restOf? target (target.withIndices tuple ++ rest).toText = some rest := by
  simp [restOf?, read_toText (isValid_withIndices_append isTarget.valid isTarget.isPattern bounded
    isRest), matchPrefix_withIndices isTarget.isPattern full rest]

end FieldPath

/-! ## Conflicts -/

namespace Shard

/-- Two columns with the same rest have different types. -/
def HasTypeConflict (shard : Shard) (target : FieldPath) (output : String)
    (expected got : ScalarType) : Prop :=
  ∃ first ∈ shard.columns, ∃ second ∈ shard.columns, ∃ rest,
    target.restOf? first.1 = some rest ∧ target.restOf? second.1 = some rest ∧
    output = ColumnClasses.outputName target rest ∧
    first.2.kind = expected ∧ second.2.kind = got ∧ expected ≠ got

/-- A flattened column would get the name of a kept one. -/
def HasNameCollision (shard : Shard) (target : FieldPath) (name : String) : Prop :=
  (∃ kept ∈ shard.columns, kept.1 = name ∧ target.keeps name = true) ∧
  ∃ inside ∈ shard.columns, ∃ rest, target.restOf? inside.1 = some rest ∧
    ColumnClasses.outputName target rest = name

end Shard

namespace ColumnClasses

open FieldPath

/-- The classes hold the kept names in order, and the rests of the columns with their types. -/
structure Classifies (classes : ColumnClasses) (target : FieldPath)
    (columns : List (String × Column)) : Prop where
  kept : classes.reversedKept.reverse =
    (columns.filter fun entry => target.keeps entry.1).map (·.1)
  ordered : OrderedMap.IsOrdered classes.flattened
  sound : ∀ output rest kind,
    OrderedMap.find? output classes.flattened = some (rest, kind) →
    output = outputName target rest ∧
      ∃ entry ∈ columns, target.restOf? entry.1 = some rest ∧ entry.2.kind = kind
  complete : ∀ entry ∈ columns, ∀ rest, target.restOf? entry.1 = some rest →
    OrderedMap.find? (outputName target rest) classes.flattened = some (rest, entry.2.kind)

theorem classifies_nil (target : FieldPath) :
    Classifies ⟨[], []⟩ target [] :=
  ⟨rfl, List.Pairwise.nil, by simp, by simp⟩

/-- The plans for the columns, the kept ones first. -/
def plansFor (classes : ColumnClasses) (target : FieldPath) (columns : List (String × Column))
    (leaves : List IndexTuple) : List ColumnPlan :=
  ((columns.filter fun entry => target.keeps entry.1).map (·.1)).map ColumnPlan.keep ++
    classes.flattened.map fun (output, rest, kind) => flattenPlan target leaves output rest kind

/-! ## Adding columns -/

/-- A column is dropped, kept or flattened by its path. -/
theorem add_eq {target : FieldPath} (classes : ColumnClasses) {name : String}
    (isName : IsPathText name) (kind : ScalarType) :
    classes.add target.repeatedPrefixes target name kind =
      match target.restOf? name with
      | none =>
          if target.keeps name then
            .ok { classes with reversedKept := name :: classes.reversedKept }
          else .ok classes
      | some rest =>
          match OrderedMap.find? (outputName target rest) classes.flattened with
          | none =>
              .ok { classes with flattened :=
                OrderedMap.insert (outputName target rest) (rest, kind) classes.flattened }
          | some (_, expected) =>
              if expected = kind then .ok classes
              else .error (.flattenedTypeConflict (outputName target rest) expected kind) := by
  obtain ⟨path, isRead⟩ := isName
  simp only [add, parse, restOf?, keeps, isRead]
  by_cases isLength : target.repeatedPrefixes.any path.isLengthColumnOf = true
  · obtain ⟨pattern, isPrefix, isLengthOf⟩ := List.any_eq_true.mp isLength
    simp [isLength, matchPrefix_eq_none_of_isLengthColumnOf isLengthOf isPrefix]
  · cases path.matchPrefix target with
    | none => simp [isLength]
    | some found =>
        obtain ⟨positions, rest⟩ := found
        rw [if_neg isLength]
        rfl

namespace Classifies

variable {target : FieldPath} {classes : ColumnClasses} {seen : List (String × Column)}
  {column : String × Column}

theorem sound_append (classifies : classes.Classifies target seen) {output : String}
    {rest : FieldPath} {kind : ScalarType}
    (isFound : OrderedMap.find? output classes.flattened = some (rest, kind)) :
    output = outputName target rest ∧ ∃ entry ∈ seen ++ [column],
      target.restOf? entry.1 = some rest ∧ entry.2.kind = kind := by
  obtain ⟨sameOutput, entry, isEntry, found⟩ := classifies.sound output rest kind isFound
  exact ⟨sameOutput, entry, List.mem_append_left _ isEntry, found⟩

/-- A column outside the entries is kept or dropped. -/
theorem append_outside (classifies : classes.Classifies target seen)
    (isOutside : target.restOf? column.1 = none) {kept : List String}
    (isKept : kept.reverse = classes.reversedKept.reverse ++
      if target.keeps column.1 then [column.1] else []) :
    Classifies ⟨classes.flattened, kept⟩ target (seen ++ [column]) := by
  refine ⟨?_, classifies.ordered, fun _ _ _ isFound => classifies.sound_append isFound, ?_⟩
  · rw [isKept, classifies.kept, List.filter_append, List.map_append]
    by_cases keeps : target.keeps column.1 = true
    · simp [keeps]
    · simp [keeps]
  · intro entry member rest isRest
    rcases List.mem_append.mp member with isSeen | isNew
    · exact classifies.complete entry isSeen rest isRest
    · rw [List.mem_singleton.mp isNew, isOutside] at isRest
      cases isRest

theorem kept_append (classifies : classes.Classifies target seen)
    (isNotKept : target.keeps column.1 = false) :
    classes.reversedKept.reverse =
      ((seen ++ [column]).filter fun entry => target.keeps entry.1).map (·.1) := by
  simp [classifies.kept, isNotKept]

/-- The first column with a rest settles the type of this rest. -/
theorem append_first (classifies : classes.Classifies target seen) {rest : FieldPath}
    (isInside : target.restOf? column.1 = some rest) (isNotKept : target.keeps column.1 = false)
    (isFirst : OrderedMap.find? (outputName target rest) classes.flattened = none) :
    Classifies ⟨OrderedMap.insert (outputName target rest) (rest, column.2.kind) classes.flattened,
      classes.reversedKept⟩ target (seen ++ [column]) := by
  refine ⟨classifies.kept_append isNotKept, OrderedMap.isOrdered_insert _ _ classifies.ordered,
    ?_, ?_⟩
  · intro output other kind isThere
    rw [OrderedMap.find?_insert] at isThere
    by_cases sameOutput : compare output (outputName target rest) = .eq
    · rw [if_pos sameOutput] at isThere
      cases isThere
      exact ⟨Std.LawfulEqCmp.eq_of_compare sameOutput, column, by simp, isInside, rfl⟩
    · rw [if_neg sameOutput] at isThere
      exact classifies.sound_append isThere
  · intro entry member other isOther
    rw [OrderedMap.find?_insert]
    rcases List.mem_append.mp member with isSeen | isNew
    · have isThere := classifies.complete entry isSeen other isOther
      have different : compare (outputName target other) (outputName target rest) ≠ .eq := by
        intro sameOutput
        rw [Std.LawfulEqCmp.eq_of_compare sameOutput, isFirst] at isThere
        cases isThere
      rw [if_neg different]
      exact isThere
    · rw [List.mem_singleton.mp isNew, isInside] at isOther
      cases isOther
      rw [List.mem_singleton.mp isNew]
      simp

/-- Another column with a rest and its type changes nothing. -/
theorem append_again (classifies : classes.Classifies target seen) {rest : FieldPath}
    (isInside : target.restOf? column.1 = some rest) (isNotKept : target.keeps column.1 = false)
    (isThere : OrderedMap.find? (outputName target rest) classes.flattened =
      some (rest, column.2.kind)) :
    classes.Classifies target (seen ++ [column]) := by
  refine ⟨classifies.kept_append isNotKept, classifies.ordered,
    fun _ _ _ isFound => classifies.sound_append isFound, ?_⟩
  intro entry member other isOther
  rcases List.mem_append.mp member with isSeen | isNew
  · exact classifies.complete entry isSeen other isOther
  · rw [List.mem_singleton.mp isNew, isInside] at isOther
    cases isOther
    rw [List.mem_singleton.mp isNew, isThere]

end Classifies

theorem keeps_eq_false_of_restOf? {target rest : FieldPath} {name : String}
    (isInside : target.restOf? name = some rest) : target.keeps name = false := by
  unfold restOf? at isInside
  unfold keeps
  cases isRead : FieldPath.read name with
  | error fault => rfl
  | ok path =>
      simp only [isRead, Option.map_eq_some_iff] at isInside
      obtain ⟨found, isMatch, _⟩ := isInside
      simp [isMatch]

/-- Adding one column keeps the classes right, or it has another type than one with the same
rest. -/
theorem add_outcome {target : FieldPath} (isTarget : target.IsTarget) {classes : ColumnClasses}
    {seen : List (String × Column)} (classifies : classes.Classifies target seen)
    (column : String × Column) (isName : IsPathText column.1) :
    (∃ extended, classes.add target.repeatedPrefixes target column.1 column.2.kind = .ok extended ∧
      extended.Classifies target (seen ++ [column])) ∨
    ∃ first ∈ seen, ∃ rest, target.restOf? first.1 = some rest ∧
      target.restOf? column.1 = some rest ∧ first.2.kind ≠ column.2.kind ∧
      classes.add target.repeatedPrefixes target column.1 column.2.kind =
        .error (.flattenedTypeConflict (outputName target rest) first.2.kind column.2.kind) := by
  rw [add_eq classes isName]
  cases isInside : target.restOf? column.1 with
  | none =>
      left
      by_cases isKept : target.keeps column.1 = true
      · exact ⟨_, if_pos isKept, classifies.append_outside isInside (by simp [isKept])⟩
      · exact ⟨_, if_neg isKept, classifies.append_outside isInside (by simp [isKept])⟩
  | some rest =>
      have isNotKept := keeps_eq_false_of_restOf? isInside
      dsimp only
      cases isFound : OrderedMap.find? (outputName target rest) classes.flattened with
      | none => exact Or.inl ⟨_, rfl, classifies.append_first isInside isNotKept isFound⟩
      | some found =>
          obtain ⟨foundRest, expected⟩ := found
          obtain ⟨sameOutput, first, isFirst, isFirstInside, rfl⟩ :=
            classifies.sound _ _ _ isFound
          have sameRest : rest = foundRest :=
            outputName_injective isTarget.valid (isRest_of_restOf? isInside)
              (isRest_of_restOf? isFirstInside) sameOutput
          subst sameRest
          by_cases sameKind : first.2.kind = column.2.kind
          · left
            rw [sameKind] at isFound
            exact ⟨classes, if_pos sameKind, classifies.append_again isInside isNotKept isFound⟩
          · exact Or.inr ⟨first, isFirst, rest, isFirstInside, rfl, sameKind, if_neg sameKind⟩

/-- Columns are classified one after the other, up to two with the same rest and different types. -/
theorem addAll_outcome {target : FieldPath} (isTarget : target.IsTarget) {classes : ColumnClasses}
    {seen : List (String × Column)} (remaining : List (String × Column))
    (classifies : classes.Classifies target seen)
    (names : ∀ entry ∈ remaining, IsPathText entry.1) :
    (∃ extended, addAll target.repeatedPrefixes target classes remaining = .ok extended ∧
      extended.Classifies target (seen ++ remaining)) ∨
    ∃ first ∈ seen ++ remaining, ∃ second ∈ seen ++ remaining, ∃ rest,
      target.restOf? first.1 = some rest ∧ target.restOf? second.1 = some rest ∧
      first.2.kind ≠ second.2.kind ∧
      addAll target.repeatedPrefixes target classes remaining =
        .error (.flattenedTypeConflict (outputName target rest) first.2.kind second.2.kind) := by
  induction remaining generalizing classes seen with
  | nil => exact Or.inl ⟨classes, rfl, by simpa using classifies⟩
  | cons column rest inductionHypothesis =>
      rcases List.forall_mem_cons.mp names with ⟨isName, restNames⟩
      rcases add_outcome isTarget classifies column isName with
        ⟨extended, isExtended, extendedClassifies⟩ |
        ⟨first, isFirst, found, firstInside, secondInside, different, fails⟩
      · rcases inductionHypothesis extendedClassifies restNames with
          ⟨final, isFinal, finalClassifies⟩ | ⟨first, isFirst, second, isSecond, found, others⟩
        · exact Or.inl ⟨final, by simp [addAll, isExtended, isFinal],
            by simpa using finalClassifies⟩
        · refine Or.inr ⟨first, by simpa using isFirst, second, by simpa using isSecond, found,
            others.1, others.2.1, others.2.2.1, ?_⟩
          simp [addAll, isExtended, others.2.2.2]
      · exact Or.inr ⟨first, List.mem_append_left _ isFirst, column, by simp, found, firstInside,
          secondInside, different, by simp [addAll, fails]⟩

namespace Classifies

variable {shard : Shard} {target : FieldPath} {classes : ColumnClasses}

theorem not_hasTypeConflict (classifies : classes.Classifies target shard.columns) :
    ¬ ∃ output expected got, shard.HasTypeConflict target output expected got := by
  rintro ⟨_, _, _, first, isFirst, second, isSecond, rest, firstInside, secondInside, rfl, rfl, rfl,
    different⟩
  have firstFound := classifies.complete first isFirst rest firstInside
  rw [classifies.complete second isSecond rest secondInside] at firstFound
  exact different (congrArg Prod.snd (Option.some.inj firstFound)).symm

/-- The flattened names are those of the columns inside the entries. -/
theorem contains_iff (classifies : classes.Classifies target shard.columns) (name : String) :
    OrderedMap.contains name classes.flattened = true ↔
      ∃ inside ∈ shard.columns, ∃ rest, target.restOf? inside.1 = some rest ∧
        outputName target rest = name := by
  rw [OrderedMap.contains, Option.isSome_iff_exists]
  constructor
  · rintro ⟨⟨rest, kind⟩, isThere⟩
    obtain ⟨sameOutput, inside, isInside, isRest, _⟩ := classifies.sound _ _ _ isThere
    exact ⟨inside, isInside, rest, isRest, sameOutput.symm⟩
  · rintro ⟨inside, isInside, rest, isRest, rfl⟩
    exact ⟨_, classifies.complete inside isInside rest isRest⟩

end Classifies

/-! ## Plans -/

/-- The plans are those of the kept columns, and one for every rest. -/
theorem Classifies.mem_plansFor_iff {target : FieldPath} {classes : ColumnClasses}
    {columns : List (String × Column)} (classifies : classes.Classifies target columns)
    (leaves : List IndexTuple) (plan : ColumnPlan) :
    plan ∈ classes.plansFor target columns leaves ↔
      (∃ column ∈ columns, target.keeps column.1 = true ∧ .keep column.1 = plan) ∨
      ∃ column ∈ columns, ∃ rest, target.restOf? column.1 = some rest ∧
        flattenPlan target leaves (outputName target rest) rest column.2.kind = plan := by
  rw [plansFor, List.mem_append]
  apply or_congr
  · simp only [List.map_map, List.mem_map, List.mem_filter, Function.comp_apply, and_assoc]
  · rw [List.mem_map]
    constructor
    · intro found
      rcases found with ⟨⟨output, rest, kind⟩, isThere, isPlan⟩
      rcases classifies.sound output rest kind
        ((OrderedMap.find?_eq_some_iff_mem classifies.ordered _ _).mpr isThere) with
        ⟨sameOutput, column, isColumn, isRest, sameKind⟩
      exact ⟨column, isColumn, rest, isRest, by rw [← sameOutput, sameKind]; exact isPlan⟩
    · intro found
      rcases found with ⟨column, isColumn, rest, isRest, isPlan⟩
      exact ⟨_, OrderedMap.mem_of_find? (classifies.complete column isColumn rest isRest), isPlan⟩

/-- Kept columns are planned, unless one has the name of a flattened column. -/
theorem keepAll_outcome (leaf : FieldPath)
    (flattened : OrderedMap String (FieldPath × ScalarType)) (names : List String) :
    (keepAll leaf flattened names = .ok (names.map ColumnPlan.keep) ∧
      ∀ name ∈ names, OrderedMap.contains name flattened = false) ∨
    ∃ name ∈ names, OrderedMap.contains name flattened = true ∧
      keepAll leaf flattened names = .error (.invalidFlattenBy leaf.toText
        ("flattened column '" ++ name ++ "' collides with an existing column")) := by
  induction names with
  | nil => exact Or.inl ⟨rfl, by simp⟩
  | cons name rest inductionHypothesis =>
      by_cases collides : OrderedMap.contains name flattened = true
      · exact Or.inr ⟨name, List.mem_cons_self, collides, by simp [keepAll, collides]⟩
      · rcases inductionHypothesis with ⟨isKept, noneCollides⟩ | ⟨other, isOther, found, fails⟩
        · refine Or.inl ⟨by simp [keepAll, collides, isKept], ?_⟩
          intro other member
          rcases List.mem_cons.mp member with rfl | inRest
          · simpa using collides
          · exact noneCollides other inRest
        · exact Or.inr ⟨other, List.mem_cons_of_mem _ isOther, found,
            by simp [keepAll, collides, fails]⟩

end ColumnClasses

open ColumnClasses in
/-- The columns of a shard are classified and planned, unless types or names collide. -/
theorem classifyColumns_outcome {shard : Shard} {target : FieldPath} (isTarget : target.IsTarget)
    (names : ∀ entry ∈ shard.columns, IsPathText entry.1) (leaves : List IndexTuple) :
    (∃ classes : ColumnClasses, classes.Classifies target shard.columns ∧
      (¬ ∃ output expected got, shard.HasTypeConflict target output expected got) ∧
      (¬ ∃ name, shard.HasNameCollision target name) ∧
      classifyColumns shard target.repeatedPrefixes leaves =
        .ok (classes.plansFor target shard.columns leaves)) ∨
    (∃ output expected got, shard.HasTypeConflict target output expected got ∧
      classifyColumns shard target.repeatedPrefixes leaves =
        .error (.flattenedTypeConflict output expected got)) ∨
    (¬ ∃ output expected got, shard.HasTypeConflict target output expected got) ∧
      ∃ name, shard.HasNameCollision target name ∧
        classifyColumns shard target.repeatedPrefixes leaves =
          .error (.invalidFlattenBy target.toText
            ("flattened column '" ++ name ++ "' collides with an existing column")) := by
  unfold classifyColumns
  simp only [FieldPath.getLast?_repeatedPrefixes isTarget.ends]
  rcases addAll_outcome isTarget shard.columns (classifies_nil target) names with
    ⟨classes, isClasses, classifies⟩ |
    ⟨first, isFirst, second, isSecond, rest, firstInside, secondInside, different, fails⟩
  · rw [List.nil_append] at classifies
    have noConflict := classifies.not_hasTypeConflict
    rw [isClasses]
    simp only [classifies.kept]
    rcases keepAll_outcome target classes.flattened
        ((shard.columns.filter fun entry => target.keeps entry.1).map (·.1)) with
      ⟨isKept, noneCollides⟩ | ⟨name, isName, collides, fails⟩
    · refine Or.inl ⟨classes, classifies, noConflict, ?_, by rw [isKept, plansFor]⟩
      rintro ⟨name, ⟨kept, isKeptColumn, rfl, keeps⟩, collides⟩
      have isAbsent := noneCollides kept.1
        (List.mem_map_of_mem (List.mem_filter.mpr ⟨isKeptColumn, keeps⟩))
      rw [(classifies.contains_iff kept.1).mpr collides] at isAbsent
      cases isAbsent
    · refine Or.inr (Or.inr ⟨noConflict, name, ?_, by rw [fails]⟩)
      obtain ⟨kept, isKept, rfl⟩ := List.mem_map.mp isName
      obtain ⟨isColumn, keeps⟩ := List.mem_filter.mp isKept
      exact ⟨⟨kept, isColumn, rfl, keeps⟩, (classifies.contains_iff kept.1).mp collides⟩
  · rw [List.nil_append] at isFirst isSecond
    refine Or.inr (Or.inl ⟨_, _, _, ⟨first, isFirst, second, isSecond, rest, firstInside,
      secondInside, rfl, rfl, rfl, different⟩, by rw [fails]⟩)

end Unnest
