import Unnest.Proofs.LoadedEntries

/-!
# Documents that cannot be flattened together

Loaded documents are flattened as one shard, unless they are refused for what they are: an entry of
one of them needs a length that no document has, cells at one rest of their paths need different
types, or cells get the name of another one (`Document.AreRefused`).  Otherwise they turn into as
many rows as they stand for, each document by itself.
-/

namespace Unnest

/-! ## Outcomes -/

namespace SucceedsIff

variable {α : Type} {Holds : Prop} {Meets : α → Prop} {outcome : Outcome α}
  (succeedsIff : SucceedsIff Holds Meets outcome)

include succeedsIff

theorem exists_ok_iff : (∃ result, outcome = .ok result) ↔ Holds := by
  cases succeedsIff with
  | success holds meets => exact ⟨fun _ => holds, fun _ => ⟨_, rfl⟩⟩
  | failure error fails =>
      refine ⟨?_, fun holds => absurd holds fails⟩
      rintro ⟨_, isOk⟩
      cases isOk

theorem meets {result : α} (isOk : outcome = .ok result) : Meets result := by
  cases succeedsIff with
  | success holds meets =>
      cases isOk
      exact meets
  | failure error fails => cases isOk

end SucceedsIff

/-! ## Rows of flattened shards -/

theorem Shard.IsFlattening.rowCount_eq {settings : FlattenSettings} {shard flattened : Shard}
    {target : FieldPath} {output : String}
    (isFlattening : shard.IsFlattening settings target output flattened)
    (hasColumn : flattened.columns ≠ []) :
    flattened.rowCount = total (shard.factorAt target.repeatedPrefixes) shard.rowIds := by
  have sameLength := congrArg List.length (isFlattening.rows hasColumn)
  rwa [List.length_map, Shard.length_outputEntries, Shard.rows, Shard.rowIds, List.length_map,
    List.length_map, List.length_range] at sameLength

namespace Document

/-! ## What documents of one shard are refused for -/

/-- Some document has the outermost array, and an entry of some document needs the length `name`
next, which no document has. -/
def LacksLengthNamed (documents : List Json) (target : FieldPath) (name : String) : Prop :=
  (∃ root, target.repeatedPrefixes.head? = some root ∧
    HasCellNamed documents (lengthColumnName root [])) ∧
  ∃ document ∈ documents, ∃ passed pattern deeper tuple,
    target.repeatedPrefixes = passed ++ pattern :: deeper ∧
    Realizes document.lengths passed tuple ∧
    name = lengthColumnName pattern tuple ∧ ¬ HasCellNamed documents name

/-- The cells inside the entries do not have one type at one rest of their paths. -/
def CellTypesConflict (documents : List Json) (target : FieldPath) : Prop :=
  ∃ first second rest, IsCellPath documents first ∧ IsCellPath documents second ∧
    target.restOf? first.toText = some rest ∧ target.restOf? second.toText = some rest ∧
    ScalarType.unionOf (cellKinds documents first) ≠
      ScalarType.unionOf (cellKinds documents second)

/-- A cell outside of the entries has the name that cells inside of them get. -/
def CellNamesCollide (documents : List Json) (target : FieldPath) : Prop :=
  ∃ outside inside rest, IsCellPath documents outside ∧ IsCellPath documents inside ∧
    target.keeps outside.toText = true ∧ target.restOf? inside.toText = some rest ∧
    ColumnClasses.outputName target rest = outside.toText

/-- The documents cannot be flattened as one shard. -/
inductive AreRefused (documents : List Json) (target : FieldPath) : Prop where
  | missingLength {name : String} (lacks : LacksLengthNamed documents target name)
  | typeConflict (conflict : CellTypesConflict documents target)
  | nameCollision (collide : CellNamesCollide documents target)

/-- Some document has entries, but no cell of the documents is kept or flattened. -/
def AreHollow (documents : List Json) (target : FieldPath) : Prop :=
  (∃ document ∈ documents, document.factorAt target.repeatedPrefixes ≠ 0) ∧
  ¬ ∃ path, IsCellPath documents path ∧
    (target.keeps path.toText = true ∨ ∃ rest, target.restOf? path.toText = some rest)

/-! ## Checking documents -/

/-- The paths of the cells that are collected. -/
def cellPaths (documents : List Json) : List FieldPath :=
  match cellsOfAll 0 documents with
  | .ok rows => rows.flatten.map Cell.path
  | .error _ => []

section Checking

variable {documents : List Json} (regular : ∀ document ∈ documents, document.IsRegular)
  (areCollected : (cellsOfAll 0 documents).isOk = true)

include regular areCollected

theorem isCellPath_iff_mem (path : FieldPath) :
    IsCellPath documents path ↔ path ∈ cellPaths documents := by
  have outcome := cellsOfAll_outcome 0 regular
  rw [cellPaths]
  generalize cellsOfAll 0 documents = found at outcome areCollected
  cases outcome with
  | failure error fails => cases areCollected
  | @success rows loadable listAll =>
      rw [List.mem_map]
      constructor
      · rintro ⟨document, isMember, isThere⟩
        obtain ⟨value, isCell⟩ := Option.isSome_iff_exists.mp isThere
        exact ⟨⟨path, value⟩, (listAll.mem_flatten _).mpr ⟨document, isMember, isCell⟩, rfl⟩
      · rintro ⟨cell, isCell, rfl⟩
        obtain ⟨document, isMember, atPath⟩ := (listAll.mem_flatten cell).mp isCell
        exact ⟨document, isMember, by rw [atPath]; rfl⟩

theorem not_cellTypesConflict {target : FieldPath}
    (agree : ∀ first ∈ cellPaths documents, ∀ second ∈ cellPaths documents,
      (target.restOf? first.toText).isSome = true →
      target.restOf? first.toText = target.restOf? second.toText →
      ScalarType.unionOf (cellKinds documents first) =
        ScalarType.unionOf (cellKinds documents second)) :
    ¬ CellTypesConflict documents target := by
  rintro ⟨first, second, rest, isFirst, isSecond, firstInside, secondInside, different⟩
  rw [isCellPath_iff_mem regular areCollected] at isFirst isSecond
  refine different (agree first isFirst second isSecond (by rw [firstInside]; rfl) ?_)
  rw [firstInside, secondInside]

theorem not_cellNamesCollide {target : FieldPath}
    (apart : ∀ outside ∈ cellPaths documents, target.keeps outside.toText = true →
      ∀ inside ∈ cellPaths documents,
        (target.restOf? inside.toText).map (ColumnClasses.outputName target) ≠
          some outside.toText) :
    ¬ CellNamesCollide documents target := by
  rintro ⟨outside, inside, rest, isOutside, isInside, keeps, isRest, sameName⟩
  rw [isCellPath_iff_mem regular areCollected] at isOutside isInside
  refine apart outside isOutside keeps inside isInside ?_
  rw [isRest, Option.map_some, sameName]

end Checking

/-- The entries of one array only need the length of this array. -/
theorem not_lacksLengthNamed {documents : List Json} {target root : FieldPath}
    (oneLevel : target.repeatedPrefixes = [root]) (name : String) :
    ¬ LacksLengthNamed documents target name := by
  rintro ⟨⟨first, isFirst, hasRoot⟩, _, _, passed, pattern, deeper, tuple, shape, realized, rfl,
    noCell⟩
  rw [oneLevel] at isFirst shape
  cases isFirst
  cases passed with
  | nil =>
      obtain ⟨rfl, _⟩ := List.cons.inj shape
      rw [Realizes.nil_iff.mp realized] at noCell
      exact noCell hasRoot
  | cons before others => simp at shape

namespace AreLoadedAs

variable {settings : FlattenSettings} {lowestRow : Int} {documents : List Json} {shard : Shard}
  (areLoadedAs : AreLoadedAs settings lowestRow documents shard) {target : FieldPath}
  (isTarget : target.IsTarget)

include areLoadedAs

theorem isSome_column?_iff (name : String) :
    (shard.column? name).isSome = true ↔ HasCellNamed documents name :=
  areLoadedAs.isLoadedFrom.names name

/-- The columns are those of the paths of cells, with the type for their cells. -/
theorem mem_columns_iff {name : String} {kind : ScalarType} :
    (∃ column, (name, column) ∈ shard.columns ∧ column.kind = kind) ↔
      ∃ path, IsCellPath documents path ∧ path.toText = name ∧
        ScalarType.unionOf (cellKinds documents path) = kind := by
  have isEntry (column : Column) :
      (name, column) ∈ shard.columns ↔ shard.column? name = some column :=
    (OrderedMap.find?_eq_some_iff_mem areLoadedAs.intact.ordered name column).symm
  simp only [isEntry]
  constructor
  · rintro ⟨column, isColumn, rfl⟩
    obtain ⟨path, isCellPath, rfl⟩ :=
      (areLoadedAs.isSome_column?_iff name).mp (by rw [isColumn]; rfl)
    obtain ⟨found, isFound, isKind, _⟩ := areLoadedAs.isLoadedFrom.columns path isCellPath
    rw [isColumn] at isFound
    cases isFound
    exact ⟨path, isCellPath, rfl, isKind.symm⟩
  · rintro ⟨path, isCellPath, rfl, rfl⟩
    obtain ⟨column, isColumn, isKind, _⟩ := areLoadedAs.isLoadedFrom.columns path isCellPath
    exact ⟨column, isColumn, isKind⟩

theorem hasTypeConflict_iff :
    (∃ column expected got, shard.HasTypeConflict target column expected got) ↔
      CellTypesConflict documents target := by
  constructor
  · rintro ⟨output, _, _, ⟨firstName, first⟩, isFirst, ⟨secondName, second⟩, isSecond, rest,
      firstInside, secondInside, _, rfl, rfl, different⟩
    obtain ⟨firstPath, isFirstPath, rfl, firstKind⟩ :=
      areLoadedAs.mem_columns_iff.mp ⟨first, isFirst, rfl⟩
    obtain ⟨secondPath, isSecondPath, rfl, secondKind⟩ :=
      areLoadedAs.mem_columns_iff.mp ⟨second, isSecond, rfl⟩
    refine ⟨firstPath, secondPath, rest, isFirstPath, isSecondPath, firstInside, secondInside, ?_⟩
    rwa [firstKind, secondKind]
  · rintro ⟨firstPath, secondPath, rest, isFirstPath, isSecondPath, firstInside, secondInside,
      different⟩
    obtain ⟨first, isFirst, firstKind⟩ :=
      areLoadedAs.mem_columns_iff.mpr ⟨firstPath, isFirstPath, rfl, rfl⟩
    obtain ⟨second, isSecond, secondKind⟩ :=
      areLoadedAs.mem_columns_iff.mpr ⟨secondPath, isSecondPath, rfl, rfl⟩
    exact ⟨_, _, _, _, isFirst, _, isSecond, rest, firstInside, secondInside, rfl, firstKind,
      secondKind, different⟩

theorem hasNameCollision_iff :
    (∃ name, shard.HasNameCollision target name) ↔ CellNamesCollide documents target := by
  constructor
  · rintro ⟨name, ⟨⟨_, kept⟩, isKept, rfl, keeps⟩, ⟨insideName, column⟩, isInside, rest, inside,
      sameName⟩
    obtain ⟨outsidePath, isOutsidePath, rfl, _⟩ :=
      areLoadedAs.mem_columns_iff.mp ⟨kept, isKept, rfl⟩
    obtain ⟨insidePath, isInsidePath, rfl, _⟩ :=
      areLoadedAs.mem_columns_iff.mp ⟨column, isInside, rfl⟩
    exact ⟨outsidePath, insidePath, rest, isOutsidePath, isInsidePath, keeps, inside, sameName⟩
  · rintro ⟨outsidePath, insidePath, rest, isOutsidePath, isInsidePath, keeps, inside, sameName⟩
    obtain ⟨kept, isKept, _⟩ :=
      areLoadedAs.mem_columns_iff.mpr ⟨outsidePath, isOutsidePath, rfl, rfl⟩
    obtain ⟨column, isInside, _⟩ :=
      areLoadedAs.mem_columns_iff.mpr ⟨insidePath, isInsidePath, rfl, rfl⟩
    exact ⟨_, ⟨_, isKept, rfl, keeps⟩, _, isInside, rest, inside, sameName⟩

theorem exists_isOutputName_iff :
    (∃ name, shard.IsOutputName target name) ↔ ∃ path, IsCellPath documents path ∧
      (target.keeps path.toText = true ∨ ∃ rest, target.restOf? path.toText = some rest) := by
  constructor
  · rintro ⟨name, ⟨⟨_, kept⟩, isKept, rfl, keeps⟩ | ⟨⟨_, column⟩, isInside, rest, inside, _⟩⟩
    · obtain ⟨path, isCellPath, rfl, _⟩ := areLoadedAs.mem_columns_iff.mp ⟨kept, isKept, rfl⟩
      exact ⟨path, isCellPath, Or.inl keeps⟩
    · obtain ⟨path, isCellPath, rfl, _⟩ := areLoadedAs.mem_columns_iff.mp ⟨column, isInside, rfl⟩
      exact ⟨path, isCellPath, Or.inr ⟨rest, inside⟩⟩
  · rintro ⟨path, isCellPath, isKeptOrInside⟩
    obtain ⟨column, isColumn, _⟩ := areLoadedAs.mem_columns_iff.mpr ⟨path, isCellPath, rfl, rfl⟩
    rcases isKeptOrInside with keeps | ⟨rest, inside⟩
    · exact ⟨_, Or.inl ⟨_, isColumn, rfl, keeps⟩⟩
    · exact ⟨_, Or.inr ⟨_, isColumn, rest, inside, rfl⟩⟩

include isTarget

theorem lacksEntryLength_iff (name : String) :
    shard.LacksEntryLength target.repeatedPrefixes name ↔
      LacksLengthNamed documents target name := by
  rw [Shard.LacksEntryLength, LacksLengthNamed]
  simp only [areLoadedAs.isSome_column?_iff]
  apply and_congr_right
  rintro ⟨root, _, hasRoot⟩
  have isThere : shard.column? (lengthColumnName root []) ≠ none := by
    rw [ne_eq, areLoadedAs.column?_eq_none_iff, not_not]
    exact hasRoot
  constructor
  · rintro ⟨row, isRow, passed, pattern, deeper, tuple, shape, realized, rfl, isMissing⟩
    obtain ⟨index, document, isDocument, rfl⟩ := (areLoadedAs.mem_rowIds_iff isThere row).mp isRow
    have areOf := areLoadedAs.lengthsAt_areOf isDocument
    have ownEntry := (Realizes.iff_of_areOf areOf isTarget shape tuple).mp realized
    refine ⟨document, List.mem_of_getElem? isDocument, passed, pattern, deeper, tuple, shape,
      ownEntry, rfl, ?_⟩
    have isName := realized.isLengthName isTarget shape
    exact (areLoadedAs.lengthsAt_eq_none_iff isName isDocument).mp isMissing
  · rintro ⟨document, isMember, passed, pattern, deeper, tuple, shape, ownEntry, rfl, noCell⟩
    obtain ⟨index, isDocument⟩ := List.mem_iff_getElem?.mp isMember
    have areOf := areLoadedAs.lengthsAt_areOf isDocument
    have realized := (Realizes.iff_of_areOf areOf isTarget shape tuple).mpr ownEntry
    refine ⟨_, (areLoadedAs.mem_rowIds_iff isThere _).mpr ⟨index, document, isDocument, rfl⟩,
      passed, pattern, deeper, tuple, shape, realized, rfl, ?_⟩
    have isName := realized.isLengthName isTarget shape
    exact (areLoadedAs.lengthsAt_eq_none_iff isName isDocument).mpr noCell

/-! ## One shard -/

/-- Loaded documents are flattened, unless they are refused together, and then turn into as many
rows as they stand for, if they are not hollow. -/
theorem flattenShardBy_succeedsIff (output : String) :
    SucceedsIff (¬ AreRefused documents target)
      (fun flattening => ¬ AreHollow documents target → flattening.shard.rowCount =
        total (fun document => document.factorAt target.repeatedPrefixes) documents)
      (Flattening.flattenShardBy settings shard target output) := by
  have wellFormed := areLoadedAs.isWellFormed
  rcases Flattening.flattenShardBy_outcome settings wellFormed isTarget output with
    ⟨name, lacks, fails⟩ | ⟨nothingLacks, ⟨column, expected, got, conflict, fails⟩ |
      ⟨noConflict, ⟨name, collision, fails⟩ | ⟨noCollision, flattening, succeeds, isFlattening⟩⟩⟩
  · rw [fails]
    refine .failure _ fun notRefused => notRefused ?_
    exact .missingLength ((areLoadedAs.lacksEntryLength_iff isTarget name).mp lacks)
  · rw [fails]
    refine .failure _ fun notRefused => notRefused ?_
    exact .typeConflict (areLoadedAs.hasTypeConflict_iff.mp ⟨column, expected, got, conflict⟩)
  · rw [fails]
    refine .failure _ fun notRefused => notRefused ?_
    exact .nameCollision (areLoadedAs.hasNameCollision_iff.mp ⟨name, collision⟩)
  · rw [succeeds]
    refine .success ?_ ?_
    · rintro (lacks | conflict | collide)
      · exact nothingLacks ⟨_, (areLoadedAs.lacksEntryLength_iff isTarget _).mpr lacks⟩
      · exact noConflict (areLoadedAs.hasTypeConflict_iff.mpr conflict)
      · exact noCollision (areLoadedAs.hasNameCollision_iff.mpr collide)
    · intro notHollow
      by_cases noColumn : flattening.shard.columns = []
      · have noOutput := mt areLoadedAs.exists_isOutputName_iff.mpr
          (isFlattening.columns_eq_nil_iff.mp noColumn)
        have noEntries : ∀ document ∈ documents,
            document.factorAt target.repeatedPrefixes = 0 := by
          intro document isMember
          by_contra hasEntries
          exact notHollow ⟨⟨document, isMember, hasEntries⟩, noOutput⟩
        rw [Flattening.rowCount_eq_zero succeeds noColumn, total_congr noEntries, total_zero]
      · rw [isFlattening.rowCount_eq noColumn, areLoadedAs.total_factorAt isTarget nothingLacks]

end AreLoadedAs

end Document

end Unnest
