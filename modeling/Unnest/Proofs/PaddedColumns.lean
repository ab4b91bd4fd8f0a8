import Unnest.Proofs.ColumnPlans
import Unnest.Proofs.PaddedIndices

/-!
# Columns whose names have padded indices

The plans for the columns of a shard name what is read for an entry by the text of its path.  This
is the name of the column itself, unless an index of the name is padded.  Such a column settles the
type of an output column, but it is never read: another column is, or the default.
-/

namespace Unnest

namespace Shard

open ColumnClasses Flattening

/-- A column inside an entry is read by the text of its path. -/
structure IsReadByText (shard : Shard) (target : FieldPath) (leaves : List IndexTuple)
    (plans : List ColumnPlan) (name : String) (column : Column) (path : FieldPath)
    (tuple : IndexTuple) (rest : FieldPath) : Prop where
  planned : ∀ place : Nat, leaves[place]? = some tuple → ∃ plan ∈ plans,
    plan.output = outputName target rest ∧ plan.kind? = some column.kind ∧
      plan.sources[place]? = some path.toText
  itself : ¬ FieldPath.IsPadded name → path.toText = name ∧
    sourceOf shard column.kind path.toText = some (column.dictionary, column.pages)
  another : FieldPath.IsPadded name → ∀ plan ∈ plans, name ∉ plan.sources
  shown : (∀ entry ∈ shard.columns, entry.2.IsWellFormed shard.lowestRow shard.rowCount) →
    ∀ settings output flattening, flattenShardBy settings shard target output = .ok flattening →
      ∃ built, flattening.shard.column? (outputName target rest) = some built ∧
        ∀ (index : Nat) row,
          (shard.outputEntries target.repeatedPrefixes)[index]? = some (row, tuple) →
          (¬ FieldPath.IsPadded name →
            built.valueAt? (shard.lowestRow + index) = column.valueAt? row) ∧
          (shard.column? path.toText = none → built.valueAt? (shard.lowestRow + index) =
            some (column.kind.toValue (settings.fill column.kind rest.isLengthColumn)))

/-! ## Sources -/

theorem sourceOf_of_column? {shard : Shard} {name : String} {column : Column}
    (isColumn : shard.column? name = some column) :
    sourceOf shard column.kind name = some (column.dictionary, column.pages) := by
  simp [sourceOf, isColumn, Column.dictionaryOf?]

theorem sourceValue?_of_column? {shard : Shard} (settings : FlattenSettings) {name : String}
    {column : Column} (isColumn : shard.column? name = some column)
    (wellFormed : column.IsWellFormed shard.lowestRow shard.rowCount) (isLength : Bool) {row : Int}
    (isRow : row ∈ shard.rowIds) :
    sourceValue? settings shard column.kind isLength name row = column.valueAt? row := by
  rw [sourceValue?, sourceOf_of_column? isColumn, sourceScalar?, Column.valueAt?,
    wellFormed.readable.2 row isRow]

/-! ## Output columns -/

theorem name_of_buildColumn {settings : FlattenSettings} {shard : Shard} {layout : RowLayout}
    {plan : ColumnPlan} {built : OutputColumn}
    (isBuilt : buildColumn settings shard layout plan = .ok built) : built.name = plan.output := by
  cases plan with
  | keep name =>
      rw [buildColumn] at isBuilt
      split at isBuilt
      · rw [keepColumn] at isBuilt
        split at isBuilt
        · cases isBuilt
        · cases isBuilt
          rfl
      · cases isBuilt
  | flatten output kind isLength sources =>
      simp only [buildColumn, flattenColumn] at isBuilt
      split at isBuilt
      · cases isBuilt
      · split at isBuilt
        · cases isBuilt
        · cases isBuilt
          rfl

theorem map_name_of_buildColumns {settings : FlattenSettings} {shard : Shard} {layout : RowLayout}
    {plans : List ColumnPlan} {columns : List OutputColumn}
    (areBuilt : buildColumns settings shard layout plans = .ok columns) :
    columns.map OutputColumn.name = plans.map ColumnPlan.output := by
  induction plans generalizing columns with
  | nil =>
      cases areBuilt
      rfl
  | cons plan rest inductionHypothesis =>
      rw [buildColumns] at areBuilt
      split at areBuilt
      · cases areBuilt
      · rename_i first isFirst
        split at areBuilt
        · cases areBuilt
        · rename_i others areOthers
          cases areBuilt
          rw [List.map_cons, List.map_cons, name_of_buildColumn isFirst,
            inductionHypothesis areOthers]

/-- If the outputs of the plans differ, the shard has the column that is built for each of them. -/
theorem exists_built_of_plan {settings : FlattenSettings} {shard flattened : Shard}
    {layout : RowLayout} {plans : List ColumnPlan} {columns : List OutputColumn} {output : String}
    {lowestRow : Int} (areBuilt : buildColumns settings shard layout plans = .ok columns)
    (assembled : flattened.IsAssembledFrom output lowestRow (namedColumns columns))
    (outputsDiffer : (plans.map ColumnPlan.output).Nodup) {plan : ColumnPlan}
    (isPlan : plan ∈ plans) :
    ∃ built, buildColumn settings shard layout plan = .ok built ∧
      flattened.column? plan.output = some built.column := by
  have sameNames := map_name_of_buildColumns areBuilt
  have isNamed : plan.output ∈ columns.map OutputColumn.name :=
    sameNames ▸ List.mem_map_of_mem isPlan
  rcases List.mem_map.mp isNamed with ⟨built, isMember, sameName⟩
  rcases exists_plan_of_buildColumns areBuilt built isMember with ⟨other, isOther, isBuilt⟩
  have samePlan : other = plan :=
    List.inj_on_of_nodup_map outputsDiffer isOther isPlan
      ((name_of_buildColumn isBuilt).symm.trans sameName)
  refine ⟨built, samePlan ▸ isBuilt, ?_⟩
  rw [column?, assembled.columns]
  apply OrderedMap.find?_ofEntries_of_mem (mem_namedColumns.mpr ⟨built, isMember, by rw [sameName]⟩)
  intro column isThere
  rcases mem_namedColumns.mp isThere with ⟨found, isFound, same⟩
  have foundName : found.name = built.name := (congrArg Prod.fst same).trans sameName.symm
  rw [← List.inj_on_of_nodup_map (sameNames ▸ outputsDiffer) isFound isMember foundName]
  exact (congrArg Prod.snd same).symm

/-! ## Columns inside entries -/

section Reading

variable {table flattenBy name : String} {lowestRow : Int} {entries : List (String × Column)}
  {shard : Shard} {target path rest : FieldPath} {layout : RowLayout} {plans : List ColumnPlan}
  {column : Column} {tuple : IndexTuple}

/-- Every source of the plans has the text of a valid path. -/
theorem not_isPadded_of_mem_sources (isTarget : target.IsTarget) {classes : ColumnClasses}
    (classifies : classes.Classifies target shard.columns) {leaves : List IndexTuple}
    (leavesFit : ∀ tuple ∈ leaves, tuple.length = target.markerCount ∧
      ∀ position ∈ tuple, position < FieldPath.positionBound) {plan : ColumnPlan}
    (isPlan : plan ∈ classes.plansFor target shard.columns leaves) {source : String}
    (isSource : source ∈ plan.sources) : ¬ FieldPath.IsPadded source := by
  rcases (classifies.mem_plansFor_iff leaves plan).mp isPlan with
    ⟨_, _, _, same⟩ | ⟨stem, _, stemRest, isRest, same⟩
  · rw [← same] at isSource
    cases isSource
  · rcases List.mem_iff_getElem?.mp isSource with ⟨place, isThere⟩
    rw [← same, sources_flattenPlan] at isThere
    rcases isThere with ⟨leaf, isLeaf, isText⟩
    rw [← isText]
    exact FieldPath.not_isPadded_toText (FieldPath.isValid_withIndices_append isTarget.valid
      isTarget.isPattern (leavesFit leaf (List.mem_of_getElem? isLeaf)).2
      (FieldPath.isRest_of_restOf? isRest))

/-- The output column for a rest shows, for every output row, what is read for its entry. -/
theorem exists_built_of_flattenShardBy (isTarget : target.IsTarget)
    (ordered : OrderedMap.IsOrdered shard.columns) (consistent : shard.IsConsistent target)
    {classes : ColumnClasses} (classifies : classes.Classifies target shard.columns)
    (isLayout : RowLayout.build shard target.repeatedPrefixes = .ok layout)
    (isPlanned : classifyColumns shard target.repeatedPrefixes layout.leaves =
      .ok (classes.plansFor target shard.columns layout.leaves))
    (wellFormed : ∀ entry ∈ shard.columns, entry.2.IsWellFormed shard.lowestRow shard.rowCount)
    {inside : String × Column} (isInside : inside ∈ shard.columns)
    (isRest : target.restOf? inside.1 = some rest) {settings : FlattenSettings} {output : String}
    {flattening : ShardFlattening}
    (flattens : flattenShardBy settings shard target output = .ok flattening) :
    ∃ built, flattening.shard.column? (outputName target rest) = some built ∧
      ∀ (index : Nat) row tuple,
        (shard.outputEntries target.repeatedPrefixes)[index]? = some (row, tuple) →
        built.valueAt? (shard.lowestRow + index) =
          sourceValue? settings shard inside.2.kind rest.isLengthColumn
            (target.withIndices tuple ++ rest).toText row := by
  rcases exists_columns_of_flattenShardBy flattens with
    ⟨found, plans, columns, isFound, arePlans, areBuilt, assembled, _⟩
  rw [isLayout] at isFound
  cases isFound
  rw [isPlanned] at arePlans
  cases arePlans
  let plan := flattenPlan target layout.leaves (outputName target rest) rest inside.2.kind
  have isPlan : plan ∈ classes.plansFor target shard.columns layout.leaves :=
    (classifies.mem_plansFor_iff layout.leaves plan).mpr
      (Or.inr ⟨inside, isInside, rest, isRest, rfl⟩)
  rcases exists_built_of_plan areBuilt assembled
    (nodup_outputs_plansFor ordered consistent classifies layout.leaves) isPlan with
    ⟨built, isBuilt, isThere⟩
  have laysOut := RowLayout.laysOut_of_build (FieldPath.repeatedPrefixes_ne_nil isTarget.ends)
    isLayout
  rcases flattenColumn_shows settings wellFormed laysOut (outputName target rest) inside.2.kind
    rest.isLengthColumn (fun tuple => (target.withIndices tuple ++ rest).toText) with
    ⟨again, isBuiltAgain, _, values, shows, sameValues⟩
  rw [Except.ok.inj (isBuiltAgain.symm.trans isBuilt)] at shows
  refine ⟨built.column, isThere, ?_⟩
  intro index row tuple isEntry
  have isValue := congrArg (fun values => values[index]?) sameValues
  simp only [List.getElem?_map, isEntry, Option.map_some] at isValue
  rcases Option.map_eq_some_iff.mp isValue with ⟨value, isThereToo, same⟩
  rw [shows.valueAt?_add, isThereToo, same]

theorem isReadByText_of_classifyColumns
    (assembled : assemble table lowestRow entries = .ok shard)
    (names : ∀ column ∈ shard.columns, IsPathText column.1)
    (accepted : readTarget flattenBy = .ok target)
    (isLayout : RowLayout.build shard target.repeatedPrefixes = .ok layout)
    (isPlanned : classifyColumns shard target.repeatedPrefixes layout.leaves = .ok plans)
    (isColumn : shard.column? name = some column) (isRead : FieldPath.read name = .ok path)
    (isMatch : path.matchPrefix target = some (tuple, rest)) (isLeaf : tuple ∈ layout.leaves) :
    shard.IsReadByText target layout.leaves plans name column path tuple rest := by
  have isTarget := isTarget_of_readTarget accepted
  have ordered : OrderedMap.IsOrdered shard.columns := by
    rw [(isAssembledFrom_of_assemble assembled).columns]
    exact OrderedMap.isOrdered_ofEntries entries
  have leavesFit : ∀ tuple ∈ layout.leaves, tuple.length = target.markerCount ∧
      ∀ position ∈ tuple, position < FieldPath.positionBound := by
    intro tuple isLeaf
    rcases (((RowLayout.build_eq_ok isLayout).1.covers).leaves tuple).mp isLeaf with
      ⟨row, _, isEntry⟩
    exact fits_of_mem_leafEntries isTarget isEntry
  have isPath : path = target.withIndices tuple ++ rest :=
    (FieldPath.eq_of_matchPrefix_of_full isTarget.isPattern isMatch).2 (leavesFit tuple isLeaf).1
  have isRest : target.restOf? name = some rest := by
    simp [FieldPath.restOf?, isRead, isMatch]
  have isInside := OrderedMap.mem_of_find? isColumn
  have sameText (notPadded : ¬ FieldPath.IsPadded name) : path.toText = name :=
    (FieldPath.toText_eq_iff isRead).mpr notPadded
  rcases classifyColumns_outcome isTarget names layout.leaves with
    ⟨classes, classifies, noConflict, noCollision, succeeds⟩ | ⟨_, _, _, _, fails⟩ |
    ⟨_, _, _, fails⟩
  · have samePlans := Except.ok.inj (succeeds.symm.trans isPlanned)
    rw [← samePlans]
    constructor
    case planned =>
        intro place isPlace
        refine ⟨flattenPlan target layout.leaves (outputName target rest) rest column.kind, ?_, rfl,
          rfl, ?_⟩
        · exact (classifies.mem_plansFor_iff layout.leaves _).mpr
            (Or.inr ⟨_, isInside, rest, isRest, rfl⟩)
        · rw [sources_flattenPlan]
          exact ⟨tuple, isPlace, by rw [isPath]⟩
    case itself =>
        intro notPadded
        refine ⟨sameText notPadded, sourceOf_of_column? ?_⟩
        rw [sameText notPadded]
        exact isColumn
    case another =>
        intro isPadded plan isPlan isSource
        exact not_isPadded_of_mem_sources isTarget classifies leavesFit isPlan isSource isPadded
    case shown =>
        intro wellFormed settings output flattening flattens
        rcases exists_built_of_flattenShardBy isTarget ordered ⟨noConflict, noCollision⟩ classifies
          isLayout succeeds wellFormed isInside isRest flattens with ⟨built, isThere, showsSources⟩
        refine ⟨built, isThere, ?_⟩
        intro index row isEntry
        have isRow := (mem_outputEntries (List.mem_of_getElem? isEntry)).1
        rw [showsSources index row tuple isEntry, ← isPath]
        constructor
        · intro notPadded
          rw [sameText notPadded]
          exact sourceValue?_of_column? settings isColumn (wellFormed _ isInside) _ isRow
        · intro noColumn
          simp [sourceValue?, sourceOf, noColumn, sourceScalar?]
  · rw [isPlanned] at fails
    cases fails
  · rw [isPlanned] at fails
    cases fails

end Reading

end Shard

open Shard in
/-- A text that is accepted as a path is the text of this path exactly if none of its indices is
padded, and then it is the only such text of the path.  When a shard is flattened, the columns
inside its entries are read by the texts of their paths: those without padded indices are read
themselves, and the others never are. -/
theorem FieldPath.rebuilds_unless_padded {text : String} {path : FieldPath}
    (isParsed : FieldPath.parse text = .ok path) :
    FieldPath.parse path.toText = .ok path ∧ (path.toText = text ↔ ¬ IsPadded text) ∧
    (∀ other, FieldPath.parse other = .ok path → ¬ IsPadded text → ¬ IsPadded other →
      other = text) ∧
    ∀ table lowestRow entries shard flattenBy target layout plans,
      Shard.assemble table lowestRow entries = .ok shard →
      (∀ column ∈ shard.columns, ∃ path, FieldPath.parse column.1 = .ok path) →
      readTarget flattenBy = .ok target →
      RowLayout.build shard target.repeatedPrefixes = .ok layout →
      classifyColumns shard target.repeatedPrefixes layout.leaves = .ok plans →
      ∀ column tuple rest, shard.column? text = some column →
        path.matchPrefix target = some (tuple, rest) → tuple ∈ layout.leaves →
        shard.IsReadByText target layout.leaves plans text column path tuple rest := by
  have isRead := read_of_parse isParsed
  refine ⟨parse_toText (isValid_of_read isRead), toText_eq_iff isRead, ?_, ?_⟩
  · intro other otherParsed textPlain otherPlain
    rw [← (toText_eq_iff isRead).mpr textPlain,
      ← (toText_eq_iff (read_of_parse otherParsed)).mpr otherPlain]
  · intro table lowestRow entries shard flattenBy target layout plans assembled names accepted
      isLayout isPlanned column tuple rest isColumn isMatch isLeaf
    have pathTexts : ∀ column ∈ shard.columns, IsPathText column.1 := by
      intro column isColumn
      rcases names column isColumn with ⟨columnPath, columnParsed⟩
      exact ⟨columnPath, read_of_parse columnParsed⟩
    exact isReadByText_of_classifyColumns assembled pathTexts accepted isLayout isPlanned isColumn
      isRead isMatch isLeaf

/-- A row with two entries, of which the second one has a leading zero in its name. -/
def zeroShard : Shard :=
  ⟨"t", 5, 1, [
    ("a[01]", ⟨.long, .constant 9, [Page.constant 5 1 0]⟩),
    ("a[0]", ⟨.long, .constant 7, [Page.constant 5 1 0]⟩),
    ("a[length]", ⟨.long, .constant 2, [Page.constant 5 1 0]⟩)]⟩

def zeroLayout : RowLayout :=
  ⟨[[0], [1]], [⟨[5], [⟨0, 0, 1⟩]⟩, ⟨[5], [⟨1, 0, 1⟩]⟩], 1⟩

theorem build_zeroShard :
    RowLayout.build zeroShard (FieldPath.repeatedPrefixes [⟨"a", .all⟩]) = .ok zeroLayout := by
  have areFound : RowLayout.entries zeroShard (FieldPath.repeatedPrefixes [⟨"a", .all⟩]) =
      .ok [(5, [[0], [1]])] := by decide +kernel
  exact RowLayout.build_of_entries areFound (by decide) (by decide) (by decide) (by decide +kernel)

theorem FieldPath.rebuilds_unless_padded_zeroShard :
    FieldPath.parse "a[0]" = .ok [⟨"a", .entry 0⟩] ∧ FieldPath.toText [⟨"a", .entry 0⟩] = "a[0]" ∧
    FieldPath.parse "a[01]" = .ok [⟨"a", .entry 1⟩] ∧ FieldPath.toText [⟨"a", .entry 1⟩] ≠ "a[01]" ∧
    classifyColumns zeroShard (FieldPath.repeatedPrefixes [⟨"a", .all⟩]) zeroLayout.leaves =
      .ok [.flatten "a" .long false ["a[0]", "a[1]"]] ∧
    zeroShard.IsReadByText [⟨"a", .all⟩] zeroLayout.leaves
      [.flatten "a" .long false ["a[0]", "a[1]"]] "a[0]"
      ⟨.long, .constant 7, [Page.constant 5 1 0]⟩ [⟨"a", .entry 0⟩] [0] [] ∧
    zeroShard.IsReadByText [⟨"a", .all⟩] zeroLayout.leaves
      [.flatten "a" .long false ["a[0]", "a[1]"]] "a[01]"
      ⟨.long, .constant 9, [Page.constant 5 1 0]⟩ [⟨"a", .entry 1⟩] [1] [] := by
  have firstParsed : FieldPath.parse "a[0]" = .ok [⟨"a", .entry 0⟩] := by decide +kernel
  have secondParsed : FieldPath.parse "a[01]" = .ok [⟨"a", .entry 1⟩] := by decide +kernel
  rcases rebuilds_unless_padded firstParsed with ⟨_, firstText, _, firstReads⟩
  rcases rebuilds_unless_padded secondParsed with ⟨_, secondText, _, secondReads⟩
  have ordered : OrderedMap.IsOrdered zeroShard.columns := by
    unfold OrderedMap.IsOrdered
    decide +kernel
  have assembled : Shard.assemble "t" 5 zeroShard.columns = .ok zeroShard := by
    have isChecked : Shard.assemble "t" 5 zeroShard.columns =
        .ok ⟨"t", 5, 1, OrderedMap.ofEntries zeroShard.columns⟩ := rfl
    rw [isChecked, OrderedMap.ofEntries_eq_self ordered]
    rfl
  have names : ∀ column ∈ zeroShard.columns, ∃ path, FieldPath.parse column.1 = .ok path := by
    have lengthParsed : FieldPath.parse "a[length]" = .ok [⟨"a", .length⟩] := by decide +kernel
    simp [zeroShard, firstParsed, secondParsed, lengthParsed]
  have isPlanned : classifyColumns zeroShard (FieldPath.repeatedPrefixes [⟨"a", .all⟩])
      zeroLayout.leaves = .ok [.flatten "a" .long false ["a[0]", "a[1]"]] := by decide +kernel
  have accepted : readTarget "a[*]" = .ok [⟨"a", .all⟩] := by decide +kernel
  exact ⟨firstParsed, firstText.mpr (by decide +kernel), secondParsed,
    mt secondText.mp (by decide +kernel), isPlanned,
    firstReads "t" 5 _ _ _ _ _ _ assembled names accepted build_zeroShard isPlanned _ _ _ rfl rfl
      (by decide),
    secondReads "t" 5 _ _ _ _ _ _ assembled names accepted build_zeroShard isPlanned _ _ _ rfl rfl
      (by decide)⟩

/-- A row with one entry, which has a superfluous zero in its name. -/
def doubleZeroShard : Shard :=
  ⟨"t", 0, 1, [
    ("a[00]", ⟨.long, .constant 5, [Page.constant 0 1 0]⟩),
    ("a[length]", ⟨.long, .constant 1, [Page.constant 0 1 0]⟩)]⟩

/-- The text of the path is another one than the name, and the default takes the place of the
value. -/
theorem doubleZeroShard_loses_entry :
    FieldPath.parse "a[00]" = .ok [⟨"a", .entry 0⟩] ∧
    FieldPath.parse "a[0]" = .ok [⟨"a", .entry 0⟩] ∧
    FieldPath.toText [⟨"a", .entry 0⟩] ≠ "a[00]" ∧
    Shard.assemble "t" 0 doubleZeroShard.columns = .ok doubleZeroShard ∧
    doubleZeroShard.rows = [[("a[00]", .long 5), ("a[length]", .long 1)]] ∧
    ∃ flattening, Flattening.flattenShard {} doubleZeroShard "a[*]" "u" = .ok flattening ∧
      flattening.shard.rows = [[("a", .long 0)]] := by
  have ordered : OrderedMap.IsOrdered doubleZeroShard.columns := by
    unfold OrderedMap.IsOrdered
    decide +kernel
  have isChecked : Shard.assemble "t" 0 doubleZeroShard.columns =
      .ok ⟨"t", 0, 1, OrderedMap.ofEntries doubleZeroShard.columns⟩ := rfl
  rw [OrderedMap.ofEntries_eq_self ordered] at isChecked
  have shown : (Flattening.flattenShard {} doubleZeroShard "a[*]" "u").toOption.map
      (fun flattening => flattening.shard.rows) = some [[("a", .long 0)]] := by decide +kernel
  refine ⟨by decide +kernel, by decide +kernel, by decide +kernel, isChecked, by decide +kernel, ?_⟩
  cases flattens : Flattening.flattenShard {} doubleZeroShard "a[*]" "u" with
  | error cause => simp [flattens, Except.toOption] at shown
  | ok flattening =>
      rw [flattens] at shown
      exact ⟨flattening, rfl, Option.some.inj shown⟩

end Unnest
