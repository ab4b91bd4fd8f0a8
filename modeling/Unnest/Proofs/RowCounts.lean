import Unnest.Proofs.ShardFlattening

/-!
# The number of output rows

A row turns into as many output rows as its factor says (`Shard.factorAt`).  The layout has the sum
of the factors of all rows, and so has every output column.  The flattened shard counts the rows of
its first column: where flattening leaves no column, it has no rows, however many were laid out.
-/

namespace Unnest

/-! ## Totals -/

theorem total_range_below {length bound : Nat} (fits : length ≤ bound) :
    total (fun place => if place < length then 1 else 0) (List.range bound) = length := by
  induction bound generalizing length with
  | zero =>
      have isZero : length = 0 := Nat.le_zero.mp fits
      simp [isZero]
  | succ bound inductionHypothesis =>
      rw [List.range_succ, total_append, total_cons, total_nil]
      by_cases isLast : length = bound + 1
      · have sameCounts : ∀ place ∈ List.range bound,
            (if place < length then 1 else 0) = if place < bound then 1 else 0 := by
          intro place member
          have below := List.mem_range.mp member
          simp [below, show place < length by omega]
        rw [total_congr sameCounts, inductionHypothesis (Nat.le_refl bound)]
        simp [isLast]
      · rw [inductionHypothesis (by omega)]
        simp [show ¬ bound < length by omega]

/-- The items of lists, counted place by place: at each place those lists count that are longer. -/
theorem total_length_passes {entriesOf : Int → List IndexTuple} {bound : Nat} {rows : List Int}
    (fits : ∀ row ∈ rows, (entriesOf row).length ≤ bound) :
    total (fun pass => (rows.filterMap fun row =>
        (entriesOf row)[pass]?.map fun tuple => (row, tuple)).length) (List.range bound) =
      total (fun row => (entriesOf row).length) rows := by
  induction rows with
  | nil => exact total_zero (List.range bound)
  | cons row rest inductionHypothesis =>
      have splitFirst : ∀ pass,
          ((row :: rest).filterMap fun row =>
              (entriesOf row)[pass]?.map fun tuple => (row, tuple)).length =
            (if pass < (entriesOf row).length then 1 else 0) +
              (rest.filterMap fun row =>
                (entriesOf row)[pass]?.map fun tuple => (row, tuple)).length := by
        intro pass
        by_cases isThere : pass < (entriesOf row).length
        · simp [isThere, Nat.add_comm]
        · simp [isThere]
      simp only [splitFirst, total_add, total_cons]
      rw [total_range_below (fits row List.mem_cons_self),
        inductionHypothesis fun other member => fits other (List.mem_cons_of_mem _ member)]

/-! ## Rows that are laid out -/

namespace Shard

/-- The number of output rows that a row turns into; none if a length of it is not stored. -/
def factorAt (shard : Shard) (prefixes : List FieldPath) (row : Int) : Nat :=
  match realize prefixes (RowLayout.lengthsAt shard row) with
  | .ok realization => realization.factor
  | .error _ => 0

theorem length_leafEntries (shard : Shard) (prefixes : List FieldPath) (row : Int) :
    (shard.leafEntries prefixes row).length = shard.factorAt prefixes row := by
  rw [leafEntries, factorAt]
  cases realize prefixes (RowLayout.lengthsAt shard row) with
  | error error => rfl
  | ok realization => rfl

theorem length_leafEntries_le_longestRow {shard : Shard} {prefixes : List FieldPath} {row : Int}
    (isRow : row ∈ shard.rowIds) :
    (shard.leafEntries prefixes row).length ≤ shard.longestRow prefixes := by
  have isLength := List.mem_map_of_mem (f := fun row => (shard.leafEntries prefixes row).length)
    isRow
  rw [longestRow]
  cases isMax : (shard.rowIds.map fun row => (shard.leafEntries prefixes row).length).max? with
  | none =>
      rw [List.max?_eq_none_iff.mp isMax] at isLength
      cases isLength
  | some longest => exact (List.max?_eq_some_iff.mp isMax).2 _ isLength

theorem IsFlattening.columns_eq_nil_iff {settings : FlattenSettings} {shard flattened : Shard}
    {target : FieldPath} {output : String}
    (isFlattening : shard.IsFlattening settings target output flattened) :
    flattened.columns = [] ↔ ¬ ∃ name, shard.IsOutputName target name := by
  constructor
  · rintro noColumn ⟨name, isName⟩
    have isThere := (isFlattening.names name).mpr isName
    rw [column?, noColumn] at isThere
    cases isThere
  · intro noName
    apply List.eq_nil_iff_forall_not_mem.mpr
    rintro ⟨name, column⟩ isColumn
    apply noName
    have isFound : flattened.column? name = some column :=
      (OrderedMap.find?_eq_some_iff_mem isFlattening.ordered name column).mpr isColumn
    exact ⟨name, (isFlattening.names name).mp (by rw [isFound]; rfl)⟩

theorem length_outputEntries (shard : Shard) (prefixes : List FieldPath) :
    (shard.outputEntries prefixes).length = total (shard.factorAt prefixes) shard.rowIds := by
  rw [outputEntries, length_flatMap_eq_total]
  refine (total_length_passes fun row isRow => length_leafEntries_le_longestRow isRow).trans ?_
  simp only [length_leafEntries]

end Shard

theorem RowLayout.laysOut_of_build {shard : Shard} {prefixes : List FieldPath}
    (notEmpty : prefixes ≠ []) {layout : RowLayout} (isLayout : build shard prefixes = .ok layout) :
    layout.LaysOut shard (shard.outputEntries prefixes) := by
  rcases build_outcome shard notEmpty with ⟨found, isFound, isLayoutOf, _⟩ | ⟨name, _, fails⟩
  · rw [isLayout] at isFound
    rw [Except.ok.inj isFound]
    exact isLayoutOf.laysOut
  · rw [isLayout] at fails
    cases fails

theorem RowLayout.LaysOut.outputRows_eq {layout : RowLayout} {shard : Shard}
    {entries : List (Int × IndexTuple)} (laysOut : layout.LaysOut shard entries) :
    layout.outputRows = entries.length := by
  have sameRows := congrArg List.length laysOut.passRows
  rwa [length_flatMap_eq_total, List.length_map] at sameRows

namespace Flattening

/-! ## Rows that are cut -/

section Cutting

variable {pages : List Page} {nextRow : Int} {cut : List OutputPage}

theorem cutRows_totalRows {ids : IdMap} {rows : List Int}
    (isCut : cutRows ids nextRow pages rows = .ok cut) : totalRows cut = rows.length := by
  rw [cutRows] at isCut
  split at isCut
  · cases isCut
  · rename_i found _
    by_cases allCut : totalRows found = rows.length
    · rw [if_pos allCut] at isCut
      cases isCut
      exact allCut
    · rw [if_neg allCut] at isCut
      cases isCut

theorem totalRows_append (first second : List OutputPage) :
    totalRows (first ++ second) = totalRows first + totalRows second :=
  total_append _ first second

theorem totalRows_constantPages (maxPageRows : Nat) (id nextRow : Int) (count : Nat) :
    totalRows (constantPages maxPageRows id nextRow count) = count := by
  rw [← total_map_page, (pagesRead_constantPages maxPageRows id nextRow count).total_rowCount,
    List.length_replicate]

theorem cutPasses_totalRows {passes : List Pass}
    (isCut : cutPasses pages nextRow passes = .ok cut) :
    totalRows cut = (passes.flatMap Pass.rows).length := by
  induction passes generalizing nextRow cut with
  | nil =>
      cases isCut
      rfl
  | cons pass rest inductionHypothesis =>
      rw [cutPasses] at isCut
      split at isCut
      · cases isCut
      · rename_i here isHere
        split at isCut
        · cases isCut
        · rename_i others areOthers
          cases isCut
          rw [totalRows_append, cutRows_totalRows isHere, inductionHypothesis areOthers,
            List.flatMap_cons, List.length_append]

variable {kind : ScalarType} {maxPageRows : Nat} {sources : List (LeafSource kind)}
  {union : DictionaryUnion Nat kind}

theorem cutRun_totalRows {run : LeafRows}
    (isCut : cutRun maxPageRows sources union nextRow run = .ok cut) :
    totalRows cut = run.rows.length := by
  rw [cutRun] at isCut
  split at isCut
  · exact cutRows_totalRows isCut
  · cases isCut
    exact totalRows_constantPages _ _ _ _

theorem cutRuns_totalRows {runs : List LeafRows}
    (isCut : cutRuns maxPageRows sources union nextRow runs = .ok cut) :
    totalRows cut = (runs.flatMap LeafRows.cells).length := by
  induction runs generalizing nextRow cut with
  | nil =>
      cases isCut
      rfl
  | cons run rest inductionHypothesis =>
      rw [cutRuns] at isCut
      split at isCut
      · cases isCut
      · rename_i here isHere
        split at isCut
        · cases isCut
        · rename_i others areOthers
          cases isCut
          rw [totalRows_append, cutRun_totalRows isHere, inductionHypothesis areOthers,
            List.flatMap_cons, List.length_append, LeafRows.cells, List.length_map]

end Cutting

/-! ## Columns -/

theorem rowCount_ofPages (name : String) (kind : ScalarType) (dictionary : Dictionary kind.Carrier)
    (pages : List OutputPage) :
    (OutputColumn.ofPages name kind dictionary pages).column.rowCount = totalRows pages := by
  rw [← total_map_page]
  exact total_perm (List.mergeSort_perm _ _)

section Columns

variable {settings : FlattenSettings} {shard : Shard} {layout : RowLayout}
  {entries : List (Int × IndexTuple)} (laysOut : layout.LaysOut shard entries)

include laysOut

theorem keepColumn_rowCount {name : String} {source : Column} {built : OutputColumn}
    (isBuilt : keepColumn shard layout name source = .ok built) :
    built.column.rowCount = entries.length := by
  rw [keepColumn] at isBuilt
  split at isBuilt
  · cases isBuilt
  · rename_i pages areCut
    cases isBuilt
    rw [rowCount_ofPages, cutPasses_totalRows areCut, laysOut.passRows, List.length_map]

theorem flattenColumn_rowCount {output : String} {kind : ScalarType} {isLength : Bool}
    {names : List String} {built : OutputColumn}
    (isBuilt : flattenColumn settings shard layout output kind isLength names = .ok built) :
    built.column.rowCount = entries.length := by
  rw [flattenColumn] at isBuilt
  split at isBuilt
  · cases isBuilt
  · split at isBuilt
    · cases isBuilt
    · rename_i pages areCut
      cases isBuilt
      rw [rowCount_ofPages, cutRuns_totalRows areCut, laysOut.runCells, List.length_map]

theorem buildColumn_rowCount {plan : ColumnPlan} {built : OutputColumn}
    (isBuilt : buildColumn settings shard layout plan = .ok built) :
    built.column.rowCount = entries.length := by
  cases plan with
  | keep name =>
      rw [buildColumn] at isBuilt
      split at isBuilt
      · exact keepColumn_rowCount laysOut isBuilt
      · cases isBuilt
  | flatten output kind isLength names => exact flattenColumn_rowCount laysOut isBuilt

end Columns

theorem exists_plan_of_buildColumns {settings : FlattenSettings} {shard : Shard}
    {layout : RowLayout} {plans : List ColumnPlan} {columns : List OutputColumn}
    (areBuilt : buildColumns settings shard layout plans = .ok columns) :
    ∀ built ∈ columns, ∃ plan ∈ plans, buildColumn settings shard layout plan = .ok built := by
  induction plans generalizing columns with
  | nil =>
      cases areBuilt
      simp
  | cons plan rest inductionHypothesis =>
      rw [buildColumns] at areBuilt
      split at areBuilt
      · cases areBuilt
      · rename_i first isFirst
        split at areBuilt
        · cases areBuilt
        · rename_i others areOthers
          cases areBuilt
          intro built member
          rcases List.mem_cons.mp member with rfl | inRest
          · exact ⟨plan, List.mem_cons_self, isFirst⟩
          · obtain ⟨later, isLater, isBuilt⟩ := inductionHypothesis areOthers built inRest
            exact ⟨later, List.mem_cons_of_mem _ isLater, isBuilt⟩

/-! ## Counters -/

theorem find?_raise_of_ne {name wanted : String} (different : wanted ≠ name) (amount : Nat)
    (counters : Counters) :
    OrderedMap.find? wanted (Counters.raise name amount counters) =
      OrderedMap.find? wanted counters :=
  OrderedMap.find?_insert_of_ne different _ counters

theorem find?_raiseEach_of_ne {name label wanted : String} {values : List String}
    (different : ∀ value ∈ values, wanted ≠ Counters.labelled name label value)
    (counters : Counters) :
    OrderedMap.find? wanted (Counters.raiseEach name label values counters) =
      OrderedMap.find? wanted counters := by
  rw [Counters.raiseEach]
  induction values generalizing counters with
  | nil => rfl
  | cons value rest inductionHypothesis =>
      rw [List.foldl_cons, inductionHypothesis fun other member =>
        different other (List.mem_cons_of_mem _ member)]
      exact find?_raise_of_ne (different value List.mem_cons_self) 1 counters

theorem rowsOut_countersOf (rowsIn rowsOut : Nat) (strategies : List PageStrategy) :
    OrderedMap.find? "strata_flatten_rows_out_total" (countersOf rowsIn rowsOut strategies) =
      some rowsOut := by
  have noStrategy : ∀ value ∈ strategies.map PageStrategy.name,
      "strata_flatten_rows_out_total" ≠
        Counters.labelled "strata_flatten_page_strategy_total" "strategy" value := by
    intro value member
    obtain ⟨strategy, _, rfl⟩ := List.mem_map.mp member
    cases strategy <;> decide
  rw [countersOf, find?_raise_of_ne (by decide), find?_raise_of_ne (by decide), Counters.raise,
    OrderedMap.find?_insert_self, find?_raiseEach_of_ne noStrategy]
  simp

/-! ## The shard -/

variable {settings : FlattenSettings} {shard : Shard} {target : FieldPath}

/-- A flattening is put together from the columns that the plans give along the layout. -/
theorem exists_columns_of_flattenShardBy {output : String} {flattening : ShardFlattening}
    (flattens : flattenShardBy settings shard target output = .ok flattening) :
    ∃ layout plans columns, RowLayout.build shard target.repeatedPrefixes = .ok layout ∧
      classifyColumns shard target.repeatedPrefixes layout.leaves = .ok plans ∧
      buildColumns settings shard layout plans = .ok columns ∧
      flattening.shard.IsAssembledFrom output shard.lowestRow (namedColumns columns) ∧
      flattening.summary.rowsOut = layout.outputRows ∧
      ∃ strategies,
        flattening.counters = countersOf shard.rowCount flattening.shard.rowCount strategies := by
  rw [flattenShardBy] at flattens
  dsimp only at flattens
  split at flattens
  · cases flattens
  · rename_i layout isLayout
    split at flattens
    · cases flattens
    · rename_i plans isPlanned
      split at flattens
      · cases flattens
      · rename_i columns areBuilt
        split at flattens
        · cases flattens
        · rename_i flattened assembled
          cases flattens
          exact ⟨layout, plans, columns, isLayout, isPlanned, areBuilt,
            Shard.isAssembledFrom_of_assemble assembled, rfl, _, rfl⟩

theorem rowCount_eq_zero {output : String} {flattening : ShardFlattening}
    (flattens : flattenShardBy settings shard target output = .ok flattening)
    (noColumn : flattening.shard.columns = []) : flattening.shard.rowCount = 0 := by
  obtain ⟨_, _, columns, _, _, _, assembled, _⟩ := exists_columns_of_flattenShardBy flattens
  rw [assembled.columns, OrderedMap.ofEntries_eq_nil_iff] at noColumn
  exact assembled.rowCount noColumn

/-- Flattening a well-formed shard lays out as many rows as the factors of its rows sum up to, and
every output column has so many.  The shard has so many, too, and they are counted, if some column
is kept or flattened.  Otherwise it has no rows, and none are counted. -/
theorem flattenShard_rowCount (settings : FlattenSettings) {shard : Shard}
    (wellFormed : shard.IsWellFormed) {flattenBy : String} {target : FieldPath}
    (accepted : readTarget flattenBy = .ok target) {output : String} {flattening : ShardFlattening}
    (flattens : flattenShard settings shard flattenBy output = .ok flattening) :
    flattening.summary.rowsOut =
        total (shard.factorAt target.repeatedPrefixes) shard.rowIds ∧
      (∀ entry ∈ flattening.shard.columns, entry.2.rowCount = flattening.summary.rowsOut) ∧
      ((∃ name, shard.IsOutputName target name) →
        flattening.shard.rowCount = flattening.summary.rowsOut) ∧
      ((¬ ∃ name, shard.IsOutputName target name) → flattening.shard.rowCount = 0) ∧
      OrderedMap.find? "strata_flatten_rows_out_total" flattening.counters =
        some flattening.shard.rowCount := by
  have isTarget := isTarget_of_readTarget accepted
  simp only [flattenShard, accepted] at flattens
  have isFlattening := isFlattening_of_flattenShardBy wellFormed isTarget flattens
  obtain ⟨layout, plans, columns, isLayout, _, areBuilt, assembled, isRowsOut, strategies,
    counted⟩ := exists_columns_of_flattenShardBy flattens
  have laysOut := RowLayout.laysOut_of_build (FieldPath.repeatedPrefixes_ne_nil isTarget.ends)
    isLayout
  have sameRows : ∀ entry ∈ namedColumns columns,
      entry.2.rowCount = flattening.summary.rowsOut := by
    intro entry isEntry
    obtain ⟨built, isMember, rfl⟩ := mem_namedColumns.mp isEntry
    obtain ⟨plan, _, isBuilt⟩ := exists_plan_of_buildColumns areBuilt built isMember
    rw [isRowsOut, laysOut.outputRows_eq]
    exact buildColumn_rowCount laysOut isBuilt
  have noColumn : namedColumns columns = [] ↔ ¬ ∃ name, shard.IsOutputName target name := by
    rw [← OrderedMap.ofEntries_eq_nil_iff, ← assembled.columns]
    exact isFlattening.columns_eq_nil_iff
  refine ⟨?_, ?_, ?_, ?_, ?_⟩
  · rw [isRowsOut, laysOut.outputRows_eq, Shard.length_outputEntries]
  · intro entry isEntry
    rw [assembled.columns] at isEntry
    exact sameRows entry (OrderedMap.mem_of_mem_ofEntries isEntry)
  · intro hasName
    have someColumn : namedColumns columns ≠ [] := fun isEmpty => noColumn.mp isEmpty hasName
    obtain ⟨first, rest, shape⟩ := List.exists_cons_of_ne_nil someColumn
    have isFirst : first ∈ namedColumns columns := shape ▸ List.mem_cons_self
    exact (assembled.aligned first isFirst).symm.trans (sameRows first isFirst)
  · exact fun hasNone => assembled.rowCount (noColumn.mpr hasNone)
  · rw [counted]
    exact rowsOut_countersOf _ _ strategies

theorem flattenShard_rowCount_raggedShard :
    raggedShard.IsWellFormed ∧ readTarget "a[*]" = .ok [⟨"a", .all⟩] ∧
      ∃ flattening, flattenShard {} raggedShard "a[*]" "u" = .ok flattening ∧
        flattening.summary.rowsOut = 3 ∧ flattening.shard.rowCount = 3 := by
  have wellFormed := raggedShard_isWellFormed
  have accepted : readTarget "a[*]" = .ok [⟨"a", .all⟩] := by decide +kernel
  obtain ⟨flattening, isFlattening, _⟩ := raggedShard_flattens "u"
  have flattens : flattenShard {} raggedShard "a[*]" "u" = .ok flattening := by
    simp only [flattenShard, accepted, isFlattening]
  have isKept : raggedShard.IsOutputName [⟨"a", .all⟩] "d" := Or.inl (by decide +kernel)
  have factors : total (raggedShard.factorAt (FieldPath.repeatedPrefixes [⟨"a", .all⟩]))
      raggedShard.rowIds = 3 := by decide +kernel
  obtain ⟨laidOut, _, counted, _⟩ := flattenShard_rowCount {} wellFormed accepted flattens
  rw [factors] at laidOut
  exact ⟨wellFormed, accepted, flattening, flattens, laidOut, (counted ⟨"d", isKept⟩).trans laidOut⟩

/-- One row with two entries that store nothing. -/
def hollowShard : Shard :=
  ⟨"t", 0, 1, [("a[length]", ⟨.long, .array #[2], [Page.constant 0 1 0]⟩)]⟩

def hollowLayout : RowLayout :=
  ⟨[[0], [1]], [⟨[0], [⟨0, 0, 1⟩]⟩, ⟨[0], [⟨1, 0, 1⟩]⟩], 1⟩

theorem build_hollowShard :
    RowLayout.build hollowShard (FieldPath.repeatedPrefixes [⟨"a", .all⟩]) = .ok hollowLayout := by
  have areFound : RowLayout.entries hollowShard (FieldPath.repeatedPrefixes [⟨"a", .all⟩]) =
      .ok [(0, [[0], [1]])] := by decide +kernel
  exact RowLayout.build_of_entries areFound (by decide) (by decide) (by decide) (by decide +kernel)

/-- Two rows are laid out for the two entries, but the flattened shard has no column to hold them:
it has no rows, and none are counted. -/
theorem hollowShard_loses_rows :
    hollowShard.IsWellFormed ∧ readTarget "a[*]" = .ok [⟨"a", .all⟩] ∧
      total (hollowShard.factorAt (FieldPath.repeatedPrefixes [⟨"a", .all⟩])) hollowShard.rowIds =
        2 ∧
      ∃ flattening, flattenShard {} hollowShard "a[*]" "u" = .ok flattening ∧
        flattening.summary.rowsOut = 2 ∧ flattening.shard.rowCount = 0 ∧
        OrderedMap.find? "strata_flatten_rows_out_total" flattening.counters = some 0 := by
  have wellFormed : hollowShard.IsWellFormed := by
    refine ⟨List.pairwise_singleton _ _, by decide +kernel, ?_⟩
    intro entry isEntry
    cases List.mem_singleton.mp isEntry
    have reads : Column.Reads ⟨.long, .array #[2], [Page.constant 0 1 0]⟩ 0 [2] :=
      ⟨[0], PagesRead.cons (reads_constant 0 1 0) (PagesRead.nil _), rfl⟩
    exact reads.isWellFormed (List.pairwise_singleton _ _)
  refine ⟨wellFormed, by decide +kernel, by decide +kernel, ?_⟩
  have shown : (flattenShard {} hollowShard "a[*]" "u").toOption.map (fun flattening =>
      (flattening.summary.rowsOut, flattening.shard.rowCount,
        OrderedMap.find? "strata_flatten_rows_out_total" flattening.counters)) =
      some (2, 0, some 0) := by
    have accepted : readTarget "a[*]" = .ok [⟨"a", .all⟩] := by decide +kernel
    simp only [flattenShard, accepted, flattenShardBy, build_hollowShard]
    decide +kernel
  cases flattens : flattenShard {} hollowShard "a[*]" "u" with
  | error error =>
      rw [flattens] at shown
      cases shown
  | ok flattening =>
      simp only [flattens, Except.toOption, Option.map_some, Option.some.injEq,
        Prod.mk.injEq] at shown
      exact ⟨flattening, rfl, shown⟩

end Flattening

end Unnest
