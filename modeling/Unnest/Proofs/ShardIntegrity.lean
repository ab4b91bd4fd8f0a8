import Unnest.Proofs.ColumnIntegrity
import Unnest.Proofs.Loading

/-!
# Shards stay intact

A shard is intact when its columns are intact, cover the rows of the shard, and the dictionaries of
their pages ascend.  Loading makes such shards, and flattening, moving and restoring them keeps them
intact (`Shard.isIntact_of_every_step`).
-/

namespace Unnest

namespace Shard

/-- The pages of every column have rows, follow each other from the first row of the shard on and
hold as many rows as the shard has, every stored id resolves, and all dictionaries ascend. -/
structure IsIntact (shard : Shard) : Prop where
  ordered : OrderedMap.IsOrdered shard.columns
  columns : ∀ entry ∈ shard.columns, entry.2.IsIntact shard.lowestRow shard.rowCount
  ascendingPages : ∀ entry ∈ shard.columns, entry.2.HasAscendingPages

theorem IsIntact.isSome_valueAt?_iff {shard : Shard} (intact : shard.IsIntact) {name : String}
    {column : Column} (isColumn : shard.column? name = some column) (row : Int) :
    (column.valueAt? row).isSome = true ↔
      shard.lowestRow ≤ row ∧ row < shard.lowestRow + shard.rowCount :=
  (intact.columns _ (OrderedMap.mem_of_find? isColumn)).isSome_valueAt?_iff row

theorem IsAssembledFrom.isIntact {shard : Shard} {table : String} {lowestRow : Int}
    {entries : List (String × Column)} (assembled : shard.IsAssembledFrom table lowestRow entries)
    (areIntact : ∀ entry ∈ entries, ∃ rowCount, entry.2.IsIntact lowestRow rowCount ∧
      entry.2.HasAscendingPages) : shard.IsIntact := by
  have isEntry : ∀ entry ∈ shard.columns, entry ∈ entries := by
    intro entry isColumn
    rw [assembled.columns] at isColumn
    exact OrderedMap.mem_of_mem_ofEntries isColumn
  refine ⟨assembled.columns ▸ OrderedMap.isOrdered_ofEntries entries, ?_, ?_⟩
  · intro entry isColumn
    obtain ⟨rowCount, intact, _⟩ := areIntact entry (isEntry entry isColumn)
    have sameCount := assembled.aligned entry (isEntry entry isColumn)
    rw [assembled.lowestRow, ← sameCount, intact.covers]
    exact intact
  · intro entry isColumn
    obtain ⟨rowCount, _, ascendingPages⟩ := areIntact entry (isEntry entry isColumn)
    exact ascendingPages

end Shard

/-! ## Loading -/

namespace Document

theorem isIntact_of_columnsAt {settings : FlattenSettings} {lowestRow : Int} {rows : List Row}
    {names : List String} {columns : List (String × Column)}
    (areColumns : columnsAt settings lowestRow rows names = .ok columns) :
    ∀ entry ∈ columns, ∃ rowCount, entry.2.IsIntact lowestRow rowCount ∧
      entry.2.HasAscendingPages := by
  have outcome := columnsAt_outcome settings lowestRow rows names
  rw [areColumns] at outcome
  cases outcome with
  | success _ isMap =>
      subst isMap
      intro entry isEntry
      obtain ⟨name, _, rfl⟩ := List.mem_map.mp isEntry
      exact ⟨_, Column.isIntact_ofScalars _ lowestRow _ _⟩

theorem isIntact_of_loadShard {settings : FlattenSettings} {table : String} {lowestRow : Int}
    {documents : List Json} {shard : Shard}
    (loads : loadShard settings table lowestRow documents = .ok shard) : shard.IsIntact := by
  rw [loadShard] at loads
  split at loads
  · cases loads
  · split at loads
    · cases loads
    · rename_i columns areColumns
      exact (Shard.isAssembledFrom_of_assemble loads).isIntact (isIntact_of_columnsAt areColumns)

end Document

/-! ## Flattening -/

/-- The plan keeps a column, or reads one column for each of the leaves. -/
inductive ColumnPlan.IsAlong (leaves : List IndexTuple) : ColumnPlan → Prop where
  | keep (name : String) : IsAlong leaves (.keep name)
  | flatten (output : String) (kind : ScalarType) (isLength : Bool)
      (nameOf : IndexTuple → String) :
      IsAlong leaves (.flatten output kind isLength (leaves.map nameOf))

namespace Flattening

theorem isAlong_of_keepAll {leaf : FieldPath}
    {flattened : OrderedMap String (FieldPath × ScalarType)} {names : List String}
    {plans : List ColumnPlan} (isPlanned : ColumnClasses.keepAll leaf flattened names = .ok plans)
    (leaves : List IndexTuple) : ∀ plan ∈ plans, plan.IsAlong leaves := by
  induction names generalizing plans with
  | nil =>
      cases isPlanned
      simp
  | cons name rest inductionHypothesis =>
      rw [ColumnClasses.keepAll] at isPlanned
      split at isPlanned
      · cases isPlanned
      · split at isPlanned
        · cases isPlanned
        · rename_i others areOthers
          cases isPlanned
          intro plan member
          rcases List.mem_cons.mp member with rfl | inRest
          · exact .keep name
          · exact inductionHypothesis areOthers plan inRest

theorem isAlong_of_classifyColumns {shard : Shard} {prefixes : List FieldPath}
    {leaves : List IndexTuple} {plans : List ColumnPlan}
    (isPlanned : classifyColumns shard prefixes leaves = .ok plans) :
    ∀ plan ∈ plans, plan.IsAlong leaves := by
  rw [classifyColumns] at isPlanned
  split at isPlanned
  · cases isPlanned
    simp
  · split at isPlanned
    · cases isPlanned
    · split at isPlanned
      · cases isPlanned
      · rename_i kept areKept
        cases isPlanned
        intro plan member
        rcases List.mem_append.mp member with isKeep | isFlatten
        · exact isAlong_of_keepAll areKept leaves plan isKeep
        · obtain ⟨⟨output, rest, kind⟩, _, rfl⟩ := List.mem_map.mp isFlatten
          exact .flatten output kind rest.isLengthColumn _

theorem isIntact_of_buildColumn {settings : FlattenSettings} {shard : Shard}
    (intact : shard.IsIntact) {layout : RowLayout} {entries : List (Int × IndexTuple)}
    (laysOut : layout.LaysOut shard entries) {plan : ColumnPlan}
    (isAlong : plan.IsAlong layout.leaves) {built : OutputColumn}
    (isBuilt : buildColumn settings shard layout plan = .ok built) :
    built.column.IsIntact shard.lowestRow entries.length ∧ built.column.HasAscendingPages := by
  cases isAlong with
  | keep name =>
      rw [buildColumn] at isBuilt
      split at isBuilt
      · rename_i column isColumn
        have isMember := OrderedMap.mem_of_find? isColumn
        exact isIntact_of_keepColumn laysOut (intact.columns _ isMember)
          (intact.ascendingPages _ isMember) isBuilt
      · cases isBuilt
  | flatten output kind isLength nameOf =>
      exact isIntact_of_flattenColumn intact.columns intact.ascendingPages laysOut isBuilt

theorem isIntact_of_flattenShardBy {settings : FlattenSettings} {shard : Shard}
    (intact : shard.IsIntact) {target : FieldPath} (isTarget : target.IsTarget) {output : String}
    {flattening : ShardFlattening}
    (flattens : flattenShardBy settings shard target output = .ok flattening) :
    flattening.shard.IsIntact := by
  obtain ⟨layout, plans, columns, isLayout, isPlanned, areBuilt, assembled, _⟩ :=
    exists_columns_of_flattenShardBy flattens
  have laysOut := RowLayout.laysOut_of_build (FieldPath.repeatedPrefixes_ne_nil isTarget.ends)
    isLayout
  apply assembled.isIntact
  intro entry isEntry
  obtain ⟨built, isMember, rfl⟩ := mem_namedColumns.mp isEntry
  obtain ⟨plan, isPlan, isBuilt⟩ := exists_plan_of_buildColumns areBuilt built isMember
  exact ⟨_, isIntact_of_buildColumn intact laysOut
    (isAlong_of_classifyColumns isPlanned plan isPlan) isBuilt⟩

theorem isIntact_of_flattenShard {settings : FlattenSettings} {shard : Shard}
    (intact : shard.IsIntact) {flattenBy output : String} {flattening : ShardFlattening}
    (flattens : flattenShard settings shard flattenBy output = .ok flattening) :
    flattening.shard.IsIntact := by
  rw [flattenShard] at flattens
  split at flattens
  · cases flattens
  · rename_i target accepted
    exact isIntact_of_flattenShardBy intact (isTarget_of_readTarget accepted) flattens

end Flattening

/-! ## Moving -/

namespace ShardCopy

theorem isIntact_startingAt {shard : Shard} (intact : shard.IsIntact) (firstRow : Int) :
    (shard.startingAt firstRow).IsIntact := by
  rw [Shard.startingAt]
  dsimp only
  split
  · exact intact
  · have moved : shard.lowestRow + (firstRow - shard.lowestRow) = firstRow := by omega
    constructor
    · exact List.pairwise_map.mpr intact.ordered
    · intro entry isEntry
      obtain ⟨before, wasEntry, rfl⟩ := List.mem_map.mp isEntry
      have shifted := (intact.columns before wasEntry).shift (firstRow - shard.lowestRow)
      rwa [moved] at shifted
    · intro entry isEntry
      obtain ⟨before, wasEntry, rfl⟩ := List.mem_map.mp isEntry
      exact (intact.ascendingPages before wasEntry).shift _

theorem isIntact_moveTo {copy : ShardCopy} (intact : copy.shard.IsIntact) (firstRows : List Int) :
    (firstRows.foldl moveTo copy).shard.IsIntact := by
  induction firstRows generalizing copy with
  | nil => exact intact
  | cons firstRow rest inductionHypothesis =>
      exact inductionHypothesis (isIntact_startingAt intact firstRow)

end ShardCopy

/-! ## Restoring -/

namespace ShardSnapshot

theorem restoreColumns_capture {columns : List (String × Column)}
    (ascending : ∀ entry ∈ columns, entry.2.dictionary.IsAscending) :
    restoreColumns (columns.map fun (name, column) => ColumnSnapshot.capture name column) =
      .ok (columns.map fun (name, column) => (name, column.encodedAgain)) := by
  induction columns with
  | nil => rfl
  | cons entry rest inductionHypothesis =>
      have first := ColumnSnapshot.restore_capture (ascending entry List.mem_cons_self) entry.1
      have others := inductionHypothesis fun other member =>
        ascending other (List.mem_cons_of_mem _ member)
      simp only [List.map_cons, restoreColumns, first, others]

theorem restore_capture {shard : Shard} (intact : shard.IsIntact) :
    ∃ restored, (capture shard).restore = .ok restored ∧ restored.IsIntact := by
  have areRestored := restoreColumns_capture fun entry isEntry =>
    (intact.columns entry isEntry).ascending
  let columns := shard.columns.map fun (name, column) => (name, column.encodedAgain)
  have areIntact : ∀ entry ∈ columns, entry.2.IsIntact shard.lowestRow shard.rowCount ∧
      entry.2.HasAscendingPages := by
    intro entry isEntry
    obtain ⟨before, wasEntry, rfl⟩ := List.mem_map.mp isEntry
    exact (intact.columns before wasEntry).encodedAgain
  have covers : ∀ entry ∈ columns, ∃ values, entry.2.Shows shard.lowestRow values ∧
      values.length = shard.rowCount := by
    intro entry isEntry
    obtain ⟨scalars, reads, sameLength⟩ := (areIntact entry isEntry).1.exists_reads
    exact ⟨_, ⟨scalars, reads, rfl⟩, by rw [List.length_map, sameLength]⟩
  have assembled := Shard.assemble_eq_ok shard.table covers
  refine ⟨_, by simp only [restore, capture, areRestored]; exact assembled, ?_⟩
  exact (Shard.isAssembledFrom_of_assemble assembled).isIntact
    fun entry isEntry => ⟨_, areIntact entry isEntry⟩

theorem restoreAll_capture {shards : List Shard} (intact : ∀ shard ∈ shards, shard.IsIntact) :
    ∃ restored, restoreAll (shards.map capture) = .ok restored ∧
      ∀ shard ∈ restored, shard.IsIntact := by
  induction shards with
  | nil => exact ⟨[], rfl, by simp⟩
  | cons shard rest inductionHypothesis =>
      obtain ⟨first, isFirst, firstIntact⟩ := restore_capture (intact shard List.mem_cons_self)
      obtain ⟨others, areOthers, othersIntact⟩ := inductionHypothesis
        fun other member => intact other (List.mem_cons_of_mem _ member)
      refine ⟨first :: others, by simp only [List.map_cons, restoreAll, isFirst, areOthers], ?_⟩
      intro other member
      rcases List.mem_cons.mp member with rfl | inRest
      · exact firstIntact
      · exact othersIntact other inRest

end ShardSnapshot

theorem Snapshot.restore_capture {table : FlattenedTable}
    (intact : ∀ shard ∈ table.shards, shard.IsIntact) (createdSeconds : UInt64) :
    ∃ restored, (Snapshot.capture table createdSeconds).restore = .ok restored ∧
      ∀ shard ∈ restored.shards, shard.IsIntact := by
  obtain ⟨shards, areRestored, restoredIntact⟩ := ShardSnapshot.restoreAll_capture intact
  refine ⟨_, by simp only [restore, capture, areRestored]; rfl, ?_⟩
  intro shard isShard
  exact restoredIntact shard (List.mem_mergeSort.mp isShard)

/-! ## Every step -/

namespace Shard

/-- Shards that are loaded, and what flattening, moving and restoring makes of them. -/
inductive IsReachable : Shard → Prop where
  | loaded {settings : FlattenSettings} {table : String} {lowestRow : Int}
      {documents : List Json} {shard : Shard}
      (loads : Document.loadShard settings table lowestRow documents = .ok shard) :
      IsReachable shard
  | flattened {settings : FlattenSettings} {shard : Shard} {flattenBy output : String}
      {flattening : ShardFlattening} (isReachable : IsReachable shard)
      (flattens : Flattening.flattenShard settings shard flattenBy output = .ok flattening) :
      IsReachable flattening.shard
  | moved {shard : Shard} (isReachable : IsReachable shard) (firstRows : List Int) :
      IsReachable (firstRows.foldl ShardCopy.moveTo (ShardCopy.ofShard shard)).shard
  | restored {table restored : FlattenedTable} {createdSeconds : UInt64} {shard : Shard}
      (areReachable : ∀ before ∈ table.shards, IsReachable before)
      (isRestored : (Snapshot.capture table createdSeconds).restore = .ok restored)
      (isShard : shard ∈ restored.shards) : IsReachable shard

theorem IsReachable.isIntact {shard : Shard} (isReachable : shard.IsReachable) :
    shard.IsIntact := by
  induction isReachable with
  | loaded loads => exact Document.isIntact_of_loadShard loads
  | flattened _ flattens wasIntact => exact Flattening.isIntact_of_flattenShard wasIntact flattens
  | moved _ firstRows wasIntact => exact ShardCopy.isIntact_moveTo wasIntact firstRows
  | restored _ isRestored isShard wereIntact =>
      obtain ⟨again, isAgain, againIntact⟩ := Snapshot.restore_capture wereIntact _
      rw [isRestored] at isAgain
      cases isAgain
      exact againIntact _ isShard

end Shard

end Unnest
