import Unnest.Proofs.EntryLevels
import Unnest.Proofs.RowCounts

/-!
# The layout covers every entry once

A layout covers the entries of rows when its leaves are these entries, its passes have the rows with
so many entries, and the runs of a pass cut its rows into stretches, each with the leaf that its
rows take there.  What the runs of all passes read is then every entry of every row, exactly once.
The layout of a shard covers the entries of its rows.
-/

namespace Unnest

namespace RowLayout

/-- What the runs of all passes read: each row with the leaf that it takes. -/
def readEntries (layout : RowLayout) : List (Int × IndexTuple) :=
  layout.passes.flatMap fun pass => pass.leafRows.flatMap fun run => run.rows.filterMap fun row =>
    layout.leaves[run.leaf]?.map fun tuple => (row, tuple)

/-- The layout has every entry of these rows, in passes and in runs of one leaf each.  The runs of a
pass cut the positions of its row list into ranges. -/
structure Covers (layout : RowLayout) (rows : List Int) (entriesOf : Int → List IndexTuple) :
    Prop where
  leavesAscending : Ascending layout.leaves
  leaves : ∀ tuple, tuple ∈ layout.leaves ↔ ∃ row ∈ rows, tuple ∈ entriesOf row
  passCount : ∀ number,
    number < layout.passes.length ↔ ∃ row ∈ rows, number < (entriesOf row).length
  passRows : ∀ (number : Nat) (pass : Pass), layout.passes[number]? = some pass →
    pass.rows = rows.filter (fun row => number < (entriesOf row).length) ∧
      pass.rows.Pairwise (· < ·)
  runRanges : ∀ pass ∈ layout.passes, LeafRun.Tile 0 pass.runs pass.rows.length
  runsDiffer : ∀ pass ∈ layout.passes,
    pass.runs.IsChain fun left right => left.leaf ≠ right.leaf
  runLeaves : ∀ (number : Nat) (pass : Pass), layout.passes[number]? = some pass →
    ∀ run ∈ pass.runs, ∃ leaf, layout.leaves[run.leaf]? = some leaf ∧
      ∀ position, run.first ≤ position → position < run.stop →
        ∃ row, pass.rows[position]? = some row ∧ (entriesOf row)[number]? = some leaf
  readOnce : layout.readEntries.Nodup
  reads : ∀ row tuple,
    (row, tuple) ∈ layout.readEntries ↔ row ∈ rows ∧ tuple ∈ entriesOf row
  outputRows : layout.outputRows = total (fun row => (entriesOf row).length) rows

/-! ## Rows -/

section Rows

variable {shard : Shard} {prefixes : List FieldPath}

theorem realizeRows_eq_ok {rows : List Int} {found : List RowEntries}
    (areRealized : realizeRows shard prefixes rows = .ok found) :
    found = rows.map (fun row => (row, shard.leafEntries prefixes row)) ∧
      ∀ row ∈ rows, ∃ realization, realize prefixes (lengthsAt shard row) = .ok realization ∧
        shard.leafEntries prefixes row = realization.leaf := by
  induction rows generalizing found with
  | nil =>
      cases areRealized
      exact ⟨rfl, by simp⟩
  | cons row rest inductionHypothesis =>
      rw [realizeRows] at areRealized
      split at areRealized
      · cases areRealized
      rename_i realization isRealized
      split at areRealized
      · cases areRealized
      rename_i others areOthers
      cases areRealized
      have isLeaf : shard.leafEntries prefixes row = realization.leaf := by
        rw [Shard.leafEntries, isRealized]
      rcases inductionHypothesis areOthers with ⟨shape, restRealized⟩
      constructor
      · rw [List.map_cons, isLeaf, shape]
      · exact List.forall_mem_cons.mpr ⟨⟨realization, isRealized, isLeaf⟩, restRealized⟩

/-- The entries of a row are those that it is realized into; where the length of the outermost array
is not stored there are none. -/
theorem entries_eq_ok {found : List RowEntries} (areFound : entries shard prefixes = .ok found) :
    found = shard.rowIds.map (fun row => (row, shard.leafEntries prefixes row)) ∧
      ∀ row ∈ shard.rowIds,
        if lacksRoot shard prefixes then shard.leafEntries prefixes row = []
        else ∃ realization, realize prefixes (lengthsAt shard row) = .ok realization ∧
          shard.leafEntries prefixes row = realization.leaf := by
  rw [entries] at areFound
  by_cases lacks : lacksRoot shard prefixes = true
  · rw [if_pos lacks] at areFound
    cases areFound
    simp [lacks, leafEntries_of_lacksRoot lacks]
  · rw [if_neg lacks] at areFound
    simpa [lacks] using realizeRows_eq_ok areFound

theorem nodup_leafEntries (row : Int) : (shard.leafEntries prefixes row).Nodup := by
  rw [Shard.leafEntries]
  cases isRealized : realize prefixes (lengthsAt shard row) with
  | error error => exact List.nodup_nil
  | ok realization => exact (ascending_leaf isRealized).nodup

theorem map_fst_passEntries (number : Nat) :
    (shard.passEntries prefixes number).map (·.1) =
      shard.rowIds.filter fun row => number < (shard.leafEntries prefixes row).length := by
  rw [Shard.passEntries]
  induction shard.rowIds with
  | nil => rfl
  | cons row rest inductionHypothesis =>
      by_cases isThere : number < (shard.leafEntries prefixes row).length
      · simp [isThere, inductionHypothesis]
      · simp [isThere, inductionHypothesis]

theorem lt_longestRow_iff (number : Nat) :
    number < shard.longestRow prefixes ↔
      ∃ row ∈ shard.rowIds, number < (shard.leafEntries prefixes row).length := by
  constructor
  · intro below
    rw [Shard.longestRow] at below
    cases isMax : (shard.rowIds.map fun row => (shard.leafEntries prefixes row).length).max? with
    | none =>
        rw [isMax] at below
        exact absurd below (Nat.not_lt_zero number)
    | some longest =>
        rw [isMax] at below
        rcases List.mem_map.mp (List.max?_mem isMax) with ⟨row, isRow, isLength⟩
        exact ⟨row, isRow, isLength ▸ below⟩
  · intro found
    rcases found with ⟨row, isRow, below⟩
    exact Nat.lt_of_lt_of_le below (Shard.length_leafEntries_le_longestRow isRow)

theorem mem_passEntries_iff (number : Nat) (row : Int) (tuple : IndexTuple) :
    (row, tuple) ∈ shard.passEntries prefixes number ↔
      row ∈ shard.rowIds ∧ (shard.leafEntries prefixes row)[number]? = some tuple := by
  rw [Shard.passEntries, List.mem_filterMap]
  constructor
  · intro found
    rcases found with ⟨other, isRow, isThere⟩
    rcases Option.map_eq_some_iff.mp isThere with ⟨other, isTuple, same⟩
    cases same
    exact ⟨isRow, isTuple⟩
  · intro found
    exact ⟨row, found.1, by rw [found.2]; rfl⟩

theorem mem_outputEntries_iff (row : Int) (tuple : IndexTuple) :
    (row, tuple) ∈ shard.outputEntries prefixes ↔
      row ∈ shard.rowIds ∧ tuple ∈ shard.leafEntries prefixes row := by
  constructor
  · exact Shard.mem_outputEntries
  · intro found
    rcases found with ⟨isRow, isTuple⟩
    rcases List.mem_iff_getElem?.mp isTuple with ⟨number, isThere⟩
    have below := (List.getElem?_eq_some_iff.mp isThere).1
    exact List.mem_flatMap.mpr ⟨number,
      List.mem_range.mpr ((lt_longestRow_iff number).mpr ⟨row, isRow, below⟩),
      (mem_passEntries_iff number row tuple).mpr ⟨isRow, isThere⟩⟩

/-- No entry is in two passes, since the entries of a row differ. -/
theorem nodup_outputEntries : (shard.outputEntries prefixes).Nodup := by
  rw [Shard.outputEntries, List.nodup_flatMap]
  constructor
  · -- The rows of a pass differ.
    intro number _
    apply List.Nodup.of_map (·.1)
    apply List.Pairwise.imp _ (ascending_passEntries shard prefixes number)
    intro left right below
    exact Int.ne_of_lt below
  · -- An entry has one place among the entries of its row, and this is the number of its pass.
    apply List.Pairwise.imp _ List.nodup_range
    intro left right different entry inLeft inRight
    rcases (mem_passEntries_iff left entry.1 entry.2).mp inLeft with ⟨_, atLeft⟩
    rcases (mem_passEntries_iff right entry.1 entry.2).mp inRight with ⟨_, atRight⟩
    rcases List.getElem?_eq_some_iff.mp atLeft with ⟨leftInside, _⟩
    exact different ((List.getElem?_inj leftInside (nodup_leafEntries entry.1)).mp
      (atLeft.trans atRight.symm))

end Rows

/-! ## The layout of a shard -/

namespace IsLayoutOf

variable {layout : RowLayout} {shard : Shard} {prefixes : List FieldPath}

/-- The runs of a pass read its entries back. -/
theorem read_leafRows (isLayout : layout.IsLayoutOf shard prefixes) {number : Nat} {pass : Pass}
    (takes : pass.Takes ((shard.passEntries prefixes number).map (leafCell layout.leaves))) :
    (pass.leafRows.flatMap fun run => run.rows.filterMap fun row =>
      layout.leaves[run.leaf]?.map fun tuple => (row, tuple)) =
        shard.passEntries prefixes number := by
  have readCells (run : LeafRows) :
      (run.rows.filterMap fun row => layout.leaves[run.leaf]?.map fun tuple => (row, tuple)) =
        run.cells.filterMap fun cell =>
          layout.leaves[cell.2]?.map fun tuple => (cell.1, tuple) := by
    rw [LeafRows.cells, List.filterMap_map]
    rfl
  have readEntry (entry : Int × IndexTuple) (member : entry ∈ shard.passEntries prefixes number) :
      (layout.leaves[layout.leaves.idxOf entry.2]?.map fun tuple => (entry.1, tuple)) =
        some entry := by
    have isLeaf := (isLayout.mem_leaves_iff entry.2).mpr ⟨entry.1, Shard.mem_passEntries member⟩
    rw [List.getElem?_idxOf isLeaf]
    rfl
  simp only [readCells]
  rw [← List.filterMap_flatMap, takes.flatMap_cells, List.filterMap_map]
  exact (List.filterMap_congr readEntry).trans List.filterMap_some

theorem readEntries_eq (isLayout : layout.IsLayoutOf shard prefixes) :
    layout.readEntries = shard.outputEntries prefixes := by
  have sameEntries : layout.readEntries = (shard.outputEntries prefixes).map id := by
    apply isLayout.flatMap_passes
    intro number pass takes
    rw [List.map_id]
    exact isLayout.read_leafRows takes
  rwa [List.map_id] at sameEntries

/-- The row at a position of a run takes its leaf. -/
theorem exists_leaf_of_run (isLayout : layout.IsLayoutOf shard prefixes) {number : Nat}
    {pass : Pass}
    (takes : pass.Takes ((shard.passEntries prefixes number).map (leafCell layout.leaves)))
    {run : LeafRun} (isRun : run ∈ pass.runs) :
    ∃ leaf, layout.leaves[run.leaf]? = some leaf ∧
      ∀ position, run.first ≤ position → position < run.stop →
        ∃ row, pass.rows[position]? = some row ∧
          (shard.leafEntries prefixes row)[number]? = some leaf := by
  have atPosition (position : Nat) (above : run.first ≤ position) (below : position < run.stop) :
      ∃ entry, (shard.passEntries prefixes number)[position]? = some entry ∧
        layout.leaves[run.leaf]? = some entry.2 := by
    have isLeaf := takes.leaves run isRun position above below
    rw [List.getElem?_map, Option.map_map] at isLeaf
    rcases Option.map_eq_some_iff.mp isLeaf with ⟨entry, isEntry, samePlace⟩
    have isMember := Shard.mem_passEntries (List.mem_of_getElem? isEntry)
    refine ⟨entry, isEntry, ?_⟩
    rw [← samePlace]
    exact List.getElem?_idxOf ((isLayout.mem_leaves_iff entry.2).mpr ⟨entry.1, isMember⟩)
  rcases atPosition run.first (Nat.le_refl _) (takes.ranges.lt_of_mem isRun) with
    ⟨first, _, isLeaf⟩
  refine ⟨first.2, isLeaf, ?_⟩
  intro position above below
  rcases atPosition position above below with ⟨entry, isEntry, entryLeaf⟩
  have sameLeaf : entry.2 = first.2 := Option.some.inj (entryLeaf.symm.trans isLeaf)
  refine ⟨entry.1, ?_, ?_⟩
  · rw [rowsOf_takes takes, List.getElem?_map, isEntry]
    rfl
  · rw [← sameLeaf]
    exact ((mem_passEntries_iff number entry.1 entry.2).mp (List.mem_of_getElem? isEntry)).2

/-- The layout has every entry of the rows of the shard. -/
theorem covers (isLayout : layout.IsLayoutOf shard prefixes) :
    layout.Covers shard.rowIds (shard.leafEntries prefixes) := by
  constructor
  case leavesAscending =>
      rw [isLayout.leaves]
      exact ascending_sortDistinct _
  case leaves => exact isLayout.mem_leaves_iff
  case passCount =>
      intro number
      rw [isLayout.length_passes, lt_longestRow_iff]
  case passRows =>
      intro number pass isPass
      rw [rowsOf_takes (isLayout.takes_of_pass isPass)]
      exact ⟨map_fst_passEntries number, ascending_passEntries shard prefixes number⟩
  case runRanges =>
      intro pass isPass
      rcases isLayout.exists_number isPass with ⟨number, takes⟩
      rw [takes.rows, List.length_map]
      exact takes.ranges
  case runsDiffer =>
      intro pass isPass
      rcases isLayout.exists_number isPass with ⟨number, takes⟩
      exact takes.runsDiffer
  case runLeaves =>
      intro number pass isPass run isRun
      exact isLayout.exists_leaf_of_run (isLayout.takes_of_pass isPass) isRun
  case readOnce =>
      rw [isLayout.readEntries_eq]
      exact nodup_outputEntries
  case reads =>
      rw [isLayout.readEntries_eq]
      exact mem_outputEntries_iff
  case outputRows =>
      simp only [isLayout.laysOut.outputRows_eq, Shard.length_outputEntries,
        Shard.length_leafEntries]

end IsLayoutOf

theorem build_eq_ok {shard : Shard} {prefixes : List FieldPath} {layout : RowLayout}
    (isBuilt : build shard prefixes = .ok layout) :
    layout.IsLayoutOf shard prefixes ∧ ∀ row ∈ shard.rowIds,
      if lacksRoot shard prefixes then shard.leafEntries prefixes row = []
      else ∃ realization, realize prefixes (lengthsAt shard row) = .ok realization ∧
        shard.leafEntries prefixes row = realization.leaf := by
  rw [build] at isBuilt
  split at isBuilt
  · cases isBuilt
  rename_i found areFound
  rcases entries_eq_ok areFound with ⟨shape, areEntries⟩
  rcases ofEntries_eq_ok shard prefixes shard.rowCount with ⟨laid, isLaid, isLayout⟩
  rw [shape, isLaid] at isBuilt
  exact ⟨Except.ok.inj isBuilt ▸ isLayout, areEntries⟩

/-- The layout of a shard covers the entries of its rows: those that a row is realized into, or none
if the length of the outermost array is not stored. -/
theorem build_covers {shard : Shard} {prefixes : List FieldPath} {layout : RowLayout}
    (isLayout : build shard prefixes = .ok layout) :
    (∀ row ∈ shard.rowIds,
      if lacksRoot shard prefixes then shard.leafEntries prefixes row = []
      else ∃ realization, realize prefixes (lengthsAt shard row) = .ok realization ∧
        shard.leafEntries prefixes row = realization.leaf) ∧
    layout.Covers shard.rowIds (shard.leafEntries prefixes) :=
  ⟨(build_eq_ok isLayout).2, (build_eq_ok isLayout).1.covers⟩

/-- Two rows with two entries each in the outer array, of which the first one of the second row is
empty. -/
def nestedShard : Shard :=
  ⟨"t", 5, 2, [
    ("a[0].b[length]", ⟨.long, .array #[0, 1], [Page.constant 5 1 1, Page.constant 6 1 0]⟩),
    ("a[1].b[length]", ⟨.long, .constant 1, [Page.constant 5 2 0]⟩),
    ("a[length]", ⟨.long, .constant 2, [Page.constant 5 2 0]⟩)]⟩

/-- The second row has no entry in the first inner array, so its first entry is another leaf. -/
def nestedLayout : RowLayout :=
  ⟨[[0, 0], [1, 0]], [⟨[5, 6], [⟨0, 0, 1⟩, ⟨1, 1, 2⟩]⟩, ⟨[5], [⟨1, 0, 1⟩]⟩], 2⟩

theorem build_covers_nestedShard :
    build nestedShard (FieldPath.repeatedPrefixes [⟨"a", .all⟩, ⟨"b", .all⟩]) =
        .ok nestedLayout ∧
      nestedLayout.Covers nestedShard.rowIds (nestedShard.leafEntries
        (FieldPath.repeatedPrefixes [⟨"a", .all⟩, ⟨"b", .all⟩])) ∧
      nestedLayout.readEntries = [(5, [0, 0]), (6, [1, 0]), (5, [1, 0])] := by
  have areFound :
      entries nestedShard (FieldPath.repeatedPrefixes [⟨"a", .all⟩, ⟨"b", .all⟩]) =
        .ok [(5, [[0, 0], [1, 0]]), (6, [[1, 0]])] := by
    decide +kernel
  have isLayout :
      build nestedShard (FieldPath.repeatedPrefixes [⟨"a", .all⟩, ⟨"b", .all⟩]) =
        .ok nestedLayout :=
    build_of_entries areFound (by decide) (by decide) (by decide) (by decide +kernel)
  exact ⟨isLayout, (build_covers isLayout).2, by decide⟩

end RowLayout

end Unnest
