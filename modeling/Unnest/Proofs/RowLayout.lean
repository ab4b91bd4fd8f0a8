import Mathlib.Data.List.Chain
import Unnest.Flattening.Layout
import Unnest.Proofs.Ascending
import Unnest.Proofs.OrderedMap
import Unnest.Proofs.Realization

/-!
# The layout of the output rows

The entries of a shard, pass by pass, are the list of its output rows: pass `k` takes entry number
`k` of every row that has so many.  A layout names each of them by its row and the place of its
entry among the leaves.  The rows of a pass and of a run are ascending rows of the shard, so that
they can be cut out of its pages.
-/

namespace Unnest

namespace Shard

theorem mem_rowIds {shard : Shard} {row : Int} :
    row ∈ shard.rowIds ↔
      ∃ offset : Nat, offset < shard.rowCount ∧ row = shard.lowestRow + offset := by
  simp only [rowIds, List.mem_map, List.mem_range]
  exact exists_congr fun offset => and_congr_right fun _ => eq_comm

theorem ascending_rowIds (shard : Shard) : shard.rowIds.Pairwise (· < ·) := by
  rw [rowIds, List.pairwise_map]
  apply List.Pairwise.imp _ List.pairwise_lt_range
  intro left right below
  omega

/-- The entries that a row is realized into; none if a length is missing. -/
def leafEntries (shard : Shard) (prefixes : List FieldPath) (row : Int) : List IndexTuple :=
  match realize prefixes (RowLayout.lengthsAt shard row) with
  | .ok realization => realization.leaf
  | .error _ => []

/-- The largest number of entries of a row. -/
def longestRow (shard : Shard) (prefixes : List FieldPath) : Nat :=
  (shard.rowIds.map fun row => (shard.leafEntries prefixes row).length).max?.getD 0

/-- Entry number `pass` of every row that has so many. -/
def passEntries (shard : Shard) (prefixes : List FieldPath) (pass : Nat) :
    List (Int × IndexTuple) :=
  shard.rowIds.filterMap fun row =>
    (shard.leafEntries prefixes row)[pass]?.map fun tuple => (row, tuple)

/-- The entries of all rows, pass by pass: one for each output row. -/
def outputEntries (shard : Shard) (prefixes : List FieldPath) : List (Int × IndexTuple) :=
  (List.range (shard.longestRow prefixes)).flatMap (shard.passEntries prefixes)

/-- The outermost array has a length column, and a row lacks the length `name`, which an entry of it
needs next. -/
def LacksEntryLength (shard : Shard) (prefixes : List FieldPath) (name : String) : Prop :=
  (∃ root, prefixes.head? = some root ∧
    (shard.column? (lengthColumnName root [])).isSome = true) ∧
  ∃ row ∈ shard.rowIds, LacksLength (RowLayout.lengthsAt shard row) prefixes name

theorem mem_passEntries {shard : Shard} {prefixes : List FieldPath} {pass : Nat}
    {entry : Int × IndexTuple} (member : entry ∈ shard.passEntries prefixes pass) :
    entry.1 ∈ shard.rowIds ∧ entry.2 ∈ shard.leafEntries prefixes entry.1 := by
  obtain ⟨row, isRow, isThere⟩ := List.mem_filterMap.mp member
  obtain ⟨tuple, isTuple, rfl⟩ := Option.map_eq_some_iff.mp isThere
  exact ⟨isRow, List.mem_of_getElem? isTuple⟩

theorem mem_outputEntries {shard : Shard} {prefixes : List FieldPath}
    {entry : Int × IndexTuple} (member : entry ∈ shard.outputEntries prefixes) :
    entry.1 ∈ shard.rowIds ∧ entry.2 ∈ shard.leafEntries prefixes entry.1 := by
  obtain ⟨pass, _, inPass⟩ := List.mem_flatMap.mp member
  exact mem_passEntries inPass

end Shard

/-- The rows of a run, each with the leaf that it takes. -/
def LeafRows.cells (run : LeafRows) : List (Int × Nat) :=
  run.rows.map fun row => (row, run.leaf)

/-! ## Ranges -/

namespace LeafRun

/-- The ranges of the runs follow each other from position `start` up to `stop`, and none of them is
empty. -/
def Tile (start : Nat) : List LeafRun → Nat → Prop
  | [], stop => start = stop
  | run :: rest, stop => run.first = start ∧ start < run.stop ∧ Tile run.stop rest stop

theorem Tile.le {start stop : Nat} {runs : List LeafRun} (tile : Tile start runs stop) :
    start ≤ stop := by
  induction runs generalizing start with
  | nil => exact Nat.le_of_eq tile
  | cons run rest inductionHypothesis =>
      rcases tile with ⟨_, notEmpty, restTile⟩
      exact (Nat.le_of_lt notEmpty).trans (inductionHypothesis restTile)

theorem Tile.lt_of_mem {start stop : Nat} {runs : List LeafRun} (tile : Tile start runs stop)
    {run : LeafRun} (isRun : run ∈ runs) : run.first < run.stop := by
  induction runs generalizing start with
  | nil => cases isRun
  | cons first rest inductionHypothesis =>
      rcases tile with ⟨isFirst, notEmpty, restTile⟩
      rcases List.mem_cons.mp isRun with isHere | isLater
      · rw [isHere, isFirst]
        exact notEmpty
      · exact inductionHypothesis restTile isLater

theorem tile_concat {start stop : Nat} {runs : List LeafRun} {last : LeafRun} :
    Tile start (runs ++ [last]) stop ↔
      Tile start runs last.first ∧ last.first < last.stop ∧ last.stop = stop := by
  induction runs generalizing start with
  | nil =>
      simp only [List.nil_append, Tile]
      constructor
      · intro tile
        rcases tile with ⟨isFirst, notEmpty, isStop⟩
        exact ⟨isFirst.symm, isFirst ▸ notEmpty, isStop⟩
      · intro tile
        rcases tile with ⟨isFirst, notEmpty, isStop⟩
        exact ⟨isFirst.symm, isFirst ▸ notEmpty, isStop⟩
  | cons run rest inductionHypothesis =>
      simp only [List.cons_append, Tile, inductionHypothesis, and_assoc]

/-- What is read along the ranges is the whole stretch that they tile. -/
theorem Tile.flatMap_extract {α : Type} (items : List α) {start stop : Nat} {runs : List LeafRun}
    (tile : Tile start runs stop) :
    (runs.flatMap fun run => items.extract run.first run.stop) = items.extract start stop := by
  induction runs generalizing start with
  | nil =>
      rw [show start = stop from tile]
      simp
  | cons run rest inductionHypothesis =>
      rcases tile with ⟨isFirst, notEmpty, restTile⟩
      have whole : stop - start = (run.stop - start) + (stop - run.stop) := by
        have := restTile.le
        omega
      have next : start + (run.stop - start) = run.stop := by omega
      rw [List.flatMap_cons, inductionHypothesis restTile, isFirst]
      simp only [List.extract_eq_take_drop]
      rw [whole, List.take_add, List.drop_drop, next]

end LeafRun

/-! ## Passes -/

/-- The pass has these rows, in runs of one leaf each. -/
structure Pass.Takes (pass : Pass) (taken : List (Int × Nat)) : Prop where
  rows : pass.rows = taken.map (·.1)
  ranges : LeafRun.Tile 0 pass.runs taken.length
  runsDiffer : pass.runs.IsChain fun left right => left.leaf ≠ right.leaf
  leaves : ∀ run ∈ pass.runs, ∀ position, run.first ≤ position → position < run.stop →
    taken[position]?.map (·.2) = some run.leaf

namespace Pass.Takes

variable {pass : Pass} {taken : List (Int × Nat)}

theorem rows_append (takes : pass.Takes taken) (row : Int) (leaf : Nat) :
    pass.rows ++ [row] = (taken ++ [(row, leaf)]).map (·.1) := by
  rw [takes.rows, List.map_append, List.map_singleton]

/-- What a run has taken stays where it is. -/
theorem leaves_append (takes : pass.Takes taken) (next : Int × Nat) {run : LeafRun}
    (isRun : run ∈ pass.runs) {position : Nat} (above : run.first ≤ position)
    (below : position < run.stop) :
    (taken ++ [next])[position]?.map (·.2) = some run.leaf := by
  have isLeaf := takes.leaves run isRun position above below
  rcases Option.map_eq_some_iff.mp isLeaf with ⟨cell, isCell, _⟩
  rwa [List.getElem?_append_left (List.getElem?_eq_some_iff.mp isCell).1]

/-- A row starts a run, if the last run is of another leaf. -/
theorem startRun (takes : pass.Takes taken) (row : Int) (leaf : Nat)
    (isOther : ∀ last ∈ pass.runs.getLast?, last.leaf ≠ leaf) :
    Pass.Takes
      ⟨pass.rows ++ [row], pass.runs ++ [⟨leaf, taken.length, taken.length + 1⟩]⟩
      (taken ++ [(row, leaf)]) where
  rows := takes.rows_append row leaf
  ranges := by
    rw [LeafRun.tile_concat]
    exact ⟨takes.ranges, Nat.lt_succ_self _, by simp⟩
  runsDiffer := by
    refine List.isChain_append.mpr ⟨takes.runsDiffer, List.IsChain.singleton _, ?_⟩
    intro last isLast started isStarted
    rw [← Option.some.inj isStarted]
    exact isOther last isLast
  leaves := by
    intro run isRun position above below
    rcases List.mem_append.mp isRun with isOld | isNew
    · exact takes.leaves_append _ isOld above below
    · rw [List.mem_singleton.mp isNew] at above below ⊢
      have isPlace : position = taken.length := Nat.le_antisymm (Nat.lt_succ_iff.mp below) above
      rw [isPlace, List.getElem?_concat_length, Option.map_some]

/-- The last run grows by a row of its leaf. -/
theorem growRun (takes : pass.Takes taken) {earlier : List LeafRun} {last : LeafRun}
    (areRuns : pass.runs = earlier ++ [last]) (row : Int) :
    Pass.Takes ⟨pass.rows ++ [row], earlier ++ [{ last with stop := last.stop + 1 }]⟩
      (taken ++ [(row, last.leaf)]) := by
  have ranges := takes.ranges
  have runsDiffer := takes.runsDiffer
  rw [areRuns, LeafRun.tile_concat] at ranges
  rw [areRuns, List.isChain_append] at runsDiffer
  rcases ranges with ⟨earlierTile, notEmpty, isStop⟩
  constructor
  case rows => exact takes.rows_append row last.leaf
  case ranges =>
    rw [LeafRun.tile_concat]
    exact ⟨earlierTile, Nat.lt_succ_of_lt notEmpty, by simp [isStop]⟩
  case runsDiffer =>
    rw [List.isChain_append]
    simpa using runsDiffer
  case leaves =>
    intro run isRun position above below
    rcases List.mem_append.mp isRun with isEarlier | isLast
    · have wasRun : run ∈ pass.runs := areRuns ▸ List.mem_append_left _ isEarlier
      exact takes.leaves_append _ wasRun above below
    · rw [List.mem_singleton.mp isLast] at above below ⊢
      rcases Nat.lt_succ_iff_lt_or_eq.mp below with isOld | isNew
      · have wasRun : last ∈ pass.runs :=
          areRuns ▸ List.mem_append_right _ (List.mem_singleton_self last)
        exact takes.leaves_append _ wasRun above isOld
      · rw [isNew, isStop, List.getElem?_concat_length, Option.map_some]

end Pass.Takes

theorem PassBuilder.takes_empty : (PassBuilder.build {}).Takes [] :=
  ⟨rfl, rfl, List.IsChain.nil, nofun⟩

/-- A row that is added is the last one of the pass, in a run of its leaf. -/
theorem PassBuilder.takes_push {builder : PassBuilder} {taken : List (Int × Nat)}
    (takes : builder.build.Takes taken) (row : Int) (leaf : Nat) :
    (builder.push row leaf).build.Takes (taken ++ [(row, leaf)]) := by
  rcases builder with ⟨reversedRows, reversedRuns⟩
  have position : reversedRows.length = taken.length := by
    simpa [build] using congrArg List.length takes.rows
  cases reversedRuns with
  | nil =>
      have started := takes.startRun row leaf (by simp [build])
      simpa [push, build, position] using started
  | cons last earlier =>
      by_cases sameLeaf : last.leaf = leaf
      · have grown := takes.growRun List.reverse_cons row
        simpa [push, build, sameLeaf] using grown
      · have started := takes.startRun row leaf (by simpa [build] using sameLeaf)
        simpa [push, build, sameLeaf, position] using started

namespace Pass.Takes

variable {pass : Pass} {taken : List (Int × Nat)}

/-- The rows of a run, with its leaf, are a stretch of what the pass takes. -/
theorem cells_extract (takes : pass.Takes taken) {run : LeafRun} (isRun : run ∈ pass.runs) :
    (LeafRows.mk run.leaf (pass.rows.extract run.first run.stop)).cells =
      taken.extract run.first run.stop := by
  rw [LeafRows.cells, takes.rows]
  apply List.ext_getElem?
  intro offset
  simp only [List.extract_eq_take_drop, List.getElem?_map, List.getElem?_take, List.getElem?_drop]
  by_cases inside : offset < run.stop - run.first
  · rw [if_pos inside, if_pos inside]
    have isLeaf := takes.leaves run isRun (run.first + offset) (by omega) (by omega)
    rcases Option.map_eq_some_iff.mp isLeaf with ⟨cell, isCell, sameLeaf⟩
    rw [isCell, ← sameLeaf]
    rfl
  · rw [if_neg inside, if_neg inside]
    rfl

/-- A run has a row, so its leaf is one that the pass takes. -/
theorem exists_cell_of_run (takes : pass.Takes taken) {run : LeafRun} (isRun : run ∈ pass.runs) :
    ∃ row, (row, run.leaf) ∈ taken := by
  have isLeaf := takes.leaves run isRun run.first (Nat.le_refl _) (takes.ranges.lt_of_mem isRun)
  rcases Option.map_eq_some_iff.mp isLeaf with ⟨cell, isCell, sameLeaf⟩
  rw [← sameLeaf]
  exact ⟨cell.1, List.mem_of_getElem? isCell⟩

theorem flatMap_cells (takes : pass.Takes taken) :
    pass.leafRows.flatMap LeafRows.cells = taken := by
  rw [Pass.leafRows, List.flatMap_map]
  have sameCells : (pass.runs.flatMap fun run =>
      (LeafRows.mk run.leaf (pass.rows.extract run.first run.stop)).cells) =
        pass.runs.flatMap fun run => taken.extract run.first run.stop :=
    List.flatMap_congr fun run isRun => takes.cells_extract isRun
  rw [sameCells, takes.ranges.flatMap_extract]
  simp [List.extract_eq_take_drop]

end Pass.Takes

namespace RowLayout

/-! ## Entries -/

/-- Without the length of the outermost array no row has entries. -/
theorem leafEntries_of_lacksRoot {shard : Shard} {prefixes : List FieldPath}
    (lacks : lacksRoot shard prefixes = true) (row : Int) :
    shard.leafEntries prefixes row = [] := by
  cases prefixes with
  | nil => simp [lacksRoot] at lacks
  | cons root deeper =>
      have noColumn : shard.column? (lengthColumnName root []) = none := by
        simpa [lacksRoot] using lacks
      have lacksLength : LacksLength (lengthsAt shard row) (root :: deeper)
          (lengthColumnName root []) :=
        ⟨[], root, deeper, [], rfl, Realizes.root, rfl, by simp [lengthsAt, noColumn]⟩
      rw [Shard.leafEntries]
      rcases realize_outcome (List.cons_ne_nil root deeper) (lengthsAt shard row) with
        ⟨_, _, nothingLacks, _⟩ | ⟨name, _, fails⟩
      · exact absurd ⟨_, lacksLength⟩ nothingLacks
      · rw [fails]

theorem realizeRows_outcome {shard : Shard} {prefixes : List FieldPath} (notEmpty : prefixes ≠ [])
    (rows : List Int) :
    (realizeRows shard prefixes rows =
        .ok (rows.map fun row => (row, shard.leafEntries prefixes row)) ∧
      ∀ row ∈ rows, ¬ ∃ name, LacksLength (lengthsAt shard row) prefixes name) ∨
    ∃ name, (∃ row ∈ rows, LacksLength (lengthsAt shard row) prefixes name) ∧
      realizeRows shard prefixes rows = .error (.missingLengthColumn name) := by
  induction rows with
  | nil => exact Or.inl ⟨rfl, by simp⟩
  | cons row rest inductionHypothesis =>
      rcases realize_outcome notEmpty (lengthsAt shard row) with
        ⟨realization, isRealized, nothingLacks, _⟩ | ⟨name, lacks, fails⟩
      · have isLeaf : shard.leafEntries prefixes row = realization.leaf := by
          rw [Shard.leafEntries, isRealized]
        rcases inductionHypothesis with ⟨restRealized, restLacks⟩ | ⟨name, lacks, fails⟩
        · refine Or.inl ⟨by simp [realizeRows, isRealized, restRealized, isLeaf], ?_⟩
          intro other member
          rcases List.mem_cons.mp member with rfl | inRest
          · exact nothingLacks
          · exact restLacks other inRest
        · obtain ⟨other, member, otherLacks⟩ := lacks
          refine Or.inr ⟨name, ⟨other, List.mem_cons_of_mem _ member, otherLacks⟩, ?_⟩
          simp [realizeRows, isRealized, fails]
      · exact Or.inr ⟨name, ⟨row, List.mem_cons_self, lacks⟩, by simp [realizeRows, fails]⟩

/-- The entries of all rows are found, unless a length is missing. -/
theorem entries_outcome (shard : Shard) {prefixes : List FieldPath} (notEmpty : prefixes ≠ []) :
    (entries shard prefixes =
        .ok (shard.rowIds.map fun row => (row, shard.leafEntries prefixes row)) ∧
      ¬ ∃ name, shard.LacksEntryLength prefixes name) ∨
    ∃ name, shard.LacksEntryLength prefixes name ∧
      entries shard prefixes = .error (.missingLengthColumn name) := by
  obtain ⟨root, deeper, rfl⟩ := List.exists_cons_of_ne_nil notEmpty
  unfold entries
  by_cases lacks : lacksRoot shard (root :: deeper) = true
  · rw [if_pos lacks]
    refine Or.inl ⟨?_, ?_⟩
    · simp only [leafEntries_of_lacksRoot lacks]
    · rintro ⟨name, ⟨first, isFirst, isThere⟩, _⟩
      cases isFirst
      have isAbsent : shard.column? (lengthColumnName root []) = none := by
        simpa [lacksRoot] using lacks
      rw [isAbsent] at isThere
      cases isThere
  · rw [if_neg lacks]
    have rootThere : ∃ first, (root :: deeper).head? = some first ∧
        (shard.column? (lengthColumnName first [])).isSome = true := by
      refine ⟨root, rfl, ?_⟩
      rw [Option.isSome_iff_ne_none]
      simpa [lacksRoot] using lacks
    rcases realizeRows_outcome notEmpty shard.rowIds with ⟨isRealized, nothingLacks⟩ |
      ⟨name, lacksLength, fails⟩
    · refine Or.inl ⟨isRealized, ?_⟩
      rintro ⟨name, _, row, isRow, rowLacks⟩
      exact nothingLacks row isRow ⟨name, rowLacks⟩
    · exact Or.inr ⟨name, ⟨rootThere, lacksLength⟩, fails⟩

/-! ## The layout -/

/-- The layout lays out these entries, each a row of the shard with one of its leaves. -/
structure LaysOut (layout : RowLayout) (shard : Shard) (entries : List (Int × IndexTuple)) :
    Prop where
  passRows : layout.passes.flatMap Pass.rows = entries.map (·.1)
  runCells : (layout.passes.flatMap Pass.leafRows).flatMap LeafRows.cells =
    entries.map fun entry => (entry.1, layout.leaves.idxOf entry.2)
  passAscending : ∀ pass ∈ layout.passes, pass.rows.Pairwise (· < ·)
  runAscending : ∀ run ∈ layout.passes.flatMap Pass.leafRows, run.rows.Pairwise (· < ·)
  runLeaves : ∀ run ∈ layout.passes.flatMap Pass.leafRows, run.leaf < layout.leaves.length
  rows : ∀ entry ∈ entries, entry.1 ∈ shard.rowIds
  leaves : ∀ entry ∈ entries, entry.2 ∈ layout.leaves

theorem LaysOut.mem_rowIds_of_pass {layout : RowLayout} {shard : Shard}
    {entries : List (Int × IndexTuple)} (laysOut : layout.LaysOut shard entries) {pass : Pass}
    (isPass : pass ∈ layout.passes) : ∀ row ∈ pass.rows, row ∈ shard.rowIds := by
  intro row member
  have isRow : row ∈ layout.passes.flatMap Pass.rows := List.mem_flatMap.mpr ⟨pass, isPass, member⟩
  rw [laysOut.passRows] at isRow
  obtain ⟨entry, isEntry, rfl⟩ := List.mem_map.mp isRow
  exact laysOut.rows entry isEntry

theorem LaysOut.mem_rowIds_of_run {layout : RowLayout} {shard : Shard}
    {entries : List (Int × IndexTuple)} (laysOut : layout.LaysOut shard entries) {run : LeafRows}
    (isRun : run ∈ layout.passes.flatMap Pass.leafRows) : ∀ row ∈ run.rows, row ∈ shard.rowIds := by
  intro row member
  have isCell : (row, run.leaf) ∈ (layout.passes.flatMap Pass.leafRows).flatMap LeafRows.cells :=
    List.mem_flatMap.mpr ⟨run, isRun, List.mem_map.mpr ⟨row, member, rfl⟩⟩
  rw [laysOut.runCells] at isCell
  obtain ⟨entry, isEntry, same⟩ := List.mem_map.mp isCell
  have sameRow : entry.1 = row := congrArg Prod.fst same
  rw [← sameRow]
  exact laysOut.rows entry isEntry

theorem ascending_passEntries (shard : Shard) (prefixes : List FieldPath) (pass : Nat) :
    ((shard.passEntries prefixes pass).map (·.1)).Pairwise (· < ·) := by
  rw [List.pairwise_map]
  apply List.Pairwise.filterMap _ _ shard.ascending_rowIds
  intro left right below leftEntry isLeft rightEntry isRight
  obtain ⟨_, _, rfl⟩ := Option.map_eq_some_iff.mp isLeft
  obtain ⟨_, _, rfl⟩ := Option.map_eq_some_iff.mp isRight
  exact below

theorem passCount_map (shard : Shard) (prefixes : List FieldPath) :
    passCount (shard.rowIds.map fun row => (row, shard.leafEntries prefixes row)) =
      shard.longestRow prefixes := by
  rw [passCount, List.map_map]
  rfl

theorem find?_leafIndex {leaves : List IndexTuple} (distinct : leaves.Nodup) {tuple : IndexTuple}
    (member : tuple ∈ leaves) :
    OrderedMap.find? tuple (leafIndex leaves) = some (leaves.idxOf tuple) := by
  apply OrderedMap.find?_ofEntries_of_mem
  · exact List.mk_mem_zipIdx_iff_getElem?.mpr (List.getElem?_idxOf member)
  · intro place isEntry
    have isThere := List.mk_mem_zipIdx_iff_getElem?.mp isEntry
    have inside := List.idxOf_lt_length_iff.mpr member
    exact ((List.getElem?_inj inside distinct).mp
      ((List.getElem?_idxOf member).trans isThere.symm)).symm

/-- The entry of a row with its place among the leaves. -/
def leafCell (leaves : List IndexTuple) (entry : Int × IndexTuple) : Int × Nat :=
  (entry.1, leaves.idxOf entry.2)

section Passes

variable {leaves : List IndexTuple} (distinct : leaves.Nodup) {rows : List Int}
  {tuplesOf : Int → List IndexTuple}
  (areLeaves : ∀ row ∈ rows, ∀ tuple ∈ tuplesOf row, tuple ∈ leaves)

include distinct areLeaves

/-- Every entry is found among the leaves, and the pass takes those with its number. -/
theorem layPass_takes (number : Nat) {builder : PassBuilder} {taken : List (Int × Nat)}
    (takes : builder.build.Takes taken) :
    ∃ laid, layPass (leafIndex leaves) number builder
        (rows.map fun row => (row, tuplesOf row)) = .ok laid ∧
      laid.build.Takes (taken ++ (rows.filterMap fun row =>
        (tuplesOf row)[number]?.map fun tuple => (row, tuple)).map (leafCell leaves)) := by
  induction rows generalizing builder taken with
  | nil => exact ⟨builder, rfl, by simpa using takes⟩
  | cons row rest inductionHypothesis =>
      have restLeaves : ∀ later ∈ rest, ∀ tuple ∈ tuplesOf later, tuple ∈ leaves :=
        fun later isLater => areLeaves later (List.mem_cons_of_mem _ isLater)
      rw [List.map_cons, layPass]
      cases isEntry : (tuplesOf row)[number]? with
      | none =>
          rcases inductionHypothesis restLeaves takes with ⟨laid, isLaid, laidTakes⟩
          exact ⟨laid, isLaid, by simpa [isEntry] using laidTakes⟩
      | some tuple =>
          have isLeaf := areLeaves row List.mem_cons_self tuple (List.mem_of_getElem? isEntry)
          have pushed := PassBuilder.takes_push takes row (leaves.idxOf tuple)
          rcases inductionHypothesis restLeaves pushed with ⟨laid, isLaid, laidTakes⟩
          refine ⟨laid, ?_, by simpa [isEntry, leafCell] using laidTakes⟩
          dsimp only
          rw [find?_leafIndex distinct isLeaf]
          exact isLaid

theorem layPasses_takes (numbers : List Nat) :
    ∃ passes, layPasses (leafIndex leaves) (rows.map fun row => (row, tuplesOf row)) numbers =
        .ok passes ∧
      List.Forall₂ (fun number pass => pass.Takes ((rows.filterMap fun row =>
        (tuplesOf row)[number]?.map fun tuple => (row, tuple)).map (leafCell leaves)))
        numbers passes := by
  induction numbers with
  | nil => exact ⟨[], rfl, List.Forall₂.nil⟩
  | cons number rest inductionHypothesis =>
      rcases layPass_takes distinct areLeaves number PassBuilder.takes_empty with
        ⟨laid, isLaid, laidTakes⟩
      rcases inductionHypothesis with ⟨passes, areLaid, passesTake⟩
      refine ⟨laid.build :: passes, ?_, List.Forall₂.cons laidTakes passesTake⟩
      rw [layPasses, isLaid, areLaid]

end Passes

/-- The layout of a shard: its leaves are the entries of all rows, and each pass takes the entries
with its number. -/
structure IsLayoutOf (layout : RowLayout) (shard : Shard) (prefixes : List FieldPath) : Prop where
  leaves : layout.leaves = sortDistinct (shard.rowIds.flatMap (shard.leafEntries prefixes))
  passes : List.Forall₂
    (fun number pass =>
      pass.Takes ((shard.passEntries prefixes number).map (leafCell layout.leaves)))
    (List.range (shard.longestRow prefixes)) layout.passes

theorem ofEntries_eq_ok (shard : Shard) (prefixes : List FieldPath) (inputRows : Nat) :
    ∃ layout, ofEntries (shard.rowIds.map fun row => (row, shard.leafEntries prefixes row))
        inputRows = .ok layout ∧ layout.IsLayoutOf shard prefixes := by
  let leaves := sortDistinct (shard.rowIds.flatMap (shard.leafEntries prefixes))
  have gathered : (shard.rowIds.map fun row => (row, shard.leafEntries prefixes row)).flatMap
      (fun entry => entry.2) = shard.rowIds.flatMap (shard.leafEntries prefixes) := by
    rw [List.flatMap_map]
  have areLeaves : ∀ row ∈ shard.rowIds, ∀ tuple ∈ shard.leafEntries prefixes row,
      tuple ∈ leaves := by
    intro row isRow tuple isTuple
    exact (mem_sortDistinct _ _).mpr (List.mem_flatMap.mpr ⟨row, isRow, isTuple⟩)
  rcases layPasses_takes (ascending_sortDistinct _).nodup areLeaves
    (List.range (shard.longestRow prefixes)) with ⟨passes, areLaid, passesTake⟩
  refine ⟨⟨leaves, passes, inputRows⟩, ?_, rfl, passesTake⟩
  simp only [ofEntries, passCount_map, gathered]
  rw [areLaid]

namespace IsLayoutOf

variable {layout : RowLayout} {shard : Shard} {prefixes : List FieldPath}

theorem mem_leaves_iff (isLayout : layout.IsLayoutOf shard prefixes) (tuple : IndexTuple) :
    tuple ∈ layout.leaves ↔ ∃ row ∈ shard.rowIds, tuple ∈ shard.leafEntries prefixes row := by
  rw [isLayout.leaves, mem_sortDistinct, List.mem_flatMap]

/-- The passes are those with the numbers below the longest row. -/
theorem length_passes (isLayout : layout.IsLayoutOf shard prefixes) :
    layout.passes.length = shard.longestRow prefixes := by
  rw [← isLayout.passes.length_eq, List.length_range]

/-- A pass takes the entries with its number. -/
theorem takes_of_pass (isLayout : layout.IsLayoutOf shard prefixes) {number : Nat} {pass : Pass}
    (isPass : layout.passes[number]? = some pass) :
    pass.Takes ((shard.passEntries prefixes number).map (leafCell layout.leaves)) := by
  rcases List.getElem?_eq_some_iff.mp isPass with ⟨bound, isThere⟩
  have takes := isLayout.passes.get (by rwa [isLayout.passes.length_eq]) bound
  simpa [isThere] using takes

theorem exists_number (isLayout : layout.IsLayoutOf shard prefixes) {pass : Pass}
    (isPass : pass ∈ layout.passes) :
    ∃ number, pass.Takes ((shard.passEntries prefixes number).map (leafCell layout.leaves)) := by
  rcases List.mem_iff_getElem?.mp isPass with ⟨number, isThere⟩
  exact ⟨number, isLayout.takes_of_pass isThere⟩

/-- What all passes have is what the entries give, number by number. -/
theorem flatMap_passes {α : Type} (isLayout : layout.IsLayoutOf shard prefixes)
    {fromPass : Pass → List α} {fromEntry : Int × IndexTuple → α}
    (same : ∀ (number : Nat) (pass : Pass),
      pass.Takes ((shard.passEntries prefixes number).map (leafCell layout.leaves)) →
        fromPass pass = (shard.passEntries prefixes number).map fromEntry) :
    layout.passes.flatMap fromPass = (shard.outputEntries prefixes).map fromEntry := by
  rw [Shard.outputEntries, List.map_flatMap]
  have passesTake := isLayout.passes
  generalize List.range (shard.longestRow prefixes) = numbers at passesTake
  generalize layout.passes = passes at passesTake
  induction passesTake with
  | nil => rfl
  | cons takes _ inductionHypothesis =>
      rw [List.flatMap_cons, List.flatMap_cons, inductionHypothesis, same _ _ takes]

theorem rowsOf_takes {pass : Pass} {number : Nat} {leaves : List IndexTuple}
    (takes : pass.Takes ((shard.passEntries prefixes number).map (leafCell leaves))) :
    pass.rows = (shard.passEntries prefixes number).map (·.1) := by
  rw [takes.rows, List.map_map]
  rfl

/-- The entries of all rows are laid out pass by pass. -/
theorem laysOut (isLayout : layout.IsLayoutOf shard prefixes) :
    layout.LaysOut shard (shard.outputEntries prefixes) := by
  constructor
  case passRows => exact isLayout.flatMap_passes fun number pass takes => rowsOf_takes takes
  case runCells =>
      rw [List.flatMap_assoc]
      exact isLayout.flatMap_passes fun number pass takes => takes.flatMap_cells
  case passAscending =>
      intro pass isPass
      rcases isLayout.exists_number isPass with ⟨number, takes⟩
      rw [rowsOf_takes takes]
      exact ascending_passEntries shard prefixes number
  case runAscending =>
      intro run isRun
      rcases List.mem_flatMap.mp isRun with ⟨pass, isPass, inPass⟩
      rcases List.mem_map.mp inPass with ⟨range, _, isRows⟩
      rcases isLayout.exists_number isPass with ⟨number, takes⟩
      have passAscending := ascending_passEntries shard prefixes number
      rw [← rowsOf_takes takes] at passAscending
      rw [← isRows, List.extract_eq_take_drop]
      exact passAscending.drop.take
  case runLeaves =>
      intro run isRun
      rcases List.mem_flatMap.mp isRun with ⟨pass, isPass, inPass⟩
      rcases List.mem_map.mp inPass with ⟨range, isRange, isRows⟩
      rcases isLayout.exists_number isPass with ⟨number, takes⟩
      rcases takes.exists_cell_of_run isRange with ⟨row, isCell⟩
      rcases List.mem_map.mp isCell with ⟨entry, isEntry, sameCell⟩
      have sameLeaf : layout.leaves.idxOf entry.2 = range.leaf := congrArg Prod.snd sameCell
      rw [← isRows, ← sameLeaf]
      exact List.idxOf_lt_length_iff.mpr
        ((isLayout.mem_leaves_iff entry.2).mpr ⟨entry.1, Shard.mem_passEntries isEntry⟩)
  case rows => exact fun entry member => (Shard.mem_outputEntries member).1
  case leaves =>
      exact fun entry member =>
        (isLayout.mem_leaves_iff entry.2).mpr ⟨entry.1, Shard.mem_outputEntries member⟩

end IsLayoutOf

/-- The layout of a shard from its entries, where the leaves are given in order. -/
theorem build_of_entries {shard : Shard} {prefixes : List FieldPath} {found : List RowEntries}
    {leaves : List IndexTuple} {passes : List Pass}
    (areFound : entries shard prefixes = .ok found) (ascending : Ascending leaves)
    (areLeaves : ∀ entry ∈ found, ∀ tuple ∈ entry.2, tuple ∈ leaves)
    (areTaken : ∀ tuple ∈ leaves, ∃ entry ∈ found, tuple ∈ entry.2)
    (areLaid : layPasses (leafIndex leaves) found (List.range (passCount found)) = .ok passes) :
    build shard prefixes = .ok ⟨leaves, passes, shard.rowCount⟩ := by
  have isSorted : sortDistinct (found.flatMap fun entry => entry.2) = leaves := by
    apply (ascending_sortDistinct _).eq_of_mem_iff ascending
    intro tuple
    rw [mem_sortDistinct, List.mem_flatMap]
    constructor
    · intro isGathered
      rcases isGathered with ⟨entry, isEntry, isTuple⟩
      exact areLeaves entry isEntry tuple isTuple
    · exact areTaken tuple
  simp only [build, areFound, ofEntries, isSorted, areLaid]

/-- The layout of a shard lays out its entries, unless a length is missing. -/
theorem build_outcome (shard : Shard) {prefixes : List FieldPath} (notEmpty : prefixes ≠ []) :
    (∃ layout, build shard prefixes = .ok layout ∧ layout.IsLayoutOf shard prefixes ∧
      ¬ ∃ name, shard.LacksEntryLength prefixes name) ∨
    ∃ name, shard.LacksEntryLength prefixes name ∧
      build shard prefixes = .error (.missingLengthColumn name) := by
  rcases entries_outcome shard notEmpty with ⟨found, nothingLacks⟩ | ⟨name, lacks, fails⟩
  · rcases ofEntries_eq_ok shard prefixes shard.rowCount with ⟨layout, isLaid, isLayout⟩
    exact Or.inl ⟨layout, by rw [build, found]; exact isLaid, isLayout, nothingLacks⟩
  · exact Or.inr ⟨name, lacks, by simp [build, fails]⟩

theorem realizes_of_mem_leafEntries {shard : Shard} {prefixes : List FieldPath}
    (notEmpty : prefixes ≠ []) {row : Int} {tuple : IndexTuple}
    (member : tuple ∈ shard.leafEntries prefixes row) :
    Realizes (lengthsAt shard row) prefixes tuple := by
  rw [Shard.leafEntries] at member
  rcases realize_outcome notEmpty (lengthsAt shard row) with
    ⟨realization, isRealized, _, members⟩ | ⟨name, _, fails⟩
  · rw [isRealized] at member
    exact (members tuple).mp member
  · rw [fails] at member
    cases member

end RowLayout

end Unnest
