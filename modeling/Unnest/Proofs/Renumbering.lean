import Unnest.Proofs.CacheAnswers
import Unnest.Proofs.ColumnIntegrity

/-!
# Moving the shards of a flattened table

Each call moves one shard, which it addresses by where the shard started when the renumbering began.
What the calls did to a shard only depends on the last one that asked for it, whatever they did to
the other shards in between.  `Renumbering.callAll_start` says so for any table: of several shards
that start at the same row, only the first one is ever moved.  For a table whose shards start at
different rows, `Renumbering.moves_each_shard` says what is left after the calls.
-/

namespace Unnest

/-! ## Moved columns -/

namespace Column

theorem valueAt?_shift (column : Column) (distance row : Int) :
    (column.shift distance).valueAt? (row + distance) = column.valueAt? row := by
  have samePage : pageBefore? (row + distance) (column.shift distance).pages =
      (pageBefore? row column.pages).map fun page =>
        page.startingAt (page.firstRow + distance) := by
    have sameTest : ((fun page : Page => decide (page.firstRow ≤ row + distance)) ∘
        fun page : Page => page.startingAt (page.firstRow + distance)) =
          fun page => decide (page.firstRow ≤ row) := by
      funext page
      simp [Page.startingAt]
    rw [pageBefore?, pageBefore?, shift, List.takeWhile_map, List.getLast?_map, sameTest]
  have sameId : (column.shift distance).idAt? (row + distance) = column.idAt? row := by
    rw [idAt?, idAt?, pageAt?, pageAt?, samePage]
    cases pageBefore? row column.pages with
    | none => rfl
    | some page =>
        have sameEnd : row + distance < (page.startingAt (page.firstRow + distance)).endRow ↔
            row < page.endRow := by
          simp only [Page.endRow, Page.startingAt, Page.rowCount]
          omega
        have sameOffset : row + distance - (page.firstRow + distance) = row - page.firstRow := by
          omega
        by_cases ends : row < page.endRow
        · simp only [Option.map_some, Option.filter_some, sameEnd, ends, decide_true, if_true,
            Option.bind_some]
          simp only [Page.startingAt, Page.id?, sameOffset]
        · simp [Option.filter_some, sameEnd, ends]
  rw [valueAt?, valueAt?, scalarAt?, scalarAt?, sameId]
  rfl

theorem shift_shift (column : Column) (first second : Int) :
    (column.shift first).shift second = column.shift (first + second) := by
  simp [shift, Page.startingAt, Function.comp_def, Int.add_assoc]

@[simp]
theorem shift_zero (column : Column) : column.shift 0 = column := by
  simp [shift, Page.startingAt]

end Column

/-! ## Moved shards -/

namespace Shard

theorem startingAt_eq (shard : Shard) (firstRow : Int) :
    shard.startingAt firstRow =
      ⟨shard.table, firstRow, shard.rowCount, shard.columns.map fun (name, column) =>
        (name, column.shift (firstRow - shard.lowestRow))⟩ := by
  rw [startingAt]
  by_cases isThere : firstRow - shard.lowestRow = 0
  · have sameRow : firstRow = shard.lowestRow := by omega
    simp [sameRow]
  · simp [isThere]

@[simp]
theorem lowestRow_startingAt (shard : Shard) (firstRow : Int) :
    (shard.startingAt firstRow).lowestRow = firstRow := by
  rw [startingAt_eq]

@[simp]
theorem startingAt_lowestRow (shard : Shard) : shard.startingAt shard.lowestRow = shard := by
  simp [startingAt]

@[simp]
theorem startingAt_startingAt (shard : Shard) (first last : Int) :
    (shard.startingAt first).startingAt last = shard.startingAt last := by
  have sameDistance : first - shard.lowestRow + (last - first) = last - shard.lowestRow := by omega
  simp [startingAt_eq, Column.shift_shift, sameDistance]

/-- The second shard is the first one, moved to start at a row: each column has the value that it
had at the same distance from the start, and none outside of the rows of the shard. -/
structure IsMovedTo (firstRow : Int) (before after : Shard) : Prop where
  table : after.table = before.table
  lowestRow : after.lowestRow = firstRow
  rowCount : after.rowCount = before.rowCount
  names : after.columns.map Prod.fst = before.columns.map Prod.fst
  columns : ∀ name column, before.column? name = some column →
    ∃ moved, after.column? name = some moved ∧ moved.kind = column.kind ∧
      PagesFollow firstRow moved.pages ∧
      (∀ offset, moved.valueAt? (firstRow + offset) = column.valueAt? (before.lowestRow + offset)) ∧
      ∀ row, (moved.valueAt? row).isSome = true ↔
        firstRow ≤ row ∧ row < firstRow + before.rowCount

theorem isMovedTo_startingAt {shard : Shard}
    (wellFormed : ∀ entry ∈ shard.columns, entry.2.IsWellFormed shard.lowestRow shard.rowCount)
    (firstRow : Int) : shard.IsMovedTo firstRow (shard.startingAt firstRow) := by
  rw [startingAt_eq]
  refine ⟨rfl, rfl, rfl, by simp, ?_⟩
  intro name column isColumn
  let distance := firstRow - shard.lowestRow
  have isThere := wellFormed _ (OrderedMap.mem_of_find? isColumn)
  have moved : shard.lowestRow + distance = firstRow := by omega
  have sameValues : ∀ offset, (column.shift distance).valueAt? (firstRow + offset) =
      column.valueAt? (shard.lowestRow + offset) := by
    intro offset
    have sameRow : firstRow + offset = shard.lowestRow + offset + distance := by omega
    rw [sameRow, Column.valueAt?_shift]
  refine ⟨column.shift distance, ?_, rfl, ?_, sameValues, ?_⟩
  · have found := OrderedMap.find?_map (fun entry => entry.2.shift distance) shard.columns name
    rw [show OrderedMap.find? name shard.columns = some column from isColumn] at found
    exact found
  · rw [← moved]
    exact Column.follow_startingAt isThere.follow distance
  · intro row
    have sameRow : row = firstRow + (row - firstRow) := by omega
    rw [sameRow, sameValues, isThere.isSome_valueAt?_iff]
    omega

end Shard

namespace Renumbering

/-! ## Calls -/

/-- One call, as the caller sees it: a call that fails leaves everything where it is. -/
def call (renumbering : Renumbering) (request : Int × Int) : Renumbering :=
  match renumbering.move request.1 request.2 with
  | .ok moved => moved
  | .error _ => renumbering

/-- Calls one after the other. -/
def callAll (renumbering : Renumbering) (requests : List (Int × Int)) : Renumbering :=
  requests.foldl call renumbering

/-- Where the last request for a row wants the shard that started there to start. -/
def lastAsked (requests : List (Int × Int)) (original : Int) : Int :=
  ((requests.filter fun request => request.1 = original).getLast?.map Prod.snd).getD original

/-- The copies after the requests: the first shard that starts at a row takes all requests for that
row, and leaves the other ones to the shards behind it. -/
def copiesAfter (requests : List (Int × Int)) : List Shard → List ShardCopy
  | [] => []
  | shard :: rest =>
      ⟨shard.lowestRow, shard.startingAt (lastAsked requests shard.lowestRow)⟩ ::
        copiesAfter (requests.filter fun request => request.1 ≠ shard.lowestRow) rest

@[simp]
theorem lastAsked_nil (original : Int) : lastAsked [] original = original := rfl

@[simp]
theorem lastAsked_append_self (requests : List (Int × Int)) (original firstRow : Int) :
    lastAsked (requests ++ [(original, firstRow)]) original = firstRow := by
  simp [lastAsked]

theorem lastAsked_append_of_ne (requests : List (Int × Int)) {original other : Int}
    (different : other ≠ original) (firstRow : Int) :
    lastAsked (requests ++ [(other, firstRow)]) original = lastAsked requests original := by
  simp [lastAsked, different]

theorem lastAsked_filter_of_ne (requests : List (Int × Int)) {original other : Int}
    (different : original ≠ other) :
    lastAsked (requests.filter fun request => request.1 ≠ other) original =
      lastAsked requests original := by
  have sameRequests : (requests.filter fun request => request.1 ≠ other).filter
      (fun request => request.1 = original) =
        requests.filter fun request => request.1 = original := by
    rw [List.filter_filter]
    apply List.filter_congr
    intro request _
    by_cases isOriginal : request.1 = original
    · simp [isOriginal, different]
    · simp [isOriginal]
  rw [lastAsked, sameRequests, ← lastAsked]

theorem copiesAfter_nil (shards : List Shard) :
    copiesAfter [] shards = shards.map ShardCopy.ofShard := by
  induction shards with
  | nil => rfl
  | cons shard rest inductionHypothesis =>
      simp only [copiesAfter, lastAsked_nil, Shard.startingAt_lowestRow, List.filter_nil,
        inductionHypothesis]
      rfl

theorem moveFirst?_copiesAfter (requests : List (Int × Int)) (original firstRow : Int)
    (shards : List Shard) :
    moveFirst? original firstRow (copiesAfter requests shards) =
      if original ∈ shards.map Shard.lowestRow then
        some (copiesAfter (requests ++ [(original, firstRow)]) shards)
      else
        none := by
  induction shards generalizing requests with
  | nil => rfl
  | cons shard rest inductionHypothesis =>
      by_cases isFirst : shard.lowestRow = original
      · simp [copiesAfter, moveFirst?, isFirst, ShardCopy.moveTo]
      · have isOther : original ≠ shard.lowestRow := Ne.symm isFirst
        simp only [copiesAfter, moveFirst?, isFirst, if_false, inductionHypothesis, List.map_cons,
          List.mem_cons, isOther, false_or, lastAsked_append_of_ne requests isOther,
          List.filter_append, List.filter_cons, ne_eq, not_false_eq_true, decide_true, if_true,
          List.filter_nil]
        split
        · rfl
        · rfl

theorem copiesAfter_append_of_not_mem (requests : List (Int × Int)) {original : Int}
    (firstRow : Int) {shards : List Shard} (noShard : original ∉ shards.map Shard.lowestRow) :
    copiesAfter (requests ++ [(original, firstRow)]) shards = copiesAfter requests shards := by
  induction shards generalizing requests with
  | nil => rfl
  | cons shard rest inductionHypothesis =>
      rw [List.map_cons, List.mem_cons, not_or] at noShard
      rcases noShard with ⟨isOther, notInRest⟩
      simp only [copiesAfter, lastAsked_append_of_ne requests isOther, List.filter_append,
        List.filter_cons, ne_eq, isOther, not_false_eq_true, decide_true, if_true, List.filter_nil,
        inductionHypothesis _ notInRest]

theorem move_copiesAfter (table : FlattenedTable) (requests : List (Int × Int))
    (original firstRow : Int) :
    move ⟨table, copiesAfter requests table.shards⟩ original firstRow =
      if original ∈ table.shards.map Shard.lowestRow then
        .ok ⟨table, copiesAfter (requests ++ [(original, firstRow)]) table.shards⟩
      else
        .error (.misalignedShard ("<" ++ table.name ++ ">") original firstRow) := by
  rw [move, moveFirst?_copiesAfter]
  by_cases isThere : original ∈ table.shards.map Shard.lowestRow
  · simp only [isThere, if_true]
  · simp only [isThere, if_false]

theorem callAll_start (table : FlattenedTable) (requests : List (Int × Int)) :
    (start table).callAll requests = ⟨table, copiesAfter requests table.shards⟩ := by
  induction requests using List.reverseRecOn with
  | nil => rw [copiesAfter_nil]; rfl
  | append_singleton earlier request inductionHypothesis =>
      rcases request with ⟨original, firstRow⟩
      have unfolded : (start table).callAll (earlier ++ [(original, firstRow)]) =
          ((start table).callAll earlier).call (original, firstRow) := by
        rw [callAll, List.foldl_append]
        rfl
      rw [unfolded, inductionHypothesis, call, move_copiesAfter]
      by_cases isThere : original ∈ table.shards.map Shard.lowestRow
      · simp only [isThere, if_true]
      · simp only [isThere, if_false, copiesAfter_append_of_not_mem earlier firstRow isThere]

/-- If the shards start at different rows, each of them takes the requests for its row. -/
theorem copiesAfter_of_nodup (requests : List (Int × Int)) {shards : List Shard}
    (distinct : (shards.map Shard.lowestRow).Nodup) :
    copiesAfter requests shards = shards.map fun shard =>
      ⟨shard.lowestRow, shard.startingAt (lastAsked requests shard.lowestRow)⟩ := by
  induction shards generalizing requests with
  | nil => rfl
  | cons shard rest inductionHypothesis =>
      rw [List.map_cons, List.nodup_cons] at distinct
      rcases distinct with ⟨notInRest, restDistinct⟩
      rw [copiesAfter, inductionHypothesis _ restDistinct, List.map_cons]
      congr 1
      apply List.map_congr_left
      intro other member
      have different : other.lowestRow ≠ shard.lowestRow := by
        intro same
        exact notInRest (same ▸ List.mem_map_of_mem member)
      rw [lastAsked_filter_of_ne requests different]

/-! ## What is left after the calls -/

/-- A table of shards that start at different rows is renumbered by any calls.  At any time, a call
succeeds exactly if some shard of the table starts at the given row, wherever the shard has been
moved since; a call that fails changes nothing.  In the end the shards are those of the table, each
moved to where the last call for it wanted it, in the order of their new rows. -/
theorem moves_each_shard {table : FlattenedTable}
    (wellFormed : ∀ shard ∈ table.shards, ∀ entry ∈ shard.columns,
      entry.2.IsWellFormed shard.lowestRow shard.rowCount)
    (distinct : (table.shards.map Shard.lowestRow).Nodup) (requests : List (Int × Int)) :
    (∀ original firstRow,
      ((∃ moved, ((start table).callAll requests).move original firstRow = .ok moved) ↔
        original ∈ table.shards.map Shard.lowestRow) ∧
      (original ∉ table.shards.map Shard.lowestRow →
        ((start table).callAll requests).move original firstRow =
            .error (.misalignedShard ("<" ++ table.name ++ ">") original firstRow) ∧
          (start table).callAll (requests ++ [(original, firstRow)]) =
            (start table).callAll requests)) ∧
    ∃ shards moved,
      ((start table).callAll requests).finish = { table with shards := shards } ∧
      (shards.map Shard.lowestRow).Pairwise (· ≤ ·) ∧ shards.Perm moved ∧
      List.Forall₂ (fun before after =>
        before.IsMovedTo (lastAsked requests before.lowestRow) after) table.shards moved := by
  refine ⟨?_, ?_⟩
  · intro original firstRow
    rw [callAll_start, callAll_start, move_copiesAfter]
    by_cases isThere : original ∈ table.shards.map Shard.lowestRow
    · simp [isThere]
    · simp [isThere, copiesAfter_append_of_not_mem requests firstRow isThere]
  · let moved := table.shards.map fun shard =>
      shard.startingAt (lastAsked requests shard.lowestRow)
    refine ⟨inRowOrder moved, moved, ?_, pairwise_inRowOrder moved, List.mergeSort_perm _ _, ?_⟩
    · rw [callAll_start, copiesAfter_of_nodup requests distinct, finish]
      simp only [List.map_map, Function.comp_def]
      rfl
    · rw [List.forall₂_map_right_iff, List.forall₂_same]
      intro shard member
      exact Shard.isMovedTo_startingAt (wellFormed shard member) _

/-- A shard of one row. -/
def rowShard (row : Int) (value : Int64) : Shard :=
  ⟨"u", row, 1, [("a", Column.ofScalars .long row [value] 4)]⟩

/-- A flattened table of two such shards. -/
def neighbours : FlattenedTable :=
  ⟨"u", [rowShard 0 1, rowShard 1 2], "t", "a[*]", default, [0, 1]⟩

/-- Two shards change places; one of them was somewhere else before, and a call failed. -/
theorem moves_each_shard_neighbours :
    (neighbours.shards.map Shard.lowestRow).Nodup ∧
      (∃ moved, ((start neighbours).callAll [(1, 9), (0, 1)]).move 1 0 = .ok moved) ∧
      ((start neighbours).callAll [(1, 9), (0, 1)]).move 5 3 =
        .error (.misalignedShard "<u>" 5 3) ∧
      ∃ shards first second,
        ((start neighbours).callAll [(1, 9), (0, 1), (5, 3), (1, 0)]).finish =
          { neighbours with shards := shards } ∧
        shards.map Shard.rows = [[[("a", .long 2)]], [[("a", .long 1)]]] ∧
        shards.Perm [first, second] ∧
        (rowShard 0 1).IsMovedTo 1 first ∧ (rowShard 1 2).IsMovedTo 0 second := by
  have wellFormed : ∀ shard ∈ neighbours.shards, ∀ entry ∈ shard.columns,
      entry.2.IsWellFormed shard.lowestRow shard.rowCount := by
    have first := Column.isWellFormed_ofScalars .long 0 [1] 4
    have second := Column.isWellFormed_ofScalars .long 1 [2] 4
    simpa [neighbours, rowShard] using And.intro first second
  have distinct : (neighbours.shards.map Shard.lowestRow).Nodup := by decide
  have calls := (moves_each_shard wellFormed distinct [(1, 9), (0, 1)]).1
  rcases (moves_each_shard wellFormed distinct [(1, 9), (0, 1), (5, 3), (1, 0)]).2 with
    ⟨shards, moved, isFinished, _, sameShards, areMoved⟩
  have shown : ((start neighbours).callAll [(1, 9), (0, 1), (5, 3), (1, 0)]).finish.shards.map
      Shard.rows = [[[("a", .long 2)]], [[("a", .long 1)]]] := by
    have inOrder : inRowOrder [(rowShard 0 1).startingAt 1, (rowShard 1 2).startingAt 0] =
        [(rowShard 1 2).startingAt 0, (rowShard 0 1).startingAt 1] := by
      simp [inRowOrder, List.mergeSort]
    rw [callAll_start, copiesAfter_of_nodup _ distinct]
    exact (congrArg (List.map Shard.rows) inOrder).trans (by decide +kernel)
  rw [isFinished] at shown
  rcases areMoved with _ | ⟨firstMoved, _ | ⟨secondMoved, _ | _⟩⟩
  exact ⟨distinct, (calls 1 0).1.mpr (by decide), ((calls 5 3).2 (by decide)).1,
    shards, _, _, isFinished, shown, sameShards, firstMoved, secondMoved⟩

end Renumbering

end Unnest
