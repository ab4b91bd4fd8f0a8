import Unnest.Proofs.Renumbering

/-!
# Renumbering a flattened table again

A renumbering addresses a shard by the row where it starts, not by the row where the shard started
that it was flattened from.  For a table that was just computed the two are the same; after its
shards have been moved they are not.  Then a call moves the first shard that stands at the given row
by now, wherever it comes from, and there may be none (`FlattenedTable.move_after_rounds`).
-/

namespace Unnest

/-- What is done to a flattened table: it gets another name, or some of its shards are moved. -/
inductive Round where
  | rebase (id : FlattenId)
  | renumber (requests : List (Int × Int))

namespace FlattenedTable

def afterRound (table : FlattenedTable) : Round → FlattenedTable
  | .rebase id => table.rebase id
  | .renumber requests => ((Renumbering.start table).callAll requests).finish

def afterRounds (table : FlattenedTable) (rounds : List Round) : FlattenedTable :=
  rounds.foldl afterRound table

end FlattenedTable

/-! ## Where the shards stand -/

/-- Where a flattened shard comes from and where it starts: the first row of the shard that it was
flattened from, and its own. -/
structure Standing where
  source : Int
  place : Int
deriving DecidableEq, Repr

namespace Standing

/-- The shard that stands there, out of the flattened shards by their sources. -/
def shard (shardFrom : Int → Shard) (standing : Standing) : Shard :=
  (shardFrom standing.source).startingAt standing.place

/-- Of the shards at a place, the first one goes to where the last request for the place wants
it. -/
def moveAll (requests : List (Int × Int)) : List Standing → List Standing
  | [] => []
  | standing :: rest =>
      ⟨standing.source, Renumbering.lastAsked requests standing.place⟩ ::
        moveAll (requests.filter fun request => request.1 ≠ standing.place) rest

def afterRound (standings : List Standing) : Round → List Standing
  | .rebase _ => standings
  | .renumber requests =>
      (moveAll requests standings).mergeSort fun left right => left.place ≤ right.place

/-- At first each shard stands where its source stood. -/
def afterRounds (firstRows : FirstRows) (rounds : List Round) : List Standing :=
  rounds.foldl afterRound (firstRows.map fun firstRow => ⟨firstRow, firstRow⟩)

variable (shardFrom : Int → Shard)

@[simp]
theorem lowestRow_shard (standing : Standing) :
    (standing.shard shardFrom).lowestRow = standing.place :=
  Shard.lowestRow_startingAt _ _

theorem map_source_moveAll (requests : List (Int × Int)) (standings : List Standing) :
    (moveAll requests standings).map source = standings.map source := by
  induction standings generalizing requests with
  | nil => rfl
  | cons standing rest inductionHypothesis =>
      rw [moveAll, List.map_cons, List.map_cons, inductionHypothesis]

theorem copiesAfter_map_shard (requests : List (Int × Int)) (standings : List Standing) :
    (Renumbering.copiesAfter requests (standings.map (shard shardFrom))).map ShardCopy.shard =
      (moveAll requests standings).map (shard shardFrom) := by
  induction standings generalizing requests with
  | nil => rfl
  | cons standing rest inductionHypothesis =>
      simp only [List.map_cons, Renumbering.copiesAfter, moveAll, lowestRow_shard,
        inductionHypothesis]
      simp only [shard, Shard.startingAt_startingAt]

theorem inRowOrder_map_shard (standings : List Standing) :
    inRowOrder (standings.map (shard shardFrom)) =
      (standings.mergeSort fun left right => left.place ≤ right.place).map (shard shardFrom) := by
  rw [inRowOrder]
  apply Eq.symm
  apply List.map_mergeSort
  intro left _ right _
  simp only [lowestRow_shard]

/-- The copies of the shards when a renumbering begins. -/
theorem map_ofShard (standings : List Standing) :
    (standings.map (shard shardFrom)).map ShardCopy.ofShard =
      standings.map fun standing => ⟨standing.place, standing.shard shardFrom⟩ := by
  simp [ShardCopy.ofShard, Function.comp_def]

/-- A call moves the first shard at a place; as the sources differ, its source says which one. -/
theorem moveFirst?_map_shard (original firstRow : Int) {standings : List Standing}
    (distinct : (standings.map source).Nodup) :
    Renumbering.moveFirst? original firstRow
        (standings.map fun standing => ⟨standing.place, standing.shard shardFrom⟩) =
      (standings.find? fun standing => standing.place = original).map fun moved =>
        standings.map fun standing =>
          ⟨standing.place, (shardFrom standing.source).startingAt
            (if standing.source = moved.source then firstRow else standing.place)⟩ := by
  induction standings with
  | nil => rfl
  | cons standing rest inductionHypothesis =>
      rw [List.map_cons, List.nodup_cons] at distinct
      rcases distinct with ⟨notInRest, restDistinct⟩
      rw [List.map_cons, Renumbering.moveFirst?, inductionHypothesis restDistinct]
      by_cases isThere : standing.place = original
      · have restStays : ∀ other ∈ rest, other.source ≠ standing.source := by
          intro other member same
          exact notInRest (same ▸ List.mem_map_of_mem member)
        simp only [isThere, if_true, List.find?_cons, decide_true, Option.map_some, List.map_cons,
          ShardCopy.moveTo, shard, Shard.startingAt_startingAt, Option.some.injEq, List.cons.injEq,
          true_and]
        apply List.map_congr_left
        intro other member
        simp only [restStays other member, if_false]
      · simp only [isThere, if_false, List.find?_cons, decide_false, Option.map_map]
        apply Option.map_congr
        intro moved isFirst
        have member := List.mem_of_find?_eq_some isFirst
        have isOther : standing.source ≠ moved.source := by
          intro same
          exact notInRest (same ▸ List.mem_map_of_mem member)
        simp only [Function.comp_apply, List.map_cons, isOther, if_false, shard]

theorem foldl_afterRound_of_rebases {rounds : List Round}
    (areRebased : ∀ round ∈ rounds, ∃ id, round = .rebase id) (standings : List Standing) :
    rounds.foldl afterRound standings = standings := by
  induction rounds with
  | nil => rfl
  | cons round rest inductionHypothesis =>
      rcases areRebased round List.mem_cons_self with ⟨id, isRebase⟩
      rw [List.foldl_cons, isRebase, afterRound]
      exact inductionHypothesis fun later member => areRebased later (List.mem_cons_of_mem _ member)

end Standing

namespace FlattenedTable

/-- The shards of the table stand there, in the order of their rows, one for each of the rows that
the table remembers. -/
structure StandsAs (shardFrom : Int → Shard) (standings : List Standing)
    (table : FlattenedTable) : Prop where
  shards : table.shards = standings.map (Standing.shard shardFrom)
  inOrder : standings.Pairwise fun left right => left.place ≤ right.place
  sources : (standings.map Standing.source).Perm table.originalFirstRows
  distinct : table.originalFirstRows.Nodup

variable {shardFrom : Int → Shard} {standings : List Standing} {table : FlattenedTable}

theorem afterRound_originalFirstRows (table : FlattenedTable) (round : Round) :
    (table.afterRound round).originalFirstRows = table.originalFirstRows := by
  cases round with
  | rebase id => rfl
  | renumber requests =>
      rw [afterRound, Renumbering.callAll_start]
      rfl

/-- The step of the invariant. -/
theorem StandsAs.afterRound (stands : table.StandsAs shardFrom standings) (round : Round) :
    (table.afterRound round).StandsAs shardFrom (Standing.afterRound standings round) := by
  cases round with
  | rebase id =>
      have sorted := mergeSort_by_eq_self Standing.place stands.inOrder
      refine ⟨?_, stands.inOrder, stands.sources, stands.distinct⟩
      rw [FlattenedTable.afterRound, rebase, ofShards, stands.shards,
        Standing.inRowOrder_map_shard, sorted]
      rfl
  | renumber requests =>
      have sameRows := afterRound_originalFirstRows table (.renumber requests)
      refine ⟨?_, ?_, ?_, sameRows ▸ stands.distinct⟩
      · rw [FlattenedTable.afterRound, Renumbering.callAll_start, Renumbering.finish, ofShards]
        simp only [stands.shards, Standing.copiesAfter_map_shard, Standing.inRowOrder_map_shard]
        rfl
      · exact pairwise_mergeSort_by Standing.place _
      · rw [sameRows]
        apply List.Perm.trans _ stands.sources
        rw [← Standing.map_source_moveAll requests standings]
        exact (List.mergeSort_perm _ _).map _

theorem afterRounds_originalFirstRows (table : FlattenedTable) (rounds : List Round) :
    (table.afterRounds rounds).originalFirstRows = table.originalFirstRows := by
  induction rounds generalizing table with
  | nil => rfl
  | cons round rest inductionHypothesis =>
      exact (inductionHypothesis _).trans (afterRound_originalFirstRows table round)

theorem StandsAs.foldl_afterRound (stands : table.StandsAs shardFrom standings)
    (rounds : List Round) :
    (table.afterRounds rounds).StandsAs shardFrom (rounds.foldl Standing.afterRound standings) := by
  induction rounds generalizing table standings with
  | nil => exact stands
  | cons round rest inductionHypothesis => exact inductionHypothesis (stands.afterRound round)

theorem StandsAs.move_start (stands : table.StandsAs shardFrom standings)
    (original firstRow : Int) :
    (Renumbering.start table).move original firstRow =
      match standings.find? fun standing => standing.place = original with
      | none => .error (.misalignedShard ("<" ++ table.name ++ ">") original firstRow)
      | some moved => .ok ⟨table, standings.map fun standing =>
          ⟨standing.place, (shardFrom standing.source).startingAt
            (if standing.source = moved.source then firstRow else standing.place)⟩⟩ := by
  have sourcesDistinct := stands.sources.nodup_iff.mpr stands.distinct
  rw [Renumbering.move, Renumbering.start, stands.shards, Standing.map_ofShard,
    Standing.moveFirst?_map_shard shardFrom original firstRow sourcesDistinct]
  cases standings.find? fun standing => standing.place = original with
  | none => rfl
  | some moved => rfl

end FlattenedTable

/-! ## Tables that were just computed -/

/-- If the shards start at different rows, their first rows are theirs in row order. -/
theorem map_lowestRow_inRowOrder {shards : List Shard}
    (distinct : (shards.map Shard.lowestRow).Nodup) :
    (inRowOrder shards).map Shard.lowestRow = firstRowsOf shards := by
  have sameShards : (inRowOrder shards).Perm shards := List.mergeSort_perm _ _
  apply Ascending.eq_of_mem_iff _ (ascending_sortDistinct _)
  · intro row
    rw [mem_sortDistinct]
    exact (sameShards.map _).mem_iff
  · have orderedDistinct := (sameShards.map Shard.lowestRow).nodup_iff.mpr distinct
    apply (orderedDistinct.and (pairwise_inRowOrder shards)).imp
    intro left right both
    exact compare_lt_iff_lt.mpr (Int.lt_iff_le_and_ne.mpr ⟨both.2, both.1⟩)

theorem find?_lowestRow_of_mem {shards : List Shard}
    (distinct : (shards.map Shard.lowestRow).Nodup) {shard : Shard} (isShard : shard ∈ shards) :
    (shards.find? fun other => other.lowestRow = shard.lowestRow) = some shard := by
  induction shards with
  | nil => cases isShard
  | cons first rest inductionHypothesis =>
      rw [List.map_cons, List.nodup_cons] at distinct
      rcases distinct with ⟨notInRest, restDistinct⟩
      rcases List.mem_cons.mp isShard with isFirst | isLater
      · simp [isFirst]
      · have different : first.lowestRow ≠ shard.lowestRow := by
          intro same
          exact notInRest (same ▸ List.mem_map_of_mem isLater)
        simp only [List.find?_cons, different, decide_false]
        exact inductionHypothesis restDistinct isLater

namespace Flattening

/-- The shard is what the source turns into, and starts where the source starts. -/
def IsFlattenedFrom (settings : FlattenSettings) (target : FieldPath) (output : String)
    (source shard : Shard) : Prop :=
  (∃ flattening, flattenShardBy settings source target output = .ok flattening ∧
    flattening.shard = shard) ∧ shard.lowestRow = source.lowestRow

theorem areFlattenedFrom_of_flattenShards {settings : FlattenSettings} {target : FieldPath}
    {output : String} {sources shards : List Shard}
    (flattens : flattenShards settings target output sources = .ok shards) :
    List.Forall₂ (IsFlattenedFrom settings target output) sources shards := by
  induction sources generalizing shards with
  | nil =>
      cases flattens
      exact .nil
  | cons source rest inductionHypothesis =>
      rw [flattenShards] at flattens
      split at flattens
      · cases flattens
      · rename_i flattening isFlattening
        split at flattens
        · cases flattens
        · rename_i others areOthers
          cases flattens
          rcases exists_columns_of_flattenShardBy isFlattening with
            ⟨_, _, _, _, _, _, assembled, _⟩
          exact .cons ⟨⟨flattening, isFlattening, rfl⟩, assembled.lowestRow⟩
            (inductionHypothesis areOthers)

theorem map_lowestRow_of_areFlattenedFrom {settings : FlattenSettings} {target : FieldPath}
    {output : String} {sources shards : List Shard}
    (areFlattened : List.Forall₂ (IsFlattenedFrom settings target output) sources shards) :
    shards.map Shard.lowestRow = sources.map Shard.lowestRow := by
  induction areFlattened with
  | nil => rfl
  | cons isFlattened _ inductionHypothesis =>
      rw [List.map_cons, List.map_cons, isFlattened.2, inductionHypothesis]

/-- A table that was just computed: each shard stands where its source stands. -/
theorem standsAs_of_flattenTable {settings : FlattenSettings} {table : Table}
    {chosen : Option (List Shard)} {flattenBy : String} {id : FlattenId}
    {flattened : FlattenedTable}
    (flattens : flattenTable settings table chosen flattenBy id = .ok flattened)
    (distinct : ((chosen.getD table.shards).map Shard.lowestRow).Nodup) :
    flattened.originalFirstRows = firstRowsOf (chosen.getD table.shards) ∧
    ∃ shardFrom : Int → Shard,
      (∀ source ∈ chosen.getD table.shards, ∃ target flattening,
        readTarget flattenBy = .ok target ∧
        flattenShardBy settings source target flattened.name = .ok flattening ∧
        shardFrom source.lowestRow = flattening.shard) ∧
      flattened.StandsAs shardFrom
        (flattened.originalFirstRows.map fun firstRow => ⟨firstRow, firstRow⟩) := by
  rw [flattenTable] at flattens
  split at flattens
  · cases flattens
  split at flattens
  · cases flattens
  rename_i target accepted
  rw [flattenTableBy] at flattens
  split at flattens
  · cases flattens
  rename_i shards areShards
  cases flattens
  let sources := chosen.getD table.shards
  have areFlattened := areFlattenedFrom_of_flattenShards areShards
  have sameRows : shards.map Shard.lowestRow = sources.map Shard.lowestRow :=
    map_lowestRow_of_areFlattenedFrom areFlattened
  have shardsDistinct : (shards.map Shard.lowestRow).Nodup := by
    rw [sameRows]
    exact distinct
  have rowsInOrder : (inRowOrder shards).map Shard.lowestRow = firstRowsOf sources := by
    rw [map_lowestRow_inRowOrder shardsDistinct, firstRowsOf, sameRows]
    rfl
  let shardFrom : Int → Shard := fun row =>
    (shards.find? fun shard => shard.lowestRow = row).getD default
  have isFrom : ∀ shard ∈ shards, shardFrom shard.lowestRow = shard := by
    intro shard isShard
    simp only [shardFrom, find?_lowestRow_of_mem shardsDistinct isShard, Option.getD_some]
  refine ⟨rfl, shardFrom, ?_, ?_, ?_, ?_, (ascending_sortDistinct _).nodup⟩
  · intro source isSource
    rcases List.mem_iff_getElem.mp isSource with ⟨place, inSources, isThere⟩
    have inShards : place < shards.length := by
      rw [← areFlattened.length_eq]
      exact inSources
    have isFlattened := areFlattened.get inSources inShards
    rw [List.get_eq_getElem, List.get_eq_getElem, isThere] at isFlattened
    rcases isFlattened with ⟨⟨flattening, flattensSource, isShard⟩, sameRow⟩
    refine ⟨target, flattening, accepted, flattensSource, ?_⟩
    rw [← sameRow, isFrom _ (List.getElem_mem _), isShard]
  · have remembered : (FlattenedTable.ofShards (flattenedTableName table.name target.toText) shards
        table.name target.toText id (firstRowsOf sources)).originalFirstRows =
          (inRowOrder shards).map Shard.lowestRow := rowsInOrder.symm
    rw [remembered, List.map_map, List.map_map]
    apply (List.map_id _).symm.trans
    apply List.map_congr_left
    intro shard member
    have isShard : shard ∈ shards := List.mem_mergeSort.mp member
    simp [Standing.shard, isFrom shard isShard]
  · rw [List.pairwise_map]
    have ordered := pairwise_inRowOrder shards
    rw [rowsInOrder] at ordered
    exact ordered
  · simp [Function.comp_def]

end Flattening

namespace FlattenedTable

/-- A flattened table is renumbered and renamed any number of times.  Its shards are those that the
sources were flattened into, moved to where the rounds placed them, and a call moves the first one
that stands at the given row.  As long as the table was only renamed, this is the one that was
flattened from the source that starts there. -/
theorem move_after_rounds {settings : FlattenSettings} {table : Table}
    {chosen : Option (List Shard)} {flattenBy : String} {id : FlattenId}
    {flattened : FlattenedTable}
    (flattens : Flattening.flattenTable settings table chosen flattenBy id = .ok flattened)
    (distinct : ((chosen.getD table.shards).map Shard.lowestRow).Nodup) (rounds : List Round) :
    let reached := flattened.afterRounds rounds
    let standings := Standing.afterRounds flattened.originalFirstRows rounds
    ∃ shardFrom : Int → Shard,
      (∀ source ∈ chosen.getD table.shards, ∃ target flattening,
        readTarget flattenBy = .ok target ∧
        Flattening.flattenShardBy settings source target flattened.name = .ok flattening ∧
        shardFrom source.lowestRow = flattening.shard) ∧
      reached.originalFirstRows = flattened.originalFirstRows ∧
      (standings.map Standing.source).Perm flattened.originalFirstRows ∧
      reached.shards = standings.map (Standing.shard shardFrom) ∧
      (∀ original firstRow, (Renumbering.start reached).move original firstRow =
        match standings.find? fun standing => standing.place = original with
        | none => .error (.misalignedShard ("<" ++ reached.name ++ ">") original firstRow)
        | some moved => .ok ⟨reached, standings.map fun standing =>
            ⟨standing.place, (shardFrom standing.source).startingAt
              (if standing.source = moved.source then firstRow else standing.place)⟩⟩) ∧
      ((∀ round ∈ rounds, ∃ name, round = .rebase name) →
        ∀ original ∈ flattened.originalFirstRows,
          (standings.find? fun standing => standing.place = original) =
            some ⟨original, original⟩) := by
  intro reached standings
  rcases Flattening.standsAs_of_flattenTable flattens distinct with ⟨_, shardFrom, areFrom, stands⟩
  have sameRows := afterRounds_originalFirstRows flattened rounds
  have reachedStands : reached.StandsAs shardFrom standings := stands.foldl_afterRound rounds
  refine ⟨shardFrom, areFrom, sameRows, sameRows ▸ reachedStands.sources, reachedStands.shards,
    reachedStands.move_start, ?_⟩
  intro areRebased original isOriginal
  have unmoved : standings =
      flattened.originalFirstRows.map fun firstRow => ⟨firstRow, firstRow⟩ :=
    Standing.foldl_afterRound_of_rebases areRebased _
  rw [unmoved, List.find?_map]
  have isFound : (flattened.originalFirstRows.find? fun firstRow => firstRow = original) =
      some original := by
    cases found : flattened.originalFirstRows.find? fun firstRow => firstRow = original with
    | none => simpa using List.find?_eq_none.mp found original isOriginal
    | some firstRow => simpa using List.find?_some found
  simp only [Function.comp_def, isFound, Option.map_some]

/-- A shard of one row with an array of one entry. -/
def entryShard (row : Int) (value : Int64) : Shard :=
  ⟨"t", row, 1, [("a[0]", Column.ofScalars .long row [value] 4),
    ("a[length]", Column.ofScalars .long row [1] 4)]⟩

/-- Two such shards. -/
def entryTable : Table :=
  ⟨"t", [entryShard 0 1, entryShard 1 2], .loaded⟩

theorem exists_flattenTable_entryTable :
    ∃ flattened, Flattening.flattenTable {} entryTable none "a[*]" default = .ok flattened ∧
      flattened.name = "t#a[*]" := by
  have isNamed : (Flattening.flattenTable {} entryTable none "a[*]" default).toOption.map
      FlattenedTable.name = some "t#a[*]" := by decide +kernel
  cases flattens : Flattening.flattenTable {} entryTable none "a[*]" default with
  | error cause => simp [flattens, Except.toOption] at isNamed
  | ok flattened =>
      rw [flattens] at isNamed
      exact ⟨flattened, rfl, Option.some.inj isNamed⟩

theorem rows_startingAt_entryShard {source : Shard} {place : Int} {rows : List Row}
    (hasRows : ((readTarget "a[*]").toOption.bind fun target =>
      (Flattening.flattenShardBy {} source target "t#a[*]").toOption.map fun flattening =>
        (flattening.shard.startingAt place).rows) = some rows) {shard : Shard}
    (isFrom : ∃ target flattening, readTarget "a[*]" = .ok target ∧
      Flattening.flattenShardBy {} source target "t#a[*]" = .ok flattening ∧
      shard = flattening.shard) : (shard.startingAt place).rows = rows := by
  rcases isFrom with ⟨target, flattening, accepted, flattens, isShard⟩
  simpa [accepted, flattens, isShard, Except.toOption] using hasRows

/-- The shards change places, and the rows of the source that started first are at row one.  Then a
call for row zero moves the rows of the other source. -/
theorem move_after_swap_moves_other :
    ∃ flattened, Flattening.flattenTable {} entryTable none "a[*]" default = .ok flattened ∧
      0 ∈ flattened.originalFirstRows ∧
      ∃ moved, (Renumbering.start (flattened.afterRounds [.renumber [(0, 1), (1, 0)]])).move 0 7 =
          .ok moved ∧
        moved.finish.shards.map Shard.lowestRow = [1, 7] ∧
        moved.finish.shards.map Shard.rows = [[[("a", .long 1)]], [[("a", .long 2)]]] := by
  rcases exists_flattenTable_entryTable with ⟨flattened, flattens, isNamed⟩
  have distinct : (entryTable.shards.map Shard.lowestRow).Nodup := by decide
  rcases Flattening.standsAs_of_flattenTable flattens distinct with
    ⟨sameRows, shardFrom, areFrom, stands⟩
  have firstRows : flattened.originalFirstRows = [0, 1] :=
    sameRows.trans (sortDistinct_eq_self (by decide))
  rw [firstRows] at stands
  rw [isNamed] at areFrom
  have swapped := stands.afterRound (.renumber [(0, 1), (1, 0)])
  have areSwapped : Standing.afterRound ([0, 1].map fun firstRow => ⟨firstRow, firstRow⟩)
      (.renumber [(0, 1), (1, 0)]) = [⟨1, 0⟩, ⟨0, 1⟩] := by
    simp [Standing.afterRound, Standing.moveAll, Renumbering.lastAsked, List.mergeSort]
  rw [areSwapped] at swapped
  have firstSource : ((shardFrom 0).startingAt 1).rows = [[("a", .long 1)]] :=
    rows_startingAt_entryShard (by decide +kernel) (areFrom (entryShard 0 1) (by simp [entryTable]))
  have secondSource : ((shardFrom 1).startingAt 7).rows = [[("a", .long 2)]] :=
    rows_startingAt_entryShard (by decide +kernel) (areFrom (entryShard 1 2) (by simp [entryTable]))
  have inOrder : inRowOrder [(shardFrom 1).startingAt 7, (shardFrom 0).startingAt 1] =
      [(shardFrom 0).startingAt 1, (shardFrom 1).startingAt 7] := by
    simp [inRowOrder, List.mergeSort]
  refine ⟨flattened, flattens, by simp [firstRows], _, swapped.move_start 0 7, ?_, ?_⟩
  · exact (congrArg (List.map Shard.lowestRow) inOrder).trans (by simp)
  · exact (congrArg (List.map Shard.rows) inOrder).trans (by simp [firstSource, secondSource])

theorem move_after_rounds_entryTable :
    (entryTable.shards.map Shard.lowestRow).Nodup ∧ ∃ flattened,
      Flattening.flattenTable {} entryTable none "a[*]" default = .ok flattened ∧
      let reached := flattened.afterRounds [.rebase default, .renumber [(0, 1), (1, 0)]]
      ∃ shardFrom : Int → Shard,
        reached.shards = [(shardFrom 1).startingAt 0, (shardFrom 0).startingAt 1] ∧
        (Renumbering.start reached).move 0 7 =
          .ok ⟨reached, [⟨0, (shardFrom 1).startingAt 7⟩, ⟨1, (shardFrom 0).startingAt 1⟩]⟩ ∧
        (Renumbering.start reached).move 5 7 =
          .error (.misalignedShard ("<" ++ reached.name ++ ">") 5 7) := by
  have distinct : (entryTable.shards.map Shard.lowestRow).Nodup := by decide
  rcases exists_flattenTable_entryTable with ⟨flattened, flattens, _⟩
  have firstRows : flattened.originalFirstRows = [0, 1] :=
    (Flattening.standsAs_of_flattenTable flattens distinct).1.trans
      (sortDistinct_eq_self (by decide))
  rcases move_after_rounds flattens distinct [.rebase default, .renumber [(0, 1), (1, 0)]] with
    ⟨shardFrom, _, _, _, areShards, moves, _⟩
  have areSwapped : Standing.afterRounds flattened.originalFirstRows
      [.rebase default, .renumber [(0, 1), (1, 0)]] = [⟨1, 0⟩, ⟨0, 1⟩] := by
    simp [firstRows, Standing.afterRounds, Standing.afterRound, Standing.moveAll,
      Renumbering.lastAsked, List.mergeSort]
  rw [areSwapped] at areShards moves
  exact ⟨distinct, flattened, flattens, shardFrom, areShards, moves 0 7, moves 5 7⟩

end FlattenedTable

end Unnest
