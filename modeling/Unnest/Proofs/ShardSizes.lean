import Unnest.Flattening
import Unnest.Proofs.CacheAnswers
import Unnest.Proofs.RefusedDocuments

/-!
# What the size of the shards decides

A table of documents is flattened shard by shard, and every shard is flattened or refused by what
its own documents are.  So documents that can be flattened together can be refused in smaller
shards, and the other way round: a length that an entry needs may only be stored by another
document, and a column may only agree with its neighbours because of one.  Where two sizes both
succeed, they give the same number of rows (`Flattening.flattenTable_shardSizes`).
-/

namespace Unnest

namespace Document

/-! ## Shards of documents -/

/-- Each of the pieces is loaded as one of the shards. -/
def PiecesAreLoadedAs (settings : FlattenSettings) (pieces : List (List Json))
    (shards : List Shard) : Prop :=
  List.Forall₂ (fun piece shard => ∃ lowestRow, AreLoadedAs settings lowestRow piece shard)
    pieces shards

theorem loadPieces_eq_ok {settings : FlattenSettings} {table : String} {lowestRow : Int}
    {pieces : List (List Json)} {shards : List Shard}
    (regular : ∀ piece ∈ pieces, ∀ document ∈ piece, document.IsRegular)
    (loads : loadPieces settings table lowestRow pieces = .ok shards) :
    PiecesAreLoadedAs settings pieces shards ∧
      (∀ shard ∈ shards, lowestRow ≤ shard.lowestRow) ∧
      (shards.map Shard.lowestRow).Pairwise (· ≤ ·) := by
  induction pieces generalizing lowestRow shards with
  | nil =>
      cases loads
      exact ⟨.nil, by simp, .nil⟩
  | cons piece rest inductionHypothesis =>
      rw [loadPieces] at loads
      split at loads
      · cases loads
      · rename_i first isFirst
        split at loads
        · cases loads
        · rename_i others areOthers
          cases loads
          have firstLoaded := areLoadedAs_of_loadShard (regular piece List.mem_cons_self) isFirst
          obtain ⟨othersLoaded, othersAbove, othersOrdered⟩ := inductionHypothesis
            (fun other member => regular other (List.mem_cons_of_mem _ member)) areOthers
          have above : ∀ shard ∈ others, lowestRow ≤ shard.lowestRow := by
            intro shard isOther
            have := othersAbove shard isOther
            omega
          refine ⟨.cons ⟨lowestRow, firstLoaded⟩ othersLoaded, ?_, ?_⟩
          · exact List.forall_mem_cons.mpr ⟨firstLoaded.lowestRow.ge, above⟩
          · rw [List.map_cons, List.pairwise_cons]
            refine ⟨?_, othersOrdered⟩
            intro later isLater
            obtain ⟨shard, isOther, rfl⟩ := List.mem_map.mp isLater
            rw [firstLoaded.lowestRow]
            exact above shard isOther

theorem mem_of_mem_chunks {size : Nat} {documents piece : List Json}
    (isPiece : piece ∈ chunks size documents) {document : Json} (isMember : document ∈ piece) :
    document ∈ documents := by
  rw [← flatten_chunks size documents]
  exact List.mem_flatten_of_mem isPiece isMember

end Document

theorem total_flatten {α : Type} (count : α → Nat) (pieces : List (List α)) :
    total count pieces.flatten = total (total count) pieces := by
  induction pieces with
  | nil => rfl
  | cons piece rest inductionHypothesis =>
      rw [List.flatten_cons, total_append, total_cons, inductionHypothesis]

namespace Flattening

open Document

theorem flattenShards_succeedsIff {settings : FlattenSettings} {target : FieldPath}
    (isTarget : target.IsTarget) {pieces : List (List Json)} {shards : List Shard}
    (areLoaded : PiecesAreLoadedAs settings pieces shards) (output : String) :
    SucceedsIff (∀ piece ∈ pieces, ¬ AreRefused piece target)
      (fun flattened => (∀ piece ∈ pieces, ¬ AreHollow piece target) →
        total Shard.rowCount flattened =
          total (total fun document => document.factorAt target.repeatedPrefixes) pieces)
      (flattenShards settings target output shards) := by
  induction areLoaded with
  | nil => exact .success (by simp) fun _ => rfl
  | @cons piece shard rest others isLoaded restLoaded inductionHypothesis =>
      obtain ⟨lowestRow, areLoadedAs⟩ := isLoaded
      have here := areLoadedAs.flattenShardBy_succeedsIff isTarget output
      rw [flattenShards, List.forall_mem_cons]
      generalize flattenShardBy settings shard target output = first at here
      generalize flattenShards settings target output others = later at inductionHypothesis
      cases here with
      | failure error fails => exact .failure error fun all => fails all.1
      | success notRefused firstCounts =>
          cases inductionHypothesis with
          | failure error fails => exact .failure error fun all => fails all.2
          | success restNotRefused restCounts =>
              refine .success ⟨notRefused, restNotRefused⟩ fun notHollow => ?_
              obtain ⟨firstNotHollow, restNotHollow⟩ := List.forall_mem_cons.mp notHollow
              rw [total_cons, total_cons, firstCounts firstNotHollow, restCounts restNotHollow]

/-! ## Tables -/

theorem flattenTable_succeedsIff {settings : FlattenSettings} {table : String}
    {documents : List Json} (regular : ∀ document ∈ documents, document.IsRegular)
    {flattenBy : String} {target : FieldPath} (accepted : readTarget flattenBy = .ok target)
    {shardRows : Nat} {shards : List Shard}
    (loads : loadShards settings table shardRows documents = .ok shards) (id : FlattenId) :
    SucceedsIff (∀ piece ∈ chunks shardRows documents, ¬ AreRefused piece target)
      (fun flattened => (∀ piece ∈ chunks shardRows documents, ¬ AreHollow piece target) →
        total Shard.rowCount flattened.shards =
          total (fun document => document.factorAt target.repeatedPrefixes) documents)
      (flattenTable settings (Table.load table shards) none flattenBy id) := by
  have piecesRegular : ∀ piece ∈ chunks shardRows documents,
      ∀ document ∈ piece, document.IsRegular := by
    intro piece isPiece document isMember
    exact regular document (mem_of_mem_chunks isPiece isMember)
  obtain ⟨areLoaded, _, ordered⟩ := loadPieces_eq_ok piecesRegular loads
  have sameShards : (Table.load table shards).shards = shards := inRowOrder_eq_self ordered
  have outcome := flattenShards_succeedsIff (isTarget_of_readTarget accepted) areLoaded
    (flattenedTableName table target.toText)
  have sameName : (Table.load table shards).name = table := rfl
  have notFlattened : (Table.load table shards).isFlattened = false := rfl
  rw [flattenTable, notFlattened, if_neg Bool.false_ne_true, accepted]
  dsimp only
  rw [flattenTableBy, Option.getD_none, sameShards, sameName]
  generalize flattenShards settings target (flattenedTableName table target.toText) shards = result
    at outcome
  cases outcome with
  | failure error fails => exact .failure error fails
  | success notRefused counts =>
      refine .success notRefused fun notHollow => ?_
      refine (total_perm (List.mergeSort_perm _ _)).trans ?_
      rw [counts notHollow, ← total_flatten, flatten_chunks]

/-- A table of documents can be flattened exactly if no piece of them that becomes a shard is
refused, which only depends on the documents of the piece.  If two sizes of the shards succeed, and
neither has hollow shards, they give the same number of rows: as many as the documents stand for. -/
theorem flattenTable_shardSizes (settings : FlattenSettings) {table : String}
    {documents : List Json} (regular : ∀ document ∈ documents, document.IsRegular)
    {flattenBy : String} {target : FieldPath} (accepted : readTarget flattenBy = .ok target)
    {shardRows otherRows : Nat} {shards others : List Shard}
    (loads : loadShards settings table shardRows documents = .ok shards)
    (loadsOthers : loadShards settings table otherRows documents = .ok others) (id : FlattenId) :
    ((∃ flattened, flattenTable settings (Table.load table shards) none flattenBy id =
        .ok flattened) ↔ ∀ piece ∈ chunks shardRows documents, ¬ AreRefused piece target) ∧
    ((∃ flattened, flattenTable settings (Table.load table others) none flattenBy id =
        .ok flattened) ↔ ∀ piece ∈ chunks otherRows documents, ¬ AreRefused piece target) ∧
    ∀ first second,
      flattenTable settings (Table.load table shards) none flattenBy id = .ok first →
      flattenTable settings (Table.load table others) none flattenBy id = .ok second →
      (∀ piece ∈ chunks shardRows documents ++ chunks otherRows documents,
        ¬ AreHollow piece target) →
      total Shard.rowCount first.shards =
          total (fun document => document.factorAt target.repeatedPrefixes) documents ∧
        total Shard.rowCount second.shards = total Shard.rowCount first.shards := by
  have outcome := flattenTable_succeedsIff regular accepted loads id
  have otherOutcome := flattenTable_succeedsIff regular accepted loadsOthers id
  refine ⟨outcome.exists_ok_iff, otherOutcome.exists_ok_iff, ?_⟩
  intro first second isFirst isSecond notHollow
  obtain ⟨firstNotHollow, secondNotHollow⟩ := List.forall_mem_append.mp notHollow
  have firstCount := outcome.meets isFirst firstNotHollow
  have secondCount := otherOutcome.meets isSecond secondNotHollow
  exact ⟨firstCount, secondCount.trans firstCount.symm⟩

/-! ## Documents that are alike, and unlike -/

section Examples

/-- An object with an array of objects in one field. -/
def arrayDocument (items : List (List (String × Json))) : Json :=
  .object [("a", .array (items.map .object))]

theorem isRegular_arrayDocument {items : List (List (String × Json))}
    (short : items.length < FieldPath.positionBound)
    (regular : ∀ fields ∈ items, (Json.object fields).IsRegular) :
    (arrayDocument items).IsRegular := by
  refine (Json.everywhere_object _ _).mpr ⟨List.pairwise_singleton _ _, ?_⟩
  refine List.forall_mem_singleton.mpr ((Json.everywhere_array _ _).mpr ⟨?_, ?_⟩)
  · simpa [Json.HasRegularParts] using short
  · intro item isItem
    obtain ⟨fields, isFields, rfl⟩ := List.mem_map.mp isItem
    exact regular fields isFields

/-- Two documents whose entries have the same fields. -/
def alikeDocuments : List Json :=
  [arrayDocument [[("b", .integer 1)], [("b", .integer 2)]], arrayDocument [[("b", .integer 3)]]]

/-- Two documents of which only the first has a nested array. -/
def unlikeDocuments : List Json :=
  [arrayDocument [[("b", .array [.integer 1])]], arrayDocument [[("c", .integer 2)]]]

theorem isRegular_integerField (name : String) (value : Int) :
    (Json.object [(name, .integer value)]).IsRegular :=
  (Json.everywhere_object _ _).mpr ⟨List.pairwise_singleton _ _,
    List.forall_mem_singleton.mpr (Json.everywhere_flat (by simp) (by simp) trivial)⟩

theorem isRegular_alikeDocuments : ∀ document ∈ alikeDocuments, document.IsRegular := by
  refine List.forall_mem_cons.mpr ⟨?_, List.forall_mem_singleton.mpr ?_⟩
  · refine isRegular_arrayDocument (by decide) (List.forall_mem_cons.mpr ⟨?_, ?_⟩)
    · exact isRegular_integerField "b" 1
    · exact List.forall_mem_singleton.mpr (isRegular_integerField "b" 2)
  · exact isRegular_arrayDocument (by decide)
      (List.forall_mem_singleton.mpr (isRegular_integerField "b" 3))

theorem isRegular_unlikeDocuments : ∀ document ∈ unlikeDocuments, document.IsRegular := by
  have isRegularArray : (Json.array [.integer 1]).IsRegular := by
    have short : [Json.integer 1].length < FieldPath.positionBound := by decide
    exact (Json.everywhere_array _ _).mpr ⟨short,
      List.forall_mem_singleton.mpr (Json.everywhere_flat (by simp) (by simp) trivial)⟩
  have isRegularField : (Json.object [("b", .array [.integer 1])]).IsRegular :=
    (Json.everywhere_object _ _).mpr ⟨List.pairwise_singleton _ _,
      List.forall_mem_singleton.mpr isRegularArray⟩
  refine List.forall_mem_cons.mpr ⟨?_, List.forall_mem_singleton.mpr ?_⟩
  · exact isRegular_arrayDocument (by decide) (List.forall_mem_singleton.mpr isRegularField)
  · exact isRegular_arrayDocument (by decide)
      (List.forall_mem_singleton.mpr (isRegular_integerField "c" 2))

theorem exists_of_isOk {α : Type} {outcome : Outcome α} (isOk : outcome.isOk = true) :
    ∃ result, outcome = .ok result := by
  cases outcome with
  | ok result => exact ⟨result, rfl⟩
  | error error => cases isOk

theorem not_areRefused_alikeDocuments {piece : List Json}
    (isPiece : piece ∈ [alikeDocuments] ++ alikeDocuments.map ([·])) :
    ¬ AreRefused piece [⟨"a", .all⟩] ∧ ¬ AreHollow piece [⟨"a", .all⟩] := by
  have checked : ∀ piece ∈ [alikeDocuments] ++ alikeDocuments.map ([·]),
      (cellsOfAll 0 piece).isOk = true ∧
      (∀ first ∈ cellPaths piece, ∀ second ∈ cellPaths piece,
        (FieldPath.restOf? [⟨"a", .all⟩] first.toText).isSome = true →
        FieldPath.restOf? [⟨"a", .all⟩] first.toText =
          FieldPath.restOf? [⟨"a", .all⟩] second.toText →
        ScalarType.unionOf (cellKinds piece first) = ScalarType.unionOf (cellKinds piece second)) ∧
      (∀ outside ∈ cellPaths piece, FieldPath.keeps [⟨"a", .all⟩] outside.toText = false) ∧
      FieldPath.restOf? [⟨"a", .all⟩] "a[0].b" = some [⟨"b", .none⟩] ∧
      [⟨"a", .entry 0⟩, ⟨"b", .none⟩] ∈ cellPaths piece := by
    decide +kernel
  obtain ⟨areCollected, agree, noneKept, isInside, isPath⟩ := checked piece isPiece
  have regular : ∀ document ∈ piece, document.IsRegular := by
    intro document isMember
    apply isRegular_alikeDocuments
    rcases List.mem_append.mp isPiece with isWhole | isPart
    · rwa [← List.mem_singleton.mp isWhole]
    · obtain ⟨other, isOther, rfl⟩ := List.mem_map.mp isPart
      rwa [List.mem_singleton.mp isMember]
  constructor
  · rintro (lacks | conflict | collide)
    · have oneLevel : FieldPath.repeatedPrefixes [⟨"a", .all⟩] = [[⟨"a", .all⟩]] := by decide
      exact not_lacksLengthNamed oneLevel _ lacks
    · exact not_cellTypesConflict regular areCollected agree conflict
    · refine not_cellNamesCollide regular areCollected ?_ collide
      intro outside isOutside keeps
      rw [noneKept outside isOutside] at keeps
      cases keeps
  · rintro ⟨_, noOutput⟩
    refine noOutput ⟨[⟨"a", .entry 0⟩, ⟨"b", .none⟩],
      (isCellPath_iff_mem regular areCollected _).mpr isPath, Or.inr ⟨[⟨"b", .none⟩], ?_⟩⟩
    exact isInside

theorem flattenTable_shardSizes_alikeDocuments :
    (∀ document ∈ alikeDocuments, document.IsRegular) ∧ readTarget "a[*]" = .ok [⟨"a", .all⟩] ∧
      ∃ together apart first second,
        loadShards {} "t" 2 alikeDocuments = .ok together ∧
        loadShards {} "t" 1 alikeDocuments = .ok apart ∧
        flattenTable {} (Table.load "t" together) none "a[*]" default = .ok first ∧
        flattenTable {} (Table.load "t" apart) none "a[*]" default = .ok second ∧
        total Shard.rowCount first.shards = 3 ∧ total Shard.rowCount second.shards = 3 := by
  have accepted : readTarget "a[*]" = .ok [⟨"a", .all⟩] := by decide +kernel
  have onePiece : chunks 2 alikeDocuments = [alikeDocuments] := by simp [chunks, alikeDocuments]
  have twoPieces : chunks 1 alikeDocuments = alikeDocuments.map ([·]) := by
    simp [chunks, alikeDocuments]
  have pieces : ∀ piece ∈ chunks 2 alikeDocuments ++ chunks 1 alikeDocuments,
      ¬ AreRefused piece [⟨"a", .all⟩] ∧ ¬ AreHollow piece [⟨"a", .all⟩] := by
    rw [onePiece, twoPieces]
    exact fun piece isPiece => not_areRefused_alikeDocuments isPiece
  obtain ⟨togetherFit, apartFit⟩ := List.forall_mem_append.mp pieces
  have loadTogether : ∃ together, loadShards {} "t" 2 alikeDocuments = .ok together := by
    rw [loadShards, onePiece]
    exact exists_of_isOk (by decide +kernel)
  have loadApart : ∃ apart, loadShards {} "t" 1 alikeDocuments = .ok apart := by
    rw [loadShards, twoPieces]
    exact exists_of_isOk (by decide +kernel)
  obtain ⟨together, areTogether⟩ := loadTogether
  obtain ⟨apart, areApart⟩ := loadApart
  obtain ⟨togetherIff, apartIff, sameCounts⟩ := flattenTable_shardSizes {}
    isRegular_alikeDocuments accepted areTogether areApart default
  obtain ⟨first, isFirst⟩ := togetherIff.mpr fun piece isPiece => (togetherFit piece isPiece).1
  obtain ⟨second, isSecond⟩ := apartIff.mpr fun piece isPiece => (apartFit piece isPiece).1
  obtain ⟨firstCount, sameCount⟩ := sameCounts first second isFirst isSecond
    fun piece isPiece => (pieces piece isPiece).2
  have isThree : total (fun document => document.factorAt
      (FieldPath.repeatedPrefixes [⟨"a", .all⟩])) alikeDocuments = 3 := by
    decide +kernel
  rw [isThree] at firstCount
  exact ⟨isRegular_alikeDocuments, accepted, together, apart, first, second, areTogether, areApart,
    isFirst, isSecond, firstCount, sameCount.trans firstCount⟩

theorem not_areRefused_unlikeDocuments :
    ¬ AreRefused unlikeDocuments [⟨"a", .all⟩, ⟨"b", .all⟩] := by
  have regular := isRegular_unlikeDocuments
  have areCollected : (cellsOfAll 0 unlikeDocuments).isOk = true := by decide +kernel
  rintro (⟨_, document, isMember, passed, pattern, deeper, tuple, shape, realized, rfl, noCell⟩ |
    conflict | collide)
  · have levels : FieldPath.repeatedPrefixes [⟨"a", .all⟩, ⟨"b", .all⟩] =
        [[⟨"a", .all⟩], [⟨"a", .all⟩, ⟨"b", .all⟩]] := by decide
    rw [levels] at shape
    cases passed with
    | nil =>
        obtain ⟨rfl, _⟩ := List.cons.inj shape
        rw [Realizes.nil_iff.mp realized] at noCell
        exact noCell ⟨[⟨"a", .length⟩],
          (isCellPath_iff_mem regular areCollected _).mpr (by decide +kernel), by decide +kernel⟩
    | cons outer others =>
        obtain ⟨rfl, later⟩ := List.cons.inj shape
        cases others with
        | nil =>
            obtain ⟨rfl, _⟩ := List.cons.inj later
            have behindRoot : Realizes document.lengths ([] ++ [[⟨"a", .all⟩]]) tuple := realized
            obtain ⟨_, length, position, isRoot, isStored, below, rfl⟩ :=
              Realizes.concat_iff.mp behindRoot
            have oneEntry : ∀ other ∈ unlikeDocuments,
                other.lengths (lengthColumnName [⟨"a", .all⟩] []) = some 1 := by
              decide +kernel
            rw [Realizes.nil_iff.mp isRoot, oneEntry document isMember] at isStored
            cases isStored
            have isFirst : position = 0 := Nat.lt_one_iff.mp below
            rw [Realizes.nil_iff.mp isRoot, isFirst] at noCell
            exact noCell ⟨[⟨"a", .entry 0⟩, ⟨"b", .length⟩],
              (isCellPath_iff_mem regular areCollected _).mpr (by decide +kernel),
              by decide +kernel⟩
        | cons inner more => simp at later
  · exact not_cellTypesConflict regular areCollected (by decide +kernel) conflict
  · exact not_cellNamesCollide regular areCollected (by decide +kernel) collide

theorem areRefused_secondUnlikeDocument :
    AreRefused [arrayDocument [[("c", .integer 2)]]] [⟨"a", .all⟩, ⟨"b", .all⟩] := by
  have regular : ∀ document ∈ [arrayDocument [[("c", .integer 2)]]], document.IsRegular :=
    fun document isMember => isRegular_unlikeDocuments document (List.mem_cons_of_mem _ isMember)
  have areCollected : (cellsOfAll 0 [arrayDocument [[("c", .integer 2)]]]).isOk = true := by
    decide +kernel
  have isStored : (arrayDocument [[("c", .integer 2)]]).lengths
      (lengthColumnName [⟨"a", .all⟩] []) = some 1 := by decide +kernel
  have hasRoot : HasCellNamed [arrayDocument [[("c", .integer 2)]]]
      (lengthColumnName [⟨"a", .all⟩] []) :=
    ⟨[⟨"a", .length⟩], (isCellPath_iff_mem regular areCollected _).mpr (by decide +kernel),
      by decide +kernel⟩
  have hasEntry : Realizes (arrayDocument [[("c", .integer 2)]]).lengths [[⟨"a", .all⟩]] [0] :=
    .entry .root isStored (by decide)
  apply AreRefused.missingLength
  refine ⟨⟨[⟨"a", .all⟩], by decide, hasRoot⟩, _, List.mem_cons_self, [[⟨"a", .all⟩]],
    [⟨"a", .all⟩, ⟨"b", .all⟩], [], [0], by decide, hasEntry, rfl, ?_⟩
  rintro ⟨path, isPath, isName⟩
  have notThere : ∀ path ∈ cellPaths [arrayDocument [[("c", .integer 2)]]],
      path.toText ≠ lengthColumnName [⟨"a", .all⟩, ⟨"b", .all⟩] [0] := by
    decide +kernel
  exact notThere path ((isCellPath_iff_mem regular areCollected path).mp isPath) isName

/-- The size of the shards decides whether flattening succeeds. -/
theorem unlikeDocuments_succeed_together_only :
    (∀ document ∈ unlikeDocuments, document.IsRegular) ∧
      readTarget "a[*].b[*]" = .ok [⟨"a", .all⟩, ⟨"b", .all⟩] ∧
      ∃ together apart, loadShards {} "t" 2 unlikeDocuments = .ok together ∧
        loadShards {} "t" 1 unlikeDocuments = .ok apart ∧
        (∃ flattened, flattenTable {} (Table.load "t" together) none "a[*].b[*]" default =
          .ok flattened) ∧
        ¬ ∃ flattened, flattenTable {} (Table.load "t" apart) none "a[*].b[*]" default =
          .ok flattened := by
  have accepted : readTarget "a[*].b[*]" = .ok [⟨"a", .all⟩, ⟨"b", .all⟩] := by decide +kernel
  have onePiece : chunks 2 unlikeDocuments = [unlikeDocuments] := by
    simp [chunks, unlikeDocuments]
  have twoPieces : chunks 1 unlikeDocuments = unlikeDocuments.map ([·]) := by
    simp [chunks, unlikeDocuments]
  have loadTogether : ∃ together, loadShards {} "t" 2 unlikeDocuments = .ok together := by
    rw [loadShards, onePiece]
    exact exists_of_isOk (by decide +kernel)
  have loadApart : ∃ apart, loadShards {} "t" 1 unlikeDocuments = .ok apart := by
    rw [loadShards, twoPieces]
    exact exists_of_isOk (by decide +kernel)
  obtain ⟨together, areTogether⟩ := loadTogether
  obtain ⟨apart, areApart⟩ := loadApart
  have regular := isRegular_unlikeDocuments
  refine ⟨regular, accepted, together, apart, areTogether, areApart, ?_, ?_⟩
  · rw [(flattenTable_succeedsIff regular accepted areTogether default).exists_ok_iff, onePiece]
    exact List.forall_mem_singleton.mpr not_areRefused_unlikeDocuments
  · rw [(flattenTable_succeedsIff regular accepted areApart default).exists_ok_iff, twoPieces]
    intro noneRefused
    have isPiece : [arrayDocument [[("c", .integer 2)]]] ∈ unlikeDocuments.map ([·]) :=
      List.mem_cons_of_mem _ List.mem_cons_self
    exact noneRefused _ isPiece areRefused_secondUnlikeDocument

end Examples

end Flattening

end Unnest
