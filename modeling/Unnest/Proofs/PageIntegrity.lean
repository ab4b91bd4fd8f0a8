import Unnest.Proofs.ColumnBuilding

/-!
# What cutting keeps of pages

A page is intact when it has rows and its packed ids are read consistently, so that it may be read
as a whole or row by row, however many adapters lie in front.  Its stored ids decode when both ways
of reading give an id for every row.  The ids of a page dictionary ascend and are ids of the column
dictionary when the dictionary was made by encoding, or renumbered from such a one into an ascending
union.  Pages that are cut out of others keep all of this.
-/

namespace Unnest

/-! ## Local ids -/

namespace PageValues

/-- The packed ids behind the adapters are read consistently. -/
def IsSound : PageValues → Prop
  | .packed ids => ids.IsWellFormed
  | .without base _ => base.IsSound
  | .only base _ => base.IsSound
  | .constant _ => True

theorem toList_eq_filterMap_get? {values : PageValues} (sound : values.IsSound) :
    values.toList = (List.range values.length).filterMap values.get? := by
  cases values with
  | packed ids =>
      have readOneByOne : (PageValues.packed ids).get? = fun index => ids.toList[index]? :=
        funext (PackedIds.get?_eq_getElem? sound)
      rw [readOneByOne, length, ← PackedIds.length_toList sound]
      exact (pick_range ids.toList).symm
  | without base removed => rfl
  | only base kept => rfl
  | constant count =>
      have readOneByOne : ∀ index ∈ List.range count,
          (PageValues.constant count).get? index = some 0 := by
        intro index member
        rw [get?, if_pos (List.mem_range.mp member)]
      rw [length, List.filterMap_congr readOneByOne]
      simp [toList]

end PageValues

/-! ## Page dictionaries -/

namespace PageDictionary

/-- The ids of the dictionary ascend, and are ids of a column dictionary of the given size. -/
structure IsAscendingWithin (dictionary : PageDictionary) (size : Nat) : Prop where
  within : ∀ localId id, dictionary.decode? localId = some id → 0 ≤ id ∧ id < size
  ascending : ∀ left right leftId rightId, left < right →
    dictionary.decode? left = some leftId → dictionary.decode? right = some rightId →
    leftId < rightId

theorem isAscendingWithin_constant {size : Nat} {id : Int} (isNatural : 0 ≤ id)
    (bound : id < size) : (PageDictionary.constant id).IsAscendingWithin size := by
  have isZero : ∀ localId found, (PageDictionary.constant id).decode? localId = some found →
      localId = 0 ∧ found = id := by
    intro localId found decoded
    rw [decode?] at decoded
    split at decoded
    · rename_i zero
      exact ⟨zero, (Option.some.inj decoded).symm⟩
    · cases decoded
  constructor
  · intro localId found decoded
    rw [(isZero localId found decoded).2]
    exact ⟨isNatural, bound⟩
  · intro left right leftId rightId below leftDecoded rightDecoded
    have leftZero := (isZero left leftId leftDecoded).1
    have rightZero := (isZero right rightId rightDecoded).1
    omega

theorem exists_getElem_of_decode?_plain {ids : List Int} {localId id : Int}
    (decoded : (PageDictionary.plain ids.toArray).decode? localId = some id) :
    0 ≤ localId ∧ ∃ bound : localId.toNat < ids.length, ids[localId.toNat] = id := by
  rw [decode?] at decoded
  split at decoded
  · rename_i isNatural
    rw [List.getElem?_toArray] at decoded
    exact ⟨isNatural, List.getElem?_eq_some_iff.mp decoded⟩
  · cases decoded

theorem isAscendingWithin_plain {ids : List Int} (ascending : Ascending ids) {size : Nat}
    (bounded : ∀ id ∈ ids, 0 ≤ id ∧ id < size) :
    (PageDictionary.plain ids.toArray).IsAscendingWithin size := by
  constructor
  · intro localId id decoded
    obtain ⟨_, inRange, isThere⟩ := exists_getElem_of_decode?_plain decoded
    exact bounded id (isThere ▸ List.getElem_mem inRange)
  · intro left right leftId rightId below leftDecoded rightDecoded
    obtain ⟨leftNatural, leftBound, rfl⟩ := exists_getElem_of_decode?_plain leftDecoded
    obtain ⟨_, rightBound, rfl⟩ := exists_getElem_of_decode?_plain rightDecoded
    have places : left.toNat < right.toNat := by omega
    exact Int.compare_eq_lt.mp
      (List.pairwise_iff_getElem.mp ascending _ _ leftBound rightBound places)

end PageDictionary

namespace Page

/-- The page has rows, and is read consistently. -/
structure IsIntact (page : Page) : Prop where
  hasRows : page.rowCount ≠ 0
  sound : page.values.IsSound

theorem Reads.ids_eq_of_oneByOne {page : Page} {ids : List Int} (reads : page.Reads ids)
    (oneByOne : page.values.toList =
      (List.range page.values.length).filterMap page.values.get?) : page.ids = ids := by
  have readOneByOne : page.ids = (List.range page.rowCount).filterMap page.id? := by
    rw [Page.ids, oneByOne, List.filterMap_filterMap]
    rfl
  rw [readOneByOne, reads.1]
  refine (List.filterMap_congr ?_).trans (pick_range ids)
  intro index member
  exact reads.2 index (List.mem_range.mp member)

theorem Reads.ids_eq {page : Page} {ids : List Int} (reads : page.Reads ids)
    (sound : page.values.IsSound) : page.ids = ids :=
  reads.ids_eq_of_oneByOne (PageValues.toList_eq_filterMap_get? sound)

theorem Reads.unique {page : Page} {first second : List Int} (firstReads : page.Reads first)
    (secondReads : page.Reads second) : first = second := by
  have sameLength : first.length = second.length := by rw [← firstReads.1, secondReads.1]
  apply List.ext_getElem?
  intro index
  by_cases inside : index < first.length
  · rw [← firstReads.2 index inside, ← secondReads.2 index (sameLength ▸ inside)]
  · rw [List.getElem?_eq_none (by omega), List.getElem?_eq_none (by omega)]

/-- Every stored id decodes: reading the page as a whole gives an id for each row, and the same ones
as reading it row by row. -/
def Decodes (page : Page) : Prop :=
  page.Reads page.ids

theorem Decodes.resolves {page : Page} (decodes : page.Decodes) : page.Resolves :=
  Reads.resolves decodes

theorem Resolves.decodes {page : Page} (resolves : page.Resolves) (sound : page.values.IsSound) :
    page.Decodes := by
  rcases resolves.exists_reads with ⟨ids, reads⟩
  rwa [Decodes, reads.ids_eq sound]

theorem isIntact_encode (firstRow : Int) {ids : List Int} (notEmpty : ids ≠ []) :
    (encode firstRow ids).IsIntact where
  hasRows := by
    rw [(reads_encode firstRow ids).1]
    exact fun isEmpty => notEmpty (List.eq_nil_of_length_eq_zero isEmpty)
  sound := PackedIds.isWellFormed_encode _

theorem isIntact_constant (firstRow id : Int) {count : Nat} (notZero : count ≠ 0) :
    (Page.constant firstRow count id).IsIntact :=
  ⟨notZero, trivial⟩

theorem isAscendingWithin_encode (firstRow : Int) {ids : List Int} {size : Nat}
    (bounded : ∀ id ∈ ids, 0 ≤ id ∧ id < size) :
    (encode firstRow ids).dictionary.IsAscendingWithin size :=
  PageDictionary.isAscendingWithin_plain (ascending_sortDistinct ids) fun id member =>
    bounded id ((mem_sortDistinct id ids).mp member)

theorem isAscendingWithin_renumbered {kind : ScalarType} {page : Page} {ids : IdMap}
    {source target : Dictionary kind.Carrier}
    (renumbers : DictionaryUnion.Renumbers ids source target)
    (isAscending : page.dictionary.IsAscendingWithin source.size) :
    (page.renumberedDictionary ids).IsAscendingWithin target.size := by
  constructor
  · intro localId id decoded
    rw [decode?_renumberedDictionary] at decoded
    obtain ⟨old, isOld, rfl⟩ := Option.map_eq_some_iff.mp decoded
    have inSource := isAscending.within localId old isOld
    rw [← Dictionary.isSome_decode?_iff, renumbers.decode?_apply old inSource.1 inSource.2,
      Dictionary.isSome_decode?_iff]
    exact inSource
  · intro left right leftId rightId below leftDecoded rightDecoded
    rw [decode?_renumberedDictionary] at leftDecoded rightDecoded
    obtain ⟨oldLeft, isLeft, rfl⟩ := Option.map_eq_some_iff.mp leftDecoded
    obtain ⟨oldRight, isRight, rfl⟩ := Option.map_eq_some_iff.mp rightDecoded
    exact renumbers.apply_lt_apply oldLeft oldRight (isAscending.within left oldLeft isLeft).1
      (isAscending.ascending left right oldLeft oldRight below isLeft isRight)
      (isAscending.within right oldRight isRight).2

/-! ## Selecting rows -/

/-- The page keeps the local ids of another one, maybe behind an adapter, or was encoded anew from
what that one resolves to. -/
inductive IsCutFrom (page : Page) (ids : IdMap) : Page → Prop where
  | whole (firstRow : Int) :
      IsCutFrom page ids ⟨firstRow, page.renumberedDictionary ids, page.values⟩
  | without (firstRow : Int) (removed : Array Nat) :
      IsCutFrom page ids ⟨firstRow, page.renumberedDictionary ids, .without page.values removed⟩
  | only (firstRow : Int) (kept : Array Nat) :
      IsCutFrom page ids ⟨firstRow, page.renumberedDictionary ids, .only page.values kept⟩
  | encoded (firstRow : Int) {positions : List Nat} {columnIds : List Int}
      (resolved : page.resolveAll (page.renumberedDictionary ids) positions = .ok columnIds) :
      IsCutFrom page ids (.encode firstRow columnIds)

variable {page : Page} {ids : IdMap}

theorem mem_of_resolveAll {dictionary : PageDictionary} {positions : List Nat}
    {columnIds : List Int} (resolved : page.resolveAll dictionary positions = .ok columnIds) :
    ∀ id ∈ columnIds, ∃ localId, dictionary.decode? localId = some id := by
  induction positions generalizing columnIds with
  | nil =>
      cases resolved
      simp
  | cons position rest inductionHypothesis =>
      rw [resolveAll] at resolved
      split at resolved
      · cases resolved
      · rename_i first isFirst
        split at resolved
        · cases resolved
        · rename_i others areOthers
          cases resolved
          intro id member
          rcases List.mem_cons.mp member with rfl | inRest
          · obtain ⟨localId, _, decoded⟩ := Option.bind_eq_some_iff.mp isFirst
            exact ⟨localId, decoded⟩
          · exact inductionHypothesis areOthers id inRest

theorem select_eq_some {firstRow : Int} {selection : RowSelection} {cut : CutPage}
    (selected : page.select firstRow selection ids = .ok (some cut)) :
    PositionsWithin selection.positions page.rowCount ∧ selection.keptCount page.rowCount ≠ 0 ∧
      page.IsCutFrom ids cut.page := by
  rw [select] at selected
  split at selected
  · cases selected
  · rename_i isWithin
    split at selected
    · cases selected
    · rename_i someKept
      refine ⟨(isWithinPage_iff _ _).mp (by simpa using isWithin), someKept, ?_⟩
      dsimp only at selected
      split at selected
      · cases selected
        split
        · exact .whole firstRow
        · exact .without firstRow _
      · cases selected
        exact .only firstRow _
      · split at selected
        · cases selected
        · rename_i resolved
          cases selected
          exact .encoded firstRow resolved

theorem IsCutFrom.isSound {cut : Page} (isCutFrom : page.IsCutFrom ids cut)
    (sound : page.values.IsSound) : cut.values.IsSound := by
  cases isCutFrom with
  | whole => exact sound
  | without => exact sound
  | only => exact sound
  | encoded => exact PackedIds.isWellFormed_encode _

theorem IsCutFrom.isAscendingWithin {kind : ScalarType} {source target : Dictionary kind.Carrier}
    {cut : Page} (isCutFrom : page.IsCutFrom ids cut)
    (renumbers : DictionaryUnion.Renumbers ids source target)
    (isAscending : page.dictionary.IsAscendingWithin source.size) :
    cut.dictionary.IsAscendingWithin target.size := by
  have renumbered := isAscendingWithin_renumbered renumbers isAscending
  cases isCutFrom with
  | whole => exact renumbered
  | without => exact renumbered
  | only => exact renumbered
  | encoded firstRow resolved =>
      apply isAscendingWithin_encode
      intro id member
      obtain ⟨localId, decoded⟩ := mem_of_resolveAll resolved id member
      exact renumbered.within localId id decoded

/-- Behind a renumbered dictionary the same rows have the renumbered ids. -/
theorem Decodes.renumbered (decodes : page.Decodes) (firstRow : Int) (ids : IdMap) :
    Decodes ⟨firstRow, page.renumberedDictionary ids, page.values⟩ := by
  have readWhole : Page.ids ⟨firstRow, page.renumberedDictionary ids, page.values⟩ =
      page.ids.map ids.apply := by
    rw [Page.ids, Page.ids, List.map_filterMap]
    apply List.filterMap_congr
    intro localId _
    exact decode?_renumberedDictionary page ids localId
  rw [Decodes, readWhole]
  constructor
  · rw [List.length_map, ← decodes.1]
    rfl
  · intro index inside
    rw [List.length_map] at inside
    rw [List.getElem?_map, ← decodes.2 index inside, id?, id?, Option.map_bind]
    congr 1
    funext localId
    exact decode?_renumberedDictionary page ids localId

theorem IsCutFrom.decodes {cut : Page} (isCutFrom : page.IsCutFrom ids cut)
    (decodes : page.Decodes) (resolves : cut.Resolves) : cut.Decodes := by
  rcases resolves.exists_reads with ⟨found, reads⟩
  cases isCutFrom with
  | whole firstRow => exact decodes.renumbered firstRow ids
  -- Behind an adapter, reading as a whole is reading one by one.
  | without firstRow removed => rwa [Decodes, reads.ids_eq_of_oneByOne rfl]
  | only firstRow kept => rwa [Decodes, reads.ids_eq_of_oneByOne rfl]
  | encoded firstRow resolved => exact resolves.decodes (PackedIds.isWellFormed_encode _)

section Selected

variable {firstRow : Int} {selection : RowSelection} {cut : CutPage}

theorem resolves_of_select (resolves : page.Resolves)
    (selected : page.select firstRow selection ids = .ok (some cut)) :
    cut.page.rowCount ≠ 0 ∧ cut.page.Resolves := by
  rcases select_eq_some selected with ⟨within, someCount, _⟩
  rw [RowSelection.keptCount_eq_length within] at someCount
  have someKept : selection.kept page.rowCount ≠ [] := by
    intro noneKept
    exact someCount (by rw [noneKept, List.length_nil])
  rcases resolves.exists_reads with ⟨source, reads⟩
  rcases select_eq_ok_some reads within someKept firstRow ids with ⟨found, isFound, _, cutReads, _⟩
  rw [selected] at isFound
  cases isFound
  refine ⟨?_, cutReads.resolves⟩
  rw [cutReads.1, List.length_map, length_pick]
  · exact someCount
  · rw [← reads.1]
    exact (RowSelection.positionsWithin_kept within).2

theorem isIntact_of_select (sound : page.values.IsSound) (resolves : page.Resolves)
    (selected : page.select firstRow selection ids = .ok (some cut)) : cut.page.IsIntact where
  hasRows := (resolves_of_select resolves selected).1
  sound := (select_eq_some selected).2.2.isSound sound

end Selected

end Page

section Cutting

variable {Meets : Page → Prop} {ids : IdMap} {pages : List Page}

/-- Every selection of rows from one of the pages meets a condition. -/
def SelectionsMeet (Meets : Page → Prop) (ids : IdMap) (pages : List Page) : Prop :=
  ∀ page ∈ pages, ∀ firstRow selection cut,
    page.select firstRow selection ids = .ok (some cut) → Meets cut.page

theorem meets_of_cutPages (selectionsMeet : SelectionsMeet Meets ids pages) {nextRow : Int}
    {rows : List Int} {cut : List OutputPage} (isCut : cutPages ids nextRow pages rows = .ok cut) :
    ∀ output ∈ cut, Meets output.page := by
  induction pages generalizing nextRow rows cut with
  | nil =>
      rw [cutPages] at isCut
      cases isCut
      simp
  | cons page rest inductionHypothesis =>
      have restMeet : SelectionsMeet Meets ids rest :=
        fun other member => selectionsMeet other (List.mem_cons_of_mem _ member)
      rw [cutPages] at isCut
      split at isCut
      · cases isCut
        simp
      · dsimp only at isCut
        split at isCut
        · exact inductionHypothesis restMeet isCut
        · split at isCut
          · cases isCut
          · exact inductionHypothesis restMeet isCut
          · rename_i first selected
            split at isCut
            · cases isCut
            · rename_i others areOthers
              cases isCut
              intro output member
              rcases List.mem_cons.mp member with rfl | inRest
              · exact selectionsMeet page List.mem_cons_self _ _ _ selected
              · exact inductionHypothesis restMeet areOthers output inRest

theorem meets_of_cutRows (selectionsMeet : SelectionsMeet Meets ids pages) {nextRow : Int}
    {rows : List Int} {cut : List OutputPage} (isCut : cutRows ids nextRow pages rows = .ok cut) :
    ∀ output ∈ cut, Meets output.page := by
  rw [cutRows] at isCut
  split at isCut
  · cases isCut
  · rename_i found isFound
    split at isCut
    · cases isCut
      exact meets_of_cutPages selectionsMeet isFound
    · cases isCut

theorem meets_of_constantPages {id : Int}
    (constantsMeet : ∀ firstRow count, count ≠ 0 → Meets (Page.constant firstRow count id))
    (maxPageRows : Nat) (nextRow : Int) (count : Nat) :
    ∀ output ∈ constantPages maxPageRows id nextRow count, Meets output.page := by
  fun_induction constantPages maxPageRows id nextRow count with
  | case1 nextRow => simp
  | case2 nextRow count notEmpty size inductionHypothesis =>
      intro output member
      rcases List.mem_cons.mp member with rfl | inRest
      · exact constantsMeet nextRow size (by omega)
      · exact inductionHypothesis output inRest

namespace Flattening

theorem meets_of_cutPasses (selectionsMeet : SelectionsMeet Meets IdMap.identity pages)
    {nextRow : Int} {passes : List Pass} {cut : List OutputPage}
    (isCut : cutPasses pages nextRow passes = .ok cut) : ∀ output ∈ cut, Meets output.page := by
  induction passes generalizing nextRow cut with
  | nil =>
      cases isCut
      simp
  | cons pass rest inductionHypothesis =>
      rw [cutPasses] at isCut
      split at isCut
      · cases isCut
      · rename_i here isHere
        split at isCut
        · cases isCut
        · rename_i others areOthers
          cases isCut
          intro output member
          rcases List.mem_append.mp member with isFirst | isLater
          · exact meets_of_cutRows selectionsMeet isHere output isFirst
          · exact inductionHypothesis areOthers output isLater

variable {kind : ScalarType} {maxPageRows : Nat} {sources : List (LeafSource kind)}
  {union : DictionaryUnion Nat kind}

/-- Whatever is cut for a leaf meets a condition, out of the pages of its source or as defaults. -/
def LeavesMeet (Meets : Page → Prop) (sources : List (LeafSource kind))
    (union : DictionaryUnion Nat kind) : Prop :=
  ∀ leaf, ∀ source : LeafSource kind, sources[leaf]? = some source →
    match source with
    | some (_, pages) => SelectionsMeet Meets (union.idMap leaf) pages
    | none => ∀ firstRow count, count ≠ 0 →
        Meets (Page.constant firstRow count ((union.idMap leaf).apply 0))

theorem meets_of_cutRun (leavesMeet : LeavesMeet Meets sources union) {nextRow : Int}
    {run : LeafRows} (isLeaf : run.leaf < sources.length) {cut : List OutputPage}
    (isCut : cutRun maxPageRows sources union nextRow run = .ok cut) :
    ∀ output ∈ cut, Meets output.page := by
  have isSource := List.getElem?_eq_getElem isLeaf
  have leafMeets := leavesMeet run.leaf _ isSource
  rw [cutRun, isSource] at isCut
  cases shape : sources[run.leaf] with
  | none =>
      simp only [shape] at leafMeets isCut
      cases isCut
      exact meets_of_constantPages leafMeets _ _ _
  | some found =>
      simp only [shape] at leafMeets isCut
      exact meets_of_cutRows leafMeets isCut

theorem meets_of_cutRuns (leavesMeet : LeavesMeet Meets sources union) {nextRow : Int}
    {runs : List LeafRows} (areLeaves : ∀ run ∈ runs, run.leaf < sources.length)
    {cut : List OutputPage} (isCut : cutRuns maxPageRows sources union nextRow runs = .ok cut) :
    ∀ output ∈ cut, Meets output.page := by
  induction runs generalizing nextRow cut with
  | nil =>
      cases isCut
      simp
  | cons run rest inductionHypothesis =>
      rw [cutRuns] at isCut
      split at isCut
      · cases isCut
      · rename_i here isHere
        split at isCut
        · cases isCut
        · rename_i others areOthers
          cases isCut
          intro output member
          rcases List.mem_append.mp member with isFirst | isLater
          · exact meets_of_cutRun leavesMeet (areLeaves run List.mem_cons_self) isHere output
              isFirst
          · exact inductionHypothesis
              (fun other isOther => areLeaves other (List.mem_cons_of_mem _ isOther)) areOthers
              output isLater

end Flattening

end Cutting

end Unnest
