import Mathlib.Tactic.ByContra
import Unnest.Proofs.PackedIds
import Unnest.Proofs.Positions

/-!
# Reading pages

A page whose rows all resolve is read as the list of their column ids (`Page.Reads`).  This is a
statement about reading row by row only; reading a page as a whole agrees with it when the
adapters of the page keep their promise (`PageValues.IsWellFormed`), however deep they are nested.
-/

namespace Unnest

variable {α β : Type}

/-- The items at the given positions. -/
def pick (items : List α) (positions : List Nat) : List α :=
  positions.filterMap fun position => items[position]?

theorem pick_eq_map {items : List α} {positions : List Nat}
    (within : ∀ position ∈ positions, position < items.length) :
    (pick items positions).map some = positions.map fun position => items[position]? := by
  induction positions with
  | nil => rfl
  | cons position rest inductionHypothesis =>
      have bound := within position List.mem_cons_self
      have later := inductionHypothesis fun other member =>
        within other (List.mem_cons_of_mem _ member)
      simp only [pick] at later
      simp [pick, List.getElem?_eq_getElem bound, later]

theorem length_pick {items : List α} {positions : List Nat}
    (within : ∀ position ∈ positions, position < items.length) :
    (pick items positions).length = positions.length := by
  simpa using congrArg List.length (pick_eq_map within)

theorem getElem?_pick {items : List α} {positions : List Nat}
    (within : ∀ position ∈ positions, position < items.length) (index : Nat) :
    (pick items positions)[index]? = positions[index]?.bind fun position => items[position]? := by
  have picked := congrArg (fun found => found[index]?) (pick_eq_map within)
  simp only [List.getElem?_map] at picked
  cases place : positions[index]? with
  | none => simpa [place] using picked
  | some position =>
      cases item : (pick items positions)[index]? with
      | none => simp [place, item] at picked
      | some found => simpa [place, item] using picked

theorem pick_range (items : List α) : pick items (List.range items.length) = items := by
  apply List.ext_getElem?
  intro index
  rw [getElem?_pick (by simp)]
  by_cases bound : index < items.length <;> simp [bound]

/-! ## Local ids -/

namespace PageValues

/-- The leaves are read consistently, and the positions of every adapter ascend within the sequence
behind it. -/
def IsWellFormed : PageValues → Prop
  | .packed ids => ids.IsWellFormed
  | .without base removed => base.IsWellFormed ∧ PositionsWithin removed.toList base.length
  | .only base kept => base.IsWellFormed ∧ PositionsWithin kept.toList base.length
  | .constant _ => True

/-- The local ids in a row, as the leaves and the adapters mean them. -/
def contents : PageValues → List Int
  | .packed ids => ids.toList
  | .without base removed =>
      pick base.contents (complement removed.toList base.contents.length)
  | .only base kept => pick base.contents kept.toList
  | .constant count => List.replicate count 0

theorem length_contents {values : PageValues} (wellFormed : values.IsWellFormed) :
    values.contents.length = values.length := by
  induction values with
  | packed ids => exact PackedIds.length_toList wellFormed
  | without base removed inductionHypothesis =>
      obtain ⟨baseWellFormed, within⟩ := wellFormed
      have baseLength := inductionHypothesis baseWellFormed
      rw [← baseLength] at within
      have counted := length_complement within
      rw [contents, length, length_pick (positionsWithin_complement within.1 _).2, ← baseLength]
      simp only [Array.length_toList] at counted
      omega
  | only base kept inductionHypothesis =>
      obtain ⟨baseWellFormed, within⟩ := wellFormed
      rw [← inductionHypothesis baseWellFormed] at within
      rw [contents, length, length_pick within.2, Array.length_toList]
  | constant count => simp [contents, length]

/-- What an adapter that leaves positions out reads lies at the complement of these positions. -/
theorem get?_without (base : PageValues) {removed : Array Nat}
    (within : PositionsWithin removed.toList base.length) (index : Nat) :
    (PageValues.without base removed).get? index =
      (complement removed.toList base.length)[index]?.bind base.get? := by
  have counted := length_complement within
  have gap := getElem?_gapsFrom 0 base.length removed.toList within.1 (by simp) index
  rw [← complement, Nat.zero_add, ← add_removedBefore removed within.1] at gap
  rw [get?]
  simp only [Array.length_toList] at counted
  by_cases inside : index < base.length - removed.size
  · have hasGap : index < (complement removed.toList base.length).length := by omega
    rw [List.getElem?_eq_getElem hasGap] at gap ⊢
    rw [Nat.zero_add] at gap
    split at gap
    · simp only [inside, if_true, Option.bind_some]
      rw [Option.some.inj gap]
    · cases gap
  · have noGap : (complement removed.toList base.length).length ≤ index := by omega
    simp [inside, List.getElem?_eq_none noGap]

theorem get?_eq_getElem? {values : PageValues} (wellFormed : values.IsWellFormed)
    (index : Nat) : values.get? index = values.contents[index]? := by
  induction values generalizing index with
  | packed ids => exact PackedIds.get?_eq_getElem? wellFormed index
  | without base removed inductionHypothesis =>
      obtain ⟨baseWellFormed, within⟩ := wellFormed
      have complementWithin := (positionsWithin_complement within.1 base.length).2
      rw [get?_without base within, contents, length_contents baseWellFormed,
        getElem?_pick (by rwa [length_contents baseWellFormed])]
      exact congrArg _ (funext (inductionHypothesis baseWellFormed))
  | only base kept inductionHypothesis =>
      obtain ⟨baseWellFormed, within⟩ := wellFormed
      rw [← length_contents baseWellFormed] at within
      rw [get?, contents, getElem?_pick within.2, Array.getElem?_toList]
      exact congrArg _ (funext (inductionHypothesis baseWellFormed))
  | constant count =>
      by_cases inside : index < count <;> simp [get?, contents, inside]

/-- Reading all local ids gives the list that reading them one by one gives. -/
theorem toList_eq_contents {values : PageValues} (wellFormed : values.IsWellFormed) :
    values.toList = values.contents := by
  have readOneByOne :
      (List.range values.length).filterMap values.get? = values.contents := by
    rw [funext (get?_eq_getElem? wellFormed), ← length_contents wellFormed]
    exact pick_range values.contents
  cases values with
  | packed ids => rfl
  | without base removed => exact readOneByOne
  | only base kept => exact readOneByOne
  | constant count => rfl

end PageValues

/-! ## Column ids -/

namespace Page

/-- The rows of the page, read one by one, have these column ids. -/
def Reads (page : Page) (ids : List Int) : Prop :=
  page.rowCount = ids.length ∧ ∀ index, index < ids.length → page.id? index = ids[index]?

/-- Every row of the page has a column id. -/
def Resolves (page : Page) : Prop :=
  ∀ index, index < page.rowCount → (page.id? index).isSome = true

theorem Resolves.exists_reads {page : Page} (resolves : page.Resolves) :
    ∃ ids, page.Reads ids := by
  let ids := (List.range page.rowCount).map fun index => (page.id? index).getD 0
  refine ⟨ids, by simp [ids], ?_⟩
  intro index bound
  have inPage : index < page.rowCount := by simpa [ids] using bound
  obtain ⟨id, isThere⟩ := Option.isSome_iff_exists.mp (resolves index inPage)
  simp [ids, inPage, isThere]

theorem Reads.resolves {page : Page} {ids : List Int} (reads : page.Reads ids) :
    page.Resolves := by
  intro index bound
  rw [reads.1] at bound
  rw [reads.2 index bound]
  simp [bound]

theorem id?_eq_bind_contents {page : Page} (wellFormed : page.values.IsWellFormed)
    (index : Nat) :
    page.id? index = page.values.contents[index]?.bind page.dictionary.decode? := by
  rw [id?, PageValues.get?_eq_getElem? wellFormed]

/-- Reading a page as a whole gives the column ids of its rows. -/
theorem ids_eq_of_reads {page : Page} {ids : List Int} (wellFormed : page.values.IsWellFormed)
    (reads : page.Reads ids) : page.ids = ids := by
  have sameLength : page.values.contents.length = ids.length := by
    rw [PageValues.length_contents wellFormed]
    exact reads.1
  have decoded : page.values.contents.map page.dictionary.decode? = ids.map some := by
    apply List.ext_getElem (by simpa using sameLength)
    intro index bound _
    have inIds : index < ids.length := by simpa [sameLength] using bound
    have isThere := reads.2 index inIds
    rw [id?_eq_bind_contents wellFormed, List.getElem?_eq_getElem (by simpa using bound),
      List.getElem?_eq_getElem inIds] at isThere
    simpa using isThere
  calc page.ids
      = (page.values.contents.map page.dictionary.decode?).filterMap id := by
        rw [Page.ids, PageValues.toList_eq_contents wellFormed, List.filterMap_map]
        rfl
    _ = (ids.map some).filterMap id := by rw [decoded]
    _ = ids := by simp

/-- A page whose rows resolve is read as a whole or row by row. -/
theorem Resolves.reads_ids {page : Page} (resolves : page.Resolves)
    (wellFormed : page.values.IsWellFormed) : page.Reads page.ids := by
  obtain ⟨ids, reads⟩ := resolves.exists_reads
  rwa [ids_eq_of_reads wellFormed reads]

/-- Behind the last row there are no column ids. -/
theorem Reads.id?_eq_getElem? {page : Page} {ids : List Int} (reads : page.Reads ids)
    (wellFormed : page.values.IsWellFormed) (index : Nat) : page.id? index = ids[index]? := by
  by_cases bound : index < ids.length
  · exact reads.2 index bound
  · have outside : page.values.contents.length ≤ index := by
      have sameCount : page.values.length = ids.length := reads.1
      rw [PageValues.length_contents wellFormed, sameCount]
      exact Nat.le_of_not_lt bound
    rw [id?_eq_bind_contents wellFormed, List.getElem?_eq_none outside,
      List.getElem?_eq_none (Nat.le_of_not_lt bound)]
    rfl

/-! ## Pages made anew -/

theorem localId_eq_idxOf {distinct : List Int} (ascending : Ascending distinct) {id : Int}
    (member : id ∈ distinct) : localId distinct.toArray id = distinct.idxOf id := by
  unfold localId
  congr 1
  apply ascending.boundary_eq_idxOf member
  intro place bound
  simp [Array.getD, bound, Int.compare_eq_lt]

theorem isWellFormed_encode (firstRow : Int) (ids : List Int) :
    (encode firstRow ids).values.IsWellFormed :=
  PackedIds.isWellFormed_encode _

/-- A page made of column ids is read as these ids. -/
theorem reads_encode (firstRow : Int) (ids : List Int) : (encode firstRow ids).Reads ids := by
  have wellFormed := isWellFormed_encode firstRow ids
  have localIds : (encode firstRow ids).values.contents =
      ids.map (localId (sortDistinct ids).toArray) :=
    PackedIds.toList_encode _
  constructor
  · rw [rowCount, ← PageValues.length_contents wellFormed, localIds, List.length_map]
  · intro index bound
    have member : ids[index] ∈ sortDistinct ids :=
      (mem_sortDistinct _ _).mpr (List.getElem_mem bound)
    have place := List.idxOf_lt_length_iff.mpr member
    rw [id?_eq_bind_contents wellFormed, localIds, List.getElem?_map,
      List.getElem?_eq_getElem bound]
    simp [encode, PageDictionary.decode?, localId_eq_idxOf (ascending_sortDistinct ids) member,
      List.getElem?_eq_getElem place]

end Page

end Unnest
