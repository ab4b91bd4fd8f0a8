import Unnest.Flattening
import Unnest.Proofs.DictionaryUnion
import Unnest.Proofs.RowLayout
import Unnest.Proofs.ShardReading

/-!
# Building the output columns

Every output column is built along the same layout.  A kept column shows, for every entry that is
laid out, the value of its row.  A flattened column shows the value that the row has in the column
of the entry, or the default where there is none: what is cut out of the sources is renumbered
into the union of their dictionaries, and there it stands for the same scalars.
-/

namespace Unnest

/-! ## Pages with a dictionary -/

/-- The pages follow each other from a first row on, and their rows have these scalars. -/
def PagesDecode {α : Type} (firstRow : Int) (pages : List Page) (dictionary : Dictionary α)
    (scalars : List (Option α)) : Prop :=
  ∃ ids, PagesRead firstRow pages ids ∧ ids.map dictionary.decode? = scalars

/-- The scalar of a row in pages. -/
def scalarIn? {α : Type} (pages : List Page) (dictionary : Dictionary α) (row : Int) : Option α :=
  (idIn? pages row).bind dictionary.decode?

/-- Every row has a scalar in the pages, which are ordered and resolve. -/
structure AreReadable {α : Type} (pages : List Page) (dictionary : Dictionary α)
    (rows : List Int) : Prop where
  ordered : PagesOrdered pages
  resolve : ∀ page ∈ pages, page.Resolves
  covers : ∀ row ∈ rows, (scalarIn? pages dictionary row).isSome = true

section Pages

variable {α : Type}

theorem PagesDecode.append {firstRow : Int} {first second : List Page} {dictionary : Dictionary α}
    {here later : List (Option α)} (firstDecodes : PagesDecode firstRow first dictionary here)
    (secondDecodes : PagesDecode (firstRow + here.length) second dictionary later) :
    PagesDecode firstRow (first ++ second) dictionary (here ++ later) := by
  obtain ⟨firstIds, firstRead, rfl⟩ := firstDecodes
  obtain ⟨secondIds, secondRead, rfl⟩ := secondDecodes
  rw [List.length_map] at secondRead
  exact ⟨firstIds ++ secondIds, firstRead.append secondRead, by simp⟩

theorem PagesDecode.totalRows_eq {firstRow : Int} {cut : List OutputPage}
    {dictionary : Dictionary α} {scalars : List (Option α)}
    (decodes : PagesDecode firstRow (cut.map OutputPage.page) dictionary scalars) :
    totalRows cut = scalars.length := by
  obtain ⟨ids, read, rfl⟩ := decodes
  rw [← total_map_page, read.total_rowCount, List.length_map]

/-- Rows that are cut out of readable pages keep their scalars, also with another dictionary that
the ids are renumbered into. -/
theorem cutRows_decode {pages : List Page} {source target : Dictionary α} {rows : List Int}
    (readable : AreReadable pages source rows) (ids : IdMap)
    (renumbers : ∀ id scalar, source.decode? id = some scalar →
      target.decode? (ids.apply id) = some scalar)
    (nextRow : Int) (ascending : rows.Pairwise (· < ·)) :
    ∃ cut, cutRows ids nextRow pages rows = .ok cut ∧
      PagesDecode nextRow (cut.map OutputPage.page) target (rows.map (scalarIn? pages source)) := by
  have hasId : ∀ row ∈ rows, ∃ id scalar, idIn? pages row = some id ∧
      source.decode? id = some scalar := by
    intro row member
    obtain ⟨scalar, isThere⟩ := Option.isSome_iff_exists.mp (readable.covers row member)
    obtain ⟨id, isId, decoded⟩ := Option.bind_eq_some_iff.mp isThere
    exact ⟨id, scalar, isId, decoded⟩
  have found : rows.map (idIn? pages) =
      (rows.map fun row => (idIn? pages row).getD 0).map some := by
    rw [List.map_map]
    apply List.map_congr_left
    intro row member
    obtain ⟨id, _, isId, _⟩ := hasId row member
    simp [isId]
  obtain ⟨cut, isCut, cutRead⟩ :=
    cutRows_eq_ok ids readable.ordered.inOrder readable.resolve nextRow ascending found
  refine ⟨cut, isCut, _, cutRead, ?_⟩
  rw [List.map_map, List.map_map]
  apply List.map_congr_left
  intro row member
  obtain ⟨id, scalar, isId, decoded⟩ := hasId row member
  simp [scalarIn?, isId, decoded, renumbers id scalar decoded]

end Pages

theorem Shard.IsWellFormed.column_isWellFormed {shard : Shard} (wellFormed : shard.IsWellFormed)
    {name : String} {column : Column} (isColumn : shard.column? name = some column) :
    column.IsWellFormed shard.lowestRow shard.rowCount :=
  wellFormed.columns _ (OrderedMap.mem_of_find? isColumn)

/-- The rows of a well-formed shard are found in the pages of its columns. -/
theorem Column.IsWellFormed.readable {shard : Shard} {column : Column}
    (wellFormed : column.IsWellFormed shard.lowestRow shard.rowCount) :
    AreReadable column.pages column.dictionary shard.rowIds ∧
      ∀ row ∈ shard.rowIds,
        scalarIn? column.pages column.dictionary row = column.scalarAt? row := by
  obtain ⟨scalars, reads, sameLength⟩ := wellFormed.exists_reads
  have sameScalar : ∀ row ∈ shard.rowIds,
      scalarIn? column.pages column.dictionary row = column.scalarAt? row := by
    intro row member
    obtain ⟨offset, bound, rfl⟩ := Shard.mem_rowIds.mp member
    exact reads.idIn?_bind_decode? (sameLength ▸ bound)
  have covers : ∀ row ∈ shard.rowIds,
      (scalarIn? column.pages column.dictionary row).isSome = true := by
    intro row member
    rw [sameScalar row member]
    obtain ⟨offset, bound, rfl⟩ := Shard.mem_rowIds.mp member
    rw [reads.scalarAt?_add, List.getElem?_eq_getElem (by omega)]
    rfl
  obtain ⟨ids, pagesRead, _⟩ := reads
  exact ⟨⟨pagesRead.pagesOrdered, pagesRead.resolves, covers⟩, sameScalar⟩

theorem AreReadable.mono {α : Type} {pages : List Page} {dictionary : Dictionary α}
    {rows fewer : List Int} (readable : AreReadable pages dictionary rows)
    (contained : ∀ row ∈ fewer, row ∈ rows) : AreReadable pages dictionary fewer :=
  ⟨readable.ordered, readable.resolve, fun row member => readable.covers row (contained row member)⟩

/-- Pages whose rows all have scalars make a column that shows them. -/
theorem shows_ofPages {kind : ScalarType} {dictionary : Dictionary kind.Carrier} {firstRow : Int}
    {pages : List OutputPage} {scalars : List (Option kind.Carrier)}
    (decodes : PagesDecode firstRow (pages.map OutputPage.page) dictionary scalars)
    (present : ∀ scalar ∈ scalars, scalar.isSome = true) (name : String) :
    ∃ values, (OutputColumn.ofPages name kind dictionary pages).column.Shows firstRow values ∧
      values.map some = scalars.map (Option.map kind.toValue) := by
  obtain ⟨items, rfl⟩ := Column.exists_map_some present
  obtain ⟨ids, read, decoded⟩ := decodes
  refine ⟨items.map kind.toValue, ⟨items, ⟨ids, ?_, decoded⟩, rfl⟩, ?_⟩
  · rw [OutputColumn.ofPages, Column.pages_ofPages dictionary read]
    exact read
  · simp

namespace Flattening

variable {shard : Shard} {layout : RowLayout} {entries : List (Int × IndexTuple)}

/-! ## Kept columns -/

theorem cutPasses_decode {kind : ScalarType} {pages : List Page}
    {dictionary : Dictionary kind.Carrier} {passes : List Pass}
    (readable : ∀ pass ∈ passes, AreReadable pages dictionary pass.rows)
    (ascending : ∀ pass ∈ passes, pass.rows.Pairwise (· < ·)) (nextRow : Int) :
    ∃ cut, cutPasses pages nextRow passes = .ok cut ∧
      PagesDecode nextRow (cut.map OutputPage.page) dictionary
        ((passes.flatMap Pass.rows).map (scalarIn? pages dictionary)) := by
  induction passes generalizing nextRow with
  | nil => exact ⟨[], rfl, [], PagesRead.nil nextRow, rfl⟩
  | cons pass rest inductionHypothesis =>
      obtain ⟨cut, isCut, cutDecodes⟩ := cutRows_decode
        (readable pass List.mem_cons_self) IdMap.identity
        (fun id scalar decoded => decoded) nextRow (ascending pass List.mem_cons_self)
      obtain ⟨others, areCut, othersDecode⟩ := inductionHypothesis
        (fun other member => readable other (List.mem_cons_of_mem _ member))
        (fun other member => ascending other (List.mem_cons_of_mem _ member))
        (nextRow + totalRows cut)
      refine ⟨cut ++ others, by simp [cutPasses, isCut, areCut], ?_⟩
      rw [List.map_append, List.flatMap_cons, List.map_append]
      apply cutDecodes.append
      rwa [← cutDecodes.totalRows_eq]

/-- A kept column shows for every entry the value of its row. -/
theorem keepColumn_shows (laysOut : layout.LaysOut shard entries) (name : String) {column : Column}
    (wellFormed : column.IsWellFormed shard.lowestRow shard.rowCount) :
    ∃ output, keepColumn shard layout name column = .ok output ∧ output.name = name ∧
      ∃ values, output.column.Shows shard.lowestRow values ∧
        values.map some = entries.map fun entry => column.valueAt? entry.1 := by
  obtain ⟨readable, sameScalar⟩ := wellFormed.readable
  obtain ⟨cut, isCut, decodes⟩ := cutPasses_decode
    (fun pass isPass => readable.mono (laysOut.mem_rowIds_of_pass isPass)) laysOut.passAscending
    shard.lowestRow
  rw [laysOut.passRows, List.map_map] at decodes
  obtain ⟨values, shows, sameValues⟩ := shows_ofPages decodes (by
    intro scalar member
    obtain ⟨entry, isEntry, rfl⟩ := List.mem_map.mp member
    exact readable.covers entry.1 (laysOut.rows entry isEntry)) name
  refine ⟨_, by rw [keepColumn, isCut], rfl, values, shows, ?_⟩
  rw [sameValues, List.map_map]
  apply List.map_congr_left
  intro entry isEntry
  simp only [Function.comp_apply]
  rw [sameScalar entry.1 (laysOut.rows entry isEntry)]
  rfl

/-! ## Flattened columns -/

section Sources

variable {kind : ScalarType}

/-- The scalar of a row in a source, or the default. -/
def sourceScalar? (fill : kind.Carrier) (source : LeafSource kind) (row : Int) :
    Option kind.Carrier :=
  match source with
  | some (dictionary, pages) => scalarIn? pages dictionary row
  | none => some fill

/-- The dictionary of a source, or of the default alone. -/
def sourceDictionary (fill : kind.Carrier) (source : LeafSource kind) : Dictionary kind.Carrier :=
  (source.map (·.1)).getD (.constant fill)

/-- The ids of every source are renumbered into the union. -/
def RenumbersLeaves (fill : kind.Carrier) (sources : List (LeafSource kind))
    (union : DictionaryUnion Nat kind) : Prop :=
  ∀ leaf source, sources[leaf]? = some source → ∀ id scalar,
    (sourceDictionary fill source).decode? id = some scalar →
      union.dictionary.decode? ((union.idMap leaf).apply id) = some scalar

/-- The source has an ascending dictionary, and its pages hold the rows. -/
def IsReadableSource (source : LeafSource kind) (rows : List Int) : Prop :=
  ∀ dictionary pages, source = some (dictionary, pages) →
    dictionary.IsAscending ∧ AreReadable pages dictionary rows

theorem find?_zipIdx_sourceDictionary (fill : kind.Carrier) (sources : List (LeafSource kind))
    (start place : Nat) :
    OrderedMap.find? (start + place)
        ((sources.zipIdx start).map fun entry => (entry.2, sourceDictionary fill entry.1)) =
      sources[place]?.map (sourceDictionary fill) := by
  induction sources generalizing start place with
  | nil => rfl
  | cons source rest inductionHypothesis =>
      cases place with
      | zero => simp [OrderedMap.find?]
      | succ before =>
          have different : compare (start + (before + 1)) start ≠ .eq := by
            intro same
            have := Std.LawfulEqCmp.eq_of_compare same
            omega
          have next : start + (before + 1) = start + 1 + before := by omega
          simp only [List.zipIdx_cons, List.map_cons, OrderedMap.find?, different, if_false,
            List.getElem?_cons_succ]
          rw [next, inductionHypothesis]

theorem find?_leafDictionaries (fill : kind.Carrier) (sources : List (LeafSource kind))
    (place : Nat) :
    OrderedMap.find? place (leafDictionaries fill sources) =
      sources[place]?.map (sourceDictionary fill) := by
  have found := find?_zipIdx_sourceDictionary fill sources 0 place
  rw [Nat.zero_add] at found
  exact found

theorem ascending_leafDictionaries (fill : kind.Carrier) {sources : List (LeafSource kind)}
    {rows : List Int} (readable : ∀ source ∈ sources, IsReadableSource source rows) :
    ∀ entry ∈ leafDictionaries fill sources, entry.2.IsAscending := by
  intro entry member
  obtain ⟨⟨source, leaf⟩, isSource, rfl⟩ := List.mem_map.mp member
  cases source with
  | none => simp [Dictionary.IsAscending, Dictionary.toList, Dictionary.toArray]
  | some found => exact (readable _ (List.fst_mem_of_mem_zipIdx isSource) found.1 found.2 rfl).1

/-- The sources have an ascending union, and the ids of each are renumbered into it. -/
theorem exists_leafUnion (fill : kind.Carrier) {sources : List (LeafSource kind)}
    {rows : List Int} (readable : ∀ source ∈ sources, IsReadableSource source rows) :
    ∃ union, DictionaryUnion.ofSources (leafDictionaries fill sources) = .ok union ∧
      union.dictionary.IsAscending ∧
      ∀ leaf source, sources[leaf]? = some source →
        DictionaryUnion.Renumbers (union.idMap leaf) (sourceDictionary fill source)
          union.dictionary := by
  have sourcesAscending := ascending_leafDictionaries fill readable
  obtain ⟨union, united, sameValues, isNewId⟩ := DictionaryUnion.ofSources_eq_ok sourcesAscending
  have unionAscending : union.dictionary.IsAscending := by
    rw [Dictionary.IsAscending, sameValues]
    exact ascending_sortDistinct _
  refine ⟨union, united, unionAscending, ?_⟩
  intro leaf source isSource
  have isFound := find?_leafDictionaries fill sources leaf
  rw [isSource, Option.map_some] at isFound
  have isMember := OrderedMap.mem_of_find? isFound
  apply DictionaryUnion.renumbers_of_newId (sourcesAscending _ isMember) unionAscending
  · intro value isThere
    rw [sameValues, DictionaryUnion.mem_unitedValues]
    exact ⟨_, isMember, isThere⟩
  · rw [sameValues]
    exact isNewId leaf _ isFound

theorem renumbersLeaves_of_renumbers {fill : kind.Carrier} {sources : List (LeafSource kind)}
    {union : DictionaryUnion Nat kind}
    (renumbers : ∀ leaf source, sources[leaf]? = some source →
      DictionaryUnion.Renumbers (union.idMap leaf) (sourceDictionary fill source)
        union.dictionary) :
    RenumbersLeaves fill sources union := by
  intro leaf source isSource id scalar decoded
  have inside := ((sourceDictionary fill source).isSome_decode?_iff id).mp (by simp [decoded])
  rw [(renumbers leaf source isSource).decode?_apply id inside.1 inside.2, decoded]

/-- The scalar of a row in the source of a leaf. -/
def leafScalar? (fill : kind.Carrier) (sources : List (LeafSource kind)) (cell : Int × Nat) :
    Option kind.Carrier :=
  sources[cell.2]?.bind fun source => sourceScalar? fill source cell.1

theorem cutRun_decode (maxPageRows : Nat) (fill : kind.Carrier)
    {sources : List (LeafSource kind)} {union : DictionaryUnion Nat kind}
    (renumbers : RenumbersLeaves fill sources union)
    {run : LeafRows} {source : LeafSource kind} (isSource : sources[run.leaf]? = some source)
    (readable : IsReadableSource source run.rows) (ascending : run.rows.Pairwise (· < ·))
    (nextRow : Int) :
    ∃ cut, cutRun maxPageRows sources union nextRow run = .ok cut ∧
      PagesDecode nextRow (cut.map OutputPage.page) union.dictionary
        (run.cells.map (leafScalar? fill sources)) := by
  have sameScalars : run.cells.map (leafScalar? fill sources) =
      run.rows.map (sourceScalar? fill source) := by
    rw [LeafRows.cells, List.map_map]
    apply List.map_congr_left
    intro row _
    simp [leafScalar?, isSource]
  rw [sameScalars, cutRun, isSource]
  cases source with
  | none =>
      refine ⟨_, rfl, _, pagesRead_constantPages maxPageRows _ nextRow run.rows.length, ?_⟩
      have isFill := renumbers run.leaf none isSource 0 fill rfl
      rw [List.map_replicate, isFill]
      exact List.map_const'.symm
  | some found =>
      obtain ⟨dictionary, pages⟩ := found
      exact cutRows_decode (readable dictionary pages rfl).2 (union.idMap run.leaf)
        (renumbers run.leaf _ isSource) nextRow ascending

theorem cutRuns_decode (maxPageRows : Nat) (fill : kind.Carrier)
    {sources : List (LeafSource kind)} {union : DictionaryUnion Nat kind}
    (renumbers : RenumbersLeaves fill sources union)
    (runs : List LeafRows)
    (readable : ∀ run ∈ runs, ∃ source, sources[run.leaf]? = some source ∧
      IsReadableSource source run.rows)
    (ascending : ∀ run ∈ runs, run.rows.Pairwise (· < ·)) (nextRow : Int) :
    ∃ cut, cutRuns maxPageRows sources union nextRow runs = .ok cut ∧
      PagesDecode nextRow (cut.map OutputPage.page) union.dictionary
        ((runs.flatMap LeafRows.cells).map (leafScalar? fill sources)) := by
  induction runs generalizing nextRow with
  | nil => exact ⟨[], rfl, [], PagesRead.nil nextRow, rfl⟩
  | cons run rest inductionHypothesis =>
      obtain ⟨source, isSource, runReadable⟩ := readable run List.mem_cons_self
      obtain ⟨cut, isCut, cutDecodes⟩ := cutRun_decode maxPageRows fill renumbers isSource
        runReadable (ascending run List.mem_cons_self) nextRow
      obtain ⟨others, areCut, othersDecode⟩ := inductionHypothesis
        (fun other member => readable other (List.mem_cons_of_mem _ member))
        (fun other member => ascending other (List.mem_cons_of_mem _ member))
        (nextRow + totalRows cut)
      refine ⟨cut ++ others, by simp [cutRuns, isCut, areCut], ?_⟩
      rw [List.map_append, List.flatMap_cons, List.map_append]
      apply cutDecodes.append
      rwa [← cutDecodes.totalRows_eq]

end Sources

/-- A source is a column of the wanted type. -/
theorem column?_of_sourceOf {kind : ScalarType} {name : String}
    {dictionary : Dictionary kind.Carrier} {pages : List Page}
    (isSource : sourceOf shard kind name = some (dictionary, pages)) :
    shard.column? name = some ⟨kind, dictionary, pages⟩ := by
  obtain ⟨column, isColumn, isTyped⟩ := Option.bind_eq_some_iff.mp isSource
  obtain ⟨columnKind, columnDictionary, columnPages⟩ := column
  unfold Column.dictionaryOf? at isTyped
  by_cases sameKind : columnKind = kind
  · subst sameKind
    simp only [dite_true, Option.map_some, Option.some.injEq, Prod.mk.injEq] at isTyped
    obtain ⟨rfl, rfl⟩ := isTyped
    exact isColumn
  · simp [sameKind] at isTyped

theorem isReadableSource_sourceOf
    (wellFormed : ∀ entry ∈ shard.columns, entry.2.IsWellFormed shard.lowestRow shard.rowCount)
    (kind : ScalarType) (name : String) :
    IsReadableSource (sourceOf shard kind name) shard.rowIds := by
  intro dictionary pages isSource
  have columnWellFormed := wellFormed _ (OrderedMap.mem_of_find? (column?_of_sourceOf isSource))
  exact ⟨columnWellFormed.ascending, columnWellFormed.readable.1⟩

/-- The value that a flattened column has for a row, given the name of the column to read. -/
def sourceValue? (settings : FlattenSettings) (shard : Shard) (kind : ScalarType)
    (isLength : Bool) (name : String) (row : Int) : Option Value :=
  (sourceScalar? (settings.fill kind isLength) (sourceOf shard kind name) row).map kind.toValue

/-- A flattened column shows for every entry the value in the column of the entry, or the
default. -/
theorem flattenColumn_shows (settings : FlattenSettings)
    (wellFormed : ∀ entry ∈ shard.columns, entry.2.IsWellFormed shard.lowestRow shard.rowCount)
    (laysOut : layout.LaysOut shard entries) (output : String) (kind : ScalarType)
    (isLength : Bool) (nameOf : IndexTuple → String) :
    ∃ column, flattenColumn settings shard layout output kind isLength
        (layout.leaves.map nameOf) = .ok column ∧ column.name = output ∧
      ∃ values, column.column.Shows shard.lowestRow values ∧
        values.map some = entries.map fun entry =>
          sourceValue? settings shard kind isLength (nameOf entry.2) entry.1 := by
  let fill := settings.fill kind isLength
  let sources := (layout.leaves.map nameOf).map (sourceOf shard kind)
  have readable : ∀ source ∈ sources, IsReadableSource source shard.rowIds := by
    intro source member
    obtain ⟨name, _, rfl⟩ := List.mem_map.mp member
    exact isReadableSource_sourceOf wellFormed kind name
  have sourceOfLeaf : ∀ tuple ∈ layout.leaves,
      sources[layout.leaves.idxOf tuple]? = some (sourceOf shard kind (nameOf tuple)) := by
    intro tuple member
    have bound := List.idxOf_lt_length_iff.mpr member
    simp [sources, bound]
  obtain ⟨union, united, _, renumbers⟩ := exists_leafUnion fill readable
  obtain ⟨cut, isCut, decodes⟩ := cutRuns_decode settings.maxPageRows fill
    (renumbersLeaves_of_renumbers renumbers) (layout.passes.flatMap Pass.leafRows) (by
      intro run isRun
      have bound : run.leaf < sources.length := by
        simpa [sources] using laysOut.runLeaves run isRun
      refine ⟨sources[run.leaf], List.getElem?_eq_getElem bound, ?_⟩
      intro dictionary pages isSource
      obtain ⟨ascending, pagesReadable⟩ :=
        readable _ (List.getElem_mem bound) dictionary pages isSource
      exact ⟨ascending, pagesReadable.mono (laysOut.mem_rowIds_of_run isRun)⟩)
    laysOut.runAscending shard.lowestRow
  have sameScalars : ∀ entry ∈ entries,
      leafScalar? fill sources (entry.1, layout.leaves.idxOf entry.2) =
        sourceScalar? fill (sourceOf shard kind (nameOf entry.2)) entry.1 := by
    intro entry isEntry
    simp only [leafScalar?, sourceOfLeaf entry.2 (laysOut.leaves entry isEntry), Option.bind_some]
  rw [laysOut.runCells, List.map_map] at decodes
  obtain ⟨values, shows, sameValues⟩ := shows_ofPages decodes (by
    intro scalar member
    obtain ⟨entry, isEntry, rfl⟩ := List.mem_map.mp member
    rw [Function.comp_apply, sameScalars entry isEntry]
    cases isSource : sourceOf shard kind (nameOf entry.2) with
    | none => rfl
    | some found =>
        exact (isReadableSource_sourceOf wellFormed kind _ found.1 found.2 isSource).2.covers
          entry.1 (laysOut.rows entry isEntry)) output
  refine ⟨.ofPages output kind union.dictionary cut, ?_, rfl, values, shows, ?_⟩
  · simp only [flattenColumn]
    rw [united]
    dsimp only
    rw [isCut]
  · rw [sameValues, List.map_map]
    apply List.map_congr_left
    intro entry isEntry
    rw [Function.comp_apply, Function.comp_apply, sameScalars entry isEntry]
    rfl

end Flattening

end Unnest
