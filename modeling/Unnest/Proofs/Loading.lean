import Unnest.Document.Loading
import Unnest.Proofs.DocumentCells
import Unnest.Proofs.ShardReading

/-!
# Loading documents

Loading fails if some document cannot be loaded, or if the cells at some path are texts and numbers.
Otherwise there is a column for every path of a cell, of the type that holds all of its cells, and
it has for every document the cell at the path, or the default (`Document.loadShard_outcome`).
-/

namespace Unnest

/-! ## Types of columns -/

namespace ScalarType

/-- There are texts and other scalars among these types. -/
def AreMixed (kinds : List ScalarType) : Prop :=
  .text ∈ kinds ∧ ∃ kind ∈ kinds, kind ≠ .text

/-- The type for cells of these types: text if there is a text, double if there is a double, and
long otherwise. -/
def unionOf (kinds : List ScalarType) : ScalarType :=
  if .text ∈ kinds then .text else if .double ∈ kinds then .double else .long

theorem areMixed_unite {first second united : ScalarType}
    (areUnited : first.unite? second = some united) (more : List ScalarType) :
    AreMixed (united :: more) ↔ AreMixed (first :: second :: more) := by
  cases first <;> cases second <;> cases areUnited <;> simp [AreMixed]

theorem unionOf_unite {first second united : ScalarType}
    (areUnited : first.unite? second = some united) (more : List ScalarType) :
    unionOf (united :: more) = unionOf (first :: second :: more) := by
  cases first <;> cases second <;> cases areUnited <;> simp [unionOf]

theorem areMixed_of_unite?_eq_none {first second : ScalarType}
    (notUnited : first.unite? second = none) (more : List ScalarType) :
    AreMixed (first :: second :: more) := by
  cases first <;> cases second <;> simp_all [AreMixed, unite?]

/-- The type for cells holds the scalars of each of them. -/
theorem unite?_unionOf {kinds : List ScalarType} (notMixed : ¬ AreMixed kinds) {kind : ScalarType}
    (isKind : kind ∈ kinds) : (unionOf kinds).unite? kind = some (unionOf kinds) := by
  by_cases hasText : .text ∈ kinds
  · have isText : kind = .text := by
      by_contra different
      exact notMixed ⟨hasText, kind, isKind, different⟩
    rw [unionOf, if_pos hasText, isText]
    rfl
  · have notText : kind ≠ .text := by
      rintro rfl
      exact hasText isKind
    by_cases hasDouble : .double ∈ kinds
    · rw [unionOf, if_neg hasText, if_pos hasDouble]
      cases kind with
      | text => exact absurd rfl notText
      | long => rfl
      | double => rfl
    · rw [unionOf, if_neg hasText, if_neg hasDouble]
      cases kind with
      | text => exact absurd rfl notText
      | long => rfl
      | double => exact absurd isKind hasDouble

end ScalarType

/-- The value in a column of a type: a long among doubles is the nearest double. -/
def Value.widened (kind : ScalarType) : Value → Value
  | .long value => if kind = .double then .double (Double.ofInt value.toInt) else .long value
  | other => other

theorem ScalarType.toValue_ofCell? {kind : ScalarType} {value : Value}
    (fits : kind.unite? value.kind = some kind) :
    (kind.ofCell? value).map kind.toValue = some (value.widened kind) := by
  cases kind <;> cases value <;> cases fits <;> rfl

namespace Document

open ScalarType (AreMixed unionOf)

/-- The types of the cells. -/
def kindsOf (cells : List (Option Value)) : List ScalarType :=
  cells.filterMap (Option.map Value.kind)

theorem kindOfCells_outcome (column : String) (seen : Option ScalarType)
    (cells : List (Option Value)) :
    SucceedsIff (¬ AreMixed (seen.toList ++ kindsOf cells))
      (fun kind => kind = unionOf (seen.toList ++ kindsOf cells))
      (kindOfCells column seen cells) := by
  induction cells generalizing seen with
  | nil =>
      cases seen with
      | none => exact .success (by simp [AreMixed, kindsOf]) rfl
      | some kind =>
          refine .success ?_ ?_
          · cases kind <;> simp [AreMixed, kindsOf]
          · cases kind <;> rfl
  | cons cell rest inductionHypothesis =>
      cases cell with
      | none => exact inductionHypothesis seen
      | some value =>
          cases seen with
          | none => exact inductionHypothesis (some value.kind)
          | some first =>
              rw [kindOfCells]
              cases areUnited : first.unite? value.kind with
              | none =>
                  refine .failure _ fun notMixed => notMixed ?_
                  exact ScalarType.areMixed_of_unite?_eq_none areUnited (kindsOf rest)
              | some united =>
                  apply (inductionHypothesis (some united)).change
                  · exact not_congr (ScalarType.areMixed_unite areUnited (kindsOf rest))
                  · rintro _ kind rfl
                    exact ScalarType.unionOf_unite areUnited (kindsOf rest)

/-! ## Columns -/

/-- The column of the cells at a path, with the default where there is none. -/
def columnFor (settings : FlattenSettings) (lowestRow : Int) (path : FieldPath)
    (cells : List (Option Value)) : Column :=
  let kind := unionOf (kindsOf cells)
  Column.ofScalars kind lowestRow
    (cells.map fun cell =>
      (cell.bind kind.ofCell?).getD (settings.fill kind path.isLengthColumn))
    settings.maxPageRows

/-- The path that a name is read as. -/
def pathOf (name : String) : FieldPath :=
  (FieldPath.read name).toOption.getD []

theorem pathOf_toText {path : FieldPath} (valid : path.IsValid) : pathOf path.toText = path := by
  rw [pathOf, FieldPath.read_toText valid]
  rfl

/-- The name can be read as a path, and the cells of the rows under it have a type. -/
def IsColumnOf (rows : List Row) (name : String) : Prop :=
  (∃ path, FieldPath.read name = .ok path) ∧
    ¬ AreMixed (kindsOf (rows.map fun row => OrderedMap.find? name row))

theorem columnOfCells_outcome (settings : FlattenSettings) (lowestRow : Int) (name : String)
    (cells : List (Option Value)) :
    SucceedsIff ((∃ path, FieldPath.read name = .ok path) ∧ ¬ AreMixed (kindsOf cells))
      (fun column => column = columnFor settings lowestRow (pathOf name) cells)
      (columnOfCells settings lowestRow name cells) := by
  rw [columnOfCells, FieldPath.parse, pathOf]
  cases isRead : FieldPath.read name with
  | error fault => exact .failure _ (by simp)
  | ok path =>
      have outcome := kindOfCells_outcome name none cells
      dsimp only
      generalize kindOfCells name none cells = kind at outcome
      cases outcome with
      | failure error fails => exact .failure error fun both => fails both.2
      | success holds isUnion =>
          subst isUnion
          exact .success ⟨⟨path, rfl⟩, holds⟩ rfl

theorem columnsAt_outcome (settings : FlattenSettings) (lowestRow : Int) (rows : List Row)
    (names : List String) :
    SucceedsIff (∀ name ∈ names, IsColumnOf rows name)
      (fun columns => columns = names.map fun name =>
        (name, columnFor settings lowestRow (pathOf name)
          (rows.map fun row => OrderedMap.find? name row)))
      (columnsAt settings lowestRow rows names) := by
  induction names with
  | nil => exact .success (by simp) rfl
  | cons name rest inductionHypothesis =>
      have outcome := columnOfCells_outcome settings lowestRow name
        (rows.map fun row => OrderedMap.find? name row)
      rw [columnsAt, List.forall_mem_cons, IsColumnOf]
      generalize columnOfCells settings lowestRow name
        (rows.map fun row => OrderedMap.find? name row) = first at outcome
      generalize columnsAt settings lowestRow rows rest = others at inductionHypothesis
      cases outcome with
      | failure error fails => exact .failure error fun all => fails all.1
      | success holds isColumn =>
          cases inductionHypothesis with
          | failure error fails => exact .failure error fun all => fails all.2
          | success restHolds areColumns =>
              subst isColumn areColumns
              exact .success ⟨holds, restHolds⟩ rfl

/-- The value of a row in a column of a type, with the cell at the path of the column or without
one. -/
def shownValue (settings : FlattenSettings) (path : FieldPath) (kind : ScalarType) :
    Option Value → Value
  | some value => value.widened kind
  | none => kind.toValue (settings.fill kind path.isLengthColumn)

theorem columnFor_shows (settings : FlattenSettings) (lowestRow : Int) (path : FieldPath)
    {cells : List (Option Value)} (notMixed : ¬ AreMixed (kindsOf cells)) :
    (columnFor settings lowestRow path cells).Shows lowestRow
      (cells.map (shownValue settings path (unionOf (kindsOf cells)))) := by
  let kind := unionOf (kindsOf cells)
  have sameValues : (cells.map fun cell => (cell.bind kind.ofCell?).getD
        (settings.fill kind path.isLengthColumn)).map kind.toValue =
      cells.map (shownValue settings path kind) := by
    rw [List.map_map]
    apply List.map_congr_left
    intro cell isCell
    cases cell with
    | none => rfl
    | some value =>
        have isKind : value.kind ∈ kindsOf cells :=
          List.mem_filterMap.mpr ⟨some value, isCell, rfl⟩
        have fits := ScalarType.unite?_unionOf notMixed isKind
        obtain ⟨scalar, isScalar, isWidened⟩ :=
          Option.map_eq_some_iff.mp (ScalarType.toValue_ofCell? fits)
        rw [shownValue, ← isWidened, Function.comp_apply, Option.bind_some, isScalar]
        rfl
  exact ⟨_, Column.reads_ofScalars kind lowestRow _ settings.maxPageRows, sameValues⟩

/-! ## Rows -/

/-- Some document has a cell at the path. -/
def IsCellPath (documents : List Json) (path : FieldPath) : Prop :=
  ∃ document ∈ documents, (document.cellAt? path).isSome = true

/-- The types of the cells that documents have at a path. -/
def cellKinds (documents : List Json) (path : FieldPath) : List ScalarType :=
  kindsOf (documents.map (Json.cellAt? path))

/-- The cells of every document, in the order of the documents. -/
def ListAll (documents : List Json) (rows : List (List Cell)) : Prop :=
  List.Forall₂ (fun document cells =>
    Lists (fun cell => document.cellAt? cell.path = some cell.value) cells) documents rows

theorem cellsOfAll_outcome (firstRow : Int) {documents : List Json}
    (regular : ∀ document ∈ documents, document.IsRegular) :
    SucceedsIff (∀ document ∈ documents, document.IsLoadable) (ListAll documents)
      (cellsOfAll firstRow documents) := by
  induction documents generalizing firstRow with
  | nil => exact .success (by simp) .nil
  | cons document rest inductionHypothesis =>
      have here := cells_outcome firstRow (regular document List.mem_cons_self)
      have later := inductionHypothesis (firstRow + 1)
        fun other member => regular other (List.mem_cons_of_mem _ member)
      rw [cellsOfAll, List.forall_mem_cons]
      generalize cells firstRow document = first at here
      generalize cellsOfAll (firstRow + 1) rest = others at later
      cases here with
      | failure error fails => exact .failure error fun all => fails all.1
      | success loadable lists =>
          cases later with
          | failure error fails => exact .failure error fun all => fails all.2
          | success restLoadable restList =>
              exact .success ⟨loadable, restLoadable⟩ (.cons lists restList)

theorem ListAll.mem_flatten {documents : List Json} {rows : List (List Cell)}
    (listAll : ListAll documents rows) (cell : Cell) :
    cell ∈ rows.flatten ↔ ∃ document ∈ documents, document.cellAt? cell.path = some cell.value := by
  induction listAll with
  | nil => simp
  | cons lists _ inductionHypothesis =>
      rw [List.flatten_cons, List.mem_append, lists, inductionHypothesis, List.exists_mem_cons_iff]

theorem isCellPath_of_mem_cellKinds {documents : List Json} {path : FieldPath} {kind : ScalarType}
    (isKind : kind ∈ cellKinds documents path) : IsCellPath documents path := by
  obtain ⟨cell, isCell, hasKind⟩ := List.mem_filterMap.mp isKind
  obtain ⟨document, isDocument, rfl⟩ := List.mem_map.mp isCell
  obtain ⟨value, isThere, _⟩ := Option.map_eq_some_iff.mp hasKind
  exact ⟨document, isDocument, by rw [isThere]; rfl⟩

theorem IsCellPath.isValid {documents : List Json}
    (loadable : ∀ document ∈ documents, document.IsLoadable)
    (regular : ∀ document ∈ documents, document.IsRegular) {path : FieldPath}
    (isCellPath : IsCellPath documents path) : path.IsValid := by
  obtain ⟨document, isDocument, isThere⟩ := isCellPath
  obtain ⟨value, isCell⟩ := Option.isSome_iff_exists.mp isThere
  exact Json.isValid_of_cellAt? (loadable document isDocument) (regular document isDocument) isCell

theorem find?_rowOfCells {document : Json} (loadable : document.IsLoadable)
    (regular : document.IsRegular) {cells : List Cell}
    (lists : Lists (fun cell => document.cellAt? cell.path = some cell.value) cells)
    {path : FieldPath} (valid : path.IsValid) :
    OrderedMap.find? path.toText (rowOfCells cells) = document.cellAt? path := by
  have isCell : ∀ value, (path.toText, value) ∈ cells.map (fun cell => (cell.column, cell.value)) →
      document.cellAt? path = some value := by
    intro value isEntry
    obtain ⟨cell, isThere, same⟩ := List.mem_map.mp isEntry
    obtain ⟨sameText, rfl⟩ := Prod.mk.inj same
    have atPath : document.cellAt? cell.path = some cell.value := (lists cell).mp isThere
    have cellValid := Json.isValid_of_cellAt? loadable regular atPath
    rwa [FieldPath.toText_injective cellValid valid sameText] at atPath
  cases found : document.cellAt? path with
  | none =>
      apply OrderedMap.find?_ofEntries_of_not_mem
      intro value isEntry
      rw [isCell value isEntry] at found
      cases found
  | some value =>
      apply OrderedMap.find?_ofEntries_of_mem
      · exact List.mem_map.mpr ⟨⟨path, value⟩, (lists _).mpr found, rfl⟩
      · intro other isEntry
        rw [isCell other isEntry] at found
        exact Option.some.inj found

theorem ListAll.map_find? {documents : List Json} {rows : List (List Cell)}
    (listAll : ListAll documents rows) (loadable : ∀ document ∈ documents, document.IsLoadable)
    (regular : ∀ document ∈ documents, document.IsRegular) {path : FieldPath}
    (valid : path.IsValid) :
    (rows.map rowOfCells).map (fun row => OrderedMap.find? path.toText row) =
      documents.map (Json.cellAt? path) := by
  induction listAll with
  | nil => rfl
  | cons lists _ inductionHypothesis =>
      have here := find?_rowOfCells (loadable _ List.mem_cons_self) (regular _ List.mem_cons_self)
        lists valid
      have later := inductionHypothesis
        (fun other member => loadable other (List.mem_cons_of_mem _ member))
        (fun other member => regular other (List.mem_cons_of_mem _ member))
      rw [List.map_cons, List.map_cons, List.map_cons, here, later]

theorem mem_columnNames (rows : List Row) (name : String) :
    name ∈ columnNames rows ↔ ∃ row ∈ rows, ∃ value, (name, value) ∈ row := by
  rw [columnNames, OrderedMap.mem_keys_ofEntries]
  simp only [List.mem_flatten]
  constructor
  · intro found
    rcases found with ⟨value, row, isRow, isEntry⟩
    exact ⟨row, isRow, value, isEntry⟩
  · intro found
    rcases found with ⟨row, isRow, value, isEntry⟩
    exact ⟨value, row, isRow, isEntry⟩

/-- The names are those of the paths of the cells. -/
theorem ListAll.mem_columnNames {documents : List Json} {rows : List (List Cell)}
    (listAll : ListAll documents rows) (name : String) :
    name ∈ columnNames (rows.map rowOfCells) ↔
      ∃ path, IsCellPath documents path ∧ path.toText = name := by
  rw [Document.mem_columnNames]
  constructor
  · intro found
    rcases found with ⟨row, isRow, value, isEntry⟩
    rcases List.mem_map.mp isRow with ⟨cells, areCells, sameRow⟩
    rw [← sameRow] at isEntry
    rcases List.mem_map.mp (OrderedMap.mem_of_mem_ofEntries isEntry) with ⟨cell, isCell, same⟩
    cases same
    rcases (listAll.mem_flatten cell).mp (List.mem_flatten.mpr ⟨cells, areCells, isCell⟩) with
      ⟨document, isDocument, atPath⟩
    exact ⟨cell.path, ⟨document, isDocument, by rw [atPath]; rfl⟩, rfl⟩
  · intro found
    rcases found with ⟨path, ⟨document, isDocument, isThere⟩, same⟩
    rcases Option.isSome_iff_exists.mp isThere with ⟨value, atPath⟩
    have isListed := (listAll.mem_flatten ⟨path, value⟩).mpr ⟨document, isDocument, atPath⟩
    rcases List.mem_flatten.mp isListed with ⟨cells, areCells, isCell⟩
    have isName : name ∈ OrderedMap.keys (rowOfCells cells) :=
      (OrderedMap.mem_keys_ofEntries _ _).mpr
        ⟨value, List.mem_map.mpr ⟨_, isCell, by rw [Cell.column, same]⟩⟩
    rcases List.mem_map.mp isName with ⟨entry, isEntry, isKey⟩
    exact ⟨rowOfCells cells, List.mem_map_of_mem areCells, entry.2, by rw [← isKey]; exact isEntry⟩

/-! ## The shard -/

def columnAt (settings : FlattenSettings) (lowestRow : Int) (documents : List Json)
    (path : FieldPath) : Column :=
  columnFor settings lowestRow path (documents.map (Json.cellAt? path))

/-- There is a column for every path of a cell, under the text of the path. -/
def HasColumnsOf (settings : FlattenSettings) (lowestRow : Int) (documents : List Json)
    (columns : List (String × Column)) : Prop :=
  ∀ name column, (name, column) ∈ columns ↔ ∃ path, IsCellPath documents path ∧
    path.toText = name ∧ column = columnAt settings lowestRow documents path

/-- The shard has a column for every path of a cell, of the type that holds its cells, which has for
every document the cell at the path or the default. -/
structure IsLoadedFrom (settings : FlattenSettings) (lowestRow : Int) (documents : List Json)
    (shard : Shard) : Prop where
  names : ∀ name, (shard.column? name).isSome = true ↔
    ∃ path, IsCellPath documents path ∧ path.toText = name
  distinct : ∀ left right, IsCellPath documents left → IsCellPath documents right →
    left.toText = right.toText → left = right
  columns : ∀ path, IsCellPath documents path →
    ∃ column, shard.column? path.toText = some column ∧
      column.kind = unionOf (cellKinds documents path) ∧
      ∀ (index : Nat) (document : Json), documents[index]? = some document →
        column.valueAt? (lowestRow + index) =
          some (shownValue settings path column.kind (document.cellAt? path))

section HasColumnsOf

variable {settings : FlattenSettings} {lowestRow : Int} {documents : List Json}
  {columns : List (String × Column)}

theorem HasColumnsOf.covers (hasColumns : HasColumnsOf settings lowestRow documents columns)
    (notMixed : ∀ path, ¬ AreMixed (cellKinds documents path)) :
    ∀ entry ∈ columns, ∃ values, entry.2.Shows lowestRow values ∧
      values.length = documents.length := by
  rintro ⟨name, column⟩ isEntry
  obtain ⟨path, _, _, rfl⟩ := (hasColumns name column).mp isEntry
  exact ⟨_, columnFor_shows settings lowestRow path (notMixed path), by simp⟩

theorem HasColumnsOf.isLoadedFrom (hasColumns : HasColumnsOf settings lowestRow documents columns)
    (distinct : ∀ left right, IsCellPath documents left → IsCellPath documents right →
      left.toText = right.toText → left = right)
    (notMixed : ∀ path, ¬ AreMixed (cellKinds documents path)) {shard : Shard}
    (areColumns : shard.columns = OrderedMap.ofEntries columns) :
    IsLoadedFrom settings lowestRow documents shard := by
  refine ⟨?_, distinct, ?_⟩
  · intro name
    rw [Shard.column?, areColumns]
    rcases OrderedMap.find?_ofEntries_cases name columns with
      ⟨column, isThere, isFound⟩ | ⟨isAbsent, notFound⟩
    · obtain ⟨path, isCellPath, isName, _⟩ := (hasColumns name column).mp isThere
      rw [isFound]
      exact ⟨fun _ => ⟨path, isCellPath, isName⟩, fun _ => rfl⟩
    · rw [notFound]
      constructor
      · intro isThere
        cases isThere
      · rintro ⟨path, isCellPath, isName⟩
        exact absurd ((hasColumns name _).mpr ⟨path, isCellPath, isName, rfl⟩) (isAbsent _)
  · intro path isCellPath
    refine ⟨columnAt settings lowestRow documents path, ?_, rfl, ?_⟩
    · rw [Shard.column?, areColumns]
      apply OrderedMap.find?_ofEntries_of_mem
      · exact (hasColumns _ _).mpr ⟨path, isCellPath, rfl, rfl⟩
      · intro other isOther
        obtain ⟨otherPath, isOtherPath, sameText, rfl⟩ := (hasColumns _ _).mp isOther
        rw [distinct otherPath path isOtherPath isCellPath sameText]
    · intro index document isDocument
      have shows := columnFor_shows settings lowestRow path (notMixed path)
      refine (shows.valueAt?_add index).trans ?_
      rw [List.getElem?_map, List.getElem?_map, isDocument]
      rfl

end HasColumnsOf

theorem columnsAt_columnNames_outcome (settings : FlattenSettings) (lowestRow : Int)
    {documents : List Json} {rows : List (List Cell)} (listAll : ListAll documents rows)
    (loadable : ∀ document ∈ documents, document.IsLoadable)
    (regular : ∀ document ∈ documents, document.IsRegular) :
    SucceedsIff (∀ path, ¬ AreMixed (cellKinds documents path))
      (HasColumnsOf settings lowestRow documents)
      (columnsAt settings lowestRow (rows.map rowOfCells) (columnNames (rows.map rowOfCells))) := by
  have isName := listAll.mem_columnNames
  have sameCells : ∀ path, IsCellPath documents path →
      ((rows.map rowOfCells).map fun row => OrderedMap.find? path.toText row) =
        documents.map (Json.cellAt? path) := by
    intro path isCellPath
    exact listAll.map_find? loadable regular (isCellPath.isValid loadable regular)
  have samePath : ∀ path, IsCellPath documents path → pathOf path.toText = path := by
    intro path isCellPath
    exact pathOf_toText (isCellPath.isValid loadable regular)
  apply (columnsAt_outcome settings lowestRow (rows.map rowOfCells) _).change
  · constructor
    · intro areColumns path areMixed
      have isCellPath := isCellPath_of_mem_cellKinds areMixed.1
      have fits := (areColumns _ ((isName _).mpr ⟨path, isCellPath, rfl⟩)).2
      rw [sameCells path isCellPath] at fits
      exact fits areMixed
    · intro notMixed name isThere
      rcases (isName name).mp isThere with ⟨path, isCellPath, same⟩
      rw [← same, IsColumnOf, sameCells path isCellPath]
      -- Names of cells are read back, as their paths are valid.
      exact ⟨⟨path, FieldPath.read_toText (isCellPath.isValid loadable regular)⟩, notMixed path⟩
  · rintro _ columns rfl name column
    rw [List.mem_map]
    constructor
    · intro found
      rcases found with ⟨other, isThere, same⟩
      rcases (isName other).mp isThere with ⟨path, isCellPath, isText⟩
      cases same
      exact ⟨path, isCellPath, isText, by
        rw [← isText, sameCells path isCellPath, samePath path isCellPath]; rfl⟩
    · intro found
      rcases found with ⟨path, isCellPath, isText, isColumn⟩
      refine ⟨path.toText, (isName _).mpr ⟨path, isCellPath, rfl⟩, ?_⟩
      rw [sameCells path isCellPath, samePath path isCellPath, isText, isColumn]
      rfl

theorem loadShard_succeedsIff (settings : FlattenSettings) (table : String) (lowestRow : Int)
    {documents : List Json} (regular : ∀ document ∈ documents, document.IsRegular) :
    SucceedsIff
      ((∀ document ∈ documents, document.IsLoadable) ∧
        ∀ path, ¬ AreMixed (cellKinds documents path))
      (IsLoadedFrom settings lowestRow documents)
      (loadShard settings table lowestRow documents) := by
  have rowsOutcome := cellsOfAll_outcome lowestRow regular
  rw [loadShard]
  generalize cellsOfAll lowestRow documents = found at rowsOutcome
  cases rowsOutcome with
  | failure error fails => exact .failure error fun both => fails both.1
  | @success rows loadable listAll =>
      have columnsOutcome :=
        columnsAt_columnNames_outcome settings lowestRow listAll loadable regular
      dsimp only
      generalize columnsAt settings lowestRow (rows.map rowOfCells)
        (columnNames (rows.map rowOfCells)) = found at columnsOutcome
      cases columnsOutcome with
      | failure error fails => exact .failure error fun both => fails both.2
      | success notMixed hasColumns =>
          have distinct : ∀ left right, IsCellPath documents left → IsCellPath documents right →
              left.toText = right.toText → left = right := by
            intro left right isLeft isRight
            exact FieldPath.toText_injective (isLeft.isValid loadable regular)
              (isRight.isValid loadable regular)
          dsimp only
          rw [Shard.assemble_eq_ok table (hasColumns.covers notMixed)]
          exact .success ⟨loadable, notMixed⟩ (hasColumns.isLoadedFrom distinct notMixed rfl)

/-- Loading documents succeeds exactly if they are objects whose field names can stand in paths and
whose arrays hold no arrays, and the cells at no path are texts and other scalars.  Then the columns
are named by the paths of the cells, which their texts tell apart, have the type that holds these
cells, and show for every document its cell, or the default. -/
theorem loadShard_outcome (settings : FlattenSettings) (table : String) (lowestRow : Int)
    {documents : List Json} (regular : ∀ document ∈ documents, document.IsRegular) :
    ((∃ shard, loadShard settings table lowestRow documents = .ok shard) ↔
      (∀ document ∈ documents, document.IsLoadable) ∧
        ∀ path, ¬ AreMixed (cellKinds documents path)) ∧
    ∀ shard, loadShard settings table lowestRow documents = .ok shard →
      (∀ name, (shard.column? name).isSome = true ↔
        ∃ path, IsCellPath documents path ∧ path.toText = name) ∧
      (∀ left right, IsCellPath documents left → IsCellPath documents right →
        left.toText = right.toText → left = right) ∧
      ∀ path, IsCellPath documents path →
        ∃ column, shard.column? path.toText = some column ∧
          column.kind = unionOf (cellKinds documents path) ∧
          ∀ (index : Nat) (document : Json), documents[index]? = some document →
            column.valueAt? (lowestRow + index) =
              some (shownValue settings path column.kind (document.cellAt? path)) := by
  have outcome := loadShard_succeedsIff settings table lowestRow regular
  generalize loadShard settings table lowestRow documents = found at outcome
  cases outcome with
  | failure error fails => simp [fails]
  | success holds isLoaded =>
      refine ⟨⟨fun _ => holds, fun _ => ⟨_, rfl⟩⟩, ?_⟩
      rintro _ ⟨⟩
      exact ⟨isLoaded.names, isLoaded.distinct, isLoaded.columns⟩

/-- A long and a double under one name, and an array in one of the documents only. -/
def wideningDocuments : List Json :=
  [.object [("x", .integer 1)],
    .object [("x", .double (Double.ofInt 2)), ("y", .array [.text "z"])]]

theorem isRegular_wideningDocuments : ∀ document ∈ wideningDocuments, document.IsRegular := by
  have isShort : [Json.text "z"].length < FieldPath.positionBound := by decide
  have isRegularArray : (Json.array [.text "z"]).IsRegular :=
    (Json.everywhere_array _ _).mpr ⟨isShort,
      List.forall_mem_singleton.mpr (Json.everywhere_flat (by simp) (by simp) trivial)⟩
  have isOrdered : OrderedMap.IsOrdered
      [("x", Json.double (Double.ofInt 2)), ("y", .array [.text "z"])] :=
    List.pairwise_pair.mpr (by decide)
  rw [wideningDocuments, List.forall_mem_cons, List.forall_mem_singleton]
  refine ⟨(Json.everywhere_object _ _).mpr ⟨List.pairwise_singleton _ _, ?_⟩,
    (Json.everywhere_object _ _).mpr ⟨isOrdered, ?_⟩⟩
  · exact List.forall_mem_singleton.mpr (Json.everywhere_flat (by simp) (by simp) trivial)
  · rw [List.forall_mem_cons, List.forall_mem_singleton]
    exact ⟨Json.everywhere_flat (by simp) (by simp) trivial, isRegularArray⟩

theorem loadShard_outcome_wideningDocuments :
    (∀ document ∈ wideningDocuments, document.IsRegular) ∧
      ∃ shard, loadShard {} "t" 5 wideningDocuments = .ok shard ∧
        (∃ column, shard.column? "x" = some column ∧ column.kind = .double ∧
          column.valueAt? 5 = some (.double (Double.ofInt 1)) ∧
          column.valueAt? 6 = some (.double (Double.ofInt 2))) ∧
        ∃ lengths, shard.column? "y[length]" = some lengths ∧
          lengths.valueAt? 5 = some (.long 0) ∧ lengths.valueAt? 6 = some (.long 1) := by
  have regular := isRegular_wideningDocuments
  obtain ⟨succeeds, loaded⟩ := loadShard_outcome {} "t" 5 regular
  have isLoaded : (loadShard {} "t" 5 wideningDocuments).toOption.isSome = true := by
    decide +kernel
  cases outcome : loadShard {} "t" 5 wideningDocuments with
  | error error =>
      rw [outcome] at isLoaded
      cases isLoaded
  | ok shard =>
      obtain ⟨_, _, columns⟩ := loaded shard outcome
      obtain ⟨column, isColumn, isDouble, values⟩ := columns [⟨"x", .none⟩]
        ⟨_, List.mem_cons_self, by decide +kernel⟩
      obtain ⟨lengths, isLengths, isLong, counts⟩ := columns [⟨"y", .length⟩]
        ⟨_, List.mem_cons_of_mem _ List.mem_cons_self, by decide +kernel⟩
      refine ⟨regular, shard, rfl, ⟨column, isColumn, isDouble, ?_, ?_⟩, lengths, isLengths, ?_, ?_⟩
      · exact (values 0 _ rfl).trans (by rw [isDouble]; decide +kernel)
      · exact (values 1 _ rfl).trans (by rw [isDouble]; decide +kernel)
      · exact (counts 0 _ rfl).trans (by rw [isLong]; decide +kernel)
      · exact (counts 1 _ rfl).trans (by rw [isLong]; decide +kernel)

end Document

end Unnest
