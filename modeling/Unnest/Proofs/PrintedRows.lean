import Unnest.Proofs.FiniteColumns
import Unnest.Proofs.JsonLines
import Unnest.Proofs.JsonReading
import Unnest.Proofs.RepeatedRuns
import Unnest.Proofs.ShardSizes

/-!
# The rows that a command prints

A command that flattens without a wish for columns prints a line for each row, shard after shard.  A
line is the text of an object with every column of the row under the name of the column
(`CommandLine.ShowsRow`), and read exactly it is this object.  The number of the row takes the place
of a column whose name is `_row_id`: the value of such a column is on no line, unless it is the
number of the row (`CommandLine.Invocation.endingIn_leftBy_showsRows`).
-/

namespace Unnest

/-! ## Values in a row -/

/-- The JSON value shows the value: they are of the same kind and the same. -/
def Value.IsShownAs : Value → Json → Prop
  | .long number, .integer shown => shown = number.toInt
  | .text content, .text shown => shown = content
  | .double number, .double shown => shown = number
  | _, _ => False

namespace CommandLine

theorem isShownAs_valueJson {value : Value} (isFinite : value.IsFinite) :
    value.IsShownAs (valueJson value) := by
  cases value with
  | long number => rfl
  | text content => rfl
  | double number =>
      rw [valueJson, if_pos (show number.isFinite = true from isFinite)]
      rfl

/-! ## Rows -/

/-- The object shows a row of a shard: the number of the row, and all columns by their names.  A
column under the name of the number is shown only if it has the same value. -/
structure ShowsRow (shard : Shard) (rowId : Int) (fields : OrderedMap String Json) : Prop where
  ordered : OrderedMap.IsOrdered fields
  number : OrderedMap.find? rowIdName fields = some (.integer rowId)
  names : ∀ name, name ∈ OrderedMap.keys fields ↔
    name = rowIdName ∨ name ∈ OrderedMap.keys shard.columns
  values : ∀ name column, shard.column? name = some column →
    ∃ value, column.valueAt? rowId = some value ∧
      ((∃ shown, OrderedMap.find? name fields = some shown ∧ value.IsShownAs shown) ↔
        name ≠ rowIdName ∨ value.IsShownAs (.integer rowId))

/-- The fields of the object for a row. -/
def rowFields (shard : Shard) (rowId : Int) : OrderedMap String Json :=
  OrderedMap.insert rowIdName (.integer rowId)
    ((shard.row rowId).map fun entry => (entry.1, valueJson entry.2))

theorem rowObject_row (shard : Shard) (rowId : Int) :
    rowObject rowId (shard.row rowId) = .object (rowFields shard rowId) := rfl

section Intact

variable {shard : Shard} (intact : shard.IsIntact) (rowId : Int)

include intact

theorem isOrdered_rowFields : OrderedMap.IsOrdered (rowFields shard rowId) := by
  apply OrderedMap.isOrdered_insert
  exact List.Pairwise.map _ (fun _ _ below => below) (Flattening.isOrdered_row intact.ordered rowId)

theorem find?_rowFields_of_ne {name : String} (isOther : name ≠ rowIdName) :
    OrderedMap.find? name (rowFields shard rowId) =
      ((shard.column? name).bind fun column => column.valueAt? rowId).map valueJson := by
  rw [rowFields, OrderedMap.find?_insert_of_ne isOther,
    OrderedMap.find?_map (fun entry : String × Value => valueJson entry.2), Shard.row,
    OrderedMap.find?_filterMap (fun entry : String × Column => entry.2.valueAt? rowId)
      intact.ordered]
  rfl

end Intact

theorem showsRow_rowFields {shard : Shard} (intact : shard.IsIntact) (isFinite : shard.IsFinite)
    {rowId : Int} (isRow : rowId ∈ shard.rowIds) :
    ShowsRow shard rowId (rowFields shard rowId) := by
  have isNumber : OrderedMap.find? rowIdName (rowFields shard rowId) = some (.integer rowId) :=
    OrderedMap.find?_insert_self _ _ _
  have hasValue {name : String} {column : Column} (isColumn : shard.column? name = some column) :
      ∃ value, column.valueAt? rowId = some value := by
    rw [← Option.isSome_iff_exists, intact.isSome_valueAt?_iff isColumn]
    rcases Shard.mem_rowIds.mp isRow with ⟨offset, below, same⟩
    omega
  refine ⟨isOrdered_rowFields intact rowId, isNumber, ?_, ?_⟩
  · intro name
    rw [← OrderedMap.isSome_find?_iff (isOrdered_rowFields intact rowId),
      ← OrderedMap.isSome_find?_iff intact.ordered]
    by_cases isSame : name = rowIdName
    · simp [isSame, isNumber]
    · rw [find?_rowFields_of_ne intact rowId isSame]
      simp only [isSame, false_or]
      change _ ↔ (shard.column? name).isSome = true
      cases isColumn : shard.column? name with
      | none => rfl
      | some column =>
          rcases hasValue isColumn with ⟨value, isValue⟩
          simp [isValue]
  · intro name column isColumn
    rcases hasValue isColumn with ⟨value, isValue⟩
    refine ⟨value, isValue, ?_⟩
    by_cases isSame : name = rowIdName
    · rw [isSame, isNumber]
      simp
    · rw [find?_rowFields_of_ne intact rowId isSame, isColumn]
      have valueFinite := (isFinite _ (OrderedMap.mem_of_find? isColumn)).valueAt? isValue
      simp [isValue, isSame, isShownAs_valueJson valueFinite]

theorem isLegible_valueJson {value : Value} (isFinite : value.IsFinite) (depth : Nat) :
    Json.IsLegible depth (valueJson value) := by
  cases value with
  | long number => exact .integer (isFinite_ofInt_toInt number)
  | text content => exact .text content
  | double number =>
      have numberFinite : number.isFinite = true := isFinite
      rw [valueJson, if_pos numberFinite]
      exact .double numberFinite

theorem isLegible_rowFields {shard : Shard} (intact : shard.IsIntact) (isFinite : shard.IsFinite)
    {rowId : Int} (idFinite : (Double.ofInt rowId).isFinite = true) :
    Json.IsLegible Json.deepest (.object (rowFields shard rowId)) := by
  apply Json.IsLegible.object (isOrdered_rowFields intact rowId)
  intro entry isEntry
  rcases OrderedMap.mem_insert isEntry with isNumber | isColumn
  · rw [isNumber]
    exact .integer idFinite
  · rcases List.mem_map.mp isColumn with ⟨found, isFound, same⟩
    rcases List.mem_filterMap.mp isFound with ⟨named, isNamed, isShown⟩
    rcases Option.map_eq_some_iff.mp isShown with ⟨value, isValue, sameValue⟩
    rw [← same, ← sameValue]
    exact isLegible_valueJson ((isFinite named isNamed).valueAt? isValue) _

/-- The rows of shards, shard after shard. -/
def rowsOf (shards : List Shard) : List (Shard × Int) :=
  shards.flatMap fun shard => shard.rowIds.map fun rowId => (shard, rowId)

/-- The line is the text of an object that shows the row.  If the number of the row has 64 bits, the
line is this object when numbers are read as the nearest doubles. -/
def ShowsRowOn (row : Shard × Int) (line : List Char) : Prop :=
  ∃ fields, line = (Json.object fields).write.toList ∧ ShowsRow row.1 row.2 fields ∧
    (-2 ^ 63 ≤ row.2 → row.2 < 2 ^ 63 →
      Json.readExactly? (String.ofList line) = some (.object fields))

/-- Line after line, the text shows the rows of the shards. -/
def ShowsRows (shards : List Shard) (text : String) : Prop :=
  List.Forall₂ ShowsRowOn (rowsOf shards) (linesOf text.toList)

theorem join_printRows (shards : List Shard) :
    String.join (shards.map printRows) =
      String.join (((rowsOf shards).map fun row =>
        (Json.object (rowFields row.1 row.2)).write).map fun line => line ++ "\n") := by
  induction shards with
  | nil => rfl
  | cons shard rest inductionHypothesis =>
      have areRows : rowsOf (shard :: rest) =
          (shard.rowIds.map fun rowId => (shard, rowId)) ++ rowsOf rest :=
        List.flatMap_cons
      rw [List.map_cons, String.join_cons, inductionHypothesis, areRows, List.map_append,
        List.map_append, String.join_append, List.map_map, List.map_map, List.map_map, printRows]
      simp only [rowObject_row]
      rfl

theorem showsRows_join {shards : List Shard} (intact : ∀ shard ∈ shards, shard.IsIntact)
    (areFinite : ∀ shard ∈ shards, shard.IsFinite) :
    ShowsRows shards (String.join (shards.map printRows)) := by
  rw [ShowsRows, join_printRows, linesOf_join]
  · rw [List.map_map, List.forall₂_map_right_iff, List.forall₂_same]
    rintro ⟨shard, rowId⟩ isRow
    rcases List.mem_flatMap.mp isRow with ⟨other, isShard, isNumbered⟩
    rcases List.mem_map.mp isNumbered with ⟨otherRow, isRowId, same⟩
    cases same
    refine ⟨rowFields shard rowId, rfl,
      showsRow_rowFields (intact _ isShard) (areFinite _ isShard) isRowId, ?_⟩
    intro lower upper
    rw [Function.comp_apply, String.ofList_toList]
    apply Json.readExactly?_write
    exact isLegible_rowFields (intact _ isShard) (areFinite _ isShard)
      (Double.isFinite_ofRatio_one _ (by omega))
  · intro line isLine
    rcases List.mem_map.mp isLine with ⟨row, _, same⟩
    rw [← same]
    exact Json.isOneLine_write _

end CommandLine

/-! ## Tables -/

namespace Flattening

variable {settings : FlattenSettings} {table : Table}

theorem isFinite_of_flattenTable (hasFiniteDefault : settings.HasFiniteDefault)
    (intact : ∀ shard ∈ table.shards, shard.IsIntact)
    (areFinite : ∀ shard ∈ table.shards, shard.IsFinite) {flattenBy : String} {id : FlattenId}
    {made : FlattenedTable} (flattens : flattenTable settings table none flattenBy id = .ok made) :
    ∀ shard ∈ made.shards, shard.IsFinite := by
  rcases exists_source_of_flattenTable flattens with ⟨target, output, _, haveSources⟩
  intro shard isShard
  rcases haveSources shard isShard with ⟨source, isSource, ⟨flattening, isFlattened, same⟩, _⟩
  rw [← same]
  exact isFinite_of_flattenShardBy hasFiniteDefault (areFinite source isSource)
    (intact source isSource) isFlattened

end Flattening

namespace CommandLine

theorem isFinite_of_loadTable {readJson : String → Option Json} (readsFinite : ReadsFinite readJson)
    {settings : FlattenSettings} (hasFiniteDefault : settings.HasFiniteDefault)
    {input : InputArguments} {contents : Option String} {table : Table}
    (loads : loadTable readJson settings input contents = .ok table) :
    ∀ shard ∈ table.shards, shard.IsFinite := by
  rw [loadTable] at loads
  split at loads
  · cases loads
  · rename_i documents areDocuments
    split at loads
    · cases loads
    · rename_i shards areLoaded
      cases loads
      intro shard isShard
      apply Document.isFinite_of_loadPieces hasFiniteDefault _ areLoaded shard
        (List.mem_mergeSort.mp isShard)
      intro piece isPiece document isDocument
      exact isFinite_of_readDocuments readsFinite areDocuments document
        (Document.mem_of_mem_chunks isPiece isDocument)

/-! ## Runs -/

namespace Invocation

/-- The settings that the command line names, or the defaults if it is refused. -/
def settings (invocation : Invocation) : Settings :=
  match readArguments invocation.arguments with
  | .error _ => {}
  | .ok arguments => settingsOf invocation.surroundings.textOf arguments

theorem hasSettings_settings (invocation : Invocation) :
    invocation.HasSettings invocation.settings := by
  intro arguments read
  rw [settings, read]

/-- What the run is to flatten is finite. -/
theorem isFinite_of_request {settings : Settings}
    (hasFiniteDefault : settings.flatten.HasFiniteDefault) {invocation : Invocation}
    (readsFinite : ReadsFinite invocation.surroundings.readJson) {request : TableRequest}
    (isRequest : invocation.request? settings = some request) :
    ∀ shard ∈ request.table.shards, shard.IsFinite := by
  rw [request?] at isRequest
  split at isRequest
  · cases isRequest
  · split at isRequest
    · cases isRequest
    · rcases Option.bind_eq_some_iff.mp isRequest with ⟨command, _, isAsked⟩
      cases command with
      | columns input => cases isAsked
      | flatten input flattenBy showsColumns =>
          rw [requestOf?] at isAsked
          split at isAsked
          · cases isAsked
          · rename_i loads
            cases isAsked
            exact isFinite_of_loadTable readsFinite hasFiniteDefault loads

/-- What a run computes is printed row after row. -/
theorem showsRows_of_flatten {settings : Settings}
    (hasFiniteDefault : settings.flatten.HasFiniteDefault) {invocation : Invocation}
    (readsFinite : ReadsFinite invocation.surroundings.readJson)
    (hasSettings : invocation.HasSettings settings) {before : TableRequest}
    (isBefore : invocation.request? settings = some before) {id : FlattenId} {made : FlattenedTable}
    (succeeds : before.flatten settings id = .ok made) {request : TableRequest}
    (showsNoColumns : request.showsColumns = false) :
    ShowsRows made.shards (request.print made) := by
  rcases run_of_request hasSettings isBefore with ⟨_, intact, _⟩
  have areFinite := isFinite_of_request hasFiniteDefault readsFinite isBefore
  rw [TableRequest.print, showsNoColumns]
  exact showsRows_join (Flattening.isIntact_of_flattenTable intact succeeds)
    (Flattening.isFinite_of_flattenTable hasFiniteDefault intact areFinite succeeds)

instance (settings : FlattenSettings) : Decidable settings.HasFiniteDefault :=
  inferInstanceAs (Decidable (_ = true))

/-- The run reads finite numbers, its default is finite, and what it computes fits into a file. -/
structure StoresFinite (run : Invocation) : Prop where
  readsFinite : ReadsFinite run.surroundings.readJson
  hasFiniteDefault : run.settings.flatten.HasFiniteDefault
  fits : ∀ made, run.Computes run.settings made → made.Fits

/-- The text shows the rows of a table that the run computes of its own input, for a request with
the same key. -/
def ComputesRowsOf (run : Invocation) (request : TableRequest) (text : String) : Prop :=
  ∃ before made, run.request? run.settings = some before ∧ before.SharesKey request ∧
    before.flatten run.settings run.surroundings.freshId = .ok made ∧ ShowsRows made.shards text

/-- A run that flattens and does not show columns prints a line for each row of the table that it or
an earlier run of the same key computed.  The line shows every column of the row under the name of
the column, except for a column with the name that the number of the row has. -/
theorem endingIn_leftBy_showsRows {start : Directory} {earlier : List Invocation}
    {invocation : Invocation} (readsFinite : ReadsFinite invocation.surroundings.readJson)
    (hasFiniteDefault : invocation.settings.flatten.HasFiniteDefault)
    (stored : invocation.settings.cache.usesDisk = true →
      start.IsEmpty ∧ ∀ run ∈ earlier, run.StoresFinite)
    {request : TableRequest} (isRequest : invocation.request? invocation.settings = some request)
    (showsNoColumns : request.showsColumns = false) {output : String}
    (succeeds : invocation.endingIn (leftBy start earlier) = .printed output) :
    ∃ run ∈ earlier ++ [invocation], run.ComputesRowsOf request output := by
  have hasSettings := invocation.hasSettings_settings
  rcases run_of_request hasSettings isRequest with ⟨_, _, runs⟩
  rcases runs (leftBy start earlier) with ⟨outcome, left, flattens, isRun⟩
  rw [endingIn, isRun] at succeeds
  have ofOwn {made : FlattenedTable}
      (isMade : request.flatten invocation.settings invocation.surroundings.freshId = .ok made) :
      ∃ run ∈ earlier ++ [invocation], run.ComputesRowsOf request (request.print made) := by
    rcases Flattening.flattenTable_eq_ok isMade with ⟨_, target, accepted, _⟩
    exact ⟨invocation, List.mem_append_right _ List.mem_cons_self, request, made, isRequest,
      ⟨rfl, ⟨target, accepted, accepted⟩, rfl⟩, isMade,
      showsRows_of_flatten hasFiniteDefault readsFinite hasSettings isRequest isMade
        showsNoColumns⟩
  cases flattens with
  | refused _ _ _ => cases succeeds
  | stored _ _ isMade =>
      cases succeeds
      exact ofOwn isMade
  | unstored _ isMade =>
      cases succeeds
      exact ofOwn isMade
  | recalled opens finds =>
      cases succeeds
      rcases stored finds.usesDisk with ⟨isEmpty, areStored⟩
      rcases holdsOnly_leftBy isEmpty (fun run _ => run.hasSettings_settings) _ opens with
        ⟨offers, same, areComputed⟩
      rw [same] at finds
      have suitable : ∀ made ∈ offers, made.table.IsReadable ∧ made.table.Fits := by
        intro made isMade
        rcases areComputed made isMade with ⟨run, isEarlier, computes⟩
        exact ⟨computes.isReadable run.hasSettings_settings,
          (areStored run isEarlier).fits _ computes⟩
      rcases exists_offer_of_findsStored suitable finds with ⟨made, isMade, isShared⟩
      rcases areComputed made isMade with ⟨run, isEarlier, before, isBefore, isComputed⟩
      rcases isShared before run.settings _ isComputed with ⟨sharesKey, samePrint⟩
      refine ⟨run, List.mem_append_left _ isEarlier, before, made.table, isBefore, sharesKey,
        isComputed, ?_⟩
      rw [samePrint]
      exact showsRows_of_flatten (areStored run isEarlier).hasFiniteDefault
        (areStored run isEarlier).readsFinite run.hasSettings_settings isBefore isComputed
        showsNoColumns

theorem storesFinite_firstRun : firstRun.StoresFinite := by
  have areSettings : firstRun.settings = storingSettings := by
    decide +kernel
  rcases preview?_eq_some preview?_firstRun with ⟨request, made, isRequest, succeeds, fits, _, _⟩
  refine ⟨readsFinite_read?, ?_, ?_⟩
  · rw [areSettings]
    decide
  · rw [areSettings]
    rintro other ⟨again, isAgain, succeedsAgain⟩
    rw [isRequest] at isAgain
    cases isAgain
    rw [succeeds] at succeedsAgain
    cases succeedsAgain
    exact fits

/-- The second run prints what the first one stored. -/
theorem endingIn_leftBy_showsRows_repeatedRun :
    ReadsFinite repeatedRun.surroundings.readJson ∧
      repeatedRun.settings.flatten.HasFiniteDefault ∧ firstRun.StoresFinite ∧
      ∃ request output, repeatedRun.request? repeatedRun.settings = some request ∧
        request.showsColumns = false ∧
        repeatedRun.endingIn (leftBy (.present []) [firstRun]) = .printed output ∧
        ∃ run ∈ [firstRun] ++ [repeatedRun], run.ComputesRowsOf request output := by
  have areSettings : repeatedRun.settings = storingSettings := by
    decide +kernel
  have hasFiniteDefault : repeatedRun.settings.flatten.HasFiniteDefault := by
    rw [areSettings]
    decide
  rcases preview?_eq_some preview?_firstRun with
    ⟨request, made, isRequest, succeeds, fits, isKey, _⟩
  simp only [Prod.mk.injEq] at isKey
  have sharesKey : request.SharesKey request := by
    rcases Flattening.flattenTable_eq_ok succeeds with ⟨_, target, accepted, _⟩
    exact ⟨rfl, ⟨target, accepted, accepted⟩, rfl⟩
  have firstSettings : firstRun.HasSettings storingSettings := hasSettings_storingRun _ _ _
  have repeatedSettings : repeatedRun.HasSettings storingSettings := hasSettings_storingRun _ _ _
  have isAgain : repeatedRun.request? storingSettings = some request := isRequest
  have isRepeated : repeatedRun.request? repeatedRun.settings = some request := by
    rw [areSettings]
    exact isAgain
  have isPrinted : repeatedRun.endingIn (leftBy (.present []) [firstRun]) =
      .printed (request.print made) :=
    endingIn_leaves_of_sharesKey (by decide) (by decide) firstSettings repeatedSettings isRequest
      isAgain sharesKey succeeds fits
  refine ⟨readsFinite_read?, hasFiniteDefault, storesFinite_firstRun, request,
    request.print made, isRepeated, isKey.2.2.2, isPrinted, ?_⟩
  exact endingIn_leftBy_showsRows readsFinite_read? hasFiniteDefault
    (fun _ => ⟨Directory.isEmpty_present_nil, List.forall_mem_singleton.mpr storesFinite_firstRun⟩)
    isRepeated isKey.2.2.2 isPrinted

/-! ## A column with the name of the number -/

/-- What the run computes at a row in the columns of a name, shard after shard. -/
def computedValues? (invocation : Invocation) (name : String) (row : Int) :
    Option (List (Option Value)) := do
  let request ← invocation.request? invocation.settings
  let made ← (request.flatten invocation.settings invocation.surroundings.freshId).toOption
  return made.shards.map fun shard =>
    (shard.column? name).bind fun column => column.valueAt? row

/-- A run on a document that has a field with the name of the number. -/
def reservedNameRun : Invocation where
  surroundings :=
    { textOf := fun _ => some "\x7b\"a\":[1],\"_row_id\":7\x7d"
      readJson := Json.read?
      now := 0
      freshId := Identifier.ofNat 1 }
  arguments := ["flatten", "-i", "r.json", "-b", "a[*]"]

/-- The flattened row has the value 7 in the column, and the one line has the number of the row
there and the 7 nowhere. -/
theorem reservedNameRun_loses_value :
    reservedNameRun.settings.flatten.HasFiniteDefault ∧
      reservedNameRun.computedValues? rowIdName 0 = some [some (.long 7)] ∧
      reservedNameRun.endingIn .missing = .printed "\x7b\"_row_id\":0,\"a\":1\x7d\n" ∧
      (Json.readExactly? "\x7b\"_row_id\":0,\"a\":1\x7d").bind (Json.field? rowIdName) =
        some (.integer 0) :=
  ⟨by decide +kernel, by decide +kernel, by decide +kernel, rfl⟩

end Invocation

end CommandLine

end Unnest
