import Unnest.CommandLine
import Unnest.Proofs.DirectoryHistory
import Unnest.Proofs.RenumberingRounds

/-!
# What a command comes to

A command that flattens a table has a cache of its own, which is empty, so what it hands out is what
its store finds or what is computed (`CommandLine.FlattensLoaded`).  A stored table is encoded anew
when it is found, but what is printed of it stays the same, and a table that is computed of loaded
documents is always one that can be restored.
-/

namespace Unnest

/-! ## What is printed of tables that agree -/

namespace CommandLine

theorem printRows_eq {left right : Shard} (agrees : left.AgreesWith right) :
    printRows left = printRows right := by
  have sameRow : left.row = right.row := funext agrees.row_eq
  rw [printRows, printRows, Shard.rowIds, Shard.rowIds, agrees.rowCount, agrees.lowestRow, sameRow]

theorem printColumn_eq {left right : Column} (agrees : left.AgreesWith right) (name : String) :
    printColumn name left = printColumn name right := by
  have sameSize : left.dictionary.size = right.dictionary.size := by
    have sameLength := congrArg List.length agrees.dictionary
    rwa [List.length_map, List.length_map, ← Dictionary.size_eq_length,
      ← Dictionary.size_eq_length] at sameLength
  have samePages : left.pages.length = right.pages.length := by
    have sameLength := congrArg List.length agrees.ranges
    rwa [List.length_map, List.length_map] at sameLength
  rw [printColumn, printColumn, sameSize, samePages, agrees.kind]

theorem printColumns_eq {left right : Shard} (agrees : left.AgreesWith right) :
    printColumns left = printColumns right := by
  rw [printColumns, printColumns, agrees.lowestRow, agrees.rowCount]
  congr 2
  rw [← List.forall₂_eq_eq_eq, List.forall₂_map_left_iff, List.forall₂_map_right_iff]
  apply agrees.columns.imp
  rintro ⟨name, here⟩ ⟨_, there⟩ ⟨rfl, sameColumn⟩
  exact printColumn_eq sameColumn name

end CommandLine

/-! ## Computed tables can be restored -/

theorem Shard.IsIntact.isReadable {shard : Shard} (intact : shard.IsIntact)
    (empty : shard.columns = [] → shard.rowCount = 0) : shard.IsReadable where
  ordered := intact.ordered
  columns entry isEntry :=
    have column := intact.columns entry isEntry
    ⟨column.toIsWellFormed, fun page isPage => (column.pages page isPage).sound⟩
  empty := empty

namespace Document

theorem isIntact_of_loadPieces {settings : FlattenSettings} {table : String} {lowestRow : Int}
    {pieces : List (List Json)} {shards : List Shard}
    (loads : loadPieces settings table lowestRow pieces = .ok shards) :
    ∀ shard ∈ shards, shard.IsIntact := by
  induction pieces generalizing lowestRow shards with
  | nil =>
      cases loads
      simp
  | cons piece rest inductionHypothesis =>
      rw [loadPieces] at loads
      split at loads
      · cases loads
      · rename_i first isFirst
        split at loads
        · cases loads
        · rename_i others areOthers
          cases loads
          exact List.forall_mem_cons.mpr
            ⟨isIntact_of_loadShard isFirst, inductionHypothesis areOthers⟩

end Document

namespace Flattening

variable {settings : FlattenSettings} {table : Table}

theorem exists_source_of_areFlattenedFrom {target : FieldPath} {output : String}
    {sources shards : List Shard}
    (areFlattened : List.Forall₂ (IsFlattenedFrom settings target output) sources shards) :
    ∀ shard ∈ shards, ∃ source ∈ sources, IsFlattenedFrom settings target output source shard := by
  induction areFlattened with
  | nil => simp
  | cons isFirst _ inductionHypothesis =>
      refine List.forall_mem_cons.mpr ⟨⟨_, List.mem_cons_self, isFirst⟩, ?_⟩
      intro shard isShard
      rcases inductionHypothesis shard isShard with ⟨source, isSource, isFlattened⟩
      exact ⟨source, List.mem_cons_of_mem _ isSource, isFlattened⟩

/-- Every shard of a flattened table is what a shard of the table is flattened to. -/
theorem exists_source_of_flattenTable {flattenBy : String} {id : FlattenId} {made : FlattenedTable}
    (flattens : flattenTable settings table none flattenBy id = .ok made) :
    ∃ target output, target.IsTarget ∧ ∀ shard ∈ made.shards, ∃ source ∈ table.shards,
      IsFlattenedFrom settings target output source shard := by
  rcases flattenTable_eq_ok flattens with ⟨isLoaded, target, accepted, _⟩
  rw [flattenTable_eq_by isLoaded accepted, flattenTableBy] at flattens
  split at flattens
  · cases flattens
  · rename_i areFlattened
    cases flattens
    refine ⟨target, flattenedTableName table.name target.toText,
      isTarget_of_readTarget accepted, ?_⟩
    intro shard isShard
    exact exists_source_of_areFlattenedFrom (areFlattenedFrom_of_flattenShards areFlattened) shard
      (List.mem_mergeSort.mp isShard)

theorem isIntact_of_flattenTable (intact : ∀ shard ∈ table.shards, shard.IsIntact)
    {flattenBy : String} {id : FlattenId} {made : FlattenedTable}
    (flattens : flattenTable settings table none flattenBy id = .ok made) :
    ∀ shard ∈ made.shards, shard.IsIntact := by
  rcases exists_source_of_flattenTable flattens with ⟨target, output, isTarget, haveSources⟩
  intro shard isShard
  rcases haveSources shard isShard with ⟨source, isSource, ⟨flattening, isFlattened, same⟩, _⟩
  rw [← same]
  exact isIntact_of_flattenShardBy (intact source isSource) isTarget isFlattened

/-- What is computed of intact shards is restored when it is stored. -/
theorem isReadable_of_flattenTable (intact : ∀ shard ∈ table.shards, shard.IsIntact)
    {flattenBy : String} {id : FlattenId} {fresh : FlattenedTable}
    (succeeds : flattenTable settings table none flattenBy id = .ok fresh) : fresh.IsReadable := by
  rcases exists_source_of_flattenTable succeeds with ⟨_, _, _, haveSources⟩
  have areIntact := isIntact_of_flattenTable intact succeeds
  obtain ⟨_, _, _, _, _, sameRows, inRowOrder⟩ := flattenTable_eq_ok succeeds
  refine ⟨?_, inRowOrder, ?_⟩
  · intro shard isShard
    rcases haveSources shard isShard with ⟨source, _, ⟨flattening, isFlattened, same⟩, _⟩
    have noRowsAtZero := rowCount_eq_zero isFlattened
    rw [same] at noRowsAtZero
    exact (areIntact shard isShard).isReadable noRowsAtZero
  · rw [sameRows]
    exact ascending_sortDistinct _

end Flattening

/-! ## Flattening through a cache of its own -/

namespace FlattenCache

variable {σ : Type} (flatten : FlattenSettings) (cache : CacheSettings)

theorem findRecent_ofSettings (now : Nat) (key : FlattenKey) (firstRows : FirstRows) :
    (ofSettings flatten cache).findRecent now key firstRows = (none, ofSettings flatten cache) :=
  rfl

variable {table : Table} (isLoaded : table.isFlattened = false)

include isLoaded

theorem flatten_recalled (store : TableStore σ) (now : Nat) (content : σ) {flattenBy : String}
    {target : FieldPath} (accepted : readTarget flattenBy = .ok target) {found : FlattenedTable}
    (isFound : store.load now content table.name target.toText table.firstRows = .ok (some found))
    (id : FlattenId) :
    ∃ after, (ofSettings flatten cache).flatten (some store) now content table flattenBy id =
      (.ok ⟨found.rebase id, .disk⟩, after, content) := by
  simp [FlattenCache.flatten, isLoaded, accepted, findRecent_ofSettings, lookUp, isFound, handOut]

theorem flatten_computed (store : Option (TableStore σ)) (now : Nat) (content : σ)
    (flattenBy : String)
    (notFound : ∀ kept, store = some kept → ∀ target, readTarget flattenBy = .ok target →
      ∀ found, kept.load now content table.name target.toText table.firstRows ≠ .ok (some found))
    (id : FlattenId) :
    (∃ cause after, Flattening.flattenTable flatten table none flattenBy id = .error cause ∧
      (ofSettings flatten cache).flatten store now content table flattenBy id =
        (.error cause, after, content)) ∨
    ∃ fresh after, Flattening.flattenTable flatten table none flattenBy id = .ok fresh ∧
      (ofSettings flatten cache).flatten store now content table flattenBy id =
        (.ok ⟨fresh, .computed⟩, after,
          (offer store now (ofSettings flatten cache) content fresh).2) := by
  cases accepted : readTarget flattenBy with
  | error cause =>
      refine Or.inl ⟨cause, ofSettings flatten cache, ?_, ?_⟩
      · simp [Flattening.flattenTable, isLoaded, accepted]
      · simp [FlattenCache.flatten, isLoaded, accepted]
  | ok target =>
      let key : FlattenKey := ⟨table.name, target.toText⟩
      obtain ⟨sameSettings, _, stored⟩ := lookUp_outcome store now (ofSettings flatten cache)
        content key table.firstRows
      rcases searched : lookUp store now (ofSettings flatten cache) content key
        table.firstRows with ⟨hit, counted⟩
      rw [searched] at sameSettings stored
      have keptSettings : counted.settings = flatten := sameSettings
      cases hit with
      | some hit =>
          obtain ⟨kept, isStore, isFound⟩ := stored hit rfl
          exact absurd isFound (notFound kept isStore target accepted hit)
      | none =>
          -- Nothing is listed in an empty registry, so only the store could have had a table.
          have computes : (ofSettings flatten cache).flatten store now content table flattenBy id =
              compute store now counted content table target.toText id := by
            simp only [key] at searched
            simp [FlattenCache.flatten, isLoaded, accepted, findRecent_ofSettings, searched]
          rw [computes, compute, keptSettings, Flattening.flattenTable_toText _ _ accepted]
          cases Flattening.flattenTable flatten table none flattenBy id with
          | error cause => exact Or.inl ⟨cause, _, rfl, rfl⟩
          | ok fresh =>
              cases store with
              | none => exact Or.inr ⟨fresh, _, rfl, rfl⟩
              | some kept => exact Or.inr ⟨fresh, _, rfl, rfl⟩

end FlattenCache

namespace CommandLine

/-- The store that settings ask for. -/
def storeOf (settings : CacheSettings) : DirectoryStore :=
  ⟨settings.diskDirectory, settings.diskBound⟩

theorem openStore_outcome (settings : CacheSettings) (directory : Directory) :
    (openStore settings directory = (none, directory) ∧
      ∀ opened, directory.opened = .ok opened → settings.usesDisk = false) ∨
    settings.usesDisk = true ∧ ∃ opened, directory.opened = .ok opened ∧
      openStore settings directory = (some (storeOf settings).toStore, opened) := by
  cases usesDisk : settings.usesDisk with
  | false => exact Or.inl ⟨by simp [openStore, usesDisk], fun _ _ => rfl⟩
  | true =>
      cases opens : directory.opened with
      | error cause =>
          exact Or.inl ⟨by simp [openStore, usesDisk, opens], fun _ isOk => nomatch isOk⟩
      | ok opened =>
          exact Or.inr ⟨rfl, opened, rfl, by simp [openStore, usesDisk, opens, storeOf]⟩

/-- A flattening is stored under the name and first rows of a table and a field. -/
structure FindsStored (settings : CacheSettings) (now : Nat) (opened : Directory) (table : Table)
    (flattenBy : String) (found : FlattenedTable) : Prop where
  usesDisk : settings.usesDisk = true
  isLoaded : ∃ target, readTarget flattenBy = .ok target ∧
    (storeOf settings).load now opened table.name target.toText table.firstRows = .ok (some found)

theorem FindsStored.unique {settings : CacheSettings} {now : Nat} {opened : Directory}
    {table : Table} {flattenBy : String} {left right : FlattenedTable}
    (findsLeft : FindsStored settings now opened table flattenBy left)
    (findsRight : FindsStored settings now opened table flattenBy right) : left = right := by
  obtain ⟨_, target, accepted, isLeft⟩ := findsLeft
  obtain ⟨_, other, acceptedAgain, isRight⟩ := findsRight
  rw [accepted] at acceptedAgain
  cases acceptedAgain
  rw [isLeft] at isRight
  cases isRight
  rfl

/-- What flattening a loaded table comes to, and the directory after it: a stored table is handed
out, or the flattening is computed, and stored if there is a store. -/
inductive FlattensLoaded (settings : Settings) (now : Nat) (id : FlattenId)
    (directory : Directory) (table : Table) (flattenBy : String) :
    Outcome FlattenedTable → Directory → Prop where
  | recalled {opened : Directory} {found : FlattenedTable}
      (opens : directory.opened = .ok opened)
      (finds : FindsStored settings.cache now opened table flattenBy found) :
      FlattensLoaded settings now id directory table flattenBy (.ok (found.rebase id)) opened
  | stored {opened : Directory} {fresh : FlattenedTable}
      (opens : directory.opened = .ok opened)
      (notFound : ∀ found, ¬ FindsStored settings.cache now opened table flattenBy found)
      (succeeds : Flattening.flattenTable settings.flatten table none flattenBy id = .ok fresh) :
      FlattensLoaded settings now id directory table flattenBy (.ok fresh)
        (DirectoryStore.offer now opened fresh).2
  | unstored {fresh : FlattenedTable}
      (noStore : ∀ opened, directory.opened = .ok opened → settings.cache.usesDisk = false)
      (succeeds : Flattening.flattenTable settings.flatten table none flattenBy id = .ok fresh) :
      FlattensLoaded settings now id directory table flattenBy (.ok fresh) directory
  | refused {cause : Error} {left : Directory}
      (notFound : ∀ opened, directory.opened = .ok opened →
        ∀ found, ¬ FindsStored settings.cache now opened table flattenBy found)
      (fails : Flattening.flattenTable settings.flatten table none flattenBy id = .error cause)
      (isLeft : left = directory ∨ directory.opened = .ok left) :
      FlattensLoaded settings now id directory table flattenBy (.error cause) left

theorem flattensLoaded_flattenLoaded (settings : Settings) (now : Nat) (id : FlattenId)
    (directory : Directory) {table : Table} (isLoaded : table.isFlattened = false)
    (flattenBy : String) :
    FlattensLoaded settings now id directory table flattenBy
      (flattenLoaded settings now id directory table flattenBy).1
      (flattenLoaded settings now id directory table flattenBy).2 := by
  rcases openStore_outcome settings.cache directory with
    ⟨isStore, noStore⟩ | ⟨usesDisk, opened, opens, isStore⟩
  · rcases FlattenCache.flatten_computed settings.flatten settings.cache isLoaded none now
        directory flattenBy (fun _ isSome => nomatch isSome) id with
      ⟨cause, after, fails, refuses⟩ | ⟨fresh, after, succeeds, computes⟩
    · simp only [flattenLoaded, isStore, refuses]
      refine .refused ?_ fails (Or.inl rfl)
      intro opened opens found finds
      exact absurd finds.usesDisk (by simp [noStore opened opens])
    · simp only [flattenLoaded, isStore, computes]
      exact .unstored noStore succeeds
  · by_cases isThere : ∃ found, FindsStored settings.cache now opened table flattenBy found
    · obtain ⟨found, finds⟩ := isThere
      obtain ⟨target, accepted, isFound⟩ := finds.isLoaded
      obtain ⟨after, recalls⟩ := FlattenCache.flatten_recalled settings.flatten settings.cache
        isLoaded (storeOf settings.cache).toStore now opened accepted isFound id
      simp only [flattenLoaded, isStore, recalls]
      exact .recalled opens finds
    · have notFound := not_exists.mp isThere
      have loadsNothing : ∀ kept, some (storeOf settings.cache).toStore = some kept →
          ∀ target, readTarget flattenBy = .ok target → ∀ found,
            kept.load now opened table.name target.toText table.firstRows ≠ .ok (some found) := by
        rintro _ ⟨rfl⟩ target accepted found isFound
        exact notFound found ⟨usesDisk, target, accepted, isFound⟩
      rcases FlattenCache.flatten_computed settings.flatten settings.cache isLoaded
          (some (storeOf settings.cache).toStore) now opened flattenBy loadsNothing id with
        ⟨cause, after, fails, refuses⟩ | ⟨fresh, after, succeeds, computes⟩
      · simp only [flattenLoaded, isStore, refuses]
        refine .refused ?_ fails (Or.inr opens)
        intro again opensAgain
        rw [opens] at opensAgain
        cases opensAgain
        exact notFound
      · simp only [flattenLoaded, isStore, computes]
        exact .stored opens notFound succeeds

/-! ## Commands -/

/-- What a command is to flatten, and what it is to print of that. -/
structure TableRequest where
  table : Table
  flattenBy : String
  showsColumns : Bool

namespace TableRequest

def flatten (request : TableRequest) (settings : Settings) (id : FlattenId) :
    Outcome FlattenedTable :=
  Flattening.flattenTable settings.flatten request.table none request.flattenBy id

def print (request : TableRequest) (flattened : FlattenedTable) : String :=
  String.join (flattened.shards.map (if request.showsColumns then printColumns else printRows))

/-- How a command ends that comes to a flattened table or to an error. -/
def ending (request : TableRequest) : Outcome FlattenedTable → Ending
  | .error cause => .failed (.refused cause)
  | .ok flattened => .printed (request.print flattened)

/-- Both are for tables of the same name with the same first rows, and for the same field. -/
structure SharesKey (left right : TableRequest) : Prop where
  name : left.table.name = right.table.name
  field : ∃ target, readTarget left.flattenBy = .ok target ∧ readTarget right.flattenBy = .ok target
  firstRows : left.table.firstRows = right.table.firstRows

theorem print_rebase (request : TableRequest) {found made : FlattenedTable}
    (agrees : found.AgreesWith made) (inRowOrder : made.IsInRowOrder) (id : FlattenId) :
    request.print (found.rebase id) = request.print made := by
  have foundInRowOrder := agrees.showsSameAs.isInRowOrder inRowOrder
  have sameShards : (found.rebase id).shards = found.shards := inRowOrder_eq_self foundInRowOrder
  have samePrint : ∀ print : Shard → String,
      (∀ here there : Shard, here.AgreesWith there → print here = print there) →
      found.shards.map print = made.shards.map print := by
    intro print same
    rw [← List.forall₂_eq_eq_eq, List.forall₂_map_left_iff, List.forall₂_map_right_iff]
    exact agrees.shards.imp same
  rw [TableRequest.print, TableRequest.print, sameShards]
  cases request.showsColumns with
  | false => exact congrArg String.join (samePrint printRows fun _ _ => printRows_eq)
  | true => exact congrArg String.join (samePrint printColumns fun _ _ => printColumns_eq)

/-- A flattening is stored where another request looks exactly if the requests share the key. -/
theorem isFor_iff_sharesKey {settings : Settings} {before request : TableRequest}
    {id : FlattenId} {made : TableOffer} (succeeds : before.flatten settings id = .ok made.table)
    {target : FieldPath} (accepted : readTarget request.flattenBy = .ok target) :
    made.IsFor request.table.name target.toText request.table.firstRows ↔
      before.SharesKey request := by
  obtain ⟨_, otherTarget, otherAccepted, sameKey, _, sameRows, _⟩ :=
    Flattening.flattenTable_eq_ok succeeds
  injection sameKey with isSource isField
  rw [TableOffer.IsFor, isSource, isField, sameRows]
  constructor
  · rintro ⟨sameName, sameText, sameFirstRows⟩
    have sameTarget : otherTarget = target :=
      FieldPath.toText_injective (isTarget_of_readTarget otherAccepted).valid
        (isTarget_of_readTarget accepted).valid sameText
    exact ⟨sameName, ⟨target, sameTarget ▸ otherAccepted, accepted⟩, sameFirstRows⟩
  · rintro ⟨sameName, ⟨both, isOther, isThis⟩, sameFirstRows⟩
    rw [otherAccepted] at isOther
    rw [accepted] at isThis
    cases isOther
    cases isThis
    exact ⟨sameName, rfl, sameFirstRows⟩

/-- Requests of one key whose tables have the same shards are answered alike. -/
theorem SharesKey.flatten_eq_ok {left right : TableRequest} (sharesKey : left.SharesKey right)
    (isLoaded : right.table.isFlattened = false)
    (sameShards : left.table.shards = right.table.shards) {settings : Settings}
    {id : FlattenId} {made : FlattenedTable} (succeeds : left.flatten settings id = .ok made)
    (otherId : FlattenId) : right.flatten settings otherId = .ok { made with id := otherId } := by
  obtain ⟨target, leftAccepted, rightAccepted⟩ := sharesKey.field
  rw [TableRequest.flatten, ← Flattening.flattenTable_toText _ _ leftAccepted] at succeeds
  rw [TableRequest.flatten, ← Flattening.flattenTable_toText _ _ rightAccepted]
  exact Flattening.flattenTable_congr isLoaded sharesKey.name sameShards succeeds otherId

end TableRequest

theorem loadTable_eq_ok {readJson : String → Option Json} {settings : FlattenSettings}
    {input : InputArguments} {contents : Option String} {table : Table}
    (loads : loadTable readJson settings input contents = .ok table) :
    table.isFlattened = false ∧ ∀ shard ∈ table.shards, shard.IsIntact := by
  rw [loadTable] at loads
  split at loads
  · cases loads
  · split at loads
    · cases loads
    · rename_i shards areLoaded
      cases loads
      refine ⟨rfl, ?_⟩
      intro shard isShard
      exact Document.isIntact_of_loadPieces areLoaded shard (List.mem_mergeSort.mp isShard)

/-- What a command is to flatten, if its input is loaded. -/
def requestOf? (settings : Settings) (surroundings : Surroundings) : Command → Option TableRequest
  | .columns _ => none
  | .flatten input flattenBy showsColumns =>
      match loadTable surroundings.readJson settings.flatten input
          (surroundings.textOf input.file) with
      | .error _ => none
      | .ok table => some ⟨table, flattenBy, showsColumns⟩

/-- A command that flattens a table ends with what this comes to, and any other one does not look at
the directory. -/
theorem runCommand_outcome (settings : Settings) (surroundings : Surroundings) (command : Command) :
    (requestOf? settings surroundings command = none ∧ ∃ ending, ∀ directory,
      runCommand settings surroundings directory command = (ending, directory)) ∨
    ∃ request, requestOf? settings surroundings command = some request ∧
      request.table.isFlattened = false ∧ (∀ shard ∈ request.table.shards, shard.IsIntact) ∧
      ∀ directory, ∃ outcome left,
        FlattensLoaded settings surroundings.now surroundings.freshId directory request.table
          request.flattenBy outcome left ∧
        runCommand settings surroundings directory command = (request.ending outcome, left) := by
  cases command with
  | columns input =>
      refine Or.inl ⟨rfl, ?_⟩
      cases loads : loadTable surroundings.readJson settings.flatten input
        (surroundings.textOf input.file) with
      | error failure => exact ⟨.failed failure, by simp [runCommand, loads]⟩
      | ok table =>
          exact ⟨.printed (String.join (table.shards.map printColumns)),
            by simp [runCommand, loads]⟩
  | flatten input flattenBy showsColumns =>
      cases loads : loadTable surroundings.readJson settings.flatten input
        (surroundings.textOf input.file) with
      | error failure =>
          exact Or.inl ⟨by simp [requestOf?, loads], .failed failure, by simp [runCommand, loads]⟩
      | ok table =>
          obtain ⟨isLoaded, intact⟩ := loadTable_eq_ok loads
          refine Or.inr ⟨⟨table, flattenBy, showsColumns⟩, by simp [requestOf?, loads], isLoaded,
            intact, ?_⟩
          intro directory
          have flattens := flattensLoaded_flattenLoaded settings surroundings.now
            surroundings.freshId directory isLoaded flattenBy
          simp only [runCommand, loads]
          generalize flattenLoaded settings surroundings.now surroundings.freshId directory table
            flattenBy = flattened at flattens
          refine ⟨flattened.1, flattened.2, flattens, ?_⟩
          rcases flattened with ⟨_ | flattened, left⟩
          · rfl
          · rfl

end CommandLine

end Unnest
