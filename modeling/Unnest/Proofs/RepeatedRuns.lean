import Unnest.Json.Reader
import Unnest.Proofs.CommandFlattening

/-!
# Running commands one after the other

Runs with the same settings share the directory of stored tables.  A run that flattens prints the
flattening of its own input, unless it finds a table stored for the same name, field and first rows:
then it prints that table, whatever the input of the run that computed it.  A key says nothing about
the rows of its table, so runs depend on earlier runs of the same key with other rows, and on no
others (`CommandLine.Invocation.endingIn_leftBy`).
-/

namespace Unnest

namespace Directory

/-- The directory is empty or missing, or there is none that can be opened. -/
def IsEmpty (directory : Directory) : Prop :=
  ∀ opened, directory.opened = .ok opened → opened = .present []

theorem isEmpty_missing : missing.IsEmpty := by
  intro opened opens
  cases opens
  rfl

theorem isEmpty_present_nil : (present []).IsEmpty := by
  intro opened opens
  cases opens
  rfl

theorem opened_of_opened {directory opened : Directory} (opens : directory.opened = .ok opened) :
    opened.opened = .ok opened := by
  cases directory with
  | missing =>
      cases opens
      rfl
  | blocked => cases opens
  | present entries =>
      cases opens
      rfl

end Directory

namespace CommandLine

/-! ## Runs -/

/-- A command line, and what it is run with besides a directory. -/
structure Invocation where
  surroundings : Surroundings
  arguments : List String

namespace Invocation

/-- How the run ends. -/
def endingIn (invocation : Invocation) (directory : Directory) : Ending :=
  (run invocation.surroundings directory invocation.arguments).1

/-- The directory as the run leaves it. -/
def leaves (invocation : Invocation) (directory : Directory) : Directory :=
  (run invocation.surroundings directory invocation.arguments).2

/-- The directory after one run after the other. -/
def leftBy (start : Directory) (earlier : List Invocation) : Directory :=
  earlier.foldl (fun directory invocation => invocation.leaves directory) start

theorem leftBy_append_singleton (start : Directory) (earlier : List Invocation)
    (invocation : Invocation) :
    leftBy start (earlier ++ [invocation]) = invocation.leaves (leftBy start earlier) := by
  simp [leftBy]

/-- These are the settings that the command line names. -/
def HasSettings (settings : Settings) (invocation : Invocation) : Prop :=
  ∀ arguments, readArguments invocation.arguments = .ok arguments →
    settingsOf invocation.surroundings.textOf arguments = settings

/-- What the run is to flatten, if the command line asks for that and the input is loaded. -/
def request? (settings : Settings) (invocation : Invocation) : Option TableRequest :=
  match readArguments invocation.arguments with
  | .error _ => none
  | .ok arguments =>
      if arguments.printsDefaults then none
      else arguments.command.bind (requestOf? settings invocation.surroundings)

/-- The table is the flattening of the run's own input. -/
def Computes (settings : Settings) (invocation : Invocation) (flattened : FlattenedTable) :
    Prop :=
  ∃ request, invocation.request? settings = some request ∧
    request.flatten settings invocation.surroundings.freshId = .ok flattened

variable {settings : Settings} {invocation : Invocation}

/-- The same of a run as of its command. -/
theorem run_outcome (hasSettings : invocation.HasSettings settings) :
    (invocation.request? settings = none ∧ ∃ ending, ∀ directory,
      run invocation.surroundings directory invocation.arguments = (ending, directory)) ∨
    ∃ request, invocation.request? settings = some request ∧
      request.table.isFlattened = false ∧ (∀ shard ∈ request.table.shards, shard.IsIntact) ∧
      ∀ directory, ∃ outcome left,
        FlattensLoaded settings invocation.surroundings.now invocation.surroundings.freshId
          directory request.table request.flattenBy outcome left ∧
        run invocation.surroundings directory invocation.arguments =
          (request.ending outcome, left) := by
  cases read : readArguments invocation.arguments with
  | error stop => exact Or.inl ⟨by simp [request?, read], .stopped stop, by simp [run, read]⟩
  | ok arguments =>
      have sameSettings := hasSettings arguments read
      cases prints : arguments.printsDefaults with
      | true =>
          exact Or.inl ⟨by simp [request?, read, prints], .printed (Settings.write {}),
            by simp [run, read, runArguments, prints]⟩
      | false =>
          cases isCommand : arguments.command with
          | none =>
              exact Or.inl ⟨by simp [request?, read, prints, isCommand], .failed .noCommand,
                by simp [run, read, runArguments, prints, isCommand]⟩
          | some command =>
              have outcome := runCommand_outcome settings invocation.surroundings command
              simpa [request?, run, runArguments, read, prints, isCommand, sameSettings]
                using outcome

/-! ## Directories after runs -/

/-- What the directory holds was offered to it, table after table, and each of the tables has the
property. -/
def HoldsOnly (property : FlattenedTable → Prop) (directory : Directory) : Prop :=
  ∀ opened, directory.opened = .ok opened → ∃ offers, opened = DirectoryStore.afterOffers offers ∧
    ∀ made ∈ offers, property made.table

/-- What the directory holds was offered to it, table after table, and each of the tables is what
one of the runs computed of its own input. -/
def HoldsTablesOf (settings : Settings) (runs : List Invocation) (directory : Directory) : Prop :=
  ∀ opened, directory.opened = .ok opened → ∃ offers, opened = DirectoryStore.afterOffers offers ∧
    ∀ made ∈ offers, ∃ run ∈ runs, run.Computes settings made.table

theorem opened_afterOffers (offers : List TableOffer) :
    (DirectoryStore.afterOffers offers).opened = .ok (DirectoryStore.afterOffers offers) := by
  obtain ⟨entries, isPresent, _⟩ := DirectoryStore.holdsOffers_afterOffers offers
  rw [isPresent]
  rfl

variable {runs earlier : List Invocation} {directory start : Directory}

theorem HoldsOnly.mono {property other : FlattenedTable → Prop}
    (holds : HoldsOnly property directory) (implies : ∀ made, property made → other made) :
    HoldsOnly other directory := by
  intro opened opens
  obtain ⟨offers, isOffered, haveProperty⟩ := holds opened opens
  exact ⟨offers, isOffered, fun made isMade => implies _ (haveProperty made isMade)⟩

theorem HoldsOnly.opened {property : FlattenedTable → Prop} (holds : HoldsOnly property directory)
    {opened : Directory} (opens : directory.opened = .ok opened) : HoldsOnly property opened := by
  intro again opensAgain
  rw [Directory.opened_of_opened opens] at opensAgain
  cases opensAgain
  exact holds opened opens

/-- A run adds at most what it computes. -/
theorem HoldsOnly.leaves {property : FlattenedTable → Prop} (holds : HoldsOnly property directory)
    (hasSettings : invocation.HasSettings settings)
    (areComputed : ∀ made, invocation.Computes settings made → property made) :
    HoldsOnly property (invocation.leaves directory) := by
  rw [Invocation.leaves]
  rcases run_outcome hasSettings with
    ⟨_, ending, runs⟩ | ⟨request, isRequest, _, _, runs⟩
  · rw [runs directory]
    exact holds
  · obtain ⟨outcome, left, flattens, isRun⟩ := runs directory
    rw [isRun]
    cases flattens with
    | recalled opens finds => exact holds.opened opens
    | unstored noStore succeeds => exact holds
    | refused notFound fails isLeft =>
        rcases isLeft with rfl | opens
        · exact holds
        · exact holds.opened opens
    | stored opens notFound succeeds =>
        rename_i before fresh
        -- The one way to change the directory: the table is the last of the offers now.
        obtain ⟨offers, rfl, haveProperty⟩ := holds before opens
        let made : TableOffer := ⟨invocation.surroundings.now, fresh⟩
        have isAfter := DirectoryStore.afterOffers_append_singleton offers made
        intro opened opens
        rw [← isAfter, opened_afterOffers] at opens
        cases opens
        refine ⟨offers ++ [made], rfl, ?_⟩
        intro other isOther
        rcases List.mem_append.mp isOther with isEarlier | isLast
        · exact haveProperty other isEarlier
        · cases List.mem_singleton.mp isLast
          exact areComputed fresh ⟨request, isRequest, succeeds⟩

/-- Each of the runs may have its own settings. -/
theorem holdsOnly_leftBy (isEmpty : start.IsEmpty) {settingsFor : Invocation → Settings}
    (haveSettings : ∀ run ∈ earlier, run.HasSettings (settingsFor run)) :
    HoldsOnly (fun made => ∃ run ∈ earlier, run.Computes (settingsFor run) made)
      (leftBy start earlier) := by
  induction earlier using List.reverseRecOn with
  | nil =>
      intro opened opens
      exact ⟨[], isEmpty opened opens, by simp⟩
  | append_singleton runs last inductionHypothesis =>
      rw [leftBy_append_singleton]
      have heldBefore : HoldsOnly
          (fun made => ∃ run ∈ runs ++ [last], run.Computes (settingsFor run) made)
          (leftBy start runs) := by
        apply (inductionHypothesis fun run isRun =>
          haveSettings run (List.mem_append_left _ isRun)).mono
        rintro made ⟨run, isRun, computes⟩
        exact ⟨run, List.mem_append_left _ isRun, computes⟩
      have isLast : last ∈ runs ++ [last] := List.mem_append_right _ List.mem_cons_self
      apply heldBefore.leaves (haveSettings last isLast)
      intro made computes
      exact ⟨last, isLast, computes⟩

theorem holdsTablesOf_leftBy (isEmpty : start.IsEmpty)
    (haveSettings : ∀ run ∈ earlier, run.HasSettings settings) :
    HoldsTablesOf settings earlier (leftBy start earlier) :=
  holdsOnly_leftBy isEmpty haveSettings

/-! ## What a run owes to earlier ones -/

theorem run_of_request (hasSettings : invocation.HasSettings settings) {request : TableRequest}
    (isRequest : invocation.request? settings = some request) :
    request.table.isFlattened = false ∧ (∀ shard ∈ request.table.shards, shard.IsIntact) ∧
      ∀ directory, ∃ outcome left,
        FlattensLoaded settings invocation.surroundings.now invocation.surroundings.freshId
          directory request.table request.flattenBy outcome left ∧
        run invocation.surroundings directory invocation.arguments =
          (request.ending outcome, left) := by
  rcases run_outcome hasSettings with ⟨noRequest, _⟩ | ⟨other, isOther, outcome⟩
  · rw [isRequest] at noRequest
    cases noRequest
  · rw [isRequest] at isOther
    cases isOther
    exact outcome

theorem Computes.isReadable {flattened : FlattenedTable}
    (computes : invocation.Computes settings flattened)
    (hasSettings : invocation.HasSettings settings) : flattened.IsReadable := by
  obtain ⟨request, isRequest, succeeds⟩ := computes
  obtain ⟨_, intact, _⟩ := run_of_request hasSettings isRequest
  exact Flattening.isReadable_of_flattenTable intact succeeds

/-- Where nothing is found, a run prints the flattening of its own input. -/
theorem endingIn_of_nothing (hasSettings : invocation.HasSettings settings)
    {request : TableRequest} (isRequest : invocation.request? settings = some request)
    (nothing : settings.cache.usesDisk = false ∨ directory.IsEmpty) :
    invocation.endingIn directory =
      request.ending (request.flatten settings invocation.surroundings.freshId) := by
  obtain ⟨_, _, runs⟩ := run_of_request hasSettings isRequest
  obtain ⟨outcome, left, flattens, isRun⟩ := runs directory
  rw [endingIn, isRun, TableRequest.flatten]
  cases flattens with
  | stored opens notFound succeeds => rw [succeeds]
  | unstored noStore succeeds => rw [succeeds]
  | refused notFound fails isLeft => rw [fails]
  | recalled opens finds =>
      obtain ⟨usesDisk, target, _, isLoaded⟩ := finds
      rcases nothing with noDisk | isEmpty
      · rw [usesDisk] at noDisk
        cases noDisk
      · rw [isEmpty _ opens] at isLoaded
        cases isLoaded

/-- What is found is one of the offered tables.  Whichever request computed that shares the key, and
the table that is found is printed like the one that was computed. -/
theorem exists_offer_of_findsStored {offers : List TableOffer}
    (suitable : ∀ made ∈ offers, made.table.IsReadable ∧ made.table.Fits) {cache : CacheSettings}
    {request : TableRequest} {now : Nat} {found : FlattenedTable}
    (finds : FindsStored cache now (DirectoryStore.afterOffers offers) request.table
      request.flattenBy found) :
    ∃ made ∈ offers, ∀ before settings id,
      TableRequest.flatten before settings id = .ok made.table →
        before.SharesKey request ∧
          ∀ id, request.print (found.rebase id) = request.print made.table := by
  obtain ⟨_, target, accepted, isFound⟩ := finds
  rcases DirectoryStore.load_outcome (storeOf cache) suitable now request.table.name
      target.toText request.table.firstRows with
    ⟨made, loaded, isLast, isFor, isLoaded, agrees⟩ | ⟨isNone, _⟩
  · rw [isFound] at isLoaded
    cases isLoaded
    refine ⟨made, DirectoryStore.mem_of_lastOfferTo? isLast, ?_⟩
    intro before settings id succeeds
    obtain ⟨_, _, _, _, _, _, inRowOrder⟩ := Flattening.flattenTable_eq_ok succeeds
    exact ⟨(TableRequest.isFor_iff_sharesKey succeeds accepted).mp isFor,
      request.print_rebase agrees inRowOrder⟩
  · rw [isFound] at isNone
    cases isNone

/-- What is found among the tables of earlier runs was computed by one of them, of the same key. -/
theorem exists_run_of_findsStored (haveSettings : ∀ run ∈ earlier, run.HasSettings settings)
    (fit : ∀ run ∈ earlier, ∀ made, run.Computes settings made → made.Fits)
    {offers : List TableOffer}
    (areComputed : ∀ made ∈ offers, ∃ run ∈ earlier, run.Computes settings made.table)
    {request : TableRequest} {now : Nat} {found : FlattenedTable}
    (finds : FindsStored settings.cache now (DirectoryStore.afterOffers offers) request.table
      request.flattenBy found) :
    ∃ other ∈ earlier, ∃ before made, other.request? settings = some before ∧
      before.SharesKey request ∧
      before.flatten settings other.surroundings.freshId = .ok made ∧
      ∀ id, request.print (found.rebase id) = request.print made := by
  have suitable : ∀ made ∈ offers, made.table.IsReadable ∧ made.table.Fits := by
    intro made isMade
    obtain ⟨run, isEarlier, computes⟩ := areComputed made isMade
    exact ⟨computes.isReadable (haveSettings run isEarlier), fit run isEarlier _ computes⟩
  obtain ⟨made, isMade, isShared⟩ := exists_offer_of_findsStored suitable finds
  obtain ⟨other, isEarlier, before, isBefore, succeeds⟩ := areComputed made isMade
  obtain ⟨sharesKey, samePrint⟩ := isShared before settings _ succeeds
  exact ⟨other, isEarlier, before, made.table, isBefore, sharesKey, succeeds, samePrint⟩

/-- A run prints the flattening of its own input, or what an earlier run of the key computed. -/
theorem endingIn_outcome (holds : HoldsTablesOf settings earlier directory)
    (haveSettings : ∀ run ∈ earlier, run.HasSettings settings)
    (fit : ∀ run ∈ earlier, ∀ made, run.Computes settings made → made.Fits)
    (hasSettings : invocation.HasSettings settings) {request : TableRequest}
    (isRequest : invocation.request? settings = some request) :
    invocation.endingIn directory =
        request.ending (request.flatten settings invocation.surroundings.freshId) ∨
      ∃ other ∈ earlier, ∃ before made, other.request? settings = some before ∧
        before.SharesKey request ∧
        before.flatten settings other.surroundings.freshId = .ok made ∧
        invocation.endingIn directory = .printed (request.print made) := by
  obtain ⟨_, _, runs⟩ := run_of_request hasSettings isRequest
  obtain ⟨outcome, left, flattens, isRun⟩ := runs directory
  rw [endingIn, isRun, TableRequest.flatten]
  cases flattens with
  | stored opens notFound succeeds => exact Or.inl (by rw [succeeds])
  | unstored noStore succeeds => exact Or.inl (by rw [succeeds])
  | refused notFound fails isLeft => exact Or.inl (by rw [fails])
  | recalled opens finds =>
      obtain ⟨offers, rfl, areComputed⟩ := holds _ opens
      obtain ⟨other, isEarlier, before, made, isBefore, sharesKey, succeeds, samePrint⟩ :=
        exists_run_of_findsStored haveSettings fit areComputed finds
      exact Or.inr ⟨other, isEarlier, before, made, isBefore, sharesKey, succeeds,
        congrArg Ending.printed (samePrint _)⟩

/-- A run after others ends as it does with an empty directory, or it prints the flattening that an
earlier run of the same key computed of its own input.  It is the former if there is no store, or if
all earlier runs of the key had the same shards. -/
theorem endingIn_leftBy (settings : Settings) {start : Directory} (isEmpty : start.IsEmpty)
    {earlier : List Invocation} (haveSettings : ∀ run ∈ earlier, run.HasSettings settings)
    (fit : ∀ run ∈ earlier, ∀ made, run.Computes settings made → made.Fits)
    {invocation : Invocation} (hasSettings : invocation.HasSettings settings) :
    (invocation.request? settings = none →
      invocation.endingIn (leftBy start earlier) = invocation.endingIn (.present [])) ∧
    ∀ request, invocation.request? settings = some request →
      invocation.endingIn (.present []) =
          request.ending (request.flatten settings invocation.surroundings.freshId) ∧
      (invocation.endingIn (leftBy start earlier) = invocation.endingIn (.present []) ∨
        ∃ other ∈ earlier, ∃ before made, other.request? settings = some before ∧
          before.SharesKey request ∧
          before.flatten settings other.surroundings.freshId = .ok made ∧
          invocation.endingIn (leftBy start earlier) = .printed (request.print made)) ∧
      (settings.cache.usesDisk = false ∨
          (∀ other ∈ earlier, ∀ before, other.request? settings = some before →
            before.SharesKey request → before.table.shards = request.table.shards) →
        invocation.endingIn (leftBy start earlier) = invocation.endingIn (.present [])) := by
  refine ⟨?_, ?_⟩
  · intro noRequest
    rcases run_outcome hasSettings with ⟨_, ending, runs⟩ | ⟨request, isRequest, _⟩
    · rw [endingIn, endingIn, runs, runs]
    · rw [noRequest] at isRequest
      cases isRequest
  · intro request isRequest
    have fresh := endingIn_of_nothing hasSettings isRequest
      (Or.inr (Directory.isEmpty_present_nil))
    have holds := holdsTablesOf_leftBy isEmpty haveSettings
    have outcome := endingIn_outcome holds haveSettings fit hasSettings isRequest
    rw [← fresh] at outcome
    refine ⟨fresh, outcome, ?_⟩
    rintro (noDisk | sameShards)
    · rw [endingIn_of_nothing hasSettings isRequest (Or.inl noDisk), fresh]
    · rcases outcome with isFresh | ⟨other, isEarlier, before, made, isBefore, sharesKey,
        succeeds, isPrinted⟩
      · exact isFresh
      · obtain ⟨isLoaded, _⟩ := run_of_request hasSettings isRequest
        have same := sharesKey.flatten_eq_ok isLoaded
          (sameShards other isEarlier before isBefore sharesKey) succeeds
          invocation.surroundings.freshId
        rw [isPrinted, fresh, same]
        rfl

/-- What a run prints of its own input, after what decides where that is stored; nothing if the
flattening fails or does not fit into a file. -/
def preview? (settings : Settings) (invocation : Invocation) :
    Option ((String × String × FirstRows × Bool) × String) := do
  let request ← invocation.request? settings
  let made ← (request.flatten settings invocation.surroundings.freshId).toOption
  guard made.Fits
  return ((request.table.name, request.flattenBy, request.table.firstRows, request.showsColumns),
    request.print made)

theorem preview?_eq_some {key : String × String × FirstRows × Bool} {printed : String}
    (isPreview : invocation.preview? settings = some (key, printed)) :
    ∃ request made, invocation.request? settings = some request ∧
      request.flatten settings invocation.surroundings.freshId = .ok made ∧ made.Fits ∧
      (request.table.name, request.flattenBy, request.table.firstRows, request.showsColumns) =
        key ∧
      request.print made = printed := by
  rw [preview?] at isPreview
  obtain ⟨request, isRequest, goesOn⟩ := Option.bind_eq_some_iff.mp isPreview
  obtain ⟨made, isMade, goesOn⟩ := Option.bind_eq_some_iff.mp goesOn
  obtain ⟨_, fits, isShown⟩ := Option.bind_eq_some_iff.mp goesOn
  cases succeeds : request.flatten settings invocation.surroundings.freshId with
  | error cause => simp [succeeds, Except.toOption] at isMade
  | ok flattened =>
      simp only [succeeds, Except.toOption, Option.some.injEq] at isMade
      subst isMade
      cases isShown
      refine ⟨request, flattened, isRequest, succeeds, ?_, rfl, rfl⟩
      by_contra notFits
      simp [notFits] at fits

/-- Settings with a store, where tables do not become too old. -/
def storingSettings : Settings := { cache := { diskDirectory := "d" } }

/-- A run with these settings that flattens a document. -/
def storingRun (document : String) (now : Nat) (id : FlattenId) : Invocation where
  surroundings :=
    { textOf := fun file =>
        if file = "c.toml" then some "[cache]\ndisk_dir = \"d\"\n" else some document
      readJson := Json.read?
      now := now
      freshId := id }
  arguments := ["-c", "c.toml", "flatten", "-i", "r.json", "-b", "a[*]"]

theorem hasSettings_storingRun (document : String) (now : Nat) (id : FlattenId) :
    (storingRun document now id).HasSettings storingSettings := by
  have areRead : readArguments ["-c", "c.toml", "flatten", "-i", "r.json", "-b", "a[*]"] =
      .ok ⟨some "c.toml", false, some (.flatten ⟨"r.json", "rows", 1024⟩ "a[*]" false)⟩ := by
    decide +kernel
  have areSettings : Settings.readOrDefault (some "[cache]\ndisk_dir = \"d\"\n") =
      storingSettings := by
    decide +kernel
  intro arguments isRead
  cases areRead.symm.trans isRead
  exact areSettings

def firstRun : Invocation :=
  storingRun "\x7b\"a\":[1]\x7d" 1000 (Identifier.ofNat 1)

def repeatedRun : Invocation :=
  storingRun "\x7b\"a\":[1]\x7d" 2000 (Identifier.ofNat 2)

/-- The same command line on other rows. -/
def laterRun : Invocation :=
  storingRun "\x7b\"a\":[2]\x7d" 2000 (Identifier.ofNat 2)

theorem preview?_firstRun : firstRun.preview? storingSettings =
    some (("rows", "a[*]", [0], false), "\x7b\"_row_id\":0,\"a\":1\x7d\n") := by
  decide +kernel

theorem preview?_laterRun : laterRun.preview? storingSettings =
    some (("rows", "a[*]", [0], false), "\x7b\"_row_id\":0,\"a\":2\x7d\n") := by
  decide +kernel

theorem endingIn_leftBy_repeatedRun :
    storingSettings.cache.usesDisk = true ∧
      repeatedRun.endingIn (leftBy .missing [firstRun]) =
        .printed "\x7b\"_row_id\":0,\"a\":1\x7d\n" := by
  obtain ⟨request, made, isRequest, succeeds, fits, _, isPrinted⟩ :=
    preview?_eq_some preview?_firstRun
  -- What a run is to flatten depends neither on the time nor on the name it gives.
  have isRepeated : repeatedRun.request? storingSettings = some request := isRequest
  have firstSettings : firstRun.HasSettings storingSettings := hasSettings_storingRun _ _ _
  have repeatedSettings : repeatedRun.HasSettings storingSettings := hasSettings_storingRun _ _ _
  have fit : ∀ made, firstRun.Computes storingSettings made → made.Fits := by
    rintro other ⟨again, isAgain, succeedsAgain⟩
    rw [isRequest] at isAgain
    cases isAgain
    rw [succeeds] at succeedsAgain
    cases succeedsAgain
    exact fits
  have sameShards : ∀ other ∈ [firstRun], ∀ before,
      other.request? storingSettings = some before → before.SharesKey request →
        before.table.shards = request.table.shards := by
    rw [List.forall_mem_singleton]
    intro before isBefore _
    rw [isRequest] at isBefore
    cases isBefore
    rfl
  obtain ⟨_, outcome⟩ := endingIn_leftBy storingSettings Directory.isEmpty_missing
    (List.forall_mem_singleton.mpr firstSettings) (List.forall_mem_singleton.mpr fit)
    repeatedSettings
  obtain ⟨isFresh, _, isSame⟩ := outcome request isRepeated
  obtain ⟨isLoaded, _⟩ := run_of_request repeatedSettings isRepeated
  have computed := Flattening.flattenTable_congr isLoaded rfl rfl succeeds
    repeatedRun.surroundings.freshId
  refine ⟨by decide, ?_⟩
  rw [isSame (Or.inr sameShards), isFresh, ← isPrinted, TableRequest.flatten, computed]
  rfl

/-! ## Other rows under the same key -/

/-- Into an empty directory a run stores what it computes. -/
theorem leaves_of_succeeds (usesDisk : settings.cache.usesDisk = true)
    (hasSettings : invocation.HasSettings settings) {request : TableRequest}
    (isRequest : invocation.request? settings = some request) {made : FlattenedTable}
    (succeeds : request.flatten settings invocation.surroundings.freshId = .ok made) :
    invocation.leaves (.present []) =
      DirectoryStore.afterOffers [⟨invocation.surroundings.now, made⟩] := by
  obtain ⟨_, _, runs⟩ := run_of_request hasSettings isRequest
  obtain ⟨outcome, left, flattens, isRun⟩ := runs (.present [])
  rw [TableRequest.flatten] at succeeds
  rw [leaves, isRun]
  cases flattens with
  | stored opens notFound isComputed =>
      rw [succeeds] at isComputed
      cases isComputed
      cases opens
      simp only [DirectoryStore.afterOffers, List.foldl_cons, List.foldl_nil]
  | unstored noStore isComputed =>
      have noDisk := noStore (.present []) rfl
      rw [usesDisk] at noDisk
      cases noDisk
  | refused notFound fails isLeft =>
      rw [succeeds] at fails
      cases fails
  | recalled opens finds =>
      obtain ⟨_, _, _, isLoaded⟩ := finds
      cases opens
      cases isLoaded

/-- A run prints the table that is stored for it, whatever its own input. -/
theorem endingIn_of_findsStored (hasSettings : invocation.HasSettings settings)
    {request : TableRequest} (isRequest : invocation.request? settings = some request)
    {opened : Directory} (opens : directory.opened = .ok opened) {found : FlattenedTable}
    (finds : FindsStored settings.cache invocation.surroundings.now opened request.table
      request.flattenBy found) :
    invocation.endingIn directory =
      .printed (request.print (found.rebase invocation.surroundings.freshId)) := by
  obtain ⟨_, _, runs⟩ := run_of_request hasSettings isRequest
  obtain ⟨outcome, left, flattens, isRun⟩ := runs directory
  rw [endingIn, isRun]
  cases flattens with
  | recalled opensAgain findsAgain =>
      rw [opens] at opensAgain
      cases opensAgain
      rw [findsAgain.unique finds]
      rfl
  | stored opensAgain notFound _ =>
      rw [opens] at opensAgain
      cases opensAgain
      exact absurd finds (notFound found)
  | unstored noStore _ =>
      have noDisk := noStore opened opens
      rw [finds.usesDisk] at noDisk
      cases noDisk
  | refused notFound _ _ => exact absurd finds (notFound opened opens found)

/-- Without a bound on their age, the table that a run stores in an empty directory is what the next
run of the same key prints, whatever the rows of its own input. -/
theorem endingIn_leaves_of_sharesKey (usesDisk : settings.cache.usesDisk = true)
    (noBound : settings.cache.diskBound = none) {first later : Invocation}
    (firstSettings : first.HasSettings settings) (laterSettings : later.HasSettings settings)
    {before request : TableRequest} (isBefore : first.request? settings = some before)
    (isRequest : later.request? settings = some request) (sharesKey : before.SharesKey request)
    {made : FlattenedTable}
    (succeeds : before.flatten settings first.surroundings.freshId = .ok made) (fits : made.Fits) :
    later.endingIn (first.leaves (.present [])) = .printed (request.print made) := by
  let offer : TableOffer := ⟨first.surroundings.now, made⟩
  obtain ⟨target, _, accepted⟩ := sharesKey.field
  have isFor : offer.IsFor request.table.name target.toText request.table.firstRows :=
    (TableRequest.isFor_iff_sharesKey succeeds accepted).mpr sharesKey
  have isLast : DirectoryStore.lastOfferTo? [offer] (StoredTable.fileName request.table.name
      target.toText request.table.firstRows) = some offer := by
    obtain ⟨isSource, isField, areRows⟩ := isFor
    simp [DirectoryStore.lastOfferTo?, TableOffer.fileName, isSource, isField, areRows]
  have suitable : ∀ made ∈ [offer], made.table.IsReadable ∧ made.table.Fits := by
    intro made isMade
    cases List.mem_singleton.mp isMade
    exact ⟨Computes.isReadable ⟨before, isBefore, succeeds⟩ firstSettings, fits⟩
  obtain ⟨_, _, _, _, _, _, inRowOrder⟩ := Flattening.flattenTable_eq_ok succeeds
  rw [leaves_of_succeeds usesDisk firstSettings isBefore succeeds]
  rcases DirectoryStore.load_outcome (storeOf settings.cache) suitable later.surroundings.now
      request.table.name target.toText request.table.firstRows with
    ⟨kept, found, isKept, _, isLoaded, agrees⟩ | ⟨_, onlyByAge⟩
  · rw [isLast] at isKept
    cases isKept
    have samePrint := request.print_rebase agrees inRowOrder later.surroundings.freshId
    rw [← samePrint]
    exact endingIn_of_findsStored laterSettings isRequest (opened_afterOffers [offer])
      ⟨usesDisk, target, accepted, isLoaded⟩
  · exact absurd noBound (onlyByAge offer isLast isFor)

/-- Two runs of one command line on different rows: the second one prints the rows of the first. -/
theorem laterRun_prints_earlierRows :
    storingSettings.cache.usesDisk = true ∧ storingSettings.cache.diskBound = none ∧
      firstRun.HasSettings storingSettings ∧ laterRun.HasSettings storingSettings ∧
      laterRun.endingIn (leftBy (.present []) [firstRun]) =
        .printed "\x7b\"_row_id\":0,\"a\":1\x7d\n" ∧
      laterRun.endingIn (.present []) = .printed "\x7b\"_row_id\":0,\"a\":2\x7d\n" := by
  obtain ⟨before, made, isBefore, succeeds, fits, isKey, isPrinted⟩ :=
    preview?_eq_some preview?_firstRun
  obtain ⟨request, own, isRequest, ownSucceeds, _, isSameKey, ownIsPrinted⟩ :=
    preview?_eq_some preview?_laterRun
  have firstSettings : firstRun.HasSettings storingSettings := hasSettings_storingRun _ _ _
  have laterSettings : laterRun.HasSettings storingSettings := hasSettings_storingRun _ _ _
  rw [← isSameKey] at isKey
  simp only [Prod.mk.injEq] at isKey
  obtain ⟨sameName, sameField, sameRows, sameColumns⟩ := isKey
  obtain ⟨_, target, accepted, _⟩ := Flattening.flattenTable_eq_ok succeeds
  have sharesKey : before.SharesKey request :=
    ⟨sameName, ⟨target, accepted, sameField ▸ accepted⟩, sameRows⟩
  refine ⟨by decide, by decide, firstSettings, laterSettings, ?_, ?_⟩
  · have printsStored := endingIn_leaves_of_sharesKey (by decide) (by decide) firstSettings
      laterSettings isBefore isRequest sharesKey succeeds fits
    rw [TableRequest.print, ← sameColumns] at printsStored
    rw [← isPrinted]
    exact printsStored
  · rw [endingIn_of_nothing laterSettings isRequest (Or.inr Directory.isEmpty_present_nil),
      ownSucceeds, ← ownIsPrinted]
    rfl

end Invocation

end CommandLine

end Unnest
