import Unnest.Cache
import Unnest.CommandLine.Arguments
import Unnest.CommandLine.Lines
import Unnest.Document.Loading
import Unnest.Settings.Text

/-!
# Running a command

A run is a function of the arguments, of the files it reads and of the directory where flattened
tables are stored; it returns what is printed and the directory as it leaves it.
-/

namespace Unnest.CommandLine

/-- Why a run fails. -/
inductive Failure where
  | noCommand
  | input (file : String) (fault : InputFault)
  | refused (cause : Error)
deriving DecidableEq, Repr, Inhabited

def Failure.message : Failure → String
  | .noCommand => "no command given (try `strata flatten --help`)"
  | .input file fault => fault.message file
  | .refused cause => cause.message

/-- How a run ends. -/
inductive Ending where
  | printed (output : String)
  | failed (failure : Failure)
  /-- The version, a help text or the usage is shown instead. -/
  | stopped (stop : Stop)
deriving DecidableEq, Repr, Inhabited

def versionText : String := "strata 0.1.0\n"

/-- What a run is given besides its arguments. -/
structure Surroundings where
  /-- The text of a file, if it can be read. -/
  textOf : String → Option String
  /-- The value of a JSON text, if it is one. -/
  readJson : String → Option Json
  /-- The time in milliseconds since 1970. -/
  now : Nat
  /-- The name for a table that is flattened. -/
  freshId : FlattenId

/-- The table in an input file. -/
def loadTable (readJson : String → Option Json) (settings : FlattenSettings)
    (input : InputArguments) (contents : Option String) : Except Failure Table :=
  match readDocuments readJson contents with
  | .error fault => .error (.input input.file fault)
  | .ok documents =>
      match Document.loadShards settings input.table input.shardRows documents with
      | .error error => .error (.refused error)
      | .ok shards => .ok (Table.load input.table shards)

/-- The files in the directory of stored tables that flattening a table looks at. -/
def storedFiles (table : Table) (flattenBy : String) : List String :=
  match readTarget flattenBy with
  | .error _ => []
  | .ok target =>
      [StoredTable.fileName table.name target.toText table.firstRows,
        StoredTable.draftName table.name target.toText table.firstRows]

/-- The store that settings ask for, and its directory, which is made if it is missing.  A directory
that cannot be opened means that there is no store. -/
def openStore (settings : CacheSettings) (directory : Directory) :
    Option (TableStore Directory) × Directory :=
  if settings.usesDisk then
    match directory.opened with
    | .ok opened =>
        let store : DirectoryStore := ⟨settings.diskDirectory, settings.diskBound⟩
        (some store.toStore, opened)
    | .error _ => (none, directory)
  else
    (none, directory)

/-- Flatten a table through a cache of its own. -/
def flattenLoaded (settings : Settings) (now : Nat) (id : FlattenId) (directory : Directory)
    (table : Table) (flattenBy : String) : Outcome FlattenedTable × Directory :=
  let (store, directory) := openStore settings.cache directory
  let cache := FlattenCache.ofSettings settings.flatten settings.cache
  let (handedOut, _, directory) := cache.flatten store now directory table flattenBy id
  (handedOut.map HandedOut.table, directory)

/-- Run a command with its settings. -/
def runCommand (settings : Settings) (surroundings : Surroundings) (directory : Directory)
    (command : Command) : Ending × Directory :=
  match command with
  | .columns input =>
      match loadTable surroundings.readJson settings.flatten input
          (surroundings.textOf input.file) with
      | .error failure => (.failed failure, directory)
      | .ok table => (.printed (String.join (table.shards.map printColumns)), directory)
  | .flatten input flattenBy showsColumns =>
      match loadTable surroundings.readJson settings.flatten input
          (surroundings.textOf input.file) with
      | .error failure => (.failed failure, directory)
      | .ok table =>
          match flattenLoaded settings surroundings.now surroundings.freshId directory table
              flattenBy with
          | (.error error, directory) => (.failed (.refused error), directory)
          | (.ok flattened, directory) =>
              let print := if showsColumns then printColumns else printRows
              (.printed (String.join (flattened.shards.map print)), directory)

/-- The settings that arguments name. -/
def settingsOf (textOf : String → Option String) (arguments : Arguments) : Settings :=
  match arguments.settingsFile with
  | none => {}
  | some file => Settings.readOrDefault (textOf file)

/-- Run what arguments ask for.  Printing the defaults comes before any command. -/
def runArguments (surroundings : Surroundings) (directory : Directory) (arguments : Arguments) :
    Ending × Directory :=
  if arguments.printsDefaults then
    (.printed (Settings.write {}), directory)
  else
    match arguments.command with
    | none => (.failed .noCommand, directory)
    | some command =>
        runCommand (settingsOf surroundings.textOf arguments) surroundings directory command

/-- Run a command line. -/
def run (surroundings : Surroundings) (directory : Directory) (arguments : List String) :
    Ending × Directory :=
  match readArguments arguments with
  | .error stop => (.stopped stop, directory)
  | .ok arguments => runArguments surroundings directory arguments

end Unnest.CommandLine
