import Std.Time.DateTime.Timestamp
import Unnest.CommandLine
import Unnest.Json.Reader

/-!
# The program

Reads the files that a run asks for, runs it, prints what it says and writes the files of stored
tables back.
-/

namespace Unnest.Program

open CommandLine

/-- The text of a file, if it can be read. -/
def readText? (file : String) : IO (Option String) := do
  try
    pure (some (← IO.FS.readFile file))
  catch _ => pure none

/-- What stands at the names of stored tables in a directory. -/
def readDirectory (path : String) (names : List String) : IO Directory := do
  try
    IO.FS.createDirAll path
    let mut entries : OrderedMap String DirectoryEntry := []
    for name in names do
      try
        let content ← IO.FS.readBinFile (path ++ "/" ++ name)
        entries := OrderedMap.insert name (.file content.data.toList) entries
      catch _ => pure ()
    pure (.present entries)
  catch _ => pure .blocked

/-- Write stored tables; one that cannot be written is left out. -/
def writeDirectory (path : String) (directory : Directory) : IO Unit := do
  match directory with
  | .present entries =>
      for (name, entry) in entries do
        match entry with
        | .file content =>
            try
              IO.FS.writeBinFile (path ++ "/" ++ name) ⟨content.toArray⟩
            catch _ => pure ()
        | .directory => pure ()
  | _ => pure ()

/-- The texts of the files that arguments name. -/
def readFiles (arguments : Arguments) : IO (String → Option String) := do
  let input :=
    match arguments.command with
    | some (.flatten input _ _) => [input.file]
    | some (.columns input) => [input.file]
    | none => []
  let texts ← (arguments.settingsFile.toList ++ input).mapM fun file => do
    pure (file, ← readText? file)
  pure fun file => (texts.lookup file).join

/-- The directory of stored tables, as far as a run looks at it. -/
def directoryFor (settings : Settings) (textOf : String → Option String)
    (command : Option Command) : IO Directory := do
  match command with
  | some (.flatten input flattenBy _) =>
      let loaded := loadTable Json.read? settings.flatten input (textOf input.file)
      match settings.cache.usesDisk, loaded with
      | true, .ok table => readDirectory settings.cache.diskDirectory (storedFiles table flattenBy)
      | _, _ => pure .missing
  | _ => pure .missing

/-- Run arguments and print what comes of it. -/
def runAndPrint (arguments : Arguments) : IO UInt32 := do
  let textOf ← readFiles arguments
  let settings := settingsOf textOf arguments
  let directory ← directoryFor settings textOf arguments.command
  let now ← Std.Time.Timestamp.now
  let random ← IO.getRandomBytes 16
  let surroundings : Surroundings :=
    { textOf := textOf
      readJson := Json.read?
      now := now.toMillisecondsSinceUnixEpoch.toInt.toNat
      freshId := (Identifier.ofBytes? random.data.toList).getD default }
  let (ending, directory) := runArguments surroundings directory arguments
  if settings.cache.usesDisk then
    writeDirectory settings.cache.diskDirectory directory
  match ending with
  | .printed output =>
      IO.print output
      pure 0
  | .failed failure =>
      IO.eprintln ("strata: error: " ++ failure.message)
      pure 1
  | .stopped _ => pure 2

end Unnest.Program

open Unnest Unnest.CommandLine in
/-- The program. -/
def main (arguments : List String) : IO UInt32 := do
  match readArguments arguments with
  | .ok arguments => Program.runAndPrint arguments
  | .error .version =>
      IO.print versionText
      pure 0
  | .error .help =>
      IO.println "Usage: strata [OPTIONS] [COMMAND]"
      pure 0
  | .error .misuse =>
      IO.eprintln "strata: error: unusable arguments, try --help"
      pure 2
