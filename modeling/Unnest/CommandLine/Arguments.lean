import Unnest.CommandLine.Option
import Unnest.Text.Digits

/-!
# The arguments of the program

The program shows its default settings, or runs one of two commands on an input file: flattening it,
or showing its columns.  The file of settings may be named before and after the command, where the
one after it counts.
-/

namespace Unnest.CommandLine

/-- What is read. -/
structure InputArguments where
  file : String
  table : String
  /-- How many rows go into a shard. -/
  shardRows : Nat
deriving DecidableEq, Repr, Inhabited

/-- What is done with it. -/
inductive Command where
  | flatten (input : InputArguments) (flattenBy : String) (showsColumns : Bool)
  | columns (input : InputArguments)
deriving DecidableEq, Repr, Inhabited

structure Arguments where
  settingsFile : Option String
  printsDefaults : Bool
  command : Option Command
deriving DecidableEq, Repr, Inhabited

/-! ## Forms -/

def isFileName (value : String) : Bool := !value.isEmpty

/-- A number of 64 bits. -/
def readRowCount? (value : String) : Option Nat :=
  Text.readBelow? UInt64.size value.toList

def settingsForm : OptionForm := ⟨"config", some 'c', .takesValue isFileName⟩

def helpForm : OptionForm := ⟨"help", some 'h', .showsHelp⟩

def programForms : List OptionForm :=
  [settingsForm, ⟨"print-default-config", none, .turnsOn⟩, ⟨"version", some 'V', .showsVersion⟩,
    helpForm]

def inputForms : List OptionForm :=
  [⟨"input", some 'i', .takesValue isFileName⟩, ⟨"table", some 't', .takesValue fun _ => true⟩,
    ⟨"shard-rows", none, .takesValue fun value => (readRowCount? value).isSome⟩, settingsForm,
    helpForm]

def flattenForms : List OptionForm :=
  inputForms ++ [⟨"by", some 'b', .takesValue fun _ => true⟩, ⟨"columns", none, .turnsOn⟩]

/-! ## Reading -/

/-- The input that options name; its file is required. -/
def inputOf (given : GivenOptions) : Except Stop InputArguments :=
  match given.lookup "input" with
  | none => .error .misuse
  | some file =>
      .ok
        { file := file
          table := (given.lookup "table").getD "rows"
          shardRows := ((given.lookup "shard-rows").bind readRowCount?).getD 1024 }

/-- The command with its arguments, and the file of settings that is named among them. -/
def readCommand (name : String) (rest : List String) :
    Except Stop (Command × Option String) := do
  let forms := if name == "flatten" then flattenForms else inputForms
  let (given, _) ← scan forms [] [] rest
  let input ← inputOf given
  let settingsFile := given.lookup "config"
  if name == "flatten" then
    match given.lookup "by" with
    | none => throw .misuse
    | some flattenBy =>
        pure (.flatten input flattenBy (given.lookup "columns").isSome, settingsFile)
  else
    pure (.columns input, settingsFile)

/-- Read the arguments of the program. -/
def readArguments (arguments : List String) : Except Stop Arguments := do
  let (given, rest) ← scan programForms ["flatten", "columns", "help"] [] arguments
  let settingsFile := given.lookup "config"
  let printsDefaults := (given.lookup "print-default-config").isSome
  match rest with
  | [] => pure ⟨settingsFile, printsDefaults, none⟩
  | "help" :: _ => throw .help
  | name :: rest => do
      let (command, later) ← readCommand name rest
      pure ⟨later <|> settingsFile, printsDefaults, some command⟩

end Unnest.CommandLine
