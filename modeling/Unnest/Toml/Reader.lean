import Unnest.Toml.Number
import Unnest.Toml.Table
import Unnest.Toml.Text

/-!
# Reading a TOML text

A TOML text is a sequence of lines.  A line gives a value to a path of keys, or opens a section, or
holds at most a comment.  Arrays may go over several lines, tables in braces may not.  The values
before the first header belong to the whole table, those after a header to its section.
-/

namespace Unnest.Toml

def dropIndent (input : List Char) : List Char :=
  input.dropWhile isIndent

/-! ## Comments and line ends -/

/-- The text after a comment, which begins with a hash sign, if there is one; the comment may hold
plain characters only. -/
def dropComment (input : List Char) : List Char :=
  match input with
  | '#' :: rest => rest.dropWhile isPlain
  | _ => input

/-- What may stand at the end of a line: blanks, a comment, and a line end or the end of the
text. -/
def takeLineEnd? (input : List Char) : Option (List Char) :=
  match dropComment (dropIndent input) with
  | [] => some []
  | rest => takeNewline? rest

/-- Drop blanks, line ends and comments with their line ends. -/
def dropBlankLines : Nat → List Char → List Char
  | 0, input => input
  | fuel + 1, input =>
      let visible := dropIndent input
      match takeNewline? (dropComment visible) with
      | some rest => dropBlankLines fuel rest
      | none => visible

/-! ## Keys -/

def isBareKey (character : Char) : Bool :=
  ('a' ≤ character && character ≤ 'z') || ('A' ≤ character && character ≤ 'Z') ||
    Text.isDigit character || character == '_' || character == '-'

/-- A bare key, or a text on one line. -/
def takeKey? : List Char → Option (String × List Char)
  | '"' :: rest => takeBasic [] rest
  | '\'' :: rest => takeLiteral [] rest
  | input =>
      match input.takeWhile isBareKey with
      | [] => none
      | key => some (String.ofList key, input.dropWhile isBareKey)

/-- Values and paths go no deeper than this. -/
def deepest : Nat := 80

/-- Keys with dots between them and blanks around them; what follows the blanks is left. -/
def takePath? : Nat → List Char → Option (List String × List Char)
  | 0, _ => none
  | levels + 1, input =>
      (takeKey? (dropIndent input)).bind fun (key, rest) =>
        match dropIndent rest with
        | '.' :: rest => (takePath? levels rest).map fun (keys, rest) => (key :: keys, rest)
        | rest => some ([key], rest)

/-- A path of fewer keys than the limit. -/
def takeKeys? (input : List Char) : Option (List String × List Char) :=
  takePath? (deepest - 1) input

/-! ## Values -/

def takeWord? : List Char → Option (Toml × List Char)
  | 't' :: 'r' :: 'u' :: 'e' :: rest => some (.bool true, rest)
  | 'f' :: 'a' :: 'l' :: 's' :: 'e' :: rest => some (.bool false, rest)
  | _ => none

/-- A value that holds no other values. -/
def takeScalar? (input : List Char) : Option (Toml × List Char) :=
  ((takeText input).map fun (value, rest) => (.text value, rest)) <|> takeWord? input <|>
    takeNumber? input

mutual

/-- Read a value.  Every call is paid for by a character or followed by one that is, so twice the
length of the text is enough fuel. -/
def takeValue? : Nat → Nat → List Char → Option (Toml × List Char)
  | 0, _, _ => none
  | fuel + 1, depth, input =>
      match input with
      | '[' :: rest =>
          if depth + 1 < deepest then
            (takeItems? fuel (depth + 1) (dropBlankLines rest.length rest)).map
              fun (items, rest) => (.array items, rest)
          else none
      | '{' :: rest =>
          if depth + 1 < deepest then
            match dropIndent rest with
            | '}' :: rest => some (.table .inline [], rest)
            | rest =>
                (takePairs? fuel (depth + 1) rest).bind fun (pairs, rest) =>
                  (addValues [] pairs).map fun entries => (.table .inline entries, rest)
          else none
      | _ => takeScalar? input

/-- Read the items of an array from where one may start, and the closing bracket. -/
def takeItems? : Nat → Nat → List Char → Option (List Toml × List Char)
  | 0, _, _ => none
  | fuel + 1, depth, input =>
      match input with
      | ']' :: rest => some ([], rest)
      | _ =>
          (takeValue? fuel depth input).bind fun (item, rest) =>
            match dropBlankLines rest.length rest with
            | ',' :: rest =>
                (takeItems? fuel depth (dropBlankLines rest.length rest)).map
                  fun (items, rest) => (item :: items, rest)
            | ']' :: rest => some ([item], rest)
            | _ => none

/-- Read the pairs of a table in braces, at least one, and the closing brace. -/
def takePairs? : Nat → Nat → List Char → Option (List (List String × Toml) × List Char)
  | 0, _, _ => none
  | fuel + 1, depth, input =>
      (takeKeys? input).bind fun (path, rest) =>
        match rest with
        | '=' :: rest =>
            (takeValue? fuel depth (dropIndent rest)).bind fun (value, rest) =>
              match dropIndent rest with
              | ',' :: rest =>
                  (takePairs? fuel depth rest).map fun (pairs, rest) =>
                    ((path, value) :: pairs, rest)
              | '}' :: rest => some ([(path, value)], rest)
              | _ => none
        | _ => none

end

/-! ## Lines -/

/-- A line that says something. -/
inductive Statement where
  | value (path : List String) (content : Toml)
  | header (opened : Header)
deriving Repr, Inhabited

/-- Read a header up to the end of its line. -/
def takeHeader? : List Char → Option (Statement × List Char)
  | '[' :: '[' :: rest =>
      (takeKeys? rest).bind fun (path, rest) =>
        match rest with
        | ']' :: ']' :: rest => (takeLineEnd? rest).map (.header (.item path), ·)
        | _ => none
  | '[' :: rest =>
      (takeKeys? rest).bind fun (path, rest) =>
        match rest with
        | ']' :: rest => (takeLineEnd? rest).map (.header (.table path), ·)
        | _ => none
  | _ => none

/-- Read a key and its value up to the end of the line. -/
def takePair? (input : List Char) : Option (Statement × List Char) :=
  (takeKeys? input).bind fun (path, rest) =>
    match rest with
    | '=' :: rest =>
        let rest := dropIndent rest
        (takeValue? (2 * rest.length + 1) 0 rest).bind fun (content, rest) =>
          (takeLineEnd? rest).map (.value path content, ·)
    | _ => none

def takeStatement? : List Char → Option (Statement × List Char)
  | '[' :: rest => takeHeader? ('[' :: rest)
  | input => takePair? input

/-- At most `fuel` statements; one takes at least a character. -/
def statementsWithin : Nat → List Char → Option (List Statement)
  | fuel, input =>
      match dropBlankLines input.length input with
      | [] => some []
      | visible =>
          match fuel with
          | 0 => none
          | fuel + 1 =>
              -- a comment may end the text without a line end
              match dropComment visible with
              | [] => some []
              | _ =>
                  (takeStatement? visible).bind fun (statement, rest) =>
                    (statementsWithin fuel rest).map (statement :: ·)

/-- The statements of a text; a byte order mark before them is dropped. -/
def statements? (input : String) : Option (List Statement) :=
  match input.toList with
  | '\uFEFF' :: rest => statementsWithin rest.length rest
  | characters => statementsWithin characters.length characters

/-! ## The table that a text denotes -/

/-- Add the values that were written under a header, or before the first one. -/
def close (root : Entries) (opened : Option Header) (values : List (List String × Toml)) :
    Option Entries :=
  match opened with
  | none => addValues root values
  | some header => addSection root header values

/-- Add what statements say, given the header they stand under and the values that already stand
there, the last one first. -/
def addStatements (root : Entries) (opened : Option Header)
    (reversedValues : List (List String × Toml)) : List Statement → Option Entries
  | [] => close root opened reversedValues.reverse
  | .value path content :: rest =>
      addStatements root opened ((path, content) :: reversedValues) rest
  | .header next :: rest =>
      match close root opened reversedValues.reverse with
      | none => none
      | some closed => addStatements closed (some next) [] rest

/-- The table that a text denotes, or `none` where it is malformed. -/
def read? (input : String) : Option Entries :=
  (statements? input).bind (addStatements [] none [])

end Unnest.Toml
