import Unnest.Decimal.Layout
import Unnest.Text.Digits

/-!
# Writing TOML values

A text is written in the first form that needs no escape: double quotes, single quotes, and the same
two in their threefold form.  Where none does, characters are escaped between double quotes.
-/

namespace Unnest.Toml

/-! ## Texts -/

/-- The length of the longest run of a character. -/
def longestRun (wanted : Char) (current longest : Nat) : List Char → Nat
  | [] => longest
  | character :: rest =>
      if character == wanted then
        longestRun wanted (current + 1) (max longest (current + 1)) rest
      else longestRun wanted 0 longest rest

/-- A control character other than the tab and the line feed. -/
def needsCode (character : Char) : Bool :=
  (character.toNat < 0x20 && character != '\t' && character != '\n') || character.toNat == 0x7F

/-- The form a text is written in. -/
inductive TextForm where
  | basic
  | literal
  | longBasic
  | longLiteral
deriving DecidableEq, Repr, Inhabited

def formOf (content : List Char) : TextForm :=
  let needsCodes := content.any needsCode
  let hasBackslash := content.contains '\\'
  let hasNewline := content.contains '\n'
  let doubleQuotes := longestRun '"' 0 0 content
  let singleQuotes := longestRun '\'' 0 0 content
  if !needsCodes && !hasBackslash && doubleQuotes == 0 && !hasNewline then .basic
  else if !needsCodes && singleQuotes == 0 && !hasNewline then .literal
  else if !needsCodes && !hasBackslash && doubleQuotes ≤ 2 then .longBasic
  else if !needsCodes && singleQuotes ≤ 2 then .longLiteral
  else if hasNewline then .longBasic
  else .basic

/-- Four hexadecimal digits. -/
def hexQuad (code : Nat) : List Char :=
  let digits := (Nat.toDigits 16 code).map Char.toUpper
  List.replicate (4 - digits.length) '0' ++ digits

/-- Escape a text between double quotes.  In the long form a line feed stands for itself, and so do
up to two quotes in a row; `quotes` counts those just before. -/
def escape (isLong : Bool) (quotes : Nat) : List Char → List Char
  | [] => []
  | '"' :: rest =>
      if isLong && quotes < 2 then '"' :: escape isLong (quotes + 1) rest
      else '\\' :: '"' :: escape isLong 0 rest
  | '\x08' :: rest => '\\' :: 'b' :: escape isLong 0 rest
  | '\t' :: rest => '\\' :: 't' :: escape isLong 0 rest
  | '\n' :: rest =>
      if isLong then '\n' :: escape isLong 0 rest else '\\' :: 'n' :: escape isLong 0 rest
  | '\x0c' :: rest => '\\' :: 'f' :: escape isLong 0 rest
  | '\r' :: rest => '\\' :: 'r' :: escape isLong 0 rest
  | '\\' :: rest => '\\' :: '\\' :: escape isLong 0 rest
  | character :: rest =>
      if needsCode character then '\\' :: 'u' :: hexQuad character.toNat ++ escape isLong 0 rest
      else character :: escape isLong 0 rest

def writeText (value : String) : String :=
  let content := value.toList
  let opening (quotes : String) : String :=
    if content.contains '\n' then quotes ++ "\n" else quotes
  match formOf content with
  | .basic => "\"" ++ String.ofList (escape false 0 content) ++ "\""
  | .literal => "'" ++ value ++ "'"
  | .longBasic => opening "\"\"\"" ++ String.ofList (escape true 0 content) ++ "\"\"\""
  | .longLiteral => opening "'''" ++ value ++ "'''"

/-! ## Numbers -/

/-- A double, always with a point; a NaN is written without its sign. -/
def writeDouble (value : Double) : String :=
  if value.isNaN then "nan" else Decimal.settingsLayout.write value

end Unnest.Toml
