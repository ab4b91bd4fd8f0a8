import Unnest.Text.Digits

/-!
# Texts in TOML

A text stands between double quotes, where a backslash escapes, or between single quotes, where
nothing does.  Three quotes open a text that may hold line ends, of which one right after the
opening quotes is dropped; up to two quotes may stand before the three that close it.
-/

namespace Unnest.Toml

def isIndent (character : Char) : Bool :=
  character == ' ' || character == '\t'

/-- A character that may stand for itself: everything but control characters, of which the tab is
allowed. -/
def isPlain (character : Char) : Bool :=
  character == '\t' || (0x20 ≤ character.toNat && character.toNat != 0x7F)

/-- The rest of a text after a line end. -/
def takeNewline? : List Char → Option (List Char)
  | '\n' :: rest => some rest
  | '\r' :: '\n' :: rest => some rest
  | _ => none

def dropFirstNewline (input : List Char) : List Char :=
  (takeNewline? input).getD input

/-! ## Escapes -/

def shortEscape? : Char → Option Char
  | 'b' => some '\x08'
  | 't' => some '\t'
  | 'n' => some '\n'
  | 'f' => some '\x0c'
  | 'r' => some '\r'
  | '"' => some '"'
  | '\\' => some '\\'
  | _ => none

/-- The character whose code is written in hexadecimal digits. -/
def charOfHex? (digits : List Char) : Option Char :=
  (Text.hexValue? digits).bind fun code =>
    if code.isValidChar then some (Char.ofNat code) else none

/-! ## Texts on one line -/

/-- Read up to the closing double quote. -/
def takeBasic (reversed : List Char) : List Char → Option (String × List Char)
  | [] => none
  | '"' :: rest => some (String.ofList reversed.reverse, rest)
  | '\\' :: 'u' :: a :: b :: c :: d :: rest =>
      match charOfHex? [a, b, c, d] with
      | some character => takeBasic (character :: reversed) rest
      | none => none
  | '\\' :: 'U' :: a :: b :: c :: d :: e :: f :: g :: h :: rest =>
      match charOfHex? [a, b, c, d, e, f, g, h] with
      | some character => takeBasic (character :: reversed) rest
      | none => none
  | '\\' :: escaped :: rest =>
      match shortEscape? escaped with
      | some character => takeBasic (character :: reversed) rest
      | none => none
  | character :: rest =>
      if isPlain character && character != '\\' then takeBasic (character :: reversed) rest
      else none

/-- Read up to the closing single quote. -/
def takeLiteral (reversed : List Char) : List Char → Option (String × List Char)
  | [] => none
  | '\'' :: rest => some (String.ofList reversed.reverse, rest)
  | character :: rest =>
      if isPlain character then takeLiteral (character :: reversed) rest else none

/-! ## Texts on several lines -/

/-- Does a line end follow, with nothing but blanks before it? -/
def endsLine (input : List Char) : Bool :=
  (takeNewline? (input.dropWhile isIndent)).isSome

/-- Read up to the three closing double quotes.  After a backslash at the end of a line, all blanks
and line ends are skipped. -/
def takeLongBasic (skipping : Bool) (reversed : List Char) :
    List Char → Option (String × List Char)
  | [] => none
  | '"' :: '"' :: '"' :: '"' :: '"' :: rest =>
      some (String.ofList ('"' :: '"' :: reversed).reverse, rest)
  | '"' :: '"' :: '"' :: '"' :: rest => some (String.ofList ('"' :: reversed).reverse, rest)
  | '"' :: '"' :: '"' :: rest => some (String.ofList reversed.reverse, rest)
  | '\r' :: '\n' :: rest =>
      takeLongBasic skipping (if skipping then reversed else '\n' :: reversed) rest
  | '\\' :: 'u' :: a :: b :: c :: d :: rest =>
      match charOfHex? [a, b, c, d] with
      | some character => takeLongBasic false (character :: reversed) rest
      | none => none
  | '\\' :: 'U' :: a :: b :: c :: d :: e :: f :: g :: h :: rest =>
      match charOfHex? [a, b, c, d, e, f, g, h] with
      | some character => takeLongBasic false (character :: reversed) rest
      | none => none
  | '\\' :: escaped :: rest =>
      if endsLine (escaped :: rest) then
        takeLongBasic true reversed (escaped :: rest)
      else
        match shortEscape? escaped with
        | some character => takeLongBasic false (character :: reversed) rest
        | none => none
  | character :: rest =>
      if skipping && (isIndent character || character == '\n') then
        takeLongBasic true reversed rest
      else if character == '\n' || (isPlain character && character != '\\') then
        takeLongBasic false (character :: reversed) rest
      else none

/-- Read up to the three closing single quotes. -/
def takeLongLiteral (reversed : List Char) : List Char → Option (String × List Char)
  | [] => none
  | '\'' :: '\'' :: '\'' :: '\'' :: '\'' :: rest =>
      some (String.ofList ('\'' :: '\'' :: reversed).reverse, rest)
  | '\'' :: '\'' :: '\'' :: '\'' :: rest =>
      some (String.ofList ('\'' :: reversed).reverse, rest)
  | '\'' :: '\'' :: '\'' :: rest => some (String.ofList reversed.reverse, rest)
  | '\r' :: '\n' :: rest => takeLongLiteral ('\n' :: reversed) rest
  | character :: rest =>
      if character == '\n' || isPlain character then takeLongLiteral (character :: reversed) rest
      else none

/-- Read a text in any of its forms, or `none` where no text starts. -/
def takeText : List Char → Option (String × List Char)
  | '"' :: '"' :: '"' :: rest => takeLongBasic false [] (dropFirstNewline rest)
  | '\'' :: '\'' :: '\'' :: rest => takeLongLiteral [] (dropFirstNewline rest)
  | '"' :: rest => takeBasic [] rest
  | '\'' :: rest => takeLiteral [] rest
  | _ => none

end Unnest.Toml
