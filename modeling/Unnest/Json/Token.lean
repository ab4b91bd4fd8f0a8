import Unnest.Json.Number

/-!
# JSON tokens

The characters of a JSON text fall into brackets, separators and scalars.  Texts are unescaped and
numbers are read here, so that `Unnest.Json.Reader` sees scalars only.  Blanks between tokens are
skipped; nothing else is.
-/

namespace Unnest.Json

/-- A token of a JSON text. -/
inductive Token where
  | openArray
  | closeArray
  | openObject
  | closeObject
  | comma
  | colon
  | text (value : String)
  | scalar (value : Json)
deriving Repr, Inhabited

def isBlank (character : Char) : Bool :=
  character == ' ' || character == '\n' || character == '\t' || character == '\r'

/-! ## Texts -/

def isHighSurrogate (unit : Nat) : Bool := 0xD800 ≤ unit && unit < 0xDC00

def isLowSurrogate (unit : Nat) : Bool := 0xDC00 ≤ unit && unit < 0xE000

/-- The character after a backslash that stands for one character. -/
def shortEscape? : Char → Option Char
  | '"' => some '"'
  | '\\' => some '\\'
  | '/' => some '/'
  | 'b' => some '\x08'
  | 'f' => some '\x0c'
  | 'n' => some '\n'
  | 'r' => some '\r'
  | 't' => some '\t'
  | _ => none

/-- Read up to the closing quote.  A surrogate stands only in a pair, and control characters are
always escaped. -/
def takeText (reversed : List Char) : List Char → Option (String × List Char)
  | [] => none
  | '"' :: rest => some (String.ofList reversed.reverse, rest)
  | '\\' :: 'u' :: a :: b :: c :: d :: rest =>
      match Text.hexValue? [a, b, c, d] with
      | none => none
      | some unit =>
          if isHighSurrogate unit then
            match rest with
            | '\\' :: 'u' :: e :: f :: g :: h :: rest =>
                match Text.hexValue? [e, f, g, h] with
                | none => none
                | some low =>
                    if isLowSurrogate low then
                      takeText
                        (Char.ofNat (0x10000 + (unit - 0xD800) * 0x400 + (low - 0xDC00))
                          :: reversed) rest
                    else none
            | _ => none
          else if isLowSurrogate unit then none
          else takeText (Char.ofNat unit :: reversed) rest
  | '\\' :: escaped :: rest =>
      match shortEscape? escaped with
      | some character => takeText (character :: reversed) rest
      | none => none
  | character :: rest =>
      if character.toNat < 0x20 || character == '\\' then none
      else takeText (character :: reversed) rest

/-! ## The token sequence -/

section Reading

variable (readNumber : NumberReader)

/-- The token at the start of a text that does not start with a blank, and what follows it. -/
def takeToken : List Char → Option (Token × List Char)
  | '[' :: rest => some (.openArray, rest)
  | ']' :: rest => some (.closeArray, rest)
  | '{' :: rest => some (.openObject, rest)
  | '}' :: rest => some (.closeObject, rest)
  | ',' :: rest => some (.comma, rest)
  | ':' :: rest => some (.colon, rest)
  | '"' :: rest => (takeText [] rest).map fun (value, rest) => (.text value, rest)
  | 't' :: 'r' :: 'u' :: 'e' :: rest => some (.scalar (.bool true), rest)
  | 'f' :: 'a' :: 'l' :: 's' :: 'e' :: rest => some (.scalar (.bool false), rest)
  | 'n' :: 'u' :: 'l' :: 'l' :: rest => some (.scalar .null, rest)
  | '-' :: rest => (takeNumber readNumber true rest).map fun (value, rest) => (.scalar value, rest)
  | input => (takeNumber readNumber false input).map fun (value, rest) => (.scalar value, rest)

/-- At most `fuel` tokens; a token has at least one character, so the length of the text
suffices. -/
def tokensWithin : Nat → List Char → Option (List Token)
  | fuel, input =>
      match input.dropWhile isBlank with
      | [] => some []
      | visible =>
          match fuel with
          | 0 => none
          | fuel + 1 =>
              match takeToken readNumber visible with
              | none => none
              | some (token, rest) => (tokensWithin fuel rest).map (token :: ·)

/-- The tokens of a text, or `none` where it holds something else. -/
def tokens (input : String) : Option (List Token) :=
  tokensWithin readNumber input.length input.toList

end Reading

end Unnest.Json
