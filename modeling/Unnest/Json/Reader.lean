import Unnest.Json.Token

/-!
# Reading a JSON value

The tokens of a text are read from left to right with a stack of open arrays and objects.  Recursion
is on the token list; at most `deepest` containers may be open at once.
-/

namespace Unnest.Json

/-- Containers nest no deeper than this. -/
def deepest : Nat := 127

/-- An open container: what it holds so far, the last item first. -/
inductive OpenContainer where
  | array (reversedItems : List Json)
  | object (fields : OrderedMap String Json) (name : String)
deriving Repr, Inhabited

/-- What may come next. -/
inductive Expected where
  /-- A value; `mayClose` right after the opening bracket of an array. -/
  | value (mayClose : Bool)
  /-- A field name; `mayClose` right after the opening brace of an object. -/
  | name (fields : OrderedMap String Json) (mayClose : Bool)
  /-- The colon after a field name. -/
  | colon (fields : OrderedMap String Json) (name : String)
  /-- A comma or a closing bracket after a value. -/
  | separator (value : Json)
deriving Repr, Inhabited

/-- Read tokens, given the open containers from the innermost outwards. -/
def readTokens : List OpenContainer → Expected → List Token → Option Json
  | [], .separator value, [] => some value
  | _, _, [] => none
  | containers, .value mayClose, token :: rest =>
      match token with
      | .scalar value => readTokens containers (.separator value) rest
      | .text value => readTokens containers (.separator (.text value)) rest
      | .openArray =>
          if containers.length < deepest then
            readTokens (.array [] :: containers) (.value true) rest
          else none
      | .openObject =>
          if containers.length < deepest then
            readTokens containers (.name [] true) rest
          else none
      | .closeArray =>
          match mayClose, containers with
          | true, .array _ :: outer => readTokens outer (.separator (.array [])) rest
          | _, _ => none
      | _ => none
  | containers, .name fields mayClose, token :: rest =>
      match token with
      | .text name => readTokens containers (.colon fields name) rest
      | .closeObject =>
          if mayClose then readTokens containers (.separator (.object fields)) rest else none
      | _ => none
  | containers, .colon fields name, token :: rest =>
      match token with
      | .colon => readTokens (.object fields name :: containers) (.value false) rest
      | _ => none
  | containers, .separator value, token :: rest =>
      match containers, token with
      | .array reversedItems :: outer, .comma =>
          readTokens (.array (value :: reversedItems) :: outer) (.value false) rest
      | .array reversedItems :: outer, .closeArray =>
          readTokens outer (.separator (.array (value :: reversedItems).reverse)) rest
      | .object fields name :: outer, .comma =>
          readTokens outer (.name (OrderedMap.insert name value fields) false) rest
      | .object fields name :: outer, .closeObject =>
          readTokens outer (.separator (.object (OrderedMap.insert name value fields))) rest
      | _, _ => none

/-- The value written in a text, and nothing else. -/
def readBy (readNumber : NumberReader) (input : String) : Option Json :=
  (tokens readNumber input).bind (readTokens [] (.value false))

/-- How documents are read. -/
def read? : String → Option Json :=
  readBy scaledNumber?

end Unnest.Json
