import AsyncMarkers.Json.Token

/-!
# Reading JSON text

The reader runs over the tokens of a text with a stack of the arrays and objects that are still
open. It accepts exactly one value, and puts no bound on nesting: how many levels may be opened is a
question for the decoder of the value, which only opens the parts that it looks at.
-/

namespace AsyncMarkers.Json

/-- An array or an object that is still open, with its parts so far, the last one first. -/
inductive Frame where
  | array (items : List Json)
  /-- The value of `key` is being read. -/
  | object (members : List (Option String × Json)) (key : Option String)

/-- Where the reader stands. -/
inductive Reading where
  /-- A value is due; `fresh` if an array has just been opened and may be closed instead. -/
  | value (stack : List Frame) (fresh : Bool)
  /-- A key is due; `fresh` if the object has just been opened and may be closed instead. -/
  | key (stack : List Frame) (members : List (Option String × Json)) (fresh : Bool)
  /-- The colon after a key is due. -/
  | colon (stack : List Frame) (members : List (Option String × Json)) (key : Option String)
  /-- A value has been read. -/
  | after (stack : List Frame) (value : Json)

/-- Reads a token. -/
def Reading.step? : Reading → Token → Option Reading
  | .value stack _, .null => some (.after stack .null)
  | .value stack _, .bool b => some (.after stack (.bool b))
  | .value stack _, .number n => some (.after stack (.number n))
  | .value stack _, .string s => some (.after stack (.string s))
  | .value stack _, .openBracket => some (.value (.array [] :: stack) true)
  | .value stack _, .openBrace => some (.key stack [] true)
  | .value (.array _ :: stack) true, .closeBracket => some (.after stack (.array []))
  | .key stack members _, .string name => some (.colon stack members name)
  | .key stack _ true, .closeBrace => some (.after stack (.object []))
  | .colon stack members name, .colon => some (.value (.object members name :: stack) false)
  | .after (.array items :: stack) v, .comma =>
    some (.value (.array (v :: items) :: stack) false)
  | .after (.array items :: stack) v, .closeBracket =>
    some (.after stack (.array (v :: items).reverse))
  | .after (.object members name :: stack) v, .comma =>
    some (.key stack ((name, v) :: members) false)
  | .after (.object members name :: stack) v, .closeBrace =>
    some (.after stack (.object ((name, v) :: members).reverse))
  | _, _ => none

/-- The value, if nothing is left open. -/
def Reading.finish? : Reading → Option Json
  | .after [] v => some v
  | _ => none

/-- The value that a list of tokens spells. -/
def ofTokens? (tokens : List Token) : Option Json := do
  (← tokens.foldlM Reading.step? (.value [] false)).finish?

/-- The value that a text spells. -/
def read? (text : String) : Option Json := do
  ofTokens? (← Token.scan? text.toList)

end AsyncMarkers.Json
