import AsyncMarkers.Json.Value
import AsyncMarkers.Number.Shortest

/-!
# Writing JSON text

Two layouts of one value: `Json.compact` on a single line without blanks, and `Json.pretty` with one
item per line, indented by two blanks per level. Only the quote, the backslash and the control
characters below U+0020 are escaped. A double is written as its shortest decimal: positionally while
the leading digit stands for a power of ten from `10 ^ -5` to `10 ^ 15`, and with an exponent
otherwise. It always shows that it is no integer, by a point or by the exponent.
-/

namespace AsyncMarkers

/-- How decimals are laid out. -/
structure DecimalLayout where
  /-- The least exponent of the leading digit written positionally. -/
  least : Int
  /-- The greatest exponent of the leading digit written positionally. -/
  greatest : Int
  /-- What stands before a positive exponent. -/
  positiveMark : String
  /-- What stands before the digits of a negative exponent. -/
  negativeMark : String

/-- `count` zeros. -/
def zeros (count : Nat) : List Char := List.replicate count '0'

/-- The digits without sign, with a point put behind the digit for the power `10 ^ 0`. -/
def positionalDigits (digits : List Char) (exponent : Int) : List Char :=
  let leading : Int := exponent + digits.length - 1
  if 0 ≤ exponent then digits ++ zeros exponent.toNat ++ ['.', '0']
  else if 0 ≤ leading then
    digits.take (leading.toNat + 1) ++ ['.'] ++ digits.drop (leading.toNat + 1)
  else ['0', '.'] ++ zeros (-leading - 1).toNat ++ digits

/-- The digits without sign in exponent notation, with a point behind the first of several. -/
def scientificDigits (layout : DecimalLayout) (digits : List Char) (exponent : Int) : List Char :=
  let leading : Int := exponent + digits.length - 1
  let mantissa := match digits with
    | first :: second :: rest => first :: '.' :: second :: rest
    | short => short
  let mark := if leading < 0 then layout.negativeMark else layout.positiveMark
  mantissa ++ mark.toList ++ Nat.toDigits 10 leading.natAbs

/-- The text of a decimal in a layout. -/
def DecimalLayout.write (layout : DecimalLayout) (d : Decimal) : List Char :=
  let digits := Nat.toDigits 10 d.digits
  let leading : Int := d.exponent + digits.length - 1
  let body :=
    if layout.least ≤ leading ∧ leading ≤ layout.greatest then positionalDigits digits d.exponent
    else scientificDigits layout digits d.exponent
  if d.negative then '-' :: body else body

namespace Json

/-- The layout of decimals in JSON text. -/
def decimalLayout : DecimalLayout := ⟨-5, 15, "e+", "e-"⟩

/-- The text of a number. One that is too large is written as such a one. -/
def Number.write : Number → String
  | .integer (.ofNat n) => String.ofList (Nat.toDigits 10 n)
  | .integer (.negSucc n) => String.ofList ('-' :: Nat.toDigits 10 (n + 1))
  | .double x => String.ofList (decimalLayout.write x.shortest)
  | .tooLarge => "1e999"

/-- A character inside a string literal. -/
def escape (c : Char) : List Char :=
  if c = '"' then ['\\', '"']
  else if c = '\\' then ['\\', '\\']
  else if c = '\x08' then ['\\', 'b']
  else if c = '\x0c' then ['\\', 'f']
  else if c = '\n' then ['\\', 'n']
  else if c = '\r' then ['\\', 'r']
  else if c = '\t' then ['\\', 't']
  else if c < ' ' then
    ['\\', 'u', '0', '0', Nat.digitChar (c.toNat / 16), Nat.digitChar (c.toNat % 16)]
  else [c]

/-- A string literal. A literal without text is written as the replacement character. -/
def quote (text : Option String) : String :=
  String.ofList ('"' :: ((text.getD "\ufffd").toList.flatMap escape ++ ['"']))

mutual

/-- The text of a value on one line, without blanks. -/
def compact : Json → String
  | .null => "null"
  | .bool true => "true"
  | .bool false => "false"
  | .number n => n.write
  | .string s => quote s
  | .array items => "[" ++ ",".intercalate (compactItems items) ++ "]"
  | .object members => "\x7b" ++ ",".intercalate (compactMembers members) ++ "\x7d"

/-- The texts of an array's items. -/
def compactItems : List Json → List String
  | [] => []
  | item :: items => item.compact :: compactItems items

/-- The texts of an object's members. -/
def compactMembers : List (Option String × Json) → List String
  | [] => []
  | (key, value) :: members => (quote key ++ ":" ++ value.compact) :: compactMembers members

end

/-- A line break, and the blanks in front of a line at the given level. -/
def newline (level : Nat) : String := String.ofList ('\n' :: List.replicate (2 * level) ' ')

mutual

/-- The text of a value with one item per line, `level` levels in. -/
def prettyAt (level : Nat) : Json → String
  | .null => "null"
  | .bool true => "true"
  | .bool false => "false"
  | .number n => n.write
  | .string s => quote s
  | .array [] => "[]"
  | .array (item :: items) =>
    "[" ++ newline (level + 1) ++
      ("," ++ newline (level + 1)).intercalate (prettyItems (level + 1) (item :: items)) ++
      newline level ++ "]"
  | .object [] => "\x7b\x7d"
  | .object (first :: members) =>
    "\x7b" ++ newline (level + 1) ++
      ("," ++ newline (level + 1)).intercalate (prettyMembers (level + 1) (first :: members)) ++
      newline level ++ "\x7d"

/-- The texts of an array's items. -/
def prettyItems (level : Nat) : List Json → List String
  | [] => []
  | item :: items => prettyAt level item :: prettyItems level items

/-- The texts of an object's members. -/
def prettyMembers (level : Nat) : List (Option String × Json) → List String
  | [] => []
  | (key, value) :: members =>
    (quote key ++ ": " ++ prettyAt level value) :: prettyMembers level members

end

/-- The text of a value with one item per line. -/
def pretty (j : Json) : String := prettyAt 0 j

end Json

end AsyncMarkers
