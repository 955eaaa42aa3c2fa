import AsyncMarkers.Json.Value
import AsyncMarkers.Number.Numeral

/-!
# JSON tokens

The lexer is a machine that reads one character at a time. Between tokens it is `idle`; inside a
word, a number or a string it keeps what it has read of it. A word or a number ends at the first
character that cannot belong to it, and that character is then read as if the machine had been idle.

`Json.Token.scan?` runs it over a whole text. Numbers follow the grammar of the format exactly: no
sign but a minus, no leading zero, at least one digit on either side of a point and in an exponent.
-/

namespace AsyncMarkers.Json

/-- A token of JSON text. -/
inductive Token where
  | openBrace
  | closeBrace
  | openBracket
  | closeBracket
  | comma
  | colon
  | null
  | bool (value : Bool)
  | number (value : Number)
  /-- A string literal; without text if one of its surrogate escapes is not half of a pair. -/
  | string (text : Option String)

/-! ### Numbers -/

/-- The value of a decimal digit. -/
def digitValue (c : Char) : Nat := c.toNat - '0'.toNat

/-- The natural number that a list of decimal digits spells. -/
def natOfDigits (digits : List Nat) : Nat := digits.foldl (fun n digit => 10 * n + digit) 0

/-- Splits off the digits at the front, of which there must be one. -/
def digits? (chars : List Char) : Option (List Nat × List Char) :=
  match chars.takeWhile Char.isDigit with
  | [] => none
  | digits => some (digits.map digitValue, chars.dropWhile Char.isDigit)

/-- The integer part: no zero stands in front of another digit. -/
def wholePart? (chars : List Char) : Option (List Nat × List Char) :=
  match digits? chars with
  | some (0 :: _ :: _, _) => none
  | result => result

/-- The fraction, if a point follows. -/
def fraction? : List Char → Option (Option (List Nat) × List Char)
  | '.' :: rest => (digits? rest).map fun (digits, rest) => (some digits, rest)
  | rest => some (none, rest)

/-- The digits of an exponent with an optional sign. -/
def signedExponent? : List Char → Option (Int × List Char)
  | '-' :: rest => (digits? rest).map fun (digits, rest) => (-(natOfDigits digits : Int), rest)
  | '+' :: rest => (digits? rest).map fun (digits, rest) => (natOfDigits digits, rest)
  | rest => (digits? rest).map fun (digits, rest) => (natOfDigits digits, rest)

/-- The exponent, if its letter follows. -/
def exponent? : List Char → Option (Option Int × List Char)
  | 'e' :: rest | 'E' :: rest => (signedExponent? rest).map fun (e, rest) => (some e, rest)
  | rest => some (none, rest)

/-- Reads the characters of a numeral. -/
def numeral? (chars : List Char) : Option Numeral := do
  let (negative, chars) := match chars with
    | '-' :: rest => (true, rest)
    | rest => (false, rest)
  let (whole, chars) ← wholePart? chars
  let (fraction, chars) ← fraction? chars
  let (exponent, chars) ← exponent? chars
  if chars.isEmpty then some ⟨negative, whole, fraction, exponent⟩ else none

/-- The number that a numeral stands for. -/
def Number.ofNumeral (n : Numeral) : Number :=
  match n.toInt?, n.toDouble? with
  | some z, _ => .integer z
  | none, some x => .double x
  | none, none => .tooLarge

/-- Reads the characters of a number token. -/
def number? (chars : List Char) : Option Number := (numeral? chars).map .ofNumeral

/-! ### Strings -/

/-- A string literal while it is being read. -/
structure Literal where
  /-- The characters so far, the last one first. -/
  reversed : List Char := []
  /-- A high surrogate that waits for its other half. -/
  high : Option Nat := none
  /-- Whether every surrogate so far has found its other half. -/
  paired : Bool := true

/-- Adds a character. -/
def Literal.push (s : Literal) (c : Char) : Literal :=
  ⟨c :: s.reversed, none, s.paired && s.high.isNone⟩

/-- Adds a code unit given by an escape. -/
def Literal.pushUnit (s : Literal) (unit : Nat) : Literal :=
  if 0xD800 ≤ unit ∧ unit < 0xDC00 then
    ⟨s.reversed, some unit, s.paired && s.high.isNone⟩
  else if 0xDC00 ≤ unit ∧ unit < 0xE000 then
    match s.high with
    | some high =>
      ⟨Char.ofNat (0x10000 + (high - 0xD800) * 0x400 + (unit - 0xDC00)) :: s.reversed, none,
        s.paired⟩
    | none => ⟨s.reversed, none, false⟩
  else s.push (Char.ofNat unit)

/-- The token of a literal that has been read to its closing quote. -/
def Literal.token (s : Literal) : Token :=
  .string (if s.paired && s.high.isNone then some (String.ofList s.reversed.reverse) else none)

/-- The character that a one-letter escape stands for. -/
def unescape? : Char → Option Char
  | '"' => some '"'
  | '\\' => some '\\'
  | '/' => some '/'
  | 'b' => some '\x08'
  | 'f' => some '\x0c'
  | 'n' => some '\n'
  | 'r' => some '\r'
  | 't' => some '\t'
  | _ => none

/-- The value of a hexadecimal digit. -/
def hexDigit? (c : Char) : Option Nat :=
  if c.isDigit then some (c.toNat - '0'.toNat)
  else if 'a' ≤ c ∧ c ≤ 'f' then some (c.toNat - 'a'.toNat + 10)
  else if 'A' ≤ c ∧ c ≤ 'F' then some (c.toNat - 'A'.toNat + 10)
  else none

/-! ### The machine -/

/-- Where the lexer stands. -/
inductive Mode where
  /-- Between tokens. -/
  | idle
  /-- In a word, whose letters are given last one first. -/
  | word (reversed : List Char)
  /-- In a number, whose characters are given last one first. -/
  | number (reversed : List Char)
  /-- In a string. -/
  | string (literal : Literal)
  /-- In a string, after a backslash. -/
  | escape (literal : Literal)
  /-- In a string, after a backslash, a `u` and `count` hexadecimal digits of value `unit`. -/
  | unicode (literal : Literal) (count unit : Nat)

/-- The lexer's state: its mode and the tokens so far, the last one first. -/
structure Scanner where
  mode : Mode := .idle
  reversed : List Token := []

/-- The token that a word stands for. -/
def word? (word : List Char) : Option Token :=
  if word = ['n', 'u', 'l', 'l'] then some .null
  else if word = ['t', 'r', 'u', 'e'] then some (.bool true)
  else if word = ['f', 'a', 'l', 's', 'e'] then some (.bool false)
  else none

/-- Whether a character can stand in a number. -/
def isNumeric (c : Char) : Bool :=
  c.isDigit || c = '-' || c = '+' || c = '.' || c = 'e' || c = 'E'

/-- Reads a character between tokens. -/
def Scanner.start? (tokens : List Token) (c : Char) : Option Scanner :=
  match c with
  | ' ' | '\t' | '\n' | '\r' => some ⟨.idle, tokens⟩
  | '\x7b' => some ⟨.idle, .openBrace :: tokens⟩
  | '\x7d' => some ⟨.idle, .closeBrace :: tokens⟩
  | '[' => some ⟨.idle, .openBracket :: tokens⟩
  | ']' => some ⟨.idle, .closeBracket :: tokens⟩
  | ',' => some ⟨.idle, .comma :: tokens⟩
  | ':' => some ⟨.idle, .colon :: tokens⟩
  | '"' => some ⟨.string {}, tokens⟩
  | _ =>
    if c = '-' || c.isDigit then some ⟨.number [c], tokens⟩
    else if 'a' ≤ c ∧ c ≤ 'z' then some ⟨.word [c], tokens⟩
    else none

/-- Reads a character. -/
def Scanner.step? (s : Scanner) (c : Char) : Option Scanner :=
  match s.mode with
  | .idle => start? s.reversed c
  | .word letters =>
    if 'a' ≤ c ∧ c ≤ 'z' then some ⟨.word (c :: letters), s.reversed⟩
    else do start? ((← word? letters.reverse) :: s.reversed) c
  | .number chars =>
    if isNumeric c then some ⟨.number (c :: chars), s.reversed⟩
    else do start? (.number (← number? chars.reverse) :: s.reversed) c
  | .string literal =>
    if c = '"' then some ⟨.idle, literal.token :: s.reversed⟩
    else if c = '\\' then some ⟨.escape literal, s.reversed⟩
    else if c < ' ' then none
    else some ⟨.string (literal.push c), s.reversed⟩
  | .escape literal =>
    if c = 'u' then some ⟨.unicode literal 0 0, s.reversed⟩
    else (unescape? c).map fun c => ⟨.string (literal.push c), s.reversed⟩
  | .unicode literal count unit => do
    let unit := 16 * unit + (← hexDigit? c)
    if count = 3 then some ⟨.string (literal.pushUnit unit), s.reversed⟩
    else some ⟨.unicode literal (count + 1) unit, s.reversed⟩

/-- The tokens in order, if the text may end here. -/
def Scanner.finish? (s : Scanner) : Option (List Token) :=
  match s.mode with
  | .idle => some s.reversed.reverse
  | .word letters => do some ((← word? letters.reverse) :: s.reversed).reverse
  | .number chars => do some (.number (← number? chars.reverse) :: s.reversed).reverse
  | _ => none

/-- The tokens of a text. -/
def Token.scan? (chars : List Char) : Option (List Token) := do
  (← chars.foldlM Scanner.step? {}).finish?

end AsyncMarkers.Json
