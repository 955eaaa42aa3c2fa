import AsyncMarkers.Pattern.Digit

/-!
# Tokens of patterns

The written form of a pattern is divided into tokens. Understood are:

* characters that stand for themselves, `.`, `^`, `$`, alternatives `|`, groups `(...)` and
  `(?:...)`;
* the repetitions `*`, `+`, `?`, `{n}`, `{n,}` and `{n,m}`, where a further `?` makes one prefer
  fewer repetitions, which does not change what is matched;
* sets `[...]` and `[^...]` of characters, ranges, sets in brackets and named sets such as
  `[:alpha:]`, with the operations `&&`, `--` and `~~`;
* `\d`, `\D`, the usual control characters, and a backslash before a punctuation character, which
  then stands for itself.

Inside of brackets most characters lose their meaning. A hyphen makes a range only between two
characters, and stands for itself behind an opening bracket, before a closing one, and behind a
range; so does a closing bracket right behind an opening one.
-/

namespace AsyncMarkers.Pattern

/-- A token of a pattern. -/
inductive Token where
  /-- One character of a set, or inside of brackets the characters of a set. -/
  | set (set : CharSet)
  | start
  | stop
  | openGroup
  | closeGroup
  | bar
  | repetition (least : Nat) (most : Option Nat)
  | openSet (negated : Bool)
  | closeSet
  | operation (operation : SetOperation)

/-- The token of a character that stands for itself. -/
def Token.char (c : Char) : Token := .set (.single c)

/-- What stands at a place of the text: its tokens, how many brackets are open behind it, and how
many characters belong to it besides the first one. -/
structure Lexeme where
  tokens : List Token
  brackets : Nat
  length : Nat

/-! ### Characters and named sets -/

/-- A character, or a set that a backslash and a letter stand for. -/
inductive Atom where
  | char (c : Char)
  | set (set : CharSet)

/-- The characters that an atom stands for. -/
def Atom.charSet : Atom → CharSet
  | .char c => .single c
  | .set s => s

/-- What a character stands for behind a backslash. -/
def escaped? (c : Char) : Option Atom :=
  match c with
  | 'd' => some (.set .digits)
  | 'D' => some (.set (.complement .digits))
  | 'n' => some (.char '\n')
  | 't' => some (.char '\t')
  | 'r' => some (.char '\r')
  | 'f' => some (.char '\x0c')
  | 'v' => some (.char '\x0b')
  | 'a' => some (.char '\x07')
  | _ => if c ≤ '\x7f' && !c.isAlphanum && c != '<' && c != '>' then some (.char c) else none

/-- The atom that starts with `c`, and how many of the following characters belong to it. -/
def atom? (c : Char) (rest : List Char) : Option (Atom × Nat) :=
  if c = '\\' then rest.head?.bind fun e => (escaped? e).map (·, 1) else some (.char c, 0)

/-- The sets that have a name. -/
def namedSet? (name : String) : Option CharSet :=
  match name with
  | "alnum" => some (.ranges [('0', '9'), ('A', 'Z'), ('a', 'z')])
  | "alpha" => some (.ranges [('A', 'Z'), ('a', 'z')])
  | "ascii" => some (.ranges [('\x00', '\x7f')])
  | "blank" => some (.ranges [('\t', '\t'), (' ', ' ')])
  | "cntrl" => some (.ranges [('\x00', '\x1f'), ('\x7f', '\x7f')])
  | "digit" => some (.ranges [('0', '9')])
  | "graph" => some (.ranges [('!', '~')])
  | "lower" => some (.ranges [('a', 'z')])
  | "print" => some (.ranges [(' ', '~')])
  | "punct" => some (.ranges [('!', '/'), (':', '@'), ('[', '\x60'), ('\x7b', '~')])
  | "space" => some (.ranges [('\t', '\r'), (' ', ' ')])
  | "upper" => some (.ranges [('A', 'Z')])
  | "word" => some (.ranges [('0', '9'), ('A', 'Z'), ('_', '_'), ('a', 'z')])
  | "xdigit" => some (.ranges [('0', '9'), ('A', 'F'), ('a', 'f')])
  | _ => none

/-- The named set behind an opening bracket, and the number of characters up to its closing one. -/
def namedSetAt? : List Char → Option (CharSet × Nat)
  | ':' :: rest =>
    let negated := rest.head? = some '^'
    let text := if negated then rest.tail else rest
    let name := text.takeWhile (· ≠ ':')
    match text.dropWhile (· ≠ ':') with
    | ':' :: ']' :: _ =>
      (namedSet? (String.ofList name)).map fun s =>
        if negated then (.complement s, name.length + 4) else (s, name.length + 3)
    | _ => none
  | _ => none

/-! ### Repetitions -/

/-- Whether a character is white space. -/
def isBlank (c : Char) : Bool :=
  (CharSet.ranges [('\t', '\r'), (' ', ' '), ('\x85', '\x85'), ('\xa0', '\xa0'),
    ('\u1680', '\u1680'), ('\u2000', '\u200a'), ('\u2028', '\u2029'), ('\u202f', '\u202f'),
    ('\u205f', '\u205f'), ('\u3000', '\u3000')]).contains c

/-- A count, which fits into 32 bits; blanks may stand around it. -/
def count? (chars : List Char) : Option (Nat × List Char) :=
  let chars := chars.dropWhile isBlank
  let digits := chars.takeWhile Char.isDigit
  let n := digits.foldl (fun n c => 10 * n + (c.toNat - '0'.toNat)) 0
  if digits.isEmpty || UInt32.size ≤ n then none
  else some (n, (chars.dropWhile Char.isDigit).dropWhile isBlank)

/-- The counts behind an opening brace, up to the closing one. -/
def counts? (chars : List Char) : Option (Nat × Option Nat × List Char) := do
  let (least, chars) ← count? chars
  match chars with
  | '\x7d' :: rest => some (least, some least, rest)
  | ',' :: '\x7d' :: rest => some (least, none, rest)
  | ',' :: chars =>
    let (most, chars) ← count? chars
    match chars with
    | '\x7d' :: rest => if least ≤ most then some (least, some most, rest) else none
    | _ => none
  | _ => none

/-- A repetition that `length` more characters belong to, and a question mark if it stands behind
them. -/
def Lexeme.repetition (least : Nat) (most : Option Nat) (length : Nat) (behind : List Char) :
    Lexeme :=
  ⟨[.repetition least most], 0, if behind.head? = some '?' then length + 1 else length⟩

/-! ### The tokens of a text -/

/-- An opening bracket with `rest` behind it, inside of `brackets` others. -/
def openSet (brackets : Nat) (rest : List Char) : Lexeme :=
  let negated := rest.head? = some '^'
  let text := if negated then rest.tail else rest
  let hyphens := (text.takeWhile (· = '-')).length
  let literals := if text.head? = some ']' then [']'] else List.replicate hyphens '-'
  ⟨.openSet negated :: literals.map .char, brackets + 1,
    literals.length + if negated then 1 else 0⟩

/-- What starts with `c` outside of brackets. -/
def outside? (c : Char) (rest : List Char) : Option Lexeme :=
  match c with
  | '.' => some ⟨[.set .withinLine], 0, 0⟩
  | '^' => some ⟨[.start], 0, 0⟩
  | '$' => some ⟨[.stop], 0, 0⟩
  | '|' => some ⟨[.bar], 0, 0⟩
  | ')' => some ⟨[.closeGroup], 0, 0⟩
  | '(' =>
    match rest with
    | '?' :: ':' :: _ => some ⟨[.openGroup], 0, 2⟩
    | '?' :: _ => none
    | _ => some ⟨[.openGroup], 0, 0⟩
  | '[' => some (openSet 0 rest)
  | '*' => some (.repetition 0 none 0 rest)
  | '+' => some (.repetition 1 none 0 rest)
  | '?' => some (.repetition 0 (some 1) 0 rest)
  | '\x7b' => do
    let (least, most, behind) ← counts? rest
    some (.repetition least most (rest.length - behind.length) behind)
  | _ => do
    let (atom, length) ← atom? c rest
    some ⟨[.set atom.charSet], 0, length⟩

/-- A character or a range that starts with `c`. -/
def member? (brackets : Nat) (c : Char) (rest : List Char) : Option Lexeme := do
  let (first, length) ← atom? c rest
  let alone := some ⟨[.set first.charSet], brackets, length⟩
  match rest.drop length with
  | '-' :: d :: behind =>
    if d = ']' || d = '-' then alone
    else
      match first, ← atom? d behind with
      | .char low, (.char high, more) =>
        if low ≤ high then some ⟨[.set (.ranges [(low, high)])], brackets, length + 2 + more⟩
        else none
      | _, _ => none
  | _ => alone

/-- What starts with `c` inside of brackets. -/
def inside? (brackets : Nat) (c : Char) (rest : List Char) : Option Lexeme :=
  match c, rest with
  | ']', _ => some ⟨[.closeSet], brackets - 1, 0⟩
  | '&', '&' :: _ => some ⟨[.operation .intersection], brackets, 1⟩
  | '-', '-' :: _ => some ⟨[.operation .difference], brackets, 1⟩
  | '~', '~' :: _ => some ⟨[.operation .symmetricDifference], brackets, 1⟩
  | '[', _ =>
    match namedSetAt? rest with
    | some (set, length) => some ⟨[.set set], brackets, length⟩
    | none => some (openSet brackets rest)
  | _, _ => member? brackets c rest

/-- The tokens of a text inside of `brackets` open brackets, without its first `skipped`
characters. -/
def Token.scanFrom? (brackets skipped : Nat) : List Char → Option (List Token)
  | [] => if brackets = 0 then some [] else none
  | c :: rest =>
    match skipped with
    | skipped + 1 => scanFrom? brackets skipped rest
    | 0 => do
      let lexeme ← if brackets = 0 then outside? c rest else inside? brackets c rest
      return lexeme.tokens ++ (← scanFrom? lexeme.brackets lexeme.length rest)

/-- The tokens of the written form of a pattern. -/
def Token.scan? (text : String) : Option (List Token) := scanFrom? 0 0 text.toList

end AsyncMarkers.Pattern
