import AsyncMarkers.Pattern.Basic
import AsyncMarkers.Pattern.Token

/-!
# Reading patterns

`Pattern.parse?` reads a pattern from its written form. It goes through the tokens with the groups
and the brackets that are still open.

Two bounds keep patterns small. The parts of a pattern may be nested `maxDepth` deep, and an
automaton for it may take `maxSize` bytes; what an automaton takes is estimated, at 32 bytes for
each of its states. A repetition costs as much as its repetitions written out.
-/

namespace AsyncMarkers.Pattern

/-- How deep the parts of a pattern may be nested. -/
def maxDepth : Nat := 250

/-- How many bytes an automaton may take. -/
def maxSize : Nat := 10485760

/-- How many bytes a state takes. -/
def stateSize : Nat := 32

/-- A part of a pattern that has been read. -/
structure Part where
  pattern : Pattern
  /-- How deep its own parts are nested. -/
  depth : Nat
  /-- How many bytes an automaton for it takes. -/
  size : Nat
  /-- Whether it can match anything but the empty text. -/
  reads : Bool

/-- How deep a list is nested by the depth of its items; a single item is no list. -/
def listDepth : List Nat → Nat
  | [] => 0
  | [depth] => depth
  | depths => depths.foldl max 0 + 1

namespace Part

/-- A place in the text. -/
def place (p : Pattern) : Part := ⟨p, 0, stateSize, false⟩

/-- How many bytes an automaton for a set takes. -/
def setSize : CharSet → Nat
  | .ranges [(low, high)] => if low = high then stateSize * low.utf8Size else 4 * stateSize
  | .ranges ranges => 2 * stateSize + 76 * ranges.length
  | .complement s => 28 * stateSize + setSize s
  | .combined _ s t => setSize s + setSize t

/-- One character of a set. -/
def one (set : CharSet) (depth : Nat) : Part := ⟨.ofSet set, depth, setSize set, true⟩

/-- The parts one after the other. -/
def sequence (parts : List Part) : Part where
  pattern := Pattern.sequence (parts.map Part.pattern)
  depth := listDepth (parts.map Part.depth)
  size := (parts.map Part.size).foldl (· + ·) (if parts.isEmpty then stateSize else 0)
  reads := parts.any Part.reads

/-- One of the parts, of which there is at least one. -/
def choice (first : Part) (others : List Part) : Part where
  pattern := others.foldl (fun p q => .alt p q.pattern) first.pattern
  depth := listDepth (first.depth :: others.map Part.depth)
  size := (others.map Part.size).foldl (· + ·) first.size +
    if others.isEmpty then 0 else 2 * stateSize
  reads := first.reads || others.any Part.reads

/-- A part in parentheses. -/
def grouped (p : Part) : Part :=
  { p with depth := p.depth + 1, size := p.size + 2 * stateSize }

/-- How many bytes an automaton for a repetition takes. -/
def repeatedSize (size least : Nat) : Option Nat → Nat
  | none => max 1 least * size + 3 * stateSize
  | some most => most * size + (most - least + 1) * stateSize

/-- A part repeated. Repeating the empty text is no better than having it once, and repetitions that
are too large anyway are not written out. -/
def repeated (p : Part) (least : Nat) (most : Option Nat) : Part :=
  let least := if p.reads then least else min least 1
  let most := if p.reads then most else some (min (most.getD 1) 1)
  let size := repeatedSize p.size least most
  { pattern := if size ≤ maxSize then p.pattern.repeated least most else .empty
    depth := p.depth + 1
    size := size
    reads := p.reads && most ≠ some 0 }

end Part

/-! ### Groups -/

/-- A group while it is being read. -/
structure Group where
  /-- The finished alternatives, the last one first. -/
  alternatives : List Part := []
  /-- The parts of the current alternative, the last one first. -/
  parts : List Part := []

/-- Adds a part. -/
def Group.push (g : Group) (p : Part) : Group := { g with parts := p :: g.parts }

/-- Ends the current alternative. -/
def Group.split (g : Group) : Group := ⟨Part.sequence g.parts.reverse :: g.alternatives, []⟩

/-- The part that a group has become. -/
def Group.close (g : Group) : Part :=
  match g.split.alternatives.reverse with
  | [] => .place .empty
  | first :: others => Part.choice first others

/-- Repeats the last part. -/
def Group.repeatLast? (g : Group) (least : Nat) (most : Option Nat) : Option Group :=
  match g.parts with
  | [] => none
  | p :: parts => some { g with parts := p.repeated least most :: parts }

/-! ### Sets -/

/-- A set, with the depth of its parts. -/
structure SetPart where
  set : CharSet
  depth : Nat

/-- A set in brackets while it is being read. -/
structure Bracket where
  negated : Bool
  /-- What stands in front of the last operation. -/
  left : Option (SetPart × SetOperation) := none
  /-- What stands behind it, the last member first. -/
  members : List SetPart := []

/-- Adds a member. -/
def Bracket.push (b : Bracket) (s : SetPart) : Bracket := { b with members := s :: b.members }

/-- The members so far, behind what stands in front of them. -/
def Bracket.value (b : Bracket) : SetPart :=
  let right : SetPart :=
    ⟨.unionAll (b.members.reverse.map SetPart.set), listDepth (b.members.map SetPart.depth)⟩
  match b.left with
  | none => right
  | some (left, operation) =>
    ⟨.combined operation left.set right.set, max left.depth right.depth + 1⟩

/-- Goes on behind an operation. -/
def Bracket.operate (b : Bracket) (operation : SetOperation) : Bracket :=
  ⟨b.negated, some (b.value, operation), []⟩

/-- The set that has been read. -/
def Bracket.close (b : Bracket) : SetPart :=
  let s := b.value
  ⟨if b.negated then .complement s.set else s.set, s.depth + 1⟩

/-! ### The parser -/

/-- What is open while a pattern is being read, the innermost first. -/
structure Parser where
  brackets : List Bracket := []
  current : Group := {}
  outer : List Group := []

namespace Parser

/-- Adds a part to the current group. -/
def push (s : Parser) (p : Part) : Parser := { s with current := s.current.push p }

/-- Adds a set: to the innermost brackets, or as a part of the current group. -/
def pushSet (s : Parser) (part : SetPart) : Parser :=
  match s.brackets with
  | [] => s.push (.one part.set part.depth)
  | b :: brackets => { s with brackets := b.push part :: brackets }

/-- Reads a token. -/
def step? (s : Parser) : Token → Option Parser
  | .set set => some (s.pushSet ⟨set, 0⟩)
  | .start => some (s.push (.place .start))
  | .stop => some (s.push (.place .stop))
  | .openGroup => some { s with current := {}, outer := s.current :: s.outer }
  | .closeGroup =>
    match s.outer with
    | [] => none
    | enclosing :: outer =>
      some { s with current := enclosing.push s.current.close.grouped, outer := outer }
  | .bar => some { s with current := s.current.split }
  | .repetition least most =>
    (s.current.repeatLast? least most).map fun current => { s with current }
  | .openSet negated => some { s with brackets := { negated } :: s.brackets }
  | .closeSet =>
    match s.brackets with
    | [] => none
    | b :: brackets => some ({ s with brackets }.pushSet b.close)
  | .operation operation =>
    match s.brackets with
    | [] => none
    | b :: brackets => some { s with brackets := b.operate operation :: brackets }

/-- The pattern, if nothing is left open and it is not too large. -/
def finish? (s : Parser) : Option Pattern :=
  match s.brackets, s.outer with
  | [], [] =>
    let p := s.current.close
    if p.depth ≤ maxDepth && p.size ≤ maxSize then some p.pattern else none
  | _, _ => none

end Parser

/-- The pattern with a written form, if that is well formed. -/
def parse? (text : String) : Option Pattern := do
  (← (← Token.scan? text).foldlM Parser.step? {}).finish?

end AsyncMarkers.Pattern
