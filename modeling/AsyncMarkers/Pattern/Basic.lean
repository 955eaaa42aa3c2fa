import AsyncMarkers.Pattern.CharSet

/-!
# Patterns

Regular expressions over characters, with marks for the start and the end of the text, and the
search for one in a text.

A search never goes back in the text. Every character set of the pattern carries a *mark*, which
says that the last character was read there. Reading a character moves the marks: a set gets one if
the character belongs to it and if a match may enter the set, which it may at its beginning and
behind a mark. Since a new match may begin at every place, the pattern as a whole can always be
entered. The work for a character is bounded by the size of the pattern, however many ways there are
to match.
-/

namespace AsyncMarkers

/-- A regular expression. -/
inductive Pattern where
  /-- The empty text. -/
  | empty
  /-- One character of a set, with a mark if it has just been read. -/
  | one (set : CharSet) (marked : Bool)
  /-- The start of the text. -/
  | start
  /-- The end of the text. -/
  | stop
  | seq (first second : Pattern)
  | alt (left right : Pattern)
  /-- Any number of repetitions. -/
  | star (repeated : Pattern)
deriving DecidableEq

/-- How a pattern stands at a place in the text. -/
structure Pattern.Status where
  /-- Whether it matches the empty text here. -/
  skippable : Bool
  /-- Whether a match that has been read along the marks may end here. -/
  complete : Bool
deriving DecidableEq

namespace Pattern

/-- How the pattern stands at a place that is the start of the text if `atStart`, and its end if
`atEnd`. -/
def status (atStart atEnd : Bool) : Pattern → Status
  | .empty => ⟨true, false⟩
  | .one _ marked => ⟨false, marked⟩
  | .start => ⟨atStart, false⟩
  | .stop => ⟨atEnd, false⟩
  | .seq p q =>
    let s := p.status atStart atEnd
    let t := q.status atStart atEnd
    ⟨s.skippable && t.skippable, s.complete && t.skippable || t.complete⟩
  | .alt p q =>
    let s := p.status atStart atEnd
    let t := q.status atStart atEnd
    ⟨s.skippable || t.skippable, s.complete || t.complete⟩
  | .star p => ⟨true, (p.status atStart atEnd).complete⟩

/-- Reads a character, at the start of the text if `atStart`. A match may begin in the pattern if it
is `entered`. -/
def shift (atStart : Bool) (c : Char) (entered : Bool) : Pattern → Pattern
  | .one set _ => .one set (entered && set.contains c)
  | .seq p q =>
    let s := p.status atStart false
    .seq (p.shift atStart c entered) (q.shift atStart c (entered && s.skippable || s.complete))
  | .alt p q => .alt (p.shift atStart c entered) (q.shift atStart c entered)
  | .star p => .star (p.shift atStart c (entered || (p.status atStart false).complete))
  | p => p

/-- Whether a match ends here: one that has been read, or the empty one. -/
def isFound (p : Pattern) (atStart atEnd : Bool) : Bool :=
  let s := p.status atStart atEnd
  s.skippable || s.complete

/-- Whether a match ends here or further on. -/
def searchFrom (p : Pattern) (atStart : Bool) : List Char → Bool
  | [] => p.isFound atStart true
  | c :: rest => p.isFound atStart false || (p.shift atStart c true).searchFrom false rest

/-- Whether the pattern matches somewhere in the text. -/
def search (p : Pattern) (text : String) : Bool := p.searchFrom true text.toList

/-- One character of a set. -/
def ofSet (set : CharSet) : Pattern := .one set false

/-- The patterns one after the other. -/
def sequence : List Pattern → Pattern
  | [] => .empty
  | [p] => p
  | p :: ps => .seq p (sequence ps)

/-- At most one repetition. -/
def optional (p : Pattern) : Pattern := .alt p .empty

/-- At least `least` repetitions, and at most `most` if there is a bound. -/
def repeated (p : Pattern) (least : Nat) (most : Option Nat) : Pattern :=
  sequence (List.replicate least p ++
    match most with
    | none => [.star p]
    | some most => List.replicate (most - least) p.optional)

end Pattern

end AsyncMarkers
