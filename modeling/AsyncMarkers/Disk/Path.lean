/-!
# Paths

A path is what stands between the slashes of its text: a first segment and the segments behind it.
Nothing is lost on the way from the text to the segments, so a path is shown as it was written
(`Path.text_ofText`). A segment has no slash in it, whatever is done to the path.

Empty segments and single dots have no meaning behind the first segment. The *name* of a path is its
last segment with a meaning, unless that leads upwards, and the *extension* is what follows the last
dot of the name, if something stands in front of that dot.
-/

namespace AsyncMarkers

/-- What stands between two slashes of a path, in front of the first one or behind the last one. -/
structure Segment where
  text : String
  no_slash : '/' ∉ text.toList := by decide
deriving DecidableEq

/-- The segments of a path. The path has a root if the first segment is empty and others follow. -/
structure Path where
  head : Segment
  tail : List Segment
deriving DecidableEq

/-- Characters between slashes. -/
abbrev Unslashed := { cs : List Char // '/' ∉ cs }

/-- Splits at the slashes. -/
def splitSlashes : List Char → Unslashed × List Unslashed
  | [] => (⟨[], List.not_mem_nil⟩, [])
  | c :: cs =>
    let (segment, segments) := splitSlashes cs
    if h : c = '/' then (⟨[], List.not_mem_nil⟩, segment :: segments)
    else (⟨c :: segment.1, List.not_mem_cons_of_ne_of_not_mem (Ne.symm h) segment.2⟩, segments)

namespace Segment

/-- Nothing, as it stands between two slashes in a row. -/
def empty : Segment := { text := "" }

/-- The empty segment has no text. -/
theorem text_empty : empty.text = "" := rfl

/-- No other segment has none. -/
theorem text_eq_empty_iff {s : Segment} : s.text = "" ↔ s = empty := by
  cases s
  simp [empty]

/-- The segment with the given characters. -/
def ofChars (cs : Unslashed) : Segment := ⟨String.ofList cs.1, by simpa using cs.2⟩

end Segment

/-- Splits a name at its last dot. -/
def splitName (name : String) : String × Option String :=
  let (back, rest) := name.toList.reverse.span (· ≠ '.')
  match rest with
  | [] | [_] => (name, none)
  | _ :: front => (String.ofList front.reverse, some (String.ofList back.reverse))

namespace Path

/-- The path with the given text. -/
def ofText (text : String) : Path :=
  let (segment, segments) := splitSlashes text.toList
  ⟨.ofChars segment, segments.map .ofChars⟩

/-- The empty path, which leads nowhere. -/
def empty : Path := ⟨.empty, []⟩

/-- All segments. -/
def parts (p : Path) : List Segment := p.head :: p.tail

/-- The texts of all segments. -/
def segments (p : Path) : List String := p.parts.map Segment.text

/-- There are no slashes in segments. -/
theorem no_slash_of_mem_segments {p : Path} {segment : String} (h : segment ∈ p.segments) :
    '/' ∉ segment.toList := by
  obtain ⟨s, -, rfl⟩ := List.mem_map.1 h
  exact s.no_slash

/-- The text of a path. -/
def text (p : Path) : String :=
  p.tail.foldl (fun s segment => s ++ "/" ++ segment.text) p.head.text

/-- The parts of a text, put together behind what has been put together already. -/
theorem foldl_splitSlashes (done cs : List Char) :
    ((splitSlashes cs).2.map Segment.ofChars).foldl (fun s segment => s ++ "/" ++ segment.text)
      (String.ofList (done ++ (splitSlashes cs).1)) = String.ofList (done ++ cs) := by
  induction cs generalizing done with
  | nil => rfl
  | cons c cs ih =>
    by_cases h_slash : c = '/'
    · -- a segment ends here, and what follows is put behind it
      have h_next := ih (done ++ ['/'])
      simpa [splitSlashes, h_slash, Segment.ofChars, String.ofList_append, String.append_assoc]
        using h_next
    · have h_next := ih (done ++ [c])
      simpa [splitSlashes, h_slash] using h_next

/-- The path with a given text has that text. -/
theorem text_ofText (text : String) : (ofText text).text = text := by
  have h_text := foldl_splitSlashes [] text.toList
  simpa [ofText, Path.text, Segment.ofChars] using h_text

/-- Whether the path starts at the root. -/
def isRooted (p : Path) : Bool := p.head == .empty && !p.tail.isEmpty

/-- Whether a segment behind the first one has no meaning. -/
def isBlank (segment : String) : Bool := segment == "" || segment == "."

/-- The segments behind the first one, last first, from the last one with a meaning on. -/
def backwards (p : Path) : List Segment := p.tail.reverse.dropWhile (isBlank ·.text)

/-- The path with the given segments behind the first one, last first, up to the last one with a
meaning. A root stays a root. -/
def ofBackwards (head : Segment) (segments : List Segment) : Path :=
  match segments.dropWhile (isBlank ·.text) with
  | [] => if head = .empty then ⟨.empty, [.empty]⟩ else ⟨head, []⟩
  | segments => ⟨head, segments.reverse⟩

/-- The path that a path is directly below of. -/
def parent? (p : Path) : Option Path :=
  match p.backwards with
  | _ :: segments => some (ofBackwards p.head segments)
  | [] => if p.head = .empty then none else some empty

/-- The name of a path. -/
def name? (p : Path) : Option String :=
  match p.backwards with
  | segment :: _ => if segment.text = ".." then none else some segment.text
  | [] =>
    if p.head = .empty ∨ p.head.text = "." ∨ p.head.text = ".." then none else some p.head.text

/-- The extension of the name. -/
def extension? (p : Path) : Option String := p.name?.bind fun name => (splitName name).2

/-- The path with another name; nothing follows it. Slashes in the name divide it as in any text. -/
def withName (p : Path) (name : String) : Path :=
  match p.backwards with
  | _ :: segments => ⟨p.head, segments.reverse ++ (ofText name).parts⟩
  | [] => ofText name

/-- Puts an extension behind the stem of the name, or none if it is empty. -/
def setExtension (p : Path) (extension : String) : Path :=
  match p.name? with
  | none => p
  | some name =>
    let stem := (splitName name).1
    p.withName (if extension = "" then stem else stem ++ "." ++ extension)

/-- Cuts the extension off the end of the text, up to its dot. -/
def cutExtension (p : Path) : Path :=
  match p.name? with
  | none => p
  | some name =>
    match splitName name with
    | (_, none) => p
    | (stem, some _) => if p.segments.getLast? = some name then p.withName (stem ++ ".") else p

/-- The path with another extension. The old one is cut off first: if what is left of the name leads
upwards, there is no name to put an extension to. -/
def withExtension (p : Path) (extension : String) : Path := p.cutExtension.setExtension extension

/-- The second path as seen from the first one. A slash at the end of the first one is not
doubled. -/
def join (p q : Path) : Path :=
  if q.isRooted || p == empty then q
  else if p.tail.getLast? = some .empty then ⟨p.head, p.tail.dropLast ++ q.parts⟩
  else ⟨p.head, p.tail ++ q.parts⟩

/-- The path below another one that a name leads to. -/
@[irreducible] def child (p : Path) (name : String) : Path := p.join (ofText name)

/-- The greatest number of bytes of a path that can be followed. -/
def maxBytes : Nat := 4095

/-- The greatest number of bytes of a segment that can be followed. -/
def maxSegmentBytes : Nat := 255

end Path

end AsyncMarkers
