import AsyncMarkers.Config

/-!
# File selection

Whether a file takes part in a transformation is decided once, from its descriptor, before anything
else is done with it. A file that is not selected comes back as it was.
-/

namespace AsyncMarkers

/-- What a file has been declared to be. -/
inductive SourceKind where
  /-- Written with markers. -/
  | marked
  /-- Written without them. -/
  | plain
deriving DecidableEq

namespace SourceKind

/-- The name of the kind. -/
def name : SourceKind → String
  | .marked => "Streamline"
  | .plain => "Plain"

/-- The kind of a name, if there is one. -/
def ofName? : String → Option SourceKind := byName? [.marked, .plain] name

end SourceKind

/-- What is known of a file besides its tree. -/
structure FileDescriptor where
  filename : Option String := none
  kind : Option SourceKind := none
deriving DecidableEq

namespace FileDescriptor

/-- The name that messages use. -/
def displayName (f : FileDescriptor) : String := f.filename.getD "unknown"

/-- The descriptor as a value. -/
def encode (f : FileDescriptor) : Json :=
  .record [("filename", .orNull .text f.filename),
    ("source_kind", .orNull (fun kind => .text kind.name) f.kind)]

/-- Reads a descriptor. Both fields may be null, or left out of an object. -/
def decode? : Nat → Json → Option FileDescriptor
  | 0, _ => none
  | n + 1, j =>
    match j.slots? [.optional "filename", .defaulted "source_kind"] with
    | some [filename, kind] => do
      return {
        filename := ← Json.option? Json.text? (filename.getD .null)
        kind := ← Json.option? (fun j => do SourceKind.ofName? (← j.bareCase? n))
          (kind.getD .null) }
    | _ => none

end FileDescriptor

/-- How files are selected. -/
inductive Selector where
  /-- By the declared kind, and without one by searching the name for a pattern. -/
  | pattern (pattern : Pattern)
  /-- Every file. -/
  | always
  /-- The files whose name starts with a text. -/
  | startingWith (text : String)
deriving DecidableEq

/-- Whether a selector takes a file. -/
def Selector.selects : Selector → FileDescriptor → Bool
  | .pattern p, file =>
    match file.kind with
    | some .marked => true
    | some .plain => false
    | none => p.search file.displayName
  | .always, _ => true
  | .startingWith text, file => text.toList.isPrefixOf file.displayName.toList

end AsyncMarkers
