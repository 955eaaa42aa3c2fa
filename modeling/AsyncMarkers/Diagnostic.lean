import AsyncMarkers.Selection

/-!
# Diagnostics

Why a file cannot be transformed. Each diagnostic stands at a place in a file and is fatal to that
file.
-/

namespace AsyncMarkers

/-- A place in a file. -/
structure Location where
  file : String
  line : UInt32
  column : UInt32
deriving DecidableEq

namespace Location

/-- Where a span starts. -/
def ofSpan (file : String) (span : Span) : Location := ⟨file, span.start.line, span.start.column⟩

/-- The text of a place: a synthetic one has no line. -/
def text (l : Location) : String :=
  if l.line = 0 then l.file
  else l.file ++ ":" ++ Nat.repr l.line.toNat ++ ":" ++ Nat.repr l.column.toNat

end Location

/-- A shape that is recognised and yet cannot be transformed. -/
inductive Construct where
  | promiseMarker
  | arrayMarker
  | asyncConstructor
deriving DecidableEq

namespace Construct

/-- The name of the shape. -/
def name : Construct → String
  | .promiseMarker => "PromiseMarker"
  | .arrayMarker => "ArrayMarker"
  | .asyncConstructor => "AsyncConstructor"

/-- The shape of a name, if there is one. -/
def ofName? : String → Option Construct :=
  byName? [.promiseMarker, .arrayMarker, .asyncConstructor] name

/-- What is said of the shape. -/
def message : Construct → String
  | .promiseMarker => "promise marker arguments are not implemented"
  | .arrayMarker => "array marker arguments are not implemented"
  | .asyncConstructor => "marker arguments in constructor calls are not implemented"

end Construct

/-- Why a file cannot be transformed. -/
inductive Diagnostic where
  | unsupported (construct : Construct) (location : Location)
  /-- A call has more than two plain markers. -/
  | tooManyMarkers (marker : String) (count : Nat) (location : Location)
  /-- A call still has markers after it has been replaced as often as allowed. -/
  | replacementLimit (marker : String) (limit : Nat) (location : Location)
deriving DecidableEq

namespace Diagnostic

/-- The place that the diagnostic is about. -/
def location : Diagnostic → Location
  | .unsupported _ location | .tooManyMarkers _ _ location
  | .replacementLimit _ _ location => location

/-- The name of the kind of diagnostic. -/
def category : Diagnostic → String
  | .unsupported _ _ => "UnsupportedSyntax"
  | .tooManyMarkers _ _ _ => "TooManyMarkers"
  | .replacementLimit _ _ _ => "ReplacementLimit"

/-- The text of the diagnostic, with the place in front. -/
def message : Diagnostic → String
  | .unsupported construct place => place.text ++ ": unsupported syntax: " ++ construct.message
  | .tooManyMarkers marker count place =>
    place.text ++ ": async call cannot have more than 2 `" ++ marker ++ "` arguments (found " ++
      Nat.repr count ++ ")"
  | .replacementLimit marker limit place =>
    place.text ++ ": call still carries `" ++ marker ++ "` arguments after " ++ Nat.repr limit ++
      " rewrites"

end Diagnostic

end AsyncMarkers
