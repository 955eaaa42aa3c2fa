import AsyncMarkers.Json.Reader
import AsyncMarkers.Pattern.Parser
import AsyncMarkers.Tree.Decode

/-!
# Configuration

The names that a transformation works with: the marker, the binding through which generated code
reaches its support module, the array methods that have an asynchronous form, and the pattern that
selects files. `Config.validate` says which configurations can be used.
-/

namespace AsyncMarkers

/-- The names that a transformation works with. -/
structure Config where
  /-- The variable that is bound to the support module in every file. -/
  binding : String := "$$streamline"
  /-- The module that is loaded for it. -/
  moduleName : String := "streamline-runtime"
  /-- The export of that module that the variable is bound to. -/
  exportName : String := "runtime"
  /-- The name that marks asynchronous calls and functions. -/
  marker : String := "_"
  /-- The pattern that file names are searched for. -/
  filePattern : String := "^(unknown|.*\\._(js|coffee))$"
  /-- The comment in front of the declaration of the binding. -/
  declarationComment : String := "::declare type _<T> = (err : ?Error, result : T) => void;"
  /-- The array methods whose asynchronous form is called by the name with an underscore. -/
  arrayMethods : List String :=
    ["forEach", "map", "filter", "every", "some", "reduce", "reduceRight", "sort"]
deriving DecidableEq

/-- What is wrong with a configuration. -/
inductive ConfigError where
  | emptyBinding
  | emptyMarker
  | markerIsBinding (marker : String)
  | badPattern (pattern : String)
deriving DecidableEq

/-- The text of the error. -/
def ConfigError.message : ConfigError → String
  | .emptyBinding => "Configuration error: runtime_binding must not be empty"
  | .emptyMarker => "Configuration error: marker must not be empty"
  | .markerIsBinding marker =>
    "Configuration error: marker `" ++ marker ++ "` cannot double as the runtime binding"
  | .badPattern pattern => "Configuration error: invalid file pattern `" ++ pattern ++ "`"

namespace Config

/-- Whether a property name is that of the asynchronous form of an array method. -/
def isArrayMethod (c : Config) (property : String) : Bool :=
  c.arrayMethods.any fun method => method ++ "_" == property

/-- Checks the names: the binding and the marker must be there, and must differ. -/
def validate (c : Config) : Except ConfigError Unit :=
  if c.binding = "" then .error .emptyBinding
  else if c.marker = "" then .error .emptyMarker
  else if c.marker = c.binding then .error (.markerIsBinding c.marker)
  else .ok ()

/-- The pattern that selects files. -/
def pattern (c : Config) : Except ConfigError Pattern :=
  match Pattern.parse? c.filePattern with
  | some p => .ok p
  | none => .error (.badPattern c.filePattern)

/-- The configuration as a value. -/
def encode (c : Config) : Json :=
  .record [("runtime_binding", .text c.binding), ("runtime_module", .text c.moduleName),
    ("runtime_export", .text c.exportName), ("marker", .text c.marker),
    ("file_pattern", .text c.filePattern), ("declaration_comment", .text c.declarationComment),
    ("array_methods", .list .text c.arrayMethods)]

/-- A text that may be left out, and is then the given one. -/
def textSlot? (default : String) : Option Json → Option String
  | none => some default
  | some j => j.text?

/-- Every field may be left out, and then has its default value. -/
def decode? : Nat → Json → Option Config
  | 0, _ => none
  | n + 1, j =>
    let base : Config := {}
    match j.slots? [.defaulted "runtime_binding", .defaulted "runtime_module",
        .defaulted "runtime_export", .defaulted "marker", .defaulted "file_pattern",
        .defaulted "declaration_comment", .defaulted "array_methods"] with
    | some [binding, moduleName, exportName, marker, filePattern, comment, methods] => do
      return {
        binding := ← textSlot? base.binding binding
        moduleName := ← textSlot? base.moduleName moduleName
        exportName := ← textSlot? base.exportName exportName
        marker := ← textSlot? base.marker marker
        filePattern := ← textSlot? base.filePattern filePattern
        declarationComment := ← textSlot? base.declarationComment comment
        arrayMethods := ← match methods with
          | none => some base.arrayMethods
          | some methods => decodeList? (fun _ => Json.text?) n methods }
    | _ => none

end Config

end AsyncMarkers
