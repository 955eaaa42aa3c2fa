import AsyncMarkers.Diagnostic
import AsyncMarkers.Rule.Node

/-!
# The log

What happens during a run is told in events. An event has a level, a message and named fields.
-/

namespace AsyncMarkers

/-- How much an event matters. -/
inductive Level where
  | debug
  | info
  | warn
  | error
deriving DecidableEq

/-- The name of the level in the log. -/
def Level.name : Level → String
  | .debug => "DEBUG"
  | .info => "INFO"
  | .warn => "WARN"
  | .error => "ERROR"

/-- The value of a field of an event. -/
inductive FieldValue where
  | text (value : String)
  | count (value : Nat)
  | flag (value : Bool)
deriving DecidableEq

/-- The value as text. -/
def FieldValue.shown : FieldValue → String
  | .text value => value
  | .count value => Nat.repr value
  | .flag value => if value then "true" else "false"

/-- Something that happened. -/
inductive Event where
  /-- A rule has changed a node, which was of the given kind before. -/
  | ruleApplied (rule : String) (node : NodeKind) (outcome : Outcome)
  | receiverAdapted (file : String) (line : Nat)
  /-- A call with a marker at position `index` has been replaced; `remaining` arguments are left. -/
  | callSubstituted (file : String) (line index remaining : Nat) (awaited : Bool)
  | declarationInserted (file binding : String)
  /-- A function now completes through its parameter at position `param`. -/
  | functionCompleted (file : String) (function : Option String) (param : Nat)
  | fileNotSelected (file : String)
  | fileTransformed (file : String) (functions calls receivers : Nat)
  | directoryTransformed (processed transformed skipped errors : Nat)
  | fileFailed (file error : String)
  | reported (diagnostic : Diagnostic)
deriving DecidableEq

namespace Event

/-- Changes to single nodes are told at the lowest level, and diagnostics at the highest. -/
def level : Event → Level
  | .ruleApplied .. | .receiverAdapted .. | .callSubstituted .. | .declarationInserted ..
  | .functionCompleted .. => .debug
  | .fileNotSelected .. | .fileTransformed .. | .directoryTransformed .. => .info
  | .fileFailed .. => .warn
  | .reported .. => .error

/-- The text of the event, without its details. -/
def message : Event → String
  | .ruleApplied .. => "rule applied"
  | .receiverAdapted .. => "array receiver adapted"
  | .callSubstituted .. => "marker call rewritten"
  | .declarationInserted .. => "runtime declaration inserted"
  | .functionCompleted .. => "signature rewritten"
  | .fileNotSelected .. => "file not selected, left unchanged"
  | .fileTransformed .. => "file transformed"
  | .directoryTransformed .. => "directory transformed"
  | .fileFailed .. => "file not transformed"
  | .reported diagnostic => diagnostic.message

/-- The details of the event, in the order in which they are told. -/
def fields : Event → List (String × FieldValue)
  | .ruleApplied rule node outcome =>
    [("rule", .text rule), ("node", .text node.name), ("rewrite", .text outcome.name)]
  | .receiverAdapted file line => [("file", .text file), ("line", .count line)]
  | .callSubstituted file line index remaining awaited =>
    [("file", .text file), ("line", .count line), ("index", .count index),
      ("remaining", .count remaining), ("awaited", .flag awaited)]
  | .declarationInserted file binding => [("file", .text file), ("binding", .text binding)]
  | .functionCompleted file function param =>
    [("file", .text file), ("function", .text (function.getD "<anonymous>")),
      ("param", .count param)]
  | .fileNotSelected file => [("file", .text file)]
  | .fileTransformed file functions calls receivers =>
    [("file", .text file), ("functions", .count functions), ("calls", .count calls),
      ("receivers", .count receivers)]
  | .directoryTransformed processed transformed skipped errors =>
    [("processed", .count processed), ("transformed", .count transformed),
      ("skipped", .count skipped), ("errors", .count errors)]
  | .fileFailed file error => [("file", .text file), ("error", .text error)]
  | .reported diagnostic => [("category", .text diagnostic.category)]

/-- The event as a line of text. -/
def line (e : Event) : String :=
  e.fields.foldl (fun s (name, value) => s ++ " " ++ name ++ "=" ++ value.shown)
    (e.level.name ++ " " ++ e.message)

end Event

end AsyncMarkers
