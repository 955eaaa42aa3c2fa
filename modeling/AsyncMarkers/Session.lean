import AsyncMarkers.Engine

/-!
# Sessions

A session holds what is needed to transform one file after another: the configuration, the rules and
their statistics, the selector, and how often a call may be replaced. A run leaves everything in it
as it was but the statistics.
-/

namespace AsyncMarkers

/-- The version of the transformation. -/
def version : String := "0.1.0"

/-- What has been done to a file, unless it was passed over. -/
structure Summary where
  /-- Whether the file was not selected. -/
  skipped : Bool := false
  counts : Counts := {}
deriving DecidableEq

/-- What has come of a file. -/
structure Output where
  program : Program
  summary : Summary

/-- Everything that a run has to tell. -/
structure Report where
  result : Except Diagnostic Output
  diagnostics : List Diagnostic := []
  events : List Event := []
  sightings : List Sighting := []

/-- What is needed to transform files. -/
structure Session where
  config : Config
  selector : Selector
  rules : List Rule := []
  statistics : Statistics := []
  /-- How often one call may be replaced. -/
  limit : Nat := 64

namespace Session

/-- A session without rules, which selects files by the pattern of the configuration. -/
def ofConfig (config : Config) : Except ConfigError Session := do
  config.validate
  return { config, selector := .pattern (← config.pattern) }

/-- Adds a rule behind the others. Its statistics start anew. -/
def addRule (s : Session) (rule : Rule) : Session :=
  { s with rules := s.rules ++ [rule], statistics := s.statistics.reset rule.name }

/-- Adds rules behind the others, one by one. -/
def addRules (s : Session) (rules : List Rule) : Session := rules.foldl addRule s

/-- Sorts the rules by priority, highest first. Rules of one priority stay in order. -/
def sortRules (s : Session) : Session :=
  { s with rules := s.rules.mergeSort fun r r' => decide (r'.priority ≤ r.priority) }

/-- Adds the rules of the transformation, and sorts all rules. -/
def addMarkerRules (s : Session) : Session := (s.addRules Rule.all).sortRules

/-- The names of the rules, in order. -/
def ruleNames (s : Session) : List String := s.rules.map Rule.name

/-- Starts all statistics anew. -/
def clearStatistics (s : Session) : Session := { s with statistics := s.statistics.clear }

/-- Whether a file takes part in the transformation. -/
def selects (s : Session) (file : FileDescriptor) : Bool := s.selector.selects file

/-- The engine for a file. -/
def engine (s : Session) (file : FileDescriptor) : Engine := ⟨⟨file, s.config⟩, s.rules, s.limit⟩

/-- What is told of a file that has been transformed. -/
def fileTransformed (file : FileDescriptor) (c : Counts) : Event :=
  .fileTransformed file.displayName c.functions c.calls c.receivers

/-- The report on a run of the engine. -/
def report (sink : Sink) (file : FileDescriptor) (run : Visit Record Diagnostic Program) : Report :=
  let history : History := run.notes
  let told := history.events sink
  { result := match run.failure with
      | some d => .error d
      | none => .ok ⟨run.value, { counts := history.counts }⟩
    diagnostics := history.diagnostics sink
    events := match run.failure with
      | some _ => told
      | none => told ++ [fileTransformed file history.counts]
    sightings := history.sightings }

/-- Transforms a file. One that is not selected comes back as it was. -/
def transform (s : Session) (sink : Sink) (p : Program) (file : FileDescriptor) :
    Report × Session :=
  if s.selects file then
    let run := (s.engine file).run p
    (report sink file run, { s with statistics := s.statistics.countAll run.notes })
  else
    ({ result := .ok ⟨p, { skipped := true }⟩, events := [.fileNotSelected file.displayName] }, s)

end Session

/-- Transforms a file with the rules of the transformation and the default configuration. -/
def transformDefault (p : Program) (file : FileDescriptor) : Except ConfigError Report := do
  let session ← Session.ofConfig {}
  return (session.addMarkerRules.transform .logged p file).1

end AsyncMarkers
