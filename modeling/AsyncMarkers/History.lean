import AsyncMarkers.Rule.Basic

/-!
# Histories

A run keeps a record of every rule that it has applied, and of the replacement limit if it was
stopped by it. What is counted, told, reported and noted during a run is read off its history.
-/

namespace AsyncMarkers

/-- One rule, applied to one node. -/
structure Application where
  /-- The name of the rule. -/
  rule : String
  /-- The kind of the node before. -/
  node : NodeKind
  /-- What the rule has done, or why it has refused the node. -/
  verdict : Except Diagnostic Outcome
  counts : Counts := {}
  events : List Event := []
  sightings : List Sighting := []

/-- What is remembered of a run. -/
inductive Record where
  | applied (application : Application)
  /-- A call still had markers when it had been replaced as often as allowed. -/
  | stopped (diagnostic : Diagnostic)

/-- What is remembered of a run, in order. -/
abbrev History := List Record

/-- Where diagnostics go. -/
inductive Sink where
  /-- To whoever has asked for the run. -/
  | collected
  /-- To the log. -/
  | logged
deriving DecidableEq

namespace Sink

/-- The diagnostics that are collected, of one that is reported. -/
def collects : Sink → Diagnostic → List Diagnostic
  | .collected, d => [d]
  | .logged, _ => []

/-- The events that a diagnostic leaves in the log. -/
def events : Sink → Diagnostic → List Event
  | .collected, _ => []
  | .logged, d => [.reported d]

end Sink

namespace Record

/-- What the record adds to the counts. -/
def counts : Record → Counts
  | .applied a => a.counts
  | .stopped _ => {}

/-- What has been noted of nodes. -/
def sightings : Record → List Sighting
  | .applied a => a.sightings
  | .stopped _ => []

/-- The diagnostic that has ended the run, if this record has one. -/
def diagnostic? : Record → Option Diagnostic
  | .applied { verdict := .error d, .. } => some d
  | .applied _ => none
  | .stopped d => some d

/-- What is told: what the rule has to tell, then that it has changed the node or that the node has
been refused. -/
def events (sink : Sink) : Record → List Event
  | .applied a =>
    match a.verdict with
    | .ok .unchanged => a.events
    | .ok outcome => a.events ++ [.ruleApplied a.rule a.node outcome]
    | .error d => a.events ++ sink.events d
  | .stopped d => sink.events d

end Record

namespace History

/-- The sum of all counts. -/
def counts (h : History) : Counts := h.foldr (fun record total => record.counts + total) {}

/-- What has been noted of nodes, in order. -/
def sightings (h : History) : List Sighting := h.flatMap Record.sightings

/-- What is told, in order. -/
def events (sink : Sink) (h : History) : List Event := h.flatMap (Record.events sink)

/-- The diagnostics that are collected. -/
def diagnostics (sink : Sink) (h : History) : List Diagnostic :=
  (h.filterMap Record.diagnostic?).flatMap sink.collects

end History

/-! ### Statistics -/

/-- How often a rule has been applied, has changed a node, and has refused one. -/
structure RuleStats where
  applications : Nat := 0
  transformations : Nat := 0
  errors : Nat := 0
deriving DecidableEq

namespace RuleStats

/-- The share of applications that have changed the node. -/
def successRate (s : RuleStats) : Double := .share s.transformations s.applications

/-- One application more, with the given verdict. -/
def add (s : RuleStats) : Except Diagnostic Outcome → RuleStats
  | .ok .unchanged => { s with applications := s.applications + 1 }
  | .ok _ =>
    { s with applications := s.applications + 1, transformations := s.transformations + 1 }
  | .error _ => { s with applications := s.applications + 1, errors := s.errors + 1 }

end RuleStats

/-- The statistics of rules, by name. -/
abbrev Statistics := List (String × RuleStats)

namespace Statistics

/-- Changes the entry of a rule, which is made if it is not there. -/
def update (change : RuleStats → RuleStats) (name : String) : Statistics → Statistics
  | [] => [(name, change {})]
  | (other, stats) :: rest =>
    if other = name then (other, change stats) :: rest
    else (other, stats) :: update change name rest

/-- Starts the entry of a rule anew. -/
def reset (name : String) (s : Statistics) : Statistics := s.update (fun _ => {}) name

/-- Starts every entry anew. -/
def clear (s : Statistics) : Statistics := s.map fun (name, _) => (name, {})

/-- Counts a record. -/
def count (s : Statistics) : Record → Statistics
  | .applied a => s.update (·.add a.verdict) a.rule
  | .stopped _ => s

/-- Counts a history. -/
def countAll (s : Statistics) (h : History) : Statistics := h.foldl count s

end Statistics

end AsyncMarkers
