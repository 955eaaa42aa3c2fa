import AsyncMarkers.Rule.Call
import AsyncMarkers.Rule.Declaration
import AsyncMarkers.Rule.Signature

/-!
# Rules

A rule says which nodes it is for (`Rule.applies`) and what it makes of one (`Rule.transform`). Four
rules make up the transformation: one for programs, one for functions, one for calls and one for
constructions, which are only ever refused. A fifth one, the probe, notes every node that it is
offered and changes nothing.
-/

namespace AsyncMarkers

/-- A rule; where more than one order makes sense, with its priority. -/
inductive Rule where
  /-- Puts the declaration of the binding in front of a program. -/
  | declaration (priority : Nat)
  /-- Makes functions complete through their marker parameter. -/
  | signature (priority : Nat)
  /-- Adapts receivers and substitutes calls with markers. -/
  | call (priority : Nat)
  /-- Refuses markers in constructions. -/
  | construction
  /-- Notes what it is offered. -/
  | probe
deriving DecidableEq

namespace Rule

/-- The name of the rule, in statistics and in the log. -/
def name : Rule → String
  | .declaration _ => "ProgramInitializer"
  | .signature _ => "SignatureRewriter"
  | .call _ => "CallRewriter"
  | .construction => "ConstructorRewriter"
  | .probe => "Probe"

/-- What the rule does, in a line. -/
def description : Rule → String
  | .declaration _ =>
    "Prepends the runtime binding declaration, keeping the file's leading comments first"
  | .signature _ => "Routes the result of a marker-parameter function through its marker"
  | .call _ => "Adapts array receivers and rewrites marker calls into future/await calls"
  | .construction => "Rejects marker arguments in constructor calls"
  | .probe => "Records the nodes it is applied to"

/-- The priority by which rules are sorted, highest first. -/
def priority : Rule → Nat
  | .declaration priority | .signature priority | .call priority => priority
  | .construction => 200
  | .probe => 100

/-- The rules of the transformation. -/
def all : List Rule := [.declaration 300, .signature 200, .call 200, .construction]

/-- The rule of a name, with its usual priority. -/
def ofName? : String → Option Rule := fun s => (all ++ [Rule.probe]).find? (·.name == s)

/-- The rule with another priority, if it takes one. -/
def withPriority (priority : Nat) : Rule → Rule
  | .declaration _ => .declaration priority
  | .signature _ => .signature priority
  | .call _ => .call priority
  | .construction => .construction
  | .probe => .probe

/-- Whether a construction has a plain marker among its arguments. -/
def hasMarkedArguments (marker : String) : Expression → Bool
  | .construct _ _ arguments => hasPlainMarker marker arguments
  | _ => false

/-- Whether a rule is for a node. -/
def applies (ctx : Context) : Rule → (kind : NodeKind) → kind.Node → Bool
  | .declaration _, .program, p => !ctx.isDeclared p
  | .signature _, .function, f => (markerParam? ctx.marker (Function.head f).params).isSome
  | .call _, .call, _ => true
  | .construction, .construction, e => hasMarkedArguments ctx.marker e
  | .probe, _, _ => true
  | _, _, _ => false

/-- What a rule makes of a node. -/
def transform (ctx : Context) :
    Rule → (kind : NodeKind) → kind.Node → Except Diagnostic (Change kind.Node)
  | .declaration _, .program, p => .ok (ctx.declare p)
  | .signature _, .function, f => .ok (ctx.complete f)
  | .call _, .call, e => ctx.transformCall e
  | .construction, .construction, e =>
    .error (.unsupported .asyncConstructor (ctx.location (Expression.span e)))
  | .probe, kind, node =>
    let start := (kind.span node).start
    .ok { node := node, sightings := [⟨kind, start.line, start.column⟩] }
  | _, _, node => .ok { node := node }

end Rule

end AsyncMarkers
