import AsyncMarkers.Tree.Basic

/-!
# What rules look at

Rules are offered programs, functions, calls and constructions. A call or a construction is offered
as the expression that it is. `Outcome` says how much a rule has done to what it was offered.
-/

namespace AsyncMarkers

/-- The kinds of nodes that rules are offered. -/
inductive NodeKind where
  | program
  | function
  | call
  | construction
deriving DecidableEq

namespace NodeKind

/-- The nodes of a kind. -/
abbrev Node : NodeKind → Type
  | .program => Program
  | .function => Function
  | .call => Expression
  | .construction => Expression

/-- The name of the kind in the log. -/
def name : NodeKind → String
  | .program => "Program"
  | .function => "Function"
  | .call => "CallExpression"
  | .construction => "NewExpression"

/-- The span of a node. -/
def span : (kind : NodeKind) → kind.Node → Span
  | .program, p => Program.span p
  | .function, f => (Function.head f).span
  | .call, e => Expression.span e
  | .construction, e => Expression.span e

end NodeKind

/-- As what an expression is offered to rules, if it is. -/
def Expression.offeredAs : Expression → Option NodeKind
  | .call _ _ _ => some .call
  | .construct _ _ _ => some .construction
  | _ => none

/-- How much a rule has done to a node. -/
inductive Outcome where
  | unchanged
  /-- Parts of the node are different. -/
  | mutated
  /-- Another node stands in its place, which rules have not seen yet. -/
  | replaced
deriving DecidableEq

namespace Outcome

/-- The name of the outcome in the log. -/
def name : Outcome → String
  | .unchanged => "Unchanged"
  | .mutated => "Mutated"
  | .replaced => "Replaced"

/-- The greater of two outcomes. -/
def max : Outcome → Outcome → Outcome
  | .replaced, _ | _, .replaced => .replaced
  | .mutated, _ | _, .mutated => .mutated
  | .unchanged, .unchanged => .unchanged

end Outcome

end AsyncMarkers
