import AsyncMarkers.History
import AsyncMarkers.Rule.Load
import AsyncMarkers.Tree.Visit

/-!
# Applying rules to a tree

The rules are offered every program, function, call and construction of a tree, before its parts. Of
several rules for a node, each sees what the ones before it have left, and none is asked behind one
that has replaced the node.

A call or construction that has been replaced is offered to the rules again, before its parts are
walked over, until no rule replaces it or it has been replaced as often as allowed (at least once).
If it still has markers then, the run is stopped.

Rules never raise the load of a node, so the walk ends although it goes on into the nodes that they
have made (`Engine.visitor`).
-/

namespace AsyncMarkers

/-- The rules in the order in which they are offered nodes, and how often a call may be replaced. -/
structure Engine where
  context : Context
  rules : List Rule
  limit : Nat

namespace Engine

/-- A record of a change. -/
def record (rule : Rule) (kind : NodeKind) (change : Change α) : Record :=
  .applied ⟨rule.name, kind, .ok change.outcome, change.counts, change.events, change.sightings⟩

/-- A record of a refusal. -/
def refusal (rule : Rule) (kind : NodeKind) (d : Diagnostic) : Record :=
  .applied { rule := rule.name, node := kind, verdict := .error d }

/-- Offers a node to rules, and says how much they have done. -/
def apply (ctx : Context) (kind : NodeKind) :
    List Rule → kind.Node → Visit Record Diagnostic (kind.Node × Outcome)
  | [], node => ⟨(node, .unchanged), [], none⟩
  | rule :: rules, node =>
    if rule.applies ctx kind node then
      match rule.transform ctx kind node with
      | .error d => ⟨(node, .unchanged), [refusal rule kind d], some d⟩
      | .ok change =>
        if change.outcome = .replaced then
          ⟨(change.node, .replaced), [record rule kind change], none⟩
        else
          let later := apply ctx kind rules change.node
          ⟨(later.value.1, change.outcome.max later.value.2),
            record rule kind change :: later.notes, later.failure⟩
    else apply ctx kind rules node

/-- Offers an expression to the rules, if it is a call or a construction. -/
def applyTo (g : Engine) : Expression → Visit Record Diagnostic (Expression × Outcome)
  | .call s callee arguments => apply g.context .call g.rules (.call s callee arguments)
  | .construct s callee arguments =>
    apply g.context .construction g.rules (.construct s callee arguments)
  | e => ⟨(e, .unchanged), [], none⟩

/-- Why a run is stopped at a call that has been replaced as often as allowed. -/
def limitReached (g : Engine) (e : Expression) : Diagnostic :=
  .replacementLimit g.context.marker g.limit (g.context.location e.span)

/-- Offers an expression to the rules until none replaces it, or it has been replaced `left`
times. -/
def settle (g : Engine) : Nat → Expression → Visit Record Diagnostic Expression
  | 0, e => ⟨e, [], none⟩
  | left + 1, e =>
    let applied := g.applyTo e
    let now := applied.value.1
    if applied.failure.isSome || applied.value.2 ≠ .replaced then
      ⟨now, applied.notes, applied.failure⟩
    else if left = 0 then
      -- this was the last replacement that is allowed
      if g.context.isPending now then
        ⟨now, applied.notes ++ [.stopped (g.limitReached now)], some (g.limitReached now)⟩
      else ⟨now, applied.notes, none⟩
    else
      let later := g.settle left now
      ⟨later.value, applied.notes ++ later.notes, later.failure⟩

/-! ### The load does not grow -/

/-- Rules in a row do not raise the load of a node. -/
theorem apply_load (ctx : Context) (kind : NodeKind) (rules : List Rule) (node : kind.Node) :
    kind.load ctx.cost (apply ctx kind rules node).value.1 ≤ kind.load ctx.cost node := by
  induction rules generalizing node with
  | nil => exact Nat.le_refl _
  | cons rule rules ih =>
    rw [apply]
    split
    · split
      · exact Nat.le_refl _
      · have h_change := Rule.transform_load ‹_›
        split
        · exact h_change
        · exact Nat.le_trans (ih _) h_change
    · exact ih node

/-- Offering an expression to the rules does not raise its load. -/
theorem applyTo_load (g : Engine) (e : Expression) :
    (g.applyTo e).value.1.load g.context.cost ≤ e.load g.context.cost := by
  cases e with
  | call s callee arguments => exact apply_load g.context .call g.rules _
  | construct s callee arguments => exact apply_load g.context .construction g.rules _
  | _ => exact Nat.le_refl _

/-- Offering it again and again does not raise it either. -/
theorem settle_load (g : Engine) (left : Nat) (e : Expression) :
    (g.settle left e).value.load g.context.cost ≤ e.load g.context.cost := by
  induction left generalizing e with
  | zero => exact Nat.le_refl _
  | succ left ih =>
    have h_applied := g.applyTo_load e
    rw [settle]
    split
    · exact h_applied
    · split
      · split <;> exact h_applied
      · exact Nat.le_trans (ih _) h_applied

/-! ### The walk -/

/-- Offers nodes to the rules as they are come to. -/
def visitor (g : Engine) : Visitor Record Diagnostic where
  program p := (apply g.context .program g.rules p).map Prod.fst
  statement s := ⟨s, [], none⟩
  function f := (apply g.context .function g.rules f).map Prod.fst
  expression e := g.settle (max 1 g.limit) e
  cost := g.context.cost
  statement_load _ := Nat.le_refl _
  function_load f := apply_load g.context .function g.rules f
  expression_load e := g.settle_load (max 1 g.limit) e

/-- Applies the rules to a program. -/
def run (g : Engine) (p : Program) : Visit Record Diagnostic Program := g.visitor.visitProgram p

end Engine

end AsyncMarkers
