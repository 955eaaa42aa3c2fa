import AsyncMarkers.Tree.Synthetic
import AsyncMarkers.Tree.Visit

/-!
# A recording visitor

A `Recorder` notes every node that a walk comes to. At a reference to a name it can do more: fail if
the name is the one it looks for, or else put a reference to another name in its place.
-/

namespace AsyncMarkers

/-- The name of an expression's form. -/
def Expression.form : Expression → String
  | .identifier _ _ => "Identifier"
  | .literal _ _ => "Literal"
  | .this _ => "This"
  | .array _ _ => "Array"
  | .object _ _ => "Object"
  | .function _ _ => "Function"
  | .arrow _ _ => "Arrow"
  | .unary _ _ _ => "Unary"
  | .binary _ _ _ _ => "Binary"
  | .logical _ _ _ _ => "Logical"
  | .assignment _ _ _ _ => "Assignment"
  | .conditional _ _ _ _ => "Conditional"
  | .member _ _ _ | .index _ _ _ => "Member"
  | .call _ _ _ => "Call"
  | .construct _ _ _ => "New"
  | .sequence _ _ => "Sequence"
  | .spread _ _ => "Spread"

/-- The name of a statement's form. -/
def Statement.form : Statement → String
  | .expression _ _ => "Expression"
  | .variables _ _ _ => "VariableDeclaration"
  | .function _ _ => "FunctionDeclaration"
  | .return _ _ => "Return"
  | .ifElse _ _ _ _ => "If"
  | .while _ _ _ => "While"
  | .block _ _ => "Block"
  | .throw _ _ => "Throw"
  | .empty _ => "Empty"

/-- The name of the form of a function's body. -/
def Function.form : Function → String
  | .block _ _ => "Block"
  | .value _ _ => "Expression"

/-- What is noted of a node. -/
inductive Label where
  | program
  | statement (form : String)
  | function (form : String)
  | expression (form : String)
  /-- A reference to a name. -/
  | reference (name : String)
deriving DecidableEq

/-- The label as text. -/
def Label.text : Label → String
  | .program => "program"
  | .statement form => "statement " ++ form
  | .function form => "function " ++ form
  | .expression form => "expression " ++ form
  | .reference name => "expression Identifier " ++ name

/-- What is noted of an expression. -/
def Expression.label : Expression → Label
  | .identifier _ id => .reference id.name
  | e => .expression e.form

/-- Which nodes a recorder looks at. -/
inductive Attention where
  | everything
  | expressions
  | nothing
deriving DecidableEq

/-- A visitor that notes nodes, replaces names, and fails at one. -/
structure Recorder where
  attention : Attention := .everything
  /-- The names to be replaced, and by what; the first entry for a name counts. -/
  replacements : List (String × String) := []
  /-- The name to fail at. -/
  forbidden : Option String := none

namespace Recorder

/-- A note of a node that is left as it is, if the recorder looks at such nodes. -/
def note (looked : Bool) (label : Label) (node : α) : Visit Label String α :=
  ⟨node, if looked then [label] else [], none⟩

/-- What the recorder does at a reference. -/
def reference (r : Recorder) (span : Span) (id : Identifier) : Visit Label String Expression :=
  if r.forbidden = some id.name then
    ⟨.identifier span id, [.reference id.name], some id.name⟩
  else
    match r.replacements.lookup id.name with
    | some name => ⟨Synthetic.name name, [.reference id.name], none⟩
    | none => ⟨.identifier span id, [.reference id.name], none⟩

/-- What the recorder does at an expression. -/
def expression (r : Recorder) (e : Expression) : Visit Label String Expression :=
  if r.attention = .nothing then ⟨e, [], none⟩
  else
    match e with
    | .identifier span id => r.reference span id
    | e => ⟨e, [e.label], none⟩

/-- The recorder puts a reference in the place of a reference, so the load stays. -/
theorem expression_load (r : Recorder) (e : Expression) :
    (r.expression e).value.load .none ≤ e.load .none := by
  unfold expression
  split
  · exact Nat.le_refl _
  · cases e with
    | identifier span id =>
      show (r.reference span id).value.load .none ≤ _
      unfold reference
      split
      · exact Nat.le_refl _
      · cases r.replacements.lookup id.name with
        | none => exact Nat.le_refl _
        | some name => simp [Synthetic.name, Synthetic.reference, Expression.load, Cost.none]
    | _ => exact Nat.le_refl _

/-- The visitor. -/
def visitor (r : Recorder) : Visitor Label String where
  program p := note (r.attention = .everything) .program p
  statement s := note (r.attention = .everything) (.statement s.form) s
  function f := note (r.attention = .everything) (.function f.form) f
  expression := r.expression
  cost := .none
  statement_load _ := Nat.le_refl _
  function_load _ := Nat.le_refl _
  expression_load := r.expression_load

end Recorder

end AsyncMarkers
