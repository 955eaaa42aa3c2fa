import AsyncMarkers.Tree.Load

/-!
# Walking over a tree

A `Visitor` has a hook for each kind of node. The walk runs the hook on a node, puts what it returns
in the node's place, and then walks over the parts of that, left to right: the test of a branch
before its arms, the callee before the arguments, a computed key before its value. Holes and names
in binding position are no nodes.

A hook may fail. The walk then stops where it is: the places it has passed keep what the hooks put
there, the failing node keeps what its hook left, and everything behind is untouched. Besides the
tree the walk returns what the hooks have noted, in order.

A hook may return a tree that is larger than what it was given, and the walk goes on into it. What
makes the walk end is that a hook must not raise the *load* of the tree (`Visitor.expression_load`),
for a cost that the visitor chooses.
-/

namespace AsyncMarkers

/-- What a visit of a place has left there, what has been noted on the way, and why the walk has
stopped, if it has. -/
structure Visit (ν ε α : Type) where
  value : α
  notes : List ν := []
  failure : Option ε := none

namespace Visit

variable {ν ε α β γ : Type}

/-- Changes what is left in a place. -/
def map (f : α → β) (v : Visit ν ε α) : Visit ν ε β := ⟨f v.value, v.notes, v.failure⟩

/-- Goes on with a second visit of the same place, which starts from what the first one has left. -/
@[macro_inline] def followedBy (v w : Visit ν ε α) : Visit ν ε α :=
  match v.failure with
  | some _ => v
  | none => ⟨w.value, v.notes ++ w.notes, w.failure⟩

/-- Goes on to a second place, which keeps `untouched` if the first visit has failed. -/
@[macro_inline] def also (v : Visit ν ε α) (untouched : β) (w : Visit ν ε β) : Visit ν ε (α × β) :=
  match v.failure with
  | some _ => ⟨(v.value, untouched), v.notes, v.failure⟩
  | none => ⟨(v.value, w.value), v.notes ++ w.notes, w.failure⟩

end Visit

/-- Hooks for the nodes of a tree. -/
structure Visitor (ν ε : Type) where
  program : Program → Visit ν ε Program
  statement : Statement → Visit ν ε Statement
  function : Function → Visit ν ε Function
  expression : Expression → Visit ν ε Expression
  /-- The cost under which no hook raises the load. -/
  cost : Cost
  statement_load : ∀ s, (statement s).value.load cost ≤ s.load cost
  function_load : ∀ f, (function f).value.load cost ≤ f.load cost
  expression_load : ∀ e, (expression e).value.load cost ≤ e.load cost

namespace Visitor

variable {ν ε : Type}

mutual

/-- Runs the hook on an expression and walks over what it has left. -/
def visitExpression (v : Visitor ν ε) (e : Expression) : Visit ν ε Expression :=
  let hooked := v.expression e
  hooked.followedBy (v.walkExpression hooked.value)
termination_by 3 * e.load v.cost + 1
decreasing_by
  -- the hook has not raised the load, and a walk ranks below a visit of the same load
  have := v.expression_load e
  omega

/-- Walks over the parts of an expression. -/
def walkExpression (v : Visitor ν ε) (e : Expression) : Visit ν ε Expression :=
  match e with
  | .identifier s id => ⟨.identifier s id, [], none⟩
  | .literal s value => ⟨.literal s value, [], none⟩
  | .this s => ⟨.this s, [], none⟩
  | .array s elements => (v.visitElements elements).map (.array s)
  | .object s properties => (v.visitProperties properties).map (.object s)
  | .function s f => (v.visitFunction f).map (.function s)
  | .arrow s f => (v.visitFunction f).map (.arrow s)
  | .unary s op argument => (v.visitExpression argument).map (.unary s op)
  | .binary s op left right =>
    ((v.visitExpression left).also right (v.visitExpression right)).map
      fun (left, right) => .binary s op left right
  | .logical s op left right =>
    ((v.visitExpression left).also right (v.visitExpression right)).map
      fun (left, right) => .logical s op left right
  | .assignment s op target value =>
    ((v.visitExpression target).also value (v.visitExpression value)).map
      fun (target, value) => .assignment s op target value
  | .conditional s test consequent alternate =>
    ((v.visitExpression test).also (consequent, alternate)
      ((v.visitExpression consequent).also alternate (v.visitExpression alternate))).map
      fun (test, consequent, alternate) => .conditional s test consequent alternate
  | .member s base property => (v.visitExpression base).map (.member s · property)
  | .index s base property =>
    ((v.visitExpression base).also property (v.visitExpression property)).map
      fun (base, property) => .index s base property
  | .call s callee arguments =>
    ((v.visitExpression callee).also arguments (v.visitExpressions arguments)).map
      fun (callee, arguments) => .call s callee arguments
  | .construct s callee arguments =>
    ((v.visitExpression callee).also arguments (v.visitExpressions arguments)).map
      fun (callee, arguments) => .construct s callee arguments
  | .sequence s items => (v.visitExpressions items).map (.sequence s)
  | .spread s argument => (v.visitExpression argument).map (.spread s)
termination_by 3 * e.load v.cost
decreasing_by
  all_goals simp only [Expression.load]
  all_goals omega

/-- Visits expressions in a row. -/
def visitExpressions (v : Visitor ν ε) (es : List Expression) : Visit ν ε (List Expression) :=
  match es with
  | [] => ⟨[], [], none⟩
  | e :: es =>
    ((v.visitExpression e).also es (v.visitExpressions es)).map fun (e, es) => e :: es
termination_by 3 * expressionsLoad v.cost es + 2
decreasing_by
  all_goals simp only [expressionsLoad]
  · omega
  · -- without its first expression the list has a smaller load
    have := Expression.load_pos v.cost e
    omega

/-- Visits an expression that may be absent. -/
def visitOptional (v : Visitor ν ε) (e : Option Expression) : Visit ν ε (Option Expression) :=
  match e with
  | none => ⟨none, [], none⟩
  | some e => (v.visitExpression e).map some
termination_by 3 * optionalLoad v.cost e + 2
decreasing_by
  simp only [optionalLoad]
  omega

/-- Visits the elements of an array. -/
def visitElements (v : Visitor ν ε) (es : List (Option Expression)) :
    Visit ν ε (List (Option Expression)) :=
  match es with
  | [] => ⟨[], [], none⟩
  | e :: es => ((v.visitOptional e).also es (v.visitElements es)).map fun (e, es) => e :: es
termination_by 3 * elementsLoad v.cost es + 2
decreasing_by
  all_goals simp only [elementsLoad]
  all_goals omega

/-- Visits what is an expression in a property. -/
def visitProperty (v : Visitor ν ε) (p : Property) : Visit ν ε Property :=
  match p with
  | .named key value => (v.visitExpression value).map (.named key)
  | .literal key value => (v.visitExpression value).map (.literal key)
  | .computed key value =>
    ((v.visitExpression key).also value (v.visitExpression value)).map
      fun (key, value) => .computed key value
termination_by 3 * p.load v.cost
decreasing_by
  all_goals simp only [Property.load]
  all_goals omega

/-- Visits properties in a row. -/
def visitProperties (v : Visitor ν ε) (ps : List Property) : Visit ν ε (List Property) :=
  match ps with
  | [] => ⟨[], [], none⟩
  | p :: ps => ((v.visitProperty p).also ps (v.visitProperties ps)).map fun (p, ps) => p :: ps
termination_by 3 * propertiesLoad v.cost ps + 2
decreasing_by
  all_goals simp only [propertiesLoad]
  · omega
  · have := Property.load_pos v.cost p
    omega

/-- Runs the hook on a function and walks over what it has left. -/
def visitFunction (v : Visitor ν ε) (f : Function) : Visit ν ε Function :=
  let hooked := v.function f
  hooked.followedBy (v.walkFunction hooked.value)
termination_by 3 * f.load v.cost + 1
decreasing_by
  have := v.function_load f
  omega

/-- Walks over the body of a function. -/
def walkFunction (v : Visitor ν ε) (f : Function) : Visit ν ε Function :=
  match f with
  | .block head statements => (v.visitStatements statements).map (.block head)
  | .value head result => (v.visitExpression result).map (.value head)
termination_by 3 * f.load v.cost
decreasing_by
  all_goals simp only [Function.load]
  all_goals omega

/-- Runs the hook on a statement and walks over what it has left. -/
def visitStatement (v : Visitor ν ε) (s : Statement) : Visit ν ε Statement :=
  let hooked := v.statement s
  hooked.followedBy (v.walkStatement hooked.value)
termination_by 3 * s.load v.cost + 1
decreasing_by
  have := v.statement_load s
  omega

/-- Walks over the parts of a statement. -/
def walkStatement (v : Visitor ν ε) (s : Statement) : Visit ν ε Statement :=
  match s with
  | .expression i e => (v.visitExpression e).map (.expression i)
  | .variables i kind declarators => (v.visitDeclarators declarators).map (.variables i kind)
  | .function i f => (v.visitFunction f).map (.function i)
  | .return i result => (v.visitOptional result).map (.return i)
  | .ifElse i test consequent alternate =>
    ((v.visitExpression test).also (consequent, alternate)
      ((v.visitStatement consequent).also alternate (v.visitBranch alternate))).map
      fun (test, consequent, alternate) => .ifElse i test consequent alternate
  | .while i test body =>
    ((v.visitExpression test).also body (v.visitStatement body)).map
      fun (test, body) => .while i test body
  | .block i statements => (v.visitStatements statements).map (.block i)
  | .throw i thrown => (v.visitExpression thrown).map (.throw i)
  | .empty i => ⟨.empty i, [], none⟩
termination_by 3 * s.load v.cost
decreasing_by
  all_goals simp only [Statement.load]
  all_goals omega

/-- Visits a branch that may be absent. -/
def visitBranch (v : Visitor ν ε) (s : Option Statement) : Visit ν ε (Option Statement) :=
  match s with
  | none => ⟨none, [], none⟩
  | some s => (v.visitStatement s).map some
termination_by 3 * branchLoad v.cost s + 2
decreasing_by
  simp only [branchLoad]
  omega

/-- Visits statements in a row. -/
def visitStatements (v : Visitor ν ε) (ss : List Statement) : Visit ν ε (List Statement) :=
  match ss with
  | [] => ⟨[], [], none⟩
  | s :: ss => ((v.visitStatement s).also ss (v.visitStatements ss)).map fun (s, ss) => s :: ss
termination_by 3 * statementsLoad v.cost ss + 2
decreasing_by
  all_goals simp only [statementsLoad]
  · omega
  · have := Statement.load_pos v.cost s
    omega

/-- Visits the value of a declarator, if it has one. -/
def visitDeclarator (v : Visitor ν ε) (d : Declarator) : Visit ν ε Declarator :=
  match d with
  | .mk id init => (v.visitOptional init).map (.mk id)
termination_by 3 * d.load v.cost
decreasing_by
  simp only [Declarator.load]
  omega

/-- Visits declarators in a row. -/
def visitDeclarators (v : Visitor ν ε) (ds : List Declarator) : Visit ν ε (List Declarator) :=
  match ds with
  | [] => ⟨[], [], none⟩
  | d :: ds => ((v.visitDeclarator d).also ds (v.visitDeclarators ds)).map fun (d, ds) => d :: ds
termination_by 3 * declaratorsLoad v.cost ds + 2
decreasing_by
  all_goals simp only [declaratorsLoad]
  · omega
  · have := Declarator.load_pos v.cost d
    omega

end

/-- Walks over the statements of a program. -/
def walkProgram (v : Visitor ν ε) (p : Program) : Visit ν ε Program :=
  (v.visitStatements p.body).map fun body => ⟨body, p.span⟩

/-- Runs the hook on a program and walks over what it has left. -/
def visitProgram (v : Visitor ν ε) (p : Program) : Visit ν ε Program :=
  let hooked := v.program p
  hooked.followedBy (v.walkProgram hooked.value)

end Visitor

end AsyncMarkers
