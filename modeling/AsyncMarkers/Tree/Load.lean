import AsyncMarkers.Tree.Basic

/-!
# The load of a tree

A *cost* puts a number on every expression and every function of a tree, and the load of a tree is
the sum of these numbers plus the number of its nodes. A part of a tree has a smaller load than the
tree, whatever the cost, which is what lets a walk go on into nodes that were not there before: it
ends if what it puts into a place never has a greater load than what stood there.
-/

namespace AsyncMarkers

/-- A number for every expression and every function, read off the node and what is near it. -/
structure Cost where
  expression : Expression → Nat
  function : Function → Nat

/-- The cost that is zero everywhere; the load is then the number of nodes. -/
def Cost.none : Cost := ⟨fun _ => 0, fun _ => 0⟩

mutual

/-- One for the node, its cost, and the load of its parts. -/
def Expression.load (c : Cost) : Expression → Nat
  | .identifier s id => 1 + c.expression (.identifier s id)
  | .literal s value => 1 + c.expression (.literal s value)
  | .this s => 1 + c.expression (.this s)
  | .array s elements => 1 + c.expression (.array s elements) + elementsLoad c elements
  | .object s properties => 1 + c.expression (.object s properties) + propertiesLoad c properties
  | .function s f => 1 + c.expression (.function s f) + f.load c
  | .arrow s f => 1 + c.expression (.arrow s f) + f.load c
  | .unary s op argument => 1 + c.expression (.unary s op argument) + argument.load c
  | .binary s op left right =>
    1 + c.expression (.binary s op left right) + left.load c + right.load c
  | .logical s op left right =>
    1 + c.expression (.logical s op left right) + left.load c + right.load c
  | .assignment s op target value =>
    1 + c.expression (.assignment s op target value) + target.load c + value.load c
  | .conditional s test consequent alternate =>
    1 + c.expression (.conditional s test consequent alternate) +
      test.load c + consequent.load c + alternate.load c
  | .member s base property => 1 + c.expression (.member s base property) + base.load c
  | .index s base property =>
    1 + c.expression (.index s base property) + base.load c + property.load c
  | .call s callee arguments =>
    1 + c.expression (.call s callee arguments) + callee.load c + expressionsLoad c arguments
  | .construct s callee arguments =>
    1 + c.expression (.construct s callee arguments) + callee.load c + expressionsLoad c arguments
  | .sequence s items => 1 + c.expression (.sequence s items) + expressionsLoad c items
  | .spread s argument => 1 + c.expression (.spread s argument) + argument.load c

/-- The load of expressions in a row. -/
def expressionsLoad (c : Cost) : List Expression → Nat
  | [] => 0
  | e :: es => e.load c + expressionsLoad c es

/-- The load of an expression that may be absent. -/
def optionalLoad (c : Cost) : Option Expression → Nat
  | none => 0
  | some e => e.load c

/-- The load of the elements of an array; a hole counts as well. -/
def elementsLoad (c : Cost) : List (Option Expression) → Nat
  | [] => 0
  | e :: es => 1 + optionalLoad c e + elementsLoad c es

/-- The load of a property, which has no cost of its own. -/
def Property.load (c : Cost) : Property → Nat
  | .named _ value => 1 + value.load c
  | .literal _ value => 1 + value.load c
  | .computed key value => 1 + key.load c + value.load c

/-- The load of properties in a row. -/
def propertiesLoad (c : Cost) : List Property → Nat
  | [] => 0
  | p :: ps => p.load c + propertiesLoad c ps

/-- The load of a function, with its cost. -/
def Function.load (c : Cost) : Function → Nat
  | .block head statements => 1 + c.function (.block head statements) + statementsLoad c statements
  | .value head result => 1 + c.function (.value head result) + result.load c

/-- The load of a statement, which has no cost of its own. -/
def Statement.load (c : Cost) : Statement → Nat
  | .expression _ e => 1 + e.load c
  | .variables _ _ declarators => 1 + declaratorsLoad c declarators
  | .function _ f => 1 + f.load c
  | .return _ result => 1 + optionalLoad c result
  | .ifElse _ test consequent alternate =>
    1 + test.load c + consequent.load c + branchLoad c alternate
  | .while _ test body => 1 + test.load c + body.load c
  | .block _ statements => 1 + statementsLoad c statements
  | .throw _ thrown => 1 + thrown.load c
  | .empty _ => 1

/-- The load of a branch that may be absent. -/
def branchLoad (c : Cost) : Option Statement → Nat
  | none => 0
  | some s => s.load c

/-- The load of statements in a row. -/
def statementsLoad (c : Cost) : List Statement → Nat
  | [] => 0
  | s :: ss => s.load c + statementsLoad c ss

/-- The load of a declarator, which has no cost of its own. -/
def Declarator.load (c : Cost) : Declarator → Nat
  | .mk _ init => 1 + optionalLoad c init

/-- The load of declarators in a row. -/
def declaratorsLoad (c : Cost) : List Declarator → Nat
  | [] => 0
  | d :: ds => d.load c + declaratorsLoad c ds

end

/-- Every expression has a load. -/
theorem Expression.load_pos (c : Cost) (e : Expression) : 0 < e.load c := by
  cases e <;> simp only [Expression.load] <;> omega

/-- Every statement has a load. -/
theorem Statement.load_pos (c : Cost) (s : Statement) : 0 < s.load c := by
  cases s <;> simp only [Statement.load] <;> omega

/-- Every property has a load. -/
theorem Property.load_pos (c : Cost) (p : Property) : 0 < p.load c := by
  cases p <;> simp only [Property.load] <;> omega

/-- Every declarator has a load. -/
theorem Declarator.load_pos (c : Cost) (d : Declarator) : 0 < d.load c := by
  cases d
  simp only [Declarator.load]
  omega

/-- Taking an expression out of a list lowers the load by that of the expression. -/
theorem expressionsLoad_eraseIdx_add (c : Cost) (es : List Expression) (i : Nat) (e : Expression)
    (h : es[i]? = some e) :
    expressionsLoad c (es.eraseIdx i) + e.load c = expressionsLoad c es := by
  induction es generalizing i with
  | nil => simp at h
  | cons first rest ih =>
    cases i with
    | zero =>
      obtain rfl : first = e := by simpa using h
      simp only [List.eraseIdx_zero, List.tail_cons, expressionsLoad]
      omega
    | succ i =>
      have := ih i (by simpa using h)
      simp only [List.eraseIdx_cons_succ, expressionsLoad]
      omega

end AsyncMarkers
