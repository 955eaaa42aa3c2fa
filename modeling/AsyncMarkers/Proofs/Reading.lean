import AsyncMarkers.Proofs.Subtree

/-!
# Reading a tree

A reading goes over a tree from left to right and writes down what it finds in the leaves, in the
heads of functions, in declarations and in the keys and names that are no nodes. What it makes of
each of these is up to the reading (`Reading`); the order is that of the source text, with a node
before what stands in it.

The one fact about readings in general is that they are made of the readings of parts: if every part
of a node is replaced by one that reads the same, the node reads the same
(`Reading.ofSubtree_mapParts`).
-/

namespace AsyncMarkers

/-- What is written down for each thing that is come to. -/
structure Reading (τ : Type) where
  /-- For what a statement carries besides its parts. -/
  info : StatementInfo → List τ
  /-- For the name of a variable that is declared. -/
  declared : Identifier → List τ
  /-- For the name and the parameters of a function. -/
  head : FunctionHead → List τ
  /-- For an identifier that is an expression. -/
  name : Span → Identifier → List τ
  literal : Span → Literal → List τ
  this : Span → List τ
  /-- For a property of an object that is given by name. -/
  key : Identifier → List τ
  /-- For a property of an object that is given by a literal. -/
  literalKey : Literal → List τ
  /-- For the property in a member access with a name. -/
  property : Identifier → List τ

namespace Reading

variable {τ : Type}

mutual

/-- What is read off an expression. A property behind a dot is read after its base. -/
def ofExpression (r : Reading τ) : Expression → List τ
  | .identifier s id => r.name s id
  | .literal s value => r.literal s value
  | .this s => r.this s
  | .array _ elements => r.ofElements elements
  | .object _ properties => r.ofProperties properties
  | .function _ f | .arrow _ f => r.ofFunction f
  | .unary _ _ argument | .spread _ argument => r.ofExpression argument
  | .binary _ _ left right | .logical _ _ left right => r.ofExpression left ++ r.ofExpression right
  | .assignment _ _ target value => r.ofExpression target ++ r.ofExpression value
  | .conditional _ test consequent alternate =>
    r.ofExpression test ++ (r.ofExpression consequent ++ r.ofExpression alternate)
  | .member _ base property => r.ofExpression base ++ r.property property
  | .index _ base property => r.ofExpression base ++ r.ofExpression property
  | .call _ callee arguments | .construct _ callee arguments =>
    r.ofExpression callee ++ r.ofExpressions arguments
  | .sequence _ items => r.ofExpressions items

/-- What is read off expressions, from left to right. -/
def ofExpressions (r : Reading τ) : List Expression → List τ
  | [] => []
  | e :: es => r.ofExpression e ++ r.ofExpressions es

/-- What is read off an expression that may be missing. -/
def ofOptional (r : Reading τ) : Option Expression → List τ
  | none => []
  | some e => r.ofExpression e

/-- What is read off the elements of an array, where missing ones give nothing. -/
def ofElements (r : Reading τ) : List (Option Expression) → List τ
  | [] => []
  | e :: es => r.ofOptional e ++ r.ofElements es

/-- What is read off a property of an object: its key, then its value. -/
def ofProperty (r : Reading τ) : Property → List τ
  | .named key value => r.key key ++ r.ofExpression value
  | .literal key value => r.literalKey key ++ r.ofExpression value
  | .computed key value => r.ofExpression key ++ r.ofExpression value

/-- What is read off the properties of an object. -/
def ofProperties (r : Reading τ) : List Property → List τ
  | [] => []
  | p :: ps => r.ofProperty p ++ r.ofProperties ps

/-- What is read off a function: its head, then its body. -/
def ofFunction (r : Reading τ) : Function → List τ
  | .block head statements => r.head head ++ r.ofStatements statements
  | .value head result => r.head head ++ r.ofExpression result

/-- What is read off a statement, with its info first. -/
def ofStatement (r : Reading τ) : Statement → List τ
  | .expression i e => r.info i ++ r.ofExpression e
  | .variables i _ declarators => r.info i ++ r.ofDeclarators declarators
  | .function i f => r.info i ++ r.ofFunction f
  | .return i result => r.info i ++ r.ofOptional result
  | .ifElse i test consequent alternate =>
    r.info i ++ (r.ofExpression test ++ (r.ofStatement consequent ++ r.ofBranch alternate))
  | .while i test body => r.info i ++ (r.ofExpression test ++ r.ofStatement body)
  | .block i statements => r.info i ++ r.ofStatements statements
  | .throw i thrown => r.info i ++ r.ofExpression thrown
  | .empty i => r.info i

/-- What is read off a branch that may be missing. -/
def ofBranch (r : Reading τ) : Option Statement → List τ
  | none => []
  | some s => r.ofStatement s

/-- What is read off statements, one after another. -/
def ofStatements (r : Reading τ) : List Statement → List τ
  | [] => []
  | s :: ss => r.ofStatement s ++ r.ofStatements ss

/-- What is read off the declaration of a variable: its name, then its initial value. -/
def ofDeclarator (r : Reading τ) : Declarator → List τ
  | .mk id init => r.declared id ++ r.ofOptional init

/-- What is read off declarations of variables. -/
def ofDeclarators (r : Reading τ) : List Declarator → List τ
  | [] => []
  | d :: ds => r.ofDeclarator d ++ r.ofDeclarators ds

end

/-- What is read off a node and everything below it. -/
def ofSubtree (r : Reading τ) : Subtree → List τ
  | .statement s => r.ofStatement s
  | .function f => r.ofFunction f
  | .expression e => r.ofExpression e

variable {r : Reading τ}

/-- Expressions are read one after another. -/
theorem ofExpressions_eq (es : List Expression) :
    r.ofExpressions es = es.flatMap r.ofExpression := by
  induction es with
  | nil => rfl
  | cons e es ih => rw [ofExpressions, ih, List.flatMap_cons]

/-! ### Readings are made of the readings of parts -/

section MapParts

variable {m : NodeMap}

/-- Expressions read the same if each of them does after it has been replaced. -/
theorem ofExpressions_map {es : List Expression}
    (h : ∀ part ∈ es.map Subtree.expression, r.ofSubtree (m.apply part) = r.ofSubtree part) :
    r.ofExpressions (es.map m.expression) = r.ofExpressions es := by
  induction es with
  | nil => rfl
  | cons e es ih =>
    rw [List.map_cons, List.forall_mem_cons] at h
    have h_first : r.ofExpression (m.expression e) = r.ofExpression e := h.1
    rw [List.map_cons, ofExpressions, h_first, ih h.2, ofExpressions]

/-- So do statements. -/
theorem ofStatements_map {ss : List Statement}
    (h : ∀ part ∈ ss.map Subtree.statement, r.ofSubtree (m.apply part) = r.ofSubtree part) :
    r.ofStatements (ss.map m.statement) = r.ofStatements ss := by
  induction ss with
  | nil => rfl
  | cons s ss ih =>
    rw [List.map_cons, List.forall_mem_cons] at h
    have h_first : r.ofStatement (m.statement s) = r.ofStatement s := h.1
    rw [List.map_cons, ofStatements, h_first, ih h.2, ofStatements]

/-- So does an expression that may be missing. -/
theorem ofOptional_map {e : Option Expression}
    (h : ∀ part ∈ optionalParts e, r.ofSubtree (m.apply part) = r.ofSubtree part) :
    r.ofOptional (e.map m.expression) = r.ofOptional e := by
  cases e with
  | none => rfl
  | some e => exact h _ (List.mem_singleton_self _)

/-- So does a branch that may be missing. -/
theorem ofBranch_map {s : Option Statement}
    (h : ∀ part ∈ branchParts s, r.ofSubtree (m.apply part) = r.ofSubtree part) :
    r.ofBranch (s.map m.statement) = r.ofBranch s := by
  cases s with
  | none => rfl
  | some s => exact h _ (List.mem_singleton_self _)

/-- So do the elements of an array. -/
theorem ofElements_map {es : List (Option Expression)}
    (h : ∀ part ∈ es.flatMap optionalParts, r.ofSubtree (m.apply part) = r.ofSubtree part) :
    r.ofElements (es.map (Option.map m.expression)) = r.ofElements es := by
  induction es with
  | nil => rfl
  | cons e es ih =>
    rw [List.flatMap_cons, List.forall_mem_append] at h
    rw [List.map_cons, ofElements, ofOptional_map h.1, ih h.2, ofElements]

/-- So does a property, whose name is not replaced. -/
theorem ofProperty_map {p : Property}
    (h : ∀ part ∈ p.parts, r.ofSubtree (m.apply part) = r.ofSubtree part) :
    r.ofProperty (p.mapParts m) = r.ofProperty p := by
  cases p with
  | named key value | literal key value =>
    have h_value : r.ofExpression (m.expression value) = r.ofExpression value :=
      h _ (List.mem_singleton_self _)
    rw [Property.mapParts, ofProperty, h_value, ofProperty]
  | computed key value =>
    rw [Property.parts, List.forall_mem_cons, List.forall_mem_singleton] at h
    have h_key : r.ofExpression (m.expression key) = r.ofExpression key := h.1
    have h_value : r.ofExpression (m.expression value) = r.ofExpression value := h.2
    rw [Property.mapParts, ofProperty, h_key, h_value, ofProperty]

/-- So do the properties of an object. -/
theorem ofProperties_map {ps : List Property}
    (h : ∀ part ∈ ps.flatMap Property.parts, r.ofSubtree (m.apply part) = r.ofSubtree part) :
    r.ofProperties (ps.map (Property.mapParts m)) = r.ofProperties ps := by
  induction ps with
  | nil => rfl
  | cons p ps ih =>
    rw [List.flatMap_cons, List.forall_mem_append] at h
    rw [List.map_cons, ofProperties, ofProperty_map h.1, ih h.2, ofProperties]

/-- So do declarations of variables, whose names are not replaced. -/
theorem ofDeclarators_map {ds : List Declarator}
    (h : ∀ part ∈ ds.flatMap Declarator.parts, r.ofSubtree (m.apply part) = r.ofSubtree part) :
    r.ofDeclarators (ds.map (Declarator.mapParts m)) = r.ofDeclarators ds := by
  induction ds with
  | nil => rfl
  | cons d ds ih =>
    obtain ⟨id, init⟩ := d
    rw [List.flatMap_cons, List.forall_mem_append] at h
    rw [List.map_cons, ofDeclarators, ih h.2, Declarator.mapParts, ofDeclarator, ofOptional_map h.1,
      ofDeclarators, ofDeclarator]

/-- A node reads the same if each of its parts is replaced by one that reads the same. -/
theorem ofSubtree_mapParts {t : Subtree}
    (h : ∀ part ∈ t.parts, r.ofSubtree (m.apply part) = r.ofSubtree part) :
    r.ofSubtree (t.mapParts m) = r.ofSubtree t := by
  -- the cases with lists of parts are the lemmas above; in all others the parts are given singly
  cases t with
  | statement s =>
    cases s with
    | «variables» info kind declarators =>
      simp only [Subtree.mapParts, Statement.mapParts, ofSubtree, ofStatement, ofDeclarators_map h]
    | «return» info result =>
      simp only [Subtree.mapParts, Statement.mapParts, ofSubtree, ofStatement, ofOptional_map h]
    | ifElse info test consequent alternate =>
      simp only [Subtree.parts, Statement.parts, List.forall_mem_cons] at h
      obtain ⟨h_test, h_consequent, h_alternate⟩ := h
      simp only [NodeMap.apply, ofSubtree] at h_test h_consequent
      simp only [Subtree.mapParts, Statement.mapParts, ofSubtree, ofStatement, h_test, h_consequent,
        ofBranch_map h_alternate]
    | block info statements =>
      simp only [Subtree.mapParts, Statement.mapParts, ofSubtree, ofStatement, ofStatements_map h]
    | _ =>
      simp_all [Subtree.mapParts, Statement.mapParts, Subtree.parts, Statement.parts, NodeMap.apply,
        ofSubtree, ofStatement]
  | function f =>
    cases f with
    | block head statements =>
      simp only [Subtree.mapParts, Function.mapParts, ofSubtree, ofFunction, ofStatements_map h]
    | value head result =>
      simp_all [Subtree.mapParts, Function.mapParts, Subtree.parts, Function.parts, NodeMap.apply,
        ofSubtree, ofFunction]
  | expression e =>
    -- a list of parts and a single one may stand side by side, as in calls
    cases e with
    | array s elements =>
      simp only [Subtree.mapParts, Expression.mapParts, ofSubtree, ofExpression, ofElements_map h]
    | object s properties =>
      simp only [Subtree.mapParts, Expression.mapParts, ofSubtree, ofExpression, ofProperties_map h]
    | call s callee arguments | construct s callee arguments =>
      simp only [Subtree.parts, Expression.parts, List.forall_mem_cons] at h
      obtain ⟨h_callee, h_arguments⟩ := h
      simp only [NodeMap.apply, ofSubtree] at h_callee
      simp only [Subtree.mapParts, Expression.mapParts, ofSubtree, ofExpression, h_callee,
        ofExpressions_map h_arguments]
    | sequence s items =>
      simp only [Subtree.mapParts, Expression.mapParts, ofSubtree, ofExpression,
        ofExpressions_map h]
    | _ =>
      simp_all [Subtree.mapParts, Expression.mapParts, Subtree.parts, Expression.parts,
        NodeMap.apply, ofSubtree, ofExpression]

end MapParts

end Reading

end AsyncMarkers
