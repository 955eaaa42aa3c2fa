import AsyncMarkers.Proofs.Subtree
import AsyncMarkers.Tree.Visit

/-!
# The walk in terms of parts

What the mutually recursive functions of a walk do is said here once, for nodes of any kind. A visit
runs the hook on a node and then walks over what the hook has left (`Visitor.visit_eq`). Of the walk
over a node,

* `Visitor.walk_ending` says how it ends: it notes what the visits of the parts note, one after
  another, and it fails where the first of them fails;
* `Visitor.walk_value` says what it leaves, if it does not fail: the node, with each part replaced
  by what its visit has left.

Everything else about a walk follows by `Visitor.visit_induction`: what holds of a node as soon as
it holds of all parts *of what the hook leaves* holds of every node. The parts that the hook has
made up are among these, and the induction is sound because the hook does not raise the load.
-/

namespace AsyncMarkers

/-- The first result is that of the first element that has one. -/
theorem findSome?_cons_or {α β : Type} (f : α → Option β) (a : α) (as : List α) :
    (a :: as).findSome? f = (f a).or (as.findSome? f) := by
  rw [List.findSome?_cons]
  cases f a <;> rfl

theorem findSome?_congr {α β : Type} {f f' : α → Option β} {as : List α}
    (h : ∀ a ∈ as, f a = f' a) : as.findSome? f = as.findSome? f' := by
  induction as with
  | nil => rfl
  | cons a as ih =>
    rw [List.forall_mem_cons] at h
    rw [findSome?_cons_or, findSome?_cons_or, h.1, ih h.2]

/-! ### How visits end -/

namespace Visit

variable {ν ε α β : Type}

/-- What has been noted, and why the walk has stopped, if it has. -/
def ending (v : Visit ν ε α) : Visit ν ε Unit := v.map fun _ => ()

@[simp] theorem ending_notes (v : Visit ν ε α) : v.ending.notes = v.notes := rfl

@[simp] theorem ending_failure (v : Visit ν ε α) : v.ending.failure = v.failure := rfl

@[simp] theorem map_value (f : α → β) (v : Visit ν ε α) : (v.map f).value = f v.value := rfl

@[simp] theorem map_notes (f : α → β) (v : Visit ν ε α) : (v.map f).notes = v.notes := rfl

@[simp] theorem map_failure (f : α → β) (v : Visit ν ε α) : (v.map f).failure = v.failure := rfl

@[simp] theorem ending_map (f : α → β) (v : Visit ν ε α) : (v.map f).ending = v.ending := rfl

/-- Only notes and failures matter for how two visits in a row end, not what they leave. -/
theorem ending_followedBy (v w : Visit ν ε α) :
    (v.followedBy w).ending = v.ending.followedBy w.ending := by
  unfold followedBy
  rw [ending_failure]
  split <;> rfl

/-- What a pair of visits leaves does not matter for how it ends. -/
theorem ending_also (v : Visit ν ε α) (untouched : β) (w : Visit ν ε β) :
    (v.also untouched w).ending = v.ending.followedBy w.ending := by
  -- only the failure of the first visit decides whether the second one takes place
  obtain ⟨value, notes, failure⟩ := v
  cases failure <;> rfl

/-- Two visits in a row fail where the first of them fails. -/
theorem followedBy_failure (v w : Visit ν ε α) :
    (v.followedBy w).failure = v.failure.or w.failure := by
  unfold followedBy
  split <;> simp_all

theorem followedBy_of_failure_none {v : Visit ν ε α} (h : v.failure = none) (w : Visit ν ε α) :
    v.followedBy w = ⟨w.value, v.notes ++ w.notes, w.failure⟩ := by
  simp only [followedBy, h]

theorem also_value_of_failure_none {v : Visit ν ε α} (h : v.failure = none) (untouched : β)
    (w : Visit ν ε β) : (v.also untouched w).value = (v.value, w.value) := by
  simp only [also, h]

theorem followedBy_assoc (u v w : Visit ν ε α) :
    (u.followedBy v).followedBy w = u.followedBy (v.followedBy w) := by
  obtain ⟨_, notes, failure⟩ := u
  obtain ⟨_, notes', failure'⟩ := v
  cases failure <;> cases failure' <;> simp [followedBy]

/-- A visit that notes nothing and does not fail. -/
theorem followedBy_nothing (v : Visit ν ε Unit) : v.followedBy ⟨(), [], none⟩ = v := by
  obtain ⟨_, notes, failure⟩ := v
  cases failure <;> simp [followedBy]

theorem nothing_followedBy (v : Visit ν ε Unit) : Visit.followedBy ⟨(), [], none⟩ v = v := by
  simp [followedBy]

/-- A property of endings that going on from one visit to the next preserves. -/
structure Chains (P : Visit ν ε Unit → Prop) : Prop where
  nothing : P ⟨(), [], none⟩
  followedBy : ∀ {u w}, P u → P w → P (u.followedBy w)

end Visit

/-! ### Visits of subtrees -/

namespace Visitor

variable {ν ε : Type} (v : Visitor ν ε)

/-- Runs the hook for the kind of a node. -/
def hook : Subtree → Visit ν ε Subtree
  | .statement s => (v.statement s).map .statement
  | .function f => (v.function f).map .function
  | .expression e => (v.expression e).map .expression

/-- Walks over the parts of a node. -/
def walk : Subtree → Visit ν ε Subtree
  | .statement s => (v.walkStatement s).map .statement
  | .function f => (v.walkFunction f).map .function
  | .expression e => (v.walkExpression e).map .expression

/-- Visits a node. -/
def visit : Subtree → Visit ν ε Subtree
  | .statement s => (v.visitStatement s).map .statement
  | .function f => (v.visitFunction f).map .function
  | .expression e => (v.visitExpression e).map .expression

/-- How visits of nodes one after another end. -/
def visitAll : List Subtree → Visit ν ε Unit
  | [] => ⟨(), [], none⟩
  | t :: ts => (v.visit t).ending.followedBy (visitAll ts)

/-- What visits leave in the place of each node. -/
def results : NodeMap where
  statement s := (v.visitStatement s).value
  function f := (v.visitFunction f).value
  expression e := (v.visitExpression e).value

@[simp] theorem results_apply (t : Subtree) : v.results.apply t = (v.visit t).value := by
  cases t <;> rfl

/-- A visit runs the hook, and then walks over what that has left. -/
theorem visit_eq (t : Subtree) : v.visit t = (v.hook t).followedBy (v.walk (v.hook t).value) := by
  -- wrapping what is visited as a subtree goes through both visits
  have h_map {α : Type} (f : α → Subtree) (u w : Visit ν ε α) :
      (u.followedBy w).map f = (u.map f).followedBy (w.map f) := by
    obtain ⟨value, notes, failure⟩ := u
    cases failure <;> rfl
  cases t with
  | statement s =>
    simp only [visit, hook]
    rw [visitStatement, h_map]
    rfl
  | function f =>
    simp only [visit, hook]
    rw [visitFunction, h_map]
    rfl
  | expression e =>
    simp only [visit, hook]
    rw [visitExpression, h_map]
    rfl

/-! ### How a walk ends -/

/-- Visits of two lists of nodes one after another. -/
theorem visitAll_append (ts us : List Subtree) :
    v.visitAll (ts ++ us) = (v.visitAll ts).followedBy (v.visitAll us) := by
  induction ts with
  | nil => exact (Visit.nothing_followedBy _).symm
  | cons t ts ih => rw [List.cons_append, visitAll, ih, visitAll, Visit.followedBy_assoc]

theorem visitAll_singleton (t : Subtree) : v.visitAll [t] = (v.visit t).ending :=
  Visit.followedBy_nothing _

/-- Visits of the expressions of a list end as visits of them as nodes do. -/
theorem visitExpressions_ending (es : List Expression) :
    (v.visitExpressions es).ending = v.visitAll (es.map .expression) := by
  induction es with
  | nil => rw [visitExpressions]; rfl
  | cons e es ih =>
    rw [visitExpressions, Visit.ending_map, Visit.ending_also, ih]
    rfl

/-- Visits of the statements of a list end as visits of them as nodes do. -/
theorem visitStatements_ending (ss : List Statement) :
    (v.visitStatements ss).ending = v.visitAll (ss.map .statement) := by
  induction ss with
  | nil => rw [visitStatements]; rfl
  | cons s ss ih =>
    rw [visitStatements, Visit.ending_map, Visit.ending_also, ih]
    rfl

theorem visitOptional_ending (e : Option Expression) :
    (v.visitOptional e).ending = v.visitAll (optionalParts e) := by
  cases e with
  | none => rw [visitOptional]; rfl
  | some e => rw [visitOptional, optionalParts, visitAll_singleton]; rfl

theorem visitBranch_ending (s : Option Statement) :
    (v.visitBranch s).ending = v.visitAll (branchParts s) := by
  cases s with
  | none => rw [visitBranch]; rfl
  | some s => rw [visitBranch, branchParts, visitAll_singleton]; rfl

/-- A hole in an array has no parts, so nothing is visited for it. -/
theorem visitElements_ending (es : List (Option Expression)) :
    (v.visitElements es).ending = v.visitAll (es.flatMap optionalParts) := by
  induction es with
  | nil => rw [visitElements]; rfl
  | cons e es ih =>
    rw [visitElements, Visit.ending_map, Visit.ending_also, ih, visitOptional_ending,
      List.flatMap_cons, visitAll_append]

/-- The key of a property is a part only if it is computed, and comes before the value then. -/
theorem visitProperty_ending (p : Property) : (v.visitProperty p).ending = v.visitAll p.parts := by
  cases p with
  | computed key value =>
    rw [visitProperty, Visit.ending_map, Visit.ending_also, Property.parts, visitAll,
      visitAll_singleton]
    rfl
  | _ =>
    rw [visitProperty, Property.parts, visitAll_singleton]
    rfl

theorem visitProperties_ending (ps : List Property) :
    (v.visitProperties ps).ending = v.visitAll (ps.flatMap Property.parts) := by
  induction ps with
  | nil => rw [visitProperties]; rfl
  | cons p ps ih =>
    rw [visitProperties, Visit.ending_map, Visit.ending_also, ih, visitProperty_ending,
      List.flatMap_cons, visitAll_append]

theorem visitDeclarators_ending (ds : List Declarator) :
    (v.visitDeclarators ds).ending = v.visitAll (ds.flatMap Declarator.parts) := by
  induction ds with
  | nil => rw [visitDeclarators]; rfl
  | cons d ds ih =>
    -- the name of a declarator is no part; the initial value is, if there is one
    obtain ⟨id, init⟩ := d
    rw [visitDeclarators, Visit.ending_map, Visit.ending_also, ih, visitDeclarator,
      Visit.ending_map, visitOptional_ending, List.flatMap_cons, visitAll_append]
    rfl

/-- A walk over a node ends as visits of its parts do, one after another. -/
theorem walk_ending (t : Subtree) : (v.walk t).ending = v.visitAll t.parts := by
  cases t with
  | statement s =>
    -- each form of a statement visits its parts in the order in which `Statement.parts` lists them
    rw [walk, Visit.ending_map, Subtree.parts]
    cases s with
    | expression info e => rw [walkStatement, Statement.parts, visitAll_singleton]; rfl
    | «variables» info kind declarators =>
      rw [walkStatement, Statement.parts, Visit.ending_map, visitDeclarators_ending]
    | function info f => rw [walkStatement, Statement.parts, visitAll_singleton]; rfl
    | «return» info result =>
      rw [walkStatement, Statement.parts, Visit.ending_map, visitOptional_ending]
    | ifElse info test consequent alternate =>
      rw [walkStatement, Statement.parts, Visit.ending_map, Visit.ending_also, Visit.ending_also,
        visitBranch_ending]
      rfl
    | «while» info test body =>
      rw [walkStatement, Statement.parts, Visit.ending_map, Visit.ending_also, visitAll,
        visitAll_singleton]
      rfl
    | block info statements =>
      rw [walkStatement, Statement.parts, Visit.ending_map, visitStatements_ending]
    | throw info thrown => rw [walkStatement, Statement.parts, visitAll_singleton]; rfl
    | empty info => rw [walkStatement]; rfl
  | function f =>
    rw [walk, Visit.ending_map, Subtree.parts]
    cases f with
    | block head statements =>
      rw [walkFunction, Function.parts, Visit.ending_map, visitStatements_ending]
    | value head result => rw [walkFunction, Function.parts, visitAll_singleton]; rfl
  | expression e =>
    rw [walk, Visit.ending_map, Subtree.parts]
    -- by how many parts there are, and whether they stand in a list
    cases e with
    | identifier _ _ | literal _ _ | this _ => rw [walkExpression]; rfl
    | array s elements =>
      rw [walkExpression, Expression.parts, Visit.ending_map, visitElements_ending]
    | object s properties =>
      rw [walkExpression, Expression.parts, Visit.ending_map, visitProperties_ending]
    | function _ _ | arrow _ _ | unary _ _ _ | member _ _ _ | spread _ _ =>
      rw [walkExpression, Expression.parts, visitAll_singleton]
      rfl
    | binary _ _ _ _ | logical _ _ _ _ | assignment _ _ _ _ | index _ _ _ =>
      rw [walkExpression, Expression.parts, Visit.ending_map, Visit.ending_also, visitAll,
        visitAll_singleton]
      rfl
    | conditional s test consequent alternate =>
      rw [walkExpression, Expression.parts, Visit.ending_map, Visit.ending_also, Visit.ending_also,
        visitAll, visitAll, visitAll_singleton]
      rfl
    | call _ _ _ | construct _ _ _ =>
      rw [walkExpression, Expression.parts, Visit.ending_map, Visit.ending_also,
        visitExpressions_ending]
      rfl
    | sequence s items =>
      rw [walkExpression, Expression.parts, Visit.ending_map, visitExpressions_ending]

/-- The first visit that fails is the one with which visits fail. -/
theorem visitAll_failure (ts : List Subtree) :
    (v.visitAll ts).failure = ts.findSome? fun t => (v.visit t).failure := by
  induction ts with
  | nil => rfl
  | cons t ts ih => rw [visitAll, Visit.followedBy_failure, ih, findSome?_cons_or,
      Visit.ending_failure]

theorem visitAll_failure_eq_none {ts : List Subtree} :
    (v.visitAll ts).failure = none ↔ ∀ t ∈ ts, (v.visit t).failure = none := by
  rw [visitAll_failure, List.findSome?_eq_none_iff]

/-- Visits that do not fail note everything that each of them notes. -/
theorem visitAll_notes {ts : List Subtree} (h : ∀ t ∈ ts, (v.visit t).failure = none) :
    (v.visitAll ts).notes = ts.flatMap fun t => (v.visit t).notes := by
  induction ts with
  | nil => rfl
  | cons t ts ih =>
    rw [List.forall_mem_cons] at h
    -- the first visit does not fail, so the others take place and their notes come behind
    have h_first : (v.visit t).ending.failure = none := h.1
    rw [visitAll, Visit.followedBy_of_failure_none h_first, List.flatMap_cons, ← ih h.2]
    rfl

/-- A walk over a node fails where the visit of a part first fails. -/
theorem walk_failure (t : Subtree) :
    (v.walk t).failure = t.parts.findSome? fun part => (v.visit part).failure := by
  rw [← Visit.ending_failure, walk_ending, visitAll_failure]

/-! ### What a walk leaves -/

section Value

/-- If no visit fails, each expression is replaced by what its visit leaves. -/
theorem visitExpressions_value {es : List Expression}
    (h : ∀ part ∈ es.map Subtree.expression, (v.visit part).failure = none) :
    (v.visitExpressions es).value = es.map v.results.expression := by
  induction es with
  | nil => rw [visitExpressions]; rfl
  | cons e es ih =>
    rw [List.map_cons, List.forall_mem_cons] at h
    -- the others are visited at all only because the first visit does not fail
    have h_first : (v.visitExpression e).failure = none := h.1
    rw [visitExpressions, Visit.map_value, Visit.also_value_of_failure_none h_first, ih h.2]
    rfl

theorem visitStatements_value {ss : List Statement}
    (h : ∀ part ∈ ss.map Subtree.statement, (v.visit part).failure = none) :
    (v.visitStatements ss).value = ss.map v.results.statement := by
  induction ss with
  | nil => rw [visitStatements]; rfl
  | cons s ss ih =>
    rw [List.map_cons, List.forall_mem_cons] at h
    have h_first : (v.visitStatement s).failure = none := h.1
    rw [visitStatements, Visit.map_value, Visit.also_value_of_failure_none h_first, ih h.2]
    rfl

/-- At most one visit takes place, so nothing has to be known about failures. -/
theorem visitOptional_value (e : Option Expression) :
    (v.visitOptional e).value = e.map v.results.expression := by
  cases e <;> rw [visitOptional] <;> rfl

theorem visitBranch_value (s : Option Statement) :
    (v.visitBranch s).value = s.map v.results.statement := by
  cases s <;> rw [visitBranch] <;> rfl

theorem visitElements_value {es : List (Option Expression)}
    (h : ∀ part ∈ es.flatMap optionalParts, (v.visit part).failure = none) :
    (v.visitElements es).value = es.map (Option.map v.results.expression) := by
  induction es with
  | nil => rw [visitElements]; rfl
  | cons e es ih =>
    rw [List.flatMap_cons, List.forall_mem_append] at h
    -- a hole cannot fail, and an element fails only as a part
    have h_first : (v.visitOptional e).failure = none := by
      rw [← Visit.ending_failure, visitOptional_ending, visitAll_failure_eq_none]
      exact h.1
    rw [visitElements, Visit.map_value, Visit.also_value_of_failure_none h_first, ih h.2,
      visitOptional_value, List.map_cons]

theorem visitProperty_value {p : Property}
    (h : ∀ part ∈ p.parts, (v.visit part).failure = none) :
    (v.visitProperty p).value = p.mapParts v.results := by
  cases p with
  | computed key value =>
    rw [Property.parts, List.forall_mem_cons] at h
    have h_first : (v.visitExpression key).failure = none := h.1
    rw [visitProperty, Visit.map_value, Visit.also_value_of_failure_none h_first]
    rfl
  | _ => rw [visitProperty]; rfl

theorem visitProperties_value {ps : List Property}
    (h : ∀ part ∈ ps.flatMap Property.parts, (v.visit part).failure = none) :
    (v.visitProperties ps).value = ps.map (Property.mapParts v.results) := by
  induction ps with
  | nil => rw [visitProperties]; rfl
  | cons p ps ih =>
    rw [List.flatMap_cons, List.forall_mem_append] at h
    -- the parts of a property belong to the parts of the list
    have h_first : (v.visitProperty p).failure = none := by
      rw [← Visit.ending_failure, visitProperty_ending, visitAll_failure_eq_none]
      exact h.1
    rw [visitProperties, Visit.map_value, Visit.also_value_of_failure_none h_first, ih h.2,
      v.visitProperty_value h.1, List.map_cons]

theorem visitDeclarators_value {ds : List Declarator}
    (h : ∀ part ∈ ds.flatMap Declarator.parts, (v.visit part).failure = none) :
    (v.visitDeclarators ds).value = ds.map (Declarator.mapParts v.results) := by
  induction ds with
  | nil => rw [visitDeclarators]; rfl
  | cons d ds ih =>
    obtain ⟨id, init⟩ := d
    rw [List.flatMap_cons, List.forall_mem_append] at h
    -- a declarator is visited by visiting its initial value
    have h_first : (v.visitDeclarator (.mk id init)).failure = none := by
      rw [visitDeclarator, Visit.map_failure, ← Visit.ending_failure, visitOptional_ending,
        visitAll_failure_eq_none]
      exact h.1
    rw [visitDeclarators, Visit.map_value, Visit.also_value_of_failure_none h_first, ih h.2,
      visitDeclarator, Visit.map_value, visitOptional_value]
    rfl

/-- A walk that does not fail puts in the place of each part what its visit leaves. -/
theorem walk_value {t : Subtree} (h : ∀ part ∈ t.parts, (v.visit part).failure = none) :
    (v.walk t).value = t.mapParts v.results := by
  -- what stands behind a part is visited only if the visit of that part has not failed
  cases t with
  | statement s =>
    cases s with
    | «variables» info kind declarators =>
      rw [walk, walkStatement, Visit.map_value, Visit.map_value, v.visitDeclarators_value h]
      rfl
    | «return» info result =>
      rw [walk, walkStatement, Visit.map_value, Visit.map_value, visitOptional_value]
      rfl
    | ifElse info test consequent alternate =>
      simp only [Subtree.parts, Statement.parts, List.forall_mem_cons] at h
      have h_test : (v.visitExpression test).failure = none := h.1
      have h_consequent : (v.visitStatement consequent).failure = none := h.2.1
      rw [walk, walkStatement, Visit.map_value, Visit.map_value,
        Visit.also_value_of_failure_none h_test, Visit.also_value_of_failure_none h_consequent,
        visitBranch_value]
      rfl
    | «while» info test body =>
      simp only [Subtree.parts, Statement.parts, List.forall_mem_cons] at h
      have h_test : (v.visitExpression test).failure = none := h.1
      rw [walk, walkStatement, Visit.map_value, Visit.map_value,
        Visit.also_value_of_failure_none h_test]
      rfl
    | block info statements =>
      rw [walk, walkStatement, Visit.map_value, Visit.map_value, v.visitStatements_value h]
      rfl
    -- a single part, or none: whatever its visit leaves stands in its place
    | _ => rw [walk, walkStatement]; rfl
  | function f =>
    cases f with
    | block head statements =>
      rw [walk, walkFunction, Visit.map_value, Visit.map_value, v.visitStatements_value h]
      rfl
    | value head result => rw [walk, walkFunction]; rfl
  | expression e =>
    cases e with
    | array s elements =>
      rw [walk, walkExpression, Visit.map_value, Visit.map_value, v.visitElements_value h]
      rfl
    | object s properties =>
      rw [walk, walkExpression, Visit.map_value, Visit.map_value, v.visitProperties_value h]
      rfl
    -- two parts in a row
    | binary _ _ first _ | logical _ _ first _ | assignment _ _ first _ | index _ first _ =>
      simp only [Subtree.parts, Expression.parts, List.forall_mem_cons] at h
      have h_first : (v.visitExpression first).failure = none := h.1
      rw [walk, walkExpression, Visit.map_value, Visit.map_value,
        Visit.also_value_of_failure_none h_first]
      rfl
    | conditional s test consequent alternate =>
      simp only [Subtree.parts, Expression.parts, List.forall_mem_cons] at h
      have h_test : (v.visitExpression test).failure = none := h.1
      have h_consequent : (v.visitExpression consequent).failure = none := h.2.1
      rw [walk, walkExpression, Visit.map_value, Visit.map_value,
        Visit.also_value_of_failure_none h_test, Visit.also_value_of_failure_none h_consequent]
      rfl
    | call _ callee _ | construct _ callee _ =>
      simp only [Subtree.parts, Expression.parts, List.forall_mem_cons] at h
      have h_callee : (v.visitExpression callee).failure = none := h.1
      rw [walk, walkExpression, Visit.map_value, Visit.map_value,
        Visit.also_value_of_failure_none h_callee, v.visitExpressions_value h.2]
      rfl
    | sequence s items =>
      rw [walk, walkExpression, Visit.map_value, Visit.map_value, v.visitExpressions_value h]
      rfl
    | _ => rw [walk, walkExpression]; rfl

end Value

/-! ### Visits -/

/-- No hook raises the load of a node. -/
theorem hook_load (t : Subtree) : (v.hook t).value.load v.cost ≤ t.load v.cost := by
  cases t with
  | statement s => exact v.statement_load s
  | function f => exact v.function_load f
  | expression e => exact v.expression_load e

/-- What holds of a node as soon as it holds of the parts of what the hook leaves holds of every
node. -/
theorem visit_induction {P : Subtree → Prop}
    (step : ∀ t, (∀ part ∈ (v.hook t).value.parts, P part) → P t) (t : Subtree) : P t := by
  -- the induction is on the load, since what the hook leaves is no subtree of the node
  induction h_load : t.load v.cost using Nat.strongRecOn generalizing t with
  | ind n ih =>
    refine step t fun part h_part => ih (part.load v.cost) ?_ part rfl
    -- the hook may have made the part up, but its load counts against that of the node
    have h_lt := Subtree.load_lt_of_mem_parts v.cost h_part
    have h_hook := v.hook_load t
    omega

/-- A visit ends as the hook does, and then visits of the parts of what that has left. -/
theorem visit_ending (t : Subtree) :
    (v.visit t).ending = (v.hook t).ending.followedBy (v.visitAll (v.hook t).value.parts) := by
  rw [visit_eq, Visit.ending_followedBy, walk_ending]

/-- A visit fails where the hook fails, or else where the visit of a part first fails. -/
theorem visit_failure (t : Subtree) :
    (v.visit t).failure = (v.hook t).failure.or
      ((v.hook t).value.parts.findSome? fun part => (v.visit part).failure) := by
  rw [visit_eq, Visit.followedBy_failure, walk_failure]

/-- A visit succeeds exactly if the hook and the visits of all parts do. -/
theorem visit_failure_eq_none {t : Subtree} :
    (v.visit t).failure = none ↔ (v.hook t).failure = none ∧
      ∀ part ∈ (v.hook t).value.parts, (v.visit part).failure = none := by
  rw [visit_failure, Option.or_eq_none_iff, List.findSome?_eq_none_iff]

/-- What a visit that succeeds leaves. -/
theorem visit_value {t : Subtree} (h : (v.visit t).failure = none) :
    (v.visit t).value = (v.hook t).value.mapParts v.results := by
  obtain ⟨h_hook, h_parts⟩ := v.visit_failure_eq_none.1 h
  rw [visit_eq, Visit.followedBy_of_failure_none h_hook]
  exact v.walk_value h_parts

/-- What a visit that succeeds notes. -/
theorem visit_notes {t : Subtree} (h : (v.visit t).failure = none) :
    (v.visit t).notes = (v.hook t).notes ++
      (v.hook t).value.parts.flatMap fun part => (v.visit part).notes := by
  obtain ⟨h_hook, h_parts⟩ := v.visit_failure_eq_none.1 h
  rw [visit_eq, Visit.followedBy_of_failure_none h_hook, ← v.visitAll_notes h_parts, ← walk_ending]
  rfl

/-- The parts of what a visit leaves are what the visits of the parts leave. -/
theorem visit_parts {t : Subtree} (h : (v.visit t).failure = none) :
    (v.visit t).value.parts = (v.hook t).value.parts.map fun part => (v.visit part).value := by
  rw [v.visit_value h, Subtree.parts_mapParts]
  exact List.map_congr_left fun part _ => v.results_apply part

/-- What holds of every node that a visit puts in the place of another holds everywhere in what a
visit leaves. -/
theorem visit_everywhere {P : Subtree → Prop}
    (h_node : ∀ t, (v.visit t).failure = none → P (v.visit t).value) {t : Subtree}
    (h : (v.visit t).failure = none) : (v.visit t).value.Everywhere P := by
  induction t using v.visit_induction with
  | step t ih =>
    -- what a visit leaves is a node for which `h_node` speaks, and below it what visits of parts
    -- leave
    rw [Subtree.everywhere_iff, v.visit_parts h]
    refine ⟨h_node t h, ?_⟩
    intro part' h_part'
    obtain ⟨part, h_part, rfl⟩ := List.mem_map.1 h_part'
    exact ih part h_part ((v.visit_failure_eq_none.1 h).2 part h_part)

/-! ### Programs -/

/-- A walk over a program visits its statements. -/
theorem walkProgram_ending (p : Program) :
    (v.walkProgram p).ending = v.visitAll (p.body.map .statement) := by
  rw [walkProgram, Visit.ending_map, visitStatements_ending]

theorem visitProgram_ending (p : Program) :
    (v.visitProgram p).ending =
      (v.program p).ending.followedBy (v.visitAll ((v.program p).value.body.map .statement)) := by
  rw [visitProgram, Visit.ending_followedBy, walkProgram_ending]

/-- A run succeeds exactly if the hook and the visits of all statements do. -/
theorem visitProgram_failure_eq_none {p : Program} :
    (v.visitProgram p).failure = none ↔ (v.program p).failure = none ∧
      ∀ t ∈ (v.program p).value.body.map .statement, (v.visit t).failure = none := by
  rw [← Visit.ending_failure, visitProgram_ending, Visit.followedBy_failure, Option.or_eq_none_iff,
    visitAll_failure_eq_none, Visit.ending_failure]

/-- What a run that succeeds leaves of a program. -/
theorem visitProgram_value {p : Program} (h : (v.visitProgram p).failure = none) :
    (v.visitProgram p).value =
      ⟨(v.program p).value.body.map v.results.statement, (v.program p).value.span⟩ := by
  obtain ⟨h_hook, h_body⟩ := v.visitProgram_failure_eq_none.1 h
  rw [visitProgram, Visit.followedBy_of_failure_none h_hook]
  -- the hook for programs is done, and what is left is the walk over what it has left
  show (v.walkProgram _).value = _
  rw [walkProgram, Visit.map_value, v.visitStatements_value h_body]

/-- What a run that succeeds notes. -/
theorem visitProgram_notes {p : Program} (h : (v.visitProgram p).failure = none) :
    (v.visitProgram p).notes = (v.program p).notes ++
      ((v.program p).value.body.map .statement).flatMap fun t => (v.visit t).notes := by
  obtain ⟨h_hook, h_body⟩ := v.visitProgram_failure_eq_none.1 h
  rw [visitProgram, Visit.followedBy_of_failure_none h_hook, ← v.visitAll_notes h_body,
    ← walkProgram_ending]
  rfl

/-! ### From hooks to runs -/

section Chains

variable {v} {P : Visit ν ε Unit → Prop} (hP : Visit.Chains P)

include hP

/-- A property of endings that going on preserves holds of visits in a row. -/
theorem visitAll_chains {ts : List Subtree} (h : ∀ t ∈ ts, P (v.visit t).ending) :
    P (v.visitAll ts) := by
  induction ts with
  | nil => exact hP.nothing
  | cons t ts ih =>
    rw [List.forall_mem_cons] at h
    exact hP.followedBy h.1 (ih h.2)

/-- A property of endings that all hooks have, and that going on preserves, holds of every visit. -/
theorem visit_chains (h_hook : ∀ t, P (v.hook t).ending) (t : Subtree) : P (v.visit t).ending := by
  induction t using v.visit_induction with
  | step t ih =>
    -- a visit is the hook and then the visits of parts, for which the induction hypothesis speaks
    rw [visit_ending]
    exact hP.followedBy (h_hook t) (visitAll_chains hP ih)

/-- What all hooks end with, and what going on preserves, a run ends with, whether it fails or
not. -/
theorem visitProgram_chains {p : Program} (h_program : P (v.program p).ending)
    (h_hook : ∀ t, P (v.hook t).ending) : P (v.visitProgram p).ending := by
  rw [visitProgram_ending]
  exact hP.followedBy h_program (visitAll_chains hP fun t _ => visit_chains hP h_hook t)

end Chains

end Visitor

end AsyncMarkers
