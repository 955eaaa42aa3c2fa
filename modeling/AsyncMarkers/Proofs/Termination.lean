import AsyncMarkers.Proofs.Settle

/-!
# The walk ends

The walk goes on into nodes that rules have made, and every rewrite makes more nodes than it takes
away, so it is not for its shape that the recursion ends. Here the walk is written down once more
without any reason to end: as a program in a monad (`Fueled`) that notes what it does, may fail, and
gives up when it has spent its fuel. A unit of fuel goes for each node that is come to, and for each
round of the replacement loop (`Engine.settleWithin`, `Engine.visitWithin`, `Engine.runWithin`).

With enough fuel it does not give up, and does what the walk does (`Engine.runWithin_eq`). How much
is enough is told by the load of the program, for every list of rules and whatever has been noted
before. It does not depend on how often a call may be replaced: the load goes down with every
replacement (`Engine.applyTo_load_lt`), so the loop ends by itself, and the limit only makes it end
earlier.
-/

namespace AsyncMarkers

/-! ### Computations with fuel -/

/-- What comes of a visit. -/
def Visit.outcome {ν ε α : Type} (v : Visit ν ε α) : Except ε α :=
  match v.failure with
  | some d => .error d
  | none => .ok v.value

/-- Computations that note something, may fail, and may give up for lack of fuel. -/
abbrev Fueled (ν ε : Type) : Type → Type := ExceptT ε (StateT (List ν) Option)

namespace Fueled

variable {ν ε α β γ : Type}

/-- There is no fuel left. -/
def giveUp : Fueled ν ε α := fun _ => none

/-- Does what a visit has done, behind what has been noted before. -/
def ofVisit (v : Visit ν ε α) : Fueled ν ε α := fun notes => some (v.outcome, notes ++ v.notes)

/-- A visit that has not failed is followed by what it has left. -/
theorem ofVisit_of_failure_none {v : Visit ν ε α} (h : v.failure = none) (notes : List ν) :
    ofVisit v notes = some (.ok v.value, notes ++ v.notes) := by
  rw [ofVisit, Visit.outcome, h]

/-- A visit that has failed is over. -/
theorem ofVisit_of_failure_some {v : Visit ν ε α} {d : ε} (h : v.failure = some d)
    (notes : List ν) :
    ofVisit v notes = some (.error d, notes ++ v.notes) := by
  rw [ofVisit, Visit.outcome, h]

/-- What comes after a visit goes on from its value and its notes. -/
theorem bind_of_failure_none {v : Visit ν ε α} (h : v.failure = none) (k : α → Fueled ν ε β)
    (notes : List ν) : (ofVisit v >>= k) notes = k v.value (notes ++ v.notes) := by
  simp only [bind, ExceptT.bind, ExceptT.mk, StateT.bind, ofVisit_of_failure_none h, Option.bind]
  rfl

/-- It is left out if the visit has failed. -/
theorem bind_of_failure_some {v : Visit ν ε α} {d : ε} (h : v.failure = some d)
    (k : α → Fueled ν ε β) (notes : List ν) :
    (ofVisit v >>= k) notes = some (.error d, notes ++ v.notes) := by
  simp only [bind, ExceptT.bind, ExceptT.mk, StateT.bind, ofVisit_of_failure_some h, Option.bind]
  rfl

/-- To do nothing is a visit without notes. -/
theorem ofVisit_pure (a : α) : (pure a : Fueled ν ε α) = ofVisit ⟨a, [], none⟩ := by
  funext notes
  rw [ofVisit_of_failure_none rfl, List.append_nil]
  rfl

/-- A visit that has succeeded, and what is done then. -/
theorem ofVisit_bind {v : Visit ν ε α} {w : Visit ν ε β} {k : α → Fueled ν ε β}
    (h_failure : v.failure = none) (h : k v.value = ofVisit w) :
    ofVisit v >>= k = ofVisit ⟨w.value, v.notes ++ w.notes, w.failure⟩ := by
  funext notes
  rw [bind_of_failure_none h_failure, h, ofVisit, ofVisit, List.append_assoc]
  rfl

/-- A visit that has succeeded, with nothing to do then. -/
theorem ofVisit_bind_done {v : Visit ν ε α} {b : β} {k : α → Fueled ν ε β}
    (h_failure : v.failure = none) (h : k v.value = pure b) :
    ofVisit v >>= k = ofVisit ⟨b, v.notes, none⟩ := by
  rw [ofVisit_bind h_failure (h.trans (ofVisit_pure b)), List.append_nil]

/-- Nothing is done after a visit that has failed. -/
theorem ofVisit_bind_failure {v : Visit ν ε α} {d : ε} (h_failure : v.failure = some d)
    (k : α → Fueled ν ε β) (left : β) : ofVisit v >>= k = ofVisit ⟨left, v.notes, some d⟩ := by
  funext notes
  rw [bind_of_failure_some h_failure]
  rfl

/-- A visit followed by another one. -/
theorem ofVisit_followedBy {v w : Visit ν ε α} {k : α → Fueled ν ε α} (h : k v.value = ofVisit w) :
    ofVisit v >>= k = ofVisit (v.followedBy w) := by
  cases h_failure : v.failure with
  | some d =>
    have h_stays : v.followedBy w = v := by rw [Visit.followedBy, h_failure]
    rw [ofVisit_bind_failure h_failure k v.value, ← h_failure, h_stays]
  | none => rw [ofVisit_bind h_failure h, Visit.followedBy, h_failure]

/-- What is left in a place changed. -/
theorem ofVisit_map (f : α → β) (v : Visit ν ε α) :
    f <$> ofVisit v = ofVisit (v.map f) := by
  rw [map_eq_pure_bind]
  funext notes
  cases h_failure : v.failure with
  | some d =>
    rw [bind_of_failure_some h_failure, ofVisit_of_failure_some (v := v.map f) h_failure]
    rfl
  | none =>
    rw [bind_of_failure_none h_failure, ofVisit_of_failure_none (v := v.map f) h_failure]
    rfl

/-- The same, with what is left put together in a step of its own. -/
theorem ofVisit_bind_pure (v : Visit ν ε α) (f : α → β) :
    (ofVisit v >>= fun a => pure (f a)) = ofVisit (v.map f) := by
  rw [bind_pure_comp, ofVisit_map]

/-- A visit of one place and then of a second one. -/
theorem ofVisit_also (v : Visit ν ε α) (untouched : β) (w : Visit ν ε β)
    (k : α → β → Fueled ν ε γ) :
    (ofVisit v >>= fun a => ofVisit w >>= fun b => k a b) =
      ofVisit (v.also untouched w) >>= fun both => k both.1 both.2 := by
  funext notes
  cases h_first : v.failure with
  | some d =>
    -- the second place is not come to
    have h_both : (v.also untouched w).failure = some d := by rw [Visit.also, h_first]
    rw [bind_of_failure_some h_first, bind_of_failure_some h_both, Visit.also, h_first]
  | none =>
    rw [bind_of_failure_none h_first]
    cases h_second : w.failure with
    | some d =>
      have h_both : (v.also untouched w).failure = some d := by rw [Visit.also, h_first, h_second]
      rw [bind_of_failure_some h_second, bind_of_failure_some h_both, Visit.also, h_first,
        List.append_assoc]
    | none =>
      have h_both : (v.also untouched w).failure = none := by rw [Visit.also, h_first, h_second]
      rw [bind_of_failure_none h_second, bind_of_failure_none h_both, Visit.also, h_first,
        List.append_assoc]

/-- Two places whose visits make up one node. -/
theorem ofVisit_pair (v : Visit ν ε α) (untouched : β) (w : Visit ν ε β) (f : α → β → γ) :
    (ofVisit v >>= fun a => ofVisit w >>= fun b => pure (f a b)) =
      ofVisit ((v.also untouched w).map fun both => f both.1 both.2) := by
  rw [ofVisit_also v untouched, ofVisit_bind_pure]

/-- Three places whose visits make up one node. -/
theorem ofVisit_triple {δ : Type} (v : Visit ν ε α) (w : Visit ν ε β) (x : Visit ν ε γ)
    (untouched : β) (untouched' : γ) (f : α → β → γ → δ) :
    (ofVisit v >>= fun a => ofVisit w >>= fun b => ofVisit x >>= fun c => pure (f a b c)) =
      ofVisit ((v.also (untouched, untouched') (w.also untouched' x)).map
        fun all => f all.1 all.2.1 all.2.2) := by
  -- the second and the third place count as one, which is visited after the first
  have h_later (a : α) : (ofVisit w >>= fun b => ofVisit x >>= fun c => pure (f a b c)) =
      ofVisit (w.also untouched' x) >>= fun both => pure (f a both.1 both.2) :=
    ofVisit_also w untouched' x fun b c => pure (f a b c)
  simp only [h_later]
  exact ofVisit_pair v (untouched, untouched') (w.also untouched' x) fun a both => f a both.1 both.2

/-- The places of a list, one after another. -/
theorem ofVisit_mapM {action : α → Fueled ν ε α} {visit : α → Visit ν ε α}
    {visits : List α → Visit ν ε (List α)} (h_nil : visits [] = ⟨[], [], none⟩)
    (h_cons : ∀ a as, visits (a :: as) =
      ((visit a).also as (visits as)).map fun both => both.1 :: both.2)
    {as : List α} (h : ∀ a ∈ as, action a = ofVisit (visit a)) :
    as.mapM action = ofVisit (visits as) := by
  induction as with
  | nil => rw [List.mapM_nil, ofVisit_pure, h_nil]
  | cons a as ih =>
    rw [List.forall_mem_cons] at h
    rw [List.mapM_cons, h.1, ih h.2, h_cons]
    exact ofVisit_pair (visit a) as (visits as) List.cons

/-- A place that may be empty. -/
theorem ofVisit_optional {action : α → Fueled ν ε α} {visit : α → Visit ν ε α}
    {visits : Option α → Visit ν ε (Option α)} (h_none : visits none = ⟨none, [], none⟩)
    (h_some : ∀ a, visits (some a) = (visit a).map some)
    {place : Option α} (h : ∀ a ∈ place, action a = ofVisit (visit a)) :
    place.mapM action = ofVisit (visits place) := by
  cases place with
  | none => rw [h_none, ← ofVisit_pure]; rfl
  | some a =>
    rw [h_some, ← ofVisit_map, ← h a rfl]
    rfl

end Fueled

/-! ### Traversals -/

/-- What is to be done with the nodes of each kind. -/
structure NodeAction (m : Type → Type) where
  statement : Statement → m Statement
  function : Function → m Function
  expression : Expression → m Expression

section Traverse

variable {m : Type → Type} [Monad m] (action : NodeAction m)

/-- Does something with the expressions in a property. -/
def Property.traverse : Property → m Property
  | .named key value => return .named key (← action.expression value)
  | .literal key value => return .literal key (← action.expression value)
  | .computed key value => return .computed (← action.expression key) (← action.expression value)

/-- Does something with the value of a variable. -/
def Declarator.traverse : Declarator → m Declarator
  | .mk id init => return .mk id (← init.mapM action.expression)

/-- Does something with the parts of an expression, from left to right. -/
def Expression.traverse : Expression → m Expression
  | .identifier s id => return .identifier s id
  | .literal s value => return .literal s value
  | .this s => return .this s
  | .array s elements => return .array s (← elements.mapM (·.mapM action.expression))
  | .object s properties => return .object s (← properties.mapM (·.traverse action))
  | .function s f => return .function s (← action.function f)
  | .arrow s f => return .arrow s (← action.function f)
  | .unary s op argument => return .unary s op (← action.expression argument)
  | .binary s op left right =>
    return .binary s op (← action.expression left) (← action.expression right)
  | .logical s op left right =>
    return .logical s op (← action.expression left) (← action.expression right)
  | .assignment s op target value =>
    return .assignment s op (← action.expression target) (← action.expression value)
  | .conditional s test consequent alternate =>
    return .conditional s (← action.expression test) (← action.expression consequent)
      (← action.expression alternate)
  | .member s base property => return .member s (← action.expression base) property
  | .index s base property =>
    return .index s (← action.expression base) (← action.expression property)
  | .call s callee arguments =>
    return .call s (← action.expression callee) (← arguments.mapM action.expression)
  | .construct s callee arguments =>
    return .construct s (← action.expression callee) (← arguments.mapM action.expression)
  | .sequence s items => return .sequence s (← items.mapM action.expression)
  | .spread s argument => return .spread s (← action.expression argument)

/-- Does something with the parts of a function. -/
def Function.traverse : Function → m Function
  | .block head statements => return .block head (← statements.mapM action.statement)
  | .value head result => return .value head (← action.expression result)

/-- Does something with the parts of a statement, from left to right. -/
def Statement.traverse : Statement → m Statement
  | .expression i e => return .expression i (← action.expression e)
  | .variables i kind declarators =>
    return .variables i kind (← declarators.mapM (·.traverse action))
  | .function i f => return .function i (← action.function f)
  | .return i result => return .return i (← result.mapM action.expression)
  | .ifElse i test consequent alternate =>
    return .ifElse i (← action.expression test) (← action.statement consequent)
      (← alternate.mapM action.statement)
  | .while i test body => return .while i (← action.expression test) (← action.statement body)
  | .block i statements => return .block i (← statements.mapM action.statement)
  | .throw i thrown => return .throw i (← action.expression thrown)
  | .empty i => return .empty i

end Traverse

/-! ### Traversals and walks -/

section Agreement

open Fueled

variable {ν ε : Type} {action : NodeAction (Fueled ν ε)} {v : Visitor ν ε}

/-- Whether an action does with a node what a visit does. -/
def NodeAction.Agrees (action : NodeAction (Fueled ν ε)) (v : Visitor ν ε) : Subtree → Prop
  | .statement s => action.statement s = ofVisit (v.visitStatement s)
  | .function f => action.function f = ofVisit (v.visitFunction f)
  | .expression e => action.expression e = ofVisit (v.visitExpression e)

/-- If the action agrees on each expression of a list, it agrees on the list. -/
theorem mapM_expressions {es : List Expression}
    (h : ∀ e ∈ es, action.Agrees v (.expression e)) :
    es.mapM action.expression = ofVisit (v.visitExpressions es) :=
  ofVisit_mapM (by rw [Visitor.visitExpressions]) (fun e es => by rw [Visitor.visitExpressions]) h

/-- So it does for statements. -/
theorem mapM_statements {ss : List Statement} (h : ∀ s ∈ ss, action.Agrees v (.statement s)) :
    ss.mapM action.statement = ofVisit (v.visitStatements ss) :=
  ofVisit_mapM (by rw [Visitor.visitStatements]) (fun s ss => by rw [Visitor.visitStatements]) h

/-- An expression that may be absent. -/
theorem mapM_optional {e : Option Expression}
    (h : ∀ part ∈ optionalParts e, action.Agrees v part) :
    e.mapM action.expression = ofVisit (v.visitOptional e) := by
  refine ofVisit_optional (by rw [Visitor.visitOptional])
    (fun e => by rw [Visitor.visitOptional]) ?_
  rintro e rfl
  exact h _ (.head _)

/-- A branch that may be absent. -/
theorem mapM_branch {s : Option Statement} (h : ∀ part ∈ branchParts s, action.Agrees v part) :
    s.mapM action.statement = ofVisit (v.visitBranch s) := by
  refine ofVisit_optional (by rw [Visitor.visitBranch]) (fun s => by rw [Visitor.visitBranch]) ?_
  rintro s rfl
  exact h _ (.head _)

/-- The elements of an array. -/
theorem mapM_elements {es : List (Option Expression)}
    (h : ∀ part ∈ es.flatMap optionalParts, action.Agrees v part) :
    es.mapM (·.mapM action.expression) = ofVisit (v.visitElements es) := by
  refine ofVisit_mapM (by rw [Visitor.visitElements]) (fun e es => by rw [Visitor.visitElements]) ?_
  intro e he
  exact mapM_optional fun part h_part => h part (List.mem_flatMap.2 ⟨e, he, h_part⟩)

/-- The expressions in a property. -/
theorem traverse_property {p : Property} (h : ∀ part ∈ p.parts, action.Agrees v part) :
    p.traverse action = ofVisit (v.visitProperty p) := by
  cases p with
  | named key value =>
    have h_value : action.expression value = _ := h (.expression value) (.head _)
    rw [Property.traverse, Visitor.visitProperty, h_value, ofVisit_bind_pure]
  | literal key value =>
    have h_value : action.expression value = _ := h (.expression value) (.head _)
    rw [Property.traverse, Visitor.visitProperty, h_value, ofVisit_bind_pure]
  | computed key value =>
    have h_key : action.expression key = _ := h (.expression key) (.head _)
    have h_value : action.expression value = _ := h (.expression value) (.tail _ (.head _))
    rw [Property.traverse, Visitor.visitProperty, h_key, h_value]
    exact ofVisit_pair _ _ _ Property.computed

/-- The properties of an object. -/
theorem mapM_properties {ps : List Property}
    (h : ∀ part ∈ ps.flatMap Property.parts, action.Agrees v part) :
    ps.mapM (·.traverse action) = ofVisit (v.visitProperties ps) := by
  refine ofVisit_mapM (by rw [Visitor.visitProperties])
    (fun p ps => by rw [Visitor.visitProperties]) ?_
  intro p hp
  exact traverse_property fun part h_part => h part (List.mem_flatMap.2 ⟨p, hp, h_part⟩)

/-- The values of variables. -/
theorem mapM_declarators {ds : List Declarator}
    (h : ∀ part ∈ ds.flatMap Declarator.parts, action.Agrees v part) :
    ds.mapM (·.traverse action) = ofVisit (v.visitDeclarators ds) := by
  refine ofVisit_mapM (by rw [Visitor.visitDeclarators])
    (fun d ds => by rw [Visitor.visitDeclarators]) ?_
  intro d hd
  obtain ⟨id, init⟩ := d
  have h_init : init.mapM action.expression = ofVisit (v.visitOptional init) :=
    mapM_optional fun part h_part => h part (List.mem_flatMap.2 ⟨_, hd, h_part⟩)
  rw [Declarator.traverse, Visitor.visitDeclarator, h_init, ofVisit_bind_pure]

/-- A traversal with an action that does what visits do is a walk. -/
theorem traverse_expression {e : Expression} (h : ∀ part ∈ e.parts, action.Agrees v part) :
    e.traverse action = ofVisit (v.walkExpression e) := by
  -- cases with parts of the same kinds are taken together
  cases e with
  | identifier _ _ | literal _ _ | this _ =>
    rw [Expression.traverse, Visitor.walkExpression, ofVisit_pure]
  | array s elements =>
    rw [Expression.traverse, Visitor.walkExpression, mapM_elements h, ofVisit_bind_pure]
  | object s properties =>
    rw [Expression.traverse, Visitor.walkExpression, mapM_properties h, ofVisit_bind_pure]
  | function s f | arrow s f =>
    have h_function : action.function f = _ := h (.function f) (.head _)
    rw [Expression.traverse, Visitor.walkExpression, h_function, ofVisit_bind_pure]
  | unary _ _ e | member _ e _ | spread _ e =>
    have h_single : action.expression e = _ := h (.expression e) (.head _)
    rw [Expression.traverse, Visitor.walkExpression, h_single, ofVisit_bind_pure]
  | binary _ _ e e' | logical _ _ e e' | assignment _ _ e e' | index _ e e' =>
    have h_first : action.expression e = _ := h (.expression e) (.head _)
    have h_second : action.expression e' = _ := h (.expression e') (.tail _ (.head _))
    rw [Expression.traverse, Visitor.walkExpression, h_first, h_second]
    exact ofVisit_pair _ _ _ _
  | conditional s test consequent alternate =>
    have h_test : action.expression test = _ := h (.expression test) (.head _)
    have h_consequent : action.expression consequent = _ :=
      h (.expression consequent) (.tail _ (.head _))
    have h_alternate : action.expression alternate = _ :=
      h (.expression alternate) (.tail _ (.tail _ (.head _)))
    rw [Expression.traverse, Visitor.walkExpression, h_test, h_consequent, h_alternate]
    exact ofVisit_triple _ _ _ _ _ (Expression.conditional s)
  | call _ callee arguments | construct _ callee arguments =>
    have h_callee : action.expression callee = _ := h (.expression callee) (.head _)
    have h_arguments : arguments.mapM action.expression = _ :=
      mapM_expressions fun e he => h (.expression e) (.tail _ (List.mem_map_of_mem he))
    rw [Expression.traverse, Visitor.walkExpression, h_callee, h_arguments]
    exact ofVisit_pair _ _ _ _
  | sequence s items =>
    have h_items : items.mapM action.expression = _ :=
      mapM_expressions fun e he => h (.expression e) (List.mem_map_of_mem he)
    rw [Expression.traverse, Visitor.walkExpression, h_items, ofVisit_bind_pure]

/-- So is a traversal of a function. -/
theorem traverse_function {f : Function} (h : ∀ part ∈ f.parts, action.Agrees v part) :
    f.traverse action = ofVisit (v.walkFunction f) := by
  cases f with
  | block head statements =>
    have h_statements : statements.mapM action.statement = _ :=
      mapM_statements fun s hs => h (.statement s) (List.mem_map_of_mem hs)
    rw [Function.traverse, Visitor.walkFunction, h_statements, ofVisit_bind_pure]
  | value head result =>
    have h_result : action.expression result = _ := h (.expression result) (.head _)
    rw [Function.traverse, Visitor.walkFunction, h_result, ofVisit_bind_pure]

/-- So is a traversal of a statement. -/
theorem traverse_statement {s : Statement} (h : ∀ part ∈ s.parts, action.Agrees v part) :
    s.traverse action = ofVisit (v.walkStatement s) := by
  cases s with
  | expression i e | throw i e =>
    have h_single : action.expression e = _ := h (.expression e) (.head _)
    rw [Statement.traverse, Visitor.walkStatement, h_single, ofVisit_bind_pure]
  | «variables» i kind declarators =>
    rw [Statement.traverse, Visitor.walkStatement, mapM_declarators h, ofVisit_bind_pure]
  | function i f =>
    have h_function : action.function f = _ := h (.function f) (.head _)
    rw [Statement.traverse, Visitor.walkStatement, h_function, ofVisit_bind_pure]
  | «return» i result =>
    rw [Statement.traverse, Visitor.walkStatement, mapM_optional h, ofVisit_bind_pure]
  | ifElse i test consequent alternate =>
    have h_test : action.expression test = _ := h (.expression test) (.head _)
    have h_consequent : action.statement consequent = _ :=
      h (.statement consequent) (.tail _ (.head _))
    have h_alternate : alternate.mapM action.statement = _ :=
      mapM_branch fun part h_part => h part (.tail _ (.tail _ h_part))
    rw [Statement.traverse, Visitor.walkStatement, h_test, h_consequent, h_alternate]
    exact ofVisit_triple _ _ _ _ _ (Statement.ifElse i)
  | «while» i test body =>
    have h_test : action.expression test = _ := h (.expression test) (.head _)
    have h_body : action.statement body = _ := h (.statement body) (.tail _ (.head _))
    rw [Statement.traverse, Visitor.walkStatement, h_test, h_body]
    exact ofVisit_pair _ _ _ _
  | block i statements =>
    have h_statements : statements.mapM action.statement = _ :=
      mapM_statements fun s hs => h (.statement s) (List.mem_map_of_mem hs)
    rw [Statement.traverse, Visitor.walkStatement, h_statements, ofVisit_bind_pure]
  | empty i => rw [Statement.traverse, Visitor.walkStatement, ofVisit_pure]

end Agreement

/-! ### The walk with fuel -/

/-- Replacing a call lowers its load: the marker that is taken out weighs more than the calls that
are put around. -/
theorem Context.transformCall_load_lt {ctx : Context} {e : Expression} {change : Change Expression}
    (h : ctx.transformCall e = .ok change) (h_replaced : change.outcome = .replaced) :
    change.node.load ctx.cost < e.load ctx.cost := by
  cases e with
  | call span callee arguments =>
    rcases transformCall_cases h with ⟨-, -, h_outcome, -⟩ | ⟨s, h_sub, h_node, -, -⟩
    · exact absurd h_replaced h_outcome
    · -- the callee may have been adapted, which costs no more than the marker weighs
      have h_callee : (ctx.adaptCallee callee).load ctx.cost ≤ callee.load ctx.cost + 3 := by
        refine Nat.le_trans (ctx.load_adaptCallee_le callee) (Nat.add_le_add_left ?_ _)
        split <;> decide
      have h_rest := load_rest_add_le h_sub
      have h_new := ctx.load_substitute_le span (ctx.adaptCallee callee) arguments s
      rw [h_node, Expression.load]
      omega
  | _ =>
    cases h
    cases h_replaced

/-- A rule that replaces a node lowers its load. -/
theorem Rule.transform_load_lt {ctx : Context} {rule : Rule} {kind : NodeKind} {node : kind.Node}
    {change : Change kind.Node} (h : rule.transform ctx kind node = .ok change)
    (h_replaced : change.outcome = .replaced) :
    kind.load ctx.cost change.node < kind.load ctx.cost node := by
  unfold Rule.transform at h
  -- the rule for calls is the only one that replaces nodes
  split at h
  · cases h
    cases h_replaced
  · cases h
    unfold Context.complete at h_replaced
    split at h_replaced
    · cases h_replaced
    · split at h_replaced <;> cases h_replaced
  · exact Context.transformCall_load_lt h h_replaced
  · cases h
  · cases h
    cases h_replaced
  · cases h
    cases h_replaced

/-- A node has been replaced if it has been by one of two rules. -/
theorem Outcome.max_eq_replaced {a b : Outcome} :
    a.max b = .replaced ↔ a = .replaced ∨ b = .replaced := by
  cases a <;> cases b <;> decide

namespace Engine

/-- Rules that replace a node lower its load. -/
theorem apply_load_lt (ctx : Context) (kind : NodeKind) (rules : List Rule) (node : kind.Node)
    (h : (apply ctx kind rules node).value.2 = .replaced) :
    kind.load ctx.cost (apply ctx kind rules node).value.1 < kind.load ctx.cost node := by
  induction rules generalizing node with
  | nil => cases h
  | cons rule rules ih =>
    unfold apply at h ⊢
    by_cases h_applies : rule.applies ctx kind node = true
    · rw [if_pos h_applies] at h ⊢
      cases h_change : rule.transform ctx kind node with
      | error d =>
        rw [h_change] at h
        cases h
      | ok change =>
        simp only [h_change] at h ⊢
        by_cases h_replaced : change.outcome = .replaced
        · rw [if_pos h_replaced] at h ⊢
          exact Rule.transform_load_lt h_change h_replaced
        · -- it is a later rule that has replaced the node
          rw [if_neg h_replaced] at h ⊢
          have h_later : (apply ctx kind rules change.node).value.2 = .replaced :=
            (Outcome.max_eq_replaced.1 h).resolve_left h_replaced
          exact Nat.lt_of_lt_of_le (ih change.node h_later) (Rule.transform_load h_change)
    · rw [if_neg h_applies] at h ⊢
      exact ih node h

/-- An expression that is replaced has a smaller load afterwards. -/
theorem applyTo_load_lt (g : Engine) (e : Expression) (h : (g.applyTo e).value.2 = .replaced) :
    (g.applyTo e).value.1.load g.context.cost < e.load g.context.cost := by
  cases e with
  | call s callee arguments => exact apply_load_lt g.context .call g.rules _ h
  | construct s callee arguments => exact apply_load_lt g.context .construction g.rules _ h
  | _ => cases h

/-- Offers an expression to the rules until none replaces it, or it has been replaced as often as
allowed. It has been replaced `replacements` times so far. -/
def settleWithin (g : Engine) : Nat → Nat → Expression → Fueled Record Diagnostic Expression
  | 0, _, _ => Fueled.giveUp
  | fuel + 1, replacements, e => do
    let applied ← Fueled.ofVisit (g.applyTo e)
    let now := applied.1
    if applied.2 ≠ .replaced then
      return now
    else if g.limit ≤ replacements + 1 then
      if g.context.isPending now then
        Fueled.ofVisit ⟨now, [.stopped (g.limitReached now)], some (g.limitReached now)⟩
      else
        return now
    else
      g.settleWithin fuel (replacements + 1) now

/-- Offers a node to the rules and goes on to the parts of what they have left. -/
def visitWithin (g : Engine) : Nat → NodeAction (Fueled Record Diagnostic)
  | 0 => ⟨fun _ => Fueled.giveUp, fun _ => Fueled.giveUp, fun _ => Fueled.giveUp⟩
  | fuel + 1 =>
    { statement := fun s => s.traverse (g.visitWithin fuel)
      function := fun f => do
        let now ← Fueled.ofVisit ((apply g.context .function g.rules f).map Prod.fst)
        Function.traverse (g.visitWithin fuel) now
      expression := fun e => do
        let now ← g.settleWithin fuel 0 e
        now.traverse (g.visitWithin fuel) }

/-- Applies the rules to a program. -/
def runWithin (g : Engine) (fuel : Nat) (p : Program) : Fueled Record Diagnostic Program := do
  let now ← Fueled.ofVisit ((apply g.context .program g.rules p).map Prod.fst)
  let body ← (Program.body now).mapM (g.visitWithin fuel).statement
  return ⟨body, Program.span now⟩

variable (g : Engine)

/-- With as much fuel as the load of the expression, the loop ends as it should. One loop counts the
replacements up to the limit, the other counts down those that are left; at least one is always
allowed. -/
theorem settleWithin_eq {fuel replacements left : Nat} {e : Expression}
    (h_fuel : e.load g.context.cost ≤ fuel) (h_left : replacements + left = max 1 g.limit)
    (h_pos : 0 < left) :
    g.settleWithin fuel replacements e = Fueled.ofVisit (g.settle left e) := by
  induction fuel generalizing replacements left e with
  | zero =>
    -- no expression is without a load
    have h_load := Expression.load_pos g.context.cost e
    omega
  | succ fuel ih =>
    obtain ⟨later, rfl⟩ : ∃ later, left = later + 1 := ⟨left - 1, by omega⟩
    -- both loops offer the expression once, and then look at what has come of it
    unfold settleWithin settle
    cases h_failure : (g.applyTo e).failure with
    | some d =>
      rw [Fueled.ofVisit_bind_failure h_failure _ (g.applyTo e).value.1]
      simp only [h_failure, Option.isSome_some, Bool.true_or, if_true]
    | none =>
      simp only [h_failure, Option.isSome_none, Bool.false_or, decide_eq_true_eq]
      by_cases h_replaced : (g.applyTo e).value.2 = .replaced
      · rw [if_neg (not_not_intro h_replaced)]
        by_cases h_last : later = 0
        · -- this was the last replacement allowed
          have h_limit : g.limit ≤ replacements + 1 := by omega
          rw [if_pos h_last]
          by_cases h_pending : g.context.isPending (g.applyTo e).value.1 = true
          · rw [if_pos h_pending]
            refine Fueled.ofVisit_bind (w := ⟨_, [_], some _⟩) h_failure ?_
            rw [if_neg (not_not_intro h_replaced), if_pos h_limit, if_pos h_pending]
          · rw [if_neg h_pending]
            refine Fueled.ofVisit_bind_done h_failure ?_
            rw [if_neg (not_not_intro h_replaced), if_pos h_limit, if_neg h_pending]
        · -- the loop goes on with an expression of a smaller load
          have h_lt := g.applyTo_load_lt e h_replaced
          rw [if_neg h_last]
          refine Fueled.ofVisit_bind h_failure ?_
          rw [if_neg (not_not_intro h_replaced), if_neg (by omega)]
          exact ih (by omega) (by omega) (by omega)
      · rw [if_pos h_replaced]
        refine Fueled.ofVisit_bind_done h_failure ?_
        rw [if_pos h_replaced]

/-- With more fuel than the load of a node, the walk from there ends as it should. -/
theorem visitWithin_agrees {fuel : Nat} {t : Subtree} (h : t.load g.context.cost < fuel) :
    (g.visitWithin fuel).Agrees g.visitor t := by
  induction fuel generalizing t with
  | zero => exact absurd h (Nat.not_lt_zero _)
  | succ fuel ih =>
    -- what the rules leave may be a larger tree, but its load is not greater, and its parts have
    -- less
    have h_parts (t' : Subtree) (h_load : t'.load g.context.cost ≤ t.load g.context.cost) :
        ∀ part ∈ t'.parts, (g.visitWithin fuel).Agrees g.visitor part := by
      intro part h_part
      have h_lt := Subtree.load_lt_of_mem_parts g.context.cost h_part
      exact ih (by omega)
    cases t with
    | statement s =>
      show s.traverse (g.visitWithin fuel) = Fueled.ofVisit (g.visitor.visitStatement s)
      rw [traverse_statement (h_parts (.statement s) (Nat.le_refl _)), Visitor.visitStatement]
      rfl
    | function f =>
      rw [NodeAction.Agrees, Visitor.visitFunction]
      refine Fueled.ofVisit_followedBy (traverse_function ?_)
      exact h_parts (.function _) (g.visitor.function_load f)
    | expression e =>
      have h_loop : g.settleWithin fuel 0 e = Fueled.ofVisit (g.visitor.expression e) := by
        rw [Subtree.load_expression] at h
        exact g.settleWithin_eq (by omega) (by omega) (by omega)
      rw [NodeAction.Agrees, Visitor.visitExpression]
      show g.settleWithin fuel 0 e >>= _ = _
      rw [h_loop]
      refine Fueled.ofVisit_followedBy (traverse_expression ?_)
      exact h_parts (.expression _) (g.visitor.expression_load e)

/-- How much fuel a run spends at most, however often a call may be replaced: the load of the
program when it has its declaration. -/
def fuelBound (g : Engine) (p : Program) : Nat :=
  statementsLoad g.context.cost (Program.body (apply g.context .program g.rules p).value.1)

/-- A run with more fuel than its bound does not give up. It ends with a program or with the reason
for which it has stopped, and what it has noted stands behind what had been noted before; both are
those of the walk, so more fuel makes no difference. This holds for every configuration, list of
rules and limit. -/
theorem runWithin_eq {fuel : Nat} {p : Program} (h : g.fuelBound p < fuel) (history : History) :
    g.runWithin fuel p history = some ((g.run p).outcome, history ++ (g.run p).notes) := by
  let now := (g.visitor.program p).value
  -- the load of a statement is part of the load of the program
  have h_body : now.body.mapM (g.visitWithin fuel).statement =
      Fueled.ofVisit (g.visitor.visitStatements now.body) := by
    refine mapM_statements fun s hs => g.visitWithin_agrees (Nat.lt_of_le_of_lt ?_ h)
    rw [fuelBound, ← partsLoad_statements]
    exact load_le_partsLoad (List.mem_map_of_mem hs)
  have h_run : g.runWithin fuel p = Fueled.ofVisit (g.run p) := by
    refine Fueled.ofVisit_followedBy ?_
    show now.body.mapM (g.visitWithin fuel).statement >>= _ = _
    rw [h_body, Visitor.walkProgram]
    exact Fueled.ofVisit_bind_pure _ _
  rw [h_run]
  rfl

/-- Though a call in `function f(_) { return xs.map_(g(_, !_), _, _); }` may be replaced
18446744073709551615 times, the run is over with 500 units of fuel. -/
theorem runWithin_eq_high_limit :
    let g : Engine := ⟨⟨{}, {}⟩, Rule.all, 18446744073709551615⟩
    let name (n : String) : Expression := .identifier .synthetic ⟨n, false⟩
    let inner : Expression :=
      .call .synthetic (name "g") [name "_", .unary .synthetic .not (name "_")]
    let outer : Expression := .call .synthetic (.member .synthetic (name "xs") ⟨"map_", false⟩)
      [inner, name "_", name "_"]
    let f : Function := .block ⟨some ⟨"f", false⟩, [⟨"_", false⟩], .synthetic⟩
      [.return {} (some outer)]
    let p : Program := ⟨[.function {} f], .synthetic⟩
    let before : History := [.stopped (g.limitReached inner)]
    g.fuelBound p < 500 ∧
      g.runWithin 500 p before = some ((g.run p).outcome, before ++ (g.run p).notes) := by
  intro g name inner outer f p before
  have h_fuel : g.fuelBound p < 500 := by decide
  exact ⟨h_fuel, g.runWithin_eq h_fuel before⟩

end Engine

end AsyncMarkers
