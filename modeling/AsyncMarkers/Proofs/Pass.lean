import AsyncMarkers.Proofs.Settle

/-!
# A pass of the four rules over a tree

What the walk does with the rules of the transformation, put together from what its hooks do:

* **The program** gets its declaration, and then every statement is visited (`Engine.run_value`,
  `Engine.run_counts`).
* **The shape of an expression** survives its visit as far as the rules can see it. A call stays a
  call and a construction a construction (`Engine.results_offeredAs`), and an expression is a marker
  of some kind after the visit exactly if it was one of that kind before
  (`Engine.results_markerKind?`). So no argument list gets or loses markers because its arguments
  are visited.
* **Made-up nodes** that stand around user code are *plain* (`Context.Plain`): the nodes of the
  declaration, and those of the statement that completes a function. What finds nothing at plain
  nodes gathers the same from a tree before and after these are put there
  (`Context.gather_complete`, `Context.gather_declaredBody`), and a property that plain nodes have
  holds everywhere in the one tree exactly if it does in the other (`Context.everywhere_complete`,
  `Context.everywhere_declaredBody`).
-/

namespace AsyncMarkers

/-- What does not depend on the file is the same in contexts with the same configuration. -/
theorem Context.eq_of_config {α : Type} {f : Context → α}
    (h_file : ∀ file file' config, f ⟨file', config⟩ = f ⟨file, config⟩) {ctx ctx' : Context}
    (h : ctx'.config = ctx.config) : f ctx' = f ctx := by
  obtain ⟨file, config⟩ := ctx
  obtain ⟨file', config'⟩ := ctx'
  cases h
  exact h_file file file' config

/-! ### Counting over a visit -/

/-- Nothing is declared or substituted in a history if it is not in any piece of it. -/
theorem History.counts_flatMap_none {α : Type} {f : α → History} {as : List α}
    (h : ∀ a ∈ as, (counts (f a)).declarations = 0 ∧ (counts (f a)).calls = 0) :
    (counts (as.flatMap f)).declarations = 0 ∧ (counts (as.flatMap f)).calls = 0 := by
  induction as with
  -- the counts of a history are the sum over its pieces, so the induction is on these
  | nil => exact ⟨rfl, rfl⟩
  | cons a as ih =>
    obtain ⟨⟨h_declarations, h_calls⟩, h_rest⟩ := List.forall_mem_cons.1 h
    rw [List.flatMap_cons, counts_append]
    simp [h_declarations, h_calls, ih h_rest]

/-! ### The program -/

/-- The statements of a program, behind the declaration. -/
def Context.declaredBody (ctx : Context) (p : Program) : List Statement :=
  if ctx.isDeclared p then p.body else ctx.declareIn p.body

/-- What is counted for the declaration of a program. -/
def Context.declarationCount (ctx : Context) (p : Program) : Counts :=
  if ctx.isDeclared p then {} else { declarations := 1 }

namespace Engine

variable {g : Engine} (h_rules : g.rules = Rule.all)

include h_rules

/-- What the rules do with the program itself is to declare the binding, and that never fails. -/
theorem hook_program (p : Program) :
    (g.visitor.program p).value = ⟨g.context.declaredBody p, p.span⟩ ∧
      History.counts (g.visitor.program p).notes = g.context.declarationCount p ∧
      (g.visitor.program p).failure = none := by
  have h_hook : g.visitor.program p = (apply g.context .program Rule.all p).map Prod.fst := by
    rw [← h_rules]
    rfl
  rw [h_hook, apply_program, Context.declaredBody, Context.declarationCount]
  split
  · exact ⟨rfl, rfl, rfl⟩
  · exact ⟨rfl, Counts.add_zero _, rfl⟩

/-- A run succeeds exactly if the visits of all statements behind the declaration do. -/
theorem run_failure_eq_none {p : Program} :
    (g.run p).failure = none ↔
      ∀ s ∈ g.context.declaredBody p, (g.visitor.visit (.statement s)).failure = none := by
  obtain ⟨h_value, -, h_failure⟩ := hook_program h_rules p
  rw [run, Visitor.visitProgram_failure_eq_none, h_value, h_failure]
  simp only [true_and, List.forall_mem_map]

/-- What a run that succeeds leaves of a program. -/
theorem run_value {p : Program} (h : (g.run p).failure = none) :
    (g.run p).value = ⟨(g.context.declaredBody p).map g.visitor.results.statement, p.span⟩ := by
  obtain ⟨h_value, -⟩ := hook_program h_rules p
  rw [run, Visitor.visitProgram_value _ h, h_value]

/-- What a run that succeeds counts. -/
theorem run_counts {p : Program} (h : (g.run p).failure = none) :
    History.counts (g.run p).notes = g.context.declarationCount p +
      History.counts (((g.context.declaredBody p).map .statement).flatMap fun t =>
        (g.visitor.visit t).notes) := by
  obtain ⟨h_value, h_counts, -⟩ := hook_program h_rules p
  rw [run, Visitor.visitProgram_notes _ h, h_value, History.counts_append, h_counts]

/-- What holds of every node that a visit puts in the place of another holds of all nodes of the
program that a run leaves. -/
theorem run_listing {P : Subtree → Prop}
    (h_node : ∀ t, (g.visitor.visit t).failure = none → P (g.visitor.visit t).value) {p : Program}
    (h : (g.run p).failure = none) : ∀ n ∈ (g.run p).value.listing, P n := by
  rw [Program.forall_listing_iff, run_value h_rules h]
  -- the program itself is no node of the listing, so its statements are all there is to look at
  intro s' hs'
  obtain ⟨s, hs, rfl⟩ := List.mem_map.1 hs'
  exact g.visitor.visit_everywhere h_node ((run_failure_eq_none h_rules).1 h s hs)

end Engine

/-! ### The shape of expressions -/

/-- What kind of node an expression is offered as does not depend on its parts. -/
theorem Expression.offeredAs_mapParts (m : NodeMap) (e : Expression) :
    (e.mapParts m).offeredAs = e.offeredAs := by
  cases e <;> rfl

namespace Engine

variable {g : Engine}

/-- What a visit leaves of an expression is what the replacement loop has made of it, with its parts
visited. -/
theorem results_expression {e : Expression}
    (h : (g.visitor.visit (.expression e)).failure = none) :
    g.visitor.results.expression e =
      (g.settle (max 1 g.limit) e).value.mapParts g.visitor.results := by
  have h_value := g.visitor.visit_value h
  rw [← Visitor.results_apply] at h_value
  exact Subtree.expression.inj h_value

/-- The replacement loop has succeeded at an expression if its visit has. -/
theorem settle_failure_of_visit {e : Expression}
    (h : (g.visitor.visit (.expression e)).failure = none) :
    (g.settle (max 1 g.limit) e).failure = none :=
  (g.visitor.visit_failure_eq_none.1 h).1

/-- Only calls and constructions meet rules: of any other expression, just the parts are visited. -/
theorem results_of_not_offered {e : Expression} (h_shape : e.offeredAs = none)
    (h : (g.visitor.visit (.expression e)).failure = none) :
    g.visitor.results.expression e = e.mapParts g.visitor.results := by
  rw [results_expression h, settle_of_not_offered h_shape]

/-- The visits of the parts of an expression that is not offered to rules succeed if its own
does. -/
theorem visit_parts_of_not_offered {e : Expression} (h_shape : e.offeredAs = none)
    (h : (g.visitor.visit (.expression e)).failure = none) :
    ∀ part ∈ e.parts, (g.visitor.visit part).failure = none := by
  have h_parts := (g.visitor.visit_failure_eq_none.1 h).2
  rw [hook_expression, settle_of_not_offered h_shape] at h_parts
  exact h_parts

/-- The receiver of an array method is among what is visited with the callee. -/
theorem visit_arrayReceiver {callee receiver : Expression}
    (h_receiver : g.context.arrayReceiver? callee = some receiver)
    (h : (g.visitor.visit (.expression callee)).failure = none) :
    (g.visitor.visit (.expression receiver)).failure = none := by
  obtain ⟨s, property, rfl, -⟩ := Context.arrayReceiver?_eq_some.1 h_receiver
  exact visit_parts_of_not_offered rfl h _ (List.mem_singleton_self _)

section Rules

variable (h_rules : g.rules = Rule.all)

include h_rules

/-- What the replacement loop makes of an expression is offered to rules as the expression was. -/
theorem settle_offeredAs {left : Nat} {e : Expression} (h : (g.settle left e).failure = none) :
    (g.settle left e).value.offeredAs = e.offeredAs := by
  -- a change of the call rule leaves a call, so the shape is an invariant of the chain of changes
  refine Context.Steps.preserves ?_ (settle_steps h_rules h)
  intro span callee arguments change h_change
  obtain ⟨callee', arguments', h_node, -⟩ := Context.node_eq_call h_change
  rw [h_node]
  rfl

/-- A visit leaves a call where a call was, and a construction where a construction was. -/
theorem results_offeredAs {e : Expression} (h : (g.visitor.visit (.expression e)).failure = none) :
    (g.visitor.results.expression e).offeredAs = e.offeredAs := by
  rw [results_expression h, Expression.offeredAs_mapParts,
    settle_offeredAs h_rules (settle_failure_of_visit h)]

/-- To see that a visit does not change what is seen of an expression, only those that are not
offered to rules have to be looked at, if nothing is seen of calls and constructions. -/
theorem results_view {α : Type} (before after : Expression → α) (c : α)
    (h_call : ∀ s callee arguments,
      before (.call s callee arguments) = c ∧ after (.call s callee arguments) = c)
    (h_construct : ∀ s callee arguments,
      before (.construct s callee arguments) = c ∧ after (.construct s callee arguments) = c)
    {e : Expression} (h : (g.visitor.visit (.expression e)).failure = none)
    (h_other : e.offeredAs = none → (∀ part ∈ e.parts, (g.visitor.visit part).failure = none) →
      after (e.mapParts g.visitor.results) = before e) :
    after (g.visitor.results.expression e) = before e := by
  -- calls and constructions look alike to both views, before the visit and after it
  have h_offered {e : Expression} (he : e.offeredAs ≠ none) : before e = c ∧ after e = c := by
    cases e with
    | call s callee arguments => exact h_call s callee arguments
    | construct s callee arguments => exact h_construct s callee arguments
    | _ => exact absurd rfl he
  by_cases h_shape : e.offeredAs = none
  · rw [results_of_not_offered h_shape h]
    exact h_other h_shape (visit_parts_of_not_offered h_shape h)
  · -- a call stays a call under the visit and a construction a construction
    have h_after : (g.visitor.results.expression e).offeredAs ≠ none := by
      rw [results_offeredAs h_rules h]
      exact h_shape
    rw [(h_offered h_after).2, (h_offered h_shape).1]

/-- Visiting an expression makes no plain marker and takes none away. -/
theorem results_isPlainMarker {e : Expression}
    (h : (g.visitor.visit (.expression e)).failure = none) (marker : String) :
    (g.visitor.results.expression e).isPlainMarker marker = e.isPlainMarker marker := by
  refine results_view h_rules (·.isPlainMarker marker) (·.isPlainMarker marker) false
    (fun _ _ _ => ⟨rfl, rfl⟩) (fun _ _ _ => ⟨rfl, rfl⟩) h fun _ _ => ?_
  cases e <;> rfl

/-- Visiting an expression neither makes it a marker nor stops it from being one. -/
theorem results_markerKind? {e : Expression} (h : (g.visitor.visit (.expression e)).failure = none)
    (marker : String) :
    (g.visitor.results.expression e).markerKind? marker = e.markerKind? marker := by
  refine results_view h_rules (·.markerKind? marker) (·.markerKind? marker) none
    (fun _ _ _ => ⟨rfl, rfl⟩) (fun _ _ _ => ⟨rfl, rfl⟩) h fun _ h_parts => ?_
  -- two shapes have the marker one level down, where the visit comes by too
  cases e with
  | unary s op argument =>
    have h_argument := results_isPlainMarker h_rules (h_parts _ (List.mem_singleton_self _)) marker
    cases op <;> simp [Expression.mapParts, Expression.markerKind?, h_argument]
  | array s elements =>
    -- only an array with a single element that is not missing can be a marker
    rcases elements with _ | ⟨_ | element, _ | ⟨second, rest⟩⟩
    · rfl
    · rfl
    · simp [Expression.mapParts, Expression.markerKind?]
    · have h_element := results_isPlainMarker h_rules (h_parts _ (List.mem_singleton_self _)) marker
      simp [Expression.mapParts, Expression.markerKind?, h_element]
    · simp [Expression.mapParts, Expression.markerKind?]
  | _ => rfl

/-- An argument list has markers after the visit of its arguments exactly if it had some before. -/
theorem planCall?_results {arguments : List Expression}
    (h : ∀ e ∈ arguments, (g.visitor.visit (.expression e)).failure = none) (marker : String) :
    planCall? marker (arguments.map g.visitor.results.expression) = none ↔
      planCall? marker arguments = none := by
  -- no plan means no marker, and that is a fact about each argument by itself
  simp only [planCall?_eq_none_iff_forall, List.forall_mem_map]
  constructor
  · intro h_after e he
    rw [← results_markerKind? h_rules (h e he)]
    exact h_after e he
  · intro h_before e he
    rw [results_markerKind? h_rules (h e he)]
    exact h_before e he

/-- The visit of the arguments neither adds nor removes plain markers. -/
theorem hasPlainMarker_results {arguments : List Expression}
    (h : ∀ e ∈ arguments, (g.visitor.visit (.expression e)).failure = none) (marker : String) :
    hasPlainMarker marker (arguments.map g.visitor.results.expression) =
      hasPlainMarker marker arguments := by
  rw [hasPlainMarker, List.any_map, hasPlainMarker, Bool.eq_iff_iff, List.any_eq_true,
    List.any_eq_true]
  constructor
  · rintro ⟨e, he, h_plain⟩
    exact ⟨e, he, by rw [← results_isPlainMarker h_rules (h e he)]; exact h_plain⟩
  · rintro ⟨e, he, h_plain⟩
    refine ⟨e, he, ?_⟩
    rw [Function.comp_apply, results_isPlainMarker h_rules (h e he), h_plain]

/-- The receiver of an array method after the visit of a callee is the one before, visited. -/
theorem arrayReceiver?_results {callee : Expression}
    (h : (g.visitor.visit (.expression callee)).failure = none) :
    g.context.arrayReceiver? (g.visitor.results.expression callee) =
      (g.context.arrayReceiver? callee).map g.visitor.results.expression := by
  refine results_view h_rules
    (fun e => (g.context.arrayReceiver? e).map g.visitor.results.expression)
    g.context.arrayReceiver?
    none (fun _ _ _ => ⟨rfl, rfl⟩) (fun _ _ _ => ⟨rfl, rfl⟩) h fun _ _ => ?_
  -- a call after the visit is no member, and a member stays one with its receiver visited
  cases callee with
  | member s receiver property =>
    simp only [Expression.mapParts, Context.arrayReceiver?]
    split <;> rfl
  | _ => rfl

end Rules

end Engine

/-! ### Made-up nodes -/

namespace Context

/-- Nodes that no rule has anything to do with, whatever stands below them. -/
inductive Plain (ctx : Context) : Subtree → Prop
  | statement (s : Statement) : Plain ctx (.statement s)
  | function {f : Function} : f.head.params = [] → Plain ctx (.function f)
  | expression {e : Expression} : e.offeredAs = none → Plain ctx (.expression e)
  | call {callee : Expression} {arguments : List Expression} (span : Span) :
    ctx.arrayReceiver? callee = none → planCall? ctx.marker arguments = none →
    Plain ctx (.expression (.call span callee arguments))

section Gather

variable {ctx : Context} {β : Type} {f : Subtree → List β}

/-- What is gathered from a plain node is gathered from its parts. -/
theorem Plain.gather_eq (h_plain : ∀ n, ctx.Plain n → f n = []) {t : Subtree} (h : ctx.Plain t) :
    t.gather f = t.parts.flatMap (Subtree.gather f) := by
  rw [Subtree.gather_eq, h_plain t h, List.nil_append]

/-- Nothing is gathered from the span and the comments of a statement. -/
theorem gather_withInfo (h_plain : ∀ n, ctx.Plain n → f n = []) (s : Statement)
    (info : StatementInfo) :
    (Subtree.statement (s.withInfo info)).gather f = (Subtree.statement s).gather f := by
  rw [Plain.gather_eq h_plain (.statement _), Plain.gather_eq h_plain (.statement _),
    Subtree.parts, Subtree.parts, Statement.parts_withInfo]

/-- Nothing is gathered from a plain node without parts. -/
theorem gather_leaf (h_plain : ∀ n, ctx.Plain n → f n = []) {e : Expression}
    (h : e.offeredAs = none) (h_parts : e.parts = []) : (Subtree.expression e).gather f = [] := by
  rw [Plain.gather_eq h_plain (.expression h), Subtree.parts, h_parts, List.flatMap_nil]

/-- From a plain node with a single part, what is gathered is what that part gives. -/
theorem gather_single (h_plain : ∀ n, ctx.Plain n → f n = []) {t part : Subtree} (h : ctx.Plain t)
    (h_parts : t.parts = [part]) : t.gather f = part.gather f := by
  rw [Plain.gather_eq h_plain h, h_parts, List.flatMap_singleton]

/-- From a call without anything for the rules, all comes from its callee and its arguments. -/
theorem gather_call (h_plain : ∀ n, ctx.Plain n → f n = []) {callee : Expression}
    {arguments : List Expression} (h_callee : ctx.arrayReceiver? callee = none)
    (h_plan : planCall? ctx.marker arguments = none) (span : Span) :
    (Subtree.expression (.call span callee arguments)).gather f =
      (Subtree.expression callee).gather f ++
        arguments.flatMap fun e => (Subtree.expression e).gather f := by
  rw [Plain.gather_eq h_plain (.call span h_callee h_plan), Subtree.parts, Expression.parts,
    List.flatMap_cons, List.flatMap_map]

/-- A marker is made of plain nodes. -/
theorem gather_marker (h_plain : ∀ n, ctx.Plain n → f n = []) {e : Expression}
    (h : (e.markerKind? ctx.marker).isSome) : (Subtree.expression e).gather f = [] := by
  obtain ⟨s, id, -, h_shape⟩ := Expression.marker_cases h
  have h_name : (Subtree.expression (.identifier s id)).gather f = [] := gather_leaf h_plain rfl rfl
  rcases h_shape with rfl | ⟨s', rfl | rfl | rfl⟩
  · exact h_name
  all_goals rw [gather_single h_plain (.expression rfl) rfl, h_name]

/-- A reference to a member of the binding is made of plain nodes. -/
theorem gather_member (h_plain : ∀ n, ctx.Plain n → f n = []) (property : String) :
    (Subtree.expression (ctx.binding.member property)).gather f = [] :=
  (gather_single h_plain (.expression rfl) rfl).trans (gather_leaf h_plain rfl rfl)

/-- The statement that completes a function adds plain nodes to the body that it holds. -/
theorem gather_completion (h_plain : ∀ n, ctx.Plain n → f n = []) (param : Identifier)
    (statements : List Statement) :
    (Subtree.statement (completion param statements)).gather f =
      (statements.map .statement).flatMap (Subtree.gather f) := by
  -- the body goes into a function, the function is called, and the call is the last argument
  have h_arrow : (Subtree.expression (Synthetic.arrow
      (.block ⟨none, [], .synthetic⟩ statements))).gather f =
        (statements.map .statement).flatMap (Subtree.gather f) :=
    (gather_single h_plain (.expression rfl) rfl).trans (Plain.gather_eq h_plain (.function rfl))
  have h_called : (Subtree.expression (Synthetic.call (Synthetic.arrow
      (.block ⟨none, [], .synthetic⟩ statements)) [])).gather f =
        (statements.map .statement).flatMap (Subtree.gather f) := by
    rw [Synthetic.call, gather_call h_plain rfl (planCall?_eq_none_iff_forall.2 (by simp)), h_arrow,
      List.flatMap_nil, List.append_nil]
  have h_plan : planCall? ctx.marker [Synthetic.null, Synthetic.call
      (Synthetic.arrow (.block ⟨none, [], .synthetic⟩ statements)) []] = none := by
    rw [planCall?_eq_none_iff_forall]
    simp [Synthetic.null, Synthetic.call, Expression.markerKind?]
  rw [completion, Synthetic.statement, gather_single h_plain (.statement _) rfl]
  -- nothing is gathered from the callback and from the first argument
  rw [Synthetic.call, gather_call h_plain rfl h_plan, gather_leaf h_plain rfl rfl, List.nil_append,
    List.flatMap_cons, gather_leaf h_plain rfl rfl, List.nil_append, List.flatMap_singleton,
    h_called]

/-- A function has the same nodes in its body as in the statements that its completion wraps. -/
theorem gather_statements (h_plain : ∀ n, ctx.Plain n → f n = []) (function : Function) :
    (function.statements.map .statement).flatMap (Subtree.gather f) =
      function.parts.flatMap (Subtree.gather f) := by
  cases function with
  | block head statements => rfl
  -- the result that an arrow function returns is wrapped in a statement, which is plain
  | value head result =>
    rw [Function.statements, List.map_singleton, List.flatMap_singleton, Statement.withSpan,
      gather_withInfo h_plain, gather_single h_plain (.statement _) rfl, Function.parts,
      List.flatMap_singleton]

/-- Completing a function adds plain nodes to its body. -/
theorem gather_complete (h_plain : ∀ n, ctx.Plain n → f n = []) (function : Function) :
    (ctx.complete function).node.parts.flatMap (Subtree.gather f) =
      function.parts.flatMap (Subtree.gather f) := by
  rcases ctx.complete_cases function with ⟨-, h⟩ | ⟨index, param, -, -, h, -⟩
  · rw [h]
  · rw [h, completeThrough, Function.parts, List.map_singleton, List.flatMap_singleton,
      gather_completion h_plain, gather_statements h_plain]

/-- The declaration is made of plain nodes. -/
theorem gather_declaration (h_plain : ∀ n, ctx.Plain n → f n = []) (info : StatementInfo) :
    (Subtree.statement ((ctx.binding.declaration ctx.config.moduleName
      ctx.config.exportName).withInfo info)).gather f = [] := by
  have h_plan : planCall? ctx.marker [Synthetic.string ctx.config.moduleName] = none := by
    rw [planCall?_eq_none_iff_forall, List.forall_mem_singleton]
    rfl
  have h_require : (Subtree.expression (Synthetic.call (Synthetic.name "require")
      [Synthetic.string ctx.config.moduleName])).gather f = [] := by
    rw [Synthetic.call, gather_call h_plain rfl h_plan, gather_leaf h_plain rfl rfl,
      List.nil_append, List.flatMap_singleton, gather_leaf h_plain rfl rfl]
  rw [gather_withInfo h_plain, gather_single h_plain (.statement _) rfl,
    gather_single h_plain (.expression rfl) rfl, h_require]

/-- Declaring the binding adds plain nodes to a program. -/
theorem gather_declaredBody (h_plain : ∀ n, ctx.Plain n → f n = []) (p : Program) :
    ((ctx.declaredBody p).map .statement).flatMap (Subtree.gather f) =
      (p.body.map .statement).flatMap (Subtree.gather f) := by
  unfold declaredBody
  -- a declared program is left alone
  split
  · rfl
  cases p.body with
  | nil => simp [declareIn, declaration, Statement.withComments, gather_declaration h_plain]
  -- the comments move from the first statement to the declaration, and neither adds a node
  | cons first rest =>
    simp only [declareIn, List.map_cons, List.flatMap_cons, declaration, Statement.withComments,
      gather_declaration h_plain, gather_withInfo h_plain, List.nil_append]

end Gather

section Everywhere

variable {ctx : Context} {P : Subtree → Prop}

/-- What plain nodes have holds everywhere below a plain node if it does in its parts. -/
theorem Plain.everywhere_iff (h_plain : ∀ n, ctx.Plain n → P n) {t : Subtree} (h : ctx.Plain t) :
    t.Everywhere P ↔ ∀ part ∈ t.parts, part.Everywhere P := by
  rw [Subtree.everywhere_iff]
  exact and_iff_right (h_plain t h)

variable [DecidablePred P]

/-- Plain nodes are not among those that fail a property that plain nodes have. -/
theorem failing_plain (h_plain : ∀ n, ctx.Plain n → P n) :
    ∀ n, ctx.Plain n → Subtree.failing P n = [] :=
  fun n h => if_pos (h_plain n h)

/-- What plain nodes have holds everywhere in a marker. -/
theorem everywhere_marker (h_plain : ∀ n, ctx.Plain n → P n) {e : Expression}
    (h : (e.markerKind? ctx.marker).isSome) : (Subtree.expression e).Everywhere P :=
  Subtree.everywhere_iff_gather.2 (gather_marker (failing_plain h_plain) h)

/-- What plain nodes have holds everywhere in a reference to a member of the binding. -/
theorem everywhere_member (h_plain : ∀ n, ctx.Plain n → P n) (property : String) :
    (Subtree.expression (ctx.binding.member property)).Everywhere P :=
  Subtree.everywhere_iff_gather.2 (gather_member (failing_plain h_plain) property)

/-- A completed function has such a property everywhere exactly if it had before. -/
theorem everywhere_complete (h_plain : ∀ n, ctx.Plain n → P n) (f : Function) :
    (∀ part ∈ (ctx.complete f).node.parts, part.Everywhere P) ↔
      ∀ part ∈ f.parts, part.Everywhere P := by
  rw [Subtree.forall_everywhere_iff, Subtree.forall_everywhere_iff,
    gather_complete (failing_plain h_plain)]

/-- What plain nodes have holds everywhere in the declaration. -/
theorem everywhere_declaration (h_plain : ∀ n, ctx.Plain n → P n) (info : StatementInfo) :
    (Subtree.statement ((ctx.binding.declaration ctx.config.moduleName
      ctx.config.exportName).withInfo info)).Everywhere P :=
  Subtree.everywhere_iff_gather.2 (gather_declaration (failing_plain h_plain) info)

/-- Declaring the binding does not change where such a property holds. -/
theorem everywhere_declaredBody (h_plain : ∀ n, ctx.Plain n → P n) (p : Program) :
    (∀ s ∈ ctx.declaredBody p, (Subtree.statement s).Everywhere P) ↔
      ∀ s ∈ p.body, (Subtree.statement s).Everywhere P := by
  have h_statements (statements : List Statement) :
      (∀ s ∈ statements, (Subtree.statement s).Everywhere P) ↔
        (statements.map .statement).flatMap (Subtree.gather (Subtree.failing P)) = [] := by
    rw [← Subtree.forall_everywhere_iff, List.forall_mem_map]
  rw [h_statements, h_statements, gather_declaredBody (failing_plain h_plain)]

end Everywhere

end Context

/-- A statement is the declaration exactly if it differs from it in its span and comments at
most. -/
theorem Binding.isDeclaredBy_iff {b : Binding} {moduleName exportName : String} {s : Statement} :
    b.isDeclaredBy moduleName exportName s = true ↔
      ∃ info, s = (b.declaration moduleName exportName).withInfo info := by
  constructor
  · intro h
    unfold isDeclaredBy at h
    split at h
    · -- every part of the declaration has been compared, save for spans and comments
      simp only [Bool.and_eq_true, beq_iff_eq] at h
      obtain ⟨⟨⟨⟨⟨⟨⟨rfl, rfl⟩, rfl⟩, rfl⟩, rfl⟩, rfl⟩, rfl⟩, rfl⟩ := h
      exact ⟨_, rfl⟩
    · cases h
  · rintro ⟨info, rfl⟩
    simp [declaration, Synthetic.declare, Statement.withInfo, Synthetic.member, Synthetic.call,
      Synthetic.name, Synthetic.reference, Synthetic.string, isDeclaredBy]

/-- A program is declared exactly if its first statement is the declaration. -/
theorem Context.isDeclared_iff {ctx : Context} {p : Program} :
    ctx.isDeclared p = true ↔ ∃ info rest, p.body =
      (ctx.binding.declaration ctx.config.moduleName ctx.config.exportName).withInfo info ::
        rest := by
  rw [isDeclared]
  cases p.body with
  | nil => simp
  | cons first rest => simp [Binding.isDeclaredBy_iff]

/-- Of two infos that are given to a statement one after the other, the second stays. -/
theorem Statement.withInfo_withInfo (s : Statement) (info info' : StatementInfo) :
    (s.withInfo info).withInfo info' = s.withInfo info' := by
  cases s <;> rfl

/-- A program behind the declaration is the declaration, unless the program had it, and its own
statements, the first of which may have lost its comments. -/
theorem Context.declaredBody_eq (ctx : Context) (p : Program) :
    ∃ comments own,
      ctx.declaredBody p = (if ctx.isDeclared p then [] else [ctx.declaration comments]) ++ own ∧
      own.map (·.withInfo {}) = p.body.map (·.withInfo {}) := by
  cases h_declared : ctx.isDeclared p with
  | true => exact ⟨[], p.body, if_pos h_declared, rfl⟩
  | false =>
    have h_body : ctx.declaredBody p = ctx.declareIn p.body := by
      rw [declaredBody, h_declared]
      rfl
    rw [h_body]
    cases p.body with
    | nil => exact ⟨[], [], rfl, rfl⟩
    | cons first rest =>
      refine ⟨first.info.leadingComments, first.withComments [] :: rest, rfl, ?_⟩
      rw [List.map_cons, Statement.withComments, Statement.withInfo_withInfo, List.map_cons]

/-- The body of a program that is declared starts with the declaration. -/
theorem Context.exists_declaredBody (ctx : Context) (p : Program) :
    ∃ first rest, ctx.declaredBody p = first :: rest ∧
      ctx.binding.isDeclaredBy ctx.config.moduleName ctx.config.exportName first = true := by
  unfold declaredBody
  split
  · -- the first statement has been recognised as the declaration
    rename_i h_declared
    rw [isDeclared] at h_declared
    cases h_body : p.body with
    | nil => simp [h_body] at h_declared
    | cons first rest => exact ⟨first, rest, rfl, by simpa [h_body] using h_declared⟩
  · -- the declaration has just been put in front, with or without comments to take over
    cases p.body with
    | nil => exact ⟨_, _, rfl, Binding.isDeclaredBy_iff.2 ⟨_, rfl⟩⟩
    | cons first rest => exact ⟨_, _, rfl, Binding.isDeclaredBy_iff.2 ⟨_, rfl⟩⟩

end AsyncMarkers
