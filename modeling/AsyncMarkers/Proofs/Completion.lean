import AsyncMarkers.Proofs.NormalForm
import AsyncMarkers.Proofs.Verdict

/-!
# What a visit leaves of a function

A function is completed before its body is walked over, so the walk passes through the statement
that has been put around the body: the call of the parameter, the call of the arrow function and the
arrow function itself. All these nodes are plain (`Context.Plain`), and a visit leaves a plain node
as it is, apart from its parts (`Engine.visit_of_plain`). What is visited in the end is the body
(`Engine.visit_completion`), and so a completed function consists of the statement as it was made
and of the body as it would have been left in its own place (`Engine.visitFunction_completes_once`).
-/

namespace AsyncMarkers

namespace Visitor

variable {ν ε : Type}

/-- The statements of a function as a visit leaves them. An expression that is the whole body is
what the function returns. -/
def visitedStatements (v : Visitor ν ε) : Function → List Statement
  | .block _ statements => (v.visitStatements statements).value
  | .value _ result => [.return { span := result.span } (some (v.visitExpression result).value)]

/-- A function with its body visited, in the form that it had. -/
def withVisitedBody (v : Visitor ν ε) : Function → Function
  | .block head statements => .block head (v.visitStatements statements).value
  | .value head result => .value head (v.visitExpression result).value

/-- The body of a function in terms of the results for its parts. -/
theorem withVisitedBody_eq (v : Visitor ν ε) {f : Function}
    (h : ∀ part ∈ f.parts, (v.visit part).failure = none) :
    v.withVisitedBody f = f.mapParts v.results := by
  -- only a block holds a list of parts; the other form has its single part visited either way
  cases f with
  | block head statements =>
    rw [withVisitedBody, v.visitStatements_value h]
    rfl
  | value head result => rfl

end Visitor

namespace Engine

variable {g : Engine}

/-- A visit of an expression that is not offered to rules walks over it. -/
theorem visitExpression_of_not_offered {e : Expression} (h : e.offeredAs = none) :
    (g.visitor.visitExpression e).value = (g.visitor.walkExpression e).value := by
  have h_hook : g.visitor.expression e = ⟨e, [], none⟩ := settle_of_not_offered h _
  rw [Visitor.visitExpression, h_hook]
  rfl

section Rules

variable (h_rules : g.rules = Rule.all)

include h_rules

/-- A visit leaves a plain node as it is, apart from its parts. -/
theorem visit_of_plain {t : Subtree} (h_plain : g.context.Plain t)
    (h : (g.visitor.visit t).failure = none) :
    (g.visitor.visit t).value = t.mapParts g.visitor.results ∧
      ∀ part ∈ t.parts, (g.visitor.visit part).failure = none := by
  -- no rule has anything to do at a plain node, so the hook leaves it
  obtain ⟨-, h_hook, -⟩ := hook_of_normal h_rules (Context.isNormal_of_plain t h_plain)
  have h_value := g.visitor.visit_value h
  obtain ⟨-, h_parts⟩ := g.visitor.visit_failure_eq_none.1 h
  rw [h_hook] at h_value h_parts
  exact ⟨h_value, h_parts⟩

/-- The same for expressions, as a statement about results. -/
theorem results_of_plain {e : Expression} (h_plain : g.context.Plain (.expression e))
    (h : (g.visitor.visit (.expression e)).failure = none) :
    g.visitor.results.expression e = e.mapParts g.visitor.results ∧
      ∀ part ∈ e.parts, (g.visitor.visit part).failure = none := by
  obtain ⟨h_value, h_parts⟩ := visit_of_plain h_rules h_plain h
  rw [← Visitor.results_apply] at h_value
  exact ⟨Subtree.expression.inj h_value, h_parts⟩

/-! ### The statement that completes a function -/

/-- Of an arrow function that is called at once, the body is visited. -/
theorem results_invoked {statements : List Statement}
    (h : (g.visitor.visit (.expression (Synthetic.call
      (Synthetic.arrow (.block ⟨none, [], .synthetic⟩ statements)) []))).failure = none) :
    g.visitor.results.expression (Synthetic.call
        (Synthetic.arrow (.block ⟨none, [], .synthetic⟩ statements)) []) =
      Synthetic.call (Synthetic.arrow (.block ⟨none, [], .synthetic⟩
        (statements.map g.visitor.results.statement))) [] ∧
    ∀ part ∈ statements.map Subtree.statement, (g.visitor.visit part).failure = none := by
  -- the call, then the arrow function, then the function that it is
  have h_plan : planCall? g.context.marker [] = none := planCall?_eq_none_iff_forall.2 (by simp)
  obtain ⟨h_call, h_callee⟩ := results_of_plain h_rules (.call _ rfl h_plan) h
  obtain ⟨h_arrow, h_function⟩ :=
    results_of_plain h_rules (.expression rfl) (h_callee _ List.mem_cons_self)
  obtain ⟨h_body, h_statements⟩ :=
    visit_of_plain h_rules (.function rfl) (h_function _ List.mem_cons_self)
  rw [← Visitor.results_apply] at h_body
  refine ⟨?_, h_statements⟩
  rw [Synthetic.call, h_call, Expression.mapParts, h_arrow, Synthetic.arrow, Expression.mapParts,
    Subtree.function.inj h_body]
  rfl

/-- Of the statement that completes a function, the body is visited and everything else stays. -/
theorem visit_completion {param : Identifier} {statements : List Statement}
    (h : (g.visitor.visit (.statement (completion param statements))).failure = none) :
    g.visitor.results.statement (completion param statements) =
      completion param (statements.map g.visitor.results.statement) ∧
    ∀ part ∈ statements.map Subtree.statement, (g.visitor.visit part).failure = none := by
  obtain ⟨h_statement, h_expression⟩ := visit_of_plain h_rules (.statement _) h
  rw [← Visitor.results_apply] at h_statement
  -- the callee is named like a marker, but neither of the arguments is one
  have h_plan : planCall? g.context.marker [Synthetic.null, Synthetic.call
      (Synthetic.arrow (.block ⟨none, [], .synthetic⟩ statements)) []] = none := by
    rw [planCall?_eq_none_iff_forall]
    simp [Synthetic.null, Synthetic.call, Expression.markerKind?]
  obtain ⟨h_call, h_parts⟩ :=
    results_of_plain h_rules (.call _ rfl h_plan) (h_expression _ List.mem_cons_self)
  simp only [Expression.parts, List.map_cons, List.map_nil, List.forall_mem_cons] at h_parts
  obtain ⟨h_callee, h_null, h_invoked, -⟩ := h_parts
  obtain ⟨h_body, h_statements⟩ := results_invoked h_rules h_invoked
  refine ⟨?_, h_statements⟩
  -- from the outside in: the statement, the call, the callee, and the arguments in their order
  rw [Subtree.statement.inj h_statement]
  show Statement.expression {} (g.visitor.results.expression (.call _ _ _)) = _
  rw [h_call, Expression.mapParts, (results_of_plain h_rules (.expression rfl) h_callee).1,
    List.map_cons, (results_of_plain h_rules (.expression rfl) h_null).1, List.map_cons, h_body]
  rfl

/-- The statements of a function in terms of what visits leave of them. -/
theorem visitedStatements_eq {f : Function}
    (h : ∀ part ∈ f.statements.map Subtree.statement, (g.visitor.visit part).failure = none) :
    g.visitor.visitedStatements f = f.statements.map g.visitor.results.statement := by
  cases f with
  | block head statements => exact g.visitor.visitStatements_value h
  | value head result =>
    -- the statement that returns the expression has been made up
    obtain ⟨h_return, -⟩ := visit_of_plain h_rules (.statement _) (h _ List.mem_cons_self)
    rw [← Visitor.results_apply] at h_return
    rw [Function.statements, List.map_singleton, Subtree.statement.inj h_return]
    rfl

/-! ### Functions -/

/-- A function that a visit has not failed at, by what the hook has made of it. -/
theorem visitFunction_value {f : Function} (h : (g.visitor.visitFunction f).failure = none) :
    (g.visitor.visitFunction f).value =
        (g.context.complete f).node.mapParts g.visitor.results ∧
      ∀ part ∈ (g.context.complete f).node.parts, (g.visitor.visit part).failure = none := by
  have h_visit : (g.visitor.visit (.function f)).failure = none := h
  have h_value := g.visitor.visit_value h_visit
  obtain ⟨-, h_parts⟩ := g.visitor.visit_failure_eq_none.1 h_visit
  rw [hook_function_value h_rules] at h_value h_parts
  exact ⟨Subtree.function.inj h_value, h_parts⟩

/-- A function that has a marker parameter is completed, and its body is visited. -/
theorem visitFunction_of_markerParam? {f : Function}
    (h : (g.visitor.visitFunction f).failure = none) {i : Nat} {param : Identifier}
    (h_index : markerParam? g.context.marker f.head.params = some i)
    (h_param : f.head.params[i]? = some param) :
    (g.visitor.visitFunction f).value =
      .block { f.head with params := f.head.params.set i { param with done := true } }
        [completion { param with done := true } (g.visitor.visitedStatements f)] := by
  -- the completion is what the rule makes of the function, before anything in it is visited
  have h_node : (g.context.complete f).node = Context.completeThrough f i param := by
    simp [Context.complete, h_index, h_param]
  obtain ⟨h_value, h_parts⟩ := visitFunction_value h_rules h
  rw [h_node] at h_value h_parts
  obtain ⟨h_completion, h_statements⟩ :=
    visit_completion h_rules (h_parts _ List.mem_cons_self)
  rw [h_value, visitedStatements_eq h_rules h_statements, Context.completeThrough,
    Function.mapParts, List.map_singleton, h_completion]

/-- A function without a marker parameter keeps everything but what is in its body. -/
theorem visitFunction_of_no_markerParam {f : Function}
    (h : (g.visitor.visitFunction f).failure = none)
    (h_none : markerParam? g.context.marker f.head.params = none) :
    (g.visitor.visitFunction f).value = g.visitor.withVisitedBody f := by
  have h_node : (g.context.complete f).node = f := by
    simp [Context.complete, h_none]
  obtain ⟨h_value, h_parts⟩ := visitFunction_value h_rules h
  rw [h_node] at h_value h_parts
  rw [h_value, g.visitor.withVisitedBody_eq h_parts]

/-- Every function that a run leaves has been left by a visit of a function. -/
theorem exists_visit_of_mem_listing {p : Program} (h : (g.run p).failure = none) {f' : Function}
    (h_mem : Subtree.function f' ∈ (g.run p).value.listing) :
    ∃ f, (g.visitor.visitFunction f).failure = none ∧ (g.visitor.visitFunction f).value = f' := by
  -- the listing keeps no trace of where a node was, so the witness is the visited node itself
  have h_left : ∀ n ∈ (g.run p).value.listing,
      ∃ t, (g.visitor.visit t).failure = none ∧ (g.visitor.visit t).value = n :=
    run_listing h_rules (fun t h_visit => ⟨t, h_visit, rfl⟩) h
  obtain ⟨t, h_visit, h_value⟩ := h_left _ h_mem
  -- a visit leaves a node of the kind that it was given
  cases t with
  | statement s => cases h_value
  | function f => exact ⟨f, h_visit, Subtree.function.inj h_value⟩
  | expression e => cases h_value

end Rules

/-- What a visit that does not fail leaves of a function. If the function has a marker parameter,
the first at position `i`, that is done, and the body is one statement that hands the result of the
visited body to it. Otherwise only the body is visited. This is what stands in the place of the
function, whether it is declared, a function expression or an arrow function, and every function
that a run leaves anywhere has come about in this way. -/
theorem visitFunction_completes_once (h_rules : g.rules = Rule.all) {f : Function}
    (h : (g.visitor.visitFunction f).failure = none) :
    (∀ i param, f.head.params[i]? = some param → param.isMarker g.context.marker = true →
      (∀ earlier ∈ f.head.params.take i, earlier.isMarker g.context.marker = false) →
      (g.visitor.visitFunction f).value =
        .block ⟨f.head.id, f.head.params.set i ⟨param.name, true⟩, f.head.span⟩
          [.expression {} (.call .synthetic (.identifier .synthetic ⟨param.name, true⟩)
            [.literal .synthetic .null,
              .call .synthetic (.arrow .synthetic
                (.block ⟨none, [], .synthetic⟩ (g.visitor.visitedStatements f))) []])]) ∧
    ((∀ param ∈ f.head.params, param.isMarker g.context.marker = false) →
      (g.visitor.visitFunction f).value = g.visitor.withVisitedBody f) ∧
    (∀ info, (g.visitor.visitStatement (.function info f)).value =
      .function info (g.visitor.visitFunction f).value) ∧
    (∀ span, (g.visitor.visitExpression (.function span f)).value =
      .function span (g.visitor.visitFunction f).value) ∧
    (∀ span, (g.visitor.visitExpression (.arrow span f)).value =
      .arrow span (g.visitor.visitFunction f).value) ∧
    (∀ p f', (g.run p).failure = none → Subtree.function f' ∈ (g.run p).value.listing →
      ∃ f, (g.visitor.visitFunction f).failure = none ∧
        (g.visitor.visitFunction f).value = f') := by
  refine ⟨?_, ?_, ?_, ?_, ?_, ?_⟩
  · intro i param h_param h_marker h_earlier
    obtain ⟨h_lt, h_get⟩ := List.getElem?_eq_some_iff.1 h_param
    -- the first parameter that is a marker is the one that is found
    have h_index : markerParam? g.context.marker f.head.params = some i := by
      rw [markerParam?, List.findIdx?_eq_some_iff_getElem]
      refine ⟨h_lt, h_get ▸ h_marker, ?_⟩
      intro j h_j
      have h_mem : f.head.params[j] ∈ f.head.params.take i :=
        List.mem_take_iff_getElem.2 ⟨j, by omega, rfl⟩
      simp [h_earlier _ h_mem]
    exact visitFunction_of_markerParam? h_rules h h_index h_param
  · intro h_unmarked
    have h_none : markerParam? g.context.marker f.head.params = none := by
      simpa [markerParam?, List.findIdx?_eq_none_iff] using h_unmarked
    exact visitFunction_of_no_markerParam h_rules h h_none
  · -- statements and arrow functions and function expressions only carry the function along
    intro info
    rw [Visitor.visitStatement, Visit.followedBy_of_failure_none rfl]
    show (g.visitor.walkStatement (.function info f)).value = _
    rw [Visitor.walkStatement]
    rfl
  · intro span
    rw [visitExpression_of_not_offered rfl, Visitor.walkExpression]
    rfl
  · intro span
    rw [visitExpression_of_not_offered rfl, Visitor.walkExpression]
    rfl
  · intro p f' h_run h_mem
    exact exists_visit_of_mem_listing h_rules h_run h_mem

/-- `function f(_) { return (x, _) => h(x, _); }` completes through its parameter, and so does the
arrow function in it, whose result is waited for. -/
theorem visitFunction_completes_once_nested :
    let g : Engine := ⟨⟨{}, {}⟩, Rule.all, 64⟩
    let name (n : String) : Expression := .identifier (.at 1 0 1) ⟨n, false⟩
    let handed (body : List Statement) : List Statement :=
      [.expression {} (.call .synthetic (.identifier .synthetic ⟨"_", true⟩)
        [.literal .synthetic .null, .call .synthetic (.arrow .synthetic
          (.block ⟨none, [], .synthetic⟩ body)) []])]
    let awaited : Expression := .call (.at 2 19 29) g.context.binding.await
      [.call (.at 2 19 29) (Synthetic.call (g.context.binding.future 1 1) [name "h"]) [name "x"]]
    let inner : Function := .value ⟨none, [⟨"x", false⟩, ⟨"_", false⟩], .at 2 9 30⟩
      (.call (.at 2 19 29) (name "h") [name "x", name "_"])
    let body : Statement := .return ⟨.at 2 2 31, []⟩ (some (.arrow (.at 2 9 30) inner))
    let outer : Function := .block ⟨some ⟨"f", false⟩, [⟨"_", false⟩], .at 1 0 40⟩ [body]
    (g.visitor.visitFunction outer).failure = none ∧
    (g.visitor.visitFunction outer).value =
      .block ⟨some ⟨"f", false⟩, [⟨"_", true⟩], .at 1 0 40⟩
        (handed [.return ⟨.at 2 2 31, []⟩ (some (.arrow (.at 2 9 30)
          (.block ⟨none, [⟨"x", false⟩, ⟨"_", true⟩], .at 2 9 30⟩
            (handed [.return ⟨.at 2 19 29, []⟩ (some awaited)]))))]) := by
  intro g name handed awaited inner body outer
  -- neither function holds anything that is refused, so both visits succeed
  have h_outer : (g.visitor.visitFunction outer).failure = none :=
    (visit_failure_eq (g := g) rfl (.function outer)).trans rfl
  have h_inner : (g.visitor.visitFunction inner).failure = none :=
    (visit_failure_eq (g := g) rfl (.function inner)).trans rfl
  -- the call that is waited for is left as it was made, since nothing in it is for a rule
  have h_call : (g.visitor.visitExpression
      (.call (.at 2 19 29) (name "h") [name "x", name "_"])).value = awaited := by
    have h_visit := (visit_failure_eq (g := g) rfl
      (.expression (.call (.at 2 19 29) (name "h") [name "x", name "_"]))).trans rfl
    have h_normal : ∀ part ∈ awaited.parts, ∀ n ∈ part.listing, g.context.isNormal n = true := by
      decide
    have h_same :
        (Subtree.expression awaited).mapParts g.visitor.results = .expression awaited := by
      refine Subtree.mapParts_eq_self fun part h_part => ?_
      rw [Visitor.results_apply]
      exact (visit_of_normal rfl (h_normal part h_part)).2.1
    exact (results_expression h_visit).trans (Subtree.expression.inj h_same)
  -- the inner function is completed first, since the outer one is made of what is left of it
  obtain ⟨h_first, -, -, -, h_arrow, -⟩ := visitFunction_completes_once rfl h_inner
  obtain ⟨h_second, -⟩ := visitFunction_completes_once rfl h_outer
  have h_nested := h_first 1 ⟨"_", false⟩ rfl rfl (by decide)
  have h_return : (g.visitor.visit (.statement body)).failure = none :=
    (visit_failure_eq (g := g) rfl (.statement body)).trans rfl
  have h_body : g.visitor.visitedStatements outer =
      [.return ⟨.at 2 2 31, []⟩
        (some (.arrow (.at 2 9 30) (g.visitor.visitFunction inner).value))] := by
    have h_statements : ∀ part ∈ [body].map Subtree.statement,
        (g.visitor.visit part).failure = none := List.forall_mem_singleton.2 h_return
    obtain ⟨h_left, -⟩ := visit_of_plain rfl (.statement body) h_return
    rw [← Visitor.results_apply] at h_left
    show (g.visitor.visitStatements [body]).value = _
    rw [g.visitor.visitStatements_value h_statements, List.map_singleton,
      Subtree.statement.inj h_left, ← h_arrow]
    rfl
  have h_result : g.visitor.visitedStatements inner =
      [.return ⟨.at 2 19 29, []⟩ (some awaited)] := by
    rw [← h_call]
    rfl
  refine ⟨h_outer, (h_second 0 ⟨"_", false⟩ rfl rfl (by decide)).trans ?_⟩
  rw [h_body, h_nested, h_result]
  rfl

end Engine

end AsyncMarkers
