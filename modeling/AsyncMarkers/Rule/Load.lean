import AsyncMarkers.Rule.Basic
import AsyncMarkers.Tree.Load

/-!
# Rules and the load of a tree

Each change that a rule makes uses something up: a substituted call loses a marker, an adapted
receiver is adapted for good, a completed function has one marker parameter less. `Context.cost`
puts a price on each of these that covers the nodes that the rule makes up in exchange, so no rule
raises the load of what it is offered (`Rule.transform_load`). This is what makes a walk end that
goes on into the nodes that rules have made.
-/

namespace AsyncMarkers

open Synthetic

namespace Context

/-- The price of an expression: that of a marker, and that of a receiver to be adapted. -/
def expressionCost (ctx : Context) : Expression → Nat
  | .identifier _ id => if id.isMarker ctx.marker then 32 else 0
  | .call _ callee _ => if ctx.needsAdapter callee then 4 else 0
  | _ => 0

/-- The price of a function: that of its marker parameters. -/
def functionCost (ctx : Context) (f : Function) : Nat :=
  16 * f.head.params.countP (·.isMarker ctx.marker)

/-- The cost under which no rule raises the load. -/
def cost (ctx : Context) : Cost := ⟨ctx.expressionCost, ctx.functionCost⟩

end Context

/-! ### Positions of markers -/

/-- At the position of a marker stands an argument that holds one of that kind. -/
theorem exists_of_mem_markerPositions {marker : String} {kind : MarkerKind}
    {arguments : List Expression} {i : Nat} (h : i ∈ markerPositions marker kind arguments) :
    ∃ e, arguments[i]? = some e ∧ e.markerKind? marker = some kind := by
  rw [markerPositions, List.mem_filter] at h
  obtain ⟨-, h⟩ := h
  cases hi : arguments[i]? with
  | none => simp [hi] at h
  | some e => exact ⟨e, rfl, by simpa [hi] using h⟩

/-- The positions in a plan for plain markers are among those that it was made from. -/
theorem CallPlan.mem_of_ofPlain? {positions : List Nat} {first : Nat} {second : Option Nat}
    (h : CallPlan.ofPlain? positions = some (.await first second)) :
    first ∈ positions ∧ ∀ j, second = some j → j ∈ positions := by
  match positions with
  | [] => simp [CallPlan.ofPlain?] at h
  | [i] =>
    simp only [CallPlan.ofPlain?, Option.some.injEq, CallPlan.await.injEq] at h
    obtain ⟨rfl, rfl⟩ := h
    simp
  | [i, j] =>
    simp only [CallPlan.ofPlain?, Option.some.injEq, CallPlan.await.injEq] at h
    obtain ⟨rfl, rfl⟩ := h
    simp
  | _ :: _ :: _ :: _ => simp [CallPlan.ofPlain?] at h

/-- A plan for plain markers takes them out or finds them too many. -/
theorem CallPlan.eq_of_ofPlain? {positions : List Nat} {plan : CallPlan}
    (h : CallPlan.ofPlain? positions = some plan) :
    (∃ first second, plan = .await first second) ∨ ∃ count, plan = .tooMany count := by
  match positions with
  | [] => simp [CallPlan.ofPlain?] at h
  | [_] | [_, _] =>
    simp only [CallPlan.ofPlain?, Option.some.injEq] at h
    exact .inl ⟨_, _, h.symm⟩
  | _ :: _ :: _ :: _ =>
    simp only [CallPlan.ofPlain?, Option.some.injEq] at h
    exact .inr ⟨_, h.symm⟩

/-- A result is waited for only because of plain markers. -/
theorem ofPlain?_of_planCall?_await {marker : String} {arguments : List Expression} {first : Nat}
    {second : Option Nat} (h : planCall? marker arguments = some (.await first second)) :
    CallPlan.ofPlain? (markerPositions marker .plain arguments) = some (.await first second) := by
  simpa [planCall?, Option.or_eq_some_iff] using h

/-- A future marker that is planned for stands at its position. -/
theorem mem_positions_of_planCall?_future {marker : String} {arguments : List Expression} {i : Nat}
    (h : planCall? marker arguments = some (.future i)) :
    i ∈ markerPositions marker .future arguments := by
  simp only [planCall?, Option.or_eq_some_iff] at h
  rcases h with h | ⟨-, h | ⟨-, h | ⟨-, h⟩⟩⟩
  · rcases CallPlan.eq_of_ofPlain? h with ⟨_, _, h⟩ | ⟨_, h⟩ <;> cases h
  · obtain ⟨j, hj, hji⟩ := Option.map_eq_some_iff.1 h
    cases hji
    exact List.mem_of_head? hj
  · simp at h
  · simp at h

/-! ### Loads -/

namespace Context

/-- No array method is called `array`. -/
theorem isArrayMethod_array (c : Config) : c.isArrayMethod "array" = false := by
  simp only [Config.isArrayMethod, List.any_eq_false, beq_iff_eq]
  intro method _ h
  have := congrArg (fun s => s.toList.getLast?) h
  simp at this

/-- A plain marker has a great load. -/
theorem load_of_isPlainMarker {ctx : Context} {e : Expression}
    (h : e.isPlainMarker ctx.marker = true) : 33 ≤ e.load ctx.cost := by
  cases e <;> simp_all [Expression.isPlainMarker, Expression.load, cost, expressionCost]

/-- An expression that holds a marker has a great load. -/
theorem load_of_markerKind? {ctx : Context} {e : Expression} {kind : MarkerKind}
    (h : e.markerKind? ctx.marker = some kind) : 33 ≤ e.load ctx.cost := by
  unfold Expression.markerKind? at h
  split at h
  · split at h
    · exact load_of_isPlainMarker (by simpa [Expression.isPlainMarker])
    · cases h
  · split at h
    · have := load_of_isPlainMarker ‹_›
      simp only [Expression.load]
      omega
    · cases h
  · split at h
    · have := load_of_isPlainMarker ‹_›
      simp only [Expression.load]
      omega
    · cases h
  · split at h
    · have := load_of_isPlainMarker ‹_›
      simp only [Expression.load, elementsLoad, optionalLoad]
      omega
    · cases h
  · cases h

/-- Taking something out of a list does not raise the load. -/
theorem expressionsLoad_eraseIdx_le (c : Cost) (es : List Expression) (i : Nat) :
    expressionsLoad c (es.eraseIdx i) ≤ expressionsLoad c es := by
  cases h : es[i]? with
  | none =>
    exact Nat.le_of_eq (by rw [List.eraseIdx_of_length_le (by simpa using h)])
  | some e =>
    have := expressionsLoad_eraseIdx_add c es i e h
    omega

/-- A member of the support module has the load of its two nodes. -/
theorem load_binding_member (ctx : Context) (property : String) :
    (ctx.binding.member property).load ctx.cost = 2 := by
  simp [Binding.member, Synthetic.member, reference, Binding.identifier, Expression.load, cost,
    expressionCost, Identifier.isMarker]

/-- The array adapter is no array method. -/
theorem needsAdapter_array (ctx : Context) : ctx.needsAdapter ctx.binding.array = false := by
  simp [Binding.array, Binding.member, Synthetic.member, needsAdapter, isArrayMethod_array]

/-- A call of the array adapter adds three nodes to the receiver. -/
theorem load_adaptReceiver (ctx : Context) (receiver : Expression) :
    (ctx.adaptReceiver receiver).load ctx.cost = receiver.load ctx.cost + 3 := by
  have h_member := load_binding_member ctx "array"
  have h_cost : ctx.cost.expression (ctx.adaptReceiver receiver) = 0 := by
    simp [adaptReceiver, cost, expressionCost, needsAdapter_array]
  simp only [adaptReceiver, Binding.array, Expression.load, expressionsLoad] at *
  omega

/-- An adapted receiver costs the callee three nodes more. -/
theorem load_adaptCallee_le (ctx : Context) (callee : Expression) :
    (ctx.adaptCallee callee).load ctx.cost
      ≤ callee.load ctx.cost + if ctx.needsAdapter callee then 3 else 0 := by
  unfold adaptCallee
  split
  · cases callee with
    | member s receiver property =>
      have := load_adaptReceiver ctx receiver
      simp only [Expression.load, cost, expressionCost] at *
      omega
    | _ => exact Nat.le_add_right _ _
  · exact Nat.le_refl _

/-- An adapted callee is not adapted again. -/
theorem needsAdapter_adaptCallee (ctx : Context) (callee : Expression) :
    ctx.needsAdapter (ctx.adaptCallee callee) = false := by
  unfold adaptCallee
  split
  · cases callee with
    | member s receiver property =>
      simp [needsAdapter, adaptReceiver, isAdapted, Binding.array, Binding.member, Synthetic.member,
        reference, Binding.identifier]
    | _ => rfl
  · exact Bool.eq_false_iff.2 ‹_›

/-- What is left of the arguments has lost at least a marker's load. -/
theorem load_rest_add_le {ctx : Context} {span : Span} {arguments : List Expression}
    {s : Substitution} (h : ctx.substitution? span arguments = .ok (some s)) :
    expressionsLoad ctx.cost (s.rest arguments) + 33 ≤ expressionsLoad ctx.cost arguments := by
  unfold substitution? at h
  split at h
  · cases h
  rename_i plan h_plan
  cases plan with
  | await first second =>
    cases h
    have h_mem := CallPlan.mem_of_ofPlain? (ofPlain?_of_planCall?_await h_plan)
    cases second with
    | none =>
      obtain ⟨e, he, h_kind⟩ := exists_of_mem_markerPositions h_mem.1
      have h_add := expressionsLoad_eraseIdx_add ctx.cost _ _ e he
      have h_load := load_of_markerKind? h_kind
      simp only [Substitution.rest]
      omega
    | some second =>
      -- the load of the second marker is enough; without the first one it only gets less
      obtain ⟨e, he, h_kind⟩ := exists_of_mem_markerPositions (h_mem.2 second rfl)
      have h_add := expressionsLoad_eraseIdx_add ctx.cost _ _ e he
      have h_load := load_of_markerKind? h_kind
      have h_le := expressionsLoad_eraseIdx_le ctx.cost (arguments.eraseIdx second) first
      simp only [Substitution.rest]
      omega
  | future index =>
    cases h
    obtain ⟨e, he, h_kind⟩ :=
      exists_of_mem_markerPositions (mem_positions_of_planCall?_future h_plan)
    have h_add := expressionsLoad_eraseIdx_add ctx.cost _ _ e he
    have h_load := load_of_markerKind? h_kind
    simp only [Substitution.rest]
    omega
  | promise _ => cases h
  | array _ => cases h
  | tooMany _ => cases h

/-- The price of a call is at most that of a receiver. -/
theorem expressionCost_call_le (ctx : Context) (span : Span) (callee : Expression)
    (arguments : List Expression) : ctx.cost.expression (.call span callee arguments) ≤ 4 := by
  simp only [cost, expressionCost]
  split <;> omega

/-- What a substitution adds to the callee and the arguments that are left. -/
theorem load_substitute_le (ctx : Context) (span : Span) (callee : Expression)
    (arguments : List Expression) (s : Substitution) :
    (ctx.substitute span callee arguments s).load ctx.cost
      ≤ callee.load ctx.cost + expressionsLoad ctx.cost (s.rest arguments) + 19 := by
  have h_await := load_binding_member ctx "await"
  have h_future := load_binding_member ctx
    ("future_" ++ Nat.repr s.first ++ "_" ++ Nat.repr (s.rest arguments).length)
  have h_inner := expressionCost_call_le ctx .synthetic
    (ctx.binding.future s.first (s.rest arguments).length) [callee]
  have h_call := expressionCost_call_le ctx span
    (Synthetic.call (ctx.binding.future s.first (s.rest arguments).length) [callee])
    (s.rest arguments)
  have h_outer := expressionCost_call_le ctx span ctx.binding.await
    [ctx.futureCall span callee s.first (s.rest arguments)]
  unfold substitute
  split <;>
    simp only [futureCall, Synthetic.call, Binding.await, Binding.future, Expression.load,
      expressionsLoad] at * <;>
    omega

/-- Transforming a call does not raise its load. -/
theorem transformCall_load {ctx : Context} {e : Expression} {change : Change Expression}
    (h : ctx.transformCall e = .ok change) : change.node.load ctx.cost ≤ e.load ctx.cost := by
  cases e with
  | call span callee arguments =>
    have h_adapt := load_adaptCallee_le ctx callee
    cases h_sub : ctx.substitution? span arguments with
    | error d => simp [transformCall, h_sub, bind, Except.bind] at h
    | ok substitution =>
      cases substitution with
      | none =>
        simp only [transformCall, h_sub, bind, Except.bind, pure, Except.pure, Except.ok.injEq] at h
        subst h
        have h_new := needsAdapter_adaptCallee ctx callee
        simp only [Expression.load, cost, expressionCost, h_new, Bool.false_eq_true, if_false] at *
        split at h_adapt
        · rename_i h_needs
          rw [if_pos h_needs]
          omega
        · omega
      | some s =>
        simp only [transformCall, h_sub, bind, Except.bind, pure, Except.pure, Except.ok.injEq] at h
        subst h
        have h_rest := load_rest_add_le h_sub
        have h_new := load_substitute_le ctx span (ctx.adaptCallee callee) arguments s
        simp only [Expression.load]
        split at h_adapt <;> omega
  | _ =>
    cases h
    exact Nat.le_refl _

/-- The statement that completes a function adds seven nodes to the body. -/
theorem load_completion (ctx : Context) (param : Identifier) (h : param.done = true)
    (statements : List Statement) :
    (completion param statements).load ctx.cost = statementsLoad ctx.cost statements + 7 := by
  simp [completion, statement, Synthetic.call, reference, null, arrow, Statement.load,
    Expression.load, expressionsLoad, Function.load, cost, expressionCost, functionCost,
    needsAdapter, Function.head, Identifier.isMarker, h]
  omega

/-- Writing an expression body as a statement adds at most one node. -/
theorem load_statements_le (ctx : Context) (f : Function) :
    1 + ctx.functionCost f + statementsLoad ctx.cost f.statements ≤ f.load ctx.cost + 1 := by
  cases f with
  | block head statements =>
    simp only [Function.statements, Function.load, cost]
    omega
  | value head result =>
    simp only [Function.statements, returning, Statement.withSpan, Statement.withInfo,
      statementsLoad, Statement.load, optionalLoad, Function.load, cost]
    omega

/-- Completing a function does not raise its load. -/
theorem complete_load (ctx : Context) (f : Function) :
    (ctx.complete f).node.load ctx.cost ≤ f.load ctx.cost := by
  unfold complete
  split
  · exact Nat.le_refl _
  rename_i index h_index
  split
  · exact Nat.le_refl _
  rename_i param h_param
  have h_body := load_statements_le ctx f
  have h_completion := load_completion ctx { param with done := true } rfl f.statements
  -- one marker parameter less
  obtain ⟨h_lt, h_marker, -⟩ := List.findIdx?_eq_some_iff_getElem.1 h_index
  have h_done : ({ param with done := true } : Identifier).isMarker ctx.marker = false := by
    simp [Identifier.isMarker]
  have h_pos : 0 < f.head.params.countP (·.isMarker ctx.marker) :=
    List.countP_pos_iff.2 ⟨_, List.getElem_mem h_lt, h_marker⟩
  have h_count : (f.head.params.set index { param with done := true }).countP
      (·.isMarker ctx.marker) = f.head.params.countP (·.isMarker ctx.marker) - 1 := by
    simp [List.countP_set h_lt, h_marker, h_done]
  have h_cost : ctx.functionCost (completeThrough f index param)
      = 16 * (f.head.params.countP (·.isMarker ctx.marker) - 1) := by
    rw [← h_count]
    rfl
  have h_load : (completeThrough f index param).load ctx.cost
      = 1 + ctx.functionCost (completeThrough f index param)
        + (completion { param with done := true } f.statements).load ctx.cost := by
    simp only [completeThrough, Function.load, statementsLoad, cost]
    omega
  have h_old : ctx.functionCost f = 16 * f.head.params.countP (·.isMarker ctx.marker) := rfl
  show (completeThrough f index param).load ctx.cost ≤ _
  omega

end Context

/-- The load of a node that rules are offered; that of a program does not matter. -/
def NodeKind.load (c : Cost) : (kind : NodeKind) → kind.Node → Nat
  | .program, _ => 0
  | .function, f => Function.load c f
  | .call, e => Expression.load c e
  | .construction, e => Expression.load c e

/-- No rule raises the load of what it is offered. -/
theorem Rule.transform_load {ctx : Context} {rule : Rule} {kind : NodeKind} {node : kind.Node}
    {change : Change kind.Node} (h : rule.transform ctx kind node = .ok change) :
    kind.load ctx.cost change.node ≤ kind.load ctx.cost node := by
  unfold Rule.transform at h
  split at h
  · cases h
    exact Nat.le_refl _
  · cases h
    exact Context.complete_load ctx _
  · exact Context.transformCall_load h
  · cases h
  · cases h
    exact Nat.le_refl _
  · cases h
    exact Nat.le_refl _

end AsyncMarkers
