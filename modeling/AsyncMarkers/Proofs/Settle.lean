import AsyncMarkers.Proofs.Treatment
import AsyncMarkers.Proofs.Walk
import AsyncMarkers.Session

/-!
# What the four rules do to a node

With the rules of the transformation (`Rule.all`) at most one rule is for a node, so what an engine
does to a node is what that rule does: `Engine.apply_program`, `Engine.apply_function`,
`Engine.apply_call` and `Engine.apply_construction`.

A call is offered again as long as it is replaced. `Context.Steps` is the chain of changes that the
call rule has made in this, with the sum of what they count. Whatever each change preserves is thus
preserved by `Engine.settle` (`Engine.settle_steps`), and what it leaves, if it does not fail, has
no markers to be dealt with (`Engine.settle_settled`).
-/

namespace AsyncMarkers

/-! ### Sums of counts -/

namespace Counts

/-- Counts are added up entry by entry. -/
theorem add_def (a b : Counts) :
    a + b = ⟨a.declarations + b.declarations, a.functions + b.functions, a.receivers + b.receivers,
      a.calls + b.calls⟩ := rfl

@[simp] theorem add_declarations (a b : Counts) :
    (a + b).declarations = a.declarations + b.declarations := rfl

@[simp] theorem add_functions (a b : Counts) : (a + b).functions = a.functions + b.functions := rfl

@[simp] theorem add_receivers (a b : Counts) : (a + b).receivers = a.receivers + b.receivers := rfl

@[simp] theorem add_calls (a b : Counts) : (a + b).calls = a.calls + b.calls := rfl

@[simp] theorem zero_add (a : Counts) : ({} : Counts) + a = a := by
  simp [add_def]

@[simp] theorem add_zero (a : Counts) : a + ({} : Counts) = a := by
  simp [add_def]

theorem add_assoc (a b c : Counts) : a + b + c = a + (b + c) := by
  simp [add_def, Nat.add_assoc]

end Counts

namespace History

@[simp] theorem counts_nil : counts [] = {} := rfl

theorem counts_cons (r : Record) (h : History) : counts (r :: h) = r.counts + counts h := rfl

/-- What is counted in two histories one after the other. -/
theorem counts_append (h h' : History) : counts (h ++ h') = counts h + counts h' := by
  induction h with
  | nil => exact (Counts.zero_add _).symm
  | cons r h ih => rw [List.cons_append, counts_cons, ih, counts_cons, Counts.add_assoc]

end History

/-! ### Sessions with the four rules -/

/-- The rules of the transformation are tried in the order in which they are listed. -/
theorem Session.addMarkerRules_rules {s : Session} (h : s.rules = []) :
    s.addMarkerRules.rules = Rule.all := by
  -- the rules are added in the order of their list, and sorting leaves that alone: they are sorted
  have h_added : (s.addRules Rule.all).rules = Rule.all := by
    simp [addRules, Rule.all, addRule, h]
  rw [addMarkerRules, sortRules, h_added]
  exact List.mergeSort_of_pairwise (by decide)

/-! ### One node -/

namespace Engine

variable (ctx : Context)

/-- Of the four rules, only the declaration rule is for programs, and only for undeclared ones. -/
theorem apply_program (p : Program) :
    apply ctx .program Rule.all p =
      if ctx.isDeclared p then ⟨(p, .unchanged), [], none⟩
      else ⟨((ctx.declare p).node, .mutated),
        [record (.declaration 300) .program (ctx.declare p)], none⟩ := by
  cases h : ctx.isDeclared p with
  | true => simp [Rule.all, apply, Rule.applies, h]
  | false =>
    simp only [Rule.all, apply, Rule.applies, Rule.transform, h]
    rfl

/-- Of the four rules, only the signature rule is for functions, and only with a marker
parameter. -/
theorem apply_function (f : Function) :
    apply ctx .function Rule.all f =
      if (markerParam? ctx.marker f.head.params).isSome then
        ⟨((ctx.complete f).node, .mutated),
          [record (.signature 200) .function (ctx.complete f)], none⟩
      else ⟨(f, .unchanged), [], none⟩ := by
  cases h : markerParam? ctx.marker f.head.params with
  | none => simp [Rule.all, apply, Rule.applies, h]
  | some index =>
    -- there is a parameter at that position, so the function is completed
    obtain ⟨h_lt, -⟩ := List.findIdx?_eq_some_iff_getElem.1 h
    have h_outcome : (ctx.complete f).outcome = .mutated := by
      simp [Context.complete, h, List.getElem?_eq_getElem h_lt]
    simp [Rule.all, apply, Rule.applies, Rule.transform, h, h_outcome, Outcome.max]

/-- Of the four rules, only the call rule is for calls, and it is tried at every call. -/
theorem apply_call (e : Expression) :
    apply ctx .call Rule.all e =
      match ctx.transformCall e with
      | .error d => ⟨(e, .unchanged), [refusal (.call 200) .call d], some d⟩
      | .ok change => ⟨(change.node, change.outcome), [record (.call 200) .call change], none⟩ := by
  -- the other rules add nothing to the outcome
  have h_max (outcome : Outcome) : outcome.max .unchanged = outcome := by
    cases outcome <;> rfl
  cases h : ctx.transformCall e with
  | error d => simp [Rule.all, apply, Rule.applies, Rule.transform, h]
  | ok change =>
    by_cases h_replaced : change.outcome = .replaced <;>
      simp [Rule.all, apply, Rule.applies, Rule.transform, h, h_replaced, h_max]

/-- Of the four rules, only the construction rule is for constructions, and all it does is
refuse. -/
theorem apply_construction (e : Expression) :
    apply ctx .construction Rule.all e =
      if Rule.hasMarkedArguments ctx.marker e then
        ⟨(e, .unchanged), [refusal .construction .construction
          (.unsupported .asyncConstructor (ctx.location e.span))],
          some (.unsupported .asyncConstructor (ctx.location e.span))⟩
      else ⟨(e, .unchanged), [], none⟩ := by
  cases h : Rule.hasMarkedArguments ctx.marker e <;>
    simp [Rule.all, apply, Rule.applies, Rule.transform, h]

end Engine

/-! ### One change of a call -/

namespace Context

variable {ctx : Context} {span : Span} {callee : Expression} {arguments : List Expression}

/-- A call whose markers are refused is left as it is. -/
theorem transformCall_error {d : Diagnostic} (h : ctx.substitution? span arguments = .error d) :
    ctx.transformCall (.call span callee arguments) = .error d := by
  simp only [transformCall, h]
  rfl

/-- The call rule refuses a call for its arguments only. -/
theorem substitution?_of_refused {d : Diagnostic}
    (h : ctx.transformCall (.call span callee arguments) = .error d) :
    ctx.substitution? span arguments = .error d := by
  cases h_sub : ctx.substitution? span arguments with
  | error d' =>
    rw [transformCall_error h_sub] at h
    cases h
    rfl
  | ok substitution =>
    -- a call that is not refused is changed, with or without a substitution
    rw [transformCall, h_sub] at h
    cases substitution <;> cases h

/-- A call without markers has its receiver adapted. -/
theorem transformCall_unmarked (h : ctx.substitution? span arguments = .ok none)
    (callee : Expression) :
    ∃ change, ctx.transformCall (.call span callee arguments) = .ok change ∧
      change.node = .call span (ctx.adaptCallee callee) arguments ∧
      change.outcome ≠ .replaced ∧ change.counts = (ctx.adaptation span callee).1 := by
  simp only [transformCall, h, bind, Except.bind, pure, Except.pure]
  -- the outcome depends on whether the receiver has been adapted, and is not a replacement
  refine ⟨_, rfl, rfl, ?_, rfl⟩
  dsimp only
  split <;> simp

/-- A call with markers that are not refused has its receiver adapted and is then substituted. -/
theorem transformCall_substituted {s : Substitution}
    (h : ctx.substitution? span arguments = .ok (some s)) (callee : Expression) :
    ∃ change, ctx.transformCall (.call span callee arguments) = .ok change ∧
      change.node = ctx.substitute span (ctx.adaptCallee callee) arguments s ∧
      change.outcome = .replaced ∧
      change.counts = (ctx.adaptation span callee).1 + { calls := 1 } := by
  simp only [transformCall, h, bind, Except.bind, pure, Except.pure]
  exact ⟨_, rfl, rfl, rfl, rfl⟩

/-- What the call rule makes of a call, if it does not refuse it. -/
theorem transformCall_cases {change : Change Expression}
    (h : ctx.transformCall (.call span callee arguments) = .ok change) :
    (ctx.substitution? span arguments = .ok none ∧
      change.node = .call span (ctx.adaptCallee callee) arguments ∧
      change.outcome ≠ .replaced ∧ change.counts = (ctx.adaptation span callee).1) ∨
    ∃ s, ctx.substitution? span arguments = .ok (some s) ∧
      change.node = ctx.substitute span (ctx.adaptCallee callee) arguments s ∧
      change.outcome = .replaced ∧
      change.counts = (ctx.adaptation span callee).1 + { calls := 1 } := by
  cases h_sub : ctx.substitution? span arguments with
  | error d =>
    rw [transformCall_error h_sub] at h
    cases h
  | ok substitution =>
    cases substitution with
    | none =>
      -- the call rule is a function, so the change is the one that is known
      obtain ⟨change', h_change, h_facts⟩ := transformCall_unmarked h_sub callee
      cases h.symm.trans h_change
      exact .inl ⟨rfl, h_facts⟩
    | some s =>
      obtain ⟨change', h_change, h_facts⟩ := transformCall_substituted h_sub callee
      cases h.symm.trans h_change
      exact .inr ⟨s, rfl, h_facts⟩

/-- There is nothing to substitute if and only if there is no plan. -/
theorem substitution?_eq_ok_none_iff :
    ctx.substitution? span arguments = .ok none ↔ planCall? ctx.marker arguments = none := by
  unfold substitution?
  cases planCall? ctx.marker arguments with
  | none => simp
  | some plan => cases plan <;> simp [accept, Except.map]

/-- A call that is substituted has markers. -/
theorem planCall?_isSome_of_substituted {s : Substitution}
    (h : ctx.substitution? span arguments = .ok (some s)) :
    (planCall? ctx.marker arguments).isSome = true := by
  rw [Option.isSome_iff_ne_none]
  intro h_none
  rw [substitution?_eq_ok_none_iff.2 h_none] at h
  cases h

/-- What the call rule makes of a call is a call with the same span, and no receiver in its callee
is to be adapted any more. -/
theorem node_eq_call {change : Change Expression}
    (h : ctx.transformCall (.call span callee arguments) = .ok change) :
    ∃ callee' arguments', change.node = .call span callee' arguments' ∧
      ctx.needsAdapter callee' = false := by
  rcases transformCall_cases h with ⟨-, h_node, -⟩ | ⟨s, -, h_node, -⟩
  · exact ⟨_, _, h_node, ctx.needsAdapter_adaptCallee callee⟩
  · rw [h_node, substitute]
    -- what is called is `await`, or else what a call returns, and only members need an adapter
    split
    · exact ⟨_, _, rfl, ctx.needsAdapter_await⟩
    · exact ⟨_, _, rfl, rfl⟩

/-! ### Chains of changes -/

/-- The second expression has come of the first by changes that the call rule has made, which count
the given counts together. -/
inductive Steps (ctx : Context) : Expression → Counts → Expression → Prop
  | refl (e : Expression) : Steps ctx e {} e
  | head {e e' : Expression} {change : Change Expression} {counts : Counts} :
    ctx.transformCall e = .ok change → Steps ctx change.node counts e' →
    Steps ctx e (change.counts + counts) e'

/-- What every change preserves, a chain of changes preserves. -/
theorem Steps.preserves {α : Type} {μ : Expression → α}
    (h_change : ∀ span callee arguments change,
      ctx.transformCall (.call span callee arguments) = .ok change →
      μ change.node = μ (.call span callee arguments))
    {e e' : Expression} {counts : Counts} (h : Steps ctx e counts e') : μ e' = μ e := by
  induction h with
  | refl e => rfl
  -- the first change keeps the measure by hypothesis, the rest of the chain by induction
  | @head e e' change counts h_first _ ih =>
    rw [ih]
    cases e with
    | call span callee arguments => exact h_change span callee arguments change h_first
    -- other expressions are left as they are by the call rule
    | _ =>
      cases h_first
      rfl

end Context

/-! ### The replacement loop -/

namespace Engine

variable {g : Engine}

/-- An expression that is neither a call nor a construction is not offered to rules. -/
theorem settle_of_not_offered {e : Expression} (h : e.offeredAs = none) (left : Nat) :
    g.settle left e = ⟨e, [], none⟩ := by
  cases left with
  | zero => rfl
  | succ left =>
    cases e with
    -- calls and constructions are offered
    | call _ _ _ | construct _ _ _ => cases h
    | _ => simp [settle, applyTo]

variable (h_rules : g.rules = Rule.all)

include h_rules

/-- A call whose markers are refused stays as it is, and the loop ends. -/
theorem settle_of_error {span : Span} {callee : Expression} {arguments : List Expression}
    {d : Diagnostic} (h : g.context.transformCall (.call span callee arguments) = .error d)
    (left : Nat) :
    g.settle (left + 1) (.call span callee arguments) =
      ⟨.call span callee arguments, [refusal (.call 200) .call d], some d⟩ := by
  simp [settle, applyTo, h_rules, apply_call, h]

/-- What a round of the loop does with a call that is not refused. -/
theorem settle_of_ok {span : Span} {callee : Expression} {arguments : List Expression}
    {change : Change Expression}
    (h : g.context.transformCall (.call span callee arguments) = .ok change) (left : Nat) :
    g.settle (left + 1) (.call span callee arguments) =
      if change.outcome ≠ .replaced then ⟨change.node, [record (.call 200) .call change], none⟩
      else if left = 0 then
        if g.context.isPending change.node then
          ⟨change.node, [record (.call 200) .call change, .stopped (g.limitReached change.node)],
            some (g.limitReached change.node)⟩
        else ⟨change.node, [record (.call 200) .call change], none⟩
      else
        ⟨(g.settle left change.node).value,
          record (.call 200) .call change :: (g.settle left change.node).notes,
          (g.settle left change.node).failure⟩ := by
  rw [settle]
  simp only [applyTo, h_rules, apply_call, h, Option.isSome_none, Bool.false_or, decide_eq_true_eq,
    List.cons_append, List.nil_append]

/-- A construction is left as it is, and refused if it has a plain marker. -/
theorem settle_construct (span : Span) (callee : Expression) (arguments : List Expression)
    (left : Nat) :
    g.settle (left + 1) (.construct span callee arguments) =
      if hasPlainMarker g.context.marker arguments then
        ⟨.construct span callee arguments, [refusal .construction .construction
          (.unsupported .asyncConstructor (g.context.location span))],
          some (.unsupported .asyncConstructor (g.context.location span))⟩
      else ⟨.construct span callee arguments, [], none⟩ := by
  cases h : hasPlainMarker g.context.marker arguments <;>
    simp [settle, applyTo, h_rules, apply_construction, Rule.hasMarkedArguments, Expression.span, h]

/-- A call without markers has its receiver adapted, and that is all. -/
theorem settle_unmarked {arguments : List Expression}
    (h : planCall? g.context.marker arguments = none) (span : Span) (callee : Expression)
    (left : Nat) :
    ∃ notes, History.counts notes = (g.context.adaptation span callee).1 ∧
      g.settle (left + 1) (.call span callee arguments) =
        ⟨.call span (g.context.adaptCallee callee) arguments, notes, none⟩ := by
  obtain ⟨change, h_change, h_node, h_outcome, h_counts⟩ :=
    Context.transformCall_unmarked (Context.substitution?_eq_ok_none_iff.2 h) callee
  rw [settle_of_ok h_rules h_change, if_pos h_outcome, h_node, ← h_counts]
  exact ⟨_, Counts.add_zero _, rfl⟩

/-- A call with plain markers is substituted once: what stands there then has no markers. -/
theorem settle_awaited {span : Span} {arguments : List Expression} {s : Substitution}
    (h : g.context.substitution? span arguments = .ok (some s)) (h_awaited : s.awaited = true)
    (callee : Expression) (left : Nat) :
    ∃ notes, g.settle (left + 1) (.call span callee arguments) =
      ⟨.call span g.context.binding.await
        [g.context.futureCall span (g.context.adaptCallee callee) s.first (s.rest arguments)],
        notes, none⟩ := by
  obtain ⟨change, h_change, h_node, h_outcome, -⟩ := Context.transformCall_substituted h callee
  -- what is put in the place of the call awaits a call, and no call is a marker
  have h_plan : planCall? g.context.marker
      [g.context.futureCall span (g.context.adaptCallee callee) s.first (s.rest arguments)] =
        none := by
    rw [planCall?_eq_none_iff_forall, List.forall_mem_singleton]
    rfl
  have h_await := Context.adaptCallee_eq_self g.context.needsAdapter_await
  rw [Context.substitute, h_awaited] at h_node
  -- whether or not there is a further round, it does nothing
  rw [settle_of_ok h_rules h_change, if_neg (not_not_intro h_outcome), h_node]
  cases left with
  | zero => exact ⟨_, by simp [Context.isPending, h_plan]; rfl⟩
  | succ left =>
    obtain ⟨notes, -, h_later⟩ := settle_unmarked h_rules h_plan span g.context.binding.await left
    rw [if_neg (Nat.succ_ne_zero left)]
    simp only [if_true, h_later, h_await]
    exact ⟨_, rfl⟩

/-- A call with a future marker and no plain ones is substituted, and the loop goes on with the
result as long as it may. -/
theorem settle_future {span : Span} {arguments : List Expression} {s : Substitution}
    (h : g.context.substitution? span arguments = .ok (some s)) (h_awaited : s.awaited = false)
    (callee : Expression) (left : Nat) :
    ∃ note, g.settle (left + 1) (.call span callee arguments) =
      let now := g.context.futureCall span (g.context.adaptCallee callee) s.first (s.rest arguments)
      if left = 0 then
        if g.context.isPending now then
          ⟨now, [note, .stopped (g.limitReached now)], some (g.limitReached now)⟩
        else ⟨now, [note], none⟩
      else ⟨(g.settle left now).value, note :: (g.settle left now).notes,
        (g.settle left now).failure⟩ := by
  obtain ⟨change, h_change, h_node, h_outcome, -⟩ := Context.transformCall_substituted h callee
  rw [Context.substitute, h_awaited] at h_node
  refine ⟨record (.call 200) .call change, ?_⟩
  rw [settle_of_ok h_rules h_change, if_neg (not_not_intro h_outcome), h_node]
  rfl

/-- If the loop does not fail at a call, its first round has been its last one and has left nothing
pending, or it has gone on from what that has left. -/
theorem settle_call_cases {left : Nat} {span : Span} {callee : Expression}
    {arguments : List Expression}
    (h : (g.settle (left + 1) (.call span callee arguments)).failure = none) :
    ∃ change, g.context.transformCall (.call span callee arguments) = .ok change ∧
      ((g.context.isPending change.node = false ∧
        g.settle (left + 1) (.call span callee arguments) =
          ⟨change.node, [record (.call 200) .call change], none⟩) ∨
      (left ≠ 0 ∧ (g.settle left change.node).failure = none ∧
        g.settle (left + 1) (.call span callee arguments) =
          ⟨(g.settle left change.node).value,
            record (.call 200) .call change :: (g.settle left change.node).notes, none⟩)) := by
  cases h_change : g.context.transformCall (.call span callee arguments) with
  | error d =>
    rw [settle_of_error h_rules h_change] at h
    cases h
  | ok change =>
    refine ⟨change, rfl, ?_⟩
    rw [settle_of_ok h_rules h_change] at h ⊢
    -- the loop ends with a call that is not replaced, or at its limit if nothing is pending there
    by_cases h_replaced : change.outcome = .replaced
    · -- the call has been replaced, so it is offered again if there are rounds left
      rw [if_neg (not_not_intro h_replaced)] at h ⊢
      by_cases h_left : left = 0
      · rw [if_pos h_left] at h ⊢
        cases h_pending : g.context.isPending change.node with
        | true => simp [h_pending] at h
        | false => exact .inl ⟨rfl, rfl⟩
      · rw [if_neg h_left] at h ⊢
        have h_later : (g.settle left change.node).failure = none := h
        exact .inr ⟨h_left, h_later, by rw [h_later]⟩
    · -- a call that is not replaced has no plan, so it is not pending
      rw [if_pos h_replaced]
      rcases Context.transformCall_cases h_change with ⟨h_sub, h_node, -⟩ | ⟨s, -, -, h_outcome, -⟩
      · refine .inl ⟨?_, rfl⟩
        rw [h_node, Context.isPending, (Context.substitution?_eq_ok_none_iff).1 h_sub]
        rfl
      · exact absurd h_outcome h_replaced

/-- What the replacement loop makes of an expression, if it does not fail, has come of it by changes
of the call rule, and these count what the loop counts. -/
theorem settle_steps {left : Nat} {e : Expression} (h : (g.settle left e).failure = none) :
    g.context.Steps e (History.counts (g.settle left e).notes) (g.settle left e).value := by
  -- the induction is on the rounds that are left
  induction left generalizing e with
  | zero => exact .refl e
  | succ left ih =>
    cases e with
    | call span callee arguments =>
      -- the first round is the last one, or there is a chain for the others already
      obtain ⟨change, h_change, ⟨-, h_eq⟩ | ⟨-, h_later, h_eq⟩⟩ := settle_call_cases h_rules h
      · rw [h_eq]
        exact .head h_change (.refl _)
      · rw [h_eq]
        exact .head h_change (ih h_later)
    | construct span callee arguments =>
      rw [settle_construct h_rules] at h ⊢
      cases h_marked : hasPlainMarker g.context.marker arguments with
      | true => simp [h_marked] at h
      | false => exact .refl _
    | _ =>
      rw [settle_of_not_offered rfl]
      exact .refl _

end Engine

/-- Whether no rule has anything to do with an expression or against it. -/
def Context.isSettled (ctx : Context) : Expression → Bool
  | .call _ callee arguments =>
    (planCall? ctx.marker arguments).isNone && !ctx.needsAdapter callee
  | .construct _ _ arguments => !hasPlainMarker ctx.marker arguments
  | _ => true

theorem Context.isSettled_call {ctx : Context} {span : Span} {callee : Expression}
    {arguments : List Expression} :
    ctx.isSettled (.call span callee arguments) = true ↔
      planCall? ctx.marker arguments = none ∧ ctx.needsAdapter callee = false := by
  simp [isSettled]

namespace Engine

variable {g : Engine}

/-- A call that the call rule has changed is settled as soon as it is not pending. -/
theorem isSettled_of_not_pending {ctx : Context} {span : Span} {callee : Expression}
    {arguments : List Expression} {change : Change Expression}
    (h_change : ctx.transformCall (.call span callee arguments) = .ok change)
    (h_pending : ctx.isPending change.node = false) : ctx.isSettled change.node = true := by
  obtain ⟨callee', arguments', h_node, h_adapted⟩ := Context.node_eq_call h_change
  rw [h_node] at h_pending ⊢
  simpa [Context.isPending, Context.isSettled, h_adapted] using h_pending

/-- What the replacement loop leaves, if it does not fail, is settled. -/
theorem settle_settled (h_rules : g.rules = Rule.all) {left : Nat} (h_left : 0 < left)
    {e : Expression} (h : (g.settle left e).failure = none) :
    g.context.isSettled (g.settle left e).value = true := by
  -- as above, but now it matters that there is a round at all
  induction left generalizing e with
  | zero => cases h_left
  | succ left ih =>
    cases e with
    | call span callee arguments =>
      obtain ⟨change, h_change, ⟨h_pending, h_eq⟩ | ⟨h_pos, h_later, h_eq⟩⟩ :=
        settle_call_cases h_rules h
      · rw [h_eq]
        exact isSettled_of_not_pending h_change h_pending
      · rw [h_eq]
        exact ih (Nat.pos_of_ne_zero h_pos) h_later
    | construct span callee arguments =>
      rw [settle_construct h_rules] at h ⊢
      cases h_marked : hasPlainMarker g.context.marker arguments with
      | true => simp [h_marked] at h
      | false => simp [Context.isSettled, h_marked]
    | _ =>
      rw [settle_of_not_offered rfl]
      rfl

end Engine

/-! ### Functions -/

/-- A function without marker parameters is left as it is; any other one completes through the first
of them. -/
theorem Context.complete_cases (ctx : Context) (f : Function) :
    (f.head.params.countP (·.isMarker ctx.marker) = 0 ∧ ctx.complete f = { node := f }) ∨
      ∃ index param, f.head.params[index]? = some param ∧ param.isMarker ctx.marker = true ∧
        (ctx.complete f).node = completeThrough f index param ∧
        (ctx.complete f).counts = { functions := 1 } := by
  cases h : markerParam? ctx.marker f.head.params with
  -- no parameter is a marker exactly if none is found
  | none =>
    refine .inl ⟨?_, by simp [complete, h]⟩
    rw [List.countP_eq_zero]
    simpa [markerParam?, List.findIdx?_eq_none_iff] using h
  | some index =>
    -- the parameter that is found is the one that the completion calls
    obtain ⟨h_lt, h_marker, -⟩ := List.findIdx?_eq_some_iff_getElem.1 h
    have h_param := List.getElem?_eq_getElem h_lt
    exact .inr ⟨index, _, h_param, h_marker, by simp [complete, h, h_param],
      by simp [complete, h, h_param]⟩

namespace Engine

variable {g : Engine}

/-- What the four rules leave of a function. -/
theorem apply_function_value (f : Function) :
    (apply g.context .function Rule.all f).value.1 = (g.context.complete f).node := by
  rw [apply_function]
  split
  · rfl
  · -- without a marker parameter, the completion leaves the function as it is
    rename_i h
    simp only [Option.not_isSome_iff_eq_none] at h
    simp [Context.complete, h]

/-- What the four rules count at a function. -/
theorem apply_function_counts (f : Function) :
    History.counts (apply g.context .function Rule.all f).notes =
      (g.context.complete f).counts := by
  rw [apply_function]
  split
  · exact Counts.add_zero _
  · rename_i h
    simp only [Option.not_isSome_iff_eq_none] at h
    simp [Context.complete, h]

/-- No function is refused. -/
theorem apply_function_failure (f : Function) :
    (apply g.context .function Rule.all f).failure = none := by
  rw [apply_function]
  split <;> rfl

/-! ### The hooks of the walk -/

theorem hook_statement (s : Statement) :
    g.visitor.hook (.statement s) = ⟨.statement s, [], none⟩ := rfl

theorem hook_expression (e : Expression) :
    g.visitor.hook (.expression e) = (g.settle (max 1 g.limit) e).map .expression := rfl

/-- A call may be replaced at least once. -/
theorem exists_allowance (g : Engine) : ∃ left, max 1 g.limit = left + 1 :=
  ⟨max 1 g.limit - 1, by omega⟩

variable (h_rules : g.rules = Rule.all)

include h_rules

/-- The hook for functions completes them. -/
theorem hook_function_value (f : Function) :
    (g.visitor.hook (.function f)).value = .function (g.context.complete f).node := by
  rw [← apply_function_value, ← h_rules]
  rfl

theorem hook_function_failure (f : Function) : (g.visitor.hook (.function f)).failure = none := by
  rw [← apply_function_failure (g := g) f, ← h_rules]
  rfl

theorem hook_function_counts (f : Function) :
    History.counts (g.visitor.hook (.function f)).notes = (g.context.complete f).counts := by
  rw [← apply_function_counts, ← h_rules]
  rfl

end Engine

end AsyncMarkers
