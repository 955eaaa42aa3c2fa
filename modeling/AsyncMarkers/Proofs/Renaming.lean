import Mathlib.Data.List.InsertIdx
import Mathlib.Logic.Equiv.Basic
import AsyncMarkers.Proofs.Relabelling
import AsyncMarkers.Proofs.Verdict

/-!
# Names are honoured everywhere

A transformation takes the names of its marker and of its binding from the configuration. Nothing
else is looked at in a name, and no other name is made up but `require`: if a program and its
configuration are given other names, the result is the old one with those names
(`Session.transform_renamed`).

Every function that compares names or makes nodes up has its own lemma here, which says that it
commutes with a relabelling. Where names are compared this needs that different names stay different
(`Relabelling.isMarker_identifier`, `Relabelling.isAdapted_relabelled`); where nodes are made up,
that these have the new binding in them, and a synthetic span still
(`Relabelling.substitute_relabelled`, `Relabelling.completion_relabelled`,
`Relabelling.declaration_relabelled`). The call rule thus does the same to a relabelled call
(`Relabelling.transformCall_relabelled`), round after round of the replacement loop
(`Relabelling.settle_relabelled`), and the two walks agree hook by hook
(`Relabelling.hook_relabelled`), so they agree as a whole (`Proofs.Comparison`).

Positions are looked at in one place only: whether a program is behind the declaration is asked with
the spans inside it. This is why `Relabelling.run_relabelled` takes it as a premise, while a
relabelling that takes no position for a synthetic one has it (`Relabelling.isDeclared_relabelled`).
-/

namespace AsyncMarkers

namespace Relabelling

variable (r : Relabelling)

/-! ### Contexts -/

/-- The place of a diagnostic, with another position. -/
def location (l : Location) : Location :=
  ⟨l.file, (r.position ⟨l.line, l.column⟩).line, (r.position ⟨l.line, l.column⟩).column⟩

/-- The diagnostic with another name for the marker and another place. -/
def diagnostic : Diagnostic → Diagnostic
  | .unsupported construct l => .unsupported construct (r.location l)
  | .tooManyMarkers marker count l => .tooManyMarkers (r.name marker) count (r.location l)
  | .replacementLimit marker limit l => .replacementLimit (r.name marker) limit (r.location l)

/-- The configuration for a relabelled program. -/
def config (c : Config) :
    Config := { c with marker := r.name c.marker, binding := r.name c.binding }

/-- The context for a relabelled program. -/
def context (ctx : Context) : Context := { ctx with config := r.config ctx.config }

@[simp] theorem context_marker (ctx : Context) : (r.context ctx).marker = r.name ctx.marker := rfl

/-- Nodes that are made up stay without a place. -/
@[simp] theorem span_synthetic : r.span .synthetic = .synthetic := by
  simp only [span, Span.synthetic, r.position_synthetic]

/-- Comparing two names gives the same after both have been renamed. -/
theorem name_beq (a b : String) : (r.name a == r.name b) = (a == b) := by
  rw [Bool.eq_iff_iff, beq_iff_eq, beq_iff_eq, r.name_injective.eq_iff]

@[simp] theorem expression_span (e : Expression) : (r.expression e).span = r.span e.span := by
  cases e <;> rfl

/-! ### Markers -/

section Markers

variable (marker : String)

/-- Other names are no markers, so an identifier is a marker exactly if it was. -/
@[simp] theorem isMarker_identifier (id : Identifier) :
    (r.identifier id).isMarker (r.name marker) = id.isMarker marker := by
  rw [Identifier.isMarker, Identifier.isMarker, identifier, name_beq]

@[simp] theorem isPlainMarker_expression (e : Expression) :
    (r.expression e).isPlainMarker (r.name marker) = e.isPlainMarker marker := by
  cases e <;> simp [expression, Expression.isPlainMarker]

@[simp] theorem markerKind?_expression (e : Expression) :
    (r.expression e).markerKind? (r.name marker) = e.markerKind? marker := by
  -- two shapes have the marker one level down
  cases e with
  | unary s op argument => cases op <;> simp [expression, Expression.markerKind?]
  | array s es => rcases es with _ | ⟨_ | _, _ | _⟩ <;> simp [expression, Expression.markerKind?]
  | _ => simp [expression, Expression.markerKind?]

/-- The markers of a kind are where they were. -/
@[simp] theorem markerPositions_map (kind : MarkerKind) (arguments : List Expression) :
    markerPositions (r.name marker) kind (arguments.map r.expression) =
      markerPositions marker kind arguments := by
  simp [markerPositions, Option.any_map]

@[simp] theorem planCall?_map (arguments : List Expression) :
    planCall? (r.name marker) (arguments.map r.expression) = planCall? marker arguments := by
  simp only [planCall?, markerPositions_map]

@[simp] theorem hasPlainMarker_map (arguments : List Expression) :
    hasPlainMarker (r.name marker) (arguments.map r.expression) =
      hasPlainMarker marker arguments := by
  simp [hasPlainMarker, Function.comp_def]

@[simp] theorem markerParam?_map (params : List Identifier) :
    markerParam? (r.name marker) (params.map r.identifier) = markerParam? marker params := by
  simp [markerParam?, Function.comp_def]

end Markers

/-! ### Calls -/

section Calls

variable (ctx : Context)

/-- What is decided about a call depends on the kinds of its arguments. -/
theorem substitution?_relabelled (s : Span) (arguments : List Expression) :
    (r.context ctx).substitution? (r.span s) (arguments.map r.expression) =
      (ctx.substitution? s arguments).mapError r.diagnostic := by
  rw [Context.substitution?, context_marker, planCall?_map, Context.substitution?]
  cases planCall? ctx.marker arguments with
  | none => rfl
  | some plan => cases plan <;> rfl

/-- Generated code goes through the new binding. -/
@[simp] theorem expression_binding_member (property : String) :
    r.expression (ctx.binding.member property) = (r.context ctx).binding.member property := by
  simp only [Binding.member, Synthetic.member, Synthetic.reference, expression, span_synthetic]
  rfl

/-- A call of the adapter is one after relabelling, and nothing else is. -/
@[simp] theorem isAdapted_relabelled (e : Expression) :
    (r.context ctx).isAdapted (r.expression e) = ctx.isAdapted e := by
  -- only a member of an identifier, called, can be an adapter
  cases e with
  | call s callee arguments =>
    cases callee with
    | member s' base property =>
      cases base with
      | identifier s'' id =>
        simp only [expression, Context.isAdapted]
        exact congrArg (_ && ·) (r.name_beq id.name ctx.binding.name)
      | _ => rfl
    | _ => rfl
  | _ => rfl

/-- Whether a receiver has to be adapted does not depend on names, save that of the binding. -/
@[simp] theorem needsAdapter_relabelled (callee : Expression) :
    (r.context ctx).needsAdapter (r.expression callee) = ctx.needsAdapter callee := by
  cases callee with
  | member s base property =>
    simp only [expression, Context.needsAdapter, isAdapted_relabelled]
    rfl
  | _ => rfl

/-- The adapter of a relabelled receiver is the relabelled adapter. -/
theorem adaptReceiver_relabelled (receiver : Expression) :
    (r.context ctx).adaptReceiver (r.expression receiver) =
      r.expression (ctx.adaptReceiver receiver) := by
  simp only [Context.adaptReceiver, expression, expression_span, expressions_eq, List.map_cons,
    List.map_nil, Binding.array, expression_binding_member]

/-- Adapting a relabelled callee is relabelling the adapted one. -/
theorem adaptCallee_relabelled (callee : Expression) :
    (r.context ctx).adaptCallee (r.expression callee) = r.expression (ctx.adaptCallee callee) := by
  cases h : ctx.needsAdapter callee with
  | false =>
    rw [Context.adaptCallee_eq_self h,
      Context.adaptCallee_eq_self ((r.needsAdapter_relabelled ctx callee).trans h)]
  | true =>
    have h' := (r.needsAdapter_relabelled ctx callee).trans h
    cases callee with
    | member s base property =>
      rw [expression] at h' ⊢
      simp only [Context.adaptCallee, h, h', if_true, adaptReceiver_relabelled, expression]
    | _ => cases h

/-- Adapting counts the same. -/
theorem adaptation_relabelled (s : Span) (callee : Expression) :
    ((r.context ctx).adaptation (r.span s) (r.expression callee)).1 =
      (ctx.adaptation s callee).1 := by
  rw [Context.adaptation, Context.adaptation, needsAdapter_relabelled]
  split <;> rfl

/-- Which arguments are taken out depends on their positions in the list. -/
theorem rest_map (substitution : Substitution) (arguments : List Expression) :
    substitution.rest (arguments.map r.expression) =
      (substitution.rest arguments).map r.expression := by
  obtain ⟨first, second, awaited⟩ := substitution
  cases second with
  | none => exact List.eraseIdx_map ..
  | some second =>
    show ((arguments.map _).eraseIdx second).eraseIdx first = _
    rw [List.eraseIdx_map, List.eraseIdx_map]
    rfl

/-- A substituted call, relabelled, is the substitution of the relabelled one. -/
theorem substitute_relabelled (s : Span) (callee : Expression) (arguments : List Expression)
    (substitution : Substitution) :
    (r.context ctx).substitute (r.span s) (r.expression callee) (arguments.map r.expression)
        substitution =
      r.expression (ctx.substitute s callee arguments substitution) := by
  -- the adapter is made up with the new binding
  have h_future (rest : List Expression) :
      (r.context ctx).futureCall (r.span s) (r.expression callee) substitution.first
          (rest.map r.expression) =
        r.expression (ctx.futureCall s callee substitution.first rest) := by
    simp only [Context.futureCall, Synthetic.call, expression, expressions_eq, List.map_cons,
      List.map_nil, Binding.future, expression_binding_member, span_synthetic, List.length_map]
  rw [Context.substitute, Context.substitute, rest_map, h_future]
  split
  · simp only [expression, expressions_eq, List.map_cons, List.map_nil, Binding.await,
      expression_binding_member]
  · rfl

/-- The call rule refuses a relabelled call for the same reason. -/
theorem transformCall_relabelled_error {s : Span} {callee : Expression}
    {arguments : List Expression} {d : Diagnostic}
    (h : ctx.transformCall (.call s callee arguments) = .error d) :
    (r.context ctx).transformCall (r.expression (.call s callee arguments)) =
      .error (r.diagnostic d) := by
  have h_sub := Context.substitution?_of_refused h
  rw [expression, expressions_eq]
  refine Context.transformCall_error ?_
  rw [substitution?_relabelled, h_sub]
  rfl

/-- The call rule does the same to a relabelled call. -/
theorem transformCall_relabelled {s : Span} {callee : Expression} {arguments : List Expression}
    {change : Change Expression} (h : ctx.transformCall (.call s callee arguments) = .ok change) :
    ∃ change', (r.context ctx).transformCall (r.expression (.call s callee arguments)) =
        .ok change' ∧
      change'.node = r.expression change.node ∧
      (change'.outcome = .replaced ↔ change.outcome = .replaced) ∧
      change'.counts = change.counts := by
  rw [expression, expressions_eq]
  rcases Context.transformCall_cases h with
    ⟨h_sub, h_node, h_outcome, h_counts⟩ | ⟨substitution, h_sub, h_node, h_outcome, h_counts⟩
  · -- there is nothing to substitute in either call, or the same in both
    have h_sub' : (r.context ctx).substitution? (r.span s) (arguments.map r.expression) =
        .ok none := by
      rw [substitution?_relabelled, h_sub]
      rfl
    obtain ⟨change', h_change', h_node', h_outcome', h_counts'⟩ :=
      Context.transformCall_unmarked h_sub' (r.expression callee)
    refine ⟨change', h_change', ?_, iff_of_false h_outcome' h_outcome, ?_⟩
    · rw [h_node', h_node, adaptCallee_relabelled, expression, expressions_eq]
    · rw [h_counts', h_counts, adaptation_relabelled]
  · have h_sub' : (r.context ctx).substitution? (r.span s) (arguments.map r.expression) =
        .ok (some substitution) := by
      rw [substitution?_relabelled, h_sub]
      rfl
    obtain ⟨change', h_change', h_node', h_outcome', h_counts'⟩ :=
      Context.transformCall_substituted h_sub' (r.expression callee)
    refine ⟨change', h_change', ?_, iff_of_true h_outcome' h_outcome, ?_⟩
    · rw [h_node', h_node, adaptCallee_relabelled, substitute_relabelled]
    · rw [h_counts', h_counts, adaptation_relabelled]

/-- Whether markers are left in a call depends on their kinds. -/
@[simp] theorem isPending_relabelled (e : Expression) :
    (r.context ctx).isPending (r.expression e) = ctx.isPending e := by
  cases e with
  | call s callee arguments =>
    simp only [expression, expressions_eq, Context.isPending, context_marker, planCall?_map]
  | _ => rfl

end Calls

/-! ### Functions -/

@[simp] theorem function_head (f : Function) : (r.function f).head = r.head f.head := by
  cases f <;> rfl

/-- The statements of a relabelled function are relabelled, also the one that is made up. -/
theorem statements_relabelled (f : Function) :
    (r.function f).statements = f.statements.map r.statement := by
  cases f with
  | block h ss => exact r.statements_eq ss
  | value h result =>
    simp only [function, Function.statements, List.map_cons, List.map_nil, expression_span]
    rfl

/-- A relabelled body, completed, is the relabelled completion. -/
theorem completion_relabelled (param : Identifier) (ss : List Statement) :
    completion (r.identifier param) (ss.map r.statement) = r.statement (completion param ss) := by
  simp only [completion, Synthetic.statement, Synthetic.call, Synthetic.reference, Synthetic.null,
    Synthetic.arrow, statement, expression, function, expressions_eq, statements_eq, List.map_cons,
    List.map_nil, span_synthetic, info, head, Option.map_none]

/-- Completing through a parameter commutes with relabelling. -/
theorem completeThrough_relabelled (f : Function) (index : Nat) (param : Identifier) :
    Context.completeThrough (r.function f) index (r.identifier param) =
      r.function (Context.completeThrough f index param) := by
  have h_done : ({ r.identifier param with done := true } : Identifier) =
      r.identifier { param with done := true } := rfl
  simp only [Context.completeThrough, function_head, h_done, statements_relabelled,
    completion_relabelled, function, statements_eq, List.map_cons, List.map_nil, head, List.map_set]

/-- Completing a function commutes with relabelling, and counts the same. -/
theorem complete_relabelled (ctx : Context) (f : Function) :
    ((r.context ctx).complete (r.function f)).node = r.function (ctx.complete f).node ∧
      ((r.context ctx).complete (r.function f)).counts = (ctx.complete f).counts := by
  rw [Context.complete, Context.complete, function_head, context_marker, head, markerParam?_map]
  cases markerParam? ctx.marker f.head.params with
  | none => exact ⟨rfl, rfl⟩
  | some index =>
    simp only [List.getElem?_map]
    cases f.head.params[index]? with
    | none => exact ⟨rfl, rfl⟩
    | some param => exact ⟨r.completeThrough_relabelled f index param, rfl⟩

/-! ### Programs -/

section Programs

variable (ctx : Context)

/-- The declaration of the new binding is the relabelled declaration. -/
theorem declaration_relabelled (comments : List Comment) :
    (r.context ctx).declaration comments = r.statement (ctx.declaration comments) := by
  simp only [Context.declaration, Binding.declaration, Synthetic.declare, Synthetic.member,
    Synthetic.call, Synthetic.name, Synthetic.reference, Synthetic.string, Statement.withComments,
    Statement.withInfo, Statement.info, statement, declarators, declarator, optional, expression,
    expressions, span_synthetic, identifier, info, r.name_require]
  rfl

/-- Declaring the binding commutes with relabelling. -/
theorem declareIn_relabelled (ss : List Statement) :
    (r.context ctx).declareIn (ss.map r.statement) = (ctx.declareIn ss).map r.statement := by
  -- comments are not relabelled, so they can move to the declaration before or after
  have h_info (s : Statement) : (r.statement s).info = r.info s.info := by
    cases s <;> rfl
  have h_comments (s : Statement) (comments : List Comment) :
      (r.statement s).withComments comments = r.statement (s.withComments comments) := by
    cases s <;> rfl
  cases ss with
  | nil => simp only [List.map_nil, Context.declareIn, declaration_relabelled, List.map_cons]
  | cons first rest =>
    simp only [List.map_cons, Context.declareIn, declaration_relabelled, h_info, h_comments, info]

section Declared

variable (h_position : ∀ p, r.position p = {} → p = {})

include h_position

/-- With no other positions for the synthetic one, only synthetic spans become synthetic. -/
theorem span_beq_synthetic (s : Span) : (r.span s == .synthetic) = (s == .synthetic) := by
  rw [Bool.eq_iff_iff, beq_iff_eq, beq_iff_eq]
  constructor
  · intro h
    obtain ⟨h_start, h_stop⟩ := Span.mk.inj h
    obtain ⟨start, stop⟩ := s
    rw [h_position start h_start, h_position stop h_stop]
    rfl
  · rintro rfl
    exact r.span_synthetic

/-- A statement is the declaration exactly if the relabelled one is that of the new binding. -/
theorem isDeclaredBy_relabelled (moduleName exportName : String) (s : Statement) :
    (r.context ctx).binding.isDeclaredBy moduleName exportName (r.statement s) =
      ctx.binding.isDeclaredBy moduleName exportName s := by
  -- identifiers are compared by name, and different names stay different
  have h_identifier (id : Identifier) (name : String) :
      (r.identifier id == ⟨r.name name, false⟩) = (id == ⟨name, false⟩) := by
    rw [Bool.eq_iff_iff, beq_iff_eq, beq_iff_eq, identifier, Identifier.mk.injEq,
      r.name_injective.eq_iff]
    obtain ⟨_, _⟩ := id
    simp
  have h_require (id : Identifier) :
      (r.identifier id == ⟨"require", false⟩) = (id == ⟨"require", false⟩) := by
    rw [← h_identifier id "require", r.name_require]
  -- down to the text of the argument, the statement has the one shape or another one
  cases s with
  | «variables» i kind ds =>
    rcases ds with _ | ⟨⟨id, _ | init⟩, _ | _⟩
    case cons.some.nil =>
      cases init with
      | member outer base property =>
        cases base with
        | call middle callee arguments =>
          cases callee with
          | identifier inner callee =>
            rcases arguments with _ | ⟨argument, _ | _⟩
            case cons.nil =>
              cases argument with
              | literal leaf value =>
                cases value with
                | string loaded =>
                  cases kind with
                  | var =>
                    simp only [statement, declarators, declarator, optional, expression,
                      expressions, Binding.isDeclaredBy, r.span_beq_synthetic h_position, h_require]
                    rw [← h_identifier id ctx.binding.name]
                    rfl
                  | _ => rfl
                | _ => cases kind <;> rfl
              | _ => cases kind <;> rfl
            all_goals simp [statement, declarators, declarator, optional, expression, expressions,
              Binding.isDeclaredBy]
          | _ => cases kind <;> rfl
        | _ => cases kind <;> rfl
      | _ => cases kind <;> rfl
    all_goals simp [statement, declarators, declarator, optional, Binding.isDeclaredBy]
  | _ => rfl

/-- A program is behind the declaration exactly if the relabelled one is, provided that no other
position is taken for that of a made-up node. -/
theorem isDeclared_relabelled (p : Program) :
    (r.context ctx).isDeclared (r.program p) = ctx.isDeclared p := by
  rw [Context.isDeclared, Context.isDeclared, program, statements_eq, List.head?_map,
    Option.any_map]
  congr 1
  funext s
  exact r.isDeclaredBy_relabelled ctx h_position _ _ s

end Declared

end Programs

/-! ### Runs -/

/-- Walks over a tree and over the relabelled one: they count the same and refuse the same. -/
def comparison : Comparison Record Diagnostic Counts where
  nodes := r.nodes
  reads note := [note.counts]
  reads' note := [note.counts]
  failure := r.diagnostic
  follows _ := True

/-- Walks that end alike count the same. -/
theorem counts_of_endsAlike {r : Relabelling} {α β : Type} {w : Visit Record Diagnostic α}
    {w' : Visit Record Diagnostic β} (h : r.comparison.EndsAlike w w') :
    History.counts w'.notes = History.counts w.notes := by
  -- counts are a sum over the records, and this is what is read off them
  have h_counts (h : History) :
      History.counts h = (h.flatMap fun note => [note.counts]).foldr (· + ·) {} := by
    rw [← List.map_eq_flatMap, List.foldr_map]
    rfl
  rw [h_counts, h_counts]
  exact congrArg (List.foldr (· + ·) ({} : Counts)) h.notes

/-- The engine for relabelled programs. -/
def engine (g : Engine) : Engine := { g with context := r.context g.context }

/-- The limit is reached at a relabelled expression for the new marker, at its new place. -/
theorem limitReached_relabelled (g : Engine) (e : Expression) :
    (r.engine g).limitReached (r.expression e) = r.diagnostic (g.limitReached e) := by
  rw [Engine.limitReached, expression_span]
  rfl

section Rules

variable {g : Engine} (h_rules : g.rules = Rule.all)

include h_rules

/-- The loop does the same to a relabelled expression, round by round. -/
theorem settle_relabelled (left : Nat) (e : Expression) :
    r.comparison.Agree ((g.settle left e).map .expression)
      (((r.engine g).settle left (r.expression e)).map .expression) := by
  -- the rounds go in step, since the call rule makes the same change in both trees
  induction left generalizing e with
  | zero => exact ⟨⟨rfl, rfl⟩, fun _ => rfl⟩
  | succ left ih =>
    cases e with
    | call s callee arguments =>
      cases h_change : g.context.transformCall (.call s callee arguments) with
      | error d =>
        have h_change' := r.transformCall_relabelled_error g.context h_change
        rw [expression] at h_change' ⊢
        rw [Engine.settle_of_error h_rules h_change,
          Engine.settle_of_error (g := r.engine g) h_rules h_change']
        exact ⟨⟨rfl, rfl⟩, (absurd · (Option.some_ne_none _))⟩
      | ok change =>
        obtain ⟨change', h_change', h_node, h_outcome, h_counts⟩ :=
          r.transformCall_relabelled g.context h_change
        -- what the loop looks at before it goes on is the same for both trees
        have h_pending : (r.engine g).context.isPending change'.node =
            g.context.isPending change.node := by
          rw [h_node]
          exact r.isPending_relabelled g.context change.node
        have h_limit : (r.engine g).limitReached change'.node =
            r.diagnostic (g.limitReached change.node) := by
          rw [h_node, limitReached_relabelled]
        have h_record : [change'.counts] = [change.counts] := by rw [h_counts]
        rw [expression] at h_change' ⊢
        rw [Engine.settle_of_ok h_rules h_change,
          Engine.settle_of_ok (g := r.engine g) h_rules h_change']
        by_cases h_replaced : change.outcome = .replaced
        · rw [if_neg (not_not_intro h_replaced), if_neg (not_not_intro (h_outcome.2 h_replaced))]
          by_cases h_left : left = 0
          · rw [if_pos h_left, if_pos h_left, h_pending, h_limit]
            split
            · -- both walks are stopped here, and a stop counts nothing
              exact ⟨⟨congrArg (· ++ [({} : Counts)]) h_record, rfl⟩,
                (absurd · (Option.some_ne_none _))⟩
            · exact ⟨⟨h_record, rfl⟩, fun _ => congrArg Subtree.expression h_node⟩
          · rw [if_neg h_left, if_neg h_left, h_node]
            have h_later := ih change.node
            exact ⟨⟨congrArg₂ (· ++ ·) h_record h_later.notes, h_later.failure⟩, h_later.value⟩
        · rw [if_pos h_replaced, if_pos (fun h => h_replaced (h_outcome.1 h)), h_node]
          exact ⟨⟨h_record, rfl⟩, fun _ => rfl⟩
    | construct s callee arguments =>
      rw [expression, expressions_eq, Engine.settle_construct h_rules,
        Engine.settle_construct (g := r.engine g) h_rules]
      have h_marked : hasPlainMarker (r.engine g).context.marker (arguments.map r.expression) =
          hasPlainMarker g.context.marker arguments :=
        r.hasPlainMarker_map g.context.marker arguments
      rw [h_marked]
      split
      · exact ⟨⟨rfl, rfl⟩, (absurd · (Option.some_ne_none _))⟩
      · refine ⟨⟨rfl, rfl⟩, fun _ => ?_⟩
        show _ = r.nodes.apply (.expression _)
        rw [NodeMap.apply, nodes_expression, expression, expressions_eq]
        rfl
    | _ =>
      rw [Engine.settle_of_not_offered rfl, Engine.settle_of_not_offered rfl]
      exact ⟨⟨rfl, rfl⟩, fun _ => rfl⟩

/-- The hooks do the same at a relabelled node. -/
theorem hook_relabelled (t : Subtree) :
    r.comparison.Agree (g.visitor.hook t) ((r.engine g).visitor.hook (r.nodes.apply t)) := by
  cases t with
  | statement s => exact ⟨⟨rfl, rfl⟩, fun _ => rfl⟩
  | function f =>
    obtain ⟨h_node, h_counts⟩ := r.complete_relabelled g.context f
    -- the same parameter is the marker
    have h_marked : markerParam? (r.context g.context).marker (r.function f).head.params =
        markerParam? g.context.marker f.head.params := by
      rw [function_head]
      exact r.markerParam?_map g.context.marker f.head.params
    show r.comparison.Agree
      (((Engine.apply g.context .function g.rules f).map Prod.fst).map .function)
      (((Engine.apply (r.context g.context) .function g.rules (r.function f)).map Prod.fst).map
        .function)
    rw [h_rules, Engine.apply_function, Engine.apply_function, h_marked]
    split
    · exact ⟨⟨congrArg ([·]) h_counts, rfl⟩, fun _ => congrArg Subtree.function h_node⟩
    · exact ⟨⟨rfl, rfl⟩, fun _ => rfl⟩
  | expression e => exact r.settle_relabelled h_rules (max 1 g.limit) e

/-- A run over a relabelled program counts the same, and refuses the same or leaves the relabelled
result, if the program is behind the declaration exactly if the relabelled one is. -/
theorem run_relabelled {p : Program}
    (h_declared : (r.context g.context).isDeclared (r.program p) = g.context.isDeclared p) :
    History.counts ((r.engine g).run (r.program p)).notes = History.counts (g.run p).notes ∧
      ((r.engine g).run (r.program p)).failure = (g.run p).failure.map r.diagnostic ∧
      ((g.run p).failure = none →
        ((r.engine g).run (r.program p)).value = r.program (g.run p).value) := by
  obtain ⟨h_value, -, h_none⟩ := Engine.hook_program h_rules p
  obtain ⟨h_value', -, h_none'⟩ := Engine.hook_program (g := r.engine g) h_rules (r.program p)
  -- both programs are declared or neither is, and this cannot fail
  have h_program : r.comparison.EndsAlike (g.visitor.program p)
      ((r.engine g).visitor.program (r.program p)) := by
    show r.comparison.EndsAlike ((Engine.apply g.context .program g.rules p).map Prod.fst)
      ((Engine.apply (r.context g.context) .program g.rules (r.program p)).map Prod.fst)
    rw [h_rules, Engine.apply_program, Engine.apply_program, h_declared]
    split <;> exact ⟨rfl, rfl⟩
  have h_body : (g.visitor.program p).failure = none →
      ((r.engine g).visitor.program (r.program p)).value.body =
        (g.visitor.program p).value.body.map r.statement := by
    intro _
    rw [h_value, h_value']
    show (r.context g.context).declaredBody (r.program p) =
        (g.context.declaredBody p).map r.statement
    rw [Context.declaredBody, Context.declaredBody, h_declared]
    split
    · exact r.statements_eq p.body
    · rw [program, statements_eq, declareIn_relabelled]
  have h_ends := Comparison.visitProgram_endsAlike r.keepsShape
    (fun t _ => r.hook_relabelled h_rules t) h_program h_body (fun _ _ => trivial)
  refine ⟨counts_of_endsAlike h_ends, h_ends.failure, fun h => ?_⟩
  have h_bodies := Comparison.visitProgram_body r.keepsShape
    (fun t _ => r.hook_relabelled h_rules t) h_program h_body h
  have h' : ((r.engine g).run (r.program p)).failure = none := h_ends.failure_eq_none_iff.2 h
  -- runs leave the spans of programs as they are
  have h_span : (g.run p).value.span = p.span := by
    rw [Engine.run, Visitor.visitProgram_value _ h, h_value]
  have h_span' : ((r.engine g).run (r.program p)).value.span = r.span p.span := by
    rw [Engine.run, Visitor.visitProgram_value _ h', h_value']
    rfl
  have h_result : r.program (g.run p).value =
      ⟨(g.run p).value.body.map r.statement, r.span p.span⟩ := by
    rw [program, statements_eq, h_span]
  rw [h_result, ← h_span']
  exact congrArg (Program.mk · _) h_bodies

end Rules

/-- What comes of a relabelled program, from what comes of the program itself. -/
def result : Except Diagnostic Output → Except Diagnostic Output
  | .ok output => .ok ⟨r.program output.program, output.summary⟩
  | .error d => .error (r.diagnostic d)

end Relabelling

/-- **Names are honoured everywhere.** A file is transformed with other names in the program, and
the same for the marker and the binding in the configuration: the result is the old one with those
names. The program has them, the summary is the same; or it is refused for the same reason, and the
diagnostic names the new marker. No two names may become one, and `require` has to stay. -/
theorem Session.transform_renamed {s s' : Session} {name : String → String}
    (h_injective : Function.Injective name) (h_require : name "require" = "require")
    (h_rules : s.rules = Rule.all) (h_rules' : s'.rules = s.rules) (h_limit : s'.limit = s.limit)
    (h_config : s'.config =
      { s.config with marker := name s.config.marker, binding := name s.config.binding })
    {file : FileDescriptor} (h_selected : s.selects file = true)
    (h_selected' : s'.selects file = true) (sink : Sink) (p : Program) :
    let r := Relabelling.ofNames name h_injective h_require
    (s'.transform sink (r.program p) file).1.result = r.result (s.transform sink p file).1.result ∧
      (s'.transform sink (r.program p) file).1.diagnostics =
        (s.transform sink p file).1.diagnostics.map r.diagnostic := by
  intro r
  -- the session with the other names has the engine for relabelled programs
  have h_engine : s'.engine file = r.engine (s.engine file) := by
    rw [Session.engine, h_config, h_rules', h_limit]
    rfl
  obtain ⟨h_counts, h_failure, h_value⟩ := r.run_relabelled (g := s.engine file) h_rules
    (r.isDeclared_relabelled _ (fun _ h => h) p)
  rw [← h_engine] at h_counts h_failure h_value
  rw [transform_of_selected h_selected, transform_of_selected h_selected']
  dsimp only
  rw [report_diagnostics_of_sink, report_diagnostics_of_sink, h_failure]
  -- a failure is reported with the new marker, and otherwise nothing is reported at all
  cases h_case : ((s.engine file).run p).failure with
  | none =>
    rw [h_case] at h_failure
    simp only [report, h_failure, h_case, Option.map_none, h_counts, h_value h_case]
    exact ⟨rfl, rfl⟩
  | some d =>
    rw [h_case] at h_failure
    simp only [report, h_failure, h_case, Option.map_some]
    refine ⟨rfl, ?_⟩
    cases sink <;> rfl

/-- The marker and the name `cb` are exchanged, and so are the binding and the name `rt`. A call of
`g` with both `cb` and a marker is transformed, and one with three markers is refused. -/
theorem Session.transform_renamed_exchanged :
    let exchange := (Equiv.swap "_" "cb").trans (Equiv.swap "$$streamline" "rt")
    let s : Session := addMarkerRules { config := {}, selector := .always }
    let s' : Session :=
      addMarkerRules { config := { marker := "cb", binding := "rt" }, selector := .always }
    let call (arguments : List String) : Program := ⟨[.expression {} (.call (.at 1 0 9)
      (.identifier (.at 1 0 1) ⟨"g", false⟩)
      (arguments.map fun n => .identifier (.at 1 2 3) ⟨n, false⟩))], .synthetic⟩
    ∃ r : Relabelling, r.name = exchange ∧
      r.program (call ["cb", "_"]) = call ["_", "cb"] ∧
      (∃ output, (s.transform .collected (call ["cb", "_"]) {}).1.result = .ok output ∧
        (s'.transform .collected (call ["_", "cb"]) {}).1.result =
          .ok ⟨r.program output.program, output.summary⟩) ∧
      (s'.transform .collected (call ["cb", "cb", "cb"]) {}).1.result =
        .error (.tooManyMarkers "cb" 3 ⟨"unknown", 1, 0⟩) := by
  intro exchange s s' call
  have h_rules : s.rules = Rule.all := Session.addMarkerRules_rules rfl
  have h_rules' : s'.rules = s.rules := (Session.addMarkerRules_rules rfl).trans h_rules.symm
  have h_selected : s.selects {} = true := rfl
  have h_selected' : s'.selects {} = true := rfl
  have h_require : exchange "require" = "require" := by decide
  have h_config : s'.config =
      { s.config with
        marker := exchange s.config.marker, binding := exchange s.config.binding } := by
    decide
  have h_renamed := Session.transform_renamed exchange.injective h_require h_rules h_rules' rfl
    h_config h_selected h_selected' .collected
  refine ⟨Relabelling.ofNames exchange exchange.injective h_require, rfl, ?_, ?_, ?_⟩
  · rfl
  · -- the first session succeeds, so the other one does
    obtain ⟨output, h_ok⟩ := Session.transform_ok_of_no_offence h_rules h_selected
      (p := call ["cb", "_"]) (by decide) .collected
    refine ⟨output, h_ok, ?_⟩
    have h_result := (h_renamed (call ["cb", "_"])).1
    rw [h_ok] at h_result
    exact h_result
  · -- the first session refuses three of its markers, so the other one does
    have h_error := Session.transform_error_of_offence h_rules h_selected
      (p := call ["_", "_", "_"]) (d := .tooManyMarkers "_" 3 ⟨"unknown", 1, 0⟩) (by decide)
      .collected
    have h_result := (h_renamed (call ["_", "_", "_"])).1
    rw [h_error] at h_result
    exact h_result

end AsyncMarkers
