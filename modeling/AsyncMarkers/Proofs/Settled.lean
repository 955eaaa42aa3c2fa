import AsyncMarkers.Proofs.NormalForm
import AsyncMarkers.Proofs.Verdict

/-!
# Nothing pending is left behind

What a run leaves, if it succeeds, starts with the declaration and has no call with a marker among
its arguments and no construction with a plain one, in user code or in what has been made up. A
further run has thus nothing to declare, to substitute or to refuse
(`Session.transform_leaves_nothing_pending`).

That the replacement loop leaves nothing pending at a call is `Engine.settle_settled`. It remains
that visiting the arguments afterwards does not turn one of them into a marker
(`Engine.results_markerKind?`), so nodes stay settled as the walk goes on below them.

A further run may still adapt receivers and complete functions. Adapting puts a receiver into an
argument list, so for the second statement more has to be known of what is left: the receivers of
array methods are no markers either. This, with the absence of markers in argument lists, is what
`Context.isQuiet` says of a node. It holds of every node that a run leaves (`Engine.visit_isQuiet`),
because a receiver is adapted before it is visited and an adapted receiver is a call; and a run on a
quiet tree goes over quiet trees only (`Engine.hook_quiet`).
-/

namespace AsyncMarkers

/-- Whether no marker stands at a node where a run would substitute or refuse it: neither among the
arguments nor in the place of a receiver, which becomes an argument when it is adapted. -/
def Context.isQuiet (ctx : Context) : Subtree → Bool
  | .expression (.call _ callee arguments) =>
    (planCall? ctx.marker arguments).isNone &&
      (ctx.arrayReceiver? callee).all fun receiver => (receiver.markerKind? ctx.marker).isNone
  | .expression (.construct _ _ arguments) => !hasPlainMarker ctx.marker arguments
  | _ => true

namespace Context

variable {ctx : Context}

/-- Plain nodes are quiet. -/
theorem isQuiet_of_plain (n : Subtree) (h : ctx.Plain n) : ctx.isQuiet n = true := by
  cases h with
  | statement s => rfl
  | function h_params => rfl
  | @expression e h_shape =>
    -- only calls and constructions can fail to be quiet
    cases e with
    | call _ _ _ | construct _ _ _ => cases h_shape
    | _ => rfl
  | call span h_callee h_plan => simp [Context.isQuiet, h_plan, h_callee]

/-- A call is quiet if it has no markers and no marker for a receiver either. -/
theorem isQuiet_call {span : Span} {callee : Expression} {arguments : List Expression} :
    ctx.isQuiet (.expression (.call span callee arguments)) = true ↔
      planCall? ctx.marker arguments = none ∧
        ∀ receiver, ctx.arrayReceiver? callee = some receiver →
          receiver.markerKind? ctx.marker = none := by
  simp [isQuiet, Option.all_eq_true]

/-- Adapting a receiver that is no marker leaves a quiet callee quiet. -/
theorem everywhere_quiet_adaptCallee {callee : Expression}
    (h_receiver : ∀ receiver, ctx.arrayReceiver? callee = some receiver →
      receiver.markerKind? ctx.marker = none)
    (h : (Subtree.expression callee).Everywhere (ctx.isQuiet · = true)) :
    (Subtree.expression (ctx.adaptCallee callee)).Everywhere (ctx.isQuiet · = true) := by
  rcases ctx.adaptCallee_cases callee with ⟨-, h_eq⟩ | ⟨s, receiver, property, rfl, h_needs, h_eq⟩
  · rw [h_eq]
    exact h
  -- the callee is a member with the name of an array method, or it would need no adapter
  have h_array : ctx.arrayReceiver? (.member s receiver property) = some receiver := by
    simp only [needsAdapter, Bool.and_eq_true] at h_needs
    exact arrayReceiver?_eq_some.2 ⟨s, property, rfl, h_needs.1⟩
  -- the adapter's only argument is the receiver, which is no marker
  have h_adapter : ctx.Plain (.expression (ctx.adaptReceiver receiver)) := by
    refine .call _ (arrayReceiver?_member (isArrayMethod_array _)) ?_
    rw [planCall?_eq_none_iff_forall, List.forall_mem_singleton]
    exact h_receiver receiver h_array
  rw [Plain.everywhere_iff isQuiet_of_plain (.expression rfl)] at h
  rw [h_eq, Plain.everywhere_iff isQuiet_of_plain (.expression rfl)]
  refine List.forall_mem_singleton.2 ?_
  rw [Plain.everywhere_iff isQuiet_of_plain h_adapter]
  refine List.forall_mem_cons.2 ⟨everywhere_member isQuiet_of_plain "array", ?_⟩
  exact List.forall_mem_singleton.2 (List.forall_mem_singleton.1 h)

end Context

namespace Engine

variable {g : Engine} (h_rules : g.rules = Rule.all)

include h_rules

/-! ### What a run leaves is quiet -/

/-- A settled expression is quiet once its parts have been visited. -/
theorem isQuiet_results {e : Expression} (h_settled : g.context.isSettled e = true)
    (h_parts : ∀ part ∈ e.parts, (g.visitor.visit part).failure = none) :
    g.context.isQuiet (.expression (e.mapParts g.visitor.results)) = true := by
  cases e with
  | call span callee arguments =>
    obtain ⟨h_plan, h_adapted⟩ := Context.isSettled_call.1 h_settled
    simp only [Expression.parts, List.forall_mem_cons, List.forall_mem_map] at h_parts
    obtain ⟨h_callee, h_arguments⟩ := h_parts
    rw [Expression.mapParts, Context.isQuiet_call, planCall?_results h_rules h_arguments,
      arrayReceiver?_results h_rules h_callee]
    refine ⟨h_plan, fun receiver' h_receiver' => ?_⟩
    obtain ⟨receiver, h_receiver, rfl⟩ := Option.map_eq_some_iff.1 h_receiver'
    -- the receiver was adapted before the visit, so it was a call and no marker
    have h_call := Context.isAdapted_of_needsAdapter_eq_false h_adapted h_receiver
    rw [results_markerKind? h_rules (visit_arrayReceiver h_receiver h_callee)]
    exact Context.markerKind?_of_isAdapted h_call _
  -- a construction that is settled has no plain markers, and visiting its arguments makes none
  | construct span callee arguments =>
    simp only [Context.isSettled, Bool.not_eq_true'] at h_settled
    simp only [Expression.parts, List.forall_mem_cons, List.forall_mem_map] at h_parts
    simp only [Expression.mapParts, Context.isQuiet, hasPlainMarker_results h_rules h_parts.2,
      h_settled, Bool.not_false]
  | _ => rfl

/-- A visit that succeeds leaves a quiet node. -/
theorem visit_isQuiet (t : Subtree) (h : (g.visitor.visit t).failure = none) :
    g.context.isQuiet (g.visitor.visit t).value = true := by
  rw [g.visitor.visit_value h]
  obtain ⟨h_hook, h_parts⟩ := g.visitor.visit_failure_eq_none.1 h
  -- what the hook leaves at a node is settled, and visiting its parts does not undo that
  cases t with
  | statement s => rfl
  | function f =>
    rw [hook_function_value h_rules]
    rfl
  | expression e =>
    exact isQuiet_results h_rules (settle_settled h_rules (by omega) h_hook) h_parts

/-- A run that succeeds leaves quiet nodes only. -/
theorem run_isQuiet {p : Program} (h : (g.run p).failure = none) :
    ∀ n ∈ (g.run p).value.listing, g.context.isQuiet n = true :=
  run_listing h_rules (P := fun n => g.context.isQuiet n = true) (visit_isQuiet h_rules) h

/-! ### A run on quiet trees -/

/-- At a quiet node nothing is refused, declared or substituted, and the tree that the walk goes on
with is quiet. -/
theorem hook_quiet {t : Subtree} (h : t.Everywhere (g.context.isQuiet · = true)) :
    (g.visitor.hook t).failure = none ∧
      (History.counts (g.visitor.hook t).notes).declarations = 0 ∧
      (History.counts (g.visitor.hook t).notes).calls = 0 ∧
      ∀ part ∈ (g.visitor.hook t).value.parts, part.Everywhere (g.context.isQuiet · = true) := by
  obtain ⟨h_top, h_below⟩ := Subtree.everywhere_iff.1 h
  cases t with
  | statement s => exact ⟨rfl, rfl, rfl, h_below⟩
  -- completing a function adds plain nodes only, and these are quiet
  | function f =>
    rw [hook_function_failure h_rules, hook_function_counts h_rules, hook_function_value h_rules]
    refine ⟨rfl, ?_, ?_, (Context.everywhere_complete Context.isQuiet_of_plain f).2 h_below⟩ <;>
    · rcases g.context.complete_cases f with ⟨-, h_eq⟩ | ⟨index, param, -, -, -, h_eq⟩ <;> rw [h_eq]
  | expression e =>
    obtain ⟨left, h_left⟩ := g.exists_allowance
    rw [hook_expression, h_left]
    cases e with
    | call span callee arguments =>
      obtain ⟨h_plan, h_receiver⟩ := Context.isQuiet_call.1 h_top
      obtain ⟨h_callee, h_arguments⟩ := List.forall_mem_cons.1 h_below
      obtain ⟨notes, h_counts, h_settle⟩ := settle_unmarked h_rules h_plan span callee left
      -- all that can happen to the call is that its receiver is adapted
      have h_adapted := Context.everywhere_quiet_adaptCallee h_receiver h_callee
      rw [h_settle, Visit.map_notes, h_counts, Context.adaptation]
      refine ⟨rfl, ?_, ?_, List.forall_mem_cons.2 ⟨h_adapted, h_arguments⟩⟩ <;> split <;> rfl
    | construct span callee arguments =>
      simp only [Context.isQuiet, Bool.not_eq_true'] at h_top
      rw [settle_construct h_rules, h_top]
      exact ⟨rfl, rfl, rfl, h_below⟩
    | _ =>
      rw [settle_of_not_offered rfl]
      exact ⟨rfl, rfl, rfl, h_below⟩

/-- A visit of a quiet tree succeeds, and neither declares nor substitutes anything. -/
theorem visit_quiet {t : Subtree} (h : t.Everywhere (g.context.isQuiet · = true)) :
    (g.visitor.visit t).failure = none ∧
      (History.counts (g.visitor.visit t).notes).declarations = 0 ∧
      (History.counts (g.visitor.visit t).notes).calls = 0 := by
  -- that all is quiet below is handed on from the node that the hook leaves to its parts
  induction t using g.visitor.visit_induction with
  | step t ih =>
    obtain ⟨h_hook, h_declarations, h_calls, h_parts⟩ := hook_quiet h_rules h
    have h_visits (part : Subtree) (h_part : part ∈ (g.visitor.hook t).value.parts) :=
      ih part h_part (h_parts part h_part)
    have h_failure : (g.visitor.visit t).failure = none := by
      rw [Visitor.visit_failure_eq_none]
      exact ⟨h_hook, fun part h_part => (h_visits part h_part).1⟩
    rw [g.visitor.visit_notes h_failure, History.counts_append]
    have h_below := History.counts_flatMap_none fun part h_part => (h_visits part h_part).2
    exact ⟨h_failure, by simp [h_declarations, h_below.1], by simp [h_calls, h_below.2]⟩

/-- A run on a quiet program that is declared succeeds, and neither declares nor substitutes
anything. -/
theorem run_quiet {p : Program} (h_declared : g.context.isDeclared p = true)
    (h : ∀ n ∈ p.listing, g.context.isQuiet n = true) :
    (g.run p).failure = none ∧ (History.counts (g.run p).notes).declarations = 0 ∧
      (History.counts (g.run p).notes).calls = 0 := by
  have h_body : g.context.declaredBody p = p.body := if_pos h_declared
  have h_none : g.context.declarationCount p = {} := if_pos h_declared
  have h_visits (s : Statement) (hs : s ∈ p.body) :=
    visit_quiet h_rules (Program.forall_listing_iff.1 h s hs)
  have h_failure : (g.run p).failure = none := by
    rw [run_failure_eq_none h_rules, h_body]
    exact fun s hs => (h_visits s hs).1
  refine ⟨h_failure, ?_⟩
  rw [run_counts h_rules h_failure, h_none, h_body, Counts.zero_add]
  refine History.counts_flatMap_none fun t ht => ?_
  obtain ⟨s, hs, rfl⟩ := List.mem_map.1 ht
  exact (h_visits s hs).2

end Engine

/-! ### The second run -/

/-- **Nothing pending is left behind.** What comes of a file that is transformed starts with the
declaration, and it has no call with a marker among its arguments and no construction with a plain
marker. Transforming it again, for any file that is selected, succeeds, and neither declares the
binding nor substitutes a call. -/
theorem Session.transform_leaves_nothing_pending {s : Session} (h_rules : s.rules = Rule.all)
    {file : FileDescriptor} (h_selected : s.selects file = true) {sink : Sink} {p : Program}
    {output : Output} (h : (s.transform sink p file).1.result = .ok output) :
    (∃ info rest, output.program.body =
      ((Binding.mk s.config.binding).declaration s.config.moduleName
        s.config.exportName).withInfo info :: rest) ∧
    (∀ span callee arguments,
      .expression (.call span callee arguments) ∈ output.program.listing →
        planCall? s.config.marker arguments = none) ∧
    (∀ span callee arguments,
      .expression (.construct span callee arguments) ∈ output.program.listing →
        hasPlainMarker s.config.marker arguments = false) ∧
    ∀ (s' : Session) (sink' : Sink) (file' : FileDescriptor), s'.config = s.config →
      s'.rules = s.rules → s'.selects file' = true →
      ∃ again, (s'.transform sink' output.program file').1.result = .ok again ∧
        again.summary.counts.declarations = 0 ∧ again.summary.counts.calls = 0 := by
  obtain ⟨h_run, rfl⟩ := (Session.transform_result_eq_ok h_selected).1 h
  have h_declared := Engine.run_isDeclared h_rules h_run
  have h_quiet := Engine.run_isQuiet h_rules h_run
  refine ⟨?_, ?_, ?_, ?_⟩
  · exact Context.isDeclared_iff.1 h_declared
  · intro span callee arguments h_call
    exact (Context.isQuiet_call.1 (h_quiet _ h_call)).1
  · intro span callee arguments h_new
    have h_node := h_quiet _ h_new
    simp only [Context.isQuiet, Bool.not_eq_true'] at h_node
    exact h_node
  · intro s' sink' file' h_config h_rules' h_selected'
    -- whether nodes are quiet and programs declared depends on the configuration, not on the file
    have h_same : (s'.engine file').context.config = (s.engine file).context.config := h_config
    have h_declared' (p : Program) :=
      Context.eq_of_config (f := (·.isDeclared p)) (fun _ _ _ => rfl) h_same
    have h_quiet' (n : Subtree) :=
      Context.eq_of_config (f := (·.isQuiet n)) (fun _ _ _ => rfl) h_same
    obtain ⟨h_again, h_counts⟩ := Engine.run_quiet (g := s'.engine file') (h_rules'.trans h_rules)
      ((h_declared' _).trans h_declared) fun n hn => (h_quiet' n).trans (h_quiet n hn)
    exact ⟨_, (Session.transform_result_eq_ok h_selected').2 ⟨h_again, rfl⟩, h_counts⟩

/-- `function f(x, _) { return xs.map_(g(!_, y), _); }` has a call to be awaited, with a receiver to
be adapted, around one that is made a future, in a function that is to be completed. -/
theorem Session.transform_leaves_nothing_pending_nested :
    let s : Session := addMarkerRules { config := {}, selector := .always }
    let name (n : String) : Expression := .identifier .synthetic ⟨n, false⟩
    let inner : Expression :=
      .call .synthetic (name "g") [.unary .synthetic .not (name "_"), name "y"]
    let outer : Expression :=
      .call .synthetic (.member .synthetic (name "xs") ⟨"map_", false⟩) [inner, name "_"]
    let f : Function := .block ⟨some ⟨"f", false⟩, [⟨"x", false⟩, ⟨"_", false⟩], .synthetic⟩
      [.return {} (some outer)]
    ∃ output, (s.transform .collected ⟨[.function {} f], .synthetic⟩ {}).1.result = .ok output ∧
      (∀ span callee arguments,
        .expression (.call span callee arguments) ∈ output.program.listing →
          planCall? "_" arguments = none) ∧
      ∃ again, (s.transform .logged output.program {}).1.result = .ok again ∧
        again.summary.counts.declarations = 0 ∧ again.summary.counts.calls = 0 := by
  intro s name inner outer f
  have h_rules : s.rules = Rule.all := Session.addMarkerRules_rules rfl
  have h_selected : s.selects {} = true := rfl
  -- there is an output, since there is no offence, and the second run is about that output
  obtain ⟨output, h_output⟩ := Session.transform_ok_of_no_offence h_rules h_selected
    (p := ⟨[.function {} f], .synthetic⟩) (by decide) .collected
  obtain ⟨-, h_calls, -, h_again⟩ :=
    Session.transform_leaves_nothing_pending h_rules h_selected h_output
  exact ⟨output, h_output, h_calls, h_again s .logged {} rfl rfl h_selected⟩

end AsyncMarkers
