import AsyncMarkers.Proofs.Tally
import AsyncMarkers.Proofs.Verdict

/-!
# The summary counts the input

A run changes the tree that it walks over, and walks over what it has made. Its summary is
nevertheless a statement about the input (`Session.transform_counts_input`): it counts the functions
with a marker parameter, the calls of array methods with a receiver that is not adapted, and the
declaration if it is missing, all in the tree as it was given. And between one and two markers go
for every call that is rewritten.

Each of these is an account in the sense of `Engine.Accounting`. The rules make no functions and no
receivers that have to be dealt with, so these only get fewer. A function stops being one to be
completed when it is visited, even if it has a second marker parameter that stays; so what is
weighed before the visit weighs nothing after it.
-/

namespace AsyncMarkers

/-! ### What is counted -/

namespace Context

/-- Whether a node is a function with a marker among its parameters. -/
def isCompletable (ctx : Context) : Subtree → Bool
  | .function f => f.head.params.any (·.isMarker ctx.marker)
  | _ => false

/-- Whether a node is a call of an array method with a receiver that is not adapted. -/
def isAdaptable (ctx : Context) : Subtree → Bool
  | .expression (.call _ (.member _ receiver property) _) =>
    ctx.config.isArrayMethod property.name && !ctx.isAdapted receiver
  | _ => false

/-- Whether a node is a marker by itself. -/
def isMarkerName (ctx : Context) : Subtree → Bool
  | .expression e => e.isPlainMarker ctx.marker
  | _ => false

variable {ctx : Context}

/-- A call is adaptable if its callee needs an adapter. -/
theorem isAdaptable_call (span : Span) (callee : Expression) (arguments : List Expression) :
    ctx.isAdaptable (.expression (.call span callee arguments)) = ctx.needsAdapter callee := by
  cases callee <;> rfl

/-- A settled expression has no receiver to be adapted. -/
theorem isAdaptable_of_isSettled {e : Expression} (h : ctx.isSettled e = true) :
    ctx.isAdaptable (.expression e) = false := by
  cases e with
  | call span callee arguments =>
    rw [isAdaptable_call]
    exact (isSettled_call.1 h).2
  | _ => rfl

/-- Only functions are completed. -/
theorem regular_completable : (Weight.counting ctx.isCompletable).Regular ctx 0 0 where
  of_inert n h := by
    cases h with
    | function h_params => simp [Weight.counting, isCompletable, h_params]
    | _ => rfl
  of_marker _ _ _ := rfl

/-- Only calls of array methods are adapted. -/
theorem regular_adaptable : (Weight.counting ctx.isAdaptable).Regular ctx 0 0 where
  of_inert n h := by
    cases h with
    | statement _ | function _ => rfl
    | expression h_shape _ =>
      rw [Weight.counting, isAdaptable_of_isSettled (isSettled_of_not_offered h_shape)]
      rfl
    | call span h_callee _ =>
      rw [Weight.counting, isAdaptable_call, needsAdapter_of_arrayReceiver?_eq_none h_callee]
      rfl
  of_marker _ _ _ := rfl

/-- Of the nodes that the rules deal with, only markers are markers. -/
theorem regular_marker : (Weight.counting ctx.isMarkerName).Regular ctx 0 1 where
  of_inert n h := by
    cases h with
    | statement _ | function _ | call _ _ _ => rfl
    | expression _ h_plain =>
      rw [Weight.counting, isMarkerName, h_plain]
      rfl
  of_marker s id h_id := by
    rw [Weight.counting, isMarkerName, Expression.isPlainMarker, h_id]
    rfl

end Context

/-! ### The accounts -/

/-- A function counts once if it is completed, however many of its parameters are markers. -/
theorem Context.complete_counts (ctx : Context) (f : Function) :
    (ctx.complete f).counts =
      { functions := Weight.counting ctx.isCompletable (.function f) } := by
  rw [Weight.counting, isCompletable]
  -- one parameter with a marker is enough, and which one it is does not matter
  rcases ctx.complete_cases f with ⟨h_none, h_eq⟩ | ⟨index, param, h_at, h_marker, -, h_counts⟩
  · have h_any : f.head.params.any (·.isMarker ctx.marker) = false := by
      simpa [List.countP_eq_zero] using h_none
    rw [h_eq, h_any]
    rfl
  · have h_any : f.head.params.any (·.isMarker ctx.marker) = true :=
      List.any_eq_true.2 ⟨param, List.mem_of_getElem? h_at, h_marker⟩
    rw [h_counts, h_any]
    rfl

namespace Weight.Regular

variable {w : Weight} {ctx : Context} {marker : Nat}

/-- The rules put no nodes with a weight into a function when they complete it. -/
theorem total_complete (h : w.Regular ctx 0 marker) (f : Function) :
    w.total (ctx.complete f).node.parts = w.total f.parts := by
  rcases ctx.complete_cases f with ⟨-, h_eq⟩ | ⟨index, param, -, -, h_node, -⟩
  · rw [h_eq]
  · rw [h_node]
    have h_body := h.total_completeThrough f index param
    omega

/-- Nor do they put any into a call when they change it; they take out one marker or two if they
rewrite the call. -/
theorem total_rewritten (h : w.Regular ctx 0 marker)
    (h_calls : ∀ span callee arguments, ctx.needsAdapter callee = false →
      w (.expression (.call span callee arguments)) = 0)
    {span : Span} {callee : Expression} {arguments : List Expression} {change : Change Expression}
    (h_change : ctx.transformCall (.call span callee arguments) = .ok change) :
    ∃ k, change.counts.calls ≤ k ∧ k ≤ 2 * change.counts.calls ∧
      w.total [.expression change.node] + w (.expression (.call span callee arguments)) +
        k * marker =
        w.total [.expression (.call span callee arguments)] := by
  have h_total := h.total_change h_calls h_change
  have h_adapters : (if ctx.needsAdapter callee then 3 * 0 else 0) = 0 := ite_self 0
  rw [h_adapters] at h_total
  -- no call is rewritten, or one with one or two plain markers, or one with a future marker
  rcases h_total with ⟨h_kept, h_total⟩ | ⟨h_call, k, h_pos, h_le, h_total⟩ | ⟨h_call, h_total⟩
  · exact ⟨0, by omega, by omega, by omega⟩
  · exact ⟨k, by omega, by omega, by omega⟩
  · exact ⟨1, by omega, by omega, by omega⟩

end Weight.Regular

namespace Engine

variable {g : Engine}

/-- No declaration is counted below the program. -/
theorem accounting_declarations : g.Accounting (fun a counts b => counts.declarations + b = a)
    (fun _ => 0) fun _ => 0 where
  toBalance := Balance.exact rfl fun _ _ => rfl
  statement _ _ := rfl
  function f _ := by
    rw [g.context.complete_counts, Weight.total_zero, Weight.total_zero]
  change span callee arguments change h_change := by
    rw [(Context.transformCall_counts h_change).1, Weight.total_zero, Weight.total_zero]
  settled _ _ := rfl

/-- Functions to be completed. -/
theorem accounting_completable : g.Accounting (fun a counts b => counts.functions + b = a)
    (.counting g.context.isCompletable) fun _ => 0 where
  toBalance := Balance.exact rfl fun _ _ => rfl
  statement _ _ := rfl
  -- once it has been visited, a function weighs nothing, whatever is left of its parameters
  function f _ := by
    rw [Weight.total_singleton, Context.regular_completable.total_complete,
      g.context.complete_counts, Nat.zero_add]
    rfl
  change span callee arguments change h_change := by
    obtain ⟨k, -, -, h_total⟩ :=
      Context.regular_completable.total_rewritten (fun _ _ _ _ => rfl) h_change
    rw [(Context.transformCall_counts h_change).2.1, Nat.zero_add, ← h_total]
    rfl
  settled _ _ := rfl

/-- Markers, wherever they stand. A call that is rewritten takes one or two of them away. -/
theorem accounting_marker :
    g.Accounting (fun a counts b => b + counts.calls ≤ a ∧ a ≤ b + 2 * counts.calls)
      (.counting g.context.isMarkerName) (.counting g.context.isMarkerName) where
  refl n := ⟨Nat.le_refl n, Nat.le_refl n⟩
  -- the bounds on the one side and on the other add up, since what is counted does
  trans := by
    intro a b c counts counts' h h'
    rw [Counts.add_calls]
    omega
  add := by
    intro a a' b b' counts counts' h h'
    rw [Counts.add_calls]
    omega
  statement _ _ := rfl
  function f _ := by
    rw [Weight.total_singleton, Context.regular_marker.total_complete, g.context.complete_counts]
    exact ⟨Nat.le_refl _, Nat.le_refl _⟩
  change span callee arguments change h_change := by
    have h_weight : Weight.counting g.context.isMarkerName
        (.expression (.call span callee arguments)) = 0 := rfl
    obtain ⟨k, h_le, h_le', h_total⟩ :=
      Context.regular_marker.total_rewritten (fun _ _ _ _ => rfl) h_change
    rw [h_weight] at h_total
    omega
  settled e h := by
    -- visiting its parts does not make an expression a marker
    have h_parts (e : Expression) (m : NodeMap) :
        (e.mapParts m).isPlainMarker g.context.marker = e.isPlainMarker g.context.marker := by
      cases e <;> rfl
    rw [results_expression h, Weight.counting, Context.isMarkerName, h_parts]
    rfl

variable (h_rules : g.rules = Rule.all)

include h_rules

/-- Receivers to be adapted. A call has none any more when it is settled. -/
theorem accounting_adaptable :
    g.Accounting (fun a counts b => counts.receivers + b = a)
      (.counting g.context.isAdaptable) fun _ => 0 where
  toBalance := Balance.exact rfl fun _ _ => rfl
  statement _ _ := rfl
  function f _ := by
    rw [Weight.total_singleton, Context.regular_adaptable.total_complete, g.context.complete_counts,
      Nat.zero_add]
    rfl
  change span callee arguments change h_change := by
    -- the weight of a call is what is counted for it, so it goes when the receiver is adapted
    have h_weight (span : Span) (callee : Expression) (arguments : List Expression) :
        Weight.counting g.context.isAdaptable (.expression (.call span callee arguments)) =
          if g.context.needsAdapter callee then 1 else 0 := by
      rw [Weight.counting, Context.isAdaptable_call]
    have h_calls (span : Span) (callee : Expression) (arguments : List Expression)
        (h_needs : g.context.needsAdapter callee = false) :
        Weight.counting g.context.isAdaptable (.expression (.call span callee arguments)) = 0 := by
      rw [h_weight, h_needs]
      rfl
    obtain ⟨-, -, h_receivers⟩ := Context.transformCall_counts h_change
    obtain ⟨k, -, -, h_total⟩ := Context.regular_adaptable.total_rewritten h_calls h_change
    rw [h_weight] at h_total
    omega
  settled e h := by
    -- the loop leaves a settled call, and its weight is gone
    have h_settled := settle_settled h_rules (by omega) (settle_failure_of_visit h)
    rw [Weight.counting, Context.isAdaptable_of_isSettled h_settled]
    rfl

/-- Of the four counts, only that of declarations is raised for the declaration. -/
theorem run_counts_exact {p : Program} (h : (g.run p).failure = none) :
    let counts := History.counts (g.run p).notes
    counts.declarations = (if g.context.isDeclared p then 0 else 1) ∧
    counts.functions = p.listing.countP g.context.isCompletable ∧
    counts.receivers = p.listing.countP g.context.isAdaptable := by
  intro counts
  refine ⟨?_, ?_, ?_⟩
  · -- the balance without any weights says that nothing below the program counts as a declaration
    obtain ⟨_, _, counts', -, h_counts, h_below⟩ := run_balance h_rules accounting_declarations h
    have h_none : counts'.declarations = 0 := by
      rw [Weight.total_zero, Weight.total_zero] at h_below
      exact h_below
    show (History.counts (g.run p).notes).declarations = _
    rw [h_counts, Counts.add_declarations, h_none, Context.declarationCount_eq]
    rfl
  · -- the nodes with a property are counted by a weight that is used up on the way
    rw [← Weight.sum_counting]
    refine run_exact h_rules ?_ accounting_completable h
    intro c
    rw [Counts.add_functions, Context.declarationCount_eq, Nat.zero_add]
  · rw [← Weight.sum_counting]
    refine run_exact h_rules ?_ (accounting_adaptable h_rules) h
    intro c
    rw [Counts.add_receivers, Context.declarationCount_eq, Nat.zero_add]

end Engine

/-! ### Sessions -/

/-- **The summary counts the input.** The functions, the receivers and the declaration in the
summary of a file that is transformed are those of the program that was given. And for every call
that has been rewritten, one marker or two are gone from the program's own statements. -/
theorem Session.transform_counts_input {s : Session} (h_rules : s.rules = Rule.all)
    {file : FileDescriptor} (h_selected : s.selects file = true) {sink : Sink} {p : Program}
    {output : Output} (h : (s.transform sink p file).1.result = .ok output) :
    let ctx : Context := ⟨file, s.config⟩
    let counts := output.summary.counts
    counts.functions = p.listing.countP ctx.isCompletable ∧
    counts.receivers = p.listing.countP ctx.isAdaptable ∧
    counts.declarations = (if ctx.isDeclared p then 0 else 1) ∧
    ∃ comments own,
      output.program.body = (if ctx.isDeclared p then [] else [ctx.declaration comments]) ++ own ∧
      let given := p.listing.countP ctx.isMarkerName
      let left := (Program.mk own p.span).listing.countP ctx.isMarkerName
      left + counts.calls ≤ given ∧ given ≤ left + 2 * counts.calls := by
  intro ctx counts
  obtain ⟨h_run, rfl⟩ := (Session.transform_result_eq_ok h_selected).1 h
  obtain ⟨h_declarations, h_functions, h_receivers⟩ :=
    Engine.run_counts_exact (g := s.engine file) h_rules h_run
  refine ⟨h_functions, h_receivers, h_declarations, ?_⟩
  obtain ⟨comments, own, below, h_body, h_counts, h_markers⟩ :=
    Engine.run_balance (g := s.engine file) h_rules Engine.accounting_marker h_run
  refine ⟨comments, own, h_body, ?_⟩
  -- the declaration takes no markers away
  have h_calls : counts.calls = below.calls := by
    show (History.counts ((s.engine file).run p).notes).calls = below.calls
    rw [h_counts, Counts.add_calls, Context.declarationCount_eq, Nat.zero_add]
  intro given left
  -- the markers of the program and of what is left of its own statements, as sums of weights
  have h_given : given = (Weight.counting ctx.isMarkerName).total (p.body.map .statement) := by
    rw [← Weight.sum_listing, Weight.sum_counting]
  have h_left : left = (Weight.counting ctx.isMarkerName).total (own.map .statement) := by
    show (Program.mk own p.span).listing.countP ctx.isMarkerName = _
    rw [← Weight.sum_counting, Weight.sum_listing]
  rw [h_calls, h_given, h_left]
  exact h_markers

/-- In `function f(a, _, _) { return xs.map_(g(!_, _), a, _, _); }` one function is completed though
it has two marker parameters, one receiver is adapted, and of the four markers in arguments one or
two are gone for each call that has been rewritten. -/
theorem Session.transform_counts_input_nested :
    let s : Session := addMarkerRules { config := {}, selector := .always }
    let name (n : String) : Expression := .identifier .synthetic ⟨n, false⟩
    let inner : Expression :=
      .call .synthetic (name "g") [.unary .synthetic .not (name "_"), name "_"]
    let outer : Expression := .call .synthetic (.member .synthetic (name "xs") ⟨"map_", false⟩)
      [inner, name "a", name "_", name "_"]
    let f : Function := .block
      ⟨some ⟨"f", false⟩, [⟨"a", false⟩, ⟨"_", false⟩, ⟨"_", false⟩], .synthetic⟩
      [.return {} (some outer)]
    ∃ output comments own,
      (s.transform .collected ⟨[.function {} f], .synthetic⟩ {}).1.result = .ok output ∧
      output.summary.counts.functions = 1 ∧ output.summary.counts.receivers = 1 ∧
      output.summary.counts.declarations = 1 ∧
      output.program.body = Context.declaration ⟨{}, {}⟩ comments :: own ∧
      let left := (Program.mk own .synthetic).listing.countP (Context.isMarkerName ⟨{}, {}⟩)
      left + output.summary.counts.calls ≤ 4 ∧ 4 ≤ left + 2 * output.summary.counts.calls := by
  intro s name inner outer f
  have h_rules : s.rules = Rule.all := Session.addMarkerRules_rules rfl
  have h_selected : s.selects {} = true := rfl
  -- the run is not evaluated, only the input is
  obtain ⟨output, h_output⟩ := Session.transform_ok_of_no_offence h_rules h_selected
    (p := ⟨[.function {} f], .synthetic⟩) (by decide) .collected
  obtain ⟨h_functions, h_receivers, h_declarations, comments, own, h_body, h_markers⟩ :=
    Session.transform_counts_input h_rules h_selected h_output
  refine ⟨output, comments, own, h_output, ?_, ?_, ?_, h_body, h_markers⟩
  · exact h_functions.trans (by decide)
  · exact h_receivers.trans (by decide)
  · exact h_declarations.trans (by decide)

end AsyncMarkers
