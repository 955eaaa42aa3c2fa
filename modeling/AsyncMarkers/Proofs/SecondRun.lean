import AsyncMarkers.Proofs.Settled

/-!
# What a second run changes

A file that has been transformed should be left as it is when it is transformed again. Whether this
holds can be told from the file before the first run: a second run changes nothing exactly if every
node is *stable* (`Session.transform_again_iff_stable`). Two kinds of nodes are not.

* A function with two marker parameters. A run completes it through the first one, which is done
  then, and the next run through the second.
* A call of an array method without markers among its arguments whose receiver does not keep its
  adapter. A marker that is a receiver becomes the argument of the adapter, `b.array(_)`; the walk
  then comes to this call, which has a marker, and substitutes it. What it leaves in the place of
  the receiver is no call of the adapter, so the next run adapts it again. The same happens to an
  adapter with a marker that stood in the file from the beginning.

With markers among the arguments the callee moves into the argument of another adapter, where it is
not called any more and its receiver does not matter.

The proof relates what a visit leaves to what it was given, node by node
(`Engine.everywhere_normal_visit`): all nodes that it leaves are normal exactly if all nodes before
were stable. Stability is made so that the changes of the call rule preserve it
(`Context.everywhere_stable_transformCall`); and for an expression that is settled it says just that
the node will be normal when its parts have been visited (`Engine.isNormal_results`).
-/

namespace AsyncMarkers

namespace Context

/-- Whether a receiver is a call of the array adapter after a run, which adapts it if it is not. -/
def keepsAdapter (ctx : Context) (receiver : Expression) : Bool :=
  if ctx.isAdapted receiver then !ctx.isPending receiver
  else (receiver.markerKind? ctx.marker).isNone

/-- Whether one run does all there is to be done at a node. -/
def isStable (ctx : Context) : Subtree → Bool
  | .function f => f.head.params.countP (·.isMarker ctx.marker) ≤ 1
  | .expression (.call _ callee arguments) =>
    (planCall? ctx.marker arguments).isSome || (ctx.arrayReceiver? callee).all ctx.keepsAdapter
  | _ => true

variable {ctx : Context}

/-- Plain nodes are stable. -/
theorem isStable_of_plain (n : Subtree) (h : ctx.Plain n) : ctx.isStable n = true := by
  cases h with
  | statement s => rfl
  | function h_params => simp [Context.isStable, h_params]
  | @expression e h_shape =>
    cases e with
    | call _ _ _ => cases h_shape
    | _ => rfl
  | call span h_callee h_plan => simp [Context.isStable, h_callee]

/-! ### Changes of calls -/

/-- A call of something else than an array method is stable if its parts are. -/
theorem everywhere_stable_call {span : Span} {callee : Expression} {arguments : List Expression}
    (h : ctx.isStable (.expression (.call span callee arguments)) = true) :
    (Subtree.expression (.call span callee arguments)).Everywhere (ctx.isStable · = true) ↔
      (Subtree.expression callee).Everywhere (ctx.isStable · = true) ∧
        ∀ e ∈ arguments, (Subtree.expression e).Everywhere (ctx.isStable · = true) := by
  rw [Subtree.everywhere_iff]
  simp only [h, true_and, Subtree.parts, Expression.parts, List.forall_mem_cons,
    List.forall_mem_map]

/-- A call of something else than an array method is stable by itself. -/
theorem isStable_of_arrayReceiver?_eq_none {callee : Expression}
    (h : ctx.arrayReceiver? callee = none) (span : Span) (arguments : List Expression) :
    ctx.isStable (.expression (.call span callee arguments)) = true := by
  simp [isStable, h]

/-- An adapter is stable if the receiver in it is. -/
theorem everywhere_stable_adaptCallee (ctx : Context) (callee : Expression) :
    (Subtree.expression (ctx.adaptCallee callee)).Everywhere (ctx.isStable · = true) ↔
      (Subtree.expression callee).Everywhere (ctx.isStable · = true) := by
  rcases ctx.adaptCallee_cases callee with ⟨-, h_eq⟩ | ⟨s, receiver, property, rfl, -, h_eq⟩
  · rw [h_eq]
  -- the adapter itself is no array method
  have h_array : ctx.arrayReceiver? ctx.binding.array = none :=
    arrayReceiver?_member (isArrayMethod_array _)
  have h_adapter : (Subtree.expression (ctx.adaptReceiver receiver)).Everywhere
      (ctx.isStable · = true) ↔
        (Subtree.expression receiver).Everywhere (ctx.isStable · = true) := by
    rw [adaptReceiver, everywhere_stable_call (isStable_of_arrayReceiver?_eq_none h_array _ _),
      List.forall_mem_singleton]
    exact and_iff_right (everywhere_member isStable_of_plain "array")
  rw [h_eq, Plain.everywhere_iff isStable_of_plain (.expression rfl),
    Plain.everywhere_iff isStable_of_plain (.expression rfl)]
  simp only [Subtree.parts, Expression.parts, List.forall_mem_singleton, h_adapter]

/-- Adapting a receiver does not change whether it keeps its adapter. -/
theorem keepsAdapter_adaptCallee (ctx : Context) (callee : Expression) :
    (ctx.arrayReceiver? (ctx.adaptCallee callee)).all ctx.keepsAdapter =
      (ctx.arrayReceiver? callee).all ctx.keepsAdapter := by
  rcases ctx.adaptCallee_cases callee with ⟨-, h_eq⟩ | ⟨s, receiver, property, rfl, h_needs, h_eq⟩
  · rw [h_eq]
  simp only [needsAdapter, Bool.and_eq_true, Bool.not_eq_true'] at h_needs
  obtain ⟨h_method, h_not_adapted⟩ := h_needs
  -- an adapted receiver is a call of the adapter, with the receiver for its only argument
  have h_adapted : ctx.isAdapted (ctx.adaptReceiver receiver) = true := by
    simp [adaptReceiver, isAdapted, Binding.array, Binding.member, Synthetic.member,
      Synthetic.reference, Binding.identifier]
  -- so it is pending exactly if the receiver is a marker
  have h_pending : ctx.isPending (ctx.adaptReceiver receiver) =
      (receiver.markerKind? ctx.marker).isSome := by
    rw [adaptReceiver, isPending, Bool.eq_iff_iff, Option.isSome_iff_ne_none, ne_eq,
      planCall?_eq_none_iff_forall, List.forall_mem_singleton, Option.isSome_iff_ne_none]
  simp [h_eq, arrayReceiver?, h_method, keepsAdapter, h_adapted, h_not_adapted, h_pending]

/-- Substituting a call adds calls that are stable. -/
theorem everywhere_stable_substitute (ctx : Context) (span : Span) (callee : Expression)
    (arguments : List Expression) (s : Substitution) :
    (Subtree.expression (ctx.substitute span callee arguments s)).Everywhere
      (ctx.isStable · = true) ↔
        (Subtree.expression callee).Everywhere (ctx.isStable · = true) ∧
          ∀ e ∈ s.rest arguments, (Subtree.expression e).Everywhere (ctx.isStable · = true) := by
  -- the awaited call, and what it waits for, are calls of members that are no array methods
  have h_future : (Subtree.expression (ctx.futureCall span callee s.first
      (s.rest arguments))).Everywhere (ctx.isStable · = true) ↔
        (Subtree.expression callee).Everywhere (ctx.isStable · = true) ∧
          ∀ e ∈ s.rest arguments, (Subtree.expression e).Everywhere (ctx.isStable · = true) := by
    have h_adapter : ctx.arrayReceiver? (ctx.binding.future s.first (s.rest arguments).length) =
        none := arrayReceiver?_member (isArrayMethod_future _ _ _)
    rw [futureCall, Synthetic.call,
      everywhere_stable_call (isStable_of_arrayReceiver?_eq_none rfl _ _),
      everywhere_stable_call (isStable_of_arrayReceiver?_eq_none h_adapter _ _),
      List.forall_mem_singleton]
    exact and_congr_left' (and_iff_right (everywhere_member isStable_of_plain _))
  have h_await : ctx.arrayReceiver? ctx.binding.await = none :=
    arrayReceiver?_member (isArrayMethod_await _)
  rw [substitute]
  split
  · rw [everywhere_stable_call (isStable_of_arrayReceiver?_eq_none h_await _ _),
      List.forall_mem_singleton, h_future]
    exact and_iff_right (everywhere_member isStable_of_plain "await")
  · exact h_future

/-- The changes of the call rule neither make a tree stable nor unstable. -/
theorem everywhere_stable_transformCall {span : Span} {callee : Expression}
    {arguments : List Expression} {change : Change Expression}
    (h_change : ctx.transformCall (.call span callee arguments) = .ok change) :
    (Subtree.expression change.node).Everywhere (ctx.isStable · = true) ↔
      (Subtree.expression (.call span callee arguments)).Everywhere (ctx.isStable · = true) := by
  rcases transformCall_cases h_change with ⟨-, h_node, -⟩ | ⟨s, h_sub, h_node, -⟩
  · -- without a substitution, only the receiver may be adapted, and it keeps its adapter or not
    have h_top : ctx.isStable (.expression (.call span (ctx.adaptCallee callee) arguments)) =
        ctx.isStable (.expression (.call span callee arguments)) := by
      rw [isStable, isStable, keepsAdapter_adaptCallee]
    rw [h_node, Subtree.everywhere_iff, Subtree.everywhere_iff, h_top]
    simp only [Subtree.parts, Expression.parts, List.forall_mem_cons, everywhere_stable_adaptCallee]
  · -- with one, the call was stable for its markers, and those that are gone were plain
    have h_plan := planCall?_isSome_of_substituted h_sub
    have h_top : ctx.isStable (.expression (.call span callee arguments)) = true := by
      rw [isStable, h_plan, Bool.true_or]
    rw [h_node, everywhere_stable_substitute, everywhere_stable_adaptCallee,
      everywhere_stable_call h_top]
    refine and_congr_right' ?_
    exact ((stripped_rest h_sub).forall_iff fun e he => everywhere_marker isStable_of_plain he).symm

/-- A settled call has nothing pending. -/
theorem isPending_of_isSettled {e : Expression} (h : ctx.isSettled e = true) :
    ctx.isPending e = false := by
  cases e with
  | call span callee arguments =>
    rw [isPending, (isSettled_call.1 h).1, Option.isSome_none]
  | _ => rfl

/-- Whether an expression is the adapter for receivers, as it is called. -/
def isArrayAdapter (ctx : Context) : Expression → Bool
  | .member _ (.identifier _ id) property =>
    property.name == "array" && id.name == ctx.binding.name
  | _ => false

/-- A receiver is adapted if it is a call of the adapter. -/
theorem isAdapted_call (span : Span) (callee : Expression) (arguments : List Expression) :
    ctx.isAdapted (.call span callee arguments) = ctx.isArrayAdapter callee := by
  cases callee with
  | member s base property => cases base <;> rfl
  | _ => rfl

end Context

namespace Engine

variable {g : Engine}

/-! ### Adapters -/

/-- A change of the call rule leaves a call of the adapter one exactly if it has no markers. -/
theorem isAdapted_transformCall {ctx : Context} {span : Span} {callee : Expression}
    {arguments : List Expression} {change : Change Expression}
    (h_change : ctx.transformCall (.call span callee arguments) = .ok change) :
    (ctx.isAdapted change.node && !ctx.isPending change.node) =
      (ctx.isAdapted (.call span callee arguments) &&
        !ctx.isPending (.call span callee arguments)) := by
  -- a call that is substituted had markers, and its callee is no adapter afterwards
  rcases Context.transformCall_cases h_change with ⟨h_sub, h_node, -⟩ | ⟨s, h_sub, h_node, -⟩
  · have h_adapter : ctx.isArrayAdapter (ctx.adaptCallee callee) = ctx.isArrayAdapter callee := by
      rcases ctx.adaptCallee_cases callee with
        ⟨-, h_eq⟩ | ⟨s, receiver, property, rfl, h_needs, h_eq⟩
      · rw [h_eq]
      · -- an array method is not the adapter
        have h_name : (property.name == "array") = false := by
          rw [beq_eq_false_iff_ne]
          intro h_array
          simp [Context.needsAdapter, h_array, Context.isArrayMethod_array] at h_needs
        rw [h_eq]
        cases receiver with
        | identifier s' id => simp [Context.isArrayAdapter, Context.adaptReceiver, h_name]
        | _ => rfl
    rw [h_node, Context.isAdapted_call, h_adapter, Context.isAdapted_call]
    rfl
  · have h_pending : ctx.isPending (.call span callee arguments) = true :=
      Context.planCall?_isSome_of_substituted h_sub
    have h_adapted : ctx.isAdapted change.node = false := by
      rw [h_node, Context.substitute]
      split <;> rfl
    rw [h_adapted, h_pending, Bool.not_true, Bool.and_false, Bool.false_and]

/-- A function has no marker parameter left after a run exactly if it had one at most. -/
theorem isNormal_complete (ctx : Context) (f : Function) :
    ctx.isNormal (.function (ctx.complete f).node) = ctx.isStable (.function f) := by
  -- a function is normal if none of its parameters is a marker
  have h_normal (f : Function) : ctx.isNormal (.function f) =
      decide (f.head.params.countP (·.isMarker ctx.marker) = 0) := by
    rw [Context.isNormal, Bool.eq_iff_iff, Option.isNone_iff_eq_none, markerParam?,
      List.findIdx?_eq_none_iff, decide_eq_true_iff, List.countP_eq_zero]
    simp
  rw [h_normal, Context.isStable]
  rcases ctx.complete_cases f with ⟨h_none, h_eq⟩ | ⟨index, param, h_at, h_marker, h_eq, -⟩
  · simp [h_eq, h_none]
  · obtain ⟨h_lt, h_get⟩ := List.getElem?_eq_some_iff.1 h_at
    have h_pos : 0 < f.head.params.countP (·.isMarker ctx.marker) :=
      List.countP_pos_iff.2 ⟨param, List.mem_of_getElem? h_at, h_marker⟩
    have h_done : Identifier.isMarker ctx.marker { param with done := true } = false := by
      simp [Identifier.isMarker]
    -- one parameter has been done, so one marker is gone
    have h_count : ((ctx.complete f).node.head.params).countP (·.isMarker ctx.marker) =
        f.head.params.countP (·.isMarker ctx.marker) - 1 := by
      rw [h_eq]
      show (f.head.params.set index { param with done := true }).countP _ = _
      rw [List.countP_set h_lt, h_get, h_marker, h_done]
      rfl
    rw [h_count, decide_eq_decide]
    omega

variable (h_rules : g.rules = Rule.all)

include h_rules

/-- What the replacement loop leaves is a call of the adapter exactly if that is what it was given
and there were no markers in it. -/
theorem settle_isAdapted {left : Nat} (h_left : 0 < left) {e : Expression}
    (h : (g.settle left e).failure = none) :
    g.context.isAdapted (g.settle left e).value =
      (g.context.isAdapted e && !g.context.isPending e) := by
  -- every change keeps both properties together, though not the one about adapters alone
  have h_steps : (g.context.isAdapted (g.settle left e).value &&
      !g.context.isPending (g.settle left e).value) =
        (g.context.isAdapted e && !g.context.isPending e) :=
    Context.Steps.preserves (μ := fun e => g.context.isAdapted e && !g.context.isPending e)
      (fun _ _ _ _ h_change => isAdapted_transformCall h_change) (settle_steps h_rules h)
  have h_pending := Context.isPending_of_isSettled (settle_settled h_rules h_left h)
  rw [← h_steps, h_pending, Bool.not_false, Bool.and_true]

/-- Visiting the callee of a call does not change whether it is the adapter. -/
theorem isArrayAdapter_results {callee : Expression}
    (h : (g.visitor.visit (.expression callee)).failure = none) :
    g.context.isArrayAdapter (g.visitor.results.expression callee) =
      g.context.isArrayAdapter callee := by
  -- the adapter is told from other callees by two names, one of them a level down
  refine results_view h_rules g.context.isArrayAdapter g.context.isArrayAdapter false
    (fun _ _ _ => ⟨rfl, rfl⟩) (fun _ _ _ => ⟨rfl, rfl⟩) h fun _ h_parts => ?_
  cases callee with
  | member s base property =>
    have h_base := h_parts _ (List.mem_singleton_self _)
    refine results_view h_rules (fun e => g.context.isArrayAdapter (.member s e property))
      (fun e => g.context.isArrayAdapter (.member s e property)) false
      (fun _ _ _ => ⟨rfl, rfl⟩) (fun _ _ _ => ⟨rfl, rfl⟩) h_base fun _ _ => ?_
    cases base <;> rfl
  | _ => rfl

/-- Visiting the parts of a call neither makes it a call of the adapter nor stops it from being
one. -/
theorem isAdapted_mapParts {e : Expression}
    (h_parts : ∀ part ∈ e.parts, (g.visitor.visit part).failure = none) :
    g.context.isAdapted (e.mapParts g.visitor.results) = g.context.isAdapted e := by
  -- only calls can be calls of the adapter
  cases e with
  | call span callee arguments =>
    rw [Expression.mapParts, Context.isAdapted_call, Context.isAdapted_call,
      isArrayAdapter_results h_rules (h_parts _ (List.mem_cons_self ..))]
  | _ => rfl

/-- A visit leaves a call of the adapter exactly if there was one without markers. -/
theorem isAdapted_results {e : Expression} (h : (g.visitor.visit (.expression e)).failure = none) :
    g.context.isAdapted (g.visitor.results.expression e) =
      (g.context.isAdapted e && !g.context.isPending e) := by
  have h_parts : ∀ part ∈ (g.settle (max 1 g.limit) e).value.parts,
      (g.visitor.visit part).failure = none := (g.visitor.visit_failure_eq_none.1 h).2
  rw [results_expression h, isAdapted_mapParts h_rules h_parts,
    settle_isAdapted h_rules (by omega) (settle_failure_of_visit h)]

/-! ### What a visit leaves -/

/-- A settled expression is normal once its parts have been visited, exactly if it is stable. -/
theorem isNormal_results {e : Expression} (h_settled : g.context.isSettled e = true)
    (h_parts : ∀ part ∈ e.parts, (g.visitor.visit part).failure = none) :
    g.context.isNormal (.expression (e.mapParts g.visitor.results)) =
      g.context.isStable (.expression e) := by
  cases e with
  | call span callee arguments =>
    obtain ⟨h_plan, h_adapted⟩ := Context.isSettled_call.1 h_settled
    simp only [Expression.parts, List.forall_mem_cons, List.forall_mem_map] at h_parts
    obtain ⟨h_callee, h_arguments⟩ := h_parts
    have h_plan' := (planCall?_results h_rules h_arguments _).2 h_plan
    simp only [Expression.mapParts, Context.isNormal, Context.isSettled, h_plan', Context.isStable,
      h_plan, Context.needsAdapter_eq, arrayReceiver?_results h_rules h_callee]
    -- with no markers left, all that could be done is to adapt the receiver
    cases h_receiver : g.context.arrayReceiver? callee with
    | none => rfl
    | some receiver =>
      -- the receiver is adapted already, so all depends on whether it still is after its visit
      have h_before := Context.isAdapted_of_needsAdapter_eq_false h_adapted h_receiver
      have h_visit := visit_arrayReceiver h_receiver h_callee
      simp [isAdapted_results h_rules h_visit, Context.keepsAdapter, h_before]
  | construct span callee arguments =>
    simp only [Expression.parts, List.forall_mem_cons, List.forall_mem_map] at h_parts
    simp only [Expression.mapParts, Context.isNormal, Context.isStable, Context.isSettled,
      hasPlainMarker_results h_rules h_parts.2]
    exact h_settled
  | _ => rfl

/-- All nodes that a visit leaves are normal exactly if all nodes before it were stable. -/
theorem everywhere_normal_visit {t : Subtree} (h : (g.visitor.visit t).failure = none) :
    (g.visitor.visit t).value.Everywhere (g.context.isNormal · = true) ↔
      t.Everywhere (g.context.isStable · = true) := by
  induction t using g.visitor.visit_induction with
  | step t ih =>
    obtain ⟨h_hook, h_parts⟩ := g.visitor.visit_failure_eq_none.1 h
    have h_below : (∀ part ∈ (g.visitor.visit t).value.parts,
        part.Everywhere (g.context.isNormal · = true)) ↔
          ∀ part ∈ (g.visitor.hook t).value.parts,
            part.Everywhere (g.context.isStable · = true) := by
      rw [g.visitor.visit_parts h, List.forall_mem_map]
      exact forall₂_congr fun part h_part => ih part h_part (h_parts part h_part)
    rw [Subtree.everywhere_iff, h_below, g.visitor.visit_value h]
    -- it remains that the node left is normal, and its parts before their visits stable, exactly if
    -- the whole tree was stable
    cases t with
    | statement s =>
      rw [hook_statement, Subtree.everywhere_iff]
      rfl
    | function f =>
      have h_top : g.context.isNormal ((g.visitor.hook (.function f)).value.mapParts
          g.visitor.results) = g.context.isStable (.function f) := by
        rw [hook_function_value h_rules, ← isNormal_complete]
        cases (g.context.complete f).node <;> rfl
      rw [h_top, hook_function_value h_rules, Subtree.everywhere_iff]
      exact and_congr_right' (Context.everywhere_complete Context.isStable_of_plain f)
    | expression e =>
      -- the changes of the call rule move parts around, so the tree is compared as a whole
      have h_steps : (Subtree.expression (g.settle (max 1 g.limit) e).value).Everywhere
          (g.context.isStable · = true) =
            (Subtree.expression e).Everywhere (g.context.isStable · = true) :=
        Context.Steps.preserves
          (μ := fun e => (Subtree.expression e).Everywhere (g.context.isStable · = true))
          (fun _ _ _ _ h_change => propext (Context.everywhere_stable_transformCall h_change))
          (settle_steps h_rules h_hook)
      have h_top := isNormal_results h_rules (settle_settled h_rules (by omega) h_hook) h_parts
      rw [← h_steps, Subtree.everywhere_iff]
      exact and_congr_left' (by rw [← h_top]; rfl)

/-- A run leaves a program in normal form exactly if all nodes of the program before were stable. -/
theorem run_normal_iff {p : Program} (h : (g.run p).failure = none) :
    (∀ n ∈ (g.run p).value.listing, g.context.isNormal n = true) ↔
      ∀ n ∈ p.listing, g.context.isStable n = true := by
  have h_visits := (run_failure_eq_none h_rules).1 h
  rw [Program.forall_listing_iff, Program.forall_listing_iff, run_value h_rules h,
    List.forall_mem_map, ← Context.everywhere_declaredBody Context.isStable_of_plain]
  refine forall₂_congr fun s hs => ?_
  rw [← everywhere_normal_visit h_rules (h_visits s hs), ← Visitor.results_apply]
  rfl

/-- A second run, for any file and limit, leaves everything as it is exactly if all nodes were
stable before the first. -/
theorem run_again_iff {p : Program} (h : (g.run p).failure = none) (g' : Engine)
    (h_rules' : g'.rules = Rule.all) (h_config : g'.context.config = g.context.config) :
    ((g'.run (g.run p).value).failure = none ∧ (g'.run (g.run p).value).value = (g.run p).value ∧
        History.counts (g'.run (g.run p).value).notes = {}) ↔
      ∀ n ∈ p.listing, g.context.isStable n = true := by
  -- whether a node is normal depends on the configuration only
  have h_normal (n : Subtree) : g'.context.isNormal n = g.context.isNormal n :=
    Context.eq_of_config (f := (·.isNormal n)) (fun _ _ _ => rfl) h_config
  have h_declared (p : Program) : g'.context.isDeclared p = g.context.isDeclared p :=
    Context.eq_of_config (f := (·.isDeclared p)) (fun _ _ _ => rfl) h_config
  rw [← run_normal_iff h_rules h]
  -- a run that counts nothing has found a program in normal form, and the other way round
  constructor
  · rintro ⟨h_again, -, h_counts⟩ n hn
    rw [← h_normal]
    exact (normal_of_run_counts h_rules' h_again h_counts).2 n hn
  · intro h_listing
    refine run_of_normal h_rules' ?_ fun n hn => ?_
    · rw [h_declared, run_isDeclared h_rules h]
    · rw [h_normal, h_listing n hn]

end Engine

/-! ### The second run -/

/-- **What a second run changes.** Transforming what has come of a file leaves it exactly as it is,
with nothing counted, if and only if every node of the file was stable before the first run. -/
theorem Session.transform_again_iff_stable {s : Session} (h_rules : s.rules = Rule.all)
    {file : FileDescriptor} (h_selected : s.selects file = true) {sink : Sink} {p : Program}
    {output : Output} (h : (s.transform sink p file).1.result = .ok output) :
    ∀ (s' : Session) (sink' : Sink) (file' : FileDescriptor), s'.config = s.config →
      s'.rules = s.rules → s'.selects file' = true →
      ((s'.transform sink' output.program file').1.result = .ok ⟨output.program, {}⟩ ↔
        ∀ n ∈ p.listing, Context.isStable ⟨file, s.config⟩ n = true) := by
  intro s' sink' file' h_config h_rules' h_selected'
  obtain ⟨h_run, rfl⟩ := (Session.transform_result_eq_ok h_selected).1 h
  have h_again := Engine.run_again_iff (g := s.engine file) h_rules h_run
    (s'.engine file') (h_rules'.trans h_rules) h_config
  rw [Session.transform_result_eq_ok h_selected']
  refine Iff.trans ?_ h_again
  refine and_congr_right' ?_
  simp [eq_comm]

/-- After `function f(xs, _) { return g(xs.map_(h), !_, _); }` has been transformed, there is
nothing left to be done. -/
theorem Session.transform_again_stable_function :
    let s : Session := addMarkerRules { config := {}, selector := .always }
    let name (n : String) : Expression := .identifier .synthetic ⟨n, false⟩
    let mapped : Expression :=
      .call .synthetic (.member .synthetic (name "xs") ⟨"map_", false⟩) [name "h"]
    let outer : Expression :=
      .call .synthetic (name "g") [mapped, .unary .synthetic .not (name "_"), name "_"]
    let f : Function := .block ⟨some ⟨"f", false⟩, [⟨"xs", false⟩, ⟨"_", false⟩], .synthetic⟩
      [.return {} (some outer)]
    ∃ output, (s.transform .collected ⟨[.function {} f], .synthetic⟩ {}).1.result = .ok output ∧
      (s.transform .collected output.program {}).1.result = .ok ⟨output.program, {}⟩ := by
  intro s name mapped outer f
  have h_rules : s.rules = Rule.all := Session.addMarkerRules_rules rfl
  have h_selected : s.selects {} = true := rfl
  obtain ⟨output, h_output⟩ := Session.transform_ok_of_no_offence h_rules h_selected
    (p := ⟨[.function {} f], .synthetic⟩) (by decide) .collected
  refine ⟨output, h_output, ?_⟩
  exact (Session.transform_again_iff_stable h_rules h_selected h_output s .collected {} rfl rfl
    h_selected).2 (by decide)

/-- A second run completes `function f(_, _) {}` a second time. -/
theorem Session.transform_again_completes :
    let s : Session := addMarkerRules { config := {}, selector := .always }
    let f : Function := .block ⟨some ⟨"f", false⟩, [⟨"_", false⟩, ⟨"_", false⟩], .synthetic⟩ []
    ∃ output, (s.transform .collected ⟨[.function {} f], .synthetic⟩ {}).1.result = .ok output ∧
      (s.transform .collected output.program {}).1.result ≠ .ok ⟨output.program, {}⟩ := by
  intro s f
  have h_rules : s.rules = Rule.all := Session.addMarkerRules_rules rfl
  have h_selected : s.selects {} = true := rfl
  obtain ⟨output, h_output⟩ := Session.transform_ok_of_no_offence h_rules h_selected
    (p := ⟨[.function {} f], .synthetic⟩) (by decide) .collected
  refine ⟨output, h_output, fun h_again => ?_⟩
  obtain ⟨h_run, rfl⟩ := (Session.transform_result_eq_ok h_selected).1 h_output
  obtain ⟨h_second, h_same⟩ := (Session.transform_result_eq_ok h_selected).1 h_again
  simp only [Output.mk.injEq, Summary.mk.injEq, true_and] at h_same
  have h_stable := (Engine.run_again_iff h_rules h_run (s.engine {}) h_rules rfl).1
    ⟨h_second, h_same.1.symm, h_same.2.symm⟩
  have h_function := h_stable (.function f) (.tail _ (.head _))
  exact absurd h_function (by decide)

end AsyncMarkers
