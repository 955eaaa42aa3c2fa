import AsyncMarkers.Proofs.Summary

/-!
# Changed programs are counted

A run reports a program as changed exactly when it has changed it: the program that it leaves is the
one that it was given if and only if nothing is counted, and if and only if the program was in
normal form (`Session.transform_unchanged_iff`).

That nothing counted means nothing changed, and a program in normal form to begin with, is shown in
`Proofs.NormalForm`. The other way round it has to be excluded that changes cancel out, that a run
takes apart in one place what it puts up in another. They do not because every change that is
counted makes the tree larger (`Engine.accounting_size`): a rewritten call loses a marker or two and
wins the nodes of at least one adapter.
-/

namespace AsyncMarkers

/-- One for every node. -/
def Weight.size : Weight := fun _ => 1

/-- All nodes are counted alike. -/
theorem Weight.regular_size (ctx : Context) : Weight.size.Regular ctx 1 1 where
  of_inert _ _ := rfl
  of_marker _ _ _ := rfl

namespace Engine

variable {g : Engine}

/-- Every change that is counted, the declaration apart, makes a tree larger by one node at
least. -/
theorem accounting_size :
    g.Accounting (fun a counts b => a + (counts.functions + counts.receivers + counts.calls) ≤ b)
      .size .size where
  refl n := Nat.le_refl n
  -- bounds add up, as what is counted does
  trans := by
    intro a b c counts counts' h h'
    rw [Counts.add_functions, Counts.add_receivers, Counts.add_calls]
    omega
  add := by
    intro a a' b b' counts counts' h h'
    rw [Counts.add_functions, Counts.add_receivers, Counts.add_calls]
    omega
  statement _ _ := rfl
  function f f' := by
    have h_weight (f : Function) : Weight.size (.function f) = 1 := rfl
    rw [Weight.total_singleton, h_weight, h_weight, Subtree.parts]
    rcases g.context.complete_cases f with ⟨-, h_eq⟩ | ⟨index, param, -, -, h_node, h_counts⟩
    · rw [h_eq]
      exact Nat.le_refl _
    · -- the body is put into seven nodes or eight
      rw [h_node, h_counts]
      have h_body := (Weight.regular_size g.context).total_completeThrough f index param
      show _ + (1 + 0 + 0) ≤ _
      omega
  change span callee arguments change h_change := by
    have h_weight : Weight.size (.expression (.call span callee arguments)) = 1 := rfl
    obtain ⟨-, h_functions, h_receivers⟩ := Context.transformCall_counts h_change
    have h_total := (Weight.regular_size g.context).total_change (fun _ _ _ _ => rfl) h_change
    rw [h_weight] at h_total
    rw [h_functions, h_receivers]
    -- an adapter is three nodes, so more is put in than counted
    have h_adapter : (if g.context.needsAdapter callee then 1 else 0) ≤
        if g.context.needsAdapter callee then 3 * 1 else 0 := by
      split <;> decide
    -- less is taken out than is put in
    rcases h_total with ⟨h_calls, h_total⟩ | ⟨h_calls, k, -, h_le, h_total⟩ | ⟨h_calls, h_total⟩
    · omega
    · omega
    · omega
  settled _ _ := rfl

/-- A run that leaves a program as it was has counted nothing. -/
theorem run_counts_of_unchanged (h_rules : g.rules = Rule.all) {p : Program}
    (h : (g.run p).failure = none) (h_same : (g.run p).value = p) :
    History.counts (g.run p).notes = {} := by
  obtain ⟨comments, own, below, h_body, h_counts, h_size⟩ := run_balance h_rules accounting_size h
  obtain ⟨h_declarations, -, -⟩ := run_counts_exact h_rules h
  rw [h_same] at h_body
  -- the declaration would have made the program larger
  have h_declared : g.context.isDeclared p = true := by
    cases h_case : g.context.isDeclared p with
    | true => rfl
    | false =>
      rw [h_case, if_neg Bool.false_ne_true, List.singleton_append] at h_body
      rw [h_body, List.map_cons, Weight.total_cons, Weight.total_singleton] at h_size
      have h_statement : Weight.size (.statement (g.context.declaration comments)) = 1 := rfl
      omega
  rw [h_declared, if_pos rfl] at h_declarations
  rw [h_declared, if_pos rfl, List.nil_append] at h_body
  rw [← h_body] at h_size
  -- so would each of the other changes
  rw [h_counts, Counts.add_declarations] at h_declarations
  rw [h_counts, Context.declarationCount, if_pos h_declared, Counts.zero_add]
  obtain ⟨declarations, functions, receivers, calls⟩ := below
  -- four numbers with a sum that cannot be more than zero
  simp only [Counts.mk.injEq] at h_size h_declarations ⊢
  omega

end Engine

/-! ### Normal forms, spelled out -/

namespace Context

variable {ctx : Context}

/-- A function is normal if none of its parameters is a marker. -/
theorem isNormal_function {f : Function} : ctx.isNormal (.function f) = true ↔
    ∀ param ∈ f.head.params, param.isMarker ctx.marker = false := by
  rw [isNormal, Option.isNone_iff_eq_none, markerParam?, List.findIdx?_eq_none_iff]

/-- A call is normal if it has no markers and its receiver, if it is an array method, is adapted. -/
theorem isNormal_call {span : Span} {callee : Expression} {arguments : List Expression} :
    ctx.isNormal (.expression (.call span callee arguments)) = true ↔
      planCall? ctx.marker arguments = none ∧
        ∀ s receiver property, callee = .member s receiver property →
          ctx.config.isArrayMethod property.name = true → ctx.isAdapted receiver = true := by
  rw [isNormal, isSettled_call]
  refine and_congr_right' ?_
  constructor
  · rintro h_needs s receiver property rfl h_method
    simpa [needsAdapter, h_method] using h_needs
  · intro h_adapted
    -- only a member can be an array method
    cases callee with
    | member s receiver property =>
      cases h_method : ctx.config.isArrayMethod property.name with
      | true => simp [needsAdapter, h_adapted s receiver property rfl h_method]
      | false => simp [needsAdapter, h_method]
    | _ => rfl

/-- A construction that is not refused is normal. -/
theorem isNormal_construct_of_no_offence {limit : Nat} {span : Span} {callee : Expression}
    {arguments : List Expression}
    (h : ctx.offence? limit (.expression (.construct span callee arguments)) = none) :
    ctx.isNormal (.expression (.construct span callee arguments)) = true := by
  rw [isNormal, isSettled, Bool.not_eq_true', Bool.eq_false_iff, ne_eq, hasPlainMarker_iff]
  intro h_pos
  rw [offence?, if_pos h_pos] at h
  cases h

/-- What it says that all nodes of a program are normal, of its calls, its functions and its
receivers. -/
theorem forall_isNormal {ns : List Subtree} (h : ∀ n ∈ ns, ctx.isNormal n = true) :
    (∀ span callee arguments, .expression (.call span callee arguments) ∈ ns →
      planCall? ctx.marker arguments = none) ∧
    (∀ f, .function f ∈ ns → ∀ param ∈ f.head.params, param.isMarker ctx.marker = false) ∧
    ∀ span span' receiver property arguments,
      .expression (.call span (.member span' receiver property) arguments) ∈ ns →
      ctx.config.isArrayMethod property.name = true → ctx.isAdapted receiver = true := by
  -- a node that is a call says two things, one of its arguments and one of its receiver
  refine ⟨?_, ?_, ?_⟩
  · intro span callee arguments h_call
    exact (isNormal_call.1 (h _ h_call)).1
  · intro f h_function
    exact isNormal_function.1 (h _ h_function)
  · intro span span' receiver property arguments h_call
    exact (isNormal_call.1 (h _ h_call)).2 span' receiver property rfl

/-- And where nothing is refused, that is all it says. -/
theorem isNormal_of_forall {limit : Nat} {ns : List Subtree}
    (h_offences : ∀ n ∈ ns, ctx.offence? limit n = none)
    (h_calls : ∀ span callee arguments, .expression (.call span callee arguments) ∈ ns →
      planCall? ctx.marker arguments = none)
    (h_functions : ∀ f, .function f ∈ ns → ∀ param ∈ f.head.params,
      param.isMarker ctx.marker = false)
    (h_receivers : ∀ span span' receiver property arguments,
      .expression (.call span (.member span' receiver property) arguments) ∈ ns →
      ctx.config.isArrayMethod property.name = true → ctx.isAdapted receiver = true) :
    ∀ n ∈ ns, ctx.isNormal n = true := by
  intro n hn
  cases n with
  | statement _ => rfl
  | function f => exact isNormal_function.2 (h_functions f hn)
  | expression e =>
    cases e with
    | call span callee arguments =>
      refine isNormal_call.2 ⟨h_calls span callee arguments hn, ?_⟩
      rintro s receiver property rfl
      exact h_receivers span s receiver property arguments hn
    | construct span callee arguments =>
      -- a construction with a plain marker is refused
      exact isNormal_construct_of_no_offence (h_offences _ hn)
    | _ => rfl

end Context

/-- **Reported as changed exactly when changed.** The program that comes of a file that is
transformed is the one that was given if and only if all four counts are zero, and if and only if
that was in normal form: it starts with the declaration, no call has a marker among its arguments,
no function has one among its parameters, and the receivers of all array methods that are called are
adapted. -/
theorem Session.transform_unchanged_iff {s : Session} (h_rules : s.rules = Rule.all)
    {file : FileDescriptor} (h_selected : s.selects file = true) {sink : Sink} {p : Program}
    {output : Output} (h : (s.transform sink p file).1.result = .ok output) :
    let ctx : Context := ⟨file, s.config⟩
    (output.program = p ↔ output.summary.counts = ⟨0, 0, 0, 0⟩) ∧
    (output.summary.counts = ⟨0, 0, 0, 0⟩ ↔
      (∃ info rest, p.body = (ctx.binding.declaration ctx.config.moduleName
        ctx.config.exportName).withInfo info :: rest) ∧
      (∀ span callee arguments, .expression (.call span callee arguments) ∈ p.listing →
        planCall? ctx.marker arguments = none) ∧
      (∀ f, .function f ∈ p.listing → ∀ param ∈ f.head.params, param.isMarker ctx.marker = false) ∧
      ∀ span span' receiver property arguments,
        .expression (.call span (.member span' receiver property) arguments) ∈ p.listing →
        ctx.config.isArrayMethod property.name = true → ctx.isAdapted receiver = true) := by
  intro ctx
  obtain ⟨h_run, rfl⟩ := (Session.transform_result_eq_ok h_selected).1 h
  -- nothing counted means that there was nothing to be done, and a normal form is left alone
  have h_normal : History.counts ((s.engine file).run p).notes = ⟨0, 0, 0, 0⟩ →
      ctx.isDeclared p = true ∧ ∀ n ∈ p.listing, ctx.isNormal n = true :=
    Engine.normal_of_run_counts h_rules h_run
  refine ⟨⟨?_, ?_⟩, ⟨?_, ?_⟩⟩
  · exact Engine.run_counts_of_unchanged h_rules h_run
  · intro h_counts
    obtain ⟨h_declared, h_nodes⟩ := h_normal h_counts
    exact (Engine.run_of_normal (g := s.engine file) h_rules h_declared h_nodes).2.1
  · intro h_counts
    obtain ⟨h_declared, h_nodes⟩ := h_normal h_counts
    exact ⟨Context.isDeclared_iff.1 h_declared, Context.forall_isNormal h_nodes⟩
  · rintro ⟨h_declared, h_calls, h_functions, h_receivers⟩
    have h_offences : ∀ n ∈ p.listing, ctx.offence? s.limit n = none :=
      (Engine.run_failure_eq_none_iff_offences (g := s.engine file) h_rules).1 h_run
    have h_nodes := Context.isNormal_of_forall h_offences h_calls h_functions h_receivers
    exact (Engine.run_of_normal (g := s.engine file) h_rules (Context.isDeclared_iff.2 h_declared)
      h_nodes).2.2

/-- A program with the declaration and `$$streamline.array(xs).map_(f)` behind it is left as it is.
The comments of the declaration and the span of the adapter do not matter. -/
theorem Session.transform_unchanged_declared :
    let s : Session := addMarkerRules { config := {}, selector := .always }
    let name (n : String) : Expression := .identifier (.at 2 0 1) ⟨n, false⟩
    let adapted : Expression :=
      .call (.at 2 0 20) (.member (.at 2 0 18) (name "$$streamline") ⟨"array", false⟩) [name "xs"]
    let p : Program := ⟨[Context.declaration ⟨{}, {}⟩ [⟨.line, "runtime"⟩],
      .expression {}
        (.call (.at 2 0 27) (.member (.at 2 0 25) adapted ⟨"map_", false⟩) [name "f"])],
      .synthetic⟩
    ∃ output, (s.transform .collected p {}).1.result = .ok output ∧ output.program = p ∧
      output.summary.counts = ⟨0, 0, 0, 0⟩ := by
  intro s name adapted p
  have h_rules : s.rules = Rule.all := Session.addMarkerRules_rules rfl
  have h_selected : s.selects {} = true := rfl
  obtain ⟨output, h_output⟩ := Session.transform_ok_of_no_offence h_rules h_selected (p := p)
    (by decide) .collected
  obtain ⟨h_same, h_normal⟩ := Session.transform_unchanged_iff h_rules h_selected h_output
  have h_nodes : ∀ n ∈ p.listing, Context.isNormal ⟨{}, {}⟩ n = true := by decide
  have h_counts : output.summary.counts = ⟨0, 0, 0, 0⟩ :=
    h_normal.2 ⟨⟨_, _, rfl⟩, Context.forall_isNormal h_nodes⟩
  exact ⟨output, h_output, h_same.2 h_counts, h_counts⟩

end AsyncMarkers
