import AsyncMarkers.Proofs.Renaming
import AsyncMarkers.Proofs.Summary

/-!
# What positions have to do with a run

Rules look at the shapes of nodes and at names. Positions are carried along, into diagnostics and
onto the nodes that take another one's place, and are not compared with one another, with one
exception: a program is behind the declaration only if the nodes inside its first statement have the
synthetic span (`Binding.isDeclaredBy`). So of two programs that differ in positions only, one may
be given a declaration that the other one has already.

`Relabelling.unplaced` forgets all positions. Programs that are the same without them are walked
over alike, statement by statement (`Relabelling.visit_relabelled`). From this:

* **Refusals** never depend on positions (`Relabelling.run_failure_relabelled`). The declaration has
  no offence in it, so a run is refused for what stands in the body of the program, whether or not
  it declares the binding.
* **Results** depend on positions through the declaration and in no other way
  (`Session.transform_unplaced_iff`): those of two programs without their positions are the same if
  and only if both are behind the declaration, or neither is, or both are refused.
-/

namespace AsyncMarkers

namespace Engine

variable {g : Engine} (h_rules : g.rules = Rule.all)

include h_rules

/-- A run fails as the first visit of a statement of the program does that fails, whatever is put in
front of these. -/
theorem run_failure_eq_visits (p : Program) :
    (g.run p).failure =
      (p.body.map .statement).findSome? fun t => (g.visitor.visit t).failure := by
  -- the verdict is about the program's own nodes, so the declaration is not among them
  rw [run_failure h_rules, Program.listing_eq, Context.findSome?_flatMap_listing]
  exact findSome?_congr fun t _ => (visit_failure_eq h_rules t).symm

/-- Runs count the same only if both programs are behind the declaration or neither is. -/
theorem isDeclared_eq_of_counts {p q : Program} (h : (g.run p).failure = none)
    (h' : (g.run q).failure = none)
    (h_counts : History.counts (g.run p).notes = History.counts (g.run q).notes) :
    g.context.isDeclared p = g.context.isDeclared q := by
  -- the declaration is counted exactly if it was missing
  have h_p := (run_counts_exact h_rules h).1
  have h_q := (run_counts_exact h_rules h').1
  rw [h_counts, h_q] at h_p
  cases hp : g.context.isDeclared p <;> cases hq : g.context.isDeclared q <;> simp_all

end Engine

namespace Relabelling

variable (r : Relabelling) {g : Engine} (h_rules : g.rules = Rule.all)

include h_rules

/-- A visit of a relabelled node does what the visit of the node does. -/
theorem visit_relabelled (t : Subtree) :
    r.comparison.Agree (g.visitor.visit t) ((r.engine g).visitor.visit (r.nodes.apply t)) :=
  Comparison.visit_agree r.keepsShape (fun t _ => r.hook_relabelled h_rules t) t fun _ _ => trivial

/-- A relabelled program is refused for the same reason, also where it is behind the declaration and
the program is not. -/
theorem run_failure_relabelled (p : Program) :
    ((r.engine g).run (r.program p)).failure = (g.run p).failure.map r.diagnostic := by
  -- relabelling goes into the body statement by statement
  have h_body : (r.program p).body.map Subtree.statement =
      (p.body.map Subtree.statement).map r.nodes.apply := by
    rw [program, statements_eq, List.map_map, List.map_map]
    rfl
  rw [Engine.run_failure_eq_visits (g := r.engine g) h_rules, Engine.run_failure_eq_visits h_rules,
    h_body, List.findSome?_map]
  -- the induction is on the statements, which fail one by one in the same way
  generalize p.body.map Subtree.statement = ts
  induction ts with
  | nil => rfl
  | cons t ts ih =>
    have h_first := (r.visit_relabelled h_rules t).failure
    rw [findSome?_cons_or, findSome?_cons_or, ih, Function.comp_apply, h_first]
    cases (g.visitor.visit t).failure <;> rfl

/-- The statements that a run leaves, relabelled, are what the visits of the relabelled statements
leave. -/
theorem run_body_relabelled {p : Program} (h : (g.run p).failure = none) :
    (g.run p).value.body.map r.statement =
      ((g.context.declaredBody p).map r.statement).map (r.engine g).visitor.results.statement := by
  -- the declaration, if there is one, is relabelled along with the other statements
  rw [Engine.run_value h_rules h, List.map_map, List.map_map]
  refine List.map_congr_left fun s hs => ?_
  have h_visit := (Engine.run_failure_eq_none h_rules).1 h s hs
  have h_value := (r.visit_relabelled h_rules (.statement s)).value h_visit
  rw [← Visitor.results_apply, ← Visitor.results_apply] at h_value
  simp only [NodeMap.apply, comparison, nodes_statement] at h_value
  exact (Subtree.statement.inj h_value).symm

/-- What a run counts behind the declaration is what is counted in visits of the relabelled
statements. -/
theorem run_counts_relabelled {p : Program} (h : (g.run p).failure = none) :
    History.counts (g.run p).notes = g.context.declarationCount p +
      History.counts ((((g.context.declaredBody p).map r.statement).map .statement).flatMap fun t =>
        ((r.engine g).visitor.visit t).notes) := by
  -- counts add up over the statements, and each visit counts the same as the other
  have h_visits (ss : List Statement) :
      History.counts ((ss.map .statement).flatMap fun t => (g.visitor.visit t).notes) =
        History.counts (((ss.map r.statement).map .statement).flatMap fun t =>
          ((r.engine g).visitor.visit t).notes) := by
    induction ss with
    | nil => rw [List.map_nil, List.map_nil, List.map_nil, List.flatMap_nil, List.flatMap_nil]
    | cons s ss ih =>
      have h_first := counts_of_endsAlike (r.visit_relabelled h_rules (.statement s)).toEndsAlike
      rw [NodeMap.apply, nodes_statement] at h_first
      rw [List.map_cons, List.map_cons, List.map_cons, List.flatMap_cons, List.flatMap_cons,
        History.counts_append, History.counts_append, ih, h_first]
  rw [Engine.run_counts h_rules h, h_visits]

end Relabelling

namespace Engine

open Relabelling (unplaced)

variable {g : Engine} (h_rules : g.rules = Rule.all) {p q : Program}
  (h_same : unplaced.program p = unplaced.program q)

include h_rules h_same

/-- Of two programs that differ in positions only, one is refused as the other one is. -/
theorem run_failure_unplaced :
    (g.run p).failure.map unplaced.diagnostic = (g.run q).failure.map unplaced.diagnostic := by
  rw [← unplaced.run_failure_relabelled h_rules p, h_same,
    unplaced.run_failure_relabelled h_rules q]

variable (h : (g.run p).failure = none) (h' : (g.run q).failure = none)

include h h'

/-- If the same is put in front of them, runs leave the same, but for positions, and count the
same. -/
theorem run_unplaced (h_declared : g.context.isDeclared p = g.context.isDeclared q) :
    unplaced.program (g.run p).value = unplaced.program (g.run q).value ∧
      History.counts (g.run p).notes = History.counts (g.run q).notes := by
  -- the two bodies are the same without positions
  have h_statements : p.body.map unplaced.statement = q.body.map unplaced.statement := by
    have h_bodies := congrArg Program.body h_same
    simp only [Relabelling.program, Relabelling.statements_eq] at h_bodies
    exact h_bodies
  have h_body : (g.context.declaredBody p).map unplaced.statement =
      (g.context.declaredBody q).map unplaced.statement := by
    rw [Context.declaredBody, Context.declaredBody, h_declared]
    split
    · exact h_statements
    · -- the declaration is the same in front of both
      rw [← Relabelling.declareIn_relabelled, ← Relabelling.declareIn_relabelled, h_statements]
  constructor
  · -- the span of a program has no position left after relabelling
    have h_spans : unplaced.span (g.run p).value.span = unplaced.span (g.run q).value.span := rfl
    have h_bodies := unplaced.run_body_relabelled h_rules h
    rw [h_body, ← unplaced.run_body_relabelled h_rules h'] at h_bodies
    rw [Relabelling.program, Relabelling.program, Relabelling.statements_eq,
      Relabelling.statements_eq, h_bodies, h_spans]
  · rw [unplaced.run_counts_relabelled h_rules h, unplaced.run_counts_relabelled h_rules h', h_body,
      Context.declarationCount, Context.declarationCount, h_declared]

end Engine

/-- **Positions influence a run through the declaration only.** Let two programs be the same but for
their positions. The one is refused exactly if the other one is. Their results without positions
(program and summary, or the diagnostic) are the same if and only if they are refused, or both are
behind the declaration, or neither is. -/
theorem Session.transform_unplaced_iff {s : Session} (h_rules : s.rules = Rule.all)
    {file : FileDescriptor} (h_selected : s.selects file = true) {p q : Program}
    (h_same : Relabelling.unplaced.program p = Relabelling.unplaced.program q) (sink : Sink) :
    let result (p : Program) := (s.transform sink p file).1.result
    let isRefused (p : Program) := ∃ d, result p = .error d
    let isDeclared := Context.isDeclared ⟨file, s.config⟩
    (isRefused p ↔ isRefused q) ∧
      (Relabelling.unplaced.result (result p) = Relabelling.unplaced.result (result q) ↔
        isRefused p ∨ isDeclared p = isDeclared q) := by
  intro result isRefused isDeclared
  -- neither positions nor the declaration matter for a refusal
  have h_failure := Engine.run_failure_unplaced (g := s.engine file) h_rules h_same
  -- a report shows the failure of the run, or else what the run has left and counted
  have h_error (p : Program) {d : Diagnostic} (h : ((s.engine file).run p).failure = some d) :
      result p = .error d := by
    rw [show result p = (s.transform sink p file).1.result from rfl,
      transform_of_selected h_selected]
    exact report_result_eq_error.2 h
  have h_ok (p : Program) (h : ((s.engine file).run p).failure = none) :
      result p = .ok ⟨((s.engine file).run p).value,
        { counts := History.counts ((s.engine file).run p).notes }⟩ :=
    (transform_result_eq_ok h_selected).2 ⟨h, rfl⟩
  cases h_p : ((s.engine file).run p).failure with
  | some d =>
    -- the first program is refused, so the second one is, for the same reason but for its place
    cases h_q : ((s.engine file).run q).failure with
    | none =>
      rw [h_p, h_q] at h_failure
      cases h_failure
    | some d' =>
      rw [h_p, h_q, Option.map_some, Option.map_some, Option.some.injEq] at h_failure
      have h_refused : isRefused p := ⟨d, h_error p h_p⟩
      refine ⟨iff_of_true h_refused ⟨d', h_error q h_q⟩, iff_of_true ?_ (.inl h_refused)⟩
      rw [h_error p h_p, h_error q h_q]
      exact congrArg Except.error h_failure
  | none =>
    -- both are transformed, so the question is whether the results are the same
    have h_q : ((s.engine file).run q).failure = none := by
      rw [h_p, Option.map_none] at h_failure
      exact Option.map_eq_none_iff.1 h_failure.symm
    have h_not (p : Program) (h : ((s.engine file).run p).failure = none) : ¬isRefused p := by
      rintro ⟨d, hd⟩
      rw [h_ok p h] at hd
      cases hd
    refine ⟨iff_of_false (h_not p h_p) (h_not q h_q), ?_⟩
    rw [h_ok p h_p, h_ok q h_q]
    constructor
    · -- the summaries tell whether there was a declaration to be made
      intro h_results
      simp only [Relabelling.result, Except.ok.injEq, Output.mk.injEq, Summary.mk.injEq,
        true_and] at h_results
      exact .inr (Engine.isDeclared_eq_of_counts (g := s.engine file) h_rules h_p h_q h_results.2)
    · -- with the same statements in front, the two runs leave and count the same
      intro h_declared
      obtain ⟨h_value, h_counts⟩ := Engine.run_unplaced (g := s.engine file) h_rules h_same h_p h_q
        (h_declared.resolve_left (h_not p h_p))
      simp only [Relabelling.result, h_value, h_counts]

/-- A function that completes through its marker, with a marked call in its body, is transformed
alike wherever it stands. -/
theorem Session.transform_unplaced_moved_function :
    let s : Session := addMarkerRules { config := {}, selector := .always }
    let program (line : UInt32) : Program :=
      let name (n : String) : Expression := .identifier (.at line 5 6) ⟨n, false⟩
      let call : Expression := .call (.at line 20 30) (name "f") [name "x", name "_"]
      ⟨[.function { span := .at line 0 40 }
        (.block ⟨some ⟨"g", false⟩, [⟨"x", false⟩, ⟨"_", false⟩], .at line 0 40⟩
          [.return { span := .at line 13 38 } (some call)])], .at line 0 40⟩
    let result (line : UInt32) :=
      Relabelling.unplaced.result (s.transform .collected (program line) {}).1.result
    Relabelling.unplaced.program (program 0) = Relabelling.unplaced.program (program 7) ∧
      result 0 = result 7 := by
  intro s program result
  have h_same : Relabelling.unplaced.program (program 0) =
      Relabelling.unplaced.program (program 7) := rfl
  have h_iff := (Session.transform_unplaced_iff (s := s) (Session.addMarkerRules_rules rfl)
    (show s.selects {} = true from rfl) h_same .collected).2
  exact ⟨h_same, h_iff.2 (.inr rfl)⟩

/-- A program that consists of the declaration is left alone if the nodes in it have the synthetic
span, and is given another declaration if they stand in the first line of a text. -/
theorem Session.transform_declares_again :
    let s : Session := addMarkerRules { config := {}, selector := .always }
    let program (outer middle inner leaf : Span) : Program :=
      ⟨[.variables {} .var [.mk ⟨"$$streamline", false⟩ (some (.member outer
        (.call middle (.identifier inner ⟨"require", false⟩)
          [.literal leaf (.string "streamline-runtime")]) ⟨"runtime", false⟩))]], .synthetic⟩
    let made := program .synthetic .synthetic .synthetic .synthetic
    let parsed := program (.at 1 19 56) (.at 1 19 48) (.at 1 19 26) (.at 1 27 47)
    Relabelling.unplaced.program made = Relabelling.unplaced.program parsed ∧
      ∃ output output', (s.transform .collected made {}).1.result = .ok output ∧
        (s.transform .collected parsed {}).1.result = .ok output' ∧
        output.summary.counts.declarations = 0 ∧ output'.summary.counts.declarations = 1 := by
  intro s program made parsed
  have h_rules : s.rules = Rule.all := Session.addMarkerRules_rules rfl
  have h_selected : s.selects {} = true := rfl
  -- neither program has an offence, and the declarations are counted by the spans
  obtain ⟨output, h_made⟩ := Session.transform_ok_of_no_offence h_rules h_selected (p := made)
    (by decide) .collected
  obtain ⟨output', h_parsed⟩ := Session.transform_ok_of_no_offence h_rules h_selected (p := parsed)
    (by decide) .collected
  refine ⟨rfl, output, output', h_made, h_parsed, ?_, ?_⟩
  · obtain ⟨h_run, rfl⟩ := (Session.transform_result_eq_ok h_selected).1 h_made
    exact (Engine.run_counts_exact (g := s.engine {}) h_rules h_run).1.trans (by decide)
  · obtain ⟨h_run, rfl⟩ := (Session.transform_result_eq_ok h_selected).1 h_parsed
    exact (Engine.run_counts_exact (g := s.engine {}) h_rules h_run).1.trans (by decide)

end AsyncMarkers
