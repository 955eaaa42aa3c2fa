import AsyncMarkers.Proofs.Walk
import AsyncMarkers.Session

/-!
# What is reported of a run

A run keeps a record of every refusal, and it stops at the first one. So the diagnostics in the
history of a run are the one that has stopped it, or none (`Engine.run_reported`), whatever rules it
is for. This is a property of visits (`Visit.Reported`) that every hook has and that going on from
one visit to the next preserves.
-/

namespace AsyncMarkers

/-- What has been noted tells why the walk has stopped, and of no other refusal. -/
def Visit.Reported {α : Type} (w : Visit Record Diagnostic α) : Prop :=
  w.notes.filterMap Record.diagnostic? = w.failure.toList

/-- Being reported is kept when walks are put one after the other. -/
theorem Visit.reported_chains : Visit.Chains (Visit.Reported (α := Unit)) where
  nothing := rfl
  followedBy {u w} hu hw := by
    unfold Reported at hu hw ⊢
    -- behind a failure nothing more is noted, and before it nothing has been refused
    cases h : u.failure with
    | none =>
      rw [followedBy_of_failure_none h, List.filterMap_append, hu, hw, h]
      rfl
    | some d => simp only [Visit.followedBy, h, hu]

namespace Engine

variable (g : Engine)

/-- What the rules refuse at a node is noted, and ends their work there. -/
theorem apply_reported (ctx : Context) (kind : NodeKind) (rules : List Rule) (node : kind.Node) :
    (apply ctx kind rules node).Reported := by
  -- a rule that refuses is the last one, so there is one refusal at most
  induction rules generalizing node with
  | nil => rfl
  | cons rule rules ih =>
    rw [apply]
    split
    · split
      · rfl
      · split
        · rfl
        · exact ih _
    · exact ih node

/-- What is refused at an expression is noted. -/
theorem applyTo_reported (e : Expression) : (g.applyTo e).Reported := by
  cases e with
  | call s callee arguments => exact apply_reported g.context .call g.rules _
  | construct s callee arguments => exact apply_reported g.context .construction g.rules _
  | _ => rfl

/-- In the replacement loop, a refusal is noted and ends the loop. -/
theorem settle_reported (left : Nat) (e : Expression) : (g.settle left e).Reported := by
  induction left generalizing e with
  | zero => rfl
  | succ left ih =>
    have h_applied : (g.applyTo e).notes.filterMap Record.diagnostic? =
        (g.applyTo e).failure.toList := g.applyTo_reported e
    rw [settle]
    split
    · exact h_applied
    · -- the loop goes on only if there was no failure, so the first round adds no refusal
      rename_i h_going_on
      have h_none : (g.applyTo e).failure = none := by
        cases h : (g.applyTo e).failure with
        | none => rfl
        | some d => simp [h] at h_going_on
      rw [h_none] at h_applied
      unfold Visit.Reported
      split
      · -- at the limit, the stop is the refusal
        split
        · rw [List.filterMap_append, h_applied]
          rfl
        · exact h_applied
      · rw [List.filterMap_append, h_applied]
        exact ih _

/-- Of everything that a run refuses it reports what has stopped it, and nothing else. -/
theorem run_reported (p : Program) : (g.run p).Reported := by
  have h_run : (g.run p).ending.Reported := by
    refine Visitor.visitProgram_chains Visit.reported_chains
      (apply_reported g.context .program g.rules p) fun t => ?_
    cases t with
    | statement s => rfl
    | function f => exact apply_reported g.context .function g.rules f
    | expression e => exact g.settle_reported (max 1 g.limit) e
  exact h_run

end Engine

/-- The report of a file that is selected is made of a run, which is counted in the statistics. -/
theorem Session.transform_of_selected {s : Session} {file : FileDescriptor}
    (h_selected : s.selects file = true) (sink : Sink) (p : Program) :
    s.transform sink p file = (Session.report sink file ((s.engine file).run p),
      { s with statistics := s.statistics.countAll ((s.engine file).run p).notes }) := by
  rw [transform, if_pos h_selected]

/-- A file that is not selected is left as it is, and nothing is counted. -/
theorem Session.transform_of_not_selected {s : Session} {file : FileDescriptor}
    (h_selected : ¬s.selects file = true) (sink : Sink) (p : Program) :
    s.transform sink p file =
      ({ result := .ok ⟨p, { skipped := true }⟩, events := [.fileNotSelected file.displayName] },
        s) := by
  rw [transform, if_neg h_selected]

/-- A report is an error exactly if the run has been stopped. -/
theorem Session.report_result_eq_error {sink : Sink} {file : FileDescriptor}
    {run : Visit Record Diagnostic Program} {d : Diagnostic} :
    (Session.report sink file run).result = .error d ↔ run.failure = some d := by
  unfold Session.report
  cases run.failure <;> simp

/-- What is reported of a file that has been transformed is what its run has left and counted. -/
theorem Session.transform_result_eq_ok {s : Session} {file : FileDescriptor}
    (h_selected : s.selects file = true) {sink : Sink} {p : Program} {output : Output} :
    (s.transform sink p file).1.result = .ok output ↔ ((s.engine file).run p).failure = none ∧
      output = ⟨((s.engine file).run p).value,
        { counts := History.counts ((s.engine file).run p).notes }⟩ := by
  rw [transform, if_pos h_selected]
  dsimp only [report]
  cases ((s.engine file).run p).failure with
  | none => simp [eq_comm]
  | some d => simp

/-- The diagnostics in a report are what the sink collects of the one that has ended the run, if one
has. -/
theorem Session.report_diagnostics_of_sink (sink : Sink) (g : Engine) (p : Program)
    (file : FileDescriptor) : (Session.report sink file (g.run p)).diagnostics =
      (g.run p).failure.toList.flatMap sink.collects := by
  have h_reported : (g.run p).notes.filterMap Record.diagnostic? = (g.run p).failure.toList :=
    g.run_reported p
  rw [← h_reported]
  rfl

/-- A report holds the diagnostic that has ended the run, if one has. -/
theorem Session.report_diagnostics (g : Engine) (p : Program) (file : FileDescriptor) :
    (Session.report .collected file (g.run p)).diagnostics = (g.run p).failure.toList := by
  rw [report_diagnostics_of_sink]
  cases (g.run p).failure <;> rfl

end AsyncMarkers
