import Mathlib.Algebra.Ring.Nat
import AsyncMarkers.Proofs.Statistics
import AsyncMarkers.Proofs.Verdict

/-!
# Statistics, summary, log and diagnostics agree

A run keeps four accounts of what it does: the statistics of rules, the counts of its summary, the
events of its log, and its diagnostics. They are all read off one history, so they agree as soon as
they agree for each record (`Context.Noted.accounts`). What they agree on is stated as equations and
inequalities between sums (`Accounts`), which adding records up preserves (`Accounts.add`), so they
hold at all times during a run, and not only at its end.

The call rule is the one rule that does two things to a node. It may adapt a receiver and substitute
the call in one application, so its transformations are as many as the calls and receivers together
only if that never happens; they are never fewer than either of them.

Diagnostics are different: there is at most one, and one record tells it (`Visit.Reported`). The
entry that it is counted in, if any, is read off that record. A stop is no application of a rule and
counts in none.
-/

namespace AsyncMarkers

/-! ### Accounts -/

/-- Whether an event is a step of a transformation that the log tells with the given message. A
diagnostic is told at another level, whatever its message is. -/
def Event.tells (message : String) (e : Event) : Bool := e.level = .debug && e.message = message

/-- The counts of a summary, how often a message is told in the log, and what is added to the
entries of rules agree. -/
structure Accounts (counts : Counts) (told : String → Nat) (grown : String → RuleStats) : Prop where
  applied : told "rule applied" = (Rule.all.map fun rule => (grown rule.name).transformations).sum
  declarations : told "runtime declaration inserted" = counts.declarations
  functions : told "signature rewritten" = counts.functions
  receivers : told "array receiver adapted" = counts.receivers
  calls : told "marker call rewritten" = counts.calls
  program : grown "ProgramInitializer" = ⟨counts.declarations, counts.declarations, 0⟩
  signature : grown "SignatureRewriter" = ⟨counts.functions, counts.functions, 0⟩
  calls_le : counts.calls ≤ (grown "CallRewriter").transformations
  receivers_le : counts.receivers ≤ (grown "CallRewriter").transformations
  le_add : (grown "CallRewriter").transformations ≤ counts.calls + counts.receivers

namespace Accounts

/-- Where nothing has been done, the accounts agree. -/
theorem zero : Accounts {} (fun _ => 0) (fun _ => 0) := by
  constructor <;> decide

/-- They still agree when two of them are put together. -/
theorem add {counts counts' : Counts} {told told' : String → Nat}
    {grown grown' : String → RuleStats} (h : Accounts counts told grown)
    (h' : Accounts counts' told' grown') :
    Accounts (counts + counts') (fun message => told message + told' message)
      (fun name => grown name + grown' name) where
  applied := by
    simp only [RuleStats.add_transformations, List.sum_map_add, h.applied, h'.applied]
  declarations := congrArg₂ (· + ·) h.declarations h'.declarations
  functions := congrArg₂ (· + ·) h.functions h'.functions
  receivers := congrArg₂ (· + ·) h.receivers h'.receivers
  calls := congrArg₂ (· + ·) h.calls h'.calls
  program := congrArg₂ (· + ·) h.program h'.program
  signature := congrArg₂ (· + ·) h.signature h'.signature
  calls_le := Nat.add_le_add h.calls_le h'.calls_le
  receivers_le := Nat.add_le_add h.receivers_le h'.receivers_le
  -- the bounds add up, with calls and receivers in another order
  le_add := by
    have h_left := h.le_add
    have h_right := h'.le_add
    simp only [RuleStats.add_transformations, Counts.add_calls, Counts.add_receivers]
    omega

end Accounts

/-! ### One record -/

namespace Context.Noted

variable {ctx : Context} {limit : Nat} {r : Record}

/-- The accounts of one record agree. -/
theorem accounts (h : ctx.Noted limit r) (sink : Sink) :
    Accounts r.counts (fun message => (r.events sink).countP (·.tells message))
      (fun name => r.growth name) := by
  -- all three are written out in the record, up to what the sink makes of a diagnostic
  cases h <;> cases sink <;> constructor <;> first | rfl | exact Nat.le_of_ble_eq_true rfl

/-- A record without a diagnostic counts no errors, and is not about a construction. -/
theorem growth_of_no_diagnostic (h : ctx.Noted limit r) (h_none : r.diagnostic? = none)
    (name : String) : (r.growth name).errors = 0 ∧ r.growth "ConstructorRewriter" = 0 := by
  cases h with
  | refused | refusedConstruction | stopped => cases h_none
  | _ =>
    refine ⟨?_, rfl⟩
    rw [Record.growth]
    split <;> rfl

/-- A diagnostic counts as one error of the rule that has refused a node, unless it is for the
limit. -/
theorem growth_of_diagnostic (h : ctx.Noted limit r) {d : Diagnostic}
    (hd : r.diagnostic? = some d) :
    (d.isLimit = true → ∀ name, (r.growth name).errors = 0) ∧
    (d.isLimit = false → ∃ name ∈ ["CallRewriter", "ConstructorRewriter"],
      ∀ other, (r.growth other).errors = if other = name then 1 else 0) := by
  -- a refusal counts in the entry of its own rule and in no other one
  have h_own (rule : String) (node : NodeKind) (d : Diagnostic) (other : String) :
      ((Record.applied { rule, node, verdict := .error d }).growth other).errors =
        if other = rule then 1 else 0 := by
    rw [Record.growth]
    by_cases h_other : rule = other
    · rw [if_pos h_other, if_pos h_other.symm]
      rfl
    · rw [if_neg h_other, if_neg (Ne.symm h_other)]
      rfl
  -- calls and constructions can be refused, and a stop is for the limit
  cases h with
  | refused h_limit =>
    cases hd
    refine ⟨fun h_is => ?_, fun _ => ⟨"CallRewriter", .head _, h_own _ _ _⟩⟩
    rw [h_limit] at h_is
    cases h_is
  | refusedConstruction location =>
    cases hd
    refine ⟨fun h_is => ?_, fun _ => ⟨"ConstructorRewriter", .tail _ (.head _), h_own _ _ _⟩⟩
    cases h_is
  | stopped location =>
    cases hd
    refine ⟨fun _ _ => rfl, fun h_not => ?_⟩
    cases h_not
  | _ => cases hd

/-- Of what a record tells, only diagnostics are errors. -/
theorem events_error (h : ctx.Noted limit r) (sink : Sink) :
    (r.events sink).filter (·.level = .error) = r.diagnostic?.toList.flatMap sink.events := by
  cases h <;> cases sink <;> rfl

end Context.Noted

/-! ### Histories -/

namespace History

variable {ctx : Context} {limit : Nat} {h : History}

/-- How often the log tells a message. -/
def told (sink : Sink) (h : History) (message : String) : Nat :=
  (h.events sink).countP (·.tells message)

/-- **The accounts of a history agree.** -/
theorem accounts (h_noted : ∀ r ∈ h, ctx.Noted limit r) (sink : Sink) :
    Accounts (counts h) (told sink h) (growth h) := by
  induction h with
  | nil => exact .zero
  | cons r h ih =>
    rw [List.forall_mem_cons] at h_noted
    have h_told : told sink (r :: h) =
        fun message => (r.events sink).countP (·.tells message) + told sink h message := by
      funext message
      rw [told, events, List.flatMap_cons, List.countP_append]
      rfl
    have h_growth : growth (r :: h) = fun name => r.growth name + growth h name :=
      funext fun name => growth_cons r h name
    rw [counts_cons, h_told, h_growth]
    exact (h_noted.1.accounts sink).add (ih h_noted.2)

/-- An application changes the node, or refuses it, or does neither. -/
theorem growth_balanced (h : History) (name : String) :
    (growth h name).transformations + (growth h name).errors ≤ (growth h name).applications := by
  induction h with
  | nil => exact Nat.le_refl 0
  | cons r h ih =>
    have h_record : (r.growth name).transformations + (r.growth name).errors ≤
        (r.growth name).applications := by
      -- only an application counts, and only in the entry of its rule
      cases r with
      | stopped d => exact Nat.le_refl 0
      | applied a =>
        rw [Record.growth]
        split
        · cases a.verdict with
          | error d => exact Nat.le_refl 1
          | ok outcome => cases outcome <;> decide
        · exact Nat.le_refl 0
    simp only [growth_cons, RuleStats.add_transformations, RuleStats.add_errors,
      RuleStats.add_applications]
    omega

/-- A history of applications of some rules adds nothing to the entries of others. -/
theorem growth_eq_zero_of_not_mem {rules : List Rule} (h_rules : ∀ r ∈ h, Engine.ByRule rules r)
    {name : String} (h_name : name ∉ rules.map Rule.name) : growth h name = 0 := by
  induction h with
  | nil => rfl
  | cons r h ih =>
    rw [List.forall_mem_cons] at h_rules
    rw [growth_cons, ih h_rules.2, add_zero]
    cases r with
    | stopped d => rfl
    | applied a =>
      -- the rule that was applied is one of the rules, and the name is that of none
      have h_other : a.rule ≠ name := fun h_eq => h_name (h_eq ▸ h_rules.1)
      rw [Record.growth, if_neg h_other]

/-- Without diagnostics there are no errors, and no constructions are counted. -/
theorem growth_of_no_diagnostics (h_noted : ∀ r ∈ h, ctx.Noted limit r)
    (h_none : h.filterMap Record.diagnostic? = []) (name : String) :
    (growth h name).errors = 0 ∧ growth h "ConstructorRewriter" = 0 := by
  induction h with
  | nil => exact ⟨rfl, rfl⟩
  | cons r h ih =>
    rw [List.forall_mem_cons] at h_noted
    rw [List.filterMap_eq_nil_iff, List.forall_mem_cons, ← List.filterMap_eq_nil_iff] at h_none
    obtain ⟨h_errors, h_construction⟩ := h_noted.1.growth_of_no_diagnostic h_none.1 name
    obtain ⟨h_errors', h_construction'⟩ := ih h_noted.2 h_none.2
    rw [growth_cons, growth_cons, RuleStats.add_errors, h_errors, h_errors', h_construction,
      h_construction']
    exact ⟨rfl, rfl⟩

/-- A single diagnostic is counted as one error, if it is not for the limit. -/
theorem growth_of_single_diagnostic (h_noted : ∀ r ∈ h, ctx.Noted limit r) {d : Diagnostic}
    (hd : h.filterMap Record.diagnostic? = [d]) :
    (d.isLimit = true → ∀ name, (growth h name).errors = 0) ∧
    (d.isLimit = false → ∃ name ∈ ["CallRewriter", "ConstructorRewriter"],
      ∀ other, (growth h other).errors = if other = name then 1 else 0) := by
  -- one record has the diagnostic, and those before and behind it have none
  obtain ⟨before, r, after, rfl, h_before, hr, h_after⟩ := List.filterMap_eq_cons_iff.1 hd
  rw [List.forall_mem_append, List.forall_mem_cons] at h_noted
  obtain ⟨h_noted_before, h_noted_r, h_noted_after⟩ := h_noted
  have h_errors (name : String) :
      (growth (before ++ r :: after) name).errors = (r.growth name).errors := by
    rw [growth_append, growth_cons, RuleStats.add_errors, RuleStats.add_errors,
      (growth_of_no_diagnostics h_noted_before (List.filterMap_eq_nil_iff.2 h_before) name).1,
      (growth_of_no_diagnostics h_noted_after h_after name).1, Nat.zero_add, Nat.add_zero]
  simp only [h_errors]
  exact h_noted_r.growth_of_diagnostic hr

/-- Of what the log tells, only diagnostics are errors. -/
theorem events_error (h_noted : ∀ r ∈ h, ctx.Noted limit r) (sink : Sink) :
    (events sink h).filter (·.level = .error) =
      (h.filterMap Record.diagnostic?).flatMap sink.events := by
  rw [events, List.filter_flatMap, List.filterMap_eq_flatMap_toList, List.flatMap_assoc]
  exact List.flatMap_congr fun r hr => (h_noted r hr).events_error sink

end History

/-! ### Runs -/

namespace Session

/-- A report tells what the history of its run tells, up to whether a file has been transformed. -/
theorem report_events_filter {sort : Event → Bool} (sink : Sink) {file : FileDescriptor}
    (h_sort : ∀ counts, sort (fileTransformed file counts) = false)
    (run : Visit Record Diagnostic Program) :
    (report sink file run).events.filter sort = (History.events sink run.notes).filter sort := by
  rw [report]
  cases run.failure with
  | some d => rfl
  | none => simp [h_sort]

/-- **Statistics, summary, log and diagnostics agree.** At all times during a run, an entry has
grown by at least as many applications as changes and errors together, and the log has told of as
many applied rules as nodes have been changed. In the end, if the file has been transformed, no
errors have been counted, the entries of the rules for programs and functions have grown by the
declarations and functions of the summary, that of the rule for calls by its calls and receivers,
with those counted once that were changed together, and the log has told of all four as often as the
summary counts them. If the file has been refused, its one diagnostic is reported to the sink, and
is the one error that has been counted, unless it is for the limit. -/
theorem transform_accounts {s : Session} (h_rules : s.rules = Rule.all) {file : FileDescriptor}
    (h_selected : s.selects file = true) (sink : Sink) (p : Program) :
    let history : History := ((s.engine file).run p).notes
    let grown := history.growth
    let report := (s.transform sink p file).1
    let told message := report.events.countP (·.tells message)
    (∀ now, now <+: history →
      (∀ name,
        (s.statistics.countAll now).of name = s.statistics.of name + History.growth now name) ∧
      (∀ name, (History.growth now name).transformations + (History.growth now name).errors ≤
        (History.growth now name).applications) ∧
      (∀ name ∉ s.ruleNames, History.growth now name = 0) ∧
      (History.events sink now).countP (·.tells "rule applied") =
        (s.ruleNames.map fun name => (History.growth now name).transformations).sum) ∧
    (∀ name, (s.transform sink p file).2.statistics.of name = s.statistics.of name + grown name) ∧
    told "rule applied" = (s.ruleNames.map fun name => (grown name).transformations).sum ∧
    (∀ output, report.result = .ok output →
      let counts := output.summary.counts
      (∀ name, (grown name).errors = 0) ∧
      grown "ConstructorRewriter" = 0 ∧
      grown "ProgramInitializer" = ⟨counts.declarations, counts.declarations, 0⟩ ∧
      grown "SignatureRewriter" = ⟨counts.functions, counts.functions, 0⟩ ∧
      max counts.calls counts.receivers ≤ (grown "CallRewriter").transformations ∧
      (grown "CallRewriter").transformations ≤ counts.calls + counts.receivers ∧
      told "marker call rewritten" = counts.calls ∧
      told "array receiver adapted" = counts.receivers ∧
      told "signature rewritten" = counts.functions ∧
      told "runtime declaration inserted" = counts.declarations ∧
      report.diagnostics = [] ∧ report.events.filter (·.level = .error) = []) ∧
    (∀ d, report.result = .error d →
      (d.isLimit = true → ∀ name, (grown name).errors = 0) ∧
      (d.isLimit = false → ∃ name ∈ ["CallRewriter", "ConstructorRewriter"],
        ∀ other, (grown other).errors = if other = name then 1 else 0) ∧
      report.diagnostics = sink.collects d ∧
      report.events.filter (·.level = .error) = sink.events d) := by
  intro history grown report told
  have h_transform := transform_of_selected h_selected sink p
  have h_report : report = Session.report sink file ((s.engine file).run p) :=
    congrArg Prod.fst h_transform
  have h_noted : ∀ r ∈ history, (s.engine file).context.Noted s.limit r :=
    Engine.run_noted (g := s.engine file) h_rules p
  have h_by_rule : ∀ r ∈ history, Engine.ByRule s.rules r :=
    Engine.run_notes_rule (g := s.engine file) p
  have h_reported : history.filterMap Record.diagnostic? = ((s.engine file).run p).failure.toList :=
    (s.engine file).run_reported p
  -- the rules of the session are all there are
  have h_applied (h : History) : s.ruleNames.map (fun name => (h.growth name).transformations) =
      Rule.all.map fun rule => (h.growth rule.name).transformations := by
    rw [ruleNames, h_rules, List.map_map]
    rfl
  have h_accounts := History.accounts h_noted sink
  -- that a file has been transformed is told with a message of its own
  have h_told (message : String) : told message = history.told sink message := by
    show report.events.countP _ = (History.events sink history).countP _
    rw [List.countP_eq_length_filter, List.countP_eq_length_filter, h_report,
      report_events_filter sink (fun _ => rfl)]
  have h_errors : report.events.filter (·.level = .error) =
      ((s.engine file).run p).failure.toList.flatMap sink.events := by
    rw [h_report, report_events_filter sink (fun _ => rfl), ← h_reported]
    exact History.events_error h_noted sink
  have h_diagnostics : report.diagnostics =
      ((s.engine file).run p).failure.toList.flatMap sink.collects := by
    rw [h_report, report_diagnostics_of_sink]
  refine ⟨fun now h_now => ⟨?_, ?_, ?_, ?_⟩, ?_, ?_, ?_, ?_⟩
  · exact fun name => Statistics.of_countAll s.statistics now name
  · exact fun name => History.growth_balanced now name
  · intro name h_name
    -- what holds of all records holds of those that there are by now
    exact History.growth_eq_zero_of_not_mem (fun r hr => h_by_rule r (h_now.subset hr)) h_name
  · rw [h_applied]
    exact (History.accounts (fun r hr => h_noted r (h_now.subset hr)) sink).applied
  · intro name
    rw [h_transform]
    exact Statistics.of_countAll s.statistics history name
  · rw [h_applied, h_told]
    exact h_accounts.applied
  · intro output h_ok counts
    -- a run with an output has no failure, hence no diagnostic
    obtain ⟨h_none, rfl⟩ := (transform_result_eq_ok h_selected).1 h_ok
    rw [h_none] at h_reported h_errors h_diagnostics
    have h_no_errors := History.growth_of_no_diagnostics h_noted h_reported
    refine ⟨fun name => (h_no_errors name).1, (h_no_errors "").2, h_accounts.program,
      h_accounts.signature, Nat.max_le.2 ⟨h_accounts.calls_le, h_accounts.receivers_le⟩,
      h_accounts.le_add, ?_, ?_, ?_, ?_, h_diagnostics, h_errors⟩
    · exact (h_told _).trans h_accounts.calls
    · exact (h_told _).trans h_accounts.receivers
    · exact (h_told _).trans h_accounts.functions
    · exact (h_told _).trans h_accounts.declarations
  · intro d h_error
    -- the failure of the run is the single diagnostic
    rw [h_report, report_result_eq_error] at h_error
    rw [h_error] at h_reported h_errors h_diagnostics
    obtain ⟨h_limit, h_refused⟩ := History.growth_of_single_diagnostic h_noted h_reported
    exact ⟨h_limit, h_refused, h_diagnostics.trans (List.flatMap_singleton _ d),
      h_errors.trans (List.flatMap_singleton _ d)⟩

/-- A session has counted two errors in calls. It goes on to transform `xs.map_(f, _)`, which is
adapted and substituted at once, and to refuse `new C(_)`. -/
theorem transform_accounts_adapted_call :
    let s : Session := { addMarkerRules { config := {}, selector := .always } with
      statistics := [("CallRewriter", ⟨5, 3, 2⟩)] }
    let name (n : String) : Expression := .identifier .synthetic ⟨n, false⟩
    let map : Program := ⟨[.expression {} (.call .synthetic
      (.member .synthetic (name "xs") ⟨"map_", false⟩) [name "f", name "_"])], .synthetic⟩
    let construction : Program :=
      ⟨[.expression {} (.construct .synthetic (name "C") [name "_"])], .synthetic⟩
    let report p := (s.transform .collected p {}).1
    let entry p n := (s.transform .collected p {}).2.statistics.of n
    (∃ output, (report map).result = .ok output ∧
      let counts := output.summary.counts
      (entry map "CallRewriter").errors = 2 ∧
      entry map "ProgramInitializer" = ⟨counts.declarations, counts.declarations, 0⟩ ∧
      3 + counts.calls ≤ (entry map "CallRewriter").transformations ∧
      (report map).events.countP (·.tells "marker call rewritten") = counts.calls ∧
      (report map).diagnostics = []) ∧
    ∃ d, (report construction).result = .error d ∧ (report construction).diagnostics = [d] ∧
      ∃ name ∈ ["CallRewriter", "ConstructorRewriter"], ∀ other,
        (entry construction other).errors =
          (s.statistics.of other).errors + if other = name then 1 else 0 := by
  intro s name map construction report entry
  have h_rules : s.rules = Rule.all := addMarkerRules_rules rfl
  have h_selected : s.selects {} = true := rfl
  constructor
  · -- both files are run through the theorem, and no run is evaluated
    obtain ⟨output, h_ok⟩ :=
      transform_ok_of_no_offence h_rules h_selected (p := map) (by decide) .collected
    obtain ⟨-, h_grown, -, h_success, -⟩ := transform_accounts h_rules h_selected .collected map
    obtain ⟨h_errors, -, h_program, -, h_calls, -, h_told, -, -, -, h_diagnostics, -⟩ :=
      h_success output h_ok
    refine ⟨output, h_ok, ?_, ?_, ?_, h_told, h_diagnostics⟩
    · exact (congrArg RuleStats.errors (h_grown _)).trans (congrArg (2 + ·) (h_errors _))
    · exact (h_grown _).trans (h_program ▸ zero_add _)
    · refine le_of_le_of_eq ?_ (congrArg RuleStats.transformations (h_grown _)).symm
      exact Nat.add_le_add_left (Nat.max_le.1 h_calls).1 3
  · have h_error := transform_error_of_offence h_rules h_selected (p := construction)
      (d := .unsupported .asyncConstructor ⟨"unknown", 0, 0⟩) (by decide) .collected
    obtain ⟨-, h_grown, -, -, h_failure⟩ :=
      transform_accounts h_rules h_selected .collected construction
    obtain ⟨-, h_refused, h_diagnostics, -⟩ := h_failure _ h_error
    obtain ⟨name, h_name, h_errors⟩ := h_refused rfl
    refine ⟨_, h_error, h_diagnostics, name, h_name, fun other => ?_⟩
    exact (congrArg RuleStats.errors (h_grown other)).trans (congrArg (_ + ·) (h_errors other))

end Session

end AsyncMarkers
