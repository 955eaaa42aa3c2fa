import Mathlib.Data.List.Induction
import AsyncMarkers.Proofs.Statistics

/-!
# Files do not see one another

A session is used for one file after another, and its statistics may be cleared in between. All that
an operation changes in a session are the statistics (`Session.perform_setup`), and nothing that is
reported of a file depends on these. So every file is reported on as by a session that has done
nothing yet, whatever came before it, whether it was transformed, passed over or refused.

The statistics themselves are sums over files. By induction over the operations, last one first, the
entry of a rule is what the files since the last clearing have added to it, each of them as much as
it adds to a new session. A sum does not depend on the order of its summands, so neither do
statistics depend on the order of the files.
-/

namespace AsyncMarkers

/-- A file to be transformed. -/
structure Job where
  sink : Sink
  program : Program
  file : FileDescriptor

/-- What can be asked of a session. -/
inductive Operation where
  | transform (job : Job)
  | clear

namespace Operation

/-- The file that is to be transformed, if there is one. -/
def job? : Operation → Option Job
  | .transform job => some job
  | .clear => none

/-- The files since statistics have last been cleared. -/
def sinceClear (operations : List Operation) : List Job :=
  operations.foldl (fun jobs operation => match operation with
    | .transform job => jobs ++ [job]
    | .clear => []) []

end Operation

namespace Session

/-- Transforms a file. -/
def carryOut (s : Session) (job : Job) : Report × Session :=
  s.transform job.sink job.program job.file

/-- Does what is asked, and reports on the file if there is one. -/
def perform (s : Session) : Operation → List Report × Session
  | .transform job => ([(s.carryOut job).1], (s.carryOut job).2)
  | .clear => ([], s.clearStatistics)

/-- Does one thing after another. -/
def performAll (s : Session) : List Operation → List Report × Session
  | [] => ([], s)
  | operation :: operations =>
    let first := s.perform operation
    let later := first.2.performAll operations
    (first.1 ++ later.1, later.2)

/-- Operations may be done in two parts. -/
theorem performAll_append (s : Session) (operations later : List Operation) :
    s.performAll (operations ++ later) =
      ((s.performAll operations).1 ++ ((s.performAll operations).2.performAll later).1,
        ((s.performAll operations).2.performAll later).2) := by
  induction operations generalizing s with
  | nil => rfl
  | cons operation operations ih =>
    rw [List.cons_append, performAll, ih, performAll]
    simp only [List.append_assoc]

/-! ### One operation -/

/-- The sessions differ in statistics at most. -/
def SameSetup (s s' : Session) : Prop := ∃ statistics, s' = { s with statistics }

/-- If sessions differ in statistics one after the other, so do the first and the last. -/
theorem SameSetup.trans {s s' s'' : Session} (h : SameSetup s s') (h' : SameSetup s' s'') :
    SameSetup s s'' := by
  obtain ⟨statistics, rfl⟩ := h
  obtain ⟨statistics', rfl⟩ := h'
  exact ⟨statistics', rfl⟩

/-- Transforming a file changes nothing but statistics. -/
theorem carryOut_setup (s : Session) (job : Job) : SameSetup s (s.carryOut job).2 := by
  rw [carryOut, transform]
  -- a file that is not selected leaves the statistics alone, too
  split
  · exact ⟨_, rfl⟩
  · exact ⟨s.statistics, rfl⟩

/-- An operation changes nothing but statistics. -/
theorem perform_setup (s : Session) (operation : Operation) :
    SameSetup s (s.perform operation).2 := by
  cases operation with
  | transform job => exact s.carryOut_setup job
  | clear => exact ⟨_, rfl⟩

/-- What is reported of a file does not depend on statistics. -/
theorem SameSetup.carryOut_report {s s' : Session} (h : SameSetup s s') (job : Job) :
    (s'.carryOut job).1 = (s.carryOut job).1 := by
  obtain ⟨statistics, rfl⟩ := h
  -- statistics are read neither to select a file nor to run the rules
  by_cases h_selected : s.selects job.file = true
  · rw [carryOut, carryOut, transform_of_selected h_selected,
      transform_of_selected (s := { s with statistics }) h_selected]
    rfl
  · rw [carryOut, carryOut, transform_of_not_selected h_selected,
      transform_of_not_selected (s := { s with statistics }) h_selected]

/-- What a file adds to the entry of a rule. -/
def growth (s : Session) (job : Job) (name : String) : RuleStats :=
  if s.selects job.file then History.growth ((s.engine job.file).run job.program).notes name else 0

/-- A file adds its growth to the statistics. -/
theorem carryOut_statistics (s : Session) (job : Job) (name : String) :
    (s.carryOut job).2.statistics.of name = s.statistics.of name + s.growth job name := by
  rw [growth]
  by_cases h_selected : s.selects job.file = true
  · rw [carryOut, transform_of_selected h_selected, if_pos h_selected]
    exact Statistics.of_countAll ..
  · rw [carryOut, transform_of_not_selected h_selected, if_neg h_selected, add_zero]

/-- If every rule has an entry, a file adds no further one. -/
theorem carryOut_names {s : Session} (h_names : ∀ rule ∈ s.rules, rule.name ∈ s.statistics.names)
    (job : Job) : (s.carryOut job).2.statistics.names = s.statistics.names := by
  by_cases h_selected : s.selects job.file = true
  · rw [carryOut, transform_of_selected h_selected]
    exact Statistics.names_countAll h_names (Engine.run_notes_rule (g := s.engine job.file) _)
  · rw [carryOut, transform_of_not_selected h_selected]

/-- What a file adds does not depend on statistics. -/
theorem SameSetup.growth {s s' : Session} (h : SameSetup s s') : s'.growth = s.growth := by
  obtain ⟨statistics, rfl⟩ := h
  rfl

/-! ### New sessions -/

/-- A session with the given rules that has done nothing yet. -/
def build (config : Config) (selector : Selector) (limit : Nat) (rules : List Rule) : Session :=
  addRules { config, selector, limit } rules

/-- Every rule has an entry, and nothing has been counted. -/
structure IsNew (s : Session) : Prop where
  entries : ∀ rule ∈ s.rules, rule.name ∈ s.statistics.names
  counted : ∀ name, s.statistics.of name = 0

/-- A session is still new when a rule has been added. -/
theorem IsNew.addRule {s : Session} (h : s.IsNew) (rule : Rule) : (s.addRule rule).IsNew where
  entries := by
    intro other h_other
    rw [Session.addRule, Statistics.reset, Statistics.mem_names_update]
    rcases List.mem_append.1 h_other with h_old | h_new
    · exact .inr (h.entries other h_old)
    · rw [List.mem_singleton.1 h_new]
      exact .inl rfl
  counted := by
    intro name
    rw [Session.addRule, Statistics.reset, Statistics.of_update, h.counted]
    exact ite_self _

/-- A session that has just been built is new. -/
theorem build_isNew (config : Config) (selector : Selector) (limit : Nat) (rules : List Rule) :
    (build config selector limit rules).IsNew := by
  have h_empty : ({ config, selector, limit } : Session).IsNew := ⟨nofun, fun _ => rfl⟩
  -- the session is generalized, since each rule is added to what the ones before it have made
  have h_foldl (s : Session) (h : s.IsNew) : (s.addRules rules).IsNew := by
    unfold addRules
    induction rules generalizing s with
    | nil => exact h
    | cons rule rules ih => exact ih _ (h.addRule rule)
  exact h_foldl _ h_empty

/-! ### Many operations -/

section Operations

variable {s : Session} (operations : List Operation)

/-- Operations change nothing but statistics. -/
theorem performAll_setup : SameSetup s (s.performAll operations).2 := by
  induction operations generalizing s with
  | nil => exact ⟨s.statistics, rfl⟩
  | cons operation operations ih => exact (s.perform_setup operation).trans ih

/-- Every file is reported on as if it were the first. -/
theorem performAll_reports : (s.performAll operations).1 =
    (operations.filterMap Operation.job?).map fun job => (s.carryOut job).1 := by
  induction operations using List.reverseRecOn with
  | nil => rfl
  | append_singleton operations operation ih =>
    have h_setup : SameSetup s (s.performAll operations).2 := performAll_setup operations
    rw [performAll_append, List.filterMap_append, List.map_append, ih]
    cases operation with
    | transform job => exact congrArg (_ ++ [·]) (h_setup.carryOut_report job)
    | clear => rfl

/-- **Statistics are sums over the files since they have last been cleared.** -/
theorem performAll_statistics (h : s.IsNew) (name : String) :
    (s.performAll operations).2.statistics.of name =
      ((Operation.sinceClear operations).map fun job => s.growth job name).sum := by
  -- clearing makes what came before it irrelevant, so the last operation is taken off
  induction operations using List.reverseRecOn with
  | nil => exact h.counted name
  | append_singleton operations operation ih =>
    have h_setup : SameSetup s (s.performAll operations).2 := performAll_setup operations
    rw [performAll_append, Operation.sinceClear, List.foldl_append]
    cases operation with
    | transform job =>
      show ((s.performAll operations).2.carryOut job).2.statistics.of name =
        ((Operation.sinceClear operations ++ [job]).map fun job => s.growth job name).sum
      rw [carryOut_statistics, ih, h_setup.growth, List.map_append, List.sum_append,
        List.map_singleton, List.sum_singleton]
    | clear => exact Statistics.of_clear ..

/-- Operations leave the entries where they are. -/
theorem performAll_names (h : s.IsNew) :
    (s.performAll operations).2.statistics.names = s.statistics.names := by
  induction operations using List.reverseRecOn with
  | nil => rfl
  | append_singleton operations operation ih =>
    obtain ⟨statistics, h_after⟩ : SameSetup s (s.performAll operations).2 :=
      performAll_setup operations
    rw [performAll_append, ← ih]
    cases operation with
    | transform job =>
      refine carryOut_names ?_ job
      -- the rules are those of the new session, and by induction so are the entries
      rw [ih, h_after]
      exact h.entries
    | clear => exact Statistics.names_clear _

end Operations

/-- **A session leaks nothing from one file to the next.** Whatever is asked of it, every file is
reported on, result, diagnostics and log, as by a session that has just been built in the same way.
The rules with entries stay the same. The entry of each is the sum of what such sessions show after
one file each, for the files since statistics have last been cleared; so the order of these files
does not matter, nor what came before them. -/
theorem performAll_as_new (config : Config) (selector : Selector) (limit : Nat) (rules : List Rule)
    (operations : List Operation) :
    let new := build config selector limit rules
    let entry (operations : List Operation) (name : String) :=
      (new.performAll operations).2.statistics.of name
    (new.performAll operations).1 =
      (operations.filterMap Operation.job?).map (fun job => (new.carryOut job).1) ∧
    (new.performAll operations).2.statistics.names = new.statistics.names ∧
    (∀ name, entry operations name =
      ((Operation.sinceClear operations).map fun job =>
        (new.carryOut job).2.statistics.of name).sum) ∧
    (∀ operations', (Operation.sinceClear operations').Perm (Operation.sinceClear operations) →
      entry operations' = entry operations) := by
  intro new entry
  have h_new : new.IsNew := build_isNew config selector limit rules
  have h_entry (operations : List Operation) (name : String) : entry operations name =
      ((Operation.sinceClear operations).map fun job => new.growth job name).sum :=
    performAll_statistics operations h_new name
  -- a new session has counted nothing, so what it shows is what the file adds
  have h_growth (job : Job) (name : String) :
      (new.carryOut job).2.statistics.of name = new.growth job name := by
    rw [carryOut_statistics, h_new.counted, zero_add]
  refine ⟨performAll_reports operations, performAll_names operations h_new, ?_, ?_⟩
  · intro name
    simp only [h_growth]
    exact h_entry operations name
  · intro operations' h_perm
    funext name
    rw [h_entry, h_entry]
    exact (h_perm.map _).sum_eq

/-- Two files are transformed and refused in one order; then, in another session, the second one,
and after clearing both of them in the other order. -/
theorem performAll_as_new_swapped :
    let new := build {} .always 64 Rule.all
    let name (n : String) : Expression := .identifier .synthetic ⟨n, false⟩
    let call : Job :=
      ⟨.collected, ⟨[.expression {} (.call .synthetic (name "f") [name "_"])], .synthetic⟩, {}⟩
    let refused : Job :=
      ⟨.collected, ⟨[.expression {} (.construct .synthetic (name "C") [name "_"])], .synthetic⟩, {}⟩
    let after operations := new.performAll (operations.map fun job? =>
      match job? with
      | some job => .transform job
      | none => .clear)
    (after [some call, some refused]).1 = [(new.carryOut call).1, (new.carryOut refused).1] ∧
    ∀ rule, (after [some refused, none, some refused, some call]).2.statistics.of rule =
      (after [some call, some refused]).2.statistics.of rule := by
  intro new name call refused after
  obtain ⟨h_reports, -, -, h_order⟩ :=
    performAll_as_new {} .always 64 Rule.all [.transform call, .transform refused]
  refine ⟨h_reports, fun rule => congrFun (h_order _ ?_) rule⟩
  exact List.Perm.swap ..

end Session

end AsyncMarkers
