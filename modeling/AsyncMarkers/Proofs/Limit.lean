import Mathlib.Data.List.Basic
import AsyncMarkers.Proofs.Comparison
import AsyncMarkers.Proofs.Notes
import AsyncMarkers.Proofs.Verdict

/-!
# The replacement limit

How often a call may be replaced only matters to calls that are stopped by it
(`Session.transform_of_higher_limit`).

* **A higher limit** makes no difference to a run that was not stopped by the lower one, whether it
  came to its end or was refused for another reason: the whole report is the same. The two runs do
  not do the same, though. Where the lower limit ends the loop at a call with nothing left to do,
  the higher one lets the rules look at that call once more. They find it settled, so what is noted
  of this round is *silent*: it counts nothing and tells nothing (`Record.isSilent`).
* **A limit of zero** allows one replacement, like a limit of one. The number is only written into
  the diagnostic.

Both are comparisons of two walks over the same tree (`Proofs.Comparison`), the first one up to a
failure for the limit.
-/

namespace AsyncMarkers

/-! ### Silent records -/

/-- Whether a record leaves no trace in a report: a rule has looked at a node and left it as it
was. -/
def Record.isSilent : Record → Bool
  | .applied a =>
    match a.verdict with
    | .ok .unchanged => a.counts = {} && a.events.isEmpty && a.sightings.isEmpty
    | _ => false
  | .stopped _ => false

/-- The record, unless it is silent. -/
def Record.heard (r : Record) : List Record := if r.isSilent then [] else [r]

/-- Silent records are those of a rule that has left a node alone and has had nothing to tell. -/
theorem Record.isSilent_iff {r : Record} : r.isSilent = true ↔
    ∃ rule node, r = .applied { rule := rule, node := node, verdict := .ok .unchanged } := by
  constructor
  · intro h
    match r, h with
    | .applied ⟨rule, node, .ok .unchanged, counts, events, sightings⟩, h =>
      simp only [isSilent, Bool.and_eq_true, decide_eq_true_eq, List.isEmpty_iff] at h
      obtain ⟨⟨rfl, rfl⟩, rfl⟩ := h
      exact ⟨rule, node, rfl⟩
  · rintro ⟨rule, node, rfl⟩
    rfl

namespace History

/-- What is read off a history, and nothing off silent records, is read off what is heard of it. -/
theorem flatMap_heard {β : Type} {f : Record → List β} (hf : ∀ r, r.isSilent = true → f r = [])
    (h : History) : (h.flatMap Record.heard).flatMap f = h.flatMap f := by
  -- record by record, since both sides are read off one record after the other
  rw [List.flatMap_assoc]
  refine List.flatMap_congr fun r _ => ?_
  rw [Record.heard]
  split
  · rw [List.flatMap_nil, hf r ‹_›]
  · rw [List.flatMap_singleton]

/-- Silent records count for nothing. -/
theorem counts_heard (h : History) : counts (h.flatMap Record.heard) = counts h := by
  induction h with
  | nil => rfl
  | cons r h ih =>
    rw [List.flatMap_cons, counts_append, ih, counts_cons, Record.heard]
    split
    · obtain ⟨rule, node, rfl⟩ := Record.isSilent_iff.1 ‹_›
      rfl
    · rw [counts_cons, counts_nil, Counts.add_zero]

end History

/-- A report is made of what is heard of a run, of its failure, and of what it leaves if it does not
fail. -/
theorem Session.report_congr {run run' : Visit Record Diagnostic Program}
    (h_heard : run'.notes.flatMap Record.heard = run.notes.flatMap Record.heard)
    (h_failure : run'.failure = run.failure)
    (h_value : run.failure = none → run'.value = run.value) (sink : Sink) (file : FileDescriptor) :
    Session.report sink file run' = Session.report sink file run := by
  have h_counts : History.counts run'.notes = History.counts run.notes := by
    rw [← History.counts_heard, h_heard, History.counts_heard]
  -- everything else in a report is read off the records, and nothing is read off silent ones
  have h_views {β : Type} (f : Record → List β) (hf : ∀ r, r.isSilent = true → f r = []) :
      run'.notes.flatMap f = run.notes.flatMap f := by
    rw [← History.flatMap_heard hf, h_heard, History.flatMap_heard hf]
  have h_events : History.events sink run'.notes = History.events sink run.notes := by
    refine h_views _ fun r hr => ?_
    obtain ⟨rule, node, rfl⟩ := Record.isSilent_iff.1 hr
    rfl
  have h_sightings : History.sightings run'.notes = History.sightings run.notes := by
    refine h_views _ fun r hr => ?_
    obtain ⟨rule, node, rfl⟩ := Record.isSilent_iff.1 hr
    rfl
  -- diagnostics are at most one a record, which makes them lists as well
  have h_diagnostics : History.diagnostics sink run'.notes =
      History.diagnostics sink run.notes := by
    rw [History.diagnostics, History.diagnostics, List.filterMap_eq_flatMap_toList,
      List.filterMap_eq_flatMap_toList]
    congr 1
    refine h_views _ fun r hr => ?_
    obtain ⟨rule, node, rfl⟩ := Record.isSilent_iff.1 hr
    rfl
  -- the value is shown in a report only if there is no failure
  simp only [Session.report, h_counts, h_events, h_sightings, h_diagnostics, h_failure]
  cases h_case : run.failure with
  | none => rw [h_value h_case]
  | some d => rfl

/-! ### A higher limit -/

/-- Two walks over one tree of which the same is heard, up to a failure for the limit. -/
def heardAlike : Comparison Record Diagnostic Record where
  nodes := .id
  reads := Record.heard
  reads' := Record.heard
  failure d := d
  follows d := d.isLimit = false

/-- A walk agrees with itself. -/
theorem heardAlike_refl (w : Visit Record Diagnostic Subtree) : heardAlike.Agree w w :=
  Comparison.agree_refl rfl rfl Option.map_id'

/-- The call rule leaves a settled call as it is. -/
theorem Context.transformCall_of_settled {ctx : Context} {span : Span} {callee : Expression}
    {arguments : List Expression} (h : ctx.isSettled (.call span callee arguments) = true) :
    ctx.transformCall (.call span callee arguments) =
      .ok { node := .call span callee arguments } := by
  obtain ⟨h_plan, h_adapted⟩ := isSettled_call.1 h
  simp only [transformCall, substitution?_eq_ok_none_iff.2 h_plan, adaptation, h_adapted,
    adaptCallee_eq_self h_adapted]
  rfl

namespace Engine

/-- The engine with another limit. -/
def withLimit (g : Engine) (limit : Nat) : Engine := { g with limit }

@[simp] theorem withLimit_context (g : Engine) (limit : Nat) :
    (g.withLimit limit).context = g.context := rfl

variable {g : Engine} (h_rules : g.rules = Rule.all)

include h_rules

/-- A further round at a call that the rules have settled is silent. -/
theorem settle_changed_again {span : Span} {callee : Expression} {arguments : List Expression}
    {change : Change Expression}
    (h_change : g.context.transformCall (.call span callee arguments) = .ok change)
    (h_pending : g.context.isPending change.node = false) (left : Nat) :
    g.settle (left + 1) change.node =
      ⟨change.node, [record (.call 200) .call { node := change.node }], none⟩ := by
  -- the change has left nothing pending, so the call rule finds the call settled
  have h_settled := isSettled_of_not_pending h_change h_pending
  obtain ⟨callee', arguments', h_node, -⟩ := Context.node_eq_call h_change
  rw [h_node] at h_settled ⊢
  rw [settle_of_ok h_rules (Context.transformCall_of_settled h_settled)]
  rfl

/-- One round of the loop at a call that may be replaced `left + 1` times or more, from what the
later rounds do. -/
theorem settle_higher_call (limit more : Nat) {left : Nat}
    (h_later : left ≠ 0 → ∀ e, heardAlike.Follows (g.settle left e) →
      heardAlike.Agree ((g.settle left e).map .expression)
        (((g.withLimit limit).settle (left + more) e).map .expression))
    {span : Span} {callee : Expression} {arguments : List Expression}
    (h : heardAlike.Follows (g.settle (left + 1) (.call span callee arguments))) :
    heardAlike.Agree ((g.settle (left + 1) (.call span callee arguments)).map .expression)
      (((g.withLimit limit).settle (left + more + 1) (.call span callee arguments)).map
        .expression) := by
  -- the call rule does not know the limit, so it makes the same change or refuses for both
  cases h_change : g.context.transformCall (.call span callee arguments) with
  | error d =>
    rw [settle_of_error h_rules h_change, settle_of_error (g := g.withLimit limit) h_rules h_change]
    exact heardAlike_refl _
  | ok change =>
    rw [settle_of_ok h_rules h_change] at h ⊢
    rw [settle_of_ok (g := g.withLimit limit) h_rules h_change]
    by_cases h_replaced : change.outcome = .replaced
    · rw [if_neg (not_not_intro h_replaced)] at h ⊢
      rw [if_neg (not_not_intro h_replaced)]
      by_cases h_left : left = 0
      · -- the lower limit is reached, so nothing may be pending here
        subst h_left
        rw [if_pos rfl] at h ⊢
        have h_pending : g.context.isPending change.node = false := by
          refine Bool.eq_false_iff.2 fun h_pending => ?_
          rw [if_pos h_pending] at h
          cases h _ rfl
        rw [if_neg (Bool.eq_false_iff.1 h_pending)]
        cases more with
        | zero =>
          rw [if_pos rfl, withLimit_context, if_neg (Bool.eq_false_iff.1 h_pending)]
          exact heardAlike_refl _
        | succ more =>
          rw [if_neg (by omega), Nat.zero_add,
            settle_changed_again (g := g.withLimit limit) h_rules h_change h_pending]
          -- what the further round notes is not heard
          exact ⟨⟨rfl, rfl⟩, fun _ => rfl⟩
      · -- both loops go on, and the first record is the same in both
        rw [if_neg h_left] at h ⊢
        rw [if_neg (by omega)]
        have h_agree := h_later h_left change.node h
        refine ⟨⟨?_, h_agree.failure⟩, h_agree.value⟩
        exact congrArg (Record.heard _ ++ ·) h_agree.notes
    · -- the call has not been replaced, so both loops end here
      rw [if_pos h_replaced, if_pos h_replaced]
      exact heardAlike_refl _

/-- One round of the loop at any expression. -/
theorem settle_higher_step (limit more : Nat) {left : Nat}
    (h_later : left ≠ 0 → ∀ e, heardAlike.Follows (g.settle left e) →
      heardAlike.Agree ((g.settle left e).map .expression)
        (((g.withLimit limit).settle (left + more) e).map .expression))
    (e : Expression) (h : heardAlike.Follows (g.settle (left + 1) e)) :
    heardAlike.Agree ((g.settle (left + 1) e).map .expression)
      (((g.withLimit limit).settle (left + more + 1) e).map .expression) := by
  cases e with
  | call span callee arguments => exact settle_higher_call h_rules limit more h_later h
  | construct span callee arguments =>
    -- a construction is refused or left alone, whatever the limit is
    rw [settle_construct h_rules, settle_construct (g := g.withLimit limit) h_rules]
    exact heardAlike_refl _
  | _ =>
    -- other expressions are not offered to rules at all
    rw [settle_of_not_offered rfl, settle_of_not_offered rfl]
    exact heardAlike_refl _

/-- The loop with a higher limit. The induction is on how often an expression may be replaced at
least. -/
theorem settle_higher (limit more left : Nat) (e : Expression)
    (h : heardAlike.Follows (g.settle (left + 1) e)) :
    heardAlike.Agree ((g.settle (left + 1) e).map .expression)
      (((g.withLimit limit).settle (left + 1 + more) e).map .expression) := by
  rw [Nat.add_right_comm]
  induction left generalizing e with
  | zero => exact settle_higher_step h_rules limit more (fun h_left => absurd rfl h_left) e h
  | succ left ih =>
    refine settle_higher_step h_rules limit more (fun _ e h_later => ?_) e h
    rw [Nat.add_right_comm]
    exact ih e h_later

/-- The hooks do the same with a higher limit, but for silent records. -/
theorem hook_higher {limit : Nat} (h_limit : g.limit ≤ limit) (t : Subtree)
    (h : heardAlike.Follows (g.visitor.hook t)) :
    heardAlike.Agree (g.visitor.hook t) ((g.withLimit limit).visitor.hook t) := by
  cases t with
  | statement s => exact heardAlike_refl _
  | function f => exact heardAlike_refl _
  | expression e =>
    -- both allowances are at least one, so the higher is the lower one and something more
    obtain ⟨left, h_left⟩ := exists_allowance g
    obtain ⟨more, h_more⟩ : ∃ more, max 1 limit = left + 1 + more :=
      Nat.exists_eq_add_of_le (by omega)
    rw [hook_expression, h_left] at h ⊢
    rw [hook_expression]
    show heardAlike.Agree _ (((g.withLimit limit).settle (max 1 limit) e).map .expression)
    rw [h_more]
    exact settle_higher h_rules limit more left e h

end Engine

/-! ### Another limit in the diagnostics -/

/-- The same diagnostic, for a limit of `n` if it is for one. -/
def Diagnostic.withLimit (n : Nat) : Diagnostic → Diagnostic
  | .replacementLimit marker _ location => .replacementLimit marker n location
  | d => d

/-- The same event, for a limit of `n` if it reports that one has been reached. -/
def Event.withLimit (n : Nat) : Event → Event
  | .reported d => .reported (d.withLimit n)
  | e => e

/-- The same record, for a limit of `n`. -/
def Record.withLimit (n : Nat) : Record → Record
  | .applied a =>
    .applied { a with verdict := a.verdict.mapError (·.withLimit n),
                      events := a.events.map (·.withLimit n) }
  | .stopped d => .stopped (d.withLimit n)

/-- The same report, for a limit of `n`. -/
def Report.withLimit (n : Nat) (r : Report) : Report :=
  { r with
    result := r.result.mapError (·.withLimit n)
    diagnostics := r.diagnostics.map (·.withLimit n)
    events := r.events.map (·.withLimit n) }

/-- Only the diagnostic for the limit mentions a limit. -/
theorem Diagnostic.withLimit_of_not_isLimit {d : Diagnostic} (h : d.isLimit = false) (n : Nat) :
    d.withLimit n = d := by
  cases d with
  | replacementLimit marker limit location => cases h
  | _ => rfl

/-- What a run notes tells of no other limit than its own. -/
theorem Context.Noted.withLimit_eq {ctx : Context} {limit : Nat} {r : Record}
    (h : ctx.Noted limit r) : r.withLimit limit = r := by
  cases h with
  -- a refusal is not for the limit; the limit itself is noted with its own number
  | refused h_limit =>
    simp only [Record.withLimit, Except.mapError, Diagnostic.withLimit_of_not_isLimit h_limit,
      List.map_nil]
  | _ => rfl

/-- Two walks over one tree that note the same and fail for the same reason, but for the limit,
which is `n` in the second. -/
def relimited (n : Nat) : Comparison Record Diagnostic Record where
  nodes := .id
  reads r := [r.withLimit n]
  reads' r := [r.withLimit n]
  failure := Diagnostic.withLimit n
  follows _ := True

/-- A walk that does not fail for the limit agrees with itself. -/
theorem relimited_refl {n : Nat} {w : Visit Record Diagnostic Subtree}
    (h : ∀ d, w.failure = some d → d.isLimit = false) : (relimited n).Agree w w := by
  refine Comparison.agree_refl rfl rfl ?_
  cases h_failure : w.failure with
  | none => rfl
  | some d => exact congrArg some (Diagnostic.withLimit_of_not_isLimit (h d h_failure) n)

namespace Engine

variable {g : Engine} (h_rules : g.rules = Rule.all)

include h_rules

/-- The loop notes another limit, and does the same otherwise. -/
theorem settle_relimited (n left : Nat) (e : Expression) :
    (relimited n).Agree ((g.settle left e).map .expression)
      (((g.withLimit n).settle left e).map .expression) := by
  -- the rounds are the same in number, so the induction goes through both loops in step
  induction left generalizing e with
  | zero => exact relimited_refl nofun
  | succ left ih =>
    cases e with
    | call span callee arguments =>
      cases h_change : g.context.transformCall (.call span callee arguments) with
      | error d =>
        rw [settle_of_error h_rules h_change, settle_of_error (g := g.withLimit n) h_rules h_change]
        refine relimited_refl ?_
        rintro _ ⟨⟩
        exact Context.isLimit_of_refused h_change
      | ok change =>
        rw [settle_of_ok h_rules h_change, settle_of_ok (g := g.withLimit n) h_rules h_change,
          withLimit_context]
        -- the loop ends at a call that stays, at the limit, or goes on
        split
        · exact relimited_refl nofun
        · split
          · split
            · -- the one place where the limit is written down
              exact ⟨⟨rfl, rfl⟩, nofun⟩
            · exact relimited_refl nofun
          · have h_later := ih change.node
            exact ⟨⟨congrArg (_ :: ·) h_later.notes, h_later.failure⟩, h_later.value⟩
    -- a construction is refused for its markers
    | construct span callee arguments =>
      rw [settle_construct h_rules, settle_construct (g := g.withLimit n) h_rules,
        withLimit_context]
      refine relimited_refl ?_
      split
      · rintro _ ⟨⟩
        rfl
      · nofun
    | _ =>
      rw [settle_of_not_offered rfl, settle_of_not_offered rfl]
      exact relimited_refl nofun

/-- The hooks do the same with a limit that allows as many rounds, but for the limit that they
note. -/
theorem hook_relimited {n : Nat} (h_limit : max 1 n = max 1 g.limit) (t : Subtree) :
    (relimited n).Agree (g.visitor.hook t) ((g.withLimit n).visitor.hook t) := by
  cases t with
  | statement s => exact relimited_refl nofun
  -- functions are never refused
  | function f =>
    refine relimited_refl fun d hd => ?_
    rw [hook_function_failure h_rules] at hd
    cases hd
  | expression e =>
    rw [hook_expression, ← h_limit]
    exact settle_relimited h_rules n (max 1 n) e

/-! ### Runs with two limits -/

/-- **A run with a higher limit**, unless the lower one has stopped it: the same is heard of it, and
it leaves the same. -/
theorem run_higher {limit : Nat} (h_limit : g.limit ≤ limit) {p : Program}
    (h : heardAlike.Follows (g.run p)) :
    heardAlike.EndsAlike (g.run p) ((g.withLimit limit).run p) ∧
      ((g.run p).failure = none → ((g.withLimit limit).run p).value = (g.run p).value) :=
  Comparison.visitProgram_sameTree rfl (hook_higher h_rules h_limit) ⟨rfl, Option.map_id'.symm⟩
    rfl h

/-- **A run with a limit that allows as much**: what it notes tells of that limit, and it leaves the
same. -/
theorem run_relimited {n : Nat} (h_limit : max 1 n = max 1 g.limit) (p : Program) :
    ((g.withLimit n).run p).notes = (g.run p).notes.map (·.withLimit n) ∧
      ((g.withLimit n).run p).failure = (g.run p).failure.map (·.withLimit n) ∧
      ((g.run p).failure = none → ((g.withLimit n).run p).value = (g.run p).value) := by
  -- declaring the binding cannot fail, for whatever limit
  have h_program :
      (relimited n).EndsAlike (g.visitor.program p) ((g.withLimit n).visitor.program p) := by
    obtain ⟨-, -, h_none⟩ := hook_program h_rules p
    refine ⟨rfl, ?_⟩
    rw [h_none]
    exact h_none
  obtain ⟨h_ends, h_value⟩ := Comparison.visitProgram_sameTree (c := relimited n) rfl
    (fun t _ => hook_relimited h_rules h_limit t) h_program rfl (fun _ _ => trivial)
  refine ⟨?_, h_ends.failure, h_value⟩
  -- a run tells of its own limit only, so giving its records that limit changes nothing
  have h_own : ∀ r ∈ ((g.withLimit n).run p).notes, r.withLimit n = r := fun r hr =>
    (run_noted (g := g.withLimit n) h_rules p r hr).withLimit_eq
  calc ((g.withLimit n).run p).notes
      = ((g.withLimit n).run p).notes.map (·.withLimit n) := by
        rw [List.map_congr_left h_own, List.map_id']
    _ = (g.run p).notes.map (·.withLimit n) := by
        rw [List.map_eq_flatMap, List.map_eq_flatMap]
        exact h_ends.notes

end Engine

/-! ### Reports -/

namespace Record

/-- What is told for a record, with another limit. -/
theorem events_withLimit (sink : Sink) (n : Nat) (r : Record) :
    (r.withLimit n).events sink = (r.events sink).map (·.withLimit n) := by
  -- a diagnostic is told as it is or not at all
  have h_sink (d : Diagnostic) :
      sink.events (d.withLimit n) = (sink.events d).map (·.withLimit n) := by
    cases sink <;> rfl
  cases r with
  | stopped d => exact h_sink d
  | applied a =>
    obtain ⟨rule, node, verdict, counts, told, sightings⟩ := a
    -- what is told goes by the verdict: nothing, the events of the change, or the diagnostic
    match verdict with
    | .ok .unchanged => rfl
    | .ok .mutated | .ok .replaced =>
      simp [withLimit, events, Except.mapError, Event.withLimit]
    | .error d => simp [withLimit, events, Except.mapError, h_sink]

/-- The diagnostic of a record, with another limit. -/
theorem diagnostic?_withLimit (n : Nat) (r : Record) :
    (r.withLimit n).diagnostic? = r.diagnostic?.map (·.withLimit n) := by
  match r with
  | .stopped d => rfl
  | .applied ⟨_, _, .ok _, _, _, _⟩ => rfl
  | .applied ⟨_, _, .error d, _, _, _⟩ => rfl

end Record

namespace History

variable (n : Nat) (h : History)

/-- The limit plays no part in the counts. -/
theorem counts_withLimit : counts (h.map (·.withLimit n)) = counts h := by
  induction h with
  | nil => rfl
  | cons r h ih =>
    rw [List.map_cons, counts_cons, ih, counts_cons]
    cases r <;> rfl

/-- The limit plays no part in what has been sighted. -/
theorem sightings_withLimit : sightings (h.map (·.withLimit n)) = sightings h := by
  rw [sightings, sightings, List.flatMap_map]
  refine List.flatMap_congr fun r _ => ?_
  cases r <;> rfl

/-- The events of a history tell of the other limit. -/
theorem events_withLimit (sink : Sink) :
    events sink (h.map (·.withLimit n)) = (events sink h).map (·.withLimit n) := by
  rw [events, events, List.flatMap_map, List.map_flatMap]
  exact List.flatMap_congr fun r _ => r.events_withLimit sink n

/-- The diagnostics of a history tell of the other limit. -/
theorem diagnostics_withLimit (sink : Sink) :
    diagnostics sink (h.map (·.withLimit n)) = (diagnostics sink h).map (·.withLimit n) := by
  have h_told : (h.map (·.withLimit n)).filterMap Record.diagnostic? =
      (h.filterMap Record.diagnostic?).map (·.withLimit n) := by
    rw [List.filterMap_map, List.map_filterMap]
    exact List.filterMap_congr fun r _ => r.diagnostic?_withLimit n
  rw [diagnostics, diagnostics, h_told, List.flatMap_map, List.map_flatMap]
  refine List.flatMap_congr fun d _ => ?_
  cases sink <;> rfl

end History

/-- The limit plays no part in statistics. -/
theorem Statistics.countAll_withLimit (n : Nat) (s : Statistics) (h : History) :
    s.countAll (h.map (·.withLimit n)) = s.countAll h := by
  rw [countAll, countAll, List.foldl_map]
  -- statistics are a fold over the records, and each step ignores the limit
  congr 1
  funext s r
  match r with
  | .stopped d => rfl
  | .applied ⟨_, _, .ok _, _, _, _⟩ => rfl
  | .applied ⟨_, _, .error d, _, _, _⟩ => rfl

namespace Session

/-- The report of a run that differs in the limit only tells of the other limit. -/
theorem report_withLimit {run run' : Visit Record Diagnostic Program} {n : Nat}
    (h_notes : run'.notes = run.notes.map (·.withLimit n))
    (h_failure : run'.failure = run.failure.map (·.withLimit n))
    (h_value : run.failure = none → run'.value = run.value) (sink : Sink) (file : FileDescriptor) :
    report sink file run' = (report sink file run).withLimit n := by
  simp only [report, Report.withLimit, h_notes, History.counts_withLimit, History.events_withLimit,
    History.sightings_withLimit, History.diagnostics_withLimit, h_failure]
  cases h_case : run.failure with
  -- the last event of a run that succeeds mentions no limit
  | none =>
    rw [h_value h_case]
    simp [Except.mapError, fileTransformed, Event.withLimit]
  | some d => rfl

variable {s : Session}

/-- A report that does not tell of the limit is the same with a higher one. -/
theorem transform_higher (h_rules : s.rules = Rule.all) {sink : Sink} {p : Program}
    {file : FileDescriptor} {limit limit' : Nat} (h_le : limit ≤ limit')
    (h : ∀ d, ({ s with limit }.transform sink p file).1.result = .error d → d.isLimit = false) :
    ({ s with limit := limit' }.transform sink p file).1 =
      ({ s with limit }.transform sink p file).1 := by
  -- a file that is not selected is reported as it is, before the limit matters
  by_cases h_selected : s.selects file = true
  · rw [transform_of_selected (s := { s with limit }) h_selected] at h ⊢
    rw [transform_of_selected (s := { s with limit := limit' }) h_selected]
    -- a run that fails for the limit is reported with that failure, which is excluded here
    have h_follows : heardAlike.Follows (({ s with limit }.engine file).run p) :=
      fun d hd => h d (report_result_eq_error.2 hd)
    obtain ⟨h_ends, h_value⟩ :=
      Engine.run_higher (g := { s with limit }.engine file) h_rules h_le h_follows
    exact report_congr h_ends.notes (h_ends.failure.trans Option.map_id') h_value sink file
  · rw [transform_of_not_selected (s := { s with limit }) h_selected,
      transform_of_not_selected (s := { s with limit := limit' }) h_selected]

/-- **Raising the limit is harmless.** If a file is transformed, or refused for any other reason
than the limit, then a higher limit makes no difference to the report: the program and the summary,
or the error, are the same, and so is what is told on the way. A limit of zero is one of one, but
for the number in the diagnostic; statistics do not show the difference at all. -/
theorem transform_of_higher_limit (h_rules : s.rules = Rule.all) (sink : Sink) (p : Program)
    (file : FileDescriptor) :
    let transform limit := { s with limit }.transform sink p file
    (∀ limit limit', limit ≤ limit' →
      (∀ output, (transform limit).1.result = .ok output →
        (transform limit').1 = (transform limit).1) ∧
      (∀ d, (transform limit).1.result = .error d → d.isLimit = false →
        (transform limit').1 = (transform limit).1)) ∧
    (transform 0).1 = (transform 1).1.withLimit 0 ∧
    (transform 0).2.statistics = (transform 1).2.statistics := by
  dsimp only
  -- for a higher limit, the report is the same unless it is for the limit; the rest is about zero
  refine ⟨fun limit limit' h_le => ⟨fun output h_ok => ?_, fun d h_error h_limit => ?_⟩, ?_⟩
  · refine transform_higher h_rules h_le fun d h_error => ?_
    cases h_ok.symm.trans h_error
  · refine transform_higher h_rules h_le fun d' h_error' => ?_
    cases h_error.symm.trans h_error'
    exact h_limit
  · by_cases h_selected : s.selects file = true
    · -- both limits allow one replacement
      obtain ⟨h_notes, h_failure, h_value⟩ := Engine.run_relimited
        (g := { s with limit := 1 }.engine file) h_rules (n := 0) rfl p
      rw [transform_of_selected (s := { s with limit := 0 }) h_selected,
        transform_of_selected (s := { s with limit := 1 }) h_selected]
      refine ⟨report_withLimit h_notes h_failure h_value sink file, ?_⟩
      have h_statistics := Statistics.countAll_withLimit 0 s.statistics
        (({ s with limit := 1 }.engine file).run p).notes
      rw [← h_notes] at h_statistics
      exact h_statistics
    · rw [transform_of_not_selected (s := { s with limit := 0 }) h_selected,
        transform_of_not_selected (s := { s with limit := 1 }) h_selected]
      exact ⟨rfl, rfl⟩

/-- The call `f(!_, !_)` is replaced twice. A limit of two is as good as the usual one; one of one
stops the run, and so does one of zero. A limit plays no part for `f(void _)`, which is refused. -/
theorem transform_of_higher_limit_two_futures :
    let s : Session := addMarkerRules { config := {}, selector := .always }
    let name (n : String) : Expression := .identifier (.at 1 0 1) ⟨n, false⟩
    let call (arguments : List Expression) : Program :=
      ⟨[.expression {} (.call (.at 1 0 9) (name "f") arguments)], .synthetic⟩
    let waiting : Expression := .unary (.at 1 2 4) .not (name "_")
    let promise : Expression := .unary (.at 1 2 8) .void (name "_")
    let result p limit := ({ s with limit }.transform .collected p {}).1.result
    (∃ output, result (call [waiting, waiting]) 2 = .ok output ∧
      result (call [waiting, waiting]) 64 = .ok output) ∧
    result (call [waiting, waiting]) 1 = .error (.replacementLimit "_" 1 ⟨"unknown", 1, 0⟩) ∧
    result (call [waiting, waiting]) 0 = .error (.replacementLimit "_" 0 ⟨"unknown", 1, 0⟩) ∧
    result (call [promise]) 1 = .error (.unsupported .promiseMarker ⟨"unknown", 1, 0⟩) ∧
    result (call [promise]) 64 = .error (.unsupported .promiseMarker ⟨"unknown", 1, 0⟩) := by
  intro s name call waiting promise result
  have h_rules : s.rules = Rule.all := Session.addMarkerRules_rules rfl
  have h_selected : s.selects {} = true := rfl
  obtain ⟨h_waiting, h_zero, -⟩ :=
    transform_of_higher_limit h_rules .collected (call [waiting, waiting]) {}
  obtain ⟨h_promise, -⟩ := transform_of_higher_limit h_rules .collected (call [promise]) {}
  obtain ⟨output, h_two⟩ := transform_ok_of_no_offence (s := { s with limit := 2 }) h_rules
    h_selected (p := call [waiting, waiting]) (by decide) .collected
  have h_one := transform_error_of_offence (s := { s with limit := 1 }) h_rules h_selected
    (p := call [waiting, waiting]) (d := .replacementLimit "_" 1 ⟨"unknown", 1, 0⟩) (by decide)
    .collected
  have h_refused := transform_error_of_offence (s := { s with limit := 1 }) h_rules h_selected
    (p := call [promise]) (d := .unsupported .promiseMarker ⟨"unknown", 1, 0⟩) (by decide)
    .collected
  refine ⟨⟨output, h_two, ?_⟩, h_one, ?_, h_refused, ?_⟩
  · exact (congrArg Report.result ((h_waiting 2 64 (by decide)).1 output h_two)).trans h_two
  · -- zero and one allow the same, so only the number in the diagnostic differs
    refine (congrArg Report.result h_zero).trans ?_
    rw [Report.withLimit, h_one]
    rfl
  · exact (congrArg Report.result ((h_promise 1 64 (by decide)).2 _ h_refused rfl)).trans h_refused

end Session

end AsyncMarkers
