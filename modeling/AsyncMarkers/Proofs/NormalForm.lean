import AsyncMarkers.Proofs.Pass

/-!
# Trees that a run leaves as they are

A node is *normal* if no rule has anything to do with it or against it (`Context.isNormal`): a
function has no marker among its parameters, a call has no marker among its arguments and no
receiver to be adapted, and a construction has no plain marker. A program is in normal form if it
starts with the declaration and all its nodes are normal.

* A run leaves a program in normal form exactly as it is, and counts nothing
  (`Engine.run_of_normal`).
* A run that succeeds and counts nothing was of a program in normal form
  (`Engine.normal_of_run_counts`).

Both are proved for visits of subtrees first. In the second one, that nothing is counted at a node
says that the hook has left the node as it was, so that the parts that are visited then are the
node's own.
-/

namespace AsyncMarkers

/-- Whether no rule has anything to do with a node or against it. -/
def Context.isNormal (ctx : Context) : Subtree → Bool
  | .statement _ => true
  | .function f => (markerParam? ctx.marker f.head.params).isNone
  | .expression e => ctx.isSettled e

/-- What is not offered to rules is settled. -/
theorem Context.isSettled_of_not_offered {ctx : Context} {e : Expression}
    (h : e.offeredAs = none) : ctx.isSettled e = true := by
  cases e with
  | call _ _ _ | construct _ _ _ => cases h
  | _ => rfl

/-- No rule has anything to do with a plain node. -/
theorem Context.isNormal_of_plain {ctx : Context} (n : Subtree) (h : ctx.Plain n) :
    ctx.isNormal n = true := by
  cases h with
  | statement s => rfl
  | function h_params => simp [Context.isNormal, markerParam?, h_params]
  | expression h_shape => exact isSettled_of_not_offered h_shape
  | call span h_callee h_plan =>
    simp [Context.isNormal, isSettled, h_plan, needsAdapter_of_arrayReceiver?_eq_none h_callee]

/-! ### Nothing counted -/

/-- Two counts add up to nothing only if both are nothing. -/
theorem Counts.add_eq_zero {a b : Counts} : a + b = {} ↔ a = {} ∧ b = {} := by
  obtain ⟨a₁, a₂, a₃, a₄⟩ := a
  obtain ⟨b₁, b₂, b₃, b₄⟩ := b
  simp only [add_def, Counts.mk.injEq, Nat.add_eq_zero_iff]
  constructor
  · -- the entries of the one and of the other come in turns
    rintro ⟨⟨h₁, h₁'⟩, ⟨h₂, h₂'⟩, ⟨h₃, h₃'⟩, h₄, h₄'⟩
    exact ⟨⟨h₁, h₂, h₃, h₄⟩, h₁', h₂', h₃', h₄'⟩
  · rintro ⟨⟨h₁, h₂, h₃, h₄⟩, h₁', h₂', h₃', h₄'⟩
    exact ⟨⟨h₁, h₁'⟩, ⟨h₂, h₂'⟩, ⟨h₃, h₃'⟩, h₄, h₄'⟩

/-- Nothing is counted over some histories exactly if nothing is in any of them. -/
theorem History.counts_flatMap_eq_zero {α : Type} {f : α → History} {as : List α} :
    counts (as.flatMap f) = {} ↔ ∀ a ∈ as, counts (f a) = {} := by
  induction as with
  | nil => simp
  | cons a as ih =>
    rw [List.flatMap_cons, counts_append, Counts.add_eq_zero, ih, List.forall_mem_cons]

namespace Engine

variable {g : Engine} (h_rules : g.rules = Rule.all)

include h_rules

/-! ### One node -/

/-- The replacement loop has nothing to do with a settled expression. -/
theorem settle_of_settled {e : Expression} (h : g.context.isSettled e = true) (left : Nat) :
    ∃ notes, History.counts notes = {} ∧ g.settle (left + 1) e = ⟨e, notes, none⟩ := by
  cases e with
  | call span callee arguments =>
    -- a settled call has no markers, so only an adapter could be counted, and none is needed
    obtain ⟨h_plan, h_adapted⟩ := Context.isSettled_call.1 h
    obtain ⟨notes, h_counts, h_settle⟩ := settle_unmarked h_rules h_plan span callee left
    rw [Context.adaptCallee_eq_self h_adapted] at h_settle
    refine ⟨notes, ?_, h_settle⟩
    rw [h_counts, Context.adaptation, h_adapted]
    rfl
  | construct span callee arguments =>
    simp only [Context.isSettled, Bool.not_eq_true'] at h
    exact ⟨[], rfl, by rw [settle_construct h_rules, h]; rfl⟩
  | _ => exact ⟨[], rfl, settle_of_not_offered rfl _⟩

/-- A hook leaves a normal node as it is. -/
theorem hook_of_normal {t : Subtree} (h : g.context.isNormal t = true) :
    (g.visitor.hook t).failure = none ∧ (g.visitor.hook t).value = t ∧
      History.counts (g.visitor.hook t).notes = {} := by
  cases t with
  | statement s => exact ⟨rfl, rfl, rfl⟩
  -- a function without a marker parameter is completed by leaving it
  | function f =>
    have h_complete : g.context.complete f = { node := f } := by
      rw [Context.isNormal, Option.isNone_iff_eq_none] at h
      rw [Context.complete, h]
    rw [hook_function_failure h_rules, hook_function_value h_rules, hook_function_counts h_rules,
      h_complete]
    exact ⟨rfl, rfl, rfl⟩
  | expression e =>
    obtain ⟨left, h_left⟩ := g.exists_allowance
    obtain ⟨notes, h_counts, h_settle⟩ := settle_of_settled h_rules h left
    rw [hook_expression, h_left, h_settle]
    exact ⟨rfl, rfl, h_counts⟩

/-- A call for which the loop counts nothing is settled. -/
theorem isSettled_of_counts {left : Nat} {e : Expression}
    (h : (g.settle (left + 1) e).failure = none)
    (h_counts : History.counts (g.settle (left + 1) e).notes = {}) :
    g.context.isSettled e = true := by
  cases e with
  | call span callee arguments =>
    -- the first change has counted nothing, whether or not there are others behind it
    obtain ⟨change, h_change, h_first⟩ : ∃ change,
        g.context.transformCall (.call span callee arguments) = .ok change ∧
          change.counts = {} := by
      obtain ⟨change, h_change, ⟨-, h_eq⟩ | ⟨-, -, h_eq⟩⟩ := settle_call_cases h_rules h <;>
      · rw [h_eq, History.counts_cons, Counts.add_eq_zero] at h_counts
        exact ⟨change, h_change, h_counts.1⟩
    -- either there is no substitution, and an adapter would have been counted, or the call would
    -- have
    rcases Context.transformCall_cases h_change with ⟨h_sub, -, -, h_adapted⟩ | ⟨s, -, -, -, h_call⟩
    · have h_plan := Context.substitution?_eq_ok_none_iff.1 h_sub
      rw [h_first, Context.adaptation] at h_adapted
      cases h_needs : g.context.needsAdapter callee with
      | true => simp [h_needs] at h_adapted
      | false => simp [Context.isSettled, h_plan, h_needs]
    · rw [h_first, eq_comm, Counts.add_eq_zero] at h_call
      cases h_call.2
  -- a construction with a plain marker would have been refused
  | construct span callee arguments =>
    rw [settle_construct h_rules] at h
    cases h_marked : hasPlainMarker g.context.marker arguments with
    | true => simp [h_marked] at h
    | false => simp [Context.isSettled, h_marked]
  | _ => rfl

/-- A node for which the hook counts nothing is normal. -/
theorem isNormal_of_counts {t : Subtree} (h : (g.visitor.hook t).failure = none)
    (h_counts : History.counts (g.visitor.hook t).notes = {}) : g.context.isNormal t = true := by
  cases t with
  | statement s => rfl
  | function f =>
    rw [hook_function_counts h_rules] at h_counts
    -- a completed function counts one
    rcases g.context.complete_cases f with ⟨h_none, -⟩ | ⟨index, param, -, -, -, h_one⟩
    · rw [List.countP_eq_zero] at h_none
      rw [Context.isNormal, Option.isNone_iff_eq_none, markerParam?, List.findIdx?_eq_none_iff]
      exact fun param h_param => Bool.eq_false_iff.2 (h_none param h_param)
    · rw [h_counts] at h_one
      cases h_one
  | expression e =>
    obtain ⟨left, h_left⟩ := g.exists_allowance
    rw [hook_expression, h_left] at h h_counts
    exact isSettled_of_counts h_rules h h_counts

/-! ### Subtrees -/

/-- A tree of normal nodes is left as it is. -/
theorem visit_of_normal {t : Subtree} (h : t.Everywhere (g.context.isNormal · = true)) :
    (g.visitor.visit t).failure = none ∧ (g.visitor.visit t).value = t ∧
      History.counts (g.visitor.visit t).notes = {} := by
  -- the hook leaves a normal node, so the parts that are visited are those of the node itself
  induction t using g.visitor.visit_induction with
  | step t ih =>
    obtain ⟨h_top, h_below⟩ := Subtree.everywhere_iff.1 h
    obtain ⟨h_hook, h_value, h_counts⟩ := hook_of_normal h_rules h_top
    rw [h_value] at ih
    have h_failure : (g.visitor.visit t).failure = none := by
      rw [Visitor.visit_failure_eq_none, h_value]
      exact ⟨h_hook, fun part h_part => (ih part h_part (h_below part h_part)).1⟩
    refine ⟨h_failure, ?_, ?_⟩
    · rw [g.visitor.visit_value h_failure, h_value]
      refine Subtree.mapParts_eq_self fun part h_part => ?_
      rw [Visitor.results_apply]
      exact (ih part h_part (h_below part h_part)).2.1
    · rw [g.visitor.visit_notes h_failure, h_value, History.counts_append, h_counts,
        Counts.zero_add, History.counts_flatMap_eq_zero]
      exact fun part h_part => (ih part h_part (h_below part h_part)).2.2

/-- A visit that counts nothing was of a tree of normal nodes. -/
theorem normal_of_visit_counts {t : Subtree} (h : (g.visitor.visit t).failure = none)
    (h_counts : History.counts (g.visitor.visit t).notes = {}) :
    t.Everywhere (g.context.isNormal · = true) := by
  -- the induction follows the walk, which goes on with what the hook has left
  induction t using g.visitor.visit_induction with
  | step t ih =>
    obtain ⟨h_hook, h_parts⟩ := g.visitor.visit_failure_eq_none.1 h
    rw [g.visitor.visit_notes h, History.counts_append, Counts.add_eq_zero,
      History.counts_flatMap_eq_zero] at h_counts
    -- a normal node is left alone, so the parts that are visited are its own
    have h_top := isNormal_of_counts h_rules h_hook h_counts.1
    rw [(hook_of_normal h_rules h_top).2.1] at ih h_parts h_counts
    rw [Subtree.everywhere_iff]
    exact ⟨h_top, fun part h_part => ih part h_part (h_parts part h_part) (h_counts.2 part h_part)⟩

/-! ### Programs -/

/-- A statement of normal nodes is its own result. -/
theorem results_statement_of_normal {s : Statement}
    (h : (Subtree.statement s).Everywhere (g.context.isNormal · = true)) :
    g.visitor.results.statement s = s := by
  obtain ⟨-, h_value, -⟩ := visit_of_normal h_rules h
  rw [← Visitor.results_apply] at h_value
  exact Subtree.statement.inj h_value

/-- A run leaves the declaration where it is. -/
theorem results_declaration {s : Statement}
    (h : g.context.binding.isDeclaredBy g.context.config.moduleName g.context.config.exportName s
      = true) : g.visitor.results.statement s = s := by
  obtain ⟨info, rfl⟩ := Binding.isDeclaredBy_iff.1 h
  exact results_statement_of_normal h_rules
    (Context.everywhere_declaration Context.isNormal_of_plain info)

/-- What a run that succeeds leaves starts with the declaration. -/
theorem run_isDeclared {p : Program} (h : (g.run p).failure = none) :
    g.context.isDeclared (g.run p).value = true := by
  obtain ⟨first, rest, h_body, h_first⟩ := g.context.exists_declaredBody p
  rw [run_value h_rules h, h_body, Context.isDeclared, List.map_cons, List.head?_cons,
    results_declaration h_rules h_first, Option.any_some, h_first]

/-- A run leaves a program in normal form as it is. -/
theorem run_of_normal {p : Program} (h_declared : g.context.isDeclared p = true)
    (h : ∀ n ∈ p.listing, g.context.isNormal n = true) :
    (g.run p).failure = none ∧ (g.run p).value = p ∧ History.counts (g.run p).notes = {} := by
  have h_body : g.context.declaredBody p = p.body := if_pos h_declared
  have h_none : g.context.declarationCount p = {} := if_pos h_declared
  -- the program has its declaration already, so it is the statements that matter
  have h_normal := Program.forall_listing_iff.1 h
  have h_visit (s : Statement) (hs : s ∈ p.body) := visit_of_normal h_rules (h_normal s hs)
  have h_failure : (g.run p).failure = none := by
    rw [run_failure_eq_none h_rules, h_body]
    exact fun s hs => (h_visit s hs).1
  refine ⟨h_failure, ?_, ?_⟩
  · have h_results : ∀ s ∈ p.body, g.visitor.results.statement s = s :=
      fun s hs => results_statement_of_normal h_rules (h_normal s hs)
    rw [run_value h_rules h_failure, h_body, List.map_congr_left h_results, List.map_id']
  · rw [run_counts h_rules h_failure, h_none, h_body, Counts.zero_add,
      History.counts_flatMap_eq_zero, List.forall_mem_map]
    exact fun s hs => (h_visit s hs).2.2

/-- A run that counts nothing was of a program in normal form. -/
theorem normal_of_run_counts {p : Program} (h : (g.run p).failure = none)
    (h_counts : History.counts (g.run p).notes = {}) :
    g.context.isDeclared p = true ∧ ∀ n ∈ p.listing, g.context.isNormal n = true := by
  rw [run_counts h_rules h, Counts.add_eq_zero, History.counts_flatMap_eq_zero] at h_counts
  -- a declaration that had been missing would have been counted
  have h_declared : g.context.isDeclared p = true := by
    cases h_case : g.context.isDeclared p with
    | true => rfl
    | false => simp [Context.declarationCount, h_case] at h_counts
  have h_body : g.context.declaredBody p = p.body := if_pos h_declared
  have h_visits := (run_failure_eq_none h_rules).1 h
  rw [h_body] at h_visits h_counts
  refine ⟨h_declared, Program.forall_listing_iff.2 fun s hs => ?_⟩
  exact normal_of_visit_counts h_rules (h_visits s hs) (h_counts.2 _ (List.mem_map_of_mem hs))

end Engine

end AsyncMarkers
