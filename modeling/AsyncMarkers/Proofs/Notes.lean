import AsyncMarkers.Proofs.Settle

/-!
# What a run notes

Laws about histories do not ask where in a tree a record was made. They need to know which records
there can be, and that is settled at the hooks: what holds of everything that the hooks note holds
of everything that a run notes, whether it comes to its end or not
(`Visitor.visitProgram_notes_of_hooks`).

* Any engine notes applications of its own rules only (`Engine.run_notes_rule`).
* With the rules of the transformation there are nine kinds of records, listed in `Context.Noted`
  with everything that they count and tell (`Engine.run_noted`). Only the last one is for the limit.
-/

namespace AsyncMarkers

/-! ### From hooks to runs -/

namespace Visitor

variable {ν ε : Type} {v : Visitor ν ε} {P : ν → Prop}

/-- That all notes have a property is kept when walks are put one after the other. -/
theorem forall_notes_chains (P : ν → Prop) :
    Visit.Chains fun w : Visit ν ε Unit => ∀ note ∈ w.notes, P note where
  nothing := by simp
  followedBy {u w} hu hw := by
    unfold Visit.followedBy
    split
    · -- after a failure the second walk is not taken
      exact hu
    · exact List.forall_mem_append.2 ⟨hu, hw⟩

/-- What holds of everything that hooks note holds of everything that a run notes. -/
theorem visitProgram_notes_of_hooks {p : Program} (h_program : ∀ note ∈ (v.program p).notes, P note)
    (h_hook : ∀ t, ∀ note ∈ (v.hook t).notes, P note) : ∀ note ∈ (v.visitProgram p).notes, P note :=
  visitProgram_chains (forall_notes_chains P) h_program h_hook

end Visitor

/-! ### Rules -/

namespace Engine

variable {g : Engine}

/-- The record is not that of an application of another rule. -/
def ByRule (rules : List Rule) : Record → Prop
  | .applied a => a.rule ∈ rules.map Rule.name
  | .stopped _ => True

/-- A record of one of some rules is one of a rule of any longer list. -/
theorem ByRule.cons {rules : List Rule} {r : Record} (h : ByRule rules r) (rule : Rule) :
    ByRule (rule :: rules) r := by
  cases r with
  | applied a => exact List.mem_cons_of_mem _ h
  | stopped d => trivial

/-- Whatever the rules do at a node, they note it under their own names. -/
theorem apply_notes_rule (ctx : Context) (kind : NodeKind) (rules : List Rule) (node : kind.Node) :
    ∀ r ∈ (apply ctx kind rules node).notes, ByRule rules r := by
  -- the induction is on the rules that have not been tried yet
  induction rules generalizing node with
  | nil => simp [apply]
  | cons rule rules ih =>
    have h_own : rule.name ∈ (rule :: rules).map Rule.name := List.mem_cons_self
    have h_later (node) : ∀ r ∈ (apply ctx kind rules node).notes, ByRule (rule :: rules) r :=
      fun r hr => (ih node r hr).cons rule
    rw [apply]
    split
    · -- the rule fails, replaces the node, or leaves it to the later rules
      split
      · exact List.forall_mem_singleton.2 h_own
      · split
        · exact List.forall_mem_singleton.2 h_own
        · exact List.forall_mem_cons.2 ⟨h_own, h_later _⟩
    · -- a rule that is not for the node notes nothing
      exact h_later node

/-- The replacement loop notes applications of the engine's rules, and that the limit is reached. -/
theorem settle_notes_rule (left : Nat) (e : Expression) :
    ∀ r ∈ (g.settle left e).notes, ByRule g.rules r := by
  -- one round applies the rules once, and the rest of the loop is shorter
  induction left generalizing e with
  | zero => simp [settle]
  | succ left ih =>
    have h_applied : ∀ r ∈ (g.applyTo e).notes, ByRule g.rules r := by
      cases e with
      | call s callee arguments => exact apply_notes_rule g.context .call g.rules _
      | construct s callee arguments => exact apply_notes_rule g.context .construction g.rules _
      | _ => simp [applyTo]
    rw [settle]
    split
    · exact h_applied
    · -- the limit is reached, with or without something pending, or the loop goes on
      split
      · split
        · exact List.forall_mem_append.2 ⟨h_applied, List.forall_mem_singleton.2 trivial⟩
        · exact h_applied
      · exact List.forall_mem_append.2 ⟨h_applied, ih _⟩

/-- A run notes applications of its own rules. -/
theorem run_notes_rule (p : Program) : ∀ r ∈ (g.run p).notes, ByRule g.rules r := by
  refine Visitor.visitProgram_notes_of_hooks (apply_notes_rule g.context .program g.rules p) ?_
  intro t
  -- statements are not offered to rules, functions once, and expressions in the loop
  cases t with
  | statement s => simp [hook_statement]
  | function f => exact apply_notes_rule g.context .function g.rules f
  | expression e => exact settle_notes_rule (max 1 g.limit) e

end Engine

/-! ### The records of the four rules -/

/-- Whether a diagnostic says that a call had been replaced as often as allowed. -/
def Diagnostic.isLimit : Diagnostic → Bool
  | .replacementLimit _ _ _ => true
  | _ => false

namespace Context

/-- What a run with the rules of the transformation can note. -/
inductive Noted (ctx : Context) (limit : Nat) : Record → Prop
  | declared : Noted ctx limit (.applied
      { rule := Rule.name (.declaration 300), node := .program, verdict := .ok .mutated
        counts := { declarations := 1 }
        events := [.declarationInserted ctx.file.displayName ctx.binding.name] })
  | completed (function : Option String) (param : Nat) : Noted ctx limit (.applied
      { rule := Rule.name (.signature 200), node := .function, verdict := .ok .mutated
        counts := { functions := 1 }
        events := [.functionCompleted ctx.file.displayName function param] })
  /-- A call has been left as it was. -/
  | unchanged : Noted ctx limit (.applied
      { rule := Rule.name (.call 200), node := .call, verdict := .ok .unchanged })
  | adapted (line : Nat) : Noted ctx limit (.applied
      { rule := Rule.name (.call 200), node := .call, verdict := .ok .mutated
        counts := { receivers := 1 }
        events := [.receiverAdapted ctx.file.displayName line] })
  | substituted (line index remaining : Nat) (awaited : Bool) : Noted ctx limit (.applied
      { rule := Rule.name (.call 200), node := .call, verdict := .ok .replaced
        counts := { calls := 1 }
        events := [.callSubstituted ctx.file.displayName line index remaining awaited] })
  /-- A call has been substituted, and the receiver in its callee has been adapted before. -/
  | adaptedAndSubstituted (line index remaining : Nat) (awaited : Bool) : Noted ctx limit (.applied
      { rule := Rule.name (.call 200), node := .call, verdict := .ok .replaced
        counts := { receivers := 1, calls := 1 }
        events := [.receiverAdapted ctx.file.displayName line,
          .callSubstituted ctx.file.displayName line index remaining awaited] })
  | refused {d : Diagnostic} : d.isLimit = false → Noted ctx limit (.applied
      { rule := Rule.name (.call 200), node := .call, verdict := .error d })
  | refusedConstruction (location : Location) : Noted ctx limit (.applied
      { rule := Rule.name .construction, node := .construction
        verdict := .error (.unsupported .asyncConstructor location) })
  | stopped (location : Location) :
      Noted ctx limit (.stopped (.replacementLimit ctx.marker limit location))

variable {ctx : Context} {limit : Nat} {span : Span} {callee : Expression}
  {arguments : List Expression}

/-- The call rule does not refuse calls for the limit. -/
theorem isLimit_of_refused {d : Diagnostic}
    (h : ctx.transformCall (.call span callee arguments) = .error d) : d.isLimit = false := by
  -- the refusal is one of those that the treatment of the arguments lists
  have h_treatment := ctx.substitution?_treatment span arguments
  rw [substitution?_of_refused h] at h_treatment
  cases h_treatment <;> rfl

/-- A change of the call rule is noted in one of four ways. -/
theorem noted_of_transformCall {change : Change Expression}
    (h : ctx.transformCall (.call span callee arguments) = .ok change) :
    ctx.Noted limit (Engine.record (.call 200) .call change) := by
  cases h_sub : ctx.substitution? span arguments with
  | error d =>
    rw [transformCall_error h_sub] at h
    cases h
  | ok substitution =>
    rw [transformCall, h_sub] at h
    -- what is noted depends on whether there is a substitution and whether there is an adapter
    cases substitution <;> cases h_adapter : ctx.needsAdapter callee <;>
      simp only [adaptation, h_adapter] at h <;> cases h
    · exact .unchanged
    · exact .adapted _
    · exact .substituted ..
    · exact .adaptedAndSubstituted ..

end Context

namespace Engine

variable {g : Engine} (h_rules : g.rules = Rule.all)

include h_rules

/-- The replacement loop notes what the four rules can note. -/
theorem settle_noted (left : Nat) (e : Expression) :
    ∀ r ∈ (g.settle left e).notes, g.context.Noted g.limit r := by
  induction left generalizing e with
  | zero => simp [settle]
  | succ left ih =>
    cases e with
    | call span callee arguments =>
      cases h_change : g.context.transformCall (.call span callee arguments) with
      | error d =>
        rw [settle_of_error h_rules h_change]
        exact List.forall_mem_singleton.2 (.refused (Context.isLimit_of_refused h_change))
      | ok change =>
        have h_noted : g.context.Noted g.limit (record (.call 200) .call change) :=
          Context.noted_of_transformCall h_change
        rw [settle_of_ok h_rules h_change]
        -- a call that stays is the last record; at the limit, one more record may say so
        split
        · exact List.forall_mem_singleton.2 h_noted
        · split
          · split
            · exact List.forall_mem_cons.2 ⟨h_noted, List.forall_mem_singleton.2 (.stopped _)⟩
            · exact List.forall_mem_singleton.2 h_noted
          · exact List.forall_mem_cons.2 ⟨h_noted, ih _⟩
    | construct span callee arguments =>
      rw [settle_construct h_rules]
      split
      · exact List.forall_mem_singleton.2 (.refusedConstruction _)
      · simp
    | _ =>
      rw [settle_of_not_offered rfl]
      simp

/-- The hooks note what the four rules can note. -/
theorem hook_noted (t : Subtree) : ∀ r ∈ (g.visitor.hook t).notes, g.context.Noted g.limit r := by
  cases t with
  | statement s => simp [hook_statement]
  | function f =>
    show ∀ r ∈ (apply g.context .function g.rules f).notes, _
    rw [h_rules, apply_function]
    split
    · refine List.forall_mem_singleton.2 ?_
      -- the marker parameter has a position, which is part of the event
      obtain ⟨index, h_index⟩ := Option.isSome_iff_exists.1 ‹_›
      obtain ⟨h_lt, -⟩ := List.findIdx?_eq_some_iff_getElem.1 h_index
      simp only [record, Context.complete, h_index, List.getElem?_eq_getElem h_lt]
      exact .completed ..
    · simp
  | expression e => exact settle_noted h_rules (max 1 g.limit) e

/-- At the program itself, only the declaration is noted. -/
theorem program_noted (p : Program) :
    ∀ r ∈ (g.visitor.program p).notes, g.context.Noted g.limit r := by
  show ∀ r ∈ (apply g.context .program g.rules p).notes, _
  rw [h_rules, apply_program]
  split
  · simp
  · exact List.forall_mem_singleton.2 .declared

/-- Everything that a run with the rules of the transformation notes. -/
theorem run_noted (p : Program) : ∀ r ∈ (g.run p).notes, g.context.Noted g.limit r :=
  Visitor.visitProgram_notes_of_hooks (program_noted h_rules p) (hook_noted h_rules)

end Engine

end AsyncMarkers
