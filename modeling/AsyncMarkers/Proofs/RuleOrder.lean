import AsyncMarkers.Proofs.Isolation
import AsyncMarkers.Proofs.Settle

/-!
# The order of rules

Rules are offered a node one after the other, and one that replaces the node keeps it from those
behind. So the order of rules can only matter where several of them are for one node. Every rule of
the transformation is for nodes of its own kind, and their order matters to nobody.

* **The agenda** of a kind of nodes is what is left of a list of rules for them, priorities apart
  (`Rule.agenda`). All that a run asks of its rules is their agendas (`Engine.run_of_agendas`): a
  rule that is not on the agenda of a node is passed over, also where the node has been made up by
  another rule or has just taken the place of another one.
* **A permutation** of a list in which no two rules share a kind changes no agenda
  (`Rule.agenda_of_perm`). Priorities only serve to sort rules, which is a permutation too.

Hence sessions with the four rules in any order report the same, and keep the same statistics
(`Session.performAll_of_rule_order`).
-/

namespace AsyncMarkers

namespace Rule

/-- Whether a rule is ever for nodes of a kind. -/
def isFor (kind : NodeKind) : Rule → Bool
  | .declaration _ => kind = .program
  | .signature _ => kind = .function
  | .call _ => kind = .call
  | .construction => kind = .construction
  | .probe => true

/-- The rules for nodes of a kind, in order and regardless of their priorities. -/
def agenda (kind : NodeKind) (rules : List Rule) : List Rule :=
  (rules.filter (isFor kind)).map (withPriority 0)

variable (ctx : Context) (kind : NodeKind) (node : kind.Node) (rule : Rule)

/-- A rule is tried only at nodes of its kind. -/
theorem isFor_of_applies (h : rule.applies ctx kind node = true) : rule.isFor kind = true := by
  cases rule <;> cases kind <;> simp_all [isFor, applies]

/-- The priority of a rule plays no part in what it is tried at, what it does and how it is
named. -/
@[simp] theorem applies_withPriority (n : Nat) :
    (rule.withPriority n).applies ctx kind node = rule.applies ctx kind node := by
  cases rule <;> cases kind <;> rfl

@[simp] theorem transform_withPriority (n : Nat) :
    (rule.withPriority n).transform ctx kind node = rule.transform ctx kind node := by
  cases rule <;> cases kind <;> rfl

@[simp] theorem name_withPriority (n : Nat) : (rule.withPriority n).name = rule.name := by
  cases rule <;> rfl

variable {kind} {rules rules' : List Rule}

/-- Where only one rule is for nodes of a kind, it does not matter where in the list it stands. -/
theorem agenda_of_perm (h : rules.Perm rules') (h_single : (agenda kind rules').length ≤ 1) :
    agenda kind rules = agenda kind rules' := by
  have h_agenda : (agenda kind rules).Perm (agenda kind rules') := (h.filter _).map _
  cases h_case : agenda kind rules' with
  | nil => rw [h_case] at h_agenda; exact h_agenda.eq_nil
  | cons rule others =>
    have h_alone : others = [] := by
      rw [h_case, List.length_cons] at h_single
      exact List.eq_nil_of_length_eq_zero (by omega)
    rw [h_case, h_alone] at h_agenda
    rw [h_alone]
    exact List.perm_singleton.1 h_agenda

/-- The four rules have the agendas of the transformation, in whatever order and with whatever
priorities. -/
theorem agenda_of_four {a b c : Nat}
    (h : rules.Perm [.declaration a, .signature b, .call c, .construction]) :
    agenda kind rules = agenda kind Rule.all := by
  have h_single :
      (agenda kind [.declaration a, .signature b, .call c, .construction]).length ≤ 1 := by
    -- the four rules are for four kinds, one each
    cases kind <;> exact Nat.le_refl 1
  rw [agenda_of_perm h h_single]
  cases kind <;> rfl

/-- Sorting is one permutation among others. -/
theorem agenda_mergeSort (h_single : (agenda kind rules).length ≤ 1) (le : Rule → Rule → Bool) :
    agenda kind (rules.mergeSort le) = agenda kind rules :=
  agenda_of_perm (List.mergeSort_perm rules le) h_single

end Rule

namespace Engine

/-- What a node is offered to is its agenda. -/
theorem apply_eq_agenda (ctx : Context) (kind : NodeKind) (rules : List Rule) (node : kind.Node) :
    apply ctx kind rules node = apply ctx kind (Rule.agenda kind rules) node := by
  -- the induction is on the rules; a rule that is for other nodes can be left out
  induction rules generalizing node with
  | nil => rfl
  | cons rule rules ih =>
    cases h_for : rule.isFor kind with
    | false =>
      -- the rule passes the node over, and is not on the agenda
      have h_not : ¬rule.applies ctx kind node = true := fun h =>
        Bool.false_ne_true (h_for.symm.trans (rule.isFor_of_applies ctx kind node h))
      have h_agenda : Rule.agenda kind (rule :: rules) = Rule.agenda kind rules := by
        rw [Rule.agenda, List.filter_cons_of_neg (by rw [h_for]; exact Bool.false_ne_true)]
        rfl
      rw [apply, if_neg h_not, h_agenda, ih]
    | true =>
      have h_agenda : Rule.agenda kind (rule :: rules) =
          rule.withPriority 0 :: Rule.agenda kind rules := by
        rw [Rule.agenda, List.filter_cons_of_pos h_for, List.map_cons]
        rfl
      rw [h_agenda, apply, apply, Rule.applies_withPriority, Rule.transform_withPriority]
      simp only [record, refusal, Rule.name_withPriority, ih]

section Agendas

variable {ctx : Context} {rules rules' : List Rule} {limit : Nat}
  (h_agendas : ∀ kind, Rule.agenda kind rules = Rule.agenda kind rules')

include h_agendas

/-- At a node, rules with the same agendas do the same. -/
theorem apply_of_agendas (kind : NodeKind) (node : kind.Node) :
    apply ctx kind rules node = apply ctx kind rules' node := by
  rw [apply_eq_agenda, h_agendas, ← apply_eq_agenda]

/-- The replacement loop asks the rules anew in every round, and gets the same answers. -/
theorem settle_of_agendas (left : Nat) (e : Expression) :
    settle ⟨ctx, rules, limit⟩ left e = settle ⟨ctx, rules', limit⟩ left e := by
  induction left generalizing e with
  | zero => rfl
  | succ left ih =>
    have h_apply : applyTo ⟨ctx, rules, limit⟩ e = applyTo ⟨ctx, rules', limit⟩ e := by
      cases e with
      | call s callee arguments => exact apply_of_agendas h_agendas .call _
      | construct s callee arguments => exact apply_of_agendas h_agendas .construction _
      | _ => rfl
    rw [settle, settle, h_apply]
    simp only [ih]
    rfl

/-- **Only agendas matter.** -/
theorem run_of_agendas (p : Program) : run ⟨ctx, rules, limit⟩ p = run ⟨ctx, rules', limit⟩ p := by
  have h_visitor : visitor ⟨ctx, rules, limit⟩ = visitor ⟨ctx, rules', limit⟩ := by
    simp only [visitor, apply_of_agendas h_agendas, settle_of_agendas h_agendas]
  rw [run, run, h_visitor]

end Agendas

end Engine

/-! ### Entries -/

/-- What is found under a name is the entry of the rule, if it has one. -/
theorem Statistics.lookup_eq (s : Statistics) (name : String) :
    s.lookup name = if name ∈ s.names then some (s.of name) else none := by
  induction s with
  | nil => rfl
  | cons entry s ih =>
    obtain ⟨first, stats⟩ := entry
    have h_names : name ∈ names ((first, stats) :: s) ↔
        name = first ∨ name ∈ names s := List.mem_cons
    rw [List.lookup_cons, of_cons, ih]
    -- an entry of the same name in front hides those behind it
    by_cases h_first : name = first
    · rw [if_pos (h_names.2 (.inl h_first)), if_pos h_first.symm, h_first, beq_self_eq_true]
    · rw [beq_eq_false_iff_ne.2 h_first, if_neg (Ne.symm h_first)]
      by_cases h_later : name ∈ names s
      · rw [if_pos h_later, if_pos (h_names.2 (.inr h_later))]
      · rw [if_neg h_later, if_neg (mt h_names.1 (not_or.2 ⟨h_first, h_later⟩))]

/-! ### Sessions -/

namespace Session

/-- Sessions that are set up in the same way, but for the order and the priorities of rules where
these do not matter. -/
structure SameAgendas (s s' : Session) : Prop where
  config : s.config = s'.config
  selector : s.selector = s'.selector
  limit : s.limit = s'.limit
  agendas : ∀ kind, Rule.agenda kind s.rules = Rule.agenda kind s'.rules

section SameAgendas

variable {s s' : Session} (h : SameAgendas s s')

include h

/-- The same files are selected. -/
theorem SameAgendas.selects (file : FileDescriptor) : s.selects file = s'.selects file := by
  rw [Session.selects, Session.selects, h.selector]

/-- A run on a file is the same. -/
theorem SameAgendas.run (file : FileDescriptor) (p : Program) :
    (s.engine file).run p = (s'.engine file).run p := by
  rw [engine, engine, h.config, h.limit]
  exact Engine.run_of_agendas h.agendas p

/-- The same is reported of every file. -/
theorem SameAgendas.carryOut_report (job : Job) : (s.carryOut job).1 = (s'.carryOut job).1 := by
  by_cases h_selected : s.selects job.file = true
  · have h_selected' : s'.selects job.file = true := h.selects job.file ▸ h_selected
    rw [carryOut, carryOut, transform_of_selected h_selected, transform_of_selected h_selected',
      h.run]
  · have h_selected' : ¬s'.selects job.file = true := h.selects job.file ▸ h_selected
    rw [carryOut, carryOut, transform_of_not_selected h_selected,
      transform_of_not_selected h_selected']

/-- The same is added to every entry. -/
theorem SameAgendas.growth (job : Job) (name : String) :
    s.growth job name = s'.growth job name := by
  rw [Session.growth, Session.growth, h.selects, h.run]

/-- New sessions with the same agendas and the same rules do the same, whatever is asked of them. -/
theorem SameAgendas.performAll (h_new : s.IsNew) (h_new' : s'.IsNew)
    (h_names : ∀ name, name ∈ s.statistics.names ↔ name ∈ s'.statistics.names)
    (operations : List Operation) :
    (s.performAll operations).1 = (s'.performAll operations).1 ∧
      ∀ name, (s.performAll operations).2.statistics.lookup name =
        (s'.performAll operations).2.statistics.lookup name := by
  constructor
  · simp only [performAll_reports, h.carryOut_report]
  · intro name
    rw [Statistics.lookup_eq, Statistics.lookup_eq, performAll_names operations h_new,
      performAll_names operations h_new', performAll_statistics operations h_new,
      performAll_statistics operations h_new']
    simp only [h_names, h.growth]

end SameAgendas

section Build

variable (config : Config) (selector : Selector) (limit : Nat) (rules : List Rule)

/-- A session that is built has what it has been given. -/
theorem build_setup :
    (build config selector limit rules).config = config ∧
      (build config selector limit rules).selector = selector ∧
      (build config selector limit rules).limit = limit ∧
      (build config selector limit rules).rules = rules := by
  -- the rules are added one by one, which leaves everything else as it is
  have h_addRules (s : Session) : (s.addRules rules).config = s.config ∧
      (s.addRules rules).selector = s.selector ∧ (s.addRules rules).limit = s.limit ∧
      (s.addRules rules).rules = s.rules ++ rules := by
    unfold addRules
    induction rules generalizing s with
    | nil => exact ⟨rfl, rfl, rfl, (List.append_nil _).symm⟩
    | cons rule rules ih =>
      obtain ⟨h_config, h_selector, h_limit, h_rules⟩ := ih (s.addRule rule)
      exact ⟨h_config, h_selector, h_limit, h_rules.trans (List.append_assoc ..)⟩
  exact h_addRules _

/-- The rules with entries are those that the session was given. -/
theorem mem_names_build (name : String) :
    name ∈ (build config selector limit rules).statistics.names ↔ name ∈ rules.map Rule.name := by
  have h_addRules (s : Session) : name ∈ (s.addRules rules).statistics.names ↔
      name ∈ rules.map Rule.name ∨ name ∈ s.statistics.names := by
    unfold addRules
    induction rules generalizing s with
    | nil => simp
    | cons rule rules ih =>
      rw [List.foldl_cons, ih, addRule, Statistics.reset, Statistics.mem_names_update,
        List.map_cons, List.mem_cons, or_assoc, or_left_comm]
  exact (h_addRules _).trans (or_iff_left List.not_mem_nil)

end Build

/-- Sorting its rules leaves a session new. -/
theorem IsNew.sortRules {s : Session} (h : s.IsNew) : s.sortRules.IsNew where
  entries rule h_rule := h.entries rule ((List.mergeSort_perm _ _).mem_iff.1 h_rule)
  counted := h.counted

/-- Sorting keeps agendas of at most one rule. -/
theorem sortRules_sameAgendas {s s' : Session} (h : SameAgendas s s')
    (h_single : ∀ kind, (Rule.agenda kind s'.rules).length ≤ 1) : SameAgendas s.sortRules s' where
  config := h.config
  selector := h.selector
  limit := h.limit
  agendas kind := by
    rw [← h.agendas kind]
    exact Rule.agenda_mergeSort (h.agendas kind ▸ h_single kind) _

/-- **The order of the four rules does not matter.** A session gets the rules of the transformation
one by one, in any order and with any priorities, and they may be sorted by these or not. Whatever
is asked of it, it reports the same as a session that is set up as usual: result, diagnostics and
log of every file. After that the same is found under the name of every rule in the statistics of
both. -/
theorem performAll_of_rule_order (config : Config) (selector : Selector) (limit : Nat)
    {rules : List Rule} {a b c : Nat}
    (h : rules.Perm [.declaration a, .signature b, .call c, .construction]) (sorted : Bool)
    (operations : List Operation) :
    let added := build config selector limit rules
    let session := if sorted then added.sortRules else added
    let usual := addMarkerRules { config, selector, limit }
    (session.performAll operations).1 = (usual.performAll operations).1 ∧
      ∀ name, (session.performAll operations).2.statistics.lookup name =
        (usual.performAll operations).2.statistics.lookup name := by
  intro added session usual
  -- each kind of node has one rule at most
  have h_single (kind : NodeKind) : (Rule.agenda kind Rule.all).length ≤ 1 := by
    cases kind <;> decide
  have h_usual_rules : usual.rules = Rule.all := addMarkerRules_rules rfl
  have h_added : SameAgendas added usual := by
    obtain ⟨h_config, h_selector, h_limit, h_rules⟩ := build_setup config selector limit rules
    obtain ⟨h_config', h_selector', h_limit', -⟩ := build_setup config selector limit Rule.all
    refine ⟨h_config.trans h_config'.symm, h_selector.trans h_selector'.symm,
      h_limit.trans h_limit'.symm, fun kind => ?_⟩
    rw [h_usual_rules, h_rules]
    exact Rule.agenda_of_four h
  -- the rules have entries under their names, in whatever order they have been added
  have h_names (name : String) :
      name ∈ added.statistics.names ↔ name ∈ usual.statistics.names := by
    have h_usual := mem_names_build config selector limit Rule.all name
    rw [mem_names_build, (h.map Rule.name).mem_iff]
    exact h_usual.symm
  have h_new : added.IsNew := build_isNew config selector limit rules
  have h_usual_new : usual.IsNew := (build_isNew config selector limit Rule.all).sortRules
  cases sorted with
  | false => exact h_added.performAll h_new h_usual_new h_names operations
  | true =>
    refine (sortRules_sameAgendas h_added ?_).performAll h_new.sortRules h_usual_new h_names
      operations
    rw [h_usual_rules]
    exact h_single

/-- The rules are added back to front, with priorities that turn the usual order around, and are
then sorted. A file is transformed, statistics are cleared, and another file is refused. -/
theorem performAll_of_rule_order_reversed :
    let name (n : String) : Expression := .identifier .synthetic ⟨n, false⟩
    let call : Job :=
      ⟨.collected, ⟨[.expression {} (.call .synthetic (name "f") [name "_"])], .synthetic⟩, {}⟩
    let refused : Job :=
      ⟨.collected, ⟨[.expression {} (.construct .synthetic (name "C") [name "_"])], .synthetic⟩, {}⟩
    let reversed : List Rule := [.construction, .call 150, .signature 100, .declaration 50]
    let session := (build {} .always 64 reversed).sortRules
    let usual := addMarkerRules { config := {}, selector := .always, limit := 64 }
    let operations := [.transform call, .clear, .transform refused]
    session.rules = reversed ∧
      (session.performAll operations).1 = (usual.performAll operations).1 ∧
      ∀ name, (session.performAll operations).2.statistics.lookup name =
        (usual.performAll operations).2.statistics.lookup name := by
  intro name call refused reversed session usual operations
  have h_perm : reversed.Perm [.declaration 50, .signature 100, .call 150, .construction] := by
    decide
  refine ⟨?_, performAll_of_rule_order {} .always 64 h_perm true operations⟩
  exact List.mergeSort_of_pairwise (by decide)

end Session

end AsyncMarkers
