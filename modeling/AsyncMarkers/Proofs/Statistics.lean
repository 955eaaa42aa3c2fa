import Mathlib.Algebra.BigOperators.Group.List.Basic
import AsyncMarkers.Proofs.Notes
import AsyncMarkers.Proofs.Report

/-!
# The algebra of statistics

Counting a record adds to the entry of one rule. So the entries of rules are sums: statistics after
a history are those before, with what the history adds to them (`Statistics.of_countAll`), and this
does not depend on what was there before (`History.growth`). Sums may be taken in any order.

Entries are looked up by the name of a rule (`Statistics.of`); a rule without an entry has counted
nothing yet. Counting makes no new entries if every rule has one (`Statistics.names_countAll`).
-/

namespace AsyncMarkers

/-! ### Entries -/

attribute [ext] RuleStats

namespace RuleStats

instance : Zero RuleStats := ⟨{}⟩

instance : Add RuleStats where
  add a b :=
    ⟨a.applications + b.applications, a.transformations + b.transformations, a.errors + b.errors⟩

@[simp] theorem zero_applications : (0 : RuleStats).applications = 0 := rfl

@[simp] theorem zero_transformations : (0 : RuleStats).transformations = 0 := rfl

@[simp] theorem zero_errors : (0 : RuleStats).errors = 0 := rfl

@[simp] theorem add_applications (a b : RuleStats) :
    (a + b).applications = a.applications + b.applications := rfl

@[simp] theorem add_transformations (a b : RuleStats) :
    (a + b).transformations = a.transformations + b.transformations := rfl

@[simp] theorem add_errors (a b : RuleStats) : (a + b).errors = a.errors + b.errors := rfl

instance : AddCommMonoid RuleStats where
  add_assoc a b c := by ext <;> simp [Nat.add_assoc]
  zero_add a := by ext <;> simp
  add_zero a := by ext <;> simp
  add_comm a b := by ext <;> simp [Nat.add_comm]
  nsmul := nsmulRec

/-- One application with the given verdict. -/
def ofVerdict (verdict : Except Diagnostic Outcome) : RuleStats := add 0 verdict

/-- Counting one verdict is adding it. -/
theorem add_eq (s : RuleStats) (verdict : Except Diagnostic Outcome) :
    s.add verdict = s + ofVerdict verdict := by
  match verdict with
  | .ok .unchanged | .ok .mutated | .ok .replaced | .error _ => rfl

end RuleStats

/-! ### What is added to entries -/

/-- What a record adds to the entry of a rule. -/
def Record.growth (name : String) : Record → RuleStats
  | .applied a => if a.rule = name then .ofVerdict a.verdict else 0
  | .stopped _ => 0

namespace History

/-- What a history adds to the entry of a rule. -/
def growth (h : History) (name : String) : RuleStats := (h.map (Record.growth name)).sum

/-- Each record adds its share. -/
theorem growth_cons (r : Record) (h : History) (name : String) :
    growth (r :: h) name = r.growth name + growth h name := List.sum_cons

/-- Histories one after another add up. -/
theorem growth_append (h h' : History) (name : String) :
    growth (h ++ h') name = growth h name + growth h' name := by
  rw [growth, List.map_append, List.sum_append]
  rfl

end History

namespace Statistics

/-- The entry of a rule. -/
def of (s : Statistics) (name : String) : RuleStats := (s.lookup name).getD 0

/-- The rules that have entries. -/
def names (s : Statistics) : List String := s.map Prod.fst

/-- The first entry with a name is the entry of that rule. -/
theorem of_cons (name : String) (stats : RuleStats) (s : Statistics) (other : String) :
    of ((name, stats) :: s) other = if name = other then stats else s.of other := by
  rw [of, List.lookup_cons]
  by_cases h : name = other
  · rw [if_pos h, h, beq_self_eq_true]
    rfl
  · rw [if_neg h, beq_eq_false_iff_ne.2 (Ne.symm h)]
    rfl

/-- Changing the entry of a rule changes no other. -/
theorem of_update (change : RuleStats → RuleStats) (name other : String) (s : Statistics) :
    (s.update change name).of other = if name = other then change (s.of other) else s.of other := by
  induction s with
  | nil => exact of_cons ..
  | cons entry s ih =>
    obtain ⟨first, stats⟩ := entry
    rw [update]
    split
    · -- the entry is there
      rename_i h_first
      rw [of_cons, of_cons, h_first]
      split <;> rfl
    · -- the entry is further on, if there is one, so the first one stays
      rename_i h_first
      rw [of_cons, of_cons, ih]
      by_cases h_other : first = other
      · rw [if_pos h_other, if_pos h_other, if_neg (h_other ▸ Ne.symm h_first)]
      · rw [if_neg h_other, if_neg h_other]

/-- A record is added to the entry of its own rule. -/
theorem of_count (s : Statistics) (r : Record) (name : String) :
    (s.count r).of name = s.of name + r.growth name := by
  cases r with
  | stopped d => exact (add_zero _).symm
  | applied a =>
    rw [count, of_update, Record.growth]
    split
    · exact RuleStats.add_eq ..
    · exact (add_zero _).symm

/-- **Statistics grow by what a history adds to them.** -/
theorem of_countAll (s : Statistics) (h : History) (name : String) :
    (s.countAll h).of name = s.of name + h.growth name := by
  -- one record after the other, each added to what the ones before have made of the statistics
  induction h generalizing s with
  | nil => exact (add_zero _).symm
  | cons r h ih =>
    show ((s.count r).countAll h).of name = _
    rw [ih, of_count, History.growth_cons, add_assoc]

/-! ### The rules with entries -/

/-- Changing an entry that is there makes no new ones. -/
theorem names_update_of_mem (change : RuleStats → RuleStats) {name : String} {s : Statistics}
    (h : name ∈ s.names) : (s.update change name).names = s.names := by
  induction s with
  | nil => cases h
  | cons entry s ih =>
    obtain ⟨first, stats⟩ := entry
    rw [update]
    split
    · rfl
    · rename_i h_first
      have h_later : name ∈ names s := (List.mem_cons.1 h).resolve_left (Ne.symm h_first)
      exact congrArg (first :: ·) (ih h_later)

/-- Changing an entry makes one if it is missing. -/
theorem mem_names_update (change : RuleStats → RuleStats) (name other : String) (s : Statistics) :
    other ∈ (s.update change name).names ↔ other = name ∨ other ∈ s.names := by
  induction s with
  | nil => simp [update, names]
  | cons entry s ih =>
    obtain ⟨first, stats⟩ := entry
    rw [update]
    split
    · rename_i h_first
      simp [names, h_first]
    · have h_cons (s : Statistics) (stats) :
          other ∈ names ((first, stats) :: s) ↔ other = first ∨ other ∈ s.names := List.mem_cons
      rw [h_cons, h_cons, ih, or_left_comm]

/-- No entries are made for rules that have entries. -/
theorem names_countAll {s : Statistics} {rules : List Rule}
    (h_names : ∀ rule ∈ rules, rule.name ∈ s.names) {h : History}
    (h_rules : ∀ r ∈ h, Engine.ByRule rules r) : (s.countAll h).names = s.names := by
  induction h generalizing s with
  | nil => rfl
  | cons r h ih =>
    rw [List.forall_mem_cons] at h_rules
    -- the record is of a rule that has an entry, so it goes there
    have h_count : (s.count r).names = s.names := by
      cases r with
      | stopped d => rfl
      | applied a =>
        obtain ⟨rule, h_rule, h_name⟩ := List.mem_map.1 h_rules.1
        exact names_update_of_mem _ (h_name ▸ h_names rule h_rule)
    have h_later := ih (s := s.count r) (by rwa [h_count]) h_rules.2
    exact h_later.trans h_count

@[simp] theorem names_clear (s : Statistics) : s.clear.names = s.names := by
  rw [names, names, clear, List.map_map]
  rfl

@[simp] theorem of_clear (s : Statistics) (name : String) : s.clear.of name = 0 := by
  induction s with
  | nil => rfl
  | cons entry s ih =>
    obtain ⟨first, stats⟩ := entry
    show of ((first, 0) :: clear s) name = 0
    rw [of_cons, ih, ite_self]

end Statistics

end AsyncMarkers
