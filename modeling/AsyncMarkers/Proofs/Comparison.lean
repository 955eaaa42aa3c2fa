import AsyncMarkers.Proofs.Walk

/-!
# Two walks side by side

Several laws say what does *not* matter to a run: a higher limit, other names. Each is about two
walks, over the same tree or over two trees of one shape, whose visitors do the same at every node
but for something that is looked through. A `Comparison` says what is looked through: how the nodes
of the one tree stand for those of the other, what is read off the notes on either side, and how the
second walk fails where the first one does. It may follow the first walk only as far as certain
failures; of a walk that ends in another one nothing is said.

That two hooks agree at every node is one step. The rest is proved here once, by induction over the
first walk: then whole visits agree (`Comparison.visit_agree`), and so do runs over programs
(`Comparison.visitProgram_endsAlike`, `Comparison.visitProgram_body`). The induction goes into what
the hook has left, not into the tree that was given, since that is where the walks go on. Behind a
failure there is nothing to compare, and what the walks leave of their trees is compared only if
they succeed.
-/

namespace AsyncMarkers

/-! ### Trees of one shape -/

/-- A map of nodes that keeps the shape of trees: it maps a node part by part, whatever becomes of
the parts afterwards. -/
structure NodeMap.KeepsShape (m : NodeMap) : Prop where
  parts : ∀ t : Subtree, (m.apply t).parts = t.parts.map m.apply
  mapParts : ∀ (t : Subtree) {k k' : NodeMap},
    (∀ part ∈ t.parts, k'.apply (m.apply part) = m.apply (k.apply part)) →
      (m.apply t).mapParts k' = m.apply (t.mapParts k)

@[simp] theorem NodeMap.id_apply (t : Subtree) : NodeMap.id.apply t = t := by
  cases t <;> rfl

/-- Leaving all nodes as they are keeps the shape of trees. -/
theorem NodeMap.keepsShape_id : NodeMap.id.KeepsShape where
  parts t := by
    have h_id : NodeMap.id.apply = fun t => t := funext NodeMap.id_apply
    rw [h_id, List.map_id']
  mapParts t k k' h := by
    rw [id_apply, id_apply]
    refine Subtree.mapParts_congr fun part h_part => ?_
    rw [← id_apply (k.apply part), ← h part h_part, id_apply]

/-! ### What is compared -/

/-- How a walk is held against another one. -/
structure Comparison (ν ε τ : Type) where
  /-- What stands in the second tree where a node stands in the first. -/
  nodes : NodeMap
  /-- What is read off a note of the first walk. -/
  reads : ν → List τ
  /-- What is read off a note of the second walk. -/
  reads' : ν → List τ
  /-- Why the second walk stops where the first one does. -/
  failure : ε → ε
  /-- The failures up to which the first walk is followed. -/
  follows : ε → Prop

namespace Comparison

variable {ν ε τ α β : Type} (c : Comparison ν ε τ)

/-- A visit that succeeds, or fails in a way that is followed. -/
def Follows (w : Visit ν ε α) : Prop := ∀ d, w.failure = some d → c.follows d

/-- A visit that succeeds is followed. -/
theorem follows_of_success {w : Visit ν ε α} (h : w.failure = none) : c.Follows w := by
  intro d hd
  rw [h] at hd
  cases hd

/-- The same is read off what has been noted, and the second visit fails as the first one does. -/
structure EndsAlike (w : Visit ν ε α) (w' : Visit ν ε β) : Prop where
  notes : w'.notes.flatMap c.reads' = w.notes.flatMap c.reads
  failure : w'.failure = w.failure.map c.failure

/-- Two visits of nodes end alike, and the nodes that they leave stand for one another. -/
structure Agree (w w' : Visit ν ε Subtree) : Prop extends c.EndsAlike w w' where
  value : w.failure = none → w'.value = c.nodes.apply w.value

variable {c}

/-- If visits end alike, one succeeds exactly if the other one does. -/
theorem EndsAlike.failure_eq_none_iff {w : Visit ν ε α} {w' : Visit ν ε β} (h : c.EndsAlike w w') :
    w'.failure = none ↔ w.failure = none := by
  rw [h.failure, Option.map_eq_none_iff]

/-- What follows is compared only if the first visit goes on to it. -/
theorem EndsAlike.followedBy {u w : Visit ν ε α} {u' w' : Visit ν ε β} (hu : c.EndsAlike u u')
    (hw : u.failure = none → c.EndsAlike w w') :
    c.EndsAlike (u.followedBy w) (u'.followedBy w') := by
  -- behind a failure neither visit goes on, so there is nothing more to compare
  cases h_failure : u.failure with
  | none =>
    have h_failure' : u'.failure = none := hu.failure_eq_none_iff.2 h_failure
    rw [Visit.followedBy_of_failure_none h_failure, Visit.followedBy_of_failure_none h_failure']
    refine ⟨?_, (hw h_failure).failure⟩
    rw [List.flatMap_append, List.flatMap_append, hu.notes, (hw h_failure).notes]
  | some d =>
    have h_failure' : u'.failure = some (c.failure d) := by
      rw [hu.failure, h_failure, Option.map_some]
    simpa only [Visit.followedBy, h_failure, h_failure'] using hu

/-- Up to a failure that is followed, the first of two visits is. -/
theorem Follows.of_followedBy_left {u w : Visit ν ε α} (h : c.Follows (u.followedBy w)) :
    c.Follows u := by
  intro d hd
  refine h d ?_
  rw [Visit.followedBy_failure, hd, Option.some_or]

/-- And so is the second, if the walk comes to it. -/
theorem Follows.of_followedBy_right {u w : Visit ν ε α} (h : c.Follows (u.followedBy w))
    (hu : u.failure = none) : c.Follows w := by
  intro d hd
  refine h d ?_
  rw [Visit.followedBy_failure, hu, Option.none_or, hd]

/-! ### From hooks to walks -/

variable {v v' : Visitor ν ε}

/-- Visits of nodes one after another end alike if each of them agrees with its counterpart. -/
theorem visitAll_endsAlike {ts : List Subtree}
    (h_visits : ∀ t ∈ ts, c.Follows (v.visit t) → c.Agree (v.visit t) (v'.visit (c.nodes.apply t)))
    (h : c.Follows (v.visitAll ts)) :
    c.EndsAlike (v.visitAll ts) (v'.visitAll (ts.map c.nodes.apply)) := by
  -- the induction is on the nodes that have not been visited yet
  induction ts with
  | nil => exact ⟨rfl, rfl⟩
  | cons t ts ih =>
    rw [List.forall_mem_cons] at h_visits
    have h_first : c.Follows (v.visit t) := Follows.of_followedBy_left (u := (v.visit t).ending) h
    have h_agree := h_visits.1 h_first
    refine EndsAlike.followedBy ⟨h_agree.notes, h_agree.failure⟩ fun h_none => ?_
    exact ih h_visits.2 (h.of_followedBy_right h_none)

/-- **Agreeing hooks make agreeing visits.** -/
theorem visit_agree (h_shape : c.nodes.KeepsShape)
    (h_hook : ∀ t, c.Follows (v.hook t) → c.Agree (v.hook t) (v'.hook (c.nodes.apply t)))
    (t : Subtree) (h : c.Follows (v.visit t)) :
    c.Agree (v.visit t) (v'.visit (c.nodes.apply t)) := by
  -- the induction goes into what the first hook has left
  induction t using v.visit_induction with
  | step t ih =>
    have h_ending :
        c.Follows ((v.hook t).ending.followedBy (v.visitAll (v.hook t).value.parts)) := by
      rw [← Visitor.visit_ending]
      exact h
    have h_top := h_hook t (h_ending.of_followedBy_left)
    have h_ends : c.EndsAlike (v.visit t).ending (v'.visit (c.nodes.apply t)).ending := by
      rw [Visitor.visit_ending, Visitor.visit_ending]
      refine EndsAlike.followedBy ⟨h_top.notes, h_top.failure⟩ fun h_none => ?_
      -- the second walk goes on into the counterparts of the parts
      rw [h_top.value h_none, h_shape.parts]
      exact visitAll_endsAlike ih (h_ending.of_followedBy_right h_none)
    refine ⟨⟨h_ends.notes, h_ends.failure⟩, fun h_none => ?_⟩
    obtain ⟨h_hook_none, h_parts⟩ := v.visit_failure_eq_none.1 h_none
    rw [v.visit_value h_none, v'.visit_value (h_ends.failure_eq_none_iff.2 h_none),
      h_top.value h_hook_none]
    -- both results are put together from the parts, which agree by induction
    refine h_shape.mapParts _ fun part h_part => ?_
    have h_success := h_parts part h_part
    rw [Visitor.results_apply, Visitor.results_apply]
    exact (ih part h_part (c.follows_of_success h_success)).value h_success

section Program

variable {p p' : Program} (h_shape : c.nodes.KeepsShape)
  (h_hook : ∀ t, c.Follows (v.hook t) → c.Agree (v.hook t) (v'.hook (c.nodes.apply t)))
  (h_program : c.EndsAlike (v.program p) (v'.program p'))
  (h_body : (v.program p).failure = none →
    (v'.program p').value.body = (v.program p).value.body.map c.nodes.statement)

include h_shape h_hook h_program h_body

/-- Runs over programs end alike if the hooks agree at the programs and at all nodes. -/
theorem visitProgram_endsAlike (h : c.Follows (v.visitProgram p)) :
    c.EndsAlike (v.visitProgram p) (v'.visitProgram p') := by
  have h_ending : c.Follows ((v.program p).ending.followedBy
      (v.visitAll ((v.program p).value.body.map .statement))) := by
    rw [← Visitor.visitProgram_ending]
    exact h
  have h_ends : c.EndsAlike (v.visitProgram p).ending (v'.visitProgram p').ending := by
    rw [Visitor.visitProgram_ending, Visitor.visitProgram_ending]
    refine EndsAlike.followedBy ⟨h_program.notes, h_program.failure⟩ fun h_none => ?_
    -- the bodies stand for one another, statement by statement
    have h_statements : (v'.program p').value.body.map Subtree.statement =
        ((v.program p).value.body.map Subtree.statement).map c.nodes.apply := by
      rw [h_body h_none, List.map_map, List.map_map]
      rfl
    rw [h_statements]
    exact visitAll_endsAlike (fun t _ => visit_agree h_shape h_hook t)
      (h_ending.of_followedBy_right h_none)
  exact ⟨h_ends.notes, h_ends.failure⟩

/-- The statements that runs over programs leave stand for one another. -/
theorem visitProgram_body (h : (v.visitProgram p).failure = none) :
    (v'.visitProgram p').value.body = (v.visitProgram p).value.body.map c.nodes.statement := by
  have h_ends :=
    visitProgram_endsAlike h_shape h_hook h_program h_body (c.follows_of_success h)
  obtain ⟨h_none, h_visits⟩ := v.visitProgram_failure_eq_none.1 h
  rw [v.visitProgram_value h, v'.visitProgram_value (h_ends.failure_eq_none_iff.2 h), h_body h_none,
    List.map_map, List.map_map]
  refine List.map_congr_left fun s hs => ?_
  have h_visit := h_visits (.statement s) (List.mem_map_of_mem hs)
  have h_agree := visit_agree h_shape h_hook (.statement s) (c.follows_of_success h_visit)
  exact Subtree.statement.inj (h_agree.value h_visit)

end Program

/-! ### Walks over the same tree -/

section SameTree

variable (h_nodes : c.nodes = .id)

include h_nodes

/-- A visit agrees with itself, if the same is read off notes on both sides. -/
theorem agree_refl (h_reads : c.reads' = c.reads) {w : Visit ν ε Subtree}
    (h_failure : w.failure.map c.failure = w.failure) : c.Agree w w where
  notes := by rw [h_reads]
  failure := h_failure.symm
  value _ := by rw [h_nodes, NodeMap.id_apply]

/-- Two runs over one program, whose hooks agree at all nodes, end alike and leave the same. -/
theorem visitProgram_sameTree {p : Program}
    (h_hook : ∀ t, c.Follows (v.hook t) → c.Agree (v.hook t) (v'.hook t))
    (h_program : c.EndsAlike (v.program p) (v'.program p))
    (h_value : (v'.program p).value = (v.program p).value) (h : c.Follows (v.visitProgram p)) :
    c.EndsAlike (v.visitProgram p) (v'.visitProgram p) ∧
      ((v.visitProgram p).failure = none →
        (v'.visitProgram p).value = (v.visitProgram p).value) := by
  -- leaving the nodes alone is one way of keeping shapes, so this is the general theorem
  have h_shape : c.nodes.KeepsShape := h_nodes ▸ NodeMap.keepsShape_id
  have h_hook_id (t) (ht : c.Follows (v.hook t)) :
      c.Agree (v.hook t) (v'.hook (c.nodes.apply t)) := by
    rw [h_nodes, NodeMap.id_apply]
    exact h_hook t ht
  have h_statement : c.nodes.statement = fun s => s := by
    rw [h_nodes]
    rfl
  have h_body : (v.program p).failure = none →
      (v'.program p).value.body = (v.program p).value.body.map c.nodes.statement := by
    intro _
    rw [h_statement, List.map_id', h_value]
  have h_ends := visitProgram_endsAlike h_shape h_hook_id h_program h_body h
  refine ⟨h_ends, fun h_none => ?_⟩
  have h_bodies := visitProgram_body h_shape h_hook_id h_program h_body h_none
  rw [h_statement, List.map_id', v.visitProgram_value h_none,
    v'.visitProgram_value (h_ends.failure_eq_none_iff.2 h_none), h_value] at h_bodies
  rw [v.visitProgram_value h_none, v'.visitProgram_value (h_ends.failure_eq_none_iff.2 h_none),
    h_value]
  exact congrArg (Program.mk · _) h_bodies

end SameTree

end Comparison

end AsyncMarkers
