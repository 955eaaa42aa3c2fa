import AsyncMarkers.Proofs.Interruption
import AsyncMarkers.Tree.Recorder

/-!
# What a recorder notes and leaves

A recorder does something at references only, and all it does there is to fail or to put another
reference in the place. So what comes of a tree can be said along its listing, without the walk
(`Recorder.look` for one node, `Recorder.record` for nodes in turn): a run notes the nodes of the
listing up to the one that is refused, replaces names in front of it and touches nothing behind it.
This is said of outlines, in which each node stands for itself.

The step from the walk to the listing is `Recorder.visit_outline`, by induction along the walk. What
it says of whole programs is `Recorder.visitProgram_stops_cleanly`.
-/

namespace AsyncMarkers

/-- What a recorder that looks at everything notes of a node. -/
def Subtree.label : Subtree → Label
  | .statement s => .statement s.form
  | .function f => .function f.form
  | .expression e => e.label

namespace Recorder

variable (r : Recorder)

/-- What is noted of a node. -/
def noted : Subtree → List Label
  | .statement s => if r.attention = .everything then [.statement s.form] else []
  | .function f => if r.attention = .everything then [.function f.form] else []
  | .expression e => if r.attention = .nothing then [] else [e.label]

/-- Whether the recorder fails at a node. -/
def refuses : Subtree → Bool
  | .expression (.identifier _ id) =>
    decide (r.attention ≠ .nothing) && decide (r.forbidden = some id.name)
  | _ => false

/-- What the recorder puts in the place of a node, if it does not fail there. -/
def replaced : Subtree → Subtree
  | .expression (.identifier span id) =>
    if r.attention = .nothing then .expression (.identifier span id)
    else
      match r.replacements.lookup id.name with
      | some name => .expression (Synthetic.name name)
      | none => .expression (.identifier span id)
  | t => t

/-- What the recorder does at a node, apart from its parts. -/
def look (n : Subtree) : Visit Label String Subtree :=
  if r.refuses n then ⟨n.bare, r.noted n, r.forbidden⟩ else ⟨r.replaced n.bare, r.noted n, none⟩

/-- What the recorder does at nodes one after another. -/
def record : List Subtree → Visit Label String (List Subtree) := Visit.each r.look Subtree.bare

/-! ### Single nodes -/

/-- At a reference, the recorder does what its hook for expressions does, and leaves a reference. -/
theorem look_identifier (span : Span) (id : Identifier) :
    r.look (.expression (.identifier span id)) =
      (r.expression (.identifier span id)).map .expression ∧
      ∃ span' id', (r.expression (.identifier span id)).value = .identifier span' id' := by
  unfold look refuses replaced noted expression reference
  -- the recorder looks away, stops, replaces the name, or leaves it
  by_cases h_nothing : r.attention = .nothing
  · simp [h_nothing, Subtree.bare, Subtree.mapParts, Expression.mapParts, Visit.map]
  by_cases h_forbidden : r.forbidden = some id.name
  · simp [h_nothing, h_forbidden, Subtree.bare, Subtree.mapParts, Expression.mapParts, Visit.map,
      Expression.label]
  · cases h_lookup : r.replacements.lookup id.name with
    | none =>
      simp [h_nothing, h_forbidden, h_lookup, Subtree.bare, Subtree.mapParts, Expression.mapParts,
        Visit.map, Expression.label]
    | some name =>
      simp [h_nothing, h_forbidden, h_lookup, Subtree.bare, Subtree.mapParts, Expression.mapParts,
        Visit.map, Expression.label, Synthetic.name, Synthetic.reference]

/-- A reference has no parts, so a visit of it is the hook and no more. -/
theorem visit_identifier (span : Span) (id : Identifier) :
    r.visitor.visit (.expression (.identifier span id)) =
      r.look (.expression (.identifier span id)) ∧
      ∃ span' id', (r.look (.expression (.identifier span id))).value =
        .expression (.identifier span' id') := by
  obtain ⟨h_look, span', id', h_value⟩ := r.look_identifier span id
  rw [h_look]
  refine ⟨?_, span', id', congrArg Subtree.expression h_value⟩
  have h_hook : r.visitor.hook (.expression (.identifier span id)) =
      (r.expression (.identifier span id)).map .expression := rfl
  rw [Visitor.visit_eq, h_hook, Visit.map_value, h_value, Visitor.walk, Visitor.walkExpression]
  -- what is left is a reference again, so the walk adds nothing
  generalize r.expression (.identifier span id) = hooked at h_value ⊢
  obtain ⟨value, notes, failure⟩ := hooked
  cases h_value
  cases failure <;> simp [Visit.followedBy, Visit.map]

/-- At any other node the recorder makes a note and goes on to the parts. -/
theorem visit_of_not_identifier {t : Subtree}
    (h : ∀ span id, t ≠ .expression (.identifier span id)) :
    r.visitor.visit t = Visit.followedBy ⟨t, r.noted t, none⟩ (r.visitor.walk t) ∧
      r.look t = ⟨t.bare, r.noted t, none⟩ := by
  suffices h_node : r.visitor.hook t = ⟨t, r.noted t, none⟩ ∧
      r.look t = ⟨t.bare, r.noted t, none⟩ by
    rw [Visitor.visit_eq, h_node.1]
    exact ⟨rfl, h_node.2⟩
  -- only expressions can be references, and nothing else is replaced or refused
  cases t with
  | statement s =>
    simp [Visitor.hook, visitor, note, look, refuses, replaced, noted, Subtree.bare,
      Subtree.mapParts, Visit.map]
  | function f =>
    simp [Visitor.hook, visitor, note, look, refuses, replaced, noted, Subtree.bare,
      Subtree.mapParts, Visit.map]
  | expression e =>
    cases e with
    | identifier span id => exact absurd rfl (h span id)
    | _ =>
      by_cases h_nothing : r.attention = .nothing <;>
        simp [Visitor.hook, visitor, expression, h_nothing, look, refuses, replaced, noted,
          Subtree.bare, Subtree.mapParts, Expression.mapParts, Visit.map]

/-! ### Trees -/

/-- What a visit leaves of a tree, and how it ends, is what the recorder does along the listing. -/
theorem visit_outline (t : Subtree) :
    (r.visitor.visit t).map Subtree.outline = r.record t.listing := by
  -- the induction is on the tree that is given, since what is put in has no parts to visit
  induction t using Subtree.parts_induction with
  | step t ih =>
    by_cases h_name : ∃ span id, t = .expression (.identifier span id)
    · obtain ⟨span, id, rfl⟩ := h_name
      obtain ⟨h_visit, span', id', h_value⟩ := r.visit_identifier span id
      have h_alone : Subtree.outline (.expression (.identifier span' id')) =
          [.expression (.identifier span' id')] := rfl
      show _ = r.record [_]
      rw [h_visit, record, Visit.each_singleton]
      unfold Visit.map
      rw [h_value, h_alone]
    · obtain ⟨h_visit, h_look⟩ := r.visit_of_not_identifier (t := t)
        fun span id h_eq => h_name ⟨span, id, h_eq⟩
      obtain ⟨h_walk, h_bare⟩ := r.visitor.walk_fills t
      -- below the node, the listings of the parts follow one another
      have h_parts : (r.visitor.visitParts t.parts).map (·.flatMap Subtree.outline) =
          r.record (t.parts.flatMap Subtree.listing) := Visit.each_flatMap ih fun _ _ => rfl
      have h_record : r.record t.listing =
          ⟨t.bare :: (r.record (t.parts.flatMap Subtree.listing)).value,
          r.noted t ++ (r.record (t.parts.flatMap Subtree.listing)).notes,
          (r.record (t.parts.flatMap Subtree.listing)).failure⟩ := by
        rw [Subtree.listing_eq, record, Visit.each, h_look, Visit.also_of_failure_none rfl]
        rfl
      rw [h_record, ← h_parts, ← h_walk, h_visit, Visit.followedBy_of_failure_none rfl]
      unfold Visit.map
      rw [Subtree.outline_eq, h_bare]

/-- What a run leaves of a program, and how it ends. -/
theorem visitProgram_outline (p : Program) :
    (r.visitor.visitProgram p).map Program.outline =
      ⟨(p.bare, (r.record p.listing).value),
        (if r.attention = .everything then [.program] else []) ++ (r.record p.listing).notes,
        (r.record p.listing).failure⟩ := by
  obtain ⟨h_walk, h_bare⟩ := r.visitor.walkProgram_fills p
  have h_statements :
      (r.visitor.visitParts (p.body.map .statement)).map (·.flatMap Subtree.outline) =
        r.record p.listing := by
    rw [Program.listing_eq]
    exact Visit.each_flatMap (fun t _ => r.visit_outline t) fun _ _ => rfl
  have h_hook : r.visitor.program p =
      ⟨p, if r.attention = .everything then [.program] else [], none⟩ := by
    simp [visitor, note]
  rw [Visitor.visitProgram, h_hook, Visit.followedBy_of_failure_none rfl, ← h_statements, ← h_walk]
  unfold Visit.map
  rw [Program.outline_eq, h_bare]

/-! ### How runs end -/

variable {r}

/-- A node is refused if it is a reference to the forbidden name that the recorder looks at. -/
theorem refuses_eq_true_iff {n : Subtree} :
    r.refuses n = true ↔ r.attention ≠ .nothing ∧
      ∃ span id, n = .expression (.identifier span id) ∧ r.forbidden = some id.name := by
  constructor
  · intro h
    unfold refuses at h
    split at h
    · next span id =>
      rw [Bool.and_eq_true, decide_eq_true_iff, decide_eq_true_iff] at h
      exact ⟨h.1, span, id, rfl, h.2⟩
    · cases h
  · rintro ⟨h_attention, span, id, rfl, h_forbidden⟩
    rw [refuses, Bool.and_eq_true, decide_eq_true_iff, decide_eq_true_iff]
    exact ⟨h_attention, h_forbidden⟩

/-- A node that is not refused is noted and replaced if need be. -/
theorem look_of_not_refused {n : Subtree} (h : r.refuses n = false) :
    r.look n = ⟨r.replaced n.bare, r.noted n, none⟩ := by
  rw [look, h]
  rfl

/-- A node that is refused is noted and left. -/
theorem look_of_refused {n : Subtree} (h : r.refuses n = true) :
    r.look n = ⟨n.bare, r.noted n, r.forbidden⟩ := if_pos h

/-- As long as no node is refused, all are noted, and those that have to be are replaced. -/
theorem record_of_not_refused {nodes : List Subtree} (h : ∀ n ∈ nodes, r.refuses n = false) :
    r.record nodes = ⟨nodes.map fun n => r.replaced n.bare, nodes.flatMap r.noted, none⟩ := by
  have h_value : nodes.map (fun n => (r.look n).value) = nodes.map fun n => r.replaced n.bare :=
    List.map_congr_left fun n h_n => by rw [look_of_not_refused (h n h_n)]
  have h_notes : nodes.flatMap (fun n => (r.look n).notes) = nodes.flatMap r.noted :=
    List.flatMap_congr fun n h_n => by rw [look_of_not_refused (h n h_n)]
  rw [record, Visit.each_of_failure_none fun n h_n => by rw [look_of_not_refused (h n h_n)],
    h_value, h_notes]

/-- A node that is refused is the last to be noted, and it is left as it is with all behind it. -/
theorem record_of_refused {before after : List Subtree} {n : Subtree} {name : String}
    (h_before : ∀ n ∈ before, r.refuses n = false) (h : r.refuses n = true)
    (h_name : r.forbidden = some name) :
    r.record (before ++ n :: after) =
      ⟨before.map (fun n => r.replaced n.bare) ++ (n :: after).map Subtree.bare,
        before.flatMap r.noted ++ r.noted n, some name⟩ := by
  -- the walk stops at the node, and what has not been looked at is left as it is
  have h_here : r.record (n :: after) = ⟨(n :: after).map Subtree.bare, r.noted n, some name⟩ := by
    rw [record, Visit.each, look_of_refused h, Visit.also_of_failure_some h_name]
    rfl
  rw [record, Visit.each_append]
  change ((r.record before).also _ (r.record (n :: after))).map _ = _
  rw [record_of_not_refused h_before, h_here, Visit.also_of_failure_none rfl]
  rfl

/-- Nodes are refused only if there is a reference to the forbidden name among them. -/
theorem forall_not_refused_iff (h : r.attention ≠ .nothing) {nodes : List Subtree} :
    (∀ n ∈ nodes, r.refuses n = false) ↔ ∀ span id,
      Subtree.expression (.identifier span id) ∈ nodes → r.forbidden ≠ some id.name := by
  constructor
  · intro h_nodes span id h_mem h_name
    have h_refused : r.refuses (.expression (.identifier span id)) = true :=
      refuses_eq_true_iff.2 ⟨h, span, id, rfl, h_name⟩
    rw [h_nodes _ h_mem] at h_refused
    cases h_refused
  · intro h_clear n h_n
    rw [← Bool.not_eq_true, refuses_eq_true_iff]
    rintro ⟨-, span, id, rfl, h_name⟩
    exact h_clear span id h_n h_name

/-- A recorder that looks at everything notes every node. -/
theorem flatMap_noted (h : r.attention = .everything) (nodes : List Subtree) :
    nodes.flatMap r.noted = nodes.map Subtree.label := by
  have h_noted : r.noted = fun n => [n.label] := by
    funext n
    cases n <;> simp [noted, h, Subtree.label]
  rw [h_noted, List.map_eq_flatMap]

/-- A recorder that looks at nothing does nothing. -/
theorem visitProgram_of_nothing (h : r.attention = .nothing) (p : Program) :
    r.visitor.visitProgram p = ⟨p, [], none⟩ := by
  have h_refuses : ∀ n ∈ p.listing, r.refuses n = false := by
    intro n _
    rw [← Bool.not_eq_true, refuses_eq_true_iff]
    exact fun h_refused => h_refused.1 h
  have h_replaced : ∀ n, r.replaced n = n := by
    intro n
    unfold replaced
    split
    · exact if_pos h
    · rfl
  have h_noted : p.listing.flatMap r.noted = [] := by
    rw [List.flatMap_eq_nil_iff]
    intro n _
    cases n <;> simp [noted, h]
  have h_run := r.visitProgram_outline p
  rw [record_of_not_refused h_refuses] at h_run
  -- a visit is known by what it leaves, notes and fails with
  generalize r.visitor.visitProgram p = run at h_run
  obtain ⟨value, notes, failure⟩ := run
  obtain ⟨h_value, h_notes, h_failure⟩ := Visit.mk.inj h_run
  -- the outline is that of the program, so it is the program
  have h_same : value = p := by
    refine Program.outline_injective (h_value.trans ?_)
    simp only [h_replaced]
    rfl
  rw [h_same, show notes = [] by simpa [h, h_noted] using h_notes,
    show failure = none from h_failure]

/-- **A walk comes to every node once, in pre-order, and stops cleanly.** A recorder that looks at
all nodes notes them in the order of the listing. If there is no reference to the name that it looks
for, it notes all of them, and the program that it leaves differs from the given one in the
references that have been replaced. If there is one, the first is the last node noted, references
have been replaced in front of it only, and everything behind it is as it was. A recorder that looks
at nothing leaves a program as it is. -/
theorem visitProgram_stops_cleanly (replacements : List (String × String))
    (forbidden : Option String) (p : Program) :
    let r : Recorder := { replacements, forbidden }
    let run := r.visitor.visitProgram p
    let isClear (nodes : List Subtree) : Prop := ∀ span id,
      Subtree.expression (.identifier span id) ∈ nodes → forbidden ≠ some id.name
    (isClear p.listing →
      run.notes = .program :: p.listing.map Subtree.label ∧
      run.failure = none ∧
      run.value.outline = (p.bare, p.listing.map fun n => r.replaced n.bare)) ∧
    (¬isClear p.listing →
      ∃ before span id after,
        p.listing = before ++ .expression (.identifier span id) :: after ∧
        isClear before ∧ forbidden = some id.name ∧
        run.notes = .program :: (before.map Subtree.label ++ [.reference id.name]) ∧
        run.failure = some id.name ∧
        run.value.outline = (p.bare, before.map (fun n => r.replaced n.bare) ++
          (.expression (.identifier span id) :: after).map Subtree.bare)) ∧
    (Recorder.mk .nothing replacements forbidden).visitor.visitProgram p = ⟨p, [], none⟩ := by
  intro r run isClear
  -- there is something to refuse exactly if the forbidden name is referred to
  have h_clear (nodes : List Subtree) : (∀ n ∈ nodes, r.refuses n = false) ↔ isClear nodes :=
    forall_not_refused_iff Attention.noConfusion
  have h_run := r.visitProgram_outline p
  have h_value : run.value.outline =
      (p.bare, (r.record p.listing).value) := congrArg Visit.value h_run
  have h_notes : run.notes = .program :: (r.record p.listing).notes := congrArg Visit.notes h_run
  have h_failure : run.failure = (r.record p.listing).failure := congrArg Visit.failure h_run
  refine ⟨fun h_none => ?_, fun h_some => ?_, visitProgram_of_nothing rfl p⟩
  · rw [h_value, h_notes, h_failure, record_of_not_refused ((h_clear _).2 h_none),
      flatMap_noted rfl]
    exact ⟨rfl, rfl, rfl⟩
  · rw [← h_clear] at h_some
    -- the listing is cut at the first node that is refused
    obtain ⟨n, h_find⟩ : ∃ n, p.listing.find? r.refuses = some n := by
      rw [← Option.isSome_iff_exists, List.find?_isSome]
      simpa using h_some
    obtain ⟨h_refused, before, after, h_listing, h_before⟩ := List.find?_eq_some_iff_append.1 h_find
    obtain ⟨-, span, id, rfl, h_name⟩ := refuses_eq_true_iff.1 h_refused
    have h_before : ∀ n ∈ before, r.refuses n = false := fun n h_n => by simpa using h_before n h_n
    refine ⟨before, span, id, after, h_listing, (h_clear _).1 h_before, h_name, ?_⟩
    rw [h_value, h_notes, h_failure, h_listing, record_of_refused h_before h_refused h_name,
      flatMap_noted rfl]
    exact ⟨rfl, rfl, rfl⟩

/-- In `a; stop; a;` the first `a` is replaced and the second is not come to. Without a name to stop
at, the walk goes through `a[k]; ({ [k]: a, k: [, a] });` and replaces `a` in every place but where
it is a key. -/
theorem visitProgram_stops_cleanly_twice :
    let name (n : String) : Expression := .identifier (.at 1 0 1) ⟨n, false⟩
    let line (n : String) : Statement := .expression {} (name n)
    let stopped := (Recorder.mk .everything [("a", "z")] (some "stop")).visitor.visitProgram
      ⟨[line "a", line "stop", line "a"], .synthetic⟩
    let through := (Recorder.mk .everything [("a", "z")] none).visitor.visitProgram
      ⟨[.expression {} (.index .synthetic (name "a") (name "k")),
        .expression {} (.object .synthetic [.computed (name "k") (name "a"),
          .named ⟨"a", false⟩ (.array .synthetic [none, some (name "a")])])], .synthetic⟩
    stopped = ⟨⟨[.expression {} (Synthetic.name "z"), line "stop", line "a"], .synthetic⟩,
      [.program, .statement "Expression", .reference "a", .statement "Expression",
        .reference "stop"], some "stop"⟩ ∧
    through = ⟨⟨[.expression {} (.index .synthetic (Synthetic.name "z") (name "k")),
        .expression {} (.object .synthetic [.computed (name "k") (Synthetic.name "z"),
          .named ⟨"a", false⟩ (.array .synthetic [none, some (Synthetic.name "z")])])], .synthetic⟩,
      [.program, .statement "Expression", .expression "Member", .reference "a", .reference "k",
        .statement "Expression", .expression "Object", .reference "k", .reference "a",
        .expression "Array", .reference "a"], none⟩ := by
  intro name line stopped through
  have h_visit {run : Visit Label String Program} {q : Program} {notes : List Label}
      {failure : Option String} (h_notes : run.notes = notes) (h_failure : run.failure = failure)
      (h_value : run.value.outline = q.outline) : run = ⟨q, notes, failure⟩ := by
    rw [← h_notes, ← h_failure, ← Program.outline_injective h_value]
  refine ⟨?_, ?_⟩
  · obtain ⟨-, h_stopped, -⟩ := visitProgram_stops_cleanly [("a", "z")] (some "stop")
      ⟨[line "a", line "stop", line "a"], .synthetic⟩
    obtain ⟨before, span, id, after, h_listing, h_before, h_name, h_notes, h_failure, h_value⟩ :=
      h_stopped fun h_clear =>
        h_clear (.at 1 0 1) ⟨"stop", false⟩ (List.mem_of_getElem? (i := 3) rfl) rfl
    change [Subtree.statement (line "a"), .expression (name "a"), .statement (line "stop"),
      .expression (name "stop"), .statement (line "a"), .expression (name "a")] = _ at h_listing
    -- there are three nodes in front of the one to stop at
    rcases before with _ | ⟨_, _ | ⟨_, _ | ⟨_, _ | ⟨fourth, before⟩⟩⟩⟩
    · cases h_listing
    · cases h_listing
      exact absurd h_name (by decide)
    · cases h_listing
    · cases h_listing
      exact h_visit h_notes h_failure h_value
    · obtain ⟨-, -, -, rfl, -⟩ : _ ∧ _ ∧ _ ∧ .expression (name "stop") = fourth ∧ _ := by
        simpa only [List.cons_append, List.cons.injEq] using h_listing
      exact absurd rfl (h_before (.at 1 0 1) ⟨"stop", false⟩ (by simp [name]))
  · obtain ⟨h_through, -, -⟩ := visitProgram_stops_cleanly [("a", "z")] none
      ⟨[.expression {} (.index .synthetic (name "a") (name "k")),
        .expression {} (.object .synthetic [.computed (name "k") (name "a"),
          .named ⟨"a", false⟩ (.array .synthetic [none, some (name "a")])])], .synthetic⟩
    obtain ⟨h_notes, h_failure, h_value⟩ := h_through fun _ _ _ h_name => by cases h_name
    exact h_visit h_notes h_failure h_value

end Recorder

end AsyncMarkers
