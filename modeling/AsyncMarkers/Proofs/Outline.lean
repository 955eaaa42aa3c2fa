import AsyncMarkers.Proofs.Subtree

/-!
# Outlines

The listing of a tree repeats what stands below a node at the node and at all nodes above it, so a
tree that has been changed in one place has a listing that differs in many. In the *outline* of a
tree each node is listed *bare*, with a blank in the place of each part (`Subtree.bare`). A change
of one node is then a change of one entry.

Nothing is lost by that: a bare node still says how many parts there are and where they go, so that
an outline can be read in one way only, as with terms in prefix form (`Subtree.outline_readable`).
Two programs with the same outline are the same (`Program.outline_injective`).
-/

namespace AsyncMarkers

/-- The map that puts the same blank in the place of every node of a kind. -/
def NodeMap.blank : NodeMap :=
  ⟨fun _ => .empty {}, fun _ => .block ⟨none, [], .synthetic⟩ [], fun _ => .this .synthetic⟩

/-- A node without what stands in its parts. -/
def Subtree.bare (t : Subtree) : Subtree := t.mapParts .blank

/-- The bare nodes of a tree, in pre-order. -/
def Subtree.outline (t : Subtree) : List Subtree := t.listing.map bare

/-- A program without what stands in its statements. -/
def Program.bare (p : Program) : Program := ⟨p.body.map NodeMap.blank.statement, p.span⟩

/-- The bare program, and its bare nodes in pre-order. -/
def Program.outline (p : Program) : Program × List Subtree := (p.bare, p.listing.map Subtree.bare)

/-- The outline of a tree is the bare node on top and then the outlines of the parts. -/
theorem Subtree.outline_eq (t : Subtree) : t.outline = t.bare :: t.parts.flatMap outline := by
  unfold outline
  rw [listing_eq, List.map_cons, List.map_flatMap]

/-- The outline of a program is the bare program and then the outlines of its statements. -/
theorem Program.outline_eq (p : Program) :
    p.outline = (p.bare, (p.body.map .statement).flatMap Subtree.outline) := by
  rw [outline, listing_eq, List.map_flatMap]
  rfl

/-! ### A node is its bare form and its parts -/

/-- Lists are the same if their members are, as far as these can be told apart by what is put in
their place and by what is left out. -/
theorem eq_of_map_of_flatMap {α β γ : Type} {f : α → β} {g : α → List γ}
    (h_length : ∀ a a', f a = f a' → (g a).length = (g a').length)
    (h_eq : ∀ a a', f a = f a' → g a = g a' → a = a') {as as' : List α}
    (h_map : as.map f = as'.map f) (h_flatMap : as.flatMap g = as'.flatMap g) : as = as' := by
  induction as generalizing as' with
  | nil => exact (List.map_eq_nil_iff.1 h_map.symm).symm
  | cons a as ih =>
    obtain ⟨a', as', rfl, h_first, h_rest⟩ := List.map_eq_cons_iff.1 h_map.symm
    rw [List.flatMap_cons, List.flatMap_cons] at h_flatMap
    -- what is left out of the first member ends at the same place on both sides
    obtain ⟨h_same, h_more⟩ := List.append_inj h_flatMap (h_length a a' h_first.symm)
    rw [h_eq a a' h_first.symm h_same, ih h_rest.symm h_more]

/-- An expression that may be missing is there in both or in neither, if the blanks are the same. -/
theorem optionalParts_length {e e' : Option Expression}
    (h : e.map NodeMap.blank.expression = e'.map NodeMap.blank.expression) :
    (optionalParts e).length = (optionalParts e').length := by
  cases e <;> cases e' <;> first | rfl | cases h

/-- An expression that may be missing can be told from its part. -/
theorem optionalParts_inj {e e' : Option Expression} :
    optionalParts e = optionalParts e' ↔ e = e' := by
  cases e <;> cases e' <;> simp [optionalParts]

/-- So can a branch that may be missing. -/
theorem branchParts_inj {s s' : Option Statement} :
    branchParts s = branchParts s' ↔ s = s' := by
  cases s <;> cases s' <;> simp [branchParts]

/-- Expressions can be told from the nodes that they are. -/
theorem map_expression_inj {es es' : List Expression} :
    es.map Subtree.expression = es'.map Subtree.expression ↔ es = es' :=
  List.map_inj_right fun _ _ h => Subtree.expression.inj h

/-- So can statements. -/
theorem map_statement_inj {ss ss' : List Statement} :
    ss.map Subtree.statement = ss'.map Subtree.statement ↔ ss = ss' :=
  List.map_inj_right fun _ _ h => Subtree.statement.inj h

/-- The elements of an array are known by where there are some and by what these are. -/
theorem eq_of_elements {es es' : List (Option Expression)}
    (h : es.map (Option.map NodeMap.blank.expression) =
      es'.map (Option.map NodeMap.blank.expression))
    (h_parts : es.flatMap optionalParts = es'.flatMap optionalParts) : es = es' :=
  eq_of_map_of_flatMap (fun _ _ h_same => optionalParts_length h_same)
    (fun _ _ _ h_same => optionalParts_inj.1 h_same) h h_parts

/-- The properties of an object are known by their keys and by what their values are. -/
theorem eq_of_properties {ps ps' : List Property}
    (h : ps.map (Property.mapParts .blank) = ps'.map (Property.mapParts .blank))
    (h_parts : ps.flatMap Property.parts = ps'.flatMap Property.parts) : ps = ps' := by
  refine eq_of_map_of_flatMap ?_ ?_ h h_parts
  · -- keys that are computed are parts as well, so the bare property says how many parts there are
    intro p p' h_same
    cases p <;> cases p' <;> first | rfl | cases h_same
  · intro p p' h_same h_value
    cases p <;> cases p' <;>
      simp_all [Property.mapParts, Property.parts]

/-- Declarations of variables are known by their names and by their initial values. -/
theorem eq_of_declarators {ds ds' : List Declarator}
    (h : ds.map (Declarator.mapParts .blank) = ds'.map (Declarator.mapParts .blank))
    (h_parts : ds.flatMap Declarator.parts = ds'.flatMap Declarator.parts) : ds = ds' := by
  refine eq_of_map_of_flatMap ?_ ?_ h h_parts
  · rintro ⟨id, init⟩ ⟨id', init'⟩ h_same
    simp only [Declarator.mapParts, Declarator.mk.injEq] at h_same
    exact optionalParts_length h_same.2
  · rintro ⟨id, init⟩ ⟨id', init'⟩ h_same h_init
    simp only [Declarator.mapParts, Declarator.mk.injEq] at h_same
    rw [h_same.1, optionalParts_inj.1 h_init]

/-- A statement is known by its bare form and its parts. -/
theorem Statement.eq_of_parts {s s' : Statement} (h : s.mapParts .blank = s'.mapParts .blank)
    (h_parts : s.parts = s'.parts) : s = s' := by
  cases s <;> cases s' <;> simp only [Statement.mapParts, reduceCtorEq] at h
  -- declarations hold their parts in a list of things that are no nodes themselves
  case variables.variables info kind declarators info' kind' declarators' =>
    obtain ⟨h_info, h_kind, h_declarators⟩ := Statement.variables.inj h
    rw [h_info, h_kind, eq_of_declarators h_declarators h_parts]
  all_goals simp_all [Statement.parts, optionalParts_inj, branchParts_inj, map_statement_inj]

/-- A function is known by its bare form and its parts. -/
theorem Function.eq_of_parts {f f' : Function} (h : f.mapParts .blank = f'.mapParts .blank)
    (h_parts : f.parts = f'.parts) : f = f' := by
  cases f <;> cases f' <;> simp_all [Function.mapParts, Function.parts, map_statement_inj]

/-- An expression is known by its bare form and its parts. -/
theorem Expression.eq_of_parts {e e' : Expression} (h : e.mapParts .blank = e'.mapParts .blank)
    (h_parts : e.parts = e'.parts) : e = e' := by
  cases e <;> cases e' <;> simp only [Expression.mapParts, reduceCtorEq] at h
  -- so do the elements of an array and the properties of an object
  case array.array s elements s' elements' =>
    obtain ⟨h_span, h_elements⟩ := Expression.array.inj h
    rw [h_span, eq_of_elements h_elements h_parts]
  case object.object s properties s' properties' =>
    obtain ⟨h_span, h_properties⟩ := Expression.object.inj h
    rw [h_span, eq_of_properties h_properties h_parts]
  all_goals simp_all [Expression.parts, map_expression_inj]

namespace Subtree

variable {t u : Subtree}

/-- Two nodes are the same if their bare forms and their parts are. -/
theorem eq_of_bare (h : t.bare = u.bare) (h_parts : t.parts = u.parts) : t = u := by
  cases t <;> cases u <;> simp only [bare, mapParts, reduceCtorEq] at h
  case statement.statement s s' =>
    rw [Statement.eq_of_parts (Subtree.statement.inj h) h_parts]
  case function.function f f' =>
    rw [Function.eq_of_parts (Subtree.function.inj h) h_parts]
  case expression.expression e e' =>
    rw [Expression.eq_of_parts (Subtree.expression.inj h) h_parts]

/-- The bare form of a node says how many parts there are. -/
theorem length_parts_of_bare (h : t.bare = u.bare) : t.parts.length = u.parts.length := by
  have h_blank := congrArg (fun n => n.parts.length) h
  simpa only [bare, parts_mapParts, List.length_map] using h_blank

/-! ### Outlines can be read in one way -/

/-- Outlines in a row can be read in one way if each of them can, whatever stands behind it. -/
theorem outlines_readable {ts us : List Subtree}
    (h_each : ∀ t ∈ ts, ∀ u rest rest',
      t.outline ++ rest = u.outline ++ rest' → t = u ∧ rest = rest')
    (h_length : ts.length = us.length) {rest rest' : List Subtree}
    (h : ts.flatMap outline ++ rest = us.flatMap outline ++ rest') : ts = us ∧ rest = rest' := by
  -- the induction is on the outlines in the row, and their number is known
  induction ts generalizing us with
  | nil =>
    obtain rfl := List.length_eq_zero_iff.1 h_length.symm
    exact ⟨rfl, h⟩
  | cons t ts ih =>
    obtain ⟨u, us, rfl⟩ := List.exists_cons_of_length_eq_add_one h_length.symm
    rw [List.forall_mem_cons] at h_each
    rw [List.flatMap_cons, List.flatMap_cons, List.append_assoc, List.append_assoc] at h
    -- the first outline ends at the same place on both sides, and so do the others
    obtain ⟨rfl, h_more⟩ := h_each.1 u _ _ h
    obtain ⟨rfl, h_rest⟩ := ih h_each.2 (Nat.succ.inj h_length) h_more
    exact ⟨rfl, h_rest⟩

/-- An outline says where it ends and what tree it is of. -/
theorem outline_readable (t : Subtree) :
    ∀ u rest rest', t.outline ++ rest = u.outline ++ rest' → t = u ∧ rest = rest' := by
  induction t using parts_induction with
  | step t ih =>
    intro u rest rest' h
    rw [outline_eq, outline_eq, List.cons_append, List.cons_append] at h
    obtain ⟨h_bare, h_rest⟩ := List.cons.inj h
    -- the node in front tells how many outlines of parts follow
    obtain ⟨h_parts, h_behind⟩ := outlines_readable ih (length_parts_of_bare h_bare) h_rest
    exact ⟨eq_of_bare h_bare h_parts, h_behind⟩

end Subtree

/-- A program can be read off its outline. -/
theorem Program.outline_injective {p q : Program} (h : p.outline = q.outline) : p = q := by
  rw [outline_eq, outline_eq] at h
  obtain ⟨h_bare, h_nodes⟩ := Prod.mk.inj h
  obtain ⟨h_body, h_span⟩ := Program.mk.inj h_bare
  -- the bare programs tell how many statements there are
  have h_length : (p.body.map Subtree.statement).length =
      (q.body.map Subtree.statement).length := by
    simpa using congrArg List.length h_body
  obtain ⟨h_statements, -⟩ := Subtree.outlines_readable (fun t _ => t.outline_readable) h_length
    (congrArg (· ++ []) h_nodes)
  obtain ⟨body, span⟩ := p
  obtain ⟨body', span'⟩ := q
  rw [show span = span' from h_span, show body = body' from map_statement_inj.1 h_statements]

end AsyncMarkers
