import AsyncMarkers.Disk.Tree

/-!
# Well-formed trees of files

In a well-formed tree, no directory holds the same name twice, and every name can be a segment of a
path. Whether a tree is well-formed can be decided (`FileTree.isWellFormed_iff`), everything that
stands in a well-formed tree is well-formed (`FileTree.WellFormed.of_get?`), and a tree stays so
when something well-formed is put into it (`FileTree.WellFormed.put`).
-/

namespace AsyncMarkers

/-- Whether something can stand in a directory under a name. -/
structure IsName (name : String) : Prop where
  ne_empty : name ≠ ""
  ne_dot : name ≠ "."
  ne_up : name ≠ ".."
  no_slash : '/' ∉ name.toList

/-- The conditions on a name, one after the other. -/
theorem isName_iff {name : String} :
    IsName name ↔ name ≠ "" ∧ name ≠ "." ∧ name ≠ ".." ∧ '/' ∉ name.toList :=
  ⟨fun h => ⟨h.ne_empty, h.ne_dot, h.ne_up, h.no_slash⟩,
    fun ⟨h_empty, h_dot, h_up, h_slash⟩ => ⟨h_empty, h_dot, h_up, h_slash⟩⟩

instance (name : String) : Decidable (IsName name) := decidable_of_iff' _ isName_iff

namespace FileTree

/-- Whether all directories of a tree hold proper names, each once. -/
inductive WellFormed : FileTree → Prop
  | file (content : ByteArray) : WellFormed (.file content)
  | directory {entries : List (String × FileTree)} (nodup : (entries.map Prod.fst).Nodup)
      (names : ∀ e ∈ entries, IsName e.1) (below : ∀ e ∈ entries, WellFormed e.2) :
      WellFormed (.directory entries)

mutual

/-- The same as a check. -/
def isWellFormed : FileTree → Bool
  | .file _ => true
  | .directory entries => decide (entries.map Prod.fst).Nodup && areWellFormed entries

/-- The check for the entries of a directory, each by itself. -/
def areWellFormed : List (String × FileTree) → Bool
  | [] => true
  | (name, t) :: entries => decide (IsName name) && t.isWellFormed && areWellFormed entries

end

/-- The check for entries looks at the name and the tree of each. -/
theorem areWellFormed_iff {entries : List (String × FileTree)} :
    areWellFormed entries = true ↔ ∀ e ∈ entries, IsName e.1 ∧ e.2.isWellFormed = true := by
  induction entries with
  | nil => simp [areWellFormed]
  | cons e entries ih =>
    rw [areWellFormed, Bool.and_eq_true, Bool.and_eq_true, decide_eq_true_eq, ih,
      List.forall_mem_cons]

/-- The check for a directory looks at its entries, and whether their names differ. -/
theorem isWellFormed_directory_iff {entries : List (String × FileTree)} :
    (directory entries).isWellFormed = true ↔
      (entries.map Prod.fst).Nodup ∧ ∀ e ∈ entries, IsName e.1 ∧ e.2.isWellFormed = true := by
  rw [isWellFormed, Bool.and_eq_true, decide_eq_true_eq, areWellFormed_iff]

mutual

/-- A tree that passes the check is well-formed. -/
theorem wellFormed_of_check : ∀ {t : FileTree}, t.isWellFormed = true → t.WellFormed
  | .file content, _ => .file content
  | .directory _, h =>
    have h_entries := isWellFormed_directory_iff.1 h
    .directory h_entries.1 (fun e h_e => (h_entries.2 e h_e).1)
      (wellFormed_of_checks fun e h_e => (h_entries.2 e h_e).2)

/-- So are the trees that a directory holds. -/
theorem wellFormed_of_checks : ∀ {entries : List (String × FileTree)},
    (∀ e ∈ entries, e.2.isWellFormed = true) → ∀ e ∈ entries, e.2.WellFormed
  | [], _ => by simp
  | (_, _) :: _, h =>
    have h_both := List.forall_mem_cons.1 h
    List.forall_mem_cons.2 ⟨wellFormed_of_check h_both.1, wellFormed_of_checks h_both.2⟩

end

/-- The check finds out whether a tree is well-formed. -/
theorem isWellFormed_iff {t : FileTree} : t.isWellFormed = true ↔ t.WellFormed := by
  refine ⟨wellFormed_of_check, fun h => ?_⟩
  induction h with
  | file content => rfl
  | directory nodup names below ih =>
    exact isWellFormed_directory_iff.2 ⟨nodup, fun e h_e => ⟨names e h_e, ih e h_e⟩⟩

instance (t : FileTree) : Decidable t.WellFormed := decidable_of_iff _ isWellFormed_iff

/-- A file by itself is well-formed, and so is an empty directory. -/
theorem wellFormed_ofEntry (e : Entry) : (ofEntry e).WellFormed := by
  cases e with
  | file content => exact .file content
  | directory => exact .directory (by simp) (by simp) (by simp)

/-- What is found under a name is an entry of the directory. -/
theorem mem_of_lookup {entries : List (String × FileTree)} {name : String} {t : FileTree}
    (h : entries.lookup name = some t) : (name, t) ∈ entries := by
  obtain ⟨before, after, h_entries, -⟩ := List.lookup_eq_some_iff.1 h
  simp [h_entries]

/-- What stands in a well-formed tree is well-formed, and the names on the way to it are proper. -/
theorem WellFormed.of_get? {r : Route} {t t' : FileTree} (h : t.WellFormed)
    (h_get : get? r t = some t') : t'.WellFormed ∧ ∀ name ∈ r, IsName name := by
  induction r generalizing t with
  | nil =>
    cases h_get
    exact ⟨h, by simp⟩
  | cons name r ih =>
    cases h with
    | file content => cases h_get
    | directory nodup names below =>
      obtain ⟨next, h_next, h_rest⟩ := Option.bind_eq_some_iff.1 h_get
      have h_mem := mem_of_lookup h_next
      obtain ⟨h_tree, h_names⟩ := ih (below _ h_mem) h_rest
      exact ⟨h_tree, List.forall_mem_cons.2 ⟨names _ h_mem, h_names⟩⟩

/-- Putting a well-formed tree somewhere keeps a tree well-formed. -/
theorem WellFormed.put {new : FileTree} (h_new : new.WellFormed) {r : Route}
    (h_route : ∀ name ∈ r, IsName name) {t : Option FileTree} (h : ∀ t' ∈ t, t'.WellFormed) :
    ∀ t' ∈ put new r t, t'.WellFormed := by
  induction r generalizing t with
  | nil =>
    rintro _ ⟨⟩
    exact h_new
  | cons name r ih =>
    obtain ⟨h_name, h_rest⟩ := List.forall_mem_cons.1 h_route
    -- nothing can be put below a file, or where nothing is
    rcases t with _ | content | entries
    · exact h
    · exact h
    · rintro _ ⟨⟩
      cases h _ rfl with
      | directory nodup names below =>
        -- the other entries stay as they are, and the new one comes before them
        have h_others : ∀ e ∈ entries.filter (·.1 ≠ name), e ∈ entries ∧ e.1 ≠ name := by
          intro e h_e
          simpa using h_e
        have h_nodup : ((entries.filter (·.1 ≠ name)).map Prod.fst).Nodup :=
          nodup.sublist (List.filter_sublist.map _)
        have h_below : ∀ t' ∈ FileTree.put new r (entries.lookup name), t'.WellFormed := by
          refine ih h_rest fun t' h_t' => ?_
          exact below _ (mem_of_lookup h_t')
        unfold alter
        dsimp only
        split
        · next t' h_change =>
          refine .directory ?_ ?_ ?_
          · rw [List.map_cons, List.nodup_cons]
            refine ⟨fun h_mem => ?_, h_nodup⟩
            obtain ⟨e, h_e, h_same⟩ := List.mem_map.1 h_mem
            exact (h_others e h_e).2 h_same
          · exact List.forall_mem_cons.2 ⟨h_name, fun e h_e => names e (h_others e h_e).1⟩
          · exact List.forall_mem_cons.2
              ⟨h_below _ h_change, fun e h_e => below e (h_others e h_e).1⟩
        · exact .directory h_nodup (fun e h_e => names e (h_others e h_e).1)
            fun e h_e => below e (h_others e h_e).1

end FileTree

end AsyncMarkers
