import AsyncMarkers.Proofs.Tour

/-!
# What a tour leaves behind

An item that is a directory has an output directory made for it, and nothing else changes. An item
that is a file is counted, and what is written for it are its output and a copy of what that
overwrites (`Batch.Handles.written`). So a file that is new after a tour is the output, or a copy of
one, of a file that the tour has come to (`Batch.HandlesAll.appears`), and no output directory or
file is where another item wants to write unless the names are the same.
-/

namespace AsyncMarkers

namespace Batch

variable {b : Batch} {v : Item} {items : List Item} {st st' : Progress × Disk} {r : Route}

/-! ### Directories -/

/-- For a directory nothing but its output directory is made. -/
theorem Handles.adds (h : b.Handles v st st') (h_kind : v.isDirectory = true) :
    st.2.Adds st'.2 := by
  -- the directory has been there, or it has been made
  obtain ⟨-, ⟨h_same, -⟩ | ⟨-, -, h_none, h_get⟩⟩ :=
    makeOutput_eq_ok h.stands h.isName (h.entered h_kind)
  · rw [h_same]
    exact .refl _
  · intro r
    rw [h_get]
    split
    · next h_here =>
      rw [h_here]
      exact .inr ⟨h_none, rfl⟩
    · exact .inl rfl

/-- Directories are not counted with the files, and neither are they errors. -/
theorem Handles.summary_of_directory (h : b.Handles v st st') (h_kind : v.isDirectory = true) :
    st'.1.session = st.1.session ∧
      st'.1.summary.processed = st.1.summary.processed ∧
      st'.1.summary.errors = st.1.summary.errors := by
  obtain ⟨-, ⟨-, h_same⟩ | ⟨-, h_made, -⟩⟩ :=
    makeOutput_eq_ok h.stands h.isName (h.entered h_kind)
  · rw [h_same]
    exact ⟨rfl, rfl, rfl⟩
  · rw [h_made]
    exact ⟨rfl, rfl, List.append_nil _⟩

/-! ### Files -/

/-- The line for a file that has failed. -/
def errorLine (source : Path) (e : BatchError) : String :=
  "Error processing " ++ source.text ++ ": " ++ e.message

/-- What is done for a file. -/
theorem Handles.of_file (h : b.Handles v st st') (h_kind : v.isDirectory = false) :
    ∃ g : Progress, st.1.session.SameSetup g.session ∧ g.summary = st.1.summary ∧
      st' =
        match outcome st.1.session st.2 v.path with
        | .error e => (g.fail v.path e, st.2)
        | .ok output =>
          match b.store Disk.fileSystem (v.target b) output.program.encode.pretty st.2 with
          | (.error e, d') => (g.fail v.path (.io e), d')
          | (.ok (), d') => (g.add (.ofFile output.summary), d') := by
  obtain ⟨g, h_setup, h_summary, h_entry⟩ :=
    transformEntry_eq (b := b) v.path (v.target b) st.1 st.2
  rw [(h.transformed h_kind).2] at h_entry
  exact ⟨g, h_setup, h_summary, h_entry⟩

/-- Every file counts as processed, whatever comes of it. -/
theorem Handles.processed_of_file (h : b.Handles v st st') (h_kind : v.isDirectory = false) :
    st.1.session.SameSetup st'.1.session ∧
      st'.1.summary.processed = st.1.summary.processed + 1 := by
  obtain ⟨g, h_setup, h_summary, h_after⟩ := h.of_file h_kind
  rw [h_after, ← h_summary]
  split
  · exact ⟨h_setup, rfl⟩
  · split
    · exact ⟨h_setup, rfl⟩
    · exact ⟨h_setup, rfl⟩

/-- A file whose tree can not be read or transformed leaves a line and nothing else. -/
theorem Handles.of_error (h : b.Handles v st st') (h_kind : v.isDirectory = false) {e : BatchError}
    (h_outcome : outcome st.1.session st.2 v.path = .error e) :
    st'.2 = st.2 ∧ st'.1.summary.errors = st.1.summary.errors ++ [errorLine v.path e] := by
  obtain ⟨g, -, h_summary, h_after⟩ := h.of_file h_kind
  rw [h_after, ← h_summary, h_outcome]
  exact ⟨rfl, rfl⟩

/-- A file whose tree has been transformed leaves its output. -/
theorem Handles.of_ok (h : b.Handles v st st') (h_kind : v.isDirectory = false) {output : Output}
    (h_outcome : outcome st.1.session st.2 v.path = .ok output) {d' : Disk}
    (h_store : b.store Disk.fileSystem (v.target b) output.program.encode.pretty st.2 =
      (.ok (), d')) :
    st'.2 = d' ∧ st'.1.summary.errors = st.1.summary.errors := by
  obtain ⟨g, -, h_summary, h_after⟩ := h.of_file h_kind
  rw [h_after, ← h_summary, h_outcome]
  dsimp only
  rw [h_store]
  exact ⟨rfl, List.append_nil _⟩

/-- For a file, the output is written and what it overwrites is copied, and nothing else. -/
theorem Handles.written (h_extension : '/' ∉ b.outputExtension.toList) (h : b.Handles v st st')
    (h_kind : v.isDirectory = false) :
    Disk.Written (b.Writes v.output (b.outputName v.name)) st.2 st'.2 := by
  obtain ⟨g, -, -, h_after⟩ := h.of_file h_kind
  rw [h_after]
  -- nothing is written unless there is an output, and a write that fails changes no more
  cases outcome st.1.session st.2 v.path with
  | error e => exact .refl _ _
  | ok output =>
    have h_store : Disk.Written (b.Writes v.output (b.outputName v.name)) st.2
        (b.store Disk.fileSystem (v.target b) output.program.encode.pretty st.2).2 := by
      rw [Item.target, outputPath_eq h.isName h_extension]
      exact written_store h.stands (isName_outputName h.isName h_extension) _
    dsimp only
    generalize b.store Disk.fileSystem (v.target b) output.program.encode.pretty st.2 = stored
      at h_store ⊢
    obtain ⟨e | ⟨⟩, d'⟩ := stored <;> exact h_store

section Visits

variable {directory output : Path} {name : String} {g : Progress} {d d' : Disk}
  (h_kind : d.isDirectory (directory.child name) = false)
  (h_accepts : b.accepts (directory.child name) = true)

include h_kind h_accepts

/-- A visit to a file with an output stores it and adds the summary of the file. -/
theorem visitName_of_ok {o : Output}
    (h_outcome : outcome g.session d (directory.child name) = .ok o)
    (h_store : b.store Disk.fileSystem (b.outputPath output name) o.program.encode.pretty d =
      (.ok (), d')) (levels : Nat) :
    ∃ g', b.visitName levels directory output name g d = ((.ok (), g'), d') ∧
      g.session.SameSetup g'.session ∧ g'.summary = g.summary.merge (.ofFile o.summary) := by
  obtain ⟨g', h_setup, h_summary, h_entry⟩ :=
    transformEntry_eq (b := b) (directory.child name) (b.outputPath output name) g d
  refine ⟨g'.add (.ofFile o.summary), ?_, h_setup, ?_⟩
  · rw [visitName_of_file h_kind, if_pos h_accepts, h_entry, h_outcome]
    dsimp only
    rw [h_store]
  · rw [← h_summary]
    rfl

/-- A visit to a file without an output adds a line, and the visit does not fail. -/
theorem visitName_of_error {e : BatchError}
    (h_outcome : outcome g.session d (directory.child name) = .error e) (levels : Nat)
    (output : Path) :
    ∃ g', b.visitName levels directory output name g d = ((.ok (), g'), d) ∧
      g.session.SameSetup g'.session ∧
      g'.summary = g.summary.merge
        { processed := 1, errors := [errorLine (directory.child name) e] } := by
  obtain ⟨g', h_setup, h_summary, h_entry⟩ :=
    transformEntry_eq (b := b) (directory.child name) (b.outputPath output name) g d
  refine ⟨g'.fail (directory.child name) e, ?_, h_setup, ?_⟩
  · rw [visitName_of_file h_kind, if_pos h_accepts, h_entry, h_outcome]
  · rw [← h_summary]
    rfl

end Visits

/-! ### All items -/

/-- A tour changes nothing of a session but statistics. -/
theorem HandlesAll.sameSetup (h : b.HandlesAll items st st') :
    st.1.session.SameSetup st'.1.session := by
  induction h with
  | nil st => exact ⟨st.1.session.statistics, rfl⟩
  | @cons v items st st₁ st' first rest ih =>
    cases h_kind : v.isDirectory with
    | true =>
      rw [← (first.summary_of_directory h_kind).1]
      exact ih
    | false => exact (first.processed_of_file h_kind).1.trans ih

/-- Files are counted, and directories are not. -/
theorem HandlesAll.processed (h : b.HandlesAll items st st') :
    st'.1.summary.processed = st.1.summary.processed + items.countP (!·.isDirectory) := by
  induction h with
  | nil st => rfl
  | @cons v items st st₁ st' first rest ih =>
    rw [ih, List.countP_cons]
    -- a file counts one, and a directory nothing
    cases h_kind : v.isDirectory with
    | true =>
      rw [(first.summary_of_directory h_kind).2.1]
      simp
    | false =>
      rw [(first.processed_of_file h_kind).2]
      simp
      omega

/-- What no file is written to stays the same, unless a directory is made there. -/
theorem HandlesAll.kept (h_extension : '/' ∉ b.outputExtension.toList)
    (h : b.HandlesAll items st st')
    (h_others : ∀ v ∈ items, v.isDirectory = false →
      ¬b.Writes v.output (b.outputName v.name) r)
    (h_end : st'.2.get? r ≠ some .directory) : st'.2.get? r = st.2.get? r := by
  induction h with
  | nil st => rfl
  | @cons v items st st₁ st' first rest ih =>
    obtain ⟨h_first, h_rest⟩ := List.forall_mem_cons.1 h_others
    rw [ih h_rest h_end]
    cases h_kind : v.isDirectory with
    | true =>
      -- a directory that has been made would still be there at the end
      rcases first.adds h_kind r with h_same | ⟨-, h_directory⟩
      · exact h_same
      · exact absurd (rest.grows.directories r h_directory) h_end
    | false =>
      -- for a file, only its output and the copy are written
      rcases first.written h_extension h_kind r with h_same | ⟨h_writes, -⟩
      · exact h_same
      · exact absurd h_writes (h_first h_kind)

/-- A file that is new has been written for a file that the tour has come to. -/
theorem HandlesAll.appears (h_extension : '/' ∉ b.outputExtension.toList)
    (h : b.HandlesAll items st st') (h_none : st.2.get? r = none) {content : ByteArray}
    (h_file : st'.2.get? r = some (.file content)) :
    ∃ v ∈ items, v.isDirectory = false ∧ b.Writes v.output (b.outputName v.name) r := by
  refine Classical.byContradiction fun h_nobody => ?_
  -- there would still be nothing
  have h_kept := h.kept (r := r) h_extension
    (fun v h_v h_kind h_writes => h_nobody ⟨v, h_v, h_kind, h_writes⟩) (by simp [h_file])
  rw [h_file, h_none] at h_kept
  cases h_kept

end Batch

end AsyncMarkers
