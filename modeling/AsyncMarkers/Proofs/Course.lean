import AsyncMarkers.Proofs.Bookkeeping
import AsyncMarkers.Proofs.Independence

/-!
# The course of a run over a directory

A tour is what a run has done that did not fail. What is said here holds of every run, also of one
that ends with an error: until then it has made calls, and between the calls it has made directories
and nothing else (`Batch.Course`). A call changes its target if it succeeds, and the copy of what
the target held (`Batch.Call.Touches`), so a file that no call touches stays as it is
(`Batch.Course.kept`).

The calls are for different files, and each of them has its target where the names that lead to the
file lead from the output directory (`Batch.Ran`).
-/

namespace AsyncMarkers

namespace Batch

variable {b : Batch} {source target directory output p : Path} {name text : String}
  {names found : List String} {d d₁ d' : Disk} {r : Route} {c : Call} {calls calls' : List Call}

/-! ### What a call changes -/

/-- A copy that fails leaves the disk as it is. -/
theorem keep_of_error {e : IoError} (h : b.keep Disk.fileSystem p d = (.error e, d₁)) : d₁ = d := by
  have h_present : Disk.fileSystem.isPresent p d = (d.isPresent p, d) := rfl
  have h_directory : Disk.fileSystem.isDirectory p d = (d.isDirectory p, d) := rfl
  have h_read : Disk.fileSystem.read p d = (d.read p, d) := rfl
  -- it fails for a directory, if the file can not be read, or if the copy can not be written
  unfold keep at h
  split at h
  · cases h
  rw [Disk.bind_apply, h_present] at h
  split at h
  · rw [FileSystem.copy, Disk.bind_apply, h_directory] at h
    split at h
    · cases h
      rfl
    rw [Disk.bind_apply, h_read] at h
    cases h_content : d.read p with
    | error e =>
      rw [h_content] at h
      cases h
      rfl
    | ok previous =>
      rw [h_content] at h
      dsimp only at h
      rw [Disk.write_apply] at h
      split at h
      · cases h
      · cases h
        rfl
  · cases h

/-- Storing a file changes nothing but the file, if it succeeds, and the copy of what the file was,
apart from directories that are made. -/
theorem get?_store (text : String)
    (h_file : (b.store Disk.fileSystem p text d).1 = .ok () → r ≠ p.route)
    (h_copy : ∀ content d₁, d.write (backupPath p) content = .ok d₁ → r ≠ (backupPath p).route) :
    (b.store Disk.fileSystem p text d).2.get? r = d.get? r ∨
      d.get? r = none ∧ (b.store Disk.fileSystem p text d).2.get? r = some .directory := by
  -- the copy, the directories and the file are looked at one after the other
  rw [store, Disk.bind_apply] at h_file ⊢
  generalize h_keep : b.keep Disk.fileSystem p d = kept at h_file ⊢
  obtain ⟨e | ⟨⟩, d₁⟩ := kept
  · rw [keep_of_error h_keep]
    exact .inl rfl
  -- the copy is written somewhere else, or there is none
  have h_kept : d₁.get? r = d.get? r := by
    rcases keep_cases h_keep with ⟨-, -, previous, -, h_write⟩ | ⟨-, rfl⟩
    · rw [Disk.get?_route_of_write h_write, if_neg (h_copy _ _ h_write)]
    · rfl
  have h_adds := (addsAt_makeParent p d₁).adds r
  rw [h_kept] at h_adds
  dsimp only at h_file ⊢
  rw [Disk.bind_apply] at h_file ⊢
  generalize makeParent Disk.fileSystem p d₁ = made at h_adds h_file ⊢
  obtain ⟨e | ⟨⟩, d₂⟩ := made
  · exact h_adds
  have h_apply : Disk.fileSystem.writeText p text d₂ =
    Disk.change (fun d => d.write p text.toUTF8) d₂ := rfl
  dsimp only at h_adds h_file ⊢
  rw [h_apply, Disk.change] at h_file ⊢
  cases h_write : d₂.write p text.toUTF8 with
  -- a write that fails leaves the directories that have been made for it
  | error e => exact h_adds
  | ok d₃ =>
    rw [h_write] at h_file
    dsimp only
    rw [Disk.get?_route_of_write h_write, if_neg (h_file rfl)]
    exact h_adds

namespace Call

/-- The disk after a call. -/
def after (b : Batch) (c : Call) : Disk :=
  (b.transformFile Disk.fileSystem c.source c.target c.progress c.disk).2

/-- Whether a file has been transformed. -/
def Succeeds (b : Batch) (c : Call) : Prop := ∃ s, c.result b = .ok s

/-- Whether a call writes a file at a route: its output, or the copy of what that overwrites. -/
def Touches (b : Batch) (c : Call) (r : Route) : Prop :=
  c.Succeeds b ∧ r = c.target.route ∨
    ∃ content d₁, c.disk.write (backupPath c.target) content = .ok d₁ ∧
      r = (backupPath c.target).route

/-- What a call does not touch stays as it is, unless a directory is made there. -/
theorem get?_after (h : ¬c.Touches b r) :
    (c.after b).get? r = c.disk.get? r ∨
      c.disk.get? r = none ∧ (c.after b).get? r = some .directory := by
  obtain ⟨g', -, -, h_file⟩ :=
    transformFile_eq (b := b) c.source c.target c.progress c.disk
  unfold Touches Succeeds result at h
  unfold after
  rw [h_file] at h ⊢
  -- without an output, nothing is stored
  cases h_outcome : outcome c.progress.session c.disk c.source with
  | error e => exact .inl rfl
  | ok o =>
    rw [h_outcome] at h
    obtain ⟨h_file, h_copy⟩ := not_or.1 h
    have h_store := get?_store (b := b) (p := c.target) (d := c.disk) (r := r)
      o.program.encode.pretty
    dsimp only at h_file ⊢
    generalize b.store Disk.fileSystem c.target o.program.encode.pretty c.disk = stored
      at h_file h_store ⊢
    have h_copy (content d₁) (h_write : c.disk.write (backupPath c.target) content = .ok d₁)
      (h_here : r = (backupPath c.target).route) : False := h_copy ⟨content, d₁, h_write, h_here⟩
    obtain ⟨e | ⟨⟩, d₁⟩ := stored
    · exact h_store (by simp) h_copy
    · exact h_store (fun _ h_here => h_file ⟨⟨_, rfl⟩, h_here⟩) h_copy

/-- A call succeeds if its file has an output and that can be stored. -/
theorem succeeds_of_store {o : Output}
    (h_outcome : outcome c.progress.session c.disk c.source = .ok o)
    (h_store : b.store Disk.fileSystem c.target o.program.encode.pretty c.disk = (.ok (), d')) :
    c.Succeeds b := by
  obtain ⟨g', -, -, h_file⟩ :=
    transformFile_eq (b := b) c.source c.target c.progress c.disk
  refine ⟨.ofFile o.summary, ?_⟩
  rw [result, h_file, h_outcome]
  dsimp only
  rw [h_store]

/-- A call that succeeds has written what comes of its file to its target. -/
theorem Succeeds.written (h : c.Succeeds b) :
    ∃ o, ∃ d₁ : Disk, outcome c.progress.session c.disk c.source = .ok o ∧
      d₁.write c.target o.program.encode.pretty.toUTF8 = .ok (c.after b) := by
  obtain ⟨s, h⟩ := h
  obtain ⟨g', -, -, h_file⟩ :=
    transformFile_eq (b := b) c.source c.target c.progress c.disk
  unfold result at h
  unfold after
  rw [h_file] at h ⊢
  cases h_outcome : outcome c.progress.session c.disk c.source with
  | error e =>
    -- without an output, the call would not have succeeded
    rw [h_outcome] at h
    cases h
  | ok o =>
    rw [h_outcome] at h
    dsimp only at h ⊢
    generalize h_store : b.store Disk.fileSystem c.target o.program.encode.pretty c.disk = stored
      at h ⊢
    obtain ⟨e | ⟨⟩, d₃⟩ := stored
    · cases h
    · obtain ⟨d₁, d₂, -, -, h_write⟩ := exists_of_store h_store
      exact ⟨o, d₂, rfl, h_write⟩

end Call

/-! ### One call after the other -/

/-- Whether calls lead from one disk to another. Between them, directories are made. -/
inductive Course (b : Batch) : List Call → Disk → Disk → Prop
  | done {d d' : Disk} (adds : d.Adds d') : Course b [] d d'
  | call {c : Call} {calls : List Call} {d d' : Disk} (adds : d.Adds c.disk)
      (rest : Course b calls (c.after b) d') : Course b (c :: calls) d d'

/-- Directories may be made before the first call. -/
theorem Course.of_adds (h_adds : d.Adds d₁) (h : b.Course calls d₁ d') : b.Course calls d d' := by
  cases h with
  | done adds => exact .done (h_adds.trans adds)
  | call adds rest => exact .call (h_adds.trans adds) rest

/-- Calls may be followed by others. -/
theorem Course.append (h : b.Course calls d d₁) (h' : b.Course calls' d₁ d') :
    b.Course (calls ++ calls') d d' := by
  induction h with
  | done adds => exact .of_adds adds h'
  | call adds rest ih => exact .call adds (ih h')

/-- A course can be taken up after each of its calls. -/
theorem Course.after_call {before later : List Call} (h : b.Course (before ++ c :: later) d d') :
    b.Course later (c.after b) d' := by
  -- along the calls that come before
  induction before generalizing d with
  | nil =>
    cases h with
    | call adds rest => exact rest
  | cons first before ih =>
    cases h with
    | call adds rest => exact ih rest

/-- A file that no call touches stays as it is. -/
theorem Course.kept {content : ByteArray} (h : b.Course calls d d')
    (h_file : d.get? r = some (.file content)) (h_others : ∀ c ∈ calls, ¬c.Touches b r) :
    d'.get? r = some (.file content) := by
  induction h with
  | done adds => exact adds.get?_eq_file.2 h_file
  | @call c calls d d' adds rest ih =>
    obtain ⟨h_first, h_rest⟩ := List.forall_mem_cons.1 h_others
    refine ih ?_ h_rest
    -- a directory can not be made where the file is
    have h_here := adds.get?_eq_file.2 h_file
    rcases Call.get?_after h_first with h_same | ⟨h_none, -⟩
    · rw [h_same, h_here]
    · cases h_none.symm.trans h_here

/-! ### Where calls are made -/

/-- Whether a call is for the file that names lead to. -/
structure Call.IsFor (b : Batch) (directory output : Path) (c : Call) (rel : Route) : Prop where
  isName : ∀ n ∈ rel, IsName n
  source_eq : c.source = directory.below rel
  target_eq : c.target = b.outputOf output rel
  accepted : b.accepts c.source = true

/-- What a part of a run has done about names in a directory, whether or not it has failed. -/
structure Ran (b : Batch) (directory output : Path) (names : List String) (calls : List Call)
    (d d' : Disk) : Prop where
  course : b.Course calls d d'
  placed : ∀ c ∈ calls, ∃ n ∈ names, ∃ tail, c.IsFor b directory output (n :: tail)
  sorted : calls.Pairwise fun c c' => c.source.route < c'.source.route

/-- The names lead from the directory to the file. -/
theorem Call.IsFor.route {rel : Route} (h : c.IsFor b directory output rel) :
    c.source.route = directory.route ++ rel := by
  rw [h.source_eq, Path.route_below directory h.isName]

/-- A file has a name of its own, at the end of those that lead to it. -/
theorem Ran.exists_isFor (h : b.Ran directory output names calls d d') (h_c : c ∈ calls) :
    ∃ front name, c.IsFor b directory output (front ++ [name]) := by
  obtain ⟨n, -, tail, h_for⟩ := h.placed c h_c
  rcases List.eq_nil_or_concat (n :: tail) with h_nil | ⟨front, name, h_concat⟩
  · cases h_nil
  · rw [h_concat, List.concat_eq_append] at h_for
    exact ⟨front, name, h_for⟩

/-- Nothing is called for. -/
theorem Ran.idle (h_adds : d.Adds d') : b.Ran directory output names [] d d' :=
  ⟨.done h_adds, by simp, .nil⟩

/-- Names are gone through in order, so the calls for one of them come before those for the next. -/
theorem Ran.cons (h : b.Ran directory output [name] calls d d₁)
    (h' : b.Ran directory output names calls' d₁ d') (h_first : ∀ n ∈ names, name < n) :
    b.Ran directory output (name :: names) (calls ++ calls') d d' where
  course := h.course.append h'.course
  placed c h_c := by
    rcases List.mem_append.1 h_c with h_c | h_c
    · obtain ⟨n, h_n, h_for⟩ := h.placed c h_c
      exact ⟨n, List.mem_cons.2 (.inl (List.mem_singleton.1 h_n)), h_for⟩
    · obtain ⟨n, h_n, h_for⟩ := h'.placed c h_c
      exact ⟨n, List.mem_cons_of_mem _ h_n, h_for⟩
  sorted := by
    refine List.pairwise_append.2 ⟨h.sorted, h'.sorted, fun c h_c c' h_c' => ?_⟩
    obtain ⟨n, h_n, tail, h_for⟩ := h.placed c h_c
    obtain ⟨n', h_n', tail', h_for'⟩ := h'.placed c' h_c'
    -- the routes part at the names, whatever stands behind them
    rw [h_for.route, h_for'.route, List.mem_singleton.1 h_n]
    exact List.append_left_lt (List.cons_lt_cons_iff.2 (.inl (h_first n' h_n')))

/-- If nothing else is called for, there may be further names. -/
theorem Ran.of_prefix (h : b.Ran directory output [name] calls d d') (names : List String) :
    b.Ran directory output (name :: names) calls d d' :=
  ⟨h.course, fun c h_c => (h.placed c h_c).imp fun _ h_n =>
    ⟨List.mem_cons.2 (.inl (List.mem_singleton.1 h_n.1)), h_n.2⟩, h.sorted⟩

/-- A directory has been entered, and calls have been made below it. -/
theorem Ran.enter (h_name : IsName name) (h_adds : d.Adds d₁)
    (h : b.Ran (directory.child name) (b.innerOutput output name) found calls d₁ d') :
    b.Ran directory output [name] calls d d' where
  course := .of_adds h_adds h.course
  placed c h_c := by
    obtain ⟨n, -, tail, h_for⟩ := h.placed c h_c
    refine ⟨name, List.mem_singleton_self _, n :: tail,
      List.forall_mem_cons.2 ⟨h_name, h_for.isName⟩,
      h_for.source_eq, ?_, h_for.accepted⟩
    -- the file is in the directory, so the output directory is one further down
    rw [h_for.target_eq, outputOf, outputOf, List.dropLast_cons_of_ne_nil (List.cons_ne_nil _ _),
      outputBelow_cons]
    rfl
  sorted := h.sorted

/-- A file has been called for. -/
theorem ran_transformEntry (h_name : IsName name)
    (h_accepts : b.accepts (directory.child name) = true) (g : Progress) (d : Disk) :
    b.Ran directory output [name] [⟨directory.child name, b.outputPath output name, g, d⟩] d
      (b.transformEntry Disk.fileSystem (directory.child name) (b.outputPath output name) g
        d).2 := by
  let c : Call := ⟨directory.child name, b.outputPath output name, g, d⟩
  -- what becomes of the summary does not matter to the disk
  have h_after : (b.transformEntry Disk.fileSystem (directory.child name) (b.outputPath output name)
      g d).2 = c.after b := by
    unfold Call.after transformEntry
    rw [Disk.bind_apply]
    dsimp only [c]
    generalize b.transformFile Disk.fileSystem (directory.child name) (b.outputPath output name) g
      d = run
    obtain ⟨⟨e | s, g₁⟩, d₁⟩ := run <;> rfl
  rw [h_after]
  refine ⟨.call (.refl d) (.done (.refl _)), ?_, List.pairwise_singleton _ _⟩
  refine List.forall_mem_singleton.2 ⟨name, List.mem_singleton_self _, [],
    List.forall_mem_singleton.2 h_name, rfl, ?_, h_accepts⟩
  rw [outputOf]
  exact congrArg (b.outputPath · name) (outputBelow_nil b output).symm

/-- To make an output directory adds directories and nothing else. -/
theorem adds_makeOutput (p : Path) (g : Progress) (d : Disk) :
    d.Adds (b.makeOutput Disk.fileSystem p g d).2 := by
  have h_adds : Disk.Respects Disk.Adds (b.makeOutput Disk.fileSystem p g) := by
    unfold makeOutput
    split
    · exact Disk.respects_pure _
    · refine .bind (Disk.respects_look _) fun isPresent => ?_
      split
      · exact Disk.respects_pure _
      · refine .bind (fun d => (Disk.addsAt_makeDirectories p d).adds) fun made => ?_
        split <;> exact Disk.respects_pure _
  exact h_adds d

/-- What is done about names is put together from what is done about each of them. -/
theorem ran_each {visit : String → Progress → StateM Disk (Except IoError Unit × Progress)}
    {calls : String → Progress → Disk → List Call} (h_sorted : names.Pairwise (· < ·))
    (h : ∀ name ∈ names, ∀ g d,
      b.Ran directory output [name] (calls name g d) d (visit name g d).2)
    (g : Progress) (d : Disk) :
    b.Ran directory output names (callsEach visit calls names g d) d (each visit names g d).2 := by
  induction names generalizing g d with
  | nil => exact .idle (.refl d)
  | cons name names ih =>
    obtain ⟨h_first, h_sorted⟩ := List.pairwise_cons.1 h_sorted
    obtain ⟨h_name, h_names⟩ := List.forall_mem_cons.1 h
    have h_ran := h_name g d
    rw [callsEach, each, Disk.bind_apply]
    generalize visit name g d = after at h_ran ⊢
    obtain ⟨⟨e | ⟨⟩, g₁⟩, d₁⟩ := after
    · -- the names behind one that fails are not come to
      rw [List.append_nil]
      exact h_ran.of_prefix names
    · exact h_ran.cons (ih h_sorted h_names g₁ d₁) h_first

/-- A run below a directory has made its calls in the order of the files, whether or not it
fails. -/
theorem ran_transformBelow (levels : Nat) (directory output : Path) (g : Progress) (d : Disk) :
    ∃ names, b.Ran directory output names (b.callsBelow levels directory output g d) d
      (b.transformBelow Disk.fileSystem levels directory output g d).2 := by
  -- on the number of levels that may still be gone down
  induction levels generalizing directory output g d with
  | zero => exact ⟨[], .idle (.refl d)⟩
  | succ levels ih =>
    rw [callsBelow, transformBelow_succ]
    cases h_list : d.list directory with
    | error e => exact ⟨[], .idle (.refl d)⟩
    | ok found =>
      have h_listed := Disk.lists_sortedNames h_list
      have h_names := isName_of_lists h_listed
      refine ⟨_, ran_each h_listed.sorted (fun name h_mem g d => ?_) g d⟩
      have h_name := h_names name h_mem
      -- the branches of a visit
      unfold callsAt
      cases h_kind : d.isDirectory (directory.child name) with
      | true =>
        have h_adds := adds_makeOutput (b := b) (b.innerOutput output name) g d
        rw [visitName_of_isDirectory h_kind, if_pos rfl]
        generalize b.makeOutput Disk.fileSystem (b.innerOutput output name) g d = made at h_adds ⊢
        obtain ⟨⟨e | ⟨⟩, g₁⟩, d₁⟩ := made
        · exact .idle h_adds
        · obtain ⟨found, h_below⟩ := ih (directory.child name) (b.innerOutput output name) g₁ d₁
          exact .enter h_name h_adds h_below
      | false =>
        rw [visitName_of_file h_kind, if_neg Bool.false_ne_true]
        cases h_accepts : b.accepts (directory.child name) with
        | true => exact ran_transformEntry h_name h_accepts g d
        | false => exact .idle (.refl d)

/-- Every run over a directory has made its calls in the order of the files. -/
theorem ran_transformDirectory (source target : Path) (g : Progress) (d : Disk) :
    ∃ names, b.Ran source target names (b.calls source target g d) d
      (b.transformDirectory Disk.fileSystem source target g d).2 := by
  rw [transformDirectory_eq, transformDirectoryWithin, calls]
  split
  · obtain ⟨h_adds, -⟩ := makeTarget_spec target d
    generalize makeTarget target d = made at h_adds ⊢
    obtain ⟨e | ⟨⟩, d₁⟩ := made
    · -- a target that can not be made may still have been made in part
      exact ⟨[], .idle h_adds⟩
    · obtain ⟨names, h_ran⟩ := ran_transformBelow (b := b) Path.maxBytes source target
        { g with summary := {} } d₁
      dsimp only
      generalize b.transformBelow Disk.fileSystem Path.maxBytes source target _ d₁ = run at h_ran ⊢
      have h_whole : b.Ran source target names _ d run.2 :=
        ⟨.of_adds h_adds h_ran.course, h_ran.placed, h_ran.sorted⟩
      obtain ⟨⟨e | ⟨⟩, g₁⟩, d'⟩ := run <;> exact ⟨names, h_whole⟩
  · exact ⟨[], .idle (.refl d)⟩

end Batch

end AsyncMarkers
