import AsyncMarkers.Proofs.Coverage

/-!
# What the transformation of one file does to a disk

A file is transformed as a whole or not at all: if it can not be read, if it is not a tree, or if
the tree is refused, the disk stays as it is. Otherwise the output is what comes of the tree that
was in the file *before* anything has been written, even if the output goes to the file itself.
Besides the output, the copy of what it overwrites is written, and directories are made that are
ancestors of the output. Nothing else on the disk changes (`Batch.transformFile_touches_only`).

The steps of storing a file are taken one by one: `Batch.keep_cases` for the copy,
`Batch.addsAt_makeParent` for directories and `Disk.get?_of_write` for the file. What holds the copy
must not be overwritten by the file, and that it is not is a matter of names: the name of a copy is
longer than that of the file, or leads upwards (`Batch.backupName_ne`).
-/

namespace AsyncMarkers

/-- Writing a file changes what stands at the end of the route of its path. -/
theorem Disk.get?_route_of_write {d d' : Disk} {p : Path} {content : ByteArray}
    (h : d.write p content = .ok d') (r : Route) :
    d'.get? r = if r = p.route then some (.file content) else d.get? r := by
  obtain ⟨r', name, h_follow, -, -, h_get⟩ := get?_of_write h
  rcases route_of_follow h_follow with ⟨_, h_passed, -⟩ | ⟨_, _, _, h_named, h_route⟩
  · -- a path that is written to ends in a name
    cases h_passed
  · cases h_named
    rw [← h_route]
    exact h_get r

/-! ### Names of copies -/

/-- Every path is that of its last segment in a directory. -/
theorem Path.exists_child_of_getLast? {p : Path} {name : String}
    (h : p.segments.getLast? = some name) : ∃ q : Path, p = q.child name := by
  obtain ⟨head, tail⟩ := p
  rcases List.eq_nil_or_concat tail with rfl | ⟨front, last, rfl⟩
  · cases h
    -- the path is the name alone
    exact ⟨empty, (child_empty head.no_slash).symm⟩
  · rw [List.concat_eq_append, segments, parts, ← List.cons_append, List.map_append] at h
    cases Option.some.inj (List.getLast?_concat.symm.trans h)
    -- with a slash behind it, the path of the directory is not taken for an empty one
    refine ⟨⟨head, front ++ [.empty]⟩, ?_⟩
    rw [child, ofText_of_no_slash last.no_slash]
    simp [join, isRooted, empty, parts]

namespace Batch

variable {b : Batch} {d d₁ d' : Disk} {p : Path} {name text : String}

/-- A copy does not have the name of the file. -/
theorem backupName_ne (h : IsName name) : backupName name ≠ name := by
  unfold backupName renamed
  rw [if_neg h.ne_up]
  dsimp only
  split
  · exact h.ne_up.symm
  · -- what is left of the name is there, and what is put behind it is longer than what has been
    rw [if_neg (by simp)]
    intro h_same
    have h_length := congrArg (fun s => s.toList.length) h_same
    rcases splitName_cases name with h_split | ⟨front, back, -, h_list, h_split⟩
    · rw [h_split] at h_length
      simp at h_length
    · rw [h_split, h_list] at h_length
      simp at h_length

/-- If both can be written, the copy of a file is not where the file is. -/
theorem route_backupPath_ne {content content' : ByteArray} {d₂ : Disk}
    (h_file : d₂.write p content = .ok d') (h_copy : d.write (backupPath p) content' = .ok d₁) :
    (backupPath p).route ≠ p.route := by
  obtain ⟨r, name, h_follow, -⟩ := Disk.get?_of_write h_file
  obtain ⟨r', name', h_follow', -⟩ := Disk.get?_of_write h_copy
  have h_name := Disk.isName_of_follow h_follow
  have h_name' := Disk.isName_of_follow h_follow'
  obtain ⟨q, rfl⟩ := Path.exists_child_of_getLast? (Disk.getLast?_of_follow h_follow).1
  -- both stand in the same directory
  rw [backupPath_eq (.inr h_name)] at h_follow' ⊢
  have h_last := isName_backupName (.inr h_name)
  obtain ⟨-, rfl⟩ :=
    Disk.named_of_follow_child (ne_empty_of_last h_last) (no_slash_of_last h_last) h_follow'
  rw [Path.route_child q h_name, Path.route_child q h_name']
  intro h_same
  exact backupName_ne h_name (List.cons.inj (List.append_cancel_left h_same)).1

/-! ### The steps of storing a file -/

/-- A file is copied if that is asked for and the file is there. -/
theorem keep_cases (h : b.keep Disk.fileSystem p d = (.ok (), d₁)) :
    (b.backup = true ∧ d.isPresent p = true ∧
      ∃ previous, d.read p = .ok previous ∧ d.write (backupPath p) previous = .ok d₁) ∨
    ¬(b.backup = true ∧ d.isPresent p = true) ∧ d₁ = d := by
  have h_present : Disk.fileSystem.isPresent p d = (d.isPresent p, d) := rfl
  have h_directory : Disk.fileSystem.isDirectory p d = (d.isDirectory p, d) := rfl
  have h_read : Disk.fileSystem.read p d = (d.read p, d) := rfl
  unfold keep at h
  -- no copy is asked for, or there is nothing to be copied, or it is copied
  cases h_on : b.backup with
  | false =>
    rw [h_on] at h
    cases h
    exact .inr ⟨by simp, rfl⟩
  | true =>
    simp only [h_on, Bool.not_true, Bool.false_eq_true, if_false] at h
    rw [Disk.bind_apply, h_present] at h
    cases h_there : d.isPresent p with
    | false =>
      rw [h_there] at h
      cases h
      exact .inr ⟨by simp, rfl⟩
    | true =>
      simp only [h_there, if_true] at h
      rw [FileSystem.copy, Disk.bind_apply, h_directory] at h
      -- a directory would not have been copied
      split at h
      · cases h
      rw [Disk.bind_apply, h_read] at h
      cases h_content : d.read p with
      | error e =>
        rw [h_content] at h
        cases h
      | ok previous =>
        rw [h_content] at h
        exact .inl ⟨rfl, rfl, previous, rfl, Disk.write_of_write_apply h⟩

/-- The directories that are made for a file are ancestors of its path. -/
theorem addsAt_makeParent (p : Path) (d : Disk) :
    Disk.AddsAt (fun r => ∃ q : Path, q.IsAncestor p ∧ q.route = r) d
      (makeParent Disk.fileSystem p d).2 := by
  unfold makeParent
  cases h_parent : p.parent? with
  | none => exact .refl _ d
  | some parent =>
    have h_made := Disk.addsAt_makeDirectories parent d
    refine ⟨h_made.adds, fun r h_new => ?_⟩
    -- what is made is the parent or stands above it
    obtain ⟨q, rfl | h_above, h_route⟩ := h_made.only r h_new
    · exact ⟨q, .parent h_parent, h_route⟩
    · exact ⟨q, .above h_parent h_above, h_route⟩

/-- What is overwritten is found in the copy afterwards. -/
theorem read_backupPath_of_store (h_backup : b.backup = true) (h_present : d.isPresent p = true)
    (h : b.store Disk.fileSystem p text d = (.ok (), d')) :
    ∃ previous, d.read p = .ok previous ∧ d'.read (backupPath p) = .ok previous := by
  obtain ⟨d₁, d₂, h_keep, h_parent, h_write⟩ := exists_of_store h
  have h_adds := (addsAt_makeParent p d₁).adds
  rw [h_parent] at h_adds
  rcases keep_cases h_keep with ⟨-, -, previous, h_read, h_copy⟩ | ⟨h_none, -⟩
  · refine ⟨previous, h_read, ?_⟩
    obtain ⟨r, name, h_follow, h_short, -⟩ := Disk.get?_of_write h_copy
    rcases Disk.route_of_follow h_follow with ⟨_, h_passed, -⟩ | ⟨_, _, _, h_named, h_route⟩
    · cases h_passed
    cases h_named
    -- the copy stays where it is when directories are made and the file is written
    have h_later : d'.get? (backupPath p).route = some (.file previous) := by
      rw [Disk.get?_route_of_write h_write, if_neg (route_backupPath_ne h_write h_copy),
        h_adds.get?_eq_file, Disk.get?_route_of_write h_copy, if_pos rfl]
    -- and the way to it is the same
    have h_grows := growing_store (b := b) p text d
    rw [h] at h_grows
    rw [← h_route] at h_later
    exact Disk.read_eq_ok (h_grows.directories.follow h_follow) h_short h_later
  · exact absurd ⟨h_backup, h_present⟩ h_none

/-- Storing a file changes nothing but the file, the copy of what it overwrites, and ancestors that
have not been there. -/
theorem get?_of_store (h : b.store Disk.fileSystem p text d = (.ok (), d')) (r : Route) :
    d'.get? r = d.get? r ∨ r = p.route ∨
      b.backup = true ∧ d.isPresent p = true ∧ r = (backupPath p).route ∨
      d.get? r = none ∧ d'.get? r = some .directory ∧ ∃ q : Path, q.IsAncestor p ∧ q.route = r := by
  obtain ⟨d₁, d₂, h_keep, h_parent, h_write⟩ := exists_of_store h
  obtain ⟨h_adds, h_only⟩ := addsAt_makeParent p d₁
  rw [h_parent] at h_adds h_only
  -- the route may be that of the file, or that of the copy, or neither
  by_cases h_file : r = p.route
  · exact .inr (.inl h_file)
  have h_written : d'.get? r = d₂.get? r := by
    rw [Disk.get?_route_of_write h_write, if_neg h_file]
  by_cases h_copy : b.backup = true ∧ d.isPresent p = true ∧ r = (backupPath p).route
  · exact .inr (.inr (.inl h_copy))
  have h_kept : d₁.get? r = d.get? r := by
    rcases keep_cases h_keep with ⟨h_backup, h_present, previous, -, h_write⟩ | ⟨-, h_same⟩
    · rw [Disk.get?_route_of_write h_write,
        if_neg fun h_here => h_copy ⟨h_backup, h_present, h_here⟩]
    · rw [h_same]
  -- a directory may have been made here, and nothing else
  rw [h_written, ← h_kept]
  by_cases h_same : d₂.get? r = d₁.get? r
  · exact .inl h_same
  · obtain ⟨h_none, h_made⟩ := (h_adds r).resolve_left h_same
    exact .inr (.inr (.inr ⟨h_none, h_made, h_only r h_same⟩))

/-! ### Transforming a file -/

/-- If there is no output, the disk stays as it is. -/
theorem transformFile_of_error {source target : Path} {g : Progress} {e : BatchError}
    (h : outcome g.session d source = .error e) :
    (b.transformFile Disk.fileSystem source target g d).1.1 = .error e ∧
      (b.transformFile Disk.fileSystem source target g d).2 = d := by
  obtain ⟨g', -, -, h_file⟩ := transformFile_eq (b := b) source target g d
  rw [h_file, h]
  exact ⟨rfl, rfl⟩

/-- The summary of a run is left alone, and what is returned is the summary of one file. -/
theorem transformFile_summary (source target : Path) (g : Progress) (d : Disk) :
    let run := b.transformFile Disk.fileSystem source target g d
    run.1.2.summary = g.summary ∧ ∀ s, run.1.1 = .ok s → ∃ summary, s = .ofFile summary := by
  intro run
  obtain ⟨g', -, h_summary, h_file⟩ := transformFile_eq (b := b) source target g d
  rw [show run = _ from h_file, ← h_summary]
  cases outcome g.session d source with
  | error e => exact ⟨rfl, by simp⟩
  | ok output =>
    dsimp only
    generalize b.store Disk.fileSystem target output.program.encode.pretty d = stored
    obtain ⟨e | ⟨⟩, d'⟩ := stored
    · exact ⟨rfl, by simp⟩
    · exact ⟨rfl, fun s h => ⟨output.summary, (Except.ok.inj h).symm⟩⟩

/-- **A file is transformed as a whole or not at all, and nothing else is touched.** If there is no
tree, or the tree is refused, the disk stays as it is. If the transformation succeeds, the text of
its output can be read under the target, and what the target held before can be read under the path
of the copy, if one was asked for. Everything else on the disk is as it was, apart from directories
that are made for the target. -/
theorem transformFile_touches_only (b : Batch) (source target : Path) (g : Progress) (d : Disk) :
    let read := (Disk.fileSystem.readText source d).1
    let result (program : Program) :=
      (g.session.transform .logged program (descriptor source)).1.result
    let run := b.transformFile Disk.fileSystem source target g d
    (∀ e, read = .error e → run.1.1 = .error (.unreadable source e) ∧ run.2 = d) ∧
    (∀ text, read = .ok text → Json.decodeText? Program.decode? text = none →
      run.1.1 = .error (.unparsable source) ∧ run.2 = d) ∧
    (∀ text program e, read = .ok text → Json.decodeText? Program.decode? text = some program →
      result program = .error e → run.1.1 = .error (.rejected e) ∧ run.2 = d) ∧
    ∀ s, run.1.1 = .ok s →
      ∃ text program output, read = .ok text ∧
        Json.decodeText? Program.decode? text = some program ∧ result program = .ok output ∧
        (g.session.selects (descriptor source) = false → output.program = program) ∧
        (Disk.fileSystem.readText target run.2).1 = .ok output.program.encode.pretty ∧
        (b.backup = true → d.isPresent target = true →
          ∃ previous, d.read target = .ok previous ∧
            run.2.read (backupPath target) = .ok previous) ∧
        (∀ r, run.2.get? r = d.get? r ∨ r = target.route ∨
          b.backup = true ∧ d.isPresent target = true ∧ r = (backupPath target).route ∨
          d.get? r = none ∧ run.2.get? r = some .directory ∧
            ∃ q : Path, q.IsAncestor target ∧ q.route = r) ∧
        s.processed = 1 ∧ s.transformed + s.skipped = 1 := by
  intro read result run
  refine ⟨fun e h_read => ?_, fun text h_read h_none => ?_,
    fun text program e h_read h_program h => ?_,
    fun s h => ?_⟩
  · -- the three ways to fail come before anything is written
    refine transformFile_of_error ?_
    rw [outcome, show (Disk.fileSystem.readText source d).1 = _ from h_read]
  · refine transformFile_of_error ?_
    rw [outcome, show (Disk.fileSystem.readText source d).1 = _ from h_read]
    dsimp only
    rw [h_none]
  · refine transformFile_of_error ?_
    rw [outcome, show (Disk.fileSystem.readText source d).1 = _ from h_read]
    dsimp only
    rw [h_program]
    dsimp only
    rw [show (g.session.transform .logged program (descriptor source)).1.result = _ from h]
    rfl
  · -- the output has been stored, so all that is left is about storing it
    obtain ⟨text, program, output, h_read, h_program, h_result, h_store⟩ :=
      transformFile_eq_ok_iff.1 ⟨s, run.1.2, Prod.ext (Prod.ext h rfl) rfl⟩
    obtain ⟨summary, rfl⟩ := (transformFile_summary source target g d).2 s h
    refine ⟨text, program, output, congrArg Prod.fst h_read, h_program, h_result,
      fun h_skip => ?_, congrArg Prod.fst (readText_of_store h_store),
      fun h_backup h_present => read_backupPath_of_store h_backup h_present h_store,
      get?_of_store h_store, rfl, ?_⟩
    · -- a file that is not selected is its own output
      rw [Session.transform_of_not_selected (Bool.eq_false_iff.1 h_skip)] at h_result
      rw [← Except.ok.inj h_result]
    · unfold BatchSummary.ofFile
      cases summary.skipped <;> rfl

/-- There is room for a copy of the first file of the sample. -/
theorem store_sample (text new : String) :
    ∃ d', store { backup := true } Disk.fileSystem (.ofText "in/a.json") new
      (sample text.toUTF8) = (.ok (), d') := by
  unfold store FileSystem.writeText
  generalize new.toUTF8 = output
  generalize text.toUTF8 = content
  exact ⟨_, rfl⟩

/-- The first file of the sample can be read. -/
theorem readText_sample (text : String) :
    Disk.fileSystem.readText (.ofText "in/a.json") (sample text.toUTF8) =
      (.ok text, sample text.toUTF8) :=
  Disk.readText_eq_ok rfl

/-- A file that is passed over is written anew in its place, in the usual layout, and the copy shows
how it was laid out before. A file that is not a tree leaves everything as it is. -/
theorem transformFile_touches_only_in_place :
    let text := "\x7b\"body\":[]\x7d"
    ∃ session, Session.ofConfig {} = .ok session ∧
      let run (source : Path) :=
        transformFile { backup := true } Disk.fileSystem source (.ofText "in/a.json") { session }
          (sample text.toUTF8)
      let after := (run (.ofText "in/a.json")).2
      (∃ s, (run (.ofText "in/a.json")).1.1 = .ok s ∧
        s.processed = 1 ∧ s.transformed + s.skipped = 1) ∧
      (Disk.fileSystem.readText (.ofText "in/a.json") after).1 =
        .ok (Program.mk [] .synthetic).encode.pretty ∧
      after.read (.ofText "in/a.json.backup") = .ok text.toUTF8 ∧
      (run (.ofText "in/sub/b.json")).1.1 = .error (.unparsable (.ofText "in/sub/b.json")) ∧
      (run (.ofText "in/sub/b.json")).2 = sample text.toUTF8 := by
  have h_program : Json.decodeText? Program.decode? "\x7b\"body\":[]\x7d" =
    some ⟨[], .synthetic⟩ := rfl
  have h_selects : (Session.ofConfig {}).map (·.selects (descriptor (.ofText "in/a.json"))) =
    .ok false := rfl
  -- from here on, no proof looks into the text
  generalize "\x7b\"body\":[]\x7d" = text at h_program ⊢
  cases h_session : Session.ofConfig {} with
  | error e =>
    rw [h_session] at h_selects
    cases h_selects
  | ok session =>
    rw [h_session] at h_selects
    have h_skip := Except.ok.inj h_selects
    -- the run is put together from its steps, and not evaluated
    obtain ⟨d', h_store⟩ := store_sample text (Program.mk [] .synthetic).encode.pretty
    obtain ⟨s, g', h_run⟩ := (transformFile_eq_ok_iff (g := { session })).2
      ⟨text, ⟨[], .synthetic⟩, ⟨⟨[], .synthetic⟩, { skipped := true }⟩, readText_sample text,
        h_program, by rw [Session.transform_of_not_selected (Bool.eq_false_iff.1 h_skip)], h_store⟩
    have h_result := congrArg (fun run => run.1.1) h_run
    obtain ⟨-, -, -, h_ok⟩ := transformFile_touches_only { backup := true } (.ofText "in/a.json")
      (.ofText "in/a.json") { session } (sample text.toUTF8)
    obtain ⟨-, h_unparsable, -⟩ := transformFile_touches_only { backup := true }
      (.ofText "in/sub/b.json") (.ofText "in/a.json") { session } (sample text.toUTF8)
    obtain ⟨_, _, output, h_read, h_decoded, -, h_same, h_text, h_copy, -, h_counts⟩ :=
      h_ok s h_result
    -- what has been read and decoded is the text and its program
    rw [readText_sample] at h_read
    cases h_read
    rw [h_program] at h_decoded
    cases h_decoded
    refine ⟨session, rfl, ⟨s, h_result, h_counts⟩, ?_, ?_, h_unparsable "" ?_ (by decide)⟩
    · rw [h_text, h_same h_skip]
    · obtain ⟨previous, h_previous, h_after⟩ := h_copy rfl rfl
      cases h_previous
      exact h_after
    · exact congrArg Prod.fst (Disk.readText_eq_ok rfl)

end Batch

end AsyncMarkers
