import AsyncMarkers.Batch
import AsyncMarkers.Proofs.Isolation
import AsyncMarkers.Proofs.PathNames

/-!
# Where outputs go

The output of a file stands in the output directory under a name that depends on the name of the
file alone (`Batch.outputPath_eq`), and so does the copy of what it overwrites. Both are all that
storing it changes.

What comes of a file is decided before anything is written: `Batch.outcome` is the tree that goes
to its output, or why there is none.
-/

namespace AsyncMarkers

namespace Batch

variable {b : Batch} {d d' : Disk} {p output : Path} {name : String} {g g' : Progress}

/-! ### The names of outputs -/

/-- The name of the output for a file. -/
def outputName (b : Batch) (name : String) : String := renamed name b.outputExtension

/-- The name of the copy of a file that is overwritten. -/
def backupName (name : String) : String :=
  if name = ".." then ".." else renamed name ((splitName name).2.getD "" ++ ".backup")

/-- The output for a file stands in the output directory, under its own name. -/
theorem outputPath_eq (h_name : IsName name) (h_extension : '/' ∉ b.outputExtension.toList)
    (output : Path) : b.outputPath output name = output.child (b.outputName name) :=
  Path.withExtension_child h_name h_extension

/-- The name of an output is a proper one, or leads upwards. -/
theorem isName_outputName (h_name : IsName name) (h_extension : '/' ∉ b.outputExtension.toList) :
    b.outputName name = ".." ∨ IsName (b.outputName name) := isName_renamed h_name h_extension

/-- The extension of a copy has no slash in it. -/
theorem no_slash_backup (h_name : IsName name) :
    '/' ∉ ((splitName name).2.getD "" ++ ".backup").toList := by
  obtain ⟨-, h_slash⟩ := no_slash_splitName h_name.no_slash
  simp [h_slash]

/-- The copy stands in the same directory. -/
theorem backupPath_eq (h : name = ".." ∨ IsName name) (output : Path) :
    backupPath (output.child name) = output.child (backupName name) := by
  rcases h with rfl | h_name
  · -- a path without a name has no extension to be changed
    unfold backupPath Path.withExtension Path.cutExtension Path.setExtension
    rw [Path.name?_child_up]
    dsimp only
    rw [Path.name?_child_up]
    rfl
  · rw [backupPath, Path.extension?_child h_name, backupName, if_neg h_name.ne_up,
      Path.withExtension_child h_name (no_slash_backup h_name)]

/-- The name of a copy is a proper one, or leads upwards. -/
theorem isName_backupName (h : name = ".." ∨ IsName name) :
    backupName name = ".." ∨ IsName (backupName name) := by
  unfold backupName
  rcases h with h_up | h_name
  · rw [if_pos h_up]
    exact .inl rfl
  · rw [if_neg h_name.ne_up]
    exact isName_renamed h_name (no_slash_backup h_name)

/-- In either case it has a meaning, here and below. -/
theorem isBlank_of_last (h : name = ".." ∨ IsName name) : Path.isBlank name = false := by
  rcases h with rfl | h_name
  · rfl
  · exact Path.isBlank_of_isName h_name

/-- It is not empty. -/
theorem ne_empty_of_last (h : name = ".." ∨ IsName name) : name ≠ "" := by
  rcases h with rfl | h_name
  · decide
  · exact h_name.ne_empty

/-- There is no slash in it. -/
theorem no_slash_of_last (h : name = ".." ∨ IsName name) : '/' ∉ name.toList := by
  rcases h with rfl | h_name
  · decide
  · exact h_name.no_slash

/-! ### Storing -/

/-- No directory has to be made for a file in one that can be entered. -/
theorem makeParent_of_opens (h : d.Opens p) (h_name : name = ".." ∨ IsName name) :
    makeParent Disk.fileSystem (p.child name) d = (.ok (), d) := by
  rw [makeParent, Path.parent?_child (isBlank_of_last h_name) (no_slash_of_last h_name)]
  rcases h with rfl | h_directory
  · rfl
  · -- the directory is there, so nothing has to be made
    have h_trim := Disk.isDirectory_trim h_directory
    dsimp only
    rw [Disk.makeDirectories_of_present (Disk.isPresent_of_isDirectory h_trim), if_pos h_trim]

/-- The directory that outputs stand in has been made before. -/
theorem makeParent_snd (h : d.Stands p) (h_name : name = ".." ∨ IsName name) :
    (makeParent Disk.fileSystem (p.child name) d).2 = d := by
  rcases h.opens_or_file with h_opens | ⟨content, h_file⟩
  · rw [makeParent_of_opens h_opens h_name]
  · -- a file is in the way, and making the directory fails
    rw [makeParent, Path.parent?_child (isBlank_of_last h_name) (no_slash_of_last h_name),
      Disk.trim_of_find h_file]
    dsimp only
    rw [Disk.makeDirectories_of_present (Disk.isPresent_iff.2 ⟨_, h_file⟩)]

/-- What is written when a file is stored: the file and the copy of what it overwrites. -/
def Writes (b : Batch) (output : Path) (name : String) (r : Route) : Prop :=
  r = output.route ++ [name] ∨ b.backup = true ∧ r = output.route ++ [backupName name]

section Growing

open Disk (Growing respects_look respects_pure)

/-- Keeping a copy lets every disk grow, and so do all steps below. -/
theorem growing_keep (p : Path) : Growing (b.keep Disk.fileSystem p) := by
  unfold keep
  split
  · exact respects_pure _
  · refine .bind (respects_look _) fun isPresent => ?_
    split
    · exact Disk.growing_copy p _
    · exact respects_pure _

/-- Making the directory for a file. -/
theorem growing_makeParent (p : Path) : Growing (makeParent Disk.fileSystem p) := by
  unfold makeParent
  split
  · next parent _ => exact Disk.growing_makeDirectories parent
  · exact respects_pure _

/-- Storing a file, one step after the other. -/
theorem growing_store (p : Path) (text : String) : Growing (b.store Disk.fileSystem p text) := by
  refine .bind (growing_keep p) fun kept => ?_
  split
  · exact respects_pure _
  · refine .bind (growing_makeParent p) fun made => ?_
    split
    · exact respects_pure _
    · exact Disk.growing_write p _

/-- Transforming a file, which reads it first. -/
theorem growing_transformFile (source target : Path) (g : Progress) :
    Growing (b.transformFile Disk.fileSystem source target g) := by
  -- a file that can not be read, decoded or transformed ends the program before anything is written
  refine .bind (Disk.respects_readText source) fun read => ?_
  split
  · exact respects_pure _
  · split
    · exact respects_pure _
    · dsimp only
      split
      · exact respects_pure _
      · refine .bind (growing_store target _) fun stored => ?_
        split <;> exact respects_pure _

/-- Transforming a file in the course of a batch. -/
theorem growing_transformEntry (source target : Path) (g : Progress) :
    Growing (b.transformEntry Disk.fileSystem source target g) := by
  refine .bind (growing_transformFile source target g) fun result => ?_
  split <;> exact respects_pure _

/-- Making an output directory. -/
theorem growing_makeOutput (target : Path) (g : Progress) :
    Growing (b.makeOutput Disk.fileSystem target g) := by
  unfold makeOutput
  split
  · exact respects_pure _
  · refine .bind (respects_look _) fun isPresent => ?_
    split
    · exact respects_pure _
    · refine .bind (Disk.growing_makeDirectories target) fun made => ?_
      split <;> exact respects_pure _

end Growing

end Batch

/-! ### What is written where -/

namespace Disk

variable {d d' d'' : Disk} {p : Path} {name : String} {P Q : Route → Prop}

/-- Whether a disk differs from another one at certain routes at most, where it has files. -/
def Written (P : Route → Prop) (d d' : Disk) : Prop :=
  ∀ r, d'.get? r = d.get? r ∨ P r ∧ ∃ content, d'.get? r = some (.file content)

/-- Nothing has been written to a disk that is the same. -/
theorem Written.refl (P : Route → Prop) (d : Disk) : Written P d d := fun _ => .inl rfl

/-- Files may be written one after the other. -/
theorem Written.trans (h : Written P d d') (h' : Written P d' d'') : Written P d d'' := by
  intro r
  rcases h' r with h_same | h_new
  · rw [h_same]
    exact h r
  · exact .inr h_new

/-- The routes may be described in a wider way. -/
theorem Written.imp (h : Written P d d') (h_imp : ∀ r, P r → Q r) : Written Q d d' :=
  fun r => (h r).imp id (.imp (h_imp r) id)

/-- Writing a file in a directory changes what stands there under its name. -/
theorem written_write (h_full : name ≠ "") (h_slash : '/' ∉ name.toList) (content : ByteArray)
    (d : Disk) :
    Written (· = p.route ++ [name]) d (fileSystem.write (p.child name) content d).2 := by
  rw [write_apply]
  split
  · next d' h_write =>
    intro r
    -- the file is written to the place that the path leads to
    obtain ⟨r', name', h_follow, -, -, h_get⟩ := get?_of_write h_write
    obtain ⟨rfl, rfl⟩ := named_of_follow_child h_full h_slash h_follow
    rw [h_get]
    split
    · next h_here => exact .inr ⟨h_here, content, rfl⟩
    · exact .inl rfl
  · exact .refl _ d

/-- Whether a file can be written under a path. -/
def Admits (d : Disk) (p : Path) : Prop := ∃ content d', d.write p content = .ok d'

/-- What it takes to be able to write a file. -/
theorem admits_iff :
    d.Admits p ↔
      ∃ r name, d.follow p = .ok (.named r name false) ∧
        ¬Path.maxSegmentBytes < name.utf8ByteSize ∧ d.get? (r ++ [name]) ≠ some .directory := by
  constructor
  · rintro ⟨content, d', h⟩
    obtain ⟨r, name, h_follow, h_short, h_free, -⟩ := write_eq_ok_iff.1 h
    exact ⟨r, name, h_follow, h_short, h_free⟩
  · rintro ⟨r, name, h_follow, h_short, h_free⟩
    exact ⟨.empty, _, write_eq_ok_iff.2 ⟨r, name, h_follow, h_short, h_free, rfl⟩⟩

/-- What can be written can be written with any content. -/
theorem Admits.write (h : d.Admits p) (content : ByteArray) :
    ∃ d', d.write p content = .ok d' := by
  obtain ⟨r, name, h_follow, h_short, h_free⟩ := admits_iff.1 h
  exact ⟨_, write_eq_ok_iff.2 ⟨r, name, h_follow, h_short, h_free, rfl⟩⟩

/-- Another file is not in the way. -/
theorem Admits.of_write (h : d.Admits p) {q : Path} {content : ByteArray}
    (h_write : d.write q content = .ok d') : d'.Admits p := by
  obtain ⟨r, name, h_follow, h_short, h_free⟩ := admits_iff.1 h
  obtain ⟨r', name', -, -, -, h_get⟩ := get?_of_write h_write
  refine admits_iff.2 ⟨r, name, (keeps_of_write h_write).follow h_follow, h_short, ?_⟩
  rw [h_get]
  -- what stands there now is the other file, or the same as before
  split
  · simp
  · exact h_free

/-- If a file can be written on a disk that has grown, it could be written before. -/
theorem Admits.of_grows (h_grows : d.Grows d') (h_stands : d.Stands p) (h_name : IsName name)
    (h : d'.Admits (p.child name)) : d.Opens p ∧ d.Admits (p.child name) := by
  obtain ⟨r, n, h_follow, h_short, h_free⟩ := admits_iff.1 h
  obtain ⟨rfl, rfl⟩ := named_of_follow_child h_name.ne_empty h_name.no_slash h_follow
  have h_opens := h_stands.opens_of_grows h_grows (get?_of_follow h_follow)
  refine ⟨h_opens, admits_iff.2 ⟨p.route, n, ?_, h_short, fun h_directory => ?_⟩⟩
  · exact follow_child h_opens h_name (fits_of_follow h_follow)
  · exact h_free (h_grows.directories _ h_directory)

/-- What is there and can be overwritten is a file. -/
theorem Admits.find_of_present (h : d.Admits p) (h_present : d.isPresent p = true) :
    ∃ content, d.find p = .ok (p.route, .file content) := by
  obtain ⟨e, h_find⟩ := isPresent_iff.1 h_present
  obtain ⟨r, name, h_follow, h_short, h_free⟩ := admits_iff.1 h
  cases e with
  | file content => exact ⟨content, h_find⟩
  | directory =>
    -- a directory can not be overwritten
    rcases route_of_follow h_follow with ⟨_, h_passed, -⟩ | ⟨_, _, _, h_named, h_route⟩
    · cases h_passed
    · cases h_named
      rw [h_route] at h_free
      exact absurd (find_eq_ok h_find).2 h_free

/-- Copying to a directory changes what stands there under the name of the copy. -/
theorem written_copy (source : Path) (h_full : name ≠ "") (h_slash : '/' ∉ name.toList)
    (d : Disk) :
    Written (· = p.route ++ [name]) d (fileSystem.copy source (p.child name) d).2 := by
  have h_look : fileSystem.isDirectory source d = (d.isDirectory source, d) := rfl
  have h_read : fileSystem.read source d = (d.read source, d) := rfl
  rw [FileSystem.copy, bind_apply, h_look]
  split
  · exact .refl _ d
  · rw [bind_apply, h_read]
    cases d.read source with
    | error e => exact .refl _ d
    | ok bytes => exact written_write h_full h_slash bytes d

end Disk

namespace Batch

variable {b : Batch} {d d' : Disk} {p output : Path} {name : String} {g g' : Progress}

/-- Keeping a copy writes that copy at most. -/
theorem written_keep (h_name : name = ".." ∨ IsName name) (d : Disk) :
    Disk.Written (b.Writes output name) d (b.keep Disk.fileSystem (output.child name) d).2 := by
  unfold keep
  split
  · exact .refl _ d
  · next h_backup =>
    rw [Disk.bind_apply]
    split
    · -- the copy stands beside the file, under a name of its own
      rw [backupPath_eq h_name]
      have h_copy := isName_backupName h_name
      refine (Disk.written_copy _ (ne_empty_of_last h_copy) (no_slash_of_last h_copy) d).imp ?_
      intro r h_here
      exact .inr ⟨by simpa using h_backup, h_here⟩
    · exact .refl _ d

/-- Storing a file writes that file and the copy of what it overwrites, and nothing else. -/
theorem written_store (h_stands : d.Stands output) (h_name : name = ".." ∨ IsName name)
    (text : String) :
    Disk.Written (b.Writes output name) d
      (b.store Disk.fileSystem (output.child name) text d).2 := by
  have h_keep : Disk.Written (b.Writes output name) d _ := written_keep h_name d
  have h_grows := growing_keep (b := b) (output.child name) d
  rw [store, Disk.bind_apply]
  -- first the copy is made, then the directory, which is there, and then the file is written
  generalize b.keep Disk.fileSystem (output.child name) d = kept at h_keep h_grows
  obtain ⟨e | ⟨⟩, d₁⟩ := kept
  · exact h_keep
  have h_parent := makeParent_snd (h_grows.stands h_stands) h_name
  dsimp only at h_parent ⊢
  rw [Disk.bind_apply]
  generalize makeParent Disk.fileSystem (output.child name) d₁ = made at h_parent
  obtain ⟨e | ⟨⟩, d₂⟩ := made
  · rw [← h_parent] at h_keep
    exact h_keep
  · cases h_parent
    dsimp only
    rw [Disk.writeText_apply]
    refine h_keep.trans
      ((Disk.written_write (ne_empty_of_last h_name) (no_slash_of_last h_name) _ d₂).imp ?_)
    intro r h_here
    exact .inl h_here

/-- Copying does not fail if there is room for the copy. -/
theorem keep_eq_ok (h_room : d.Admits p)
    (h_backup : b.backup = true → d.isPresent p = true → d.Admits (backupPath p)) :
    ∃ d', b.keep Disk.fileSystem p d = (.ok (), d') ∧
      (d' = d ∨ ∃ content, d.write (backupPath p) content = .ok d') := by
  have h_look : Disk.fileSystem.isPresent p d = (d.isPresent p, d) := rfl
  unfold keep
  cases h_on : b.backup with
  | false => exact ⟨d, rfl, .inl rfl⟩
  | true =>
    simp only [Bool.not_true, Bool.false_eq_true, if_false]
    rw [Disk.bind_apply, h_look]
    cases h_present : d.isPresent p with
    | false => exact ⟨d, rfl, .inl rfl⟩
    | true =>
      -- something that can be overwritten is a file, so it can be copied
      obtain ⟨content, h_find⟩ := h_room.find_of_present h_present
      obtain ⟨d', h_write⟩ := (h_backup h_on h_present).write content
      refine ⟨d', ?_, .inr ⟨content, h_write⟩⟩
      have h_directory : Disk.fileSystem.isDirectory p d = (false, d) := by
        change (d.isDirectory p, d) = _
        rw [Disk.isDirectory, h_find]
      have h_read : Disk.fileSystem.read p d = (.ok content, d) := by
        change (d.read p, d) = _
        rw [Disk.read, h_find]
        rfl
      have h_copy : Disk.fileSystem.write (backupPath p) content d = (.ok (), d') := by
        rw [Disk.write_apply, h_write]
      simp only [if_true]
      rw [FileSystem.copy, Disk.bind_apply, h_directory]
      simp only [Bool.false_eq_true, if_false]
      rw [Disk.bind_apply, h_read]
      exact h_copy

/-- A file is stored if there is room for it and for the copy of what it overwrites. -/
theorem store_eq_ok (h_opens : d.Opens output) (h_name : IsName name)
    (h_room : d.Admits (output.child name))
    (h_backup : b.backup = true → d.isPresent (output.child name) = true →
      d.Admits (backupPath (output.child name))) (text : String) :
    ∃ d', b.store Disk.fileSystem (output.child name) text d = (.ok (), d') ∧
      d'.get? (output.route ++ [name]) = some (.file text.toUTF8) := by
  obtain ⟨d₁, h_keep, h_kept⟩ := keep_eq_ok h_room h_backup
  -- the copy does not get in the way
  have h_later : d₁.Opens output ∧ d₁.Admits (output.child name) := by
    -- no copy has been made, or it has been written like any file
    rcases h_kept with rfl | ⟨content, h_write⟩
    · exact ⟨h_opens, h_room⟩
    · exact ⟨(Disk.keeps_of_write h_write).opens h_opens, h_room.of_write h_write⟩
  obtain ⟨d', h_write⟩ := h_later.2.write text.toUTF8
  refine ⟨d', ?_, ?_⟩
  · rw [store, Disk.bind_apply, h_keep]
    dsimp only
    rw [Disk.bind_apply, makeParent_of_opens h_later.1 (.inr h_name)]
    dsimp only
    rw [Disk.writeText_apply, Disk.write_apply, h_write]
  · obtain ⟨r, n, h_follow, -, -, h_get⟩ := Disk.get?_of_write h_write
    obtain ⟨rfl, rfl⟩ := Disk.named_of_follow_child h_name.ne_empty h_name.no_slash h_follow
    rw [h_get, if_pos rfl]

/-! ### Files -/

/-- What comes of the tree in a file, before anything is written. -/
def outcome (session : Session) (d : Disk) (source : Path) : Except BatchError Output :=
  match (Disk.fileSystem.readText source d).1 with
  | .error e => .error (.unreadable source e)
  | .ok text =>
    match Json.decodeText? Program.decode? text with
    | none => .error (.unparsable source)
    | some program =>
      (session.transform .logged program (descriptor source)).1.result.mapError .rejected

/-- The outcome does not depend on what the session has counted. -/
theorem outcome_of_sameSetup {s s' : Session} (h : s.SameSetup s') (d : Disk) (source : Path) :
    outcome s' d source = outcome s d source := by
  have h_report := fun program => h.carryOut_report ⟨.logged, program, descriptor source⟩
  unfold Session.carryOut at h_report
  unfold outcome
  simp only [h_report]

/-- A file that is not selected comes back as it was. -/
theorem outcome_of_skipped {session : Session} {text : String} {program : Program}
    (h_read : d.read p = .ok text.toUTF8)
    (h_program : Json.decodeText? Program.decode? text = some program)
    (h_skip : session.selects (descriptor p) = false) :
    outcome session d p = .ok ⟨program, { skipped := true }⟩ := by
  rw [outcome, Disk.readText_eq_ok h_read]
  dsimp only
  rw [h_program]
  dsimp only
  rw [Session.transform_of_not_selected (Bool.eq_false_iff.1 h_skip)]
  rfl

/-- A text that is not that of a tree has no output. -/
theorem outcome_of_unparsable {session : Session} {text : String}
    (h_read : d.read p = .ok text.toUTF8)
    (h_program : Json.decodeText? Program.decode? text = none) :
    outcome session d p = .error (.unparsable p) := by
  rw [outcome, Disk.readText_eq_ok h_read]
  dsimp only
  rw [h_program]

/-- What comes of a file is stored, if there is something. -/
theorem transformFile_eq (source target : Path) (g : Progress) (d : Disk) :
    ∃ g' : Progress, g.session.SameSetup g'.session ∧ g'.summary = g.summary ∧
      b.transformFile Disk.fileSystem source target g d =
        match outcome g.session d source with
        | .error e => ((.error e, g'), d)
        | .ok output =>
          match b.store Disk.fileSystem target output.program.encode.pretty d with
          | (.error e, d') => ((.error (.io e), g'), d')
          | (.ok (), d') => ((.ok (.ofFile output.summary), g'), d') := by
  have h_same : g.session.SameSetup g.session := ⟨g.session.statistics, rfl⟩
  have h_disk := Disk.readText_snd d source
  unfold outcome
  -- each way to fail ends the run here, with the disk as it is
  rw [transformFile, Disk.bind_apply]
  generalize Disk.fileSystem.readText source d = read at h_disk ⊢
  obtain ⟨e | text, d₁⟩ := read
  · cases h_disk
    exact ⟨g, h_same, rfl, rfl⟩
  cases h_disk
  dsimp only
  cases Json.decodeText? Program.decode? text with
  | none => exact ⟨g, h_same, rfl, rfl⟩
  | some program =>
    -- from here on the session has counted the run, and nothing else about it is different
    have h_setup := g.session.carryOut_setup ⟨.logged, program, descriptor source⟩
    unfold Session.carryOut at h_setup
    dsimp only at h_setup ⊢
    generalize g.session.transform .logged program (descriptor source) = run at h_setup ⊢
    obtain ⟨report, session⟩ := run
    refine ⟨{ g with session }.tell report.events, h_setup, rfl, ?_⟩
    dsimp only
    cases report.result with
    | error e => rfl
    | ok output =>
      dsimp only [Except.mapError]
      rw [Disk.bind_apply]
      generalize b.store Disk.fileSystem target output.program.encode.pretty d₁ = stored
      obtain ⟨e | ⟨⟩, d₂⟩ := stored <;> rfl

/-- A file is read and transformed in the course of a batch, and the result is stored if there is
one. -/
theorem transformEntry_eq (source target : Path) (g : Progress) (d : Disk) :
    ∃ g' : Progress, g.session.SameSetup g'.session ∧ g'.summary = g.summary ∧
      b.transformEntry Disk.fileSystem source target g d =
        match outcome g.session d source with
        | .error e => (g'.fail source e, d)
        | .ok output =>
          match b.store Disk.fileSystem target output.program.encode.pretty d with
          | (.error e, d') => (g'.fail source (.io e), d')
          | (.ok (), d') => (g'.add (.ofFile output.summary), d') := by
  obtain ⟨g', h_setup, h_summary, h_file⟩ := transformFile_eq (b := b) source target g d
  refine ⟨g', h_setup, h_summary, ?_⟩
  rw [transformEntry, Disk.bind_apply, h_file]
  cases outcome g.session d source with
  | error e => rfl
  | ok output =>
    dsimp only
    generalize b.store Disk.fileSystem target output.program.encode.pretty d = stored
    obtain ⟨e | ⟨⟩, d'⟩ := stored <;> rfl

/-- The directory for the outputs of a directory of the given name. -/
def innerOutput (b : Batch) (output : Path) (name : String) : Path :=
  if b.keepStructure then output.child name else output

/-- A directory is made directly below what stands, and nothing else is made on the way. -/
theorem makeDirectories_child (h_stands : d.Stands output) (h_name : IsName name)
    (h_absent : d.isPresent (output.child name) = false)
    (h : Disk.fileSystem.makeDirectories (output.child name) d = (.ok (), d')) :
    d'.isDirectory (output.child name) = true ∧ d.get? (output.route ++ [name]) = none ∧
      ∀ r, d'.get? r = if r = output.route ++ [name] then some .directory else d.get? r := by
  -- the path ends with the name, so it is not the empty one
  have h_empty : output.child name ≠ .empty := by
    intro h_empty
    have h_last := Path.getLast?_segments_child output h_name.no_slash
    rw [h_empty] at h_last
    exact h_name.ne_empty (Option.some.inj h_last).symm
  have h_made : d'.isDirectory (output.child name) = true := by
    have h_opens := Disk.opens_of_makeDirectories (congrArg Prod.fst h)
    rw [h] at h_opens
    exact h_opens.resolve_left h_empty
  have h_grows := Disk.growing_makeDirectories (output.child name) d
  rw [h] at h_grows
  -- the directory has been made in something that is a directory then, and so it was before
  have h_above : d'.get? output.route = some .directory := by
    have h_get := Disk.get?_of_isDirectory h_made
    rw [Path.route_child output h_name] at h_get
    exact Disk.get?_of_get?_append h_get
  have h_opens := h_stands.opens_of_grows h_grows h_above
  obtain ⟨h_fits, h_short, -⟩ :=
    (Disk.isDirectory_child_iff (h_grows.directories.opens h_opens) h_name).1 h_made
  -- what stands there would have been found
  have h_none : d.get? (output.route ++ [name]) = none := by
    cases h_get : d.get? (output.route ++ [name]) with
    | none => rfl
    | some e =>
      have h_find := Disk.find_child h_opens h_name h_fits h_short
      rw [h_get] at h_find
      rw [Disk.isPresent, h_find] at h_absent
      cases h_absent
  have h_make : d.makeDirectory (output.child name) =
      .ok (d.put (output.route ++ [name]) .directory) :=
    Disk.makeDirectory_eq_ok_iff.2
      ⟨_, _, _, Disk.follow_child h_opens h_name h_fits, h_short, h_none, rfl⟩
  -- so the first attempt succeeds, and nothing is made on the way
  have h_disk : d.put (output.route ++ [name]) .directory = d' := by
    rw [FileSystem.makeDirectories, if_neg h_empty, FileSystem.makeBelow, Disk.bind_apply,
      Disk.makeDirectory_apply, h_make] at h
    exact congrArg Prod.snd h
  rw [h_disk] at h_make
  refine ⟨h_made, h_none, fun r => ?_⟩
  rw [(Disk.get?_of_makeDirectory h_make r).2, Path.route_child output h_name]

/-- What comes of making the directory for the outputs of a directory: it is there, or it is made,
or no directory is to be made. -/
theorem makeOutput_eq_ok (h_stands : d.Stands output) (h_name : IsName name)
    (h : b.makeOutput Disk.fileSystem (b.innerOutput output name) g d = ((.ok (), g'), d')) :
    d'.Stands (b.innerOutput output name) ∧
      (d' = d ∧ g' = g ∨
        b.keepStructure = true ∧ g' = g.add { directoriesMade := 1 } ∧
          d.get? (output.route ++ [name]) = none ∧
          ∀ r, d'.get? r = if r = output.route ++ [name] then some .directory else d.get? r) := by
  unfold makeOutput innerOutput at h
  unfold innerOutput
  cases h_keep : b.keepStructure with
  | false =>
    rw [h_keep] at h
    cases h
    exact ⟨h_stands, .inl ⟨rfl, rfl⟩⟩
  | true =>
    -- something of the name may be there, even a file, and then nothing is made
    rw [h_keep] at h
    simp only [Bool.not_true, Bool.false_eq_true, if_false, if_true] at h ⊢
    have h_look : Disk.fileSystem.isPresent (output.child name) d =
        (d.isPresent (output.child name), d) := rfl
    rw [Disk.bind_apply, h_look] at h
    cases h_present : d.isPresent (output.child name) with
    | true =>
      rw [h_present] at h
      cases h
      exact ⟨.inr h_present, .inl ⟨rfl, rfl⟩⟩
    | false =>
      rw [h_present] at h
      simp only [Bool.false_eq_true, if_false] at h
      rw [Disk.bind_apply] at h
      generalize h_made : Disk.fileSystem.makeDirectories (output.child name) d = made at h
      obtain ⟨e | ⟨⟩, d₁⟩ := made
      · cases h
      · cases h
        obtain ⟨h_directory, h_none, h_get⟩ :=
          makeDirectories_child h_stands h_name h_present h_made
        exact ⟨.inr (Disk.isPresent_of_isDirectory h_directory), .inr ⟨trivial, rfl, h_none, h_get⟩⟩

end Batch

end AsyncMarkers
