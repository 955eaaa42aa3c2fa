import AsyncMarkers.Disk.Basic

/-!
# Files on a disk

What is written under a path is what can be read under it afterwards (`Disk.read_of_write`).

A path is followed through directories only, and `Disk.step` says where a segment leads to by
looking at nothing but what `Disk.get?` shows. So a path that can be followed on one disk leads to
the same place on every disk that has the directories of the first one (`Disk.Keeps.follow`), and
writing a file takes no directory away.
-/

namespace AsyncMarkers

/-- A route is followed one part after the other. -/
theorem FileTree.get?_append (r r' : Route) (t : FileTree) :
    get? (r ++ r') t = (get? r t).bind (get? r') := by
  induction r generalizing t with
  | nil => rfl
  | cons name r ih =>
    cases t with
    | file content => rfl
    | directory entries =>
      rw [List.cons_append, get?, get?]
      cases entries.lookup name with
      | none => rfl
      | some t => exact ih t

namespace Disk

variable {d d' : Disk}

/-- What a directory holds under a name stands at the end of the longer route. -/
theorem lookup_entriesAt (d : Disk) (r : Route) (name : String) :
    (d.entriesAt r).lookup name = FileTree.get? (r ++ [name]) d.tree := by
  rw [FileTree.get?_append, entriesAt]
  cases FileTree.get? r d.tree with
  | none => rfl
  | some t =>
    cases t with
    | file content => rfl
    | directory entries =>
      rw [Option.bind_some, FileTree.get?]
      cases entries.lookup name <;> rfl

/-- What has something below it is a directory. -/
theorem get?_of_get?_append {r : Route} {name : String} {e : Entry}
    (h : d.get? (r ++ [name]) = some e) : d.get? r = some .directory := by
  unfold get? FileTree.entryAt at h ⊢
  rw [Option.bind_some] at h ⊢
  rw [FileTree.get?_append] at h
  cases h_tree : FileTree.get? r d.tree with
  | none =>
    rw [h_tree] at h
    cases h
  | some t =>
    cases t with
    | file content =>
      rw [h_tree] at h
      cases h
    | directory entries => rfl

/-! ### Following paths by names alone -/

/-- Where a segment leads to from the directory that names lead to, the last one first. -/
def step (d : Disk) (names : List String) (segment : String) : Except IoError (List String) :=
  if segment = "." then .ok names
  else if segment = ".." then .ok names.tail
  else if Path.maxSegmentBytes < segment.utf8ByteSize then .error .nameTooLong
  else
    match d.get? (segment :: names).reverse with
    | some .directory => .ok (segment :: names)
    | some (.file _) => .error .notDirectory
    | none => .error .notFound

/-- To enter a directory is to make a step with the names that lead to it. -/
theorem enter_place (d : Disk) (names : List String) (segment : String) :
    d.enter (d.place names) segment = (d.step names segment).map d.place := by
  unfold enter step
  split
  · rfl
  split
  · rfl
  split
  · rfl
  -- what is left is to look the segment up
  have h_lookup : (d.place names).entries.lookup segment =
      FileTree.get? (segment :: names).reverse d.tree := by
    rw [List.reverse_cons]
    exact d.lookup_entriesAt names.reverse segment
  rw [h_lookup, get?, FileTree.entryAt, Option.bind_some]
  cases h_tree : FileTree.get? (segment :: names).reverse d.tree with
  | none => rfl
  | some t =>
    cases t with
    | file content => rfl
    | directory entries =>
      have h_entries : d.entriesAt (segment :: names).reverse = entries := by
        rw [entriesAt, h_tree]
      rw [← h_entries]
      rfl

/-- So is to enter one directory after the other. -/
theorem foldlM_enter (d : Disk) (names : List String) (segments : List String) :
    segments.foldlM d.enter (d.place names) = (segments.foldlM d.step names).map d.place := by
  induction segments generalizing names with
  | nil => rfl
  | cons segment segments ih =>
    rw [List.foldlM_cons, List.foldlM_cons, enter_place]
    cases d.step names segment with
    | error e => rfl
    | ok names' => exact ih names'

/-- A step leads from a directory to a directory. -/
theorem get?_step {names names' : List String} {segment : String}
    (h_step : d.step names segment = .ok names') (h : d.get? names.reverse = some .directory) :
    d.get? names'.reverse = some .directory := by
  unfold step at h_step
  split at h_step
  · cases h_step
    exact h
  split at h_step
  · -- upwards: nothing is above the root, and what is above a directory is one
    cases h_step
    cases names with
    | nil => exact h
    | cons name names =>
      rw [List.reverse_cons] at h
      exact get?_of_get?_append h
  split at h_step
  · cases h_step
  split at h_step
  · next h_directory =>
    cases h_step
    exact h_directory
  · cases h_step
  · cases h_step

/-- Steps lead from a directory to a directory. -/
theorem get?_foldlM_step {names names' : List String} {segments : List String}
    (h_walk : segments.foldlM d.step names = .ok names')
    (h : d.get? names.reverse = some .directory) : d.get? names'.reverse = some .directory := by
  induction segments generalizing names with
  | nil =>
    cases h_walk
    exact h
  | cons segment segments ih =>
    rw [List.foldlM_cons] at h_walk
    cases h_step : d.step names segment with
    | error e =>
      rw [h_step] at h_walk
      cases h_walk
    | ok next =>
      rw [h_step] at h_walk
      exact ih h_walk (get?_step h_step h)

/-! ### Disks with the same directories -/

/-- Whether every directory of a disk is one of another disk too. -/
def Keeps (d d' : Disk) : Prop := ∀ r, d.get? r = some .directory → d'.get? r = some .directory

/-- A step that is made on a disk is made on one that has all of its directories. -/
theorem Keeps.step (h : d.Keeps d') {names names' : List String} {segment : String}
    (h_step : d.step names segment = .ok names') : d'.step names segment = .ok names' := by
  unfold Disk.step at h_step ⊢
  by_cases h_dot : segment = "."
  · rw [if_pos h_dot] at h_step ⊢
    exact h_step
  rw [if_neg h_dot] at h_step ⊢
  by_cases h_up : segment = ".."
  · rw [if_pos h_up] at h_step ⊢
    exact h_step
  rw [if_neg h_up] at h_step ⊢
  by_cases h_long : Path.maxSegmentBytes < segment.utf8ByteSize
  · rw [if_pos h_long] at h_step
    cases h_step
  rw [if_neg h_long] at h_step ⊢
  split at h_step
  · next h_directory =>
    -- only here is the disk looked at, and it is looked at for a directory
    rw [h _ h_directory]
    exact h_step
  · cases h_step
  · cases h_step

/-- So are steps one after the other. -/
theorem Keeps.foldlM_step (h : d.Keeps d') {names names' : List String} {segments : List String}
    (h_walk : segments.foldlM d.step names = .ok names') :
    segments.foldlM d'.step names = .ok names' := by
  induction segments generalizing names with
  | nil => exact h_walk
  | cons segment segments ih =>
    rw [List.foldlM_cons] at h_walk ⊢
    cases h_step : d.step names segment with
    | error e =>
      rw [h_step] at h_walk
      cases h_walk
    | ok next =>
      rw [h_step] at h_walk
      rw [h.step h_step]
      exact ih h_walk

/-- What it takes to follow a path. -/
theorem follow_eq_ok_iff {p : Path} {t : Target} :
    d.follow p = .ok t ↔
      p ≠ .empty ∧ ¬p.text.toList.contains '\x00' ∧ ¬Path.maxBytes < p.text.utf8ByteSize ∧
      ((p.segments.filter (· ≠ "")).reverse = [] ∧ t = .passed [] ∨
        ∃ segment before names, (p.segments.filter (· ≠ "")).reverse = segment :: before ∧
          before.reverse.foldlM d.step [] = .ok names ∧
          t = last (d.place names) segment (p.segments.getLast? = some "")) := by
  unfold follow
  -- there are three reasons not to look at the segments at all
  by_cases h_empty : p = .empty
  · rw [if_pos h_empty]
    exact iff_of_false (by simp) fun h => h.1 h_empty
  by_cases h_zero : p.text.toList.contains '\x00'
  · rw [if_neg h_empty, if_pos h_zero]
    exact iff_of_false (by simp) fun h => h.2.1 h_zero
  by_cases h_long : Path.maxBytes < p.text.utf8ByteSize
  · rw [if_neg h_empty, if_neg h_zero, if_pos h_long]
    exact iff_of_false (by simp) fun h => h.2.2.1 h_long
  rw [if_neg h_empty, if_neg h_zero, if_neg h_long, and_iff_right h_empty, and_iff_right h_zero,
    and_iff_right h_long]
  generalize (p.segments.filter (· ≠ "")).reverse = segments
  cases segments with
  | nil => simp [eq_comm]
  | cons segment before =>
    -- what follows the last step along the way looks at the names only
    dsimp only
    rw [foldlM_enter]
    constructor
    · -- the steps up to the last segment must have been made
      intro h
      cases h_walk : before.reverse.foldlM d.step [] with
      | error e =>
        rw [h_walk] at h
        cases h
      | ok names =>
        rw [h_walk] at h
        exact .inr ⟨segment, before, names, rfl, h_walk, (Except.ok.inj h).symm⟩
    · rintro (⟨h_nil, -⟩ | ⟨_, _, names, h_cons, h_walk, rfl⟩)
      · cases h_nil
      · cases h_cons
        rw [h_walk]
        rfl

/-- A path leads to the same place on a disk that has all directories of the one it leads there
on. -/
theorem Keeps.follow (h : d.Keeps d') {p : Path} {t : Target} (h_follow : d.follow p = .ok t) :
    d'.follow p = .ok t := by
  obtain ⟨h_empty, h_zero, h_long, h_target⟩ := follow_eq_ok_iff.1 h_follow
  refine follow_eq_ok_iff.2 ⟨h_empty, h_zero, h_long, ?_⟩
  rcases h_target with h_none | ⟨segment, before, names, h_some, h_walk, h_last⟩
  · exact .inl h_none
  · exact .inr ⟨segment, before, names, h_some, h.foldlM_step h_walk, h_last⟩

/-- A name that a path leads to is a name in a directory. -/
theorem get?_of_follow {p : Path} {r : Route} {name : String} {slash : Bool}
    (h : d.follow p = .ok (.named r name slash)) : d.get? r = some .directory := by
  obtain ⟨-, -, -, ⟨-, h_passed⟩ | ⟨segment, before, names, -, h_walk, h_last⟩⟩ :=
    follow_eq_ok_iff.1 h
  · cases h_passed
  · -- a dot, or two of them, do not lead to a name
    unfold last at h_last
    split at h_last
    · cases h_last
    split at h_last
    · cases h_last
    cases h_last
    exact get?_foldlM_step h_walk d.get?_nil

/-- A name that a path leads to is a proper one, since it is a segment of the path. -/
theorem isName_of_follow {p : Path} {r : Route} {name : String} {slash : Bool}
    (h : d.follow p = .ok (.named r name slash)) : IsName name := by
  obtain ⟨-, -, -, ⟨-, h_passed⟩ | ⟨segment, before, names, h_segments, -, h_last⟩⟩ :=
    follow_eq_ok_iff.1 h
  · cases h_passed
  · have h_mem : segment ∈ p.segments.filter (· ≠ "") := by
      rw [← List.mem_reverse, h_segments]
      exact List.mem_cons_self
    obtain ⟨h_mem, h_full⟩ := List.mem_filter.1 h_mem
    -- dots do not lead to a name
    unfold last at h_last
    split at h_last
    · cases h_last
    next h_dot =>
    split at h_last
    · cases h_last
    next h_up =>
    cases h_last
    exact ⟨by simpa using h_full, h_dot, h_up, Path.no_slash_of_mem_segments h_mem⟩

/-! ### Writing and reading -/

/-- What it takes to write a file, and what comes of it. -/
theorem write_eq_ok_iff {p : Path} {content : ByteArray} :
    d.write p content = .ok d' ↔
      ∃ r name, d.follow p = .ok (.named r name false) ∧
        ¬Path.maxSegmentBytes < name.utf8ByteSize ∧ d.get? (r ++ [name]) ≠ some .directory ∧
        d.put (r ++ [name]) (.file content) = d' := by
  unfold write
  constructor
  · intro h
    cases h_follow : d.follow p with
    | error e =>
      rw [h_follow] at h
      cases h
    | ok t =>
      rw [h_follow] at h
      -- a file can only be written under a name with nothing behind it
      cases t with
      | passed r => cases h
      | named r name slash =>
        cases slash with
        | true => cases h
        | false =>
          change (d.look r name >>= _) = _ at h
          unfold look at h
          split at h
          · cases h
          next h_short =>
          refine ⟨r, name, rfl, h_short, ?_⟩
          generalize d.get? (r ++ [name]) = found at h ⊢
          -- a file may stand there or nothing, but no directory
          rcases found with _ | old | _
          · exact ⟨by simp, Except.ok.inj h⟩
          · exact ⟨by simp, Except.ok.inj h⟩
          · cases h
  · rintro ⟨r, name, h_follow, h_short, h_free, rfl⟩
    rw [h_follow]
    change (d.look r name >>= _) = _
    rw [look, if_neg h_short]
    generalize d.get? (r ++ [name]) = found at h_free
    rcases found with _ | old | _
    · rfl
    · rfl
    · exact absurd rfl h_free

/-- Writing a file changes what stands at one place, the name that the path leads to, and nothing
else. -/
theorem get?_of_write {p : Path} {content : ByteArray} (h : d.write p content = .ok d') :
    ∃ r name, d.follow p = .ok (.named r name false) ∧
      ¬Path.maxSegmentBytes < name.utf8ByteSize ∧ d.get? (r ++ [name]) ≠ some .directory ∧
      ∀ r', d'.get? r' = if r' = r ++ [name] then some (.file content) else d.get? r' := by
  obtain ⟨r, name, h_follow, h_short, h_free, rfl⟩ := write_eq_ok_iff.1 h
  exact ⟨r, name, h_follow, h_short, h_free,
    get?_put (get?_of_follow h_follow) (isName_of_follow h_follow) h_free _⟩

/-- Writing a file takes no directory away. -/
theorem keeps_of_write {p : Path} {content : ByteArray} (h : d.write p content = .ok d') :
    d.Keeps d' := by
  obtain ⟨r, name, -, -, h_free, h_get⟩ := get?_of_write h
  intro r' h_directory
  rw [h_get]
  split
  · next h_same => exact absurd (h_same ▸ h_directory) h_free
  · exact h_directory

/-- A file can be read under a path that leads to it. -/
theorem read_eq_ok {p : Path} {r : Route} {name : String} {content : ByteArray}
    (h_follow : d.follow p = .ok (.named r name false))
    (h_short : ¬Path.maxSegmentBytes < name.utf8ByteSize)
    (h_file : d.get? (r ++ [name]) = some (.file content)) : d.read p = .ok content := by
  have h_look : d.look r name = .ok (some (.file content)) := by
    rw [look, if_neg h_short, h_file]
  have h_find : d.find p = .ok (r ++ [name], .file content) := by
    rw [find, h_follow]
    change (d.look r name >>= _) = _
    rw [h_look]
    rfl
  rw [read, h_find]
  rfl

/-- What has been written under a path can be read under it. -/
theorem read_of_write {p : Path} {content : ByteArray} (h : d.write p content = .ok d') :
    d'.read p = .ok content := by
  obtain ⟨r, name, h_follow, h_short, -, h_get⟩ := get?_of_write h
  have h_file : d'.get? (r ++ [name]) = some (.file content) := by
    rw [h_get, if_pos rfl]
  exact read_eq_ok ((keeps_of_write h).follow h_follow) h_short h_file

/-! ### Texts -/

/-- One operation after the other. -/
theorem bind_apply {α β : Type} (x : StateM Disk α) (f : α → StateM Disk β) (d : Disk) :
    (x >>= f) d = f (x d).1 (x d).2 := rfl

/-- A file is written, or the disk stays as it is. -/
theorem write_apply (d : Disk) (p : Path) (content : ByteArray) :
    fileSystem.write p content d =
      match d.write p content with
      | .ok d' => (.ok (), d')
      | .error e => (.error e, d) := rfl

/-- A text is written as its bytes. -/
theorem writeText_apply (d : Disk) (p : Path) (text : String) :
    fileSystem.writeText p text d = fileSystem.write p text.toUTF8 d := rfl

/-- A file that could be written has been written. -/
theorem write_of_write_apply {p : Path} {content : ByteArray}
    (h : fileSystem.write p content d = (.ok (), d')) : d.write p content = .ok d' := by
  rw [write_apply] at h
  split at h
  · next d'' h_write =>
    cases h
    exact h_write
  · cases h

/-- Reading leaves the disk as it is. -/
theorem readText_snd (d : Disk) (p : Path) : (fileSystem.readText p d).2 = d := by
  have h_read : fileSystem.read p d = (d.read p, d) := rfl
  rw [FileSystem.readText, bind_apply, h_read]
  cases d.read p with
  | error e => rfl
  | ok bytes =>
    dsimp only
    cases String.fromUTF8? bytes <;> rfl

/-- The bytes of a text are read as that text. -/
theorem readText_eq_ok {p : Path} {text : String} (h : d.read p = .ok text.toUTF8) :
    fileSystem.readText p d = (.ok text, d) := by
  have h_read : fileSystem.read p d = (.ok text.toUTF8, d) := by
    rw [← h]
    rfl
  have h_text : String.fromUTF8? text.toUTF8 = some text := dif_pos text.isValidUTF8
  rw [FileSystem.readText, bind_apply, h_read]
  dsimp only
  rw [h_text]
  rfl

end Disk

end AsyncMarkers
