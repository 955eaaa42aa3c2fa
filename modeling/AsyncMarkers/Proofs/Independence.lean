import AsyncMarkers.Proofs.Coverage

/-!
# Files of a directory do not see one another

If the outputs of a run over a directory stand apart from the sources and from one another
(`Batch.Apart`), and there is room for them (`Batch.HasRoom`), then each file is treated as if it
were the only one: its output is what a session that has done nothing yet makes of it, and if there
is none, nothing is written and one line is added to the errors. What has been done until a file is
come to has changed neither the file nor what stands where its output goes, and what is done later
does not change the output (`Batch.Toured.passage`).
-/

namespace AsyncMarkers

namespace Path

/-- Two dots at the end of a path lead to the directory above. -/
theorem route_child_up (p : Path) : (p.child "..").route = p.route.dropLast := by
  rw [route_eq, route_eq, filter_segments_child p (by decide) (by decide), List.foldl_append,
    List.foldl_cons, List.foldl_nil, List.dropLast_reverse]
  rfl

end Path

namespace Disk

variable {d d' : Disk} {p : Path} {r : Route} {name : String} {e : Entry}

/-! ### What is found depends on little -/

/-- The way to something in a directory is the same wherever the directory can be entered. -/
theorem follow_child_congr (h : d.Opens p) (h' : d'.Opens p) (h_name : IsName name) :
    d'.follow (p.child name) = d.follow (p.child name) := by
  by_cases h_fits : (p.child name).Fits
  · rw [follow_child h h_name h_fits, follow_child h' h_name h_fits]
  · -- the path is refused before the disk is looked at
    unfold follow
    split
    · rfl
    next h_empty =>
    split
    · rfl
    next h_zero =>
    split
    · rfl
    next h_long => exact absurd ⟨h_empty, h_zero, h_long⟩ h_fits

/-- What is found in a directory depends on what stands there and on nothing else. -/
theorem find_child_congr (h : d.Opens p) (h' : d'.Opens p) (h_name : IsName name)
    (h_get : d'.get? (p.route ++ [name]) = d.get? (p.route ++ [name])) :
    d'.find (p.child name) = d.find (p.child name) := by
  rw [find, find, follow_child_congr h h' h_name]
  cases h_follow : d.follow (p.child name) with
  | error e => rfl
  | ok t =>
    cases t with
    | passed r => rfl
    | named r n slash =>
      -- only the name is looked up, and the way to it is the same
      obtain ⟨rfl, rfl⟩ := named_of_follow_child h_name.ne_empty h_name.no_slash h_follow
      have h_look : d'.look p.route n = d.look p.route n := by
        unfold look
        rw [h_get]
      change (d'.look p.route n >>= _) = (d.look p.route n >>= _)
      rw [h_look]

/-- What is read depends on what is found. -/
theorem readText_congr (h : d'.find p = d.find p) :
    (fileSystem.readText p d').1 = (fileSystem.readText p d).1 := by
  have h_read : d'.read p = d.read p := by rw [read, read, h]
  have h_apply : ∀ d : Disk, fileSystem.read p d = (d.read p, d) := fun _ => rfl
  unfold FileSystem.readText
  rw [bind_apply, bind_apply, h_apply, h_apply, h_read]
  cases d.read p with
  | error e => rfl
  | ok bytes =>
    cases h_text : String.fromUTF8? bytes <;> simp only [h_text] <;> rfl

/-! ### What stands somewhere -/

/-- What something stands in is a directory, up to the top of the disk. -/
theorem get?_dropLast (h : d.get? r = some e) : d.get? r.dropLast = some .directory := by
  rcases List.eq_nil_or_concat r with rfl | ⟨front, name, rfl⟩
  · -- there is nothing above the top, so it counts as its own directory
    exact d.get?_nil
  · rw [List.concat_eq_append, List.dropLast_concat]
    rw [List.concat_eq_append] at h
    exact get?_of_get?_append h

/-- There is something at the end of the route of what stands. -/
theorem Stands.exists_get? (h : d.Stands p) : ∃ e, d.get? p.route = some e := by
  rcases h with rfl | h_present
  · exact ⟨.directory, d.get?_nil⟩
  · obtain ⟨e, h_find⟩ := isPresent_iff.1 h_present
    exact ⟨e, (find_eq_ok h_find).2⟩

/-- No file can be written to the directory above. -/
theorem not_admits_up (p : Path) : ¬d.Admits (p.child "..") := by
  intro h
  obtain ⟨r, name, h_follow, -⟩ := admits_iff.1 h
  have h_up : ".." ≠ "" ∧ '/' ∉ "..".toList := by decide
  obtain ⟨-, rfl⟩ := named_of_follow_child h_up.1 h_up.2 h_follow
  exact (isName_of_follow h_follow).ne_up rfl

end Disk

namespace Batch

variable {b : Batch} {source target output : Path} {d d' : Disk} {items before after : List Item}
  {u v : Item} {st st₁ st₂ st' : Progress × Disk} {r rel : Route} {name : String}
  {session : Session}

/-- What comes of a file depends on what is found. -/
theorem outcome_congr {p : Path} (h : d'.find p = d.find p) :
    outcome session d' p = outcome session d p := by
  rw [outcome, outcome, Disk.readText_congr h]

/-- A source is come to by the path that leads to it. -/
theorem path_itemAt (h_open : d.isDirectory source = true)
    (h : rel ∈ b.sources d source) : (b.itemAt source target rel).path = source.below rel := by
  obtain ⟨front, name, rfl, -⟩ := exists_concat_of_mem_sources h_open h
  rw [itemAt_concat, Path.below_concat]
  rfl

/-- The directory that a source stands in can be entered. -/
theorem isDirectory_itemAt (h_open : d.isDirectory source = true) (h_reaches : d.Reaches source)
    (h : rel ∈ b.sources d source) :
    d.isDirectory (b.itemAt source target rel).directory = true := by
  obtain ⟨⟨content, h_file⟩, -⟩ := mem_sources_iff.1 h
  obtain ⟨front, name, rfl, -⟩ := exists_concat_of_mem_sources h_open h
  rw [itemAt_concat]
  rw [← List.append_assoc] at h_file
  exact h_reaches front (Disk.get?_of_get?_append h_file)

/-! ### Where outputs are -/

/-- The path of the output for a source. -/
def outputOf (b : Batch) (target : Path) (rel : Route) : Path :=
  b.outputPath (b.outputBelow target rel.dropLast) (rel.getLastD "")

/-- Whether the outputs of a run stand apart from its sources and from one another. -/
structure Apart (b : Batch) (source target : Path) (d d' : Disk) : Prop where
  target_outside : ¬source.route <+: target.route
  source_outside : ¬target.route <+: source.route
  /-- Different sources have different outputs. -/
  distinct : ∀ rel ∈ b.sources d source, ∀ rel' ∈ b.sources d source,
    (b.outputOf target rel).route = (b.outputOf target rel').route → rel = rel'
  /-- No output is where a directory is. -/
  free : ∀ rel ∈ b.sources d source, d'.get? (b.outputOf target rel).route ≠ some .directory
  /-- No output is where the copy of another one goes. -/
  copies : b.backup = true → ∀ rel ∈ b.sources d source, ∀ rel' ∈ b.sources d source, rel ≠ rel' →
    (b.outputOf target rel).route ≠ (backupPath (b.outputOf target rel')).route

/-- Whether nothing gets in the way of a run: all directories are within reach, and outputs and the
copies of what they overwrite can be written. -/
structure HasRoom (b : Batch) (session : Session) (source target : Path) (d d' : Disk) : Prop where
  reaches : d'.Reaches source
  outputs : ∀ rel ∈ b.sources d source, ∀ o, outcome session d (source.below rel) = .ok o →
    d'.Admits (b.outputOf target rel) ∧
      (b.backup = true → d.get? (b.outputOf target rel).route ≠ none →
        d'.Admits (backupPath (b.outputOf target rel)))

/-- Directories that stand apart keep clear of one another. -/
theorem Apart.keepsClear (h : b.Apart source target d d') : b.KeepsClear source target :=
  ⟨fun h_in => absurd h_in h.target_outside, fun _ h_out => absurd h_out h.source_outside⟩

/-- Nothing is written where the sources are. -/
theorem Apart.not_writes_source (h : b.Apart source target d d')
    (h_u : u.IsBelow b source target rel) (h_r : source.route <+: r) :
    ¬b.Writes u.output name r := by
  -- all outputs stand below the target
  have h_output : target.route <+: u.output.route := by
    rw [h_u.output_route]
    split
    · exact List.prefix_append _ _
    · exact List.prefix_refl _
  have h_target : b.Writes u.output name r → target.route <+: r := by
    rintro (rfl | ⟨-, rfl⟩) <;> exact h_output.trans (List.prefix_append _ _)
  intro h_writes
  -- both directories would be above the same place
  rcases List.prefix_or_prefix_of_prefix h_r (h_target h_writes) with h_in | h_out
  · exact h.target_outside h_in
  · exact h.source_outside h_out

/-- What is written for a file is found under the path of the output and under that of the copy. -/
theorem Writes.route_eq (h_extension : '/' ∉ b.outputExtension.toList) (h_name : IsName name)
    (h : b.Writes output (b.outputName name) r) (h_r : ∀ n ∈ r, IsName n) :
    r = (b.outputPath output name).route ∨
      b.backup = true ∧ r = (backupPath (b.outputPath output name)).route := by
  rw [outputPath_eq h_name h_extension, backupPath_eq (isName_outputName h_name h_extension)]
  rcases h with rfl | ⟨h_backup, rfl⟩
  · exact .inl (Path.route_child output (h_r _ (by simp))).symm
  · exact .inr ⟨h_backup, (Path.route_child output (h_r _ (by simp))).symm⟩

/-- An output that is not where a directory is has a proper name. -/
theorem Handles.isName_target (h : b.Handles v st₁ st₂)
    (h_extension : '/' ∉ b.outputExtension.toList) (h_grows : st₁.2.Grows d')
    (h_free : d'.get? (v.target b).route ≠ some .directory) : IsName (b.outputName v.name) := by
  rcases isName_outputName h.isName h_extension with h_up | h_name
  · -- two dots lead to the directory above the output directory
    obtain ⟨e, h_get⟩ := h.stands.exists_get?
    rw [Item.target, outputPath_eq h.isName h_extension, h_up, Path.route_child_up] at h_free
    exact absurd (h_grows.directories _ (Disk.get?_dropLast h_get)) h_free
  · exact h_name

/-- An output stands in the output directory. -/
theorem Handles.route_target (h : b.Handles v st₁ st₂)
    (h_extension : '/' ∉ b.outputExtension.toList) (h_name : IsName (b.outputName v.name)) :
    (v.target b).route = v.output.route ++ [b.outputName v.name] := by
  rw [Item.target, outputPath_eq h.isName h_extension, Path.route_child v.output h_name]

/-- All names on the way to an output are proper. -/
theorem Handles.names_target (h : b.Handles v st₁ st₂)
    (h_extension : '/' ∉ b.outputExtension.toList) (h_name : IsName (b.outputName v.name)) :
    ∀ n ∈ (v.target b).route, IsName n := by
  obtain ⟨e, h_get⟩ := h.stands.exists_get?
  rw [h.route_target h_extension h_name]
  intro n h_n
  rcases List.mem_append.1 h_n with h_before | h_last
  · exact Disk.isName_of_get? h_get n h_before
  · rwa [List.mem_singleton.1 h_last]

/-- An output is stored if there is room for it by the end of the run. -/
theorem Handles.store_of_room (h : b.Handles v st₁ st₂)
    (h_extension : '/' ∉ b.outputExtension.toList) (h_grows : st₁.2.Grows d')
    (h_name : IsName (b.outputName v.name)) (h_room : d'.Admits (v.target b))
    (h_copy : b.backup = true → st₁.2.get? (v.target b).route ≠ none →
      d'.Admits (backupPath (v.target b))) (text : String) :
    ∃ d₂, b.store Disk.fileSystem (v.target b) text st₁.2 = (.ok (), d₂) ∧
      d₂.get? (v.target b).route = some (.file text.toUTF8) := by
  rw [h.route_target h_extension h_name] at h_copy ⊢
  rw [Item.target, outputPath_eq h.isName h_extension] at h_room h_copy ⊢
  obtain ⟨h_opens, h_admits⟩ := h_room.of_grows h_grows h.stands h_name
  refine store_eq_ok h_opens h_name h_admits (fun h_on h_present => ?_) text
  obtain ⟨e, h_find⟩ := Disk.isPresent_iff.1 h_present
  have h_there : st₁.2.get? (v.output.route ++ [b.outputName v.name]) ≠ none := by
    rw [← Path.route_child v.output h_name, (Disk.find_eq_ok h_find).2]
    simp
  -- the copy can be made now, since it can be made at the end
  have h_later := h_copy h_on h_there
  rw [backupPath_eq (.inr h_name)] at h_later ⊢
  rcases isName_backupName (.inr h_name) with h_up | h_backup
  · rw [h_up] at h_later
    exact absurd h_later (Disk.not_admits_up _)
  · exact (h_later.of_grows h_grows h.stands h_backup).2

/-! ### What stays as it is -/

/-- Files that nothing is written to are the same before and after. -/
theorem HandlesAll.file_iff (h : b.HandlesAll items st st')
    (h_extension : '/' ∉ b.outputExtension.toList)
    (h_others : ∀ v ∈ items, v.isDirectory = false → ¬b.Writes v.output (b.outputName v.name) r)
    {content : ByteArray} :
    st'.2.get? r = some (.file content) ↔ st.2.get? r = some (.file content) := by
  constructor
  · intro h_file
    rw [← h.kept h_extension h_others (by simp [h_file]), h_file]
  · intro h_file
    obtain ⟨content', h_later⟩ := h.grows.files h_file
    rw [h.kept h_extension h_others (by simp [h_later]), h_file]

section Run

variable (h_extension : '/' ∉ b.outputExtension.toList)

include h_extension

/-- The files that a run comes to are the sources. -/
theorem Toured.mem_iff (h : b.Toured source target d items st st')
    (h_apart : b.Apart source target d st'.2) (h_reaches : st'.2.Reaches source) :
    v ∈ items ∧ v.isDirectory = false ↔
      ∃ rel ∈ b.sources d source, b.itemAt source target rel = v := by
  have h_files := (h.files_perm h_extension (.inl h_apart.keepsClear) h_reaches).mem_iff (a := v)
  rw [List.mem_filter, List.mem_map] at h_files
  simpa using h_files

/-- The sources are the same before and after, and at every moment in between. -/
theorem Toured.source_iff (h : b.Toured source target d items st st')
    (h_apart : b.Apart source target d st'.2) (h_before : b.HandlesAll before st st₁)
    (h_sub : before ⊆ items) (h_r : source.route <+: r) {content : ByteArray} :
    st₁.2.get? r = some (.file content) ↔ d.get? r = some (.file content) := by
  rw [h_before.file_iff h_extension, h.adds.get?_eq_file]
  -- all that is written is outputs and copies, and these go somewhere else
  intro u h_u _
  obtain ⟨rel, h_below⟩ := h.isBelow (h_sub h_u)
  exact h_apart.not_writes_source h_below h_r

/-- Nothing is written to the output of a source but for that source. -/
theorem Toured.not_writes_output (h : b.Toured source target d items st st')
    (h_apart : b.Apart source target d st'.2) (h_reaches : st'.2.Reaches source)
    (h_u : u ∈ items ∧ u.isDirectory = false) (h_v : v ∈ items ∧ v.isDirectory = false)
    (h_ne : u ≠ v) (h_names : ∀ n ∈ (v.target b).route, IsName n) :
    ¬b.Writes u.output (b.outputName u.name) (v.target b).route := by
  intro h_writes
  obtain ⟨_, h_below⟩ := h.isBelow h_u.1
  have h_name : IsName u.name := h_below.isName _ (by simp)
  -- both files are sources, so their outputs are known to be apart
  obtain ⟨rel, h_rel, rfl⟩ := (h.mem_iff h_extension h_apart h_reaches).1 h_u
  obtain ⟨rel', h_rel', rfl⟩ := (h.mem_iff h_extension h_apart h_reaches).1 h_v
  have h_other : rel' ≠ rel := by
    rintro rfl
    exact h_ne rfl
  rcases h_writes.route_eq h_extension h_name h_names with h_same | ⟨h_backup, h_copy⟩
  · exact h_other (h_apart.distinct rel' h_rel' rel h_rel h_same)
  · exact h_apart.copies h_backup rel' h_rel' rel h_rel h_other h_copy

section Passage

variable (h : b.Toured source target d (before ++ v :: after) st st')
  (h_apart : b.Apart source target d st'.2) (h_room : b.HasRoom session source target d st'.2)
  (h_before : b.HandlesAll before st st₁) (h_v : b.Handles v st₁ st₂)
  (h_after : b.HandlesAll after st₂ st') (h_rel : rel ∈ b.sources d source)
  (h_item : b.itemAt source target rel = v)

include h h_apart h_room h_before h_v h_rel h_item

/-- What comes of a file when it is come to is what would have come of it before the run. -/
theorem Toured.outcome_eq (h_setup : st.1.session.SameSetup session) :
    outcome st₁.1.session st₁.2 v.path = outcome session d (source.below rel) := by
  -- nothing has been written to the file, and the session has the same setup
  obtain ⟨⟨content, h_file⟩, -⟩ := mem_sources_iff.1 h_rel
  have h_route : v.route = source.route ++ rel := by
    rw [← h_item, route_itemAt h.isDirectory h_rel]
  have h_now : st₁.2.get? v.route = d.get? v.route := by
    rw [h_route, h_file, h.source_iff h_extension h_apart h_before (List.subset_append_left _ _)
      (List.prefix_append _ _), h_file]
  have h_open : d.isDirectory v.directory = true := by
    rw [← h_item]
    exact isDirectory_itemAt h.isDirectory
      (h_room.reaches.of_grows (h.starts.trans h.handled.grows) h.isDirectory) h_rel
  -- the file is found in the same directory, which could be entered all along
  have h_find : st₁.2.find v.path = d.find v.path :=
    Disk.find_child_congr (.inr h_open) (.inr h_v.opens) h_v.isName h_now
  have h_path : v.path = source.below rel := by
    rw [← h_item, path_itemAt h.isDirectory h_rel]
  rw [outcome_of_sameSetup h_before.sameSetup, ← outcome_of_sameSetup h_setup,
    outcome_congr h_find, h_path]

include h_after

/-- What stands where the output goes is what stood there before the run, until the file is come to,
and it stays as it is after that. -/
theorem Toured.target_eq (h_names : ∀ n ∈ (v.target b).route, IsName n) :
    st₁.2.get? (v.target b).route = d.get? (v.target b).route ∧
      st'.2.get? (v.target b).route = st₂.2.get? (v.target b).route := by
  have h_free : st'.2.get? (v.target b).route ≠ some .directory := by
    rw [← h_item]
    exact h_apart.free rel h_rel
  have h_mem := (h.mem_iff h_extension h_apart h_room.reaches).2 ⟨rel, h_rel, h_item⟩
  obtain ⟨-, h_later, h_earlier⟩ := List.nodup_append.1 h.nodup_routes.of_map
  constructor
  · -- neither the output directory nor what was come to before has changed it
    have h_others : ∀ u ∈ before, u.isDirectory = false →
        ¬b.Writes u.output (b.outputName u.name) (v.target b).route := fun u h_u h_kind =>
      h.not_writes_output h_extension h_apart h_room.reaches
        ⟨List.mem_append_left _ h_u, h_kind⟩ h_mem (h_earlier u h_u v List.mem_cons_self) h_names
    have h_grows := h_v.grows.trans h_after.grows
    rw [h_before.kept h_extension h_others fun h_now => h_free (h_grows.directories _ h_now)]
    rcases h.adds (v.target b).route with h_same | ⟨-, h_directory⟩
    · exact h_same
    · exact absurd (h.handled.grows.directories _ h_directory) h_free
  · -- the file is not come to again
    refine h_after.kept h_extension (fun u h_u h_kind => ?_) h_free
    refine h.not_writes_output h_extension h_apart h_room.reaches
      ⟨List.mem_append_right _ (List.mem_cons_of_mem _ h_u), h_kind⟩ h_mem ?_ h_names
    rintro rfl
    exact (List.nodup_cons.1 h_later).1 h_u

/-- Whether a file has an output, and which one, and whether there is an error, depends on the file
and the setup of the session, and on nothing that the run has done. -/
theorem Toured.passage (h_setup : st.1.session.SameSetup session) :
    match outcome session d (source.below rel) with
    | .ok o =>
      st'.2.get? (b.outputOf target rel).route = some (.file o.program.encode.pretty.toUTF8) ∧
        st₂.1.summary.errors = st₁.1.summary.errors
    | .error e =>
      st'.2.get? (b.outputOf target rel).route = d.get? (b.outputOf target rel).route ∧
        st₂.1.summary.errors = st₁.1.summary.errors ++ [errorLine (source.below rel) e] := by
  have h_kind : v.isDirectory = false := by
    rw [← h_item]
    rfl
  have h_target : v.target b = b.outputOf target rel := by
    rw [← h_item]
    rfl
  have h_path : v.path = source.below rel := by
    rw [← h_item, path_itemAt h.isDirectory h_rel]
  have h_grows := h_v.grows.trans h_after.grows
  -- otherwise the output would be where a directory is
  have h_name := h_v.isName_target h_extension h_grows (by
    rw [h_target]
    exact h_apart.free rel h_rel)
  obtain ⟨h_earlier, h_later⟩ := h.target_eq h_extension h_apart h_room h_before h_v h_after h_rel
    h_item (h_v.names_target h_extension h_name)
  have h_outcome := h.outcome_eq h_extension h_apart h_room h_before h_v h_rel h_item h_setup
  rw [← h_target]
  cases h_case : outcome session d (source.below rel) with
  | error e =>
    rw [h_case] at h_outcome
    obtain ⟨h_disk, h_errors⟩ := h_v.of_error h_kind h_outcome
    rw [h_path] at h_errors
    exact ⟨by rw [h_later, h_disk, h_earlier], h_errors⟩
  | ok o =>
    rw [h_case] at h_outcome
    obtain ⟨h_admits, h_copy⟩ := h_room.outputs rel h_rel o h_case
    rw [← h_target] at h_admits h_copy
    -- there is room at the end, so there is room now
    obtain ⟨d₂, h_store, h_get⟩ := h_v.store_of_room h_extension h_grows h_name h_admits
      (fun h_on h_present => h_copy h_on (h_earlier ▸ h_present)) o.program.encode.pretty
    obtain ⟨h_disk, h_errors⟩ := h_v.of_ok h_kind h_outcome h_store
    exact ⟨by rw [h_later, h_disk, h_get], h_errors⟩

end Passage

/-- A file that is neither an output nor a copy is the same before and after. -/
theorem Toured.other_iff (h : b.Toured source target d items st st')
    (h_apart : b.Apart source target d st'.2) (h_reaches : st'.2.Reaches source)
    (h_other : ∀ rel ∈ b.sources d source, r ≠ (b.outputOf target rel).route ∧
      (b.backup = true → r ≠ (backupPath (b.outputOf target rel)).route)) {content : ByteArray} :
    st'.2.get? r = some (.file content) ↔ d.get? r = some (.file content) := by
  have h_iff : (∀ n ∈ r, IsName n) →
      (st'.2.get? r = some (.file content) ↔ d.get? r = some (.file content)) := by
    intro h_names
    rw [h.handled.file_iff h_extension, h.adds.get?_eq_file]
    intro v h_v h_kind h_writes
    obtain ⟨_, h_below⟩ := h.isBelow h_v
    obtain ⟨rel, h_rel, rfl⟩ := (h.mem_iff h_extension h_apart h_reaches).1 ⟨h_v, h_kind⟩
    rcases h_writes.route_eq h_extension (h_below.isName _ (by simp)) h_names with
      h_output | ⟨h_backup, h_copy⟩
    · exact (h_other rel h_rel).1 h_output
    · exact (h_other rel h_rel).2 h_backup h_copy
  -- the names on the way to a file are proper
  exact ⟨fun h_file => (h_iff (Disk.isName_of_get? h_file)).1 h_file,
    fun h_file => (h_iff (Disk.isName_of_get? h_file)).2 h_file⟩

end Run

/-! ### Errors -/

/-- The line about a file that has no output. -/
def complaint? (session : Session) (d : Disk) (p : Path) : Option String :=
  match outcome session d p with
  | .ok _ => none
  | .error e => some (errorLine p e)

/-- The errors are those of the files, in order. -/
theorem HandlesAll.errors_eq {f : Item → Option String} (h : b.HandlesAll items st st')
    (h_line : ∀ before v after st₁ st₂, items = before ++ v :: after → b.HandlesAll before st st₁ →
      b.Handles v st₁ st₂ → b.HandlesAll after st₂ st' → v.isDirectory = false →
      st₂.1.summary.errors = st₁.1.summary.errors ++ (f v).toList) :
    st'.1.summary.errors =
      st.1.summary.errors ++ (items.filter (!·.isDirectory)).filterMap f := by
  induction h with
  | nil st => simp
  | @cons u items st st₁ st' first rest ih =>
    -- the moments of the rest are moments of the whole, one item later
    have h_rest := ih fun before v after st₁ st₂ h_items h_before h_v h_after h_kind =>
      h_line (u :: before) v after st₁ st₂ (congrArg (u :: ·) h_items) (.cons first h_before) h_v
        h_after h_kind
    rw [h_rest]
    cases h_kind : u.isDirectory with
    | true =>
      -- a directory adds no line
      rw [(first.summary_of_directory h_kind).2.2, List.filter_cons_of_neg (by simp [h_kind])]
    | false =>
      rw [h_line [] u items st st₁ rfl (.nil st) first rest h_kind,
        List.filter_cons_of_pos (by simp [h_kind]), List.filterMap_cons, List.append_assoc]
      cases f u <;> rfl

/-- There is one line for every source without an output, and no other. -/
theorem Toured.errors_perm (h_extension : '/' ∉ b.outputExtension.toList)
    (h : b.Toured source target d items st st') (h_apart : b.Apart source target d st'.2)
    (h_room : b.HasRoom session source target d st'.2)
    (h_setup : st.1.session.SameSetup session) (h_start : st.1.summary.errors = []) :
    st'.1.summary.errors.Perm
      ((b.sources d source).filterMap fun rel => complaint? session d (source.below rel)) := by
  have h_errors := h.handled.errors_eq (f := fun v => complaint? session d v.path) ?_
  · -- the files that are come to are the sources, in another order
    rw [h_errors, h_start, List.nil_append]
    have h_files := h.files_perm h_extension (.inl h_apart.keepsClear) h_room.reaches
    refine (h_files.filterMap _).trans (.of_eq ?_)
    rw [List.filterMap_map]
    refine List.filterMap_congr fun rel h_rel => ?_
    rw [Function.comp_apply, path_itemAt h.isDirectory h_rel]
  · -- what a file adds to the errors is known from its passage
    rintro before v after st₁ st₂ rfl h_before h_v h_after h_kind
    obtain ⟨rel, h_rel, h_item⟩ := (h.mem_iff h_extension h_apart h_room.reaches).1
      ⟨List.mem_append_right _ List.mem_cons_self, h_kind⟩
    have h_passage :=
      h.passage h_extension h_apart h_room h_before h_v h_after h_rel h_item h_setup
    rw [complaint?, ← h_item, path_itemAt h.isDirectory h_rel]
    cases h_case : outcome session d (source.below rel) with
    | ok o =>
      rw [h_case] at h_passage
      rw [h_passage.2]
      simp
    | error e =>
      rw [h_case] at h_passage
      exact h_passage.2

/-! ### The sample -/

-- what is said about the sample is evaluated, paths included
unseal Path.child

/-- The sources of the sample. -/
theorem sources_sample (content : ByteArray) :
    sources { backup := true } (sample content) (.ofText "in") =
      [["a.json"], ["sub", "b.json"]] := rfl

/-- Their outputs. -/
theorem outputOf_sample :
    outputOf { backup := true } (.ofText "out") ["a.json"] = (.ofText "out/a.json") ∧
      outputOf { backup := true } (.ofText "out") ["sub", "b.json"] =
        (.ofText "out/sub/b.json") := by
  decide

/-- What stands where outputs and copies go. -/
theorem get?_sampleDone (content : ByteArray) :
    (sampleDone content).get? ["out", "a.json"] = some (.file content) ∧
      (sampleDone content).get? ["out", "a.json.backup"] = some (.file .empty) ∧
      (sampleDone content).get? ["out", "sub", "b.json"] = none := ⟨rfl, rfl, rfl⟩

/-- In the sample, outputs stand apart. -/
theorem apart_sample (content : ByteArray) :
    Apart { backup := true } (.ofText "in") (.ofText "out") (sample content)
      (sampleDone content) := by
  obtain ⟨h_first, h_second⟩ := outputOf_sample
  obtain ⟨h_file, -, h_none⟩ := get?_sampleDone content
  have h_route : Path.route (.ofText "out/a.json") = ["out", "a.json"] ∧
      Path.route (.ofText "out/sub/b.json") = ["out", "sub", "b.json"] := by decide
  refine ⟨by decide, by decide, ?_, ?_, ?_⟩ <;>
    simp only [sources_sample, List.forall_mem_cons, h_first, h_second]
  · decide
  · simp [h_route.1, h_route.2, h_file, h_none]
  · decide

/-- What the sources hold. -/
theorem read_sample (content : ByteArray) :
    (sample content).read (Path.below (.ofText "in") ["a.json"]) = .ok content ∧
      (sample content).read (Path.below (.ofText "in") ["sub", "b.json"]) =
        .ok "".toUTF8 := ⟨rfl, rfl⟩

/-- The second one is not a tree. -/
theorem outcome_sample (content : ByteArray) (session : Session) :
    outcome session (sample content) (Path.below (.ofText "in") ["sub", "b.json"]) =
      .error (.unparsable (.ofText "in/sub/b.json")) :=
  outcome_of_unparsable (read_sample content).2 (by decide)

/-- The line about it. -/
theorem complaint?_sample (content : ByteArray) (session : Session) :
    complaint? session (sample content) (Path.below (.ofText "in") ["sub", "b.json"]) =
      some "Error processing in/sub/b.json: parsing syntax tree in in/sub/b.json" := by
  have h_line : errorLine (Path.below (.ofText "in") ["sub", "b.json"])
      (.unparsable (.ofText "in/sub/b.json")) =
      "Error processing in/sub/b.json: parsing syntax tree in in/sub/b.json" := by decide
  rw [complaint?, outcome_sample]
  exact congrArg some h_line

/-- The file that is a tree is the only one that room is needed for. -/
theorem hasRoom_sample (content : ByteArray) (session : Session) :
    HasRoom { backup := true } session (.ofText "in") (.ofText "out") (sample content)
      (sampleDone content) := by
  obtain ⟨h_file, h_copy, -⟩ := get?_sampleDone content
  have h_backup : backupPath (.ofText "out/a.json") = (.ofText "out/a.json.backup") := by decide
  refine ⟨reaches_sampleDone content, ?_⟩
  simp only [sources_sample, List.forall_mem_cons, outputOf_sample.1, h_backup, outcome_sample]
  refine ⟨fun o _ => ⟨?_, fun _ _ => ?_⟩, by simp, by simp⟩
  · exact Disk.admits_iff.2 ⟨["out"], "a.json", rfl, by decide, by simp [h_file]⟩
  · exact Disk.admits_iff.2 ⟨["out"], "a.json.backup", rfl, by decide, by simp [h_copy]⟩

/-! ### Files by themselves -/

/-- A run over a directory treats files independently of one another. The output of every source is
what a session with the same setup makes of it, and if that is nothing, there is one error about it
and nothing is written. Nothing else changes but copies of outputs. -/
theorem transformDirectory_independent {g g' : Progress} {s : BatchSummary}
    (h_extension : '/' ∉ b.outputExtension.toList) (h_setup : g.session.SameSetup session)
    (h_apart : b.Apart source target d d') (h_room : b.HasRoom session source target d d')
    (h : b.transformDirectory Disk.fileSystem source target g d = ((.ok s, g'), d')) :
    (∀ rel ∈ b.sources d source, d'.get? (b.outputOf target rel).route =
      match outcome session d (source.below rel) with
      | .ok o => some (.file o.program.encode.pretty.toUTF8)
      | .error _ => d.get? (b.outputOf target rel).route) ∧
    s.errors.Perm
      ((b.sources d source).filterMap fun rel => complaint? session d (source.below rel)) ∧
    (∀ r content, source.route <+: r →
      (d'.get? r = some (.file content) ↔ d.get? r = some (.file content))) ∧
    ∀ r content, (∀ rel ∈ b.sources d source, r ≠ (b.outputOf target rel).route ∧
        (b.backup = true → r ≠ (backupPath (b.outputOf target rel)).route)) →
      (d'.get? r = some (.file content) ↔ d.get? r = some (.file content)) := by
  obtain ⟨items, d₁, g₁, h_toured, rfl⟩ := exists_toured h
  refine ⟨fun rel h_rel => ?_, ?_, fun r content h_r => ?_, fun r content h_other => ?_⟩
  · -- the source is come to at some moment of the run
    obtain ⟨h_mem, h_kind⟩ :=
      (h_toured.mem_iff h_extension h_apart h_room.reaches).2 ⟨rel, h_rel, rfl⟩
    obtain ⟨before, after, rfl⟩ := List.append_of_mem h_mem
    obtain ⟨st₁, h_before, h_rest⟩ := h_toured.handled.split
    cases h_rest with
    | @cons _ _ _ st₂ _ h_v h_after =>
      have h_passage :=
        h_toured.passage h_extension h_apart h_room h_before h_v h_after h_rel rfl h_setup
      cases h_case : outcome session d (source.below rel) with
      | ok o =>
        rw [h_case] at h_passage
        exact h_passage.1
      | error e =>
        rw [h_case] at h_passage
        exact h_passage.1
  · exact h_toured.errors_perm h_extension h_apart h_room h_setup rfl
  · exact h_toured.source_iff h_extension h_apart h_toured.handled (List.Subset.refl _) h_r
  · exact h_toured.other_iff h_extension h_apart h_room.reaches h_other

/-- The file that is a tree is written as it was, and there is an error about the other one. -/
theorem transformDirectory_independent_sample :
    let b : Batch := { backup := true }
    let text : String := (Program.mk [] .synthetic).encode.pretty
    let d := sample text.toUTF8
    ∃ session s g' d', Session.ofConfig {} = .ok session ∧
      b.Apart (.ofText "in") (.ofText "out") d d' ∧
        b.HasRoom session (.ofText "in") (.ofText "out") d d' ∧
      b.transformDirectory Disk.fileSystem (.ofText "in") (.ofText "out") { session } d =
        ((.ok s, g'), d') ∧
      d'.get? ["out", "a.json"] = some (.file text.toUTF8) ∧
      s.errors =
        ["Error processing in/sub/b.json: parsing syntax tree in in/sub/b.json"] := by
  -- the text of the tree is not to be evaluated
  have h_program := decodeText?_empty
  generalize Program.mk [] .synthetic = program at h_program ⊢
  have h_selects : (Session.ofConfig {}).map (·.selects (descriptor (.ofText "in/a.json"))) =
    .ok false := rfl
  cases h_session : Session.ofConfig {} with
  | error e =>
    rw [h_session] at h_selects
    cases h_selects
  | ok session =>
    rw [h_session] at h_selects
    have h_skip := Except.ok.inj h_selects
    obtain ⟨s, g', h_run⟩ := transformDirectory_sample rfl h_program h_skip
    have h_outcome := outcome_of_skipped (read_sample _).1 h_program h_skip
    have h_apart := apart_sample program.encode.pretty.toUTF8
    have h_room := hasRoom_sample program.encode.pretty.toUTF8 session
    have h_setup : session.SameSetup session := ⟨session.statistics, rfl⟩
    obtain ⟨h_outputs, h_errors, -⟩ := transformDirectory_independent (by decide) h_setup
      h_apart h_room h_run
    refine ⟨session, s, g', _, rfl, h_apart, h_room, h_run, ?_, ?_⟩
    · have h_route : (outputOf { backup := true } (.ofText "out") ["a.json"]).route =
          ["out", "a.json"] := by decide
      have h_first := h_outputs ["a.json"] (by rw [sources_sample]; simp)
      rwa [h_outcome, h_route] at h_first
    · let f := fun rel => complaint? session (sample program.encode.pretty.toUTF8)
        (Path.below (.ofText "in") rel)
      have h_none : f ["a.json"] = none := by
        dsimp only [f]
        rw [complaint?, h_outcome]
      have h_some := complaint?_sample program.encode.pretty.toUTF8 session
      rw [sources_sample, List.filterMap_cons_none (f := f) h_none,
        List.filterMap_cons_some (f := f) h_some, List.filterMap_nil] at h_errors
      exact List.perm_singleton.1 h_errors

end Batch

end AsyncMarkers
