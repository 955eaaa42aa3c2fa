import AsyncMarkers.Proofs.ReadBack
import AsyncMarkers.Proofs.TourEffects
import Mathlib.Data.List.Perm.Subperm

/-!
# What a run over a directory comes to

The sources of a run are the files that stand below the directory before the run and take part in
it, `Batch.sources`. A run never comes to fewer files, as long as no directory is out of its reach
(`Disk.Reaches`). It can come to more, since a directory is listed only when the run gets there, and
outputs may have been written to it by then.

This can not happen if the output directory does not stand below the source directory or the other
way round (`Batch.KeepsClear`), or if outputs do not take part themselves
(`Batch.RefusesOutputs`). Then the files that a run comes to are the sources
(`Batch.Toured.files_perm`), each of them once.
-/

namespace AsyncMarkers

/-- Whether an entry is a file. -/
def Entry.isFile : Entry → Bool
  | .file _ => true
  | .directory => false

/-- A file is an entry with a content. -/
theorem Entry.isFile_iff {e : Entry} : e.isFile = true ↔ ∃ content, e = .file content := by
  cases e <;> simp [isFile]

namespace Disk

variable {d d' : Disk} {p : Path} {r rel : Route} {name : String} {e : Entry}

/-! ### Files below a directory -/

/-- The files below a directory, each by the names that lead to it from there. -/
def filesBelow (d : Disk) (r : Route) : List Route :=
  (d.listing.filter fun (r', e) => r.isPrefixOf r' && e.isFile).map fun (r', _) => r'.drop r.length

/-- A file is listed if and only if it is found on the disk. -/
theorem mem_filesBelow_iff :
    rel ∈ d.filesBelow r ↔ ∃ content, d.get? (r ++ rel) = some (.file content) := by
  unfold filesBelow
  constructor
  · intro h_mem
    obtain ⟨⟨r', e⟩, h_kept, rfl⟩ := List.mem_map.1 h_mem
    obtain ⟨h_listed, h_file⟩ := List.mem_filter.1 h_kept
    simp only [Bool.and_eq_true, List.isPrefixOf_iff_prefix, Entry.isFile_iff] at h_file
    obtain ⟨⟨tail, rfl⟩, content, rfl⟩ := h_file
    exact ⟨content, by simpa using (mem_listing_iff.1 h_listed).2⟩
  · rintro ⟨content, h_get⟩
    -- the top of the disk is not listed, but it is not a file either
    have h_ne : r ++ rel ≠ [] := by
      intro h_nil
      rw [h_nil, get?_nil] at h_get
      cases h_get
    refine List.mem_map.2 ⟨(r ++ rel, .file content), List.mem_filter.2 ⟨?_, ?_⟩, by simp⟩
    · exact mem_listing_iff.2 ⟨h_ne, h_get⟩
    · simp [Entry.isFile]

/-- No file is listed twice. -/
theorem nodup_filesBelow (d : Disk) (r : Route) : (d.filesBelow r).Nodup := by
  have h_listed : (d.listing.map Prod.fst).Nodup := d.wellFormed.nodup_listing
  have h_kept := h_listed.sublist (List.filter_sublist.map _ : List.Sublist
    ((d.listing.filter fun (r', e) => r.isPrefixOf r' && e.isFile).map Prod.fst) _)
  have h_routes : d.filesBelow r = ((d.listing.filter fun (r', e) =>
      r.isPrefixOf r' && e.isFile).map Prod.fst).map (·.drop r.length) := by
    rw [filesBelow, List.map_map]
    rfl
  rw [h_routes]
  -- the routes start in the same way, so they are different behind that
  have h_start : ∀ r' ∈ (d.listing.filter fun (r', e) => r.isPrefixOf r' && e.isFile).map Prod.fst,
      r <+: r' := by
    intro r' h_mem
    obtain ⟨⟨r'', e⟩, h_entry, rfl⟩ := List.mem_map.1 h_mem
    have h_both := (List.mem_filter.1 h_entry).2
    rw [Bool.and_eq_true, List.isPrefixOf_iff_prefix] at h_both
    exact h_both.1
  refine h_kept.map_on fun r₁ h₁ r₂ h₂ h_same => ?_
  obtain ⟨tail₁, rfl⟩ := h_start r₁ h₁
  obtain ⟨tail₂, rfl⟩ := h_start r₂ h₂
  simpa using h_same

/-! ### Directories within reach -/

/-- Whether all directories below a path can be entered. The path to one may be too long. -/
def Reaches (d : Disk) (p : Path) : Prop :=
  ∀ rel, d.get? (p.route ++ rel) = some .directory → d.isDirectory (p.below rel) = true

/-- Where something stands further down, there is a directory. -/
theorem get?_of_get?_append_cons {tail : Route} (h : d.get? (r ++ name :: tail) = some e) :
    d.get? r = some .directory := by
  -- the names behind the directory are taken off from the end
  induction tail using List.reverseRecOn generalizing e with
  | nil => exact get?_of_get?_append h
  | append_singleton tail last ih =>
    rw [← List.cons_append, ← List.append_assoc] at h
    exact ih (get?_of_get?_append h)

/-- A directory that can be entered later can be entered as soon as it is there. -/
theorem isDirectory_child_of_grows (h_grows : d.Grows d') (h_open : d.isDirectory p = true)
    (h_name : IsName name) (h_later : d'.isDirectory (p.child name) = true)
    (h_get : d.get? (p.route ++ [name]) = some .directory) :
    d.isDirectory (p.child name) = true := by
  obtain ⟨h_fits, h_short, -⟩ :=
    (isDirectory_child_iff (.inr (h_grows.directories.isDirectory h_open)) h_name).1 h_later
  exact (isDirectory_child_iff (.inr h_open) h_name).2 ⟨h_fits, h_short, h_get⟩

/-- What is within reach later has been so before. -/
theorem Reaches.of_grows (h : d'.Reaches p) (h_grows : d.Grows d')
    (h_open : d.isDirectory p = true) : d.Reaches p := by
  intro rel h_directory
  -- one directory after the other, from the path downwards
  induction rel using List.reverseRecOn with
  | nil => exact h_open
  | append_singleton rel name ih =>
    have h_names := isName_of_get? h_directory
    have h_name : IsName name := h_names name (by simp)
    have h_rel : ∀ n ∈ rel, IsName n := fun n h_n => h_names n (by simp [h_n])
    have h_later := h _ (h_grows.directories _ h_directory)
    rw [← List.append_assoc] at h_directory
    have h_parent := ih (get?_of_get?_append h_directory)
    rw [← Path.route_below p h_rel] at h_directory
    rw [Path.below_concat] at h_later ⊢
    exact isDirectory_child_of_grows h_grows h_parent h_name h_later h_directory

/-- This can be checked for one directory after the other. -/
theorem reaches_of_listing
    (h_listed : ((([], .directory) :: d.listing).all fun (r, e) => e.isFile ||
      !p.route.isPrefixOf r || d.isDirectory (p.below (r.drop p.route.length))) = true) :
    d.Reaches p := by
  intro rel h_get
  -- the top of the disk is not in the listing, so it is put in front
  have h_mem : (p.route ++ rel, Entry.directory) ∈ ([], .directory) :: d.listing := by
    by_cases h_nil : p.route ++ rel = []
    · rw [h_nil]
      exact List.mem_cons_self
    · exact List.mem_cons_of_mem _ (mem_listing_iff.2 ⟨h_nil, h_get⟩)
  have h_start : p.route.isPrefixOf (p.route ++ rel) = true :=
    List.isPrefixOf_iff_prefix.2 (List.prefix_append _ _)
  simpa [Entry.isFile, h_start] using List.all_eq_true.1 h_listed _ h_mem

/-- A file can be come to if all directories are within reach. -/
theorem Reaches.leads (h : d.Reaches p) {content : ByteArray}
    (h_file : d.get? (p.route ++ (rel ++ [name])) = some (.file content)) :
    d.Leads p rel name := by
  refine ⟨⟨content, h_file⟩, fun front h_ne h_front => h front ?_⟩
  -- there is something behind `front`, so it is a directory
  obtain ⟨rest, rfl⟩ := h_front
  obtain ⟨next, tail, h_next⟩ := List.exists_cons_of_ne_nil
    (List.append_ne_nil_of_right_ne_nil rest (List.cons_ne_nil name []))
  rw [List.append_assoc, h_next, ← List.append_assoc] at h_file
  exact get?_of_get?_append_cons h_file

end Disk

namespace Batch

variable {b : Batch} {source target : Path} {d d' : Disk} {items : List Item} {u v : Item}
  {st st' : Progress × Disk} {rel : Route} {name : String}

/-! ### Sources -/

/-- The files below a directory that take part, each by the names that lead to it from there. -/
def sources (b : Batch) (d : Disk) (directory : Path) : List Route :=
  (d.filesBelow directory.route).filter fun rel => b.accepts (directory.below rel)

/-- A source is a file that takes part. -/
theorem mem_sources_iff :
    rel ∈ b.sources d source ↔
      (∃ content, d.get? (source.route ++ rel) = some (.file content)) ∧
        b.accepts (source.below rel) = true := by
  rw [sources, List.mem_filter, Disk.mem_filesBelow_iff]

/-- No source is there twice. -/
theorem nodup_sources (d : Disk) (source : Path) : (b.sources d source).Nodup :=
  (d.nodup_filesBelow _).filter _

/-- What a run comes to when it comes to a source. -/
def itemAt (b : Batch) (source target : Path) (rel : Route) : Item :=
  ⟨source.below rel.dropLast, b.outputBelow target rel.dropLast, rel.getLastD "", false⟩

/-- A source is come to in the directory that all names but the last lead to. -/
theorem itemAt_concat (b : Batch) (source target : Path) (rel : Route) (name : String) :
    b.itemAt source target (rel ++ [name]) =
      ⟨source.below rel, b.outputBelow target rel, name, false⟩ := by
  simp [itemAt]

/-- A source stands somewhere below the directory. -/
theorem exists_concat_of_mem_sources (h_open : d.isDirectory source = true)
    (h : rel ∈ b.sources d source) :
    ∃ front name, rel = front ++ [name] ∧ ∀ n ∈ front ++ [name], IsName n := by
  obtain ⟨⟨content, h_file⟩, -⟩ := mem_sources_iff.1 h
  rcases List.eq_nil_or_concat rel with rfl | ⟨front, name, rfl⟩
  · -- the directory itself is not a file
    rw [List.append_nil, Disk.get?_of_isDirectory h_open] at h_file
    cases h_file
  · rw [List.concat_eq_append] at h_file ⊢
    exact ⟨front, name, rfl,
      fun n h_n => Disk.isName_of_get? h_file n (List.mem_append_right _ h_n)⟩

/-- What is come to stands where the source does. -/
theorem route_itemAt (h_open : d.isDirectory source = true) (h : rel ∈ b.sources d source) :
    (b.itemAt source target rel).route = source.route ++ rel := by
  obtain ⟨front, name, rfl, h_names⟩ := exists_concat_of_mem_sources h_open h
  rw [itemAt_concat, Item.route]
  dsimp only
  rw [Path.route_below source fun n h_n => h_names n (List.mem_append_left _ h_n),
    List.append_assoc]

/-- No source is come to twice. -/
theorem nodup_itemAt (h_open : d.isDirectory source = true) (target : Path) :
    ((b.sources d source).map (b.itemAt source target)).Nodup := by
  refine (nodup_sources d source).map_on fun rel h_rel rel' h_rel' h_same => ?_
  -- two sources that are come to in the same way stand in the same place
  have h_route := congrArg Item.route h_same
  rw [route_itemAt h_open h_rel, route_itemAt h_open h_rel'] at h_route
  exact List.append_cancel_left h_route

/-! ### Every source is come to -/

/-- What a run comes to stands below its source directory. -/
theorem Toured.isBelow (h : b.Toured source target d items st st') (h_v : v ∈ items) :
    ∃ rel, v.IsBelow b source target rel := by
  obtain ⟨names, -, h_tour⟩ := h.tour
  obtain ⟨rel, h_rel, -⟩ := h_tour.placed v h_v
  exact ⟨rel, h_rel⟩

/-- A file that is come to is where a source would be come to. -/
theorem Item.IsBelow.eq_itemAt (h : v.IsBelow b source target rel)
    (h_kind : v.isDirectory = false) : v = b.itemAt source target (rel ++ [v.name]) := by
  rw [itemAt_concat, ← h.directory_eq, ← h.output_eq, ← h_kind]

/-- Nothing is come to twice. -/
theorem Toured.nodup_routes (h : b.Toured source target d items st st') :
    (items.map Item.route).Nodup := by
  obtain ⟨names, h_listed, h_tour⟩ := h.tour
  exact (h_tour.sorted h_listed.sorted).imp fun h_lt => ne_of_lt h_lt

/-- If all directories are within reach, a run comes to every source. -/
theorem Toured.itemAt_mem (h : b.Toured source target d items st st') (h_reaches : d.Reaches source)
    (h_rel : rel ∈ b.sources d source) : b.itemAt source target rel ∈ items := by
  obtain ⟨front, name, rfl, h_names⟩ := exists_concat_of_mem_sources h.isDirectory h_rel
  obtain ⟨⟨content, h_file⟩, h_accepts⟩ := mem_sources_iff.1 h_rel
  obtain ⟨names, h_listed, h_tour⟩ := h.tour
  -- the run starts when the output directory has been made
  have h_leads := h.starts.leads (h_reaches.leads h_file)
  obtain ⟨n, tail, h_tail, e, h_get⟩ := h_leads.first
  rw [Path.below_concat] at h_accepts
  obtain ⟨v, h_v, h_directory, h_name, h_kind⟩ := h_tour.covers h_leads
    ⟨n, (h_listed.mem_iff n).2 ⟨e, h_get⟩, tail, h_tail⟩ h_accepts
  -- the item has been come to through the same directories
  obtain ⟨rel, h_below, -⟩ := h_tour.placed v h_v
  have h_route := h_below.directory_route
  rw [h_directory, Path.route_below source fun n h_n => h_names n (List.mem_append_left _ h_n)]
    at h_route
  rw [List.append_cancel_left h_route, ← h_name, ← h_below.eq_itemAt h_kind]
  exact h_v

/-! ### Nothing else is come to -/

/-- Whether neither of the source and the output directory stands below the other one. If all
outputs stand in one directory, that may be one that the source directory stands below. -/
structure KeepsClear (b : Batch) (source target : Path) : Prop where
  output_below : source.route <+: target.route → target.route = source.route
  source_below : b.keepStructure = true → target.route <+: source.route →
    target.route = source.route

/-- Whether outputs, and copies of them, do not take part. -/
structure RefusesOutputs (b : Batch) : Prop where
  outputs : ∀ p : Path, b.accepts (p.withExtension b.outputExtension) = false
  copies : b.backup = true → ∀ p, b.accepts (backupPath p) = false

/-- Whether a file takes part depends on its name alone. -/
theorem accepts_child (h : IsName name) (p q : Path) :
    b.accepts (p.child name) = b.accepts (q.child name) := by
  rw [accepts, accepts, Path.extension?_child h, Path.extension?_child h]

/-- The output goes to the same place below the target, or to the target itself. -/
theorem Item.IsBelow.output_route (h : v.IsBelow b source target rel) :
    v.output.route = if b.keepStructure then target.route ++ rel else target.route := by
  rw [h.output_eq, outputBelow]
  split
  · exact Path.route_below target fun n h_n => h.isName n (List.mem_append_left _ h_n)
  · rfl

/-- An output does not get into a directory that the run has still to come to. -/
theorem KeepsClear.not_writes (h : b.KeepsClear source target) {rel' : Route}
    (h_u : u.IsBelow b source target rel) (h_v : v.IsBelow b source target rel')
    (h_outside : ¬v.directory.route <+: u.directory.route) :
    ¬b.Writes u.output (b.outputName u.name) v.route := by
  intro h_writes
  -- outputs and copies stand right in the output directory
  have h_same : v.directory.route = u.output.route := by
    rcases h_writes with h_output | ⟨-, h_copy⟩
    · exact (List.append_inj' h_output rfl).1
    · exact (List.append_inj' h_copy rfl).1
  rw [h_v.directory_route, h_u.directory_route] at h_outside
  rw [h_v.directory_route, h_u.output_route] at h_same
  split at h_same
  · next h_keep =>
    -- the routes have a start in common, so the directories are the same
    have h_eq : target.route = source.route := by
      have h_source : source.route <+: target.route ++ rel := ⟨rel', h_same⟩
      have h_target : target.route <+: target.route ++ rel := ⟨rel, rfl⟩
      rcases List.prefix_or_prefix_of_prefix h_source h_target with h_in | h_out
      · exact h.output_below h_in
      · exact h.source_below h_keep h_out
    rw [h_eq] at h_same
    rw [h_same] at h_outside
    exact h_outside (List.prefix_refl _)
  · -- all outputs stand in the source directory itself, which holds everything
    have h_eq := h.output_below ⟨rel', h_same⟩
    rw [h_same, h_eq] at h_outside
    exact h_outside ⟨rel, rfl⟩

/-- What a run writes is not what it comes to. -/
theorem RefusesOutputs.not_writes (h : b.RefusesOutputs)
    (h_extension : '/' ∉ b.outputExtension.toList) (h_u : IsName u.name) (h_v : IsName v.name)
    (h_accepts : b.accepts v.path = true) : ¬b.Writes u.output (b.outputName u.name) v.route := by
  have h_name := isName_outputName h_u h_extension
  -- what is come to would take part in the output directory as well
  have h_refused : b.accepts (u.output.child v.name) = true := by
    rwa [accepts_child h_v u.output v.directory]
  rintro (h_output | ⟨h_backup, h_copy⟩)
  · have h_same : v.name = b.outputName u.name :=
      (List.cons.inj (List.append_inj' h_output rfl).2).1
    rw [h_same, ← outputPath_eq h_u h_extension, outputPath, h.outputs] at h_refused
    cases h_refused
  · have h_same : v.name = backupName (b.outputName u.name) :=
      (List.cons.inj (List.append_inj' h_copy rfl).2).1
    rw [h_same, ← backupPath_eq h_name, h.copies h_backup] at h_refused
    cases h_refused

/-- What is come to as a file is one, if no directory is out of reach by the end of the run. -/
theorem Handles.is_file (h : b.Handles v st st') (h_kind : v.isDirectory = false)
    (h_grows : st.2.Grows d') (h_below : v.IsBelow b source target rel)
    (h_reaches : d'.Reaches source) (h_present : st.2.get? v.route ≠ none) :
    ∃ content, st.2.get? v.route = some (.file content) := by
  cases h_get : st.2.get? v.route with
  | none => exact absurd h_get h_present
  | some e =>
    cases e with
    | file content => exact ⟨content, rfl⟩
    | directory =>
      -- it would have been entered, since it can be at the end
      have h_later : d'.isDirectory (v.directory.child v.name) = true := by
        have h_directory := h_grows.directories _ h_get
        rw [h_below.route] at h_directory
        have h_open := h_reaches _ h_directory
        rwa [Path.below_concat, ← h_below.directory_eq] at h_open
      have h_now := Disk.isDirectory_child_of_grows h_grows h.opens h.isName h_later h_get
      cases h_kind.symm.trans (h.kind.symm.trans h_now)

/-- A file that is come to was there before the run. -/
theorem Toured.file (h : b.Toured source target d items st st')
    (h_extension : '/' ∉ b.outputExtension.toList)
    (h_clear : b.KeepsClear source target ∨ b.RefusesOutputs) (h_reaches : st'.2.Reaches source)
    (h_v : v ∈ items) (h_kind : v.isDirectory = false) :
    b.accepts v.path = true ∧ ∃ content, d.get? v.route = some (.file content) := by
  obtain ⟨names, h_listed, h_tour⟩ := h.tour
  obtain ⟨before, after, st₁, rfl, h_after, h_first, h_rest, h_outside, h_present⟩ :=
    h_tour.found h_listed v h_v
  obtain ⟨rel, h_below⟩ := h.isBelow h_v
  obtain ⟨between, later, rfl⟩ := List.append_of_mem h_after
  obtain ⟨st₂, h_between, h_later⟩ := h_rest.split
  cases h_later with
  | @cons _ _ _ st₃ _ h_handles h_last =>
    have h_accepts := (h_handles.transformed h_kind).1
    refine ⟨h_accepts, ?_⟩
    -- it is a file when it is come to, so it was one when its directory was listed
    obtain ⟨content, h_file⟩ := h_handles.is_file h_kind
      (h_handles.grows.trans h_last.grows) h_below h_reaches
      (h_between.grows.get?_ne_none h_present)
    obtain ⟨content, h_found⟩ := h_between.grows.was_file h_file h_present
    by_cases h_start : st.2.get? v.route = none
    · -- then the run has written it before its directory was listed
      obtain ⟨u, h_u, -, h_writes⟩ := h_first.appears h_extension h_start h_found
      obtain ⟨rel', h_below'⟩ := h.isBelow (List.mem_append_left _ h_u)
      rcases h_clear with h_clear | h_refuses
      · exact absurd h_writes (h_clear.not_writes h_below' h_below (h_outside u h_u))
      · exact absurd h_writes (h_refuses.not_writes h_extension (h_below'.isName _ (by simp))
          h_handles.isName h_accepts)
    · -- making the output directory has not made any files
      obtain ⟨content, h_start⟩ := h_first.grows.was_file h_found h_start
      exact ⟨content, h.adds.get?_eq_file.1 h_start⟩

/-- The files that a run comes to are the sources, each of them once. -/
theorem Toured.files_perm (h : b.Toured source target d items st st')
    (h_extension : '/' ∉ b.outputExtension.toList)
    (h_clear : b.KeepsClear source target ∨ b.RefusesOutputs) (h_reaches : st'.2.Reaches source) :
    (items.filter (!·.isDirectory)).Perm ((b.sources d source).map (b.itemAt source target)) := by
  have h_items : (items.filter (!·.isDirectory)).Nodup := h.nodup_routes.of_map.filter _
  have h_earlier : d.Reaches source :=
    h_reaches.of_grows (h.starts.trans h.handled.grows) h.isDirectory
  -- nothing is there twice on either side, so it is enough that the same is there
  refine (List.perm_ext_iff_of_nodup h_items
    (nodup_itemAt h.isDirectory target)).2 fun v => ?_
  constructor
  · intro h_mem
    obtain ⟨h_v, h_kind⟩ := List.mem_filter.1 h_mem
    have h_kind : v.isDirectory = false := by simpa using h_kind
    obtain ⟨rel, h_below⟩ := h.isBelow h_v
    obtain ⟨h_accepts, content, h_file⟩ := h.file h_extension h_clear h_reaches h_v h_kind
    refine List.mem_map.2 ⟨rel ++ [v.name], mem_sources_iff.2 ⟨⟨content, ?_⟩, ?_⟩,
      (h_below.eq_itemAt h_kind).symm⟩
    · rwa [← h_below.route]
    · rwa [Path.below_concat, ← h_below.directory_eq]
  · intro h_mem
    obtain ⟨rel, h_rel, rfl⟩ := List.mem_map.1 h_mem
    exact List.mem_filter.2 ⟨h.itemAt_mem h_earlier h_rel, rfl⟩

/-- A run counts the files that it comes to. -/
theorem Toured.processed (h : b.Toured source target d items st st') :
    st'.1.summary.processed =
      st.1.summary.processed + (items.filter (!·.isDirectory)).length := by
  rw [h.handled.processed, List.countP_eq_length_filter]

/-! ### Two runs -/

-- the runs are evaluated, paths included
unseal Path.child

/-- The tree of an empty file is read from its text. -/
theorem decodeText?_empty :
    Json.decodeText? Program.decode? (Program.mk [] .synthetic).encode.pretty =
      some ⟨[], .synthetic⟩ := (Program.decodeText?_pretty _).2 ⟨by decide, by decide⟩

/-- A file, a file that is not a tree, and an output that is there already. -/
def sample (content : ByteArray) : Disk where
  root :=
    [("in", .directory [("a.json", .file content),
      ("sub", .directory [("b.json", .file "".toUTF8)])]),
    ("out", .directory [("a.json", .file .empty)])]
  wellFormed := of_decide_eq_true rfl

/-- The same with the output of the first file and the copy of what it has overwritten. -/
def sampleStored (content : ByteArray) : Disk where
  root :=
    [("out", .directory [("a.json", .file content), ("a.json.backup", .file .empty)]),
    ("in", .directory [("a.json", .file content),
      ("sub", .directory [("b.json", .file "".toUTF8)])])]
  wellFormed := of_decide_eq_true rfl

/-- The same with the directory for the other output. -/
def sampleDone (content : ByteArray) : Disk where
  root :=
    [("out", .directory [("sub", .directory []), ("a.json", .file content),
      ("a.json.backup", .file .empty)]),
    ("in", .directory [("a.json", .file content),
      ("sub", .directory [("b.json", .file "".toUTF8)])])]
  wellFormed := of_decide_eq_true rfl

/-- The summary of a run over the sample. -/
def sampleSummary : BatchSummary where
  processed := 2
  skipped := 1
  directoriesMade := 1
  errors := [errorLine (.ofText "in/sub/b.json") (.unparsable (.ofText "in/sub/b.json"))]

/-- The first file of the sample is passed over, and the second one is refused. -/
theorem transformDirectory_sample_eq {session : Session} {text : String} {program : Program}
    (h_text : program.encode.pretty = text)
    (h_program : Json.decodeText? Program.decode? text = some program)
    (h_skip : session.selects (descriptor (.ofText "in/a.json")) = false) :
    ∃ g', transformDirectory { backup := true } Disk.fileSystem (.ofText "in") (.ofText "out")
      { session } (sample text.toUTF8) = ((.ok sampleSummary, g'), sampleDone text.toUTF8) := by
  let b : Batch := { backup := true }
  let d₁ := sampleStored text.toUTF8
  -- the first file is not selected, so its tree is its output
  have h_outcome₁ : outcome session (sample text.toUTF8) (Path.child (.ofText "in") "a.json") =
      .ok ⟨program, { skipped := true }⟩ := outcome_of_skipped rfl h_program h_skip
  have h_store : b.store Disk.fileSystem (b.outputPath (.ofText "out") "a.json")
      program.encode.pretty (sample text.toUTF8) = (.ok (), d₁) := by
    have h_path : b.outputPath (.ofText "out") "a.json" = (.ofText "out/a.json") := by decide
    rw [h_path, h_text]
    unfold store FileSystem.writeText
    dsimp only [d₁]
    generalize text.toUTF8 = content
    rfl
  obtain ⟨g₁, h_visit₁, h_setup₁, h_summary₁⟩ :=
    visitName_of_ok (b := b) (g := { session }) rfl (by decide) h_outcome₁ h_store 4094
  -- the directory for the other output is made
  have h_make : b.makeOutput Disk.fileSystem (b.innerOutput (.ofText "out") "sub") g₁ d₁ =
      ((.ok (), g₁.add { directoriesMade := 1 }), sampleDone text.toUTF8) := by
    have h_path : b.innerOutput (.ofText "out") "sub" = (.ofText "out/sub") := by decide
    rw [h_path]
    dsimp only [d₁]
    generalize text.toUTF8 = content
    rfl
  have h_outcome₂ : outcome (g₁.add { directoriesMade := 1 }).session (sampleDone text.toUTF8)
      (Path.child (.ofText "in/sub") "b.json") = .error (.unparsable (.ofText "in/sub/b.json")) :=
    outcome_of_unparsable rfl (by decide)
  obtain ⟨g₂, h_visit₂, -, h_summary₂⟩ :=
    visitName_of_error (b := b) rfl (by decide) h_outcome₂ 4093
    (.ofText "out/sub")
  -- the run is put together from the inside: the names in `sub`, `sub` itself, the names in `in`
  have h_below : b.transformBelow Disk.fileSystem 4094 (.ofText "in/sub") (.ofText "out/sub")
      (g₁.add { directoriesMade := 1 }) (sampleDone text.toUTF8) =
        ((.ok (), g₂), sampleDone text.toUTF8) := by
    have h_list : (sampleDone text.toUTF8).list (.ofText "in/sub") = .ok ["b.json"] := rfl
    rw [transformBelow_of_sorted h_list (.refl _) (by simp), each_cons_of_ok h_visit₂]
    rfl
  have h_sub : b.visitName 4094 (.ofText "in") (.ofText "out") "sub" g₁ d₁ =
      ((.ok (), g₂), sampleDone text.toUTF8) := by
    rw [visitName_of_isDirectory rfl, h_make]
    exact h_below
  have h_run : b.transformBelow Disk.fileSystem (4094 + 1) (.ofText "in") (.ofText "out")
      { session } (sample text.toUTF8) = ((.ok (), g₂), sampleDone text.toUTF8) := by
    have h_list : (sample text.toUTF8).list (.ofText "in") = .ok ["a.json", "sub"] := rfl
    rw [transformBelow_of_sorted h_list (.refl _) (by decide), each_cons_of_ok h_visit₁,
      each_cons_of_ok h_sub]
    rfl
  have h_target : makeTarget (.ofText "out") (sample text.toUTF8) =
      (.ok (), sample text.toUTF8) := rfl
  have h_summary : g₂.summary = sampleSummary := by
    rw [h_summary₂, Progress.add, h_summary₁]
    rfl
  rw [← h_summary]
  exact ⟨_, transformDirectory_of_ok rfl h_target h_run⟩

/-- A run over the sample does not fail. -/
theorem transformDirectory_sample {session : Session} {text : String} {program : Program}
    (h_text : program.encode.pretty = text)
    (h_program : Json.decodeText? Program.decode? text = some program)
    (h_skip : session.selects (descriptor (.ofText "in/a.json")) = false) :
    ∃ s g', transformDirectory { backup := true } Disk.fileSystem (.ofText "in") (.ofText "out")
      { session } (sample text.toUTF8) = ((.ok s, g'), sampleDone text.toUTF8) :=
  ⟨sampleSummary, transformDirectory_sample_eq h_text h_program h_skip⟩

/-- All directories of the sample are within reach. -/
theorem reaches_sampleDone (content : ByteArray) : (sampleDone content).Reaches (.ofText "in") :=
  Disk.reaches_of_listing rfl

/-- A file in the directory `in`. -/
def alone (content : ByteArray) : Disk where
  root := [("in", .directory [("a.json", .file content)])]
  wellFormed := of_decide_eq_true rfl

/-- A file in the directory `in`, with an output directory beside it that may hold an output. -/
def beside (content : ByteArray) : Option ByteArray → Disk
  | none =>
    { root := [("in", .directory [("out", .directory []), ("a.json", .file content)])]
      wellFormed := of_decide_eq_true rfl }
  | some output =>
    { root := [("in", .directory [("out", .directory [("a.json", .file output)]),
        ("a.json", .file content)])]
      wellFormed := of_decide_eq_true rfl }

/-- An output can be stored, whether or not there is one already. -/
theorem store_beside (content : ByteArray) (text : String) (old : Option ByteArray) :
    store { keepStructure := false } Disk.fileSystem
        (outputPath { keepStructure := false } (.ofText "in/out") "a.json") text
        (beside content old) =
      (.ok (), beside content (some text.toUTF8)) := by
  have h_path : outputPath { keepStructure := false } (.ofText "in/out") "a.json" =
      (.ofText "in/out/a.json") := by decide
  rw [h_path]
  unfold store FileSystem.writeText
  -- nothing is asked of the texts, which are not to be evaluated
  generalize text.toUTF8 = new
  cases old <;> rfl

/-- If all outputs go to `in/out`, the output of `in/a.json` is come to as well. -/
theorem transformDirectory_beside {session : Session} {text : String} {program : Program}
    (h_text : program.encode.pretty = text)
    (h_program : Json.decodeText? Program.decode? text = some program)
    (h_first : session.selects (descriptor (.ofText "in/a.json")) = false)
    (h_second : session.selects (descriptor (.ofText "in/out/a.json")) = false) :
    ∃ s g' d', transformDirectory { keepStructure := false } Disk.fileSystem (.ofText "in")
        (.ofText "in/out") { session } (alone text.toUTF8) = ((.ok s, g'), d') ∧
      s.processed = 2 := by
  let b : Batch := { keepStructure := false }
  let d₁ := beside text.toUTF8 none
  let d₂ := beside text.toUTF8 (some text.toUTF8)
  have h_outcome₁ : outcome session d₁ (Path.child (.ofText "in") "a.json") =
      .ok ⟨program, { skipped := true }⟩ := outcome_of_skipped rfl h_program h_first
  have h_store₁ : b.store Disk.fileSystem (b.outputPath (.ofText "in/out") "a.json")
      program.encode.pretty d₁ = (.ok (), d₂) := by
    rw [h_text]
    exact store_beside _ text none
  obtain ⟨g₁, h_visit₁, h_setup₁, h_summary₁⟩ :=
    visitName_of_ok (b := b) (g := { session }) rfl (by decide) h_outcome₁ h_store₁ 4094
  -- the file has been come to, and now its output is
  have h_outcome₂ : outcome g₁.session d₂ (Path.child (.ofText "in/out") "a.json") =
      .ok ⟨program, { skipped := true }⟩ := by
    rw [outcome_of_sameSetup h_setup₁]
    exact outcome_of_skipped rfl h_program h_second
  have h_store₂ : b.store Disk.fileSystem (b.outputPath (.ofText "in/out") "a.json")
      program.encode.pretty d₂ = (.ok (), d₂) := by
    rw [h_text]
    exact store_beside _ text (some _)
  obtain ⟨g₂, h_visit₂, -, h_summary₂⟩ :=
    visitName_of_ok (b := b) rfl (by decide) h_outcome₂ h_store₂ 4093
  -- what has just been written is one of the names in `in/out`
  have h_below : b.transformBelow Disk.fileSystem 4094 (.ofText "in/out") (.ofText "in/out") g₁ d₂ =
      ((.ok (), g₂), d₂) := by
    have h_list : d₂.list (.ofText "in/out") = .ok ["a.json"] := rfl
    rw [transformBelow_of_sorted h_list (.refl _) (by simp), each_cons_of_ok h_visit₂]
    rfl
  have h_out : b.visitName 4094 (.ofText "in") (.ofText "in/out") "out" g₁ d₂ =
      ((.ok (), g₂), d₂) := by
    rw [visitName_of_isDirectory rfl]
    exact h_below
  have h_run : b.transformBelow Disk.fileSystem (4094 + 1) (.ofText "in") (.ofText "in/out")
      { session } d₁ = ((.ok (), g₂), d₂) := by
    have h_list : d₁.list (.ofText "in") = .ok ["out", "a.json"] := rfl
    rw [transformBelow_of_sorted h_list (.swap _ _ _) (by decide), each_cons_of_ok h_visit₁,
      each_cons_of_ok h_out]
    rfl
  have h_make : makeTarget (.ofText "in/out") (alone text.toUTF8) = (.ok (), d₁) := rfl
  refine ⟨_, _, _, transformDirectory_of_ok rfl h_make h_run, ?_⟩
  rw [h_summary₂, h_summary₁]
  rfl

/-! ### Counting -/

/-- A run over a directory never ends for want of levels, and when it does not fail, it has come to
as many files as there were sources, or more. There are not more if the directories keep clear of
one another or if outputs do not take part. -/
theorem transformDirectory_processes_sources (source target : Path) (g : Progress) (d : Disk) :
    (∀ more, b.transformDirectoryWithin (Path.maxBytes + more) source target g d =
      b.transformDirectory Disk.fileSystem source target g d) ∧
    ∀ s g' d', b.transformDirectory Disk.fileSystem source target g d = ((.ok s, g'), d') →
      (d.Reaches source → (b.sources d source).length ≤ s.processed) ∧
      (d'.Reaches source → '/' ∉ b.outputExtension.toList →
        b.KeepsClear source target ∨ b.RefusesOutputs →
        s.processed = (b.sources d source).length) := by
  refine ⟨transformDirectoryWithin_add source target d g, fun s g' d' h => ?_⟩
  obtain ⟨items, d₁, g₁, h_toured, rfl⟩ := exists_toured h
  have h_processed := h_toured.processed
  rw [Nat.zero_add] at h_processed
  rw [h_processed, ← List.length_map (b.itemAt source target)]
  constructor
  · -- every source is come to, and none of them twice
    intro h_reaches
    refine ((nodup_itemAt h_toured.isDirectory target).subperm fun v h_v => ?_).length_le
    obtain ⟨rel, h_rel, rfl⟩ := List.mem_map.1 h_v
    exact List.mem_filter.2 ⟨h_toured.itemAt_mem h_reaches h_rel, rfl⟩
  · intro h_reaches h_extension h_clear
    exact (h_toured.files_perm h_extension h_clear h_reaches).length_eq

/-- Both files of the sample are counted, and neither the output nor the copy is. -/
theorem transformDirectory_processes_sources_sample :
    let b : Batch := { backup := true }
    let d := sample (Program.mk [] .synthetic).encode.pretty.toUTF8
    ∃ session s g' d', Session.ofConfig {} = .ok session ∧ d'.Reaches (.ofText "in") ∧
      b.KeepsClear (.ofText "in") (.ofText "out") ∧
      b.transformDirectory Disk.fileSystem (.ofText "in") (.ofText "out") { session } d =
        ((.ok s, g'), d') ∧
      b.sources d (.ofText "in") = [["a.json"], ["sub", "b.json"]] ∧ s.processed = 2 := by
  have h_selects : (Session.ofConfig {}).map (·.selects (descriptor (.ofText "in/a.json"))) =
    .ok false := rfl
  cases h_session : Session.ofConfig {} with
  | error e =>
    rw [h_session] at h_selects
    cases h_selects
  | ok session =>
    rw [h_session] at h_selects
    obtain ⟨s, g', h_run⟩ :=
      transformDirectory_sample rfl decodeText?_empty (Except.ok.inj h_selects)
    have h_reaches := reaches_sampleDone (Program.mk [] .synthetic).encode.pretty.toUTF8
    have h_clear : KeepsClear { backup := true } (.ofText "in") (.ofText "out") :=
      ⟨of_decide_eq_true rfl, of_decide_eq_true rfl⟩
    have h_processed := ((transformDirectory_processes_sources (.ofText "in") (.ofText "out")
      { session } _).2 s g' _ h_run).2 h_reaches (by decide) (.inl h_clear)
    exact ⟨session, s, g', _, rfl, h_reaches, h_clear, h_run, rfl, h_processed⟩

/-- One file stands in the directory, and two are counted. -/
theorem transformDirectory_processes_output :
    let b : Batch := { keepStructure := false }
    let text : String := (Program.mk [] .synthetic).encode.pretty
    let d := alone text.toUTF8
    ∃ session s g' d', Session.ofConfig {} = .ok session ∧
      b.transformDirectory Disk.fileSystem (.ofText "in") (.ofText "in/out") { session } d =
        ((.ok s, g'), d') ∧
      s.processed = 2 ∧ b.sources d (.ofText "in") = [["a.json"]] := by
  have h_selects : (Session.ofConfig {}).map (fun session =>
      (session.selects (descriptor (.ofText "in/a.json")),
        session.selects (descriptor (.ofText "in/out/a.json")))) = .ok (false, false) := rfl
  cases h_session : Session.ofConfig {} with
  | error e =>
    rw [h_session] at h_selects
    cases h_selects
  | ok session =>
    rw [h_session] at h_selects
    obtain ⟨h_first, h_second⟩ := Prod.mk.inj (Except.ok.inj h_selects)
    obtain ⟨s, g', d', h_run, h_processed⟩ :=
      transformDirectory_beside rfl decodeText?_empty h_first h_second
    exact ⟨session, s, g', d', rfl, h_run, h_processed, rfl⟩

end Batch

end AsyncMarkers
