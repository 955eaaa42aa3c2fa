import AsyncMarkers.Proofs.Directories
import Mathlib.Data.List.Induction
import Mathlib.Data.List.TakeDrop

/-!
# The names of paths

What `Path` does with the name of a path is done to the name alone if the path is that of something
in a directory: another extension is another name in the same directory
(`Path.withExtension_child`), and the parent is the directory, apart from segments without a meaning
(`Path.parent?_child`).

A path that stands on a disk, `Disk.Stands`, needs no directories to be made for it.
-/

namespace AsyncMarkers

/-! ### The stem and the extension of a name -/

/-- Only the last dot matters, and it has to have something in front of it. -/
theorem splitName_cases (name : String) :
    splitName name = (name, none) ∨
      ∃ front back, front ≠ [] ∧ name.toList = front ++ '.' :: back ∧
        splitName name = (String.ofList front, some (String.ofList back)) := by
  have h_parts := List.takeWhile_append_dropWhile (p := (· ≠ '.')) (l := name.toList.reverse)
  have h_dot := List.head?_dropWhile_not (· ≠ '.') name.toList.reverse
  unfold splitName
  -- the name is divided from behind, at the first dot that is met there
  rw [List.span_eq_takeWhile_dropWhile]
  generalize name.toList.reverse.takeWhile (· ≠ '.') = back at h_parts ⊢
  generalize name.toList.reverse.dropWhile (· ≠ '.') = rest at h_parts h_dot ⊢
  rcases rest with _ | ⟨dot, _ | ⟨c, front⟩⟩
  · exact .inl rfl
  · exact .inl rfl
  · obtain rfl : dot = '.' := by simpa using h_dot
    refine .inr ⟨(c :: front).reverse, back.reverse, by simp, ?_, rfl⟩
    rw [← List.reverse_reverse name.toList, ← h_parts]
    simp

/-- A name is divided at a dot that has something in front of it and no dot behind it. -/
theorem splitName_append {stem extension : String} (h : stem ≠ "")
    (h_dot : '.' ∉ extension.toList) :
    splitName (stem ++ "." ++ extension) = (stem, some extension) := by
  have h_reverse : (stem ++ "." ++ extension).toList.reverse =
      extension.toList.reverse ++ '.' :: stem.toList.reverse := by simp
  have h_stem : stem.toList.reverse ≠ [] := by simpa using h
  have h_back : ∀ c ∈ extension.toList.reverse, decide (c ≠ '.') = true := by
    intro c h_c
    rw [List.mem_reverse] at h_c
    exact decide_eq_true fun h_eq => h_dot (h_eq ▸ h_c)
  unfold splitName
  rw [h_reverse, List.span_eq_takeWhile_dropWhile, List.takeWhile_append_of_pos h_back,
    List.dropWhile_append_of_pos h_back, List.takeWhile_cons_of_neg (by simp),
    List.dropWhile_cons_of_neg (by simp)]
  dsimp only
  -- the stem is there, so the dot does not stand at the very front
  split
  · next h_nil => cases h_nil
  · next h_one => exact absurd (List.cons.inj h_one).2 h_stem
  · next h_front =>
    rw [← (List.cons.inj h_front).2]
    simp

/-- A name that ends with a dot has an empty extension. -/
theorem splitName_concat_dot {stem : String} (h : stem ≠ "") :
    splitName (stem ++ ".") = (stem, some "") := by
  have h_split := splitName_append h (show '.' ∉ "".toList by simp)
  rwa [String.append_empty] at h_split

/-- A name is divided into parts of it. -/
theorem no_slash_splitName {name : String} (h : '/' ∉ name.toList) :
    '/' ∉ (splitName name).1.toList ∧ '/' ∉ ((splitName name).2.getD "").toList := by
  rcases splitName_cases name with h_split | ⟨front, back, -, h_list, h_split⟩
  · rw [h_split]
    exact ⟨h, by simp⟩
  · rw [h_list] at h
    rw [h_split]
    refine ⟨?_, ?_⟩
    · simpa using fun h_mem => h (List.mem_append_left _ h_mem)
    · simpa using fun h_mem => h (List.mem_append_right _ (List.mem_cons_of_mem _ h_mem))

/-- What is left of a name without its extension is not empty. -/
theorem splitName_ne_empty {name : String} (h : name ≠ "") : (splitName name).1 ≠ "" := by
  rcases splitName_cases name with h_split | ⟨front, back, h_front, -, h_split⟩
  · rwa [h_split]
  · rw [h_split]
    simpa using h_front

/-- The name with another extension. What is left of a name without its extension can lead
upwards. -/
def renamed (name extension : String) : String :=
  let stem := (splitName name).1
  if stem = "." then ".." else if extension = "" then stem else stem ++ "." ++ extension

/-- What is left of a proper name is one, if it does not lead upwards. -/
theorem isName_renamed {name extension : String} (h_name : IsName name)
    (h_extension : '/' ∉ extension.toList) :
    renamed name extension = ".." ∨ IsName (renamed name extension) := by
  have h_full := splitName_ne_empty h_name.ne_empty
  obtain ⟨h_slash, -⟩ := no_slash_splitName h_name.no_slash
  unfold renamed
  dsimp only
  generalize (splitName name).1 = stem at h_full h_slash ⊢
  by_cases h_dot : stem = "."
  · exact .inl (if_pos h_dot)
  rw [if_neg h_dot]
  by_cases h_none : extension = ""
  · rw [if_pos h_none]
    by_cases h_up : stem = ".."
    · exact .inl h_up
    · exact .inr ⟨h_full, h_dot, h_up, h_slash⟩
  · rw [if_neg h_none]
    -- there are three characters at least
    have h_length : 3 ≤ (stem ++ "." ++ extension).toList.length := by
      have h_stem : stem.toList ≠ [] := by simpa using h_full
      have h_rest : extension.toList ≠ [] := by simpa using h_none
      have h_stem := List.length_pos_iff.2 h_stem
      have h_rest := List.length_pos_iff.2 h_rest
      simp only [String.toList_append, List.length_append]
      change 3 ≤ stem.toList.length + 1 + extension.toList.length
      omega
    have h_ne : ∀ short : String, short.toList.length < 3 → stem ++ "." ++ extension ≠ short := by
      intro short h_short h_eq
      rw [h_eq] at h_length
      omega
    exact .inr ⟨h_ne _ (by decide), h_ne _ (by decide), h_ne _ (by decide),
      by simp [h_slash, h_extension]⟩

namespace Path

variable {p : Path} {name extension : String}

/-! ### Names and extensions of paths below a directory -/

/-- The segments behind the first one of a path below a directory, the name first. -/
theorem backwards_child (h_name : isBlank name = false) (h_slash : '/' ∉ name.toList) :
    (p = empty ∧ (p.child name).backwards = []) ∨
      p ≠ empty ∧ ∃ front, (p.tail = front ∨ p.tail = front ++ [.empty]) ∧
        (∀ name (h_slash : '/' ∉ name.toList),
          p.child name = ⟨p.head, front ++ [⟨name, h_slash⟩]⟩) ∧
        (p.child name).backwards = ⟨name, h_slash⟩ :: front.reverse := by
  by_cases h_empty : p = empty
  · refine .inl ⟨h_empty, ?_⟩
    rw [h_empty, child_empty h_slash]
    rfl
  · obtain ⟨front, h_tail, h_child⟩ := child_eq_of_ne_empty h_empty
    refine .inr ⟨h_empty, front, h_tail, h_child, ?_⟩
    rw [h_child name h_slash, backwards, List.reverse_concat,
      List.dropWhile_cons_of_neg (by simp [h_name])]

/-- A proper name has a meaning. -/
theorem isBlank_of_isName (h : IsName name) : isBlank name = false := by
  simp [isBlank, h.ne_empty, h.ne_dot]

/-- Below a directory, the name of a path is the last one. -/
theorem name?_child (h : IsName name) : (p.child name).name? = some name := by
  rcases backwards_child (p := p) (isBlank_of_isName h) h.no_slash with
    ⟨h_empty, h_backwards⟩ | ⟨-, front, -, -, h_backwards⟩
  · rw [name?, h_backwards, h_empty, child_empty h.no_slash]
    simp [← Segment.text_eq_empty_iff, h.ne_empty, h.ne_dot, h.ne_up]
  · rw [name?, h_backwards]
    simp [h.ne_up]

/-- A path that leads upwards has no name. -/
theorem name?_child_up (p : Path) : (p.child "..").name? = none := by
  have h_slash : '/' ∉ "..".toList := by decide
  rcases backwards_child (p := p) (show isBlank ".." = false from rfl) h_slash with
    ⟨h_empty, h_backwards⟩ | ⟨-, front, -, -, h_backwards⟩
  · rw [name?, h_backwards, h_empty, child_empty h_slash]
    simp
  · rw [name?, h_backwards]
    simp

/-- Below a directory, the extension is that of the name. -/
theorem extension?_child (h : IsName name) : (p.child name).extension? = (splitName name).2 := by
  rw [extension?, name?_child h, Option.bind_some]

/-- Below a directory, another name takes the place of the last one. -/
theorem withName_child (h_name : IsName name) {new : String} (h_new : '/' ∉ new.toList) :
    (p.child name).withName new = p.child new := by
  rcases backwards_child (p := p) (isBlank_of_isName h_name) h_name.no_slash with
    ⟨h_empty, h_backwards⟩ | ⟨-, front, -, h_child, h_backwards⟩
  · rw [withName, h_backwards, h_empty, child_empty h_new, ofText_of_no_slash h_new]
  · rw [withName, h_backwards, h_child name h_name.no_slash, h_child new h_new,
      ofText_of_no_slash h_new]
    simp [parts]

/-- An extension is put behind what is left of the name. -/
theorem setExtension_child (h_name : IsName name) (h_stem : '/' ∉ (splitName name).1.toList)
    (h_extension : '/' ∉ extension.toList) :
    (p.child name).setExtension extension =
      p.child (if extension = "" then (splitName name).1
        else (splitName name).1 ++ "." ++ extension) := by
  rw [setExtension, name?_child h_name]
  refine withName_child h_name ?_
  split
  · exact h_stem
  · simp [h_stem, h_extension]

/-- A path that leads upwards gets no extension. -/
theorem setExtension_child_up (p : Path) (extension : String) :
    (p.child "..").setExtension extension = p.child ".." := by
  rw [setExtension, name?_child_up]

/-- Below a directory, the extension of a path is that of the last name. -/
theorem withExtension_child (h_name : IsName name) (h_extension : '/' ∉ extension.toList) :
    (p.child name).withExtension extension = p.child (renamed name extension) := by
  obtain ⟨h_stem, -⟩ := no_slash_splitName h_name.no_slash
  have h_full := splitName_ne_empty h_name.ne_empty
  unfold withExtension cutExtension renamed
  rw [name?_child h_name]
  dsimp only
  rcases splitName_cases name with h_split | ⟨front, back, -, -, h_split⟩
  · -- without an extension there is nothing to be cut off
    rw [h_split]
    dsimp only
    rw [setExtension_child h_name h_stem h_extension, h_split, if_neg h_name.ne_dot]
  · -- the extension is cut off up to its dot, which goes when another one is put there
    rw [h_split] at h_stem h_full
    rw [h_split, getLast?_segments_child p h_name.no_slash]
    dsimp only at h_stem h_full ⊢
    rw [if_pos rfl, withName_child h_name (by simpa using h_stem)]
    generalize String.ofList front = stem at h_stem h_full ⊢
    by_cases h_dot : stem = "."
    · -- what is left leads upwards
      rw [if_pos h_dot, h_dot]
      exact setExtension_child_up p extension
    · -- with the dot left behind the stem it is still a proper name
      have h_rest : IsName (stem ++ ".") := by
        refine ⟨?_, ?_, ?_, by simpa using h_stem⟩
        · intro h_eq
          simpa using congrArg String.toList h_eq
        · intro h_eq
          exact h_full (by simpa using congrArg String.toList h_eq)
        · intro h_eq
          have h_list : stem.toList ++ ['.'] = ".".toList ++ ['.'] := by
            simpa using congrArg String.toList h_eq
          exact h_dot (String.toList_inj.1 (List.append_cancel_right h_list))
      have h_split := splitName_concat_dot h_full
      rw [if_neg h_dot, setExtension_child h_rest (by rwa [h_split]) h_extension, h_split]

/-! ### The directory that a path stands in -/

/-- A path without the segments at its end that have no meaning. -/
def trim (p : Path) : Path := if p = empty then empty else ofBackwards p.head p.tail.reverse

/-- Something in a directory has that directory for its parent. -/
theorem parent?_child (h_name : isBlank name = false) (h_slash : '/' ∉ name.toList) :
    (p.child name).parent? = some p.trim := by
  rcases backwards_child (p := p) h_name h_slash with
    ⟨h_empty, h_backwards⟩ | ⟨h_empty, front, h_tail, h_child, h_backwards⟩
  · -- the path is the name alone, and its parent is empty
    have h_full : (⟨name, h_slash⟩ : Segment) ≠ .empty := by
      rw [Ne, ← Segment.text_eq_empty_iff]
      rintro rfl
      cases h_name
    rw [parent?, h_backwards, h_empty, child_empty h_slash, trim, if_pos rfl]
    exact if_neg h_full
  · rw [parent?, h_backwards, h_child name h_slash, trim, if_neg h_empty]
    rcases h_tail with h_tail | h_tail
    · rw [h_tail]
    · -- an empty segment at the end does not matter
      rw [h_tail, List.reverse_concat, ofBackwards_of_blank rfl]

/-- A path without its end is what it starts with, or the top of the disk. -/
theorem trim_cases (h : p ≠ empty) :
    ∃ kept more, p.tail = kept ++ more ∧
      (p.trim = ⟨p.head, kept⟩ ∧ p.trim ≠ empty ∨
        p.head = .empty ∧ kept = [] ∧ p.trim = ⟨.empty, [.empty]⟩) := by
  refine ⟨(p.tail.reverse.dropWhile (isBlank ·.text)).reverse,
    (p.tail.reverse.takeWhile (isBlank ·.text)).reverse, ?_, ?_⟩
  · rw [← List.reverse_append, List.takeWhile_append_dropWhile, List.reverse_reverse]
  · rw [trim, if_neg h, ofBackwards]
    cases p.tail.reverse.dropWhile (isBlank ·.text) with
    | nil =>
      -- nothing is left behind the head, and if that is empty, the path is the top
      by_cases h_head : p.head = .empty
      · exact .inr ⟨h_head, rfl, if_pos h_head⟩
      · refine .inl ⟨if_neg h_head, ?_⟩
        dsimp only
        rw [if_neg h_head]
        intro h_empty
        exact h_head (Path.mk.inj h_empty).1
    | cons segment segments =>
      refine .inl ⟨rfl, ?_⟩
      intro h_empty
      have h_tail := (Path.mk.inj h_empty).2
      simp at h_tail

/-- More segments make a longer text. -/
theorem text_append (head : Segment) (front more : List Segment) :
    ∃ rest, text ⟨head, front ++ more⟩ = text ⟨head, front⟩ ++ rest := by
  induction more using List.reverseRecOn with
  | nil => exact ⟨"", by simp⟩
  | append_singleton more segment ih =>
    obtain ⟨rest, h_rest⟩ := ih
    refine ⟨rest ++ "/" ++ segment.text, ?_⟩
    rw [← List.append_assoc, text_concat, h_rest]
    simp [String.append_assoc]

/-- A path that fits still does so without its end. -/
theorem fits_trim (h : p.Fits) : p.trim.Fits := by
  obtain ⟨kept, more, h_tail, ⟨h_trim, h_empty⟩ | ⟨-, -, h_trim⟩⟩ := trim_cases h.1
  · -- the text gets shorter
    obtain ⟨rest, h_text⟩ := text_append p.head kept more
    have h_whole : p.text = p.trim.text ++ rest := by
      rw [h_trim, ← h_text, ← h_tail]
    obtain ⟨-, h_zero, h_long⟩ := h
    rw [h_whole] at h_zero h_long
    refine ⟨h_empty, fun h_mem => h_zero ?_, ?_⟩
    · simp only [String.toList_append, List.contains_eq_mem, List.mem_append, decide_eq_true_eq]
        at h_mem ⊢
      exact .inl h_mem
    · rw [String.utf8ByteSize_append] at h_long
      omega
  · rw [h_trim]
    refine ⟨by simp [empty], by decide, by decide⟩

/-- The segments that matter are those of the path without its end, and perhaps more. -/
theorem filter_segments_trim (h : p ≠ empty) :
    ∃ more, p.segments.filter (· ≠ "") = p.trim.segments.filter (· ≠ "") ++ more := by
  obtain ⟨kept, more, h_tail, h_trim⟩ := trim_cases h
  have h_kept : p.trim.segments.filter (· ≠ "") =
      ((p.head :: kept).map Segment.text).filter (· ≠ "") := by
    rcases h_trim with ⟨h_trim, -⟩ | ⟨h_head, h_kept, h_trim⟩
    · rw [h_trim]
      rfl
    · rw [h_trim, h_head, h_kept]
      rfl
  refine ⟨(more.map Segment.text).filter (· ≠ ""), ?_⟩
  rw [h_kept, ← List.filter_append, ← List.map_append, segments, parts, h_tail, List.cons_append]

end Path

namespace Disk

variable {d d' : Disk} {p : Path}

/-- If a path leads to a directory, so does the path without its end. -/
theorem isDirectory_trim (h : d.isDirectory p = true) : d.isDirectory p.trim = true := by
  obtain ⟨h_fits, h_walk⟩ := isDirectory_iff.1 h
  obtain ⟨more, h_segments⟩ := Path.filter_segments_trim h_fits.1
  rw [h_segments, List.foldlM_append] at h_walk
  -- the steps of the shorter path are the first ones of the longer
  cases h_kept : (p.trim.segments.filter (· ≠ "")).foldlM d.step [] with
  | error e =>
    rw [h_kept] at h_walk
    cases h_walk
  | ok names => exact isDirectory_of_foldlM_step (Path.fits_trim h_fits) h_kept

/-- A path that leads to a name, with no slash behind it, ends with that name. -/
theorem getLast?_of_follow {r : Route} {name : String}
    (h : d.follow p = .ok (.named r name false)) :
    p.segments.getLast? = some name ∧ Path.isBlank name = false := by
  rcases exists_of_follow h with ⟨-, h_passed⟩ | ⟨before, segment, h_segments, -, h_last⟩
  · cases h_passed
  -- dots at the end lead to directories
  unfold last at h_last
  split at h_last
  · cases h_last
  next h_dot =>
  split at h_last
  · cases h_last
  -- behind the name there is no slash
  obtain ⟨-, rfl, h_slash⟩ := Target.named.inj h_last
  obtain ⟨segment', h_getLast⟩ : ∃ segment', p.segments.getLast? = some segment' :=
    ⟨_, List.getLast?_eq_some_getLast (List.cons_ne_nil _ _)⟩
  have h_full : segment' ≠ "" := by
    rintro rfl
    exact absurd h_getLast (of_decide_eq_false h_slash.symm)
  obtain ⟨front, h_front⟩ := List.getLast?_eq_some_iff.1 h_getLast
  rw [h_front, List.filter_append, List.filter_cons_of_pos (by simpa using h_full)] at h_segments
  obtain ⟨-, h_same⟩ := List.append_inj' h_segments rfl
  cases h_same
  exact ⟨h_getLast, by simp [Path.isBlank, h_full, h_dot]⟩

/-- The last segment of the path of a file is the name of the file. -/
theorem getLast?_of_find {r : Route} {content : ByteArray} (h : d.find p = .ok (r, .file content)) :
    ∃ name, p.segments.getLast? = some name ∧ Path.isBlank name = false := by
  obtain ⟨r', name, h_follow, -⟩ := find_eq_file_iff.1 h
  exact ⟨name, getLast?_of_follow h_follow⟩

/-- The path of a file has no such end. -/
theorem trim_of_find {r : Route} {content : ByteArray} (h : d.find p = .ok (r, .file content)) :
    p.trim = p := by
  obtain ⟨name, h_last, h_name⟩ := getLast?_of_find h
  rw [Path.trim, if_neg (fits_of_find h).1, Path.ofBackwards]
  obtain ⟨head, tail⟩ := p
  rcases List.eq_nil_or_concat tail with rfl | ⟨front, last, rfl⟩
  · have h_head : head ≠ .empty := by
      rintro rfl
      cases h_last
      cases h_name
    simp [h_head]
  · rw [List.concat_eq_append, Path.segments, Path.parts, ← List.cons_append,
      List.map_append] at h_last
    cases Option.some.inj (List.getLast?_concat.symm.trans h_last)
    rw [List.concat_eq_append, List.reverse_concat, List.dropWhile_cons_of_neg (by simp [h_name])]
    simp

/-- Whether there is something at the end of a path, or paths below it can be followed. -/
def Stands (d : Disk) (p : Path) : Prop := p = .empty ∨ d.isPresent p = true

/-- A directory that can be entered stands. -/
theorem Opens.stands (h : d.Opens p) : d.Stands p := h.imp id isPresent_of_isDirectory

/-- What stands is a file unless paths below it can be followed. -/
theorem Stands.opens_or_file (h : d.Stands p) :
    d.Opens p ∨ ∃ content, d.find p = .ok (p.route, .file content) := by
  rcases h with h_empty | h_present
  · exact .inl (.inl h_empty)
  · obtain ⟨e, h_find⟩ := isPresent_iff.1 h_present
    cases e with
    | directory => exact .inl (.inr (isDirectory_eq_true_iff.2 h_find))
    | file content => exact .inr ⟨content, h_find⟩

/-- What stands and is a directory later can be entered, for a file would still be one. -/
theorem Stands.opens_of_grows (h : d.Stands p) (h_grows : d.Grows d')
    (h_directory : d'.get? p.route = some .directory) : d.Opens p := by
  rcases h.opens_or_file with h_opens | ⟨content, h_file⟩
  · exact h_opens
  · obtain ⟨content', h_later⟩ := h_grows.files (find_eq_ok h_file).2
    cases h_later.symm.trans h_directory

/-- What stands on a disk stands on it when it has grown. -/
theorem Grows.stands (h : d.Grows d') (h_stands : d.Stands p) : d'.Stands p := by
  rcases h_stands.opens_or_file with h_opens | ⟨content, h_file⟩
  · exact (h.directories.opens h_opens).stands
  · -- the way to the file is the same, and it is still a file
    obtain ⟨content', h_later⟩ := h.files (find_eq_ok h_file).2
    obtain ⟨r, name, h_follow, h_short, -, h_route⟩ := find_eq_file_iff.1 h_file
    rw [← h_route] at h_later
    exact .inr (isPresent_iff.2 ⟨.file content', find_eq_file_iff.2
      ⟨r, name, h.directories.follow h_follow, h_short, h_later, h_route⟩⟩)

end Disk

end AsyncMarkers
