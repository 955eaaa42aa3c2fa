import AsyncMarkers.Proofs.Routes
import Mathlib.Data.List.Nodup
import Mathlib.Order.Defs.Unbundled

/-!
# The directories of a disk

Since a disk is well-formed, `Disk.listing` is the disk as a finite map (`Disk.mem_listing_iff`).

A disk only ever grows (`Disk.Grows`): an operation can make files and directories and can overwrite
files, but what is a directory stays one and what is a file stays one. What is so for each operation
is so for every program that is built from them (`Disk.Respects`).
-/

namespace AsyncMarkers

namespace Path

variable {p q : Path}

/-- Whether a path is the parent of another one, or the parent of its parent, and so on. -/
inductive IsAncestor (q : Path) : Path → Prop
  | parent {p : Path} (h : p.parent? = some q) : IsAncestor q p
  | above {p parent : Path} (h : p.parent? = some parent) (h_above : IsAncestor q parent) :
    IsAncestor q p

/-- A segment without a meaning is left out at the end of a path. -/
theorem ofBackwards_of_blank {segment : Segment} (h : isBlank segment.text = true)
    (head : Segment) (segments : List Segment) :
    ofBackwards head (segment :: segments) = ofBackwards head segments := by
  rw [ofBackwards, ofBackwards, List.dropWhile_cons, if_pos h]

/-- Any other segment stays there, and all before it do. -/
theorem ofBackwards_of_not_blank {segment : Segment} (h : isBlank segment.text = false)
    (head : Segment) (segments : List Segment) :
    ofBackwards head (segment :: segments) = ⟨head, (segment :: segments).reverse⟩ := by
  rw [ofBackwards, List.dropWhile_cons_of_neg (by simp [h])]

/-- The parent of a path ends before its last segment. -/
theorem parent?_of_not_blank {segment : Segment} (h : isBlank segment.text = false)
    (head : Segment) (segments : List Segment) :
    parent? ⟨head, (segment :: segments).reverse⟩ = some (ofBackwards head segments) := by
  rw [parent?, backwards, List.reverse_reverse, List.dropWhile_cons_of_neg (by simp [h])]

end Path

/-! ### Listings -/

namespace FileTree

/-- What is listed of a directory are its entries, and what is listed of each of them. -/
theorem mem_listingAll_iff {entries : List (String × FileTree)} {r : Route} {e : Entry} :
    (r, e) ∈ listingAll entries ↔
      ∃ name t, (name, t) ∈ entries ∧
        (r = [name] ∧ t.entry = e ∨ ∃ r', r = name :: r' ∧ (r', e) ∈ t.listing) := by
  induction entries with
  | nil => simp [listingAll]
  | cons first entries ih =>
    obtain ⟨name, t⟩ := first
    rw [listingAll, List.mem_append, ih]
    constructor
    · rintro (h_first | ⟨name', t', h_mem, h_here⟩)
      · refine ⟨name, t, List.mem_cons_self, ?_⟩
        -- an entry comes right before what stands below it
        rcases List.mem_cons.1 h_first with h_top | h_below
        · cases h_top
          exact .inl ⟨rfl, rfl⟩
        · obtain ⟨⟨r', e'⟩, h_mem, h_same⟩ := List.mem_map.1 h_below
          cases h_same
          exact .inr ⟨r', rfl, h_mem⟩
      · exact ⟨name', t', List.mem_cons_of_mem _ h_mem, h_here⟩
    · rintro ⟨name', t', h_mem, h_here⟩
      rcases List.mem_cons.1 h_mem with h_first | h_later
      · cases h_first
        rcases h_here with ⟨rfl, rfl⟩ | ⟨r', rfl, h_below⟩
        · exact .inl List.mem_cons_self
        · exact .inl (List.mem_cons_of_mem _ (List.mem_map.2 ⟨(r', e), h_below, rfl⟩))
      · exact .inr ⟨name', t', h_later, h_here⟩

/-- A tree is not listed in itself. -/
theorem ne_nil_of_mem_listing {t : FileTree} {r : Route} {e : Entry} (h : (r, e) ∈ t.listing) :
    r ≠ [] := by
  cases t with
  | file content => cases h
  | directory entries =>
    rintro rfl
    obtain ⟨name, t, -, ⟨h_nil, -⟩ | ⟨r', h_nil, -⟩⟩ := mem_listingAll_iff.1 h <;> cases h_nil

/-- If names are different, every entry can be looked up. -/
theorem lookup_of_mem {entries : List (String × FileTree)} (h : (entries.map Prod.fst).Nodup)
    {name : String} {t : FileTree} (h_mem : (name, t) ∈ entries) :
    entries.lookup name = some t := by
  induction entries with
  | nil => cases h_mem
  | cons first entries ih =>
    obtain ⟨h_first, h_rest⟩ := List.nodup_cons.1 h
    rw [List.lookup_cons]
    rcases List.mem_cons.1 h_mem with rfl | h_later
    · simp
    · -- an entry further on has another name than the first one
      have h_other : (name == first.1) = false := by
        rw [beq_eq_false_iff_ne]
        rintro rfl
        exact h_first (List.mem_map.2 ⟨_, h_later, rfl⟩)
      rw [h_other]
      exact ih h_rest h_later

/-- A listing shows what stands at the end of every route but the empty one. -/
theorem WellFormed.mem_listing_iff {t : FileTree} (h : t.WellFormed) {r : Route} {e : Entry} :
    (r, e) ∈ t.listing ↔ r ≠ [] ∧ entryAt (some t) r = some e := by
  -- along the tree, with one name of the route for each level
  induction h generalizing r with
  | file content =>
    refine iff_of_false (by simp [listing]) ?_
    rintro ⟨h_ne, h_entry⟩
    cases r with
    | nil => exact h_ne rfl
    | cons name r => cases h_entry
  | @directory entries nodup names below ih =>
    rw [listing, mem_listingAll_iff]
    constructor
    · -- an entry that is listed is the one that is looked up, since names are different
      rintro ⟨name, t, h_mem, h_here⟩
      have h_lookup := lookup_of_mem nodup h_mem
      rcases h_here with ⟨rfl, rfl⟩ | ⟨r', rfl, h_below⟩
      · exact ⟨by simp, by rw [entryAt_directory_cons, h_lookup]; rfl⟩
      · rw [entryAt_directory_cons, h_lookup]
        exact ⟨by simp, ((ih _ h_mem).1 h_below).2⟩
    · rintro ⟨h_ne, h_entry⟩
      cases r with
      | nil => exact absurd rfl h_ne
      | cons name r =>
        -- the first name is looked up, and the rest of the route leads on from there
        rw [entryAt_directory_cons] at h_entry
        cases h_lookup : entries.lookup name with
        | none =>
          rw [h_lookup] at h_entry
          cases h_entry
        | some t =>
          rw [h_lookup] at h_entry
          have h_mem := mem_of_lookup h_lookup
          refine ⟨name, t, h_mem, ?_⟩
          cases r with
          | nil => exact .inl ⟨rfl, Option.some.inj h_entry⟩
          | cons next r => exact .inr ⟨_, rfl, (ih _ h_mem).2 ⟨by simp, h_entry⟩⟩

/-- The routes of the first entry come first. -/
theorem routes_listingAll_cons (name : String) (t : FileTree) (entries : List (String × FileTree)) :
    (listingAll ((name, t) :: entries)).map Prod.fst =
      ([name] :: (t.listing.map Prod.fst).map (name :: ·)) ++
        (listingAll entries).map Prod.fst := by
  simp [listingAll, Function.comp_def]

/-- If names are different, no route is listed twice. -/
theorem nodup_listingAll {entries : List (String × FileTree)} (h : (entries.map Prod.fst).Nodup)
    (h_below : ∀ e ∈ entries, (e.2.listing.map Prod.fst).Nodup) :
    ((listingAll entries).map Prod.fst).Nodup := by
  induction entries with
  | nil => simp [listingAll]
  | cons first entries ih =>
    obtain ⟨name, t⟩ := first
    obtain ⟨h_first, h_rest⟩ := List.nodup_cons.1 h
    obtain ⟨h_tree, h_trees⟩ := List.forall_mem_cons.1 h_below
    rw [routes_listingAll_cons]
    refine List.Nodup.append (List.nodup_cons.2 ⟨?_, ?_⟩) (ih h_rest h_trees) ?_
    · -- the route to the top of an entry is shorter than those below it
      intro h_mem
      obtain ⟨r, h_r, h_same⟩ := List.mem_map.1 h_mem
      obtain ⟨⟨r', e⟩, h_e, rfl⟩ := List.mem_map.1 h_r
      exact ne_nil_of_mem_listing h_e (List.cons.inj h_same).2
    · exact h_tree.map fun r r' h_same => (List.cons.inj h_same).2
    · -- routes of different entries start with different names
      intro r h_here h_later
      obtain ⟨⟨r', e⟩, h_mem, rfl⟩ := List.mem_map.1 h_later
      obtain ⟨name', t', h_entry, h_start⟩ := mem_listingAll_iff.1 h_mem
      have h_name : r'.head? = some name := by
        rcases List.mem_cons.1 h_here with rfl | h_below
        · rfl
        · obtain ⟨r'', -, rfl⟩ := List.mem_map.1 h_below
          rfl
      have h_name' : r'.head? = some name' := by
        rcases h_start with ⟨rfl, -⟩ | ⟨r'', rfl, -⟩ <;> rfl
      have h_same : name' = name := Option.some.inj (h_name'.symm.trans h_name)
      exact h_first (List.mem_map.2 ⟨_, h_entry, h_same⟩)

/-- A well-formed tree is listed without repetition. -/
theorem WellFormed.nodup_listing {t : FileTree} (h : t.WellFormed) :
    (t.listing.map Prod.fst).Nodup := by
  induction h with
  | file content => simp [listing]
  | directory nodup names below ih =>
    rw [listing]
    exact nodup_listingAll nodup ih

end FileTree

namespace Disk

variable {d d' d'' : Disk} {p : Path} {r : Route} {name : String} {e : Entry}

/-- What stands at the end of a route is a tree. -/
theorem get?_eq_some_iff :
    d.get? r = some e ↔ ∃ t, FileTree.get? r d.tree = some t ∧ t.entry = e := by
  rw [get?, FileTree.entryAt, Option.bind_some, Option.map_eq_some_iff]

/-- No directory holds a name twice. -/
theorem nodup_names (d : Disk) (r : Route) : (d.names r).Nodup := by
  unfold names entriesAt
  split
  · next entries h_tree =>
    -- what stands in a well-formed tree is well-formed
    cases (d.wellFormed.of_get? h_tree).1 with
    | directory nodup => exact nodup
  · exact List.nodup_nil

/-- A directory holds a name if something stands there. -/
theorem mem_names_iff : name ∈ d.names r ↔ ∃ e, d.get? (r ++ [name]) = some e := by
  have h_found : name ∈ d.names r ↔ ∃ t, (d.entriesAt r).lookup name = some t := by
    rw [← Option.isSome_iff_exists, List.lookup_isSome_iff, names, List.mem_map]
    simp only [beq_iff_eq, @eq_comm _ name]
  rw [h_found, d.lookup_entriesAt]
  simp [get?_eq_some_iff]

/-- The listing of a disk is the disk, apart from the root. -/
theorem mem_listing_iff : (r, e) ∈ d.listing ↔ r ≠ [] ∧ d.get? r = some e :=
  d.wellFormed.mem_listing_iff

/-! ### Growth -/

/-- Whether a disk has everything that another one has, with other contents of files perhaps. -/
structure Grows (d d' : Disk) : Prop where
  directories : d.Keeps d'
  files : ∀ {r content}, d.get? r = some (.file content) →
    ∃ content', d'.get? r = some (.file content')

/-- A disk has everything that it has. -/
theorem Grows.refl (d : Disk) : d.Grows d := ⟨fun _ h => h, fun h => ⟨_, h⟩⟩

/-- A disk may grow step by step. -/
theorem Grows.trans (h : d.Grows d') (h' : d'.Grows d'') : d.Grows d'' where
  directories r h_directory := h'.directories r (h.directories r h_directory)
  files h_file := by
    obtain ⟨content, h_file⟩ := h.files h_file
    exact h'.files h_file

/-- What is a file later has been one before, if it has been there. -/
theorem Grows.was_file (h : d.Grows d') {content : ByteArray}
    (h_later : d'.get? r = some (.file content)) (h_get : d.get? r ≠ none) :
    ∃ content, d.get? r = some (.file content) := by
  cases h_entry : d.get? r with
  | none => exact absurd h_entry h_get
  | some e =>
    cases e with
    | file content => exact ⟨content, rfl⟩
    -- a directory would still be one
    | directory => cases (h.directories r h_entry).symm.trans h_later

/-- What is there stays there. -/
theorem Grows.get?_ne_none (h : d.Grows d') (h_get : d.get? r ≠ none) : d'.get? r ≠ none := by
  cases h_entry : d.get? r with
  | none => exact absurd h_entry h_get
  | some e =>
    cases e with
    | directory => simp [h.directories r h_entry]
    | file content =>
      obtain ⟨content', h_file⟩ := h.files h_entry
      simp [h_file]

/-- Putting something into a directory lets a disk grow, if it does not replace a directory, or a
file by a directory. -/
theorem grows_put (h_parent : d.get? r = some .directory) (h_name : IsName name)
    (h_free : d.get? (r ++ [name]) ≠ some .directory)
    (h_kind : d.get? (r ++ [name]) = none ∨ ∃ content, e = .file content) :
    d.Grows (d.put (r ++ [name]) e) := by
  -- nothing changes but what stands at the end of the route
  have h_get := get?_put h_parent h_name h_free e
  refine ⟨?_, ?_⟩
  · -- a directory stands somewhere else
    intro r' h_directory
    have h_other : r' ≠ r ++ [name] := by
      rintro rfl
      exact h_free h_directory
    rw [h_get, if_neg h_other, h_directory]
  · intro r' content h_file
    rw [h_get]
    split
    · next h_same =>
      -- a file is replaced by a file
      rcases h_kind with h_none | ⟨content', rfl⟩
      · rw [h_same, h_none] at h_file
        cases h_file
      · exact ⟨content', rfl⟩
    · exact ⟨content, h_file⟩

/-- Writing a file lets a disk grow. -/
theorem grows_of_write {content : ByteArray} (h : d.write p content = .ok d') : d.Grows d' := by
  obtain ⟨r, name, h_follow, -, h_free, rfl⟩ := write_eq_ok_iff.1 h
  exact grows_put (get?_of_follow h_follow) (isName_of_follow h_follow) h_free
    (.inr ⟨content, rfl⟩)

/-- What it takes to make a directory, and what comes of it. -/
theorem makeDirectory_eq_ok_iff :
    d.makeDirectory p = .ok d' ↔
      ∃ r name slash, d.follow p = .ok (.named r name slash) ∧
        ¬Path.maxSegmentBytes < name.utf8ByteSize ∧ d.get? (r ++ [name]) = none ∧
        d.put (r ++ [name]) .directory = d' := by
  unfold makeDirectory
  constructor
  · -- a directory that has been made comes of the one branch that does not fail
    intro h
    cases h_follow : d.follow p with
    | error e =>
      rw [h_follow] at h
      cases h
    | ok t =>
      rw [h_follow] at h
      cases t with
      | passed r => cases h
      | named r name slash =>
        -- nothing may stand at the end of the route, and the name may not be too long
        change (d.look r name >>= _) = _ at h
        unfold look at h
        split at h
        · cases h
        next h_short =>
        refine ⟨r, name, slash, rfl, h_short, ?_⟩
        cases h_get : d.get? (r ++ [name]) with
        | none =>
          rw [h_get] at h
          exact ⟨rfl, Except.ok.inj h⟩
        | some e =>
          rw [h_get] at h
          cases h
  · rintro ⟨r, name, slash, h_follow, h_short, h_none, rfl⟩
    rw [h_follow]
    change (d.look r name >>= _) = _
    rw [look, if_neg h_short, h_none]
    rfl

/-- Making a directory changes what stands at the end of one route. -/
theorem get?_of_makeDirectory (h : d.makeDirectory p = .ok d') (r : Route) :
    d.get? p.route = none ∧ d'.get? r = if r = p.route then some .directory else d.get? r := by
  obtain ⟨r', name, slash, h_follow, -, h_none, rfl⟩ := makeDirectory_eq_ok_iff.1 h
  rcases route_of_follow h_follow with ⟨_, h_passed, -⟩ | ⟨_, _, _, h_named, h_route⟩
  · cases h_passed
  · cases h_named
    rw [← h_route]
    exact ⟨h_none, get?_put (get?_of_follow h_follow) (isName_of_follow h_follow) (by simp [h_none])
      _ r⟩

/-- Making a directory lets a disk grow. -/
theorem grows_of_makeDirectory (h : d.makeDirectory p = .ok d') : d.Grows d' := by
  obtain ⟨r, name, slash, h_follow, -, h_none, rfl⟩ := makeDirectory_eq_ok_iff.1 h
  exact grows_put (get?_of_follow h_follow) (isName_of_follow h_follow) (by simp [h_none])
    (.inl h_none)

/-- A directory that has been made can be entered. -/
theorem isDirectory_of_makeDirectory (h : d.makeDirectory p = .ok d') :
    d'.isDirectory p = true := by
  obtain ⟨r, name, slash, h_follow, h_short, -⟩ := makeDirectory_eq_ok_iff.1 h
  -- the path is followed in the same way when the directory is there
  have h_later := (grows_of_makeDirectory h).directories.follow h_follow
  rcases route_of_follow h_later with ⟨_, h_passed, -⟩ | ⟨_, _, _, h_named, h_route⟩
  · cases h_passed
  · cases h_named
    have h_made : d'.get? (r ++ [name]) = some .directory := by
      rw [h_route, (get?_of_makeDirectory h _).2, if_pos rfl]
    rw [isDirectory_eq_true_iff, find_of_named h_later h_short, h_made, h_route]

/-- Whether a disk has directories that another one has not, and is the same apart from them. -/
def Adds (d d' : Disk) : Prop :=
  ∀ r, d'.get? r = d.get? r ∨ d.get? r = none ∧ d'.get? r = some .directory

/-- A disk is the same as itself. -/
theorem Adds.refl (d : Disk) : d.Adds d := fun _ => .inl rfl

/-- Directories may be added step by step. -/
theorem Adds.trans (h : d.Adds d') (h' : d'.Adds d'') : d.Adds d'' := by
  intro r
  rcases h' r with h_same | ⟨h_none, h_directory⟩
  · rw [h_same]
    exact h r
  · rcases h r with h_same | ⟨-, h_some⟩
    · exact .inr ⟨h_same ▸ h_none, h_directory⟩
    · -- what has been added in the first step is not added again
      cases h_none.symm.trans h_some

/-- The files are the same. -/
theorem Adds.get?_eq_file (h : d.Adds d') {content : ByteArray} :
    d'.get? r = some (.file content) ↔ d.get? r = some (.file content) := by
  rcases h r with h_same | ⟨h_none, h_directory⟩
  · rw [h_same]
  · rw [h_none, h_directory]
    simp

/-- Directories that are added let a disk grow. -/
theorem Adds.grows (h : d.Adds d') : d.Grows d' where
  directories r h_directory := by
    rcases h r with h_same | ⟨-, h_new⟩
    · rw [h_same, h_directory]
    · exact h_new
  files h_file := ⟨_, h.get?_eq_file.2 h_file⟩

/-- Whether the directories that have been added are at certain routes. -/
structure AddsAt (P : Route → Prop) (d d' : Disk) : Prop where
  adds : d.Adds d'
  only : ∀ r, d'.get? r ≠ d.get? r → P r

/-- Nothing has been added to a disk that is the same. -/
theorem AddsAt.refl (P : Route → Prop) (d : Disk) :
    AddsAt P d d := ⟨.refl d, fun _ h => absurd rfl h⟩

/-- What is added step by step is at the same routes. -/
theorem AddsAt.trans {P : Route → Prop} (h : AddsAt P d d') (h' : AddsAt P d' d'') :
    AddsAt P d d'' where
  adds := h.adds.trans h'.adds
  only r h_new := by
    by_cases h_later : d''.get? r = d'.get? r
    · exact h.only r (h_later ▸ h_new)
    · exact h'.only r h_later

/-- Making a directory adds it. -/
theorem adds_of_makeDirectory (h : d.makeDirectory p = .ok d') : d.Adds d' := by
  intro r
  obtain ⟨h_none, h_get⟩ := get?_of_makeDirectory h r
  rw [h_get]
  split
  · next h_same =>
    rw [h_same]
    exact .inr ⟨h_none, rfl⟩
  · exact .inl rfl

/-! ### What programs do to disks -/

/-- Whether a program leads from every disk to one that is related to it. -/
def Respects (R : Disk → Disk → Prop) {α : Type} (x : StateM Disk α) : Prop := ∀ d, R d (x d).2

section Respects

variable {α β : Type} {R : Disk → Disk → Prop} [IsPreorder Disk R]

/-- A program that does nothing leads nowhere else. -/
theorem respects_pure (a : α) : Respects R (pure a) := fun d => refl_of R d

/-- Programs may follow one another. -/
theorem Respects.bind {x : StateM Disk α} {f : α → StateM Disk β} (h : Respects R x)
    (h' : ∀ a, Respects R (f a)) : Respects R (x >>= f) := by
  intro d
  rw [bind_apply]
  exact trans_of R (h d) (h' _ _)

/-- Looking at a disk changes nothing. -/
theorem respects_look (f : Disk → α) : Respects R (fun d => (f d, d) : StateM Disk α) :=
  fun d => refl_of R d

/-- Reading a text changes nothing. -/
theorem respects_readText (p : Path) : Respects R (fileSystem.readText p) := by
  intro d
  rw [readText_snd]
  exact refl_of R d

/-- An operation that fails changes nothing. -/
theorem respects_change {operation : Disk → Except IoError Disk}
    (h : ∀ {d d'}, operation d = .ok d' → R d d') : Respects R (change operation) := by
  intro d
  unfold change
  split
  · next d' h_operation => exact h h_operation
  · exact refl_of R d

/-- Making a directory is one such operation. -/
theorem respects_makeDirectory (h_make : ∀ d d', d.makeDirectory p = .ok d' → R d d') :
    Respects R (fileSystem.makeDirectory p) := respects_change fun {d d'} h => h_make d d' h

/-- If it fails, the program only looks whether the directory is there. -/
theorem respects_ensureDirectory (h_make : ∀ d d', d.makeDirectory p = .ok d' → R d d') :
    Respects R (fileSystem.ensureDirectory p) := by
  refine .bind (respects_makeDirectory h_make) fun result => ?_
  split
  · exact respects_pure _
  · refine .bind (respects_look _) fun isDirectory => ?_
    split <;> exact respects_pure _

/-- A directory and those on the way to it are made in turn. -/
theorem respects_makeBelow (h_make : ∀ d d', d.makeDirectory p = .ok d' → R d d')
    {parents : StateM Disk (Except IoError Unit)} (h_parents : Respects R parents) :
    Respects R (fileSystem.makeBelow p parents) := by
  refine .bind (respects_makeDirectory h_make) fun result => ?_
  split
  · exact respects_pure _
  · -- something is missing on the way
    refine .bind h_parents fun made => ?_
    split
    · exact respects_ensureDirectory h_make
    · exact respects_pure _
  · refine .bind (respects_look _) fun isDirectory => ?_
    split <;> exact respects_pure _

/-- All directories that are made on the way are ancestors. -/
theorem respects_makeAncestors {head : Segment} {segments : List Segment}
    (h_make : ∀ q, q = .ofBackwards head segments ∨ q.IsAncestor (.ofBackwards head segments) →
      ∀ d d', d.makeDirectory q = .ok d' → R d d') :
    Respects R (fileSystem.makeAncestors head segments) := by
  -- from the last segment on, as the directories are tried
  induction segments with
  | nil =>
    unfold FileSystem.makeAncestors
    split
    · next h_head =>
      exact respects_makeBelow (h_make _ (.inl (if_pos h_head).symm)) (respects_pure _)
    · next h_head =>
      exact respects_makeBelow (h_make _ (.inl (if_neg h_head).symm)) (respects_pure _)
  | cons segment segments ih =>
    unfold FileSystem.makeAncestors
    cases h_blank : Path.isBlank segment.text with
    | true =>
      -- the segment has no meaning, and is left out of the path too
      rw [if_pos rfl]
      rw [Path.ofBackwards_of_blank h_blank] at h_make
      exact ih h_make
    | false =>
      rw [if_neg Bool.false_ne_true]
      rw [Path.ofBackwards_of_not_blank h_blank] at h_make
      have h_parent := Path.parent?_of_not_blank h_blank head segments
      refine respects_makeBelow (h_make _ (.inl rfl)) (ih fun q h_q => h_make q (.inr ?_))
      -- an ancestor of the parent is an ancestor
      rcases h_q with rfl | h_above
      · exact .parent h_parent
      · exact .above h_parent h_above

/-- What is so for making one directory is so for making all directories on the way, which are the
ancestors of the path. -/
theorem respects_makeDirectories (h_make : ∀ q, q = p ∨ q.IsAncestor p →
    ∀ d d', d.makeDirectory q = .ok d' → R d d') :
    Respects R (fileSystem.makeDirectories p) := by
  unfold FileSystem.makeDirectories
  split
  · exact respects_pure _
  · refine respects_makeBelow (h_make p (.inl rfl)) ?_
    split
    · next segment segments h_backwards =>
      have h_parent : p.parent? = some (.ofBackwards p.head segments) := by
        rw [Path.parent?, h_backwards]
      refine respects_makeAncestors fun q h_q => h_make q (.inr ?_)
      rcases h_q with rfl | h_above
      · exact .parent h_parent
      · exact .above h_parent h_above
    · exact respects_pure _

end Respects

instance : IsPreorder Disk Grows where
  refl := Grows.refl
  trans _ _ _ := Grows.trans

instance : IsPreorder Disk Adds where
  refl := Adds.refl
  trans _ _ _ := Adds.trans

instance (P : Route → Prop) : IsPreorder Disk (AddsAt P) where
  refl := AddsAt.refl P
  trans _ _ _ := AddsAt.trans

/-- Making directories makes directories on the way and nothing else. -/
theorem addsAt_makeDirectories (p : Path) (d : Disk) :
    AddsAt (fun r => ∃ q : Path, (q = p ∨ q.IsAncestor p) ∧ q.route = r) d
      (fileSystem.makeDirectories p d).2 := by
  refine respects_makeDirectories (fun q h_q d d' h =>
    ⟨adds_of_makeDirectory h, fun r h_new => ?_⟩) d
  refine ⟨q, h_q, Classical.byContradiction fun h_other => h_new ?_⟩
  -- where no path on the way leads to, nothing changes
  rw [(get?_of_makeDirectory h r).2, if_neg (Ne.symm h_other)]

/-- Whether a program lets every disk grow. -/
abbrev Growing {α : Type} (x : StateM Disk α) : Prop := Respects Grows x

/-- Writing lets every disk grow. -/
theorem growing_write (p : Path) (content : ByteArray) : Growing (fileSystem.write p content) :=
  respects_change grows_of_write

/-- So does copying, which looks first and writes then. -/
theorem growing_copy (source p : Path) : Growing (fileSystem.copy source p) := by
  refine .bind (respects_look _) fun isDirectory => ?_
  split
  · exact respects_pure _
  · refine .bind (respects_look _) fun result => ?_
    split
    · exact respects_pure _
    · exact growing_write p _

/-- So does making directories. -/
theorem growing_makeDirectories (p : Path) : Growing (fileSystem.makeDirectories p) :=
  respects_makeDirectories fun _ _ _ _ h => grows_of_makeDirectory h

/-! ### Making directories that may be there -/

/-- Something is present if it is found. -/
theorem isPresent_iff : d.isPresent p = true ↔ ∃ e, d.find p = .ok (p.route, e) := by
  unfold isPresent
  constructor
  · intro h
    cases h_find : d.find p with
    | error e =>
      rw [h_find] at h
      cases h
    | ok found =>
      obtain ⟨r, e⟩ := found
      exact ⟨e, by rw [(find_eq_ok h_find).1]⟩
  · rintro ⟨e, h_find⟩
    rw [h_find]
    rfl

/-- A directory that can be entered is present. -/
theorem isPresent_of_isDirectory (h : d.isDirectory p = true) : d.isPresent p = true :=
  isPresent_iff.2 ⟨_, isDirectory_eq_true_iff.1 h⟩

/-- A directory is not made where something is already. -/
theorem makeDirectory_of_present (h : d.isPresent p = true) :
    d.makeDirectory p = .error .alreadyExists := by
  obtain ⟨e, h_find⟩ := isPresent_iff.1 h
  obtain ⟨t, h_follow⟩ := exists_follow_of_find h_find
  rw [makeDirectory, h_follow]
  -- dots lead to directories that are there, and a name to what has been found
  rcases route_of_follow h_follow with ⟨r, rfl, -⟩ | ⟨r, name, slash, rfl, h_route⟩
  · rfl
  · change (d.look r name >>= _) = _
    rw [look, if_neg (short_of_find h_follow h_find), h_route, (find_eq_ok h_find).2]
    rfl

/-- A directory that is not made leaves the disk as it is. -/
theorem makeDirectory_apply (d : Disk) (p : Path) :
    fileSystem.makeDirectory p d =
      match d.makeDirectory p with
      | .ok d' => (.ok (), d')
      | .error e => (.error e, d) := rfl

/-- After a failure, a directory is taken as made if it is there. -/
theorem check_apply (d : Disk) (p : Path) (e : IoError) :
    (do if ← fileSystem.isDirectory p then return .ok () else return .error e :
      StateM Disk (Except IoError Unit)) d = (if d.isDirectory p then .ok () else .error e, d) := by
  have h_look : fileSystem.isDirectory p d = (d.isDirectory p, d) := rfl
  rw [bind_apply, h_look]
  cases d.isDirectory p <;> rfl

/-- If a directory is not made, it counts whether it is there. -/
theorem ensureDirectory_of_error {e : IoError} (h : d.makeDirectory p = .error e) :
    fileSystem.ensureDirectory p d = (if d.isDirectory p then .ok () else .error e, d) := by
  rw [FileSystem.ensureDirectory, bind_apply, makeDirectory_apply, h]
  exact check_apply d p e

/-- Unless something is missing on the way, the same holds here. -/
theorem makeBelow_of_error {e : IoError} (h : d.makeDirectory p = .error e)
    (h_found : e ≠ .notFound) (parents : StateM Disk (Except IoError Unit)) :
    fileSystem.makeBelow p parents d = (if d.isDirectory p then .ok () else .error e, d) := by
  rw [FileSystem.makeBelow, bind_apply, makeDirectory_apply, h]
  cases e with
  | notFound => exact absurd rfl h_found
  | _ => exact check_apply d p _

/-- Nothing is made where something is already. -/
theorem makeDirectories_of_present (h : d.isPresent p = true) :
    fileSystem.makeDirectories p d =
      (if d.isDirectory p then .ok () else .error .alreadyExists, d) := by
  obtain ⟨e, h_find⟩ := isPresent_iff.1 h
  rw [FileSystem.makeDirectories, if_neg (fits_of_find h_find).1,
    makeBelow_of_error (makeDirectory_of_present h) (by simp)]

/-- If this does not fail, the directory is there. -/
theorem isDirectory_of_ensureDirectory (h : (fileSystem.ensureDirectory p d).1 = .ok ()) :
    (fileSystem.ensureDirectory p d).2.isDirectory p = true := by
  cases h_make : d.makeDirectory p with
  | ok d' =>
    rw [FileSystem.ensureDirectory, bind_apply, makeDirectory_apply, h_make]
    exact isDirectory_of_makeDirectory h_make
  | error e =>
    -- nothing has been made, but the directory has been found
    rw [ensureDirectory_of_error h_make] at h ⊢
    split at h
    · assumption
    · cases h

/-- It is there, too, when those on the way to it had to be made first. -/
theorem isDirectory_of_makeBelow {parents : StateM Disk (Except IoError Unit)}
    (h : (fileSystem.makeBelow p parents d).1 = .ok ()) :
    (fileSystem.makeBelow p parents d).2.isDirectory p = true := by
  cases h_make : d.makeDirectory p with
  | ok d' =>
    rw [FileSystem.makeBelow, bind_apply, makeDirectory_apply, h_make]
    exact isDirectory_of_makeDirectory h_make
  | error e =>
    by_cases h_found : e = .notFound
    · -- something was missing on the way, and has been made
      rw [h_found] at h_make
      rw [FileSystem.makeBelow, bind_apply, makeDirectory_apply, h_make] at h ⊢
      dsimp only at h ⊢
      rw [bind_apply] at h ⊢
      generalize parents d = made at h ⊢
      obtain ⟨e | _, d₁⟩ := made
      · cases h
      · exact isDirectory_of_ensureDirectory h
    · rw [makeBelow_of_error h_make h_found] at h ⊢
      split at h
      · assumption
      · cases h

/-- If making a directory does not fail, it is there. -/
theorem opens_of_makeDirectories (h : (fileSystem.makeDirectories p d).1 = .ok ()) :
    (fileSystem.makeDirectories p d).2.Opens p := by
  unfold FileSystem.makeDirectories at h ⊢
  split
  · next h_empty => exact .inl h_empty
  · next h_empty =>
    rw [if_neg h_empty] at h
    exact .inr (isDirectory_of_makeBelow h)

end Disk

end AsyncMarkers
