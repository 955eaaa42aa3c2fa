/-!
# Trees of files

A directory holds files and directories under names. Whatever stands in a tree is reached by a
*route*, the names that lead to it from the top. `FileTree.get?` follows one, `FileTree.put`
replaces what stands at the end of one, and `FileTree.listing` lists all of them.

Seen through `FileTree.entryAt`, which tells what stands at the end of a route but not what a
directory holds, a tree is a finite map: `entryAt_put` says that putting something new into a
directory changes the map at one place only.
-/

namespace AsyncMarkers

/-- The names that lead to a file or a directory. -/
abbrev Route := List String

/-- What stands at the end of a route. -/
inductive Entry where
  | file (content : ByteArray)
  | directory

/-- A file, or a directory with what it holds. -/
inductive FileTree where
  | file (content : ByteArray)
  | directory (entries : List (String × FileTree))

namespace FileTree

/-- What a tree is at its top. -/
def entry : FileTree → Entry
  | .file content => .file content
  | .directory _ => .directory

/-- The tree that is nothing but an entry. -/
def ofEntry : Entry → FileTree
  | .file content => .file content
  | .directory => .directory []

/-- What stands at the end of a route. -/
def get? : Route → FileTree → Option FileTree
  | [], t => some t
  | name :: route, .directory entries => (entries.lookup name).bind (get? route)
  | _ :: _, .file _ => none

/-- Changes what has the given name. -/
def alter (name : String) (change : Option FileTree → Option FileTree)
    (entries : List (String × FileTree)) : List (String × FileTree) :=
  let others := entries.filter (·.1 ≠ name)
  match change (entries.lookup name) with
  | some t => (name, t) :: others
  | none => others

/-- Puts a tree at the end of a route, in place of what is there. If there is no directory on the
way to put it into, nothing changes. -/
def put (new : FileTree) : Route → Option FileTree → Option FileTree
  | [], _ => some new
  | name :: route, some (.directory entries) =>
    some (.directory (alter name (put new route) entries))
  | _ :: _, t => t

/-- What stands at the end of a route in a tree that need not be there. -/
def entryAt (t : Option FileTree) (r : Route) : Option Entry := (t.bind (get? r)).map entry

mutual

/-- Everything in a tree but its top, with the routes to it. -/
def listing : FileTree → List (Route × Entry)
  | .file _ => []
  | .directory entries => listingAll entries

/-- Everything in the given entries. -/
def listingAll : List (String × FileTree) → List (Route × Entry)
  | [] => []
  | (name, t) :: entries =>
    ([name], t.entry) :: t.listing.map (fun (route, e) => (name :: route, e)) ++ listingAll entries

end

/-! ### Putting and getting -/

/-- What has been taken away is not found any more, and everything else is. -/
theorem lookup_filter_ne (entries : List (String × FileTree)) (name name' : String) :
    (entries.filter (·.1 ≠ name)).lookup name' =
      if name' = name then none else entries.lookup name' := by
  induction entries with
  | nil => simp
  | cons e es ih =>
    by_cases h_gone : e.1 = name
    · -- the head is taken away, and was not looked for unless `name` is
      rw [List.filter_cons_of_neg (by simp [h_gone]), ih]
      by_cases h_same : name' = name
      · rw [if_pos h_same, if_pos h_same]
      · have h_other : (name' == e.1) = false := by simp [h_gone, h_same]
        rw [if_neg h_same, if_neg h_same, List.lookup_cons, h_other]
    · rw [List.filter_cons_of_pos (by simp [h_gone]), List.lookup_cons, List.lookup_cons, ih]
      by_cases h_found : name' = e.1
      · simp [h_found, h_gone]
      · have h_other : (name' == e.1) = false := by simp [h_found]
        rw [h_other]

/-- A change to one name is seen under that name only. -/
theorem lookup_alter (name name' : String) (change : Option FileTree → Option FileTree)
    (entries : List (String × FileTree)) :
    (alter name change entries).lookup name' =
      if name' = name then change (entries.lookup name) else entries.lookup name' := by
  have h_others := lookup_filter_ne entries name name'
  by_cases h_same : name' = name
  · rw [if_pos h_same] at h_others ⊢
    unfold alter
    split
    · rename_i t h_change
      simp [h_same, h_change]
    · rename_i h_change
      rw [h_others, h_change]
  · have h_other : (name' == name) = false := by simp [h_same]
    rw [if_neg h_same] at h_others ⊢
    unfold alter
    split
    · rw [List.lookup_cons, h_other, h_others]
    · exact h_others

/-- What stands behind a name in a directory. -/
theorem entryAt_directory_cons (entries : List (String × FileTree)) (name : String) (r : Route) :
    entryAt (some (.directory entries)) (name :: r) = entryAt (entries.lookup name) r := rfl

/-- Nothing stands below what is not a directory. -/
theorem entryAt_cons_of_ne_directory {t : Option FileTree}
    (h : entryAt t [] ≠ some .directory) (name : String) (r : Route) :
    entryAt t (name :: r) = none := by
  cases t with
  | none => rfl
  | some t =>
    cases t with
    | file content => rfl
    | directory entries => exact absurd rfl h

/-- Nothing stands below a new entry. -/
theorem entryAt_ofEntry (e : Entry) (r : Route) :
    entryAt (some (ofEntry e)) r = if r = [] then some e else none := by
  cases r with
  | nil => cases e <;> rfl
  | cons name r => cases e <;> rfl

/-- Putting something new into a directory changes what stands at that place, and nothing else. -/
theorem entryAt_put (e : Entry) (r r' : Route) (t : Option FileTree)
    (h_parent : r = [] ∨ entryAt t r.dropLast = some .directory)
    (h_free : entryAt t r ≠ some .directory) :
    entryAt (put (ofEntry e) r t) r' = if r' = r then some e else entryAt t r' := by
  induction r generalizing t r' with
  | nil =>
    rw [put, entryAt_ofEntry]
    cases r' with
    | nil => rfl
    | cons name r' => simp [entryAt_cons_of_ne_directory h_free]
  | cons name r ih =>
    -- the parent is a directory, so the top is one
    have h_top : entryAt t [] = some .directory := by
      cases r with
      | nil => simpa using h_parent
      | cons next r =>
        refine Classical.byContradiction fun h_none => ?_
        have h_nothing := entryAt_cons_of_ne_directory h_none name ((next :: r).dropLast)
        simp [h_nothing] at h_parent
    match t, h_top with
    | some (.directory entries), _ =>
      cases r' with
      | nil => rfl
      | cons name' r' =>
        rw [put, entryAt_directory_cons, entryAt_directory_cons, lookup_alter]
        rw [entryAt_directory_cons] at h_free
        by_cases h_name : name' = name
        · have h_below : r = [] ∨ entryAt (entries.lookup name) r.dropLast = some .directory := by
            cases r with
            | nil => exact .inl rfl
            | cons next r => exact .inr (by simpa [entryAt_directory_cons] using h_parent)
          rw [if_pos h_name, ih r' _ h_below h_free, h_name]
          simp
        · rw [if_neg h_name, if_neg (by simp [h_name])]

end FileTree

end AsyncMarkers
