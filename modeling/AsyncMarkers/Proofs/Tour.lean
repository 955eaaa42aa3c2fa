import AsyncMarkers.Proofs.Outputs
import Mathlib.Data.String.Basic

/-!
# Tours of directories

A run over a directory comes to one thing after the other: a directory is listed when the run gets
there, after much may have been written already. `Batch.Tour` is what a run does that does not fail:
the names it has still to go through, the `Item`s it has come to, in order, and what each of them
has left behind. Every run that does not fail is such a tour (`Batch.exists_toured`), and what is
said of runs is proved by induction on tours:

* the items are in the order of their routes, so nothing is come to twice (`Batch.Tour.sorted`);
* a file that was there at the start is come to (`Batch.Tour.covers`);
* something that is come to was there when its directory was listed, and what the run had done until
  then, it had done in other directories (`Batch.Tour.listed`).

With as many levels as a path may have bytes, a run never ends for want of levels
(`Batch.transformBelow_add`).
-/

namespace AsyncMarkers

namespace Batch

variable {b : Batch} {directory output : Path} {name : String} {levels : Nat}

/-! ### One name after the other -/

/-- What is done about a name in a directory. -/
def visitName (b : Batch) (levels : Nat) (directory output : Path) (name : String) (g : Progress) :
    StateM Disk (Except IoError Unit × Progress) := do
  if ← Disk.fileSystem.isDirectory (directory.child name) then
    match ← b.makeOutput Disk.fileSystem (b.innerOutput output name) g with
    | (.error e, g) => return (.error e, g)
    | (.ok (), g) =>
      b.transformBelow Disk.fileSystem levels (directory.child name) (b.innerOutput output name) g
  else if b.accepts (directory.child name) then
    return (.ok (), ← b.transformEntry Disk.fileSystem (directory.child name)
      (b.outputPath output name) g)
  else return (.ok (), g)

/-- The names that a directory holds, in order. -/
def sortedNames (found : List String) : List String := found.mergeSort fun s t => decide (s ≤ t)

/-- A directory is listed, and then its names are visited in order. -/
theorem transformBelow_succ (b : Batch) (levels : Nat) (directory output : Path) (g : Progress)
    (d : Disk) :
    b.transformBelow Disk.fileSystem (levels + 1) directory output g d =
      match d.list directory with
      | .error e => ((.error e, g), d)
      | .ok found => each (b.visitName levels directory output) (sortedNames found) g d := by
  have h_list : Disk.fileSystem.list directory d = (d.list directory, d) := rfl
  rw [transformBelow, Disk.bind_apply, h_list]
  cases d.list directory with
  | error e => rfl
  | ok found => rfl

/-- For a directory, the one for outputs is made, and then the run goes on below. -/
theorem visitName_of_isDirectory {d : Disk} (h : d.isDirectory (directory.child name) = true)
    (g : Progress) :
    b.visitName levels directory output name g d =
      match b.makeOutput Disk.fileSystem (b.innerOutput output name) g d with
      | ((.error e, g'), d') => ((.error e, g'), d')
      | ((.ok (), g'), d') =>
        b.transformBelow Disk.fileSystem levels (directory.child name) (b.innerOutput output name)
          g' d' := by
  have h_look : Disk.fileSystem.isDirectory (directory.child name) d = (true, d) := by
    rw [← h]
    rfl
  rw [visitName, Disk.bind_apply, h_look]
  simp only [if_true]
  rw [Disk.bind_apply]
  generalize b.makeOutput Disk.fileSystem (b.innerOutput output name) g d = made
  obtain ⟨⟨e | ⟨⟩, g'⟩, d'⟩ := made <;> rfl

/-- Anything else is transformed if it is accepted. -/
theorem visitName_of_file {d : Disk} (h : d.isDirectory (directory.child name) = false)
    (g : Progress) :
    b.visitName levels directory output name g d =
      if b.accepts (directory.child name) then
        let after := b.transformEntry Disk.fileSystem (directory.child name)
          (b.outputPath output name) g d
        ((.ok (), after.1), after.2)
      else ((.ok (), g), d) := by
  have h_look : Disk.fileSystem.isDirectory (directory.child name) d = (false, d) := by
    rw [← h]
    rfl
  rw [visitName, Disk.bind_apply, h_look]
  simp only [Bool.false_eq_true, if_false]
  split <;> rfl

/-- Names that have all been visited without failing have been visited one by one. -/
theorem each_cons_eq_ok
    {visit : String → Progress → StateM Disk (Except IoError Unit × Progress)} {names : List String}
    {g g' : Progress} {d d' : Disk} (h : each visit (name :: names) g d = ((.ok (), g'), d')) :
    ∃ g₁ d₁, visit name g d = ((.ok (), g₁), d₁) ∧ each visit names g₁ d₁ = ((.ok (), g'), d') := by
  rw [each, Disk.bind_apply] at h
  generalize visit name g d = after at h
  obtain ⟨⟨e | ⟨⟩, g₁⟩, d₁⟩ := after
  · cases h
  · exact ⟨g₁, d₁, rfl, h⟩

/-- After a visit that has not failed, the other names are visited. -/
theorem each_cons_of_ok
    {visit : String → Progress → StateM Disk (Except IoError Unit × Progress)} {names : List String}
    {g g₁ : Progress} {d d₁ : Disk} (h : visit name g d = ((.ok (), g₁), d₁)) :
    each visit (name :: names) g d = each visit names g₁ d₁ := by
  rw [each, Disk.bind_apply, h]

/-- Sorted names are in order. -/
theorem pairwise_sortedNames (found : List String) : (sortedNames found).Pairwise (· ≤ ·) := by
  have h_sorted : (sortedNames found).Pairwise fun s t => decide (s ≤ t) = true :=
    List.pairwise_mergeSort (by simpa using fun a b c => le_trans) (by simpa using le_total) _
  exact h_sorted.imp fun h_le => of_decide_eq_true h_le

/-- There is one way to put different names in order. -/
theorem sortedNames_eq {found names : List String} (h_perm : found.Perm names)
    (h_sorted : names.Pairwise (· < ·)) : sortedNames found = names :=
  ((List.mergeSort_perm found _).trans h_perm).eq_of_pairwise (fun _ _ _ _ => le_antisymm)
    (pairwise_sortedNames found) (h_sorted.imp le_of_lt)

/-- A directory is gone through in the order of the names. -/
theorem transformBelow_of_sorted {found names : List String} {d : Disk}
    (h_list : d.list directory = .ok found) (h_perm : found.Perm names)
    (h_sorted : names.Pairwise (· < ·)) (g : Progress) :
    b.transformBelow Disk.fileSystem (levels + 1) directory output g d =
      each (b.visitName levels directory output) names g d := by
  rw [transformBelow_succ, h_list]
  dsimp only
  rw [sortedNames_eq h_perm h_sorted]

end Batch

namespace Disk

variable {d d' : Disk} {directory : Path} {rel : List String} {name : String}

/-! ### What a directory holds -/

/-- Whether names are what a directory holds, in order. -/
structure Lists (d : Disk) (p : Path) (names : List String) : Prop where
  sorted : names.Pairwise (· < ·)
  mem_iff : ∀ n, n ∈ names ↔ ∃ e, d.get? (p.route ++ [n]) = some e

/-- What is listed and sorted is what the directory holds. -/
theorem lists_sortedNames {p : Path} {found : List String} (h : d.list p = .ok found) :
    d.Lists p (Batch.sortedNames found) := by
  -- only a directory can be listed, and it is the one that the path leads to
  have h_found : found = d.names p.route := by
    unfold list at h
    cases h_find : d.find p with
    | error e =>
      rw [h_find] at h
      cases h
    | ok result =>
      obtain ⟨r, e⟩ := result
      rw [h_find] at h
      cases e with
      | file content => cases h
      | directory =>
        cases h
        rw [(find_eq_ok h_find).1]
  refine ⟨?_, fun n => ?_⟩
  · -- the names are different, so the order is strict
    have h_nodup : (Batch.sortedNames found).Nodup := by
      rw [Batch.sortedNames, (List.mergeSort_perm found _).nodup_iff, h_found]
      exact d.nodup_names _
    exact (Batch.pairwise_sortedNames found).imp₂
      (fun a b h_le h_ne => lt_of_le_of_ne h_le h_ne) h_nodup
  · rw [Batch.sortedNames, List.mem_mergeSort, h_found, mem_names_iff]

/-- What a directory holds can be put in order in one way. -/
theorem Lists.unique {p : Path} {names names' : List String} (h : d.Lists p names)
    (h' : d.Lists p names') : names = names' := by
  have h_perm : names.Perm names' :=
    (List.perm_ext_iff_of_nodup (h.sorted.imp ne_of_lt) (h'.sorted.imp ne_of_lt)).2
      fun n => (h.mem_iff n).trans (h'.mem_iff n).symm
  exact h_perm.eq_of_pairwise (fun _ _ _ _ h_lt h_gt => absurd h_gt (lt_asymm h_lt)) h.sorted
    h'.sorted

/-- Whether there is a file below a directory, and the directories on the way can be entered. -/
structure Leads (d : Disk) (directory : Path) (rel : List String) (name : String) : Prop where
  file : ∃ content, d.get? (directory.route ++ (rel ++ [name])) = some (.file content)
  opens : ∀ front, front ≠ [] → front <+: rel → d.isDirectory (directory.below front) = true

/-- The way to a file stays open when a disk grows. -/
theorem Grows.leads (h : d.Grows d') (h_leads : d.Leads directory rel name) :
    d'.Leads directory rel name := by
  obtain ⟨content, h_file⟩ := h_leads.file
  exact ⟨h.files h_file,
    fun front h_ne h_start => h.directories.isDirectory (h_leads.opens front h_ne h_start)⟩

/-- Behind the first name, the rest of the way is open. -/
theorem Leads.child {n : String} (h : d.Leads directory (n :: rel) name) (h_name : IsName n) :
    d.Leads (directory.child n) rel name := by
  obtain ⟨content, h_file⟩ := h.file
  refine ⟨⟨content, ?_⟩, fun front _ h_start => ?_⟩
  · rw [Path.route_child directory h_name, List.append_assoc]
    exact h_file
  · exact h.opens (n :: front) (by simp) (List.cons_prefix_cons.2 ⟨rfl, h_start⟩)

/-- The first name on the way to a file is that of something in the directory. -/
theorem Leads.first (h : d.Leads directory rel name) :
    ∃ n tail, rel ++ [name] = n :: tail ∧ ∃ e, d.get? (directory.route ++ [n]) = some e := by
  obtain ⟨content, h_file⟩ := h.file
  obtain ⟨n, tail, h_tail⟩ := List.exists_cons_of_ne_nil (List.append_ne_nil_of_right_ne_nil rel
    (List.cons_ne_nil name []))
  refine ⟨n, tail, h_tail, ?_⟩
  rw [h_tail, List.append_cons, get?_eq_some_iff] at h_file
  obtain ⟨t, h_tree, -⟩ := h_file
  -- the way to the file goes through what stands under the first name
  rw [FileTree.get?_append] at h_tree
  obtain ⟨t', h_here, -⟩ := Option.bind_eq_some_iff.1 h_tree
  exact ⟨t'.entry, get?_eq_some_iff.2 ⟨t', h_here, rfl⟩⟩

end Disk

namespace Batch

variable {b : Batch} {directory output : Path} {names : List String} {st st₁ st' : Progress × Disk}

/-! ### Items -/

/-- Something that a run comes to. -/
structure Item where
  /-- The directory it stands in. -/
  directory : Path
  /-- The directory for outputs from there. -/
  output : Path
  name : String
  isDirectory : Bool

namespace Item

/-- The path that an item is come to by. -/
def path (v : Item) : Path := v.directory.child v.name

/-- Where an item stands. -/
def route (v : Item) : Route := v.directory.route ++ [v.name]

/-- The path of the output for a file. -/
def target (b : Batch) (v : Item) : Path := b.outputPath v.output v.name

end Item

/-- Whether an item is come to in one state and left in another one. -/
structure Handles (b : Batch) (v : Item) (st st' : Progress × Disk) : Prop where
  isName : IsName v.name
  stands : st.2.Stands v.output
  opens : st.2.isDirectory v.directory = true
  kind : st.2.isDirectory v.path = v.isDirectory
  entered : v.isDirectory = true →
    b.makeOutput Disk.fileSystem (b.innerOutput v.output v.name) st.1 st.2 =
      ((.ok (), st'.1), st'.2)
  transformed : v.isDirectory = false → b.accepts v.path = true ∧
    b.transformEntry Disk.fileSystem v.path (v.target b) st.1 st.2 = st'

/-- Whether items are come to one after the other. -/
inductive HandlesAll (b : Batch) : List Item → Progress × Disk → Progress × Disk → Prop
  | nil (st : Progress × Disk) : HandlesAll b [] st st
  | cons {v : Item} {items : List Item} {st st₁ st' : Progress × Disk} (first : b.Handles v st st₁)
      (rest : HandlesAll b items st₁ st') : HandlesAll b (v :: items) st st'

/-- Items may be followed by others. -/
theorem HandlesAll.append {items items' : List Item} (h : b.HandlesAll items st st₁)
    (h' : b.HandlesAll items' st₁ st') : b.HandlesAll (items ++ items') st st' := by
  induction h with
  | nil => exact h'
  | cons first rest ih => exact .cons first (ih h')

/-- There is a state between the items of the first part and those of the second. -/
theorem HandlesAll.split {items items' : List Item} (h : b.HandlesAll (items ++ items') st st') :
    ∃ st₁, b.HandlesAll items st st₁ ∧ b.HandlesAll items' st₁ st' := by
  induction items generalizing st with
  | nil => exact ⟨st, .nil st, h⟩
  | cons v items ih =>
    cases h with
    | cons first rest =>
      obtain ⟨st₁, h_items, h_items'⟩ := ih rest
      exact ⟨st₁, .cons first h_items, h_items'⟩

/-- An item lets the disk grow. -/
theorem Handles.grows {v : Item} (h : b.Handles v st st') : st.2.Grows st'.2 := by
  cases h_kind : v.isDirectory with
  | true =>
    have h_grows := growing_makeOutput (b := b) (b.innerOutput v.output v.name) st.1 st.2
    rwa [h.entered h_kind] at h_grows
  | false =>
    have h_grows := growing_transformEntry (b := b) v.path (v.target b) st.1 st.2
    rwa [(h.transformed h_kind).2] at h_grows

/-- Items let the disk grow. -/
theorem HandlesAll.grows {items : List Item} (h : b.HandlesAll items st st') :
    st.2.Grows st'.2 := by
  induction h with
  | nil => exact .refl _
  | cons first rest ih => exact first.grows.trans ih

/-! ### Tours -/

/-- What a run does in a directory, for the given names of what the directory holds. A directory is
listed when it is entered. -/
inductive Tour (b : Batch) : (directory output : Path) → List String → List Item →
    Progress × Disk → Progress × Disk → Prop
  | done {directory output : Path} {st : Progress × Disk} : Tour b directory output [] [] st st
  | enter {directory output : Path} {name : String} {names found : List String}
      {items items' : List Item} {st st₁ st₂ st' : Progress × Disk}
      (h : b.Handles ⟨directory, output, name, true⟩ st st₁)
      (h_listed : st₁.2.Lists (directory.child name) found)
      (below : Tour b (directory.child name) (b.innerOutput output name) found items st₁ st₂)
      (rest : Tour b directory output names items' st₂ st') :
      Tour b directory output (name :: names) (⟨directory, output, name, true⟩ :: items ++ items')
        st st'
  | transform {directory output : Path} {name : String} {names : List String} {items : List Item}
      {st st₁ st' : Progress × Disk}
      (h : b.Handles ⟨directory, output, name, false⟩ st st₁)
      (rest : Tour b directory output names items st₁ st') :
      Tour b directory output (name :: names) (⟨directory, output, name, false⟩ :: items) st st'
  | pass {directory output : Path} {name : String} {names : List String} {items : List Item}
      {st st' : Progress × Disk}
      (h_kind : st.2.isDirectory (directory.child name) = false)
      (h_refused : b.accepts (directory.child name) = false)
      (rest : Tour b directory output names items st st') :
      Tour b directory output (name :: names) items st st'

/-- A tour comes to its items one after the other. -/
theorem Tour.handled {items : List Item} (h : b.Tour directory output names items st st') :
    b.HandlesAll items st st' := by
  induction h with
  | done => exact .nil _
  | enter h h_listed below rest ih_below ih_rest =>
    exact (HandlesAll.cons h ih_below).append ih_rest
  | transform h rest ih => exact .cons h ih
  | pass h_kind h_refused rest ih => exact ih

/-- The directory for outputs from a directory that names lead to. -/
def outputBelow (b : Batch) (output : Path) (rel : List String) : Path :=
  if b.keepStructure then output.below rel else output

/-- Where no names lead, outputs go to the directory itself. -/
theorem outputBelow_nil (b : Batch) (output : Path) : b.outputBelow output [] = output := by
  unfold outputBelow
  split <;> rfl

/-- The first name leads to the output directory that the others start from. -/
theorem outputBelow_cons (b : Batch) (output : Path) (name : String) (rel : List String) :
    b.outputBelow output (name :: rel) = b.outputBelow (b.innerOutput output name) rel := by
  unfold outputBelow innerOutput
  split <;> rfl

/-- Whether names lead to the directory that an item stands in. -/
structure Item.IsBelow (b : Batch) (v : Item) (directory output : Path) (rel : List String) :
    Prop where
  directory_eq : v.directory = directory.below rel
  output_eq : v.output = b.outputBelow output rel
  isName : ∀ n ∈ rel ++ [v.name], IsName n

/-- The names lead to the directory of the item. -/
theorem Item.IsBelow.directory_route {v : Item} {rel : List String}
    (h : v.IsBelow b directory output rel) : v.directory.route = directory.route ++ rel := by
  rw [h.directory_eq]
  exact Path.route_below directory fun n h_n => h.isName n (List.mem_append_left _ h_n)

/-- With its own name behind them, they lead to the item. -/
theorem Item.IsBelow.route {v : Item} {rel : List String}
    (h : v.IsBelow b directory output rel) : v.route = directory.route ++ (rel ++ [v.name]) := by
  rw [Item.route, h.directory_route, List.append_assoc]

/-- What a tour comes to stands below the directory, behind one of the names. -/
theorem Tour.placed {items : List Item} (h : b.Tour directory output names items st st') :
    ∀ v ∈ items, ∃ rel, v.IsBelow b directory output rel ∧
      ∃ n ∈ names, ∃ tail, rel ++ [v.name] = n :: tail := by
  induction h with
  | done => simp
  | @enter directory output name names found items items' st st₁ st₂ st' h h_listed below rest
      ih_below ih_rest =>
    -- the directory itself, what stands in it, or what comes later
    intro v h_v
    rcases List.mem_append.1 h_v with h_first | h_later
    · rcases List.mem_cons.1 h_first with rfl | h_below
      · refine ⟨[], ⟨rfl, (outputBelow_nil b output).symm, ?_⟩, name, by simp, [], rfl⟩
        simpa using h.isName
      · obtain ⟨rel, h_rel, -⟩ := ih_below v h_below
        refine ⟨name :: rel, ⟨h_rel.directory_eq, ?_, ?_⟩, name, by simp, rel ++ [v.name], rfl⟩
        · rw [outputBelow_cons]
          exact h_rel.output_eq
        · exact List.forall_mem_cons.2 ⟨h.isName, h_rel.isName⟩
    · obtain ⟨rel, h_rel, n, h_n, h_tail⟩ := ih_rest v h_later
      exact ⟨rel, h_rel, n, List.mem_cons_of_mem _ h_n, h_tail⟩
  | @transform directory output name names items st st₁ st' h rest ih =>
    intro v h_v
    rcases List.mem_cons.1 h_v with rfl | h_later
    · refine ⟨[], ⟨rfl, (outputBelow_nil b output).symm, ?_⟩, name, by simp, [], rfl⟩
      simpa using h.isName
    · obtain ⟨rel, h_rel, n, h_n, h_tail⟩ := ih v h_later
      exact ⟨rel, h_rel, n, List.mem_cons_of_mem _ h_n, h_tail⟩
  | pass h_kind h_refused rest ih =>
    intro v h_v
    obtain ⟨rel, h_rel, n, h_n, h_tail⟩ := ih v h_v
    exact ⟨rel, h_rel, n, List.mem_cons_of_mem _ h_n, h_tail⟩

/-- The route to what a tour comes to goes through one of the names. -/
theorem Tour.route_eq {items : List Item} (h : b.Tour directory output names items st st')
    {v : Item} (h_v : v ∈ items) : ∃ n ∈ names, ∃ tail, v.route = directory.route ++ n :: tail := by
  obtain ⟨rel, h_rel, n, h_n, tail, h_tail⟩ := h.placed v h_v
  exact ⟨n, h_n, tail, by rw [h_rel.route, h_tail]⟩

/-- A tour comes to things in the order of their routes. -/
theorem Tour.sorted {items : List Item} (h : b.Tour directory output names items st st')
    (h_names : names.Pairwise (· < ·)) : (items.map Item.route).Pairwise (· < ·) := by
  -- routes that part at a name are in the order of the names
  have h_before : ∀ {r : Route} {n n' : String} (x y : Route), n < n' →
      r ++ n :: x < r ++ n' :: y :=
    fun x y h_lt => List.append_left_lt (List.cons_lt_cons_iff.2 (.inl h_lt))
  induction h with
  | done => exact .nil
  | @enter directory output name names found items items' st st₁ st₂ st' h h_listed below rest
      ih_below ih_rest =>
    obtain ⟨h_first, h_names⟩ := List.pairwise_cons.1 h_names
    -- what stands in the directory is at least one level further down
    have h_inner : ∀ v ∈ items, ∃ n tail, v.route = directory.route ++ name :: n :: tail := by
      intro v h_v
      obtain ⟨n, -, tail, h_route⟩ := below.route_eq h_v
      rw [Path.route_child directory h.isName, List.append_assoc] at h_route
      exact ⟨n, tail, h_route⟩
    rw [List.map_append, List.map_cons]
    refine List.pairwise_append.2 ⟨List.pairwise_cons.2 ⟨?_, ih_below h_listed.sorted⟩,
      ih_rest h_names, ?_⟩
    · -- a directory comes before what it holds
      intro r h_r
      obtain ⟨v, h_v, rfl⟩ := List.mem_map.1 h_r
      obtain ⟨n, tail, h_route⟩ := h_inner v h_v
      rw [h_route]
      exact List.append_left_lt (List.Lex.cons .nil)
    · -- what is behind one name comes before what is behind a later one
      intro r h_r r' h_r'
      obtain ⟨w, h_w, rfl⟩ := List.mem_map.1 h_r'
      obtain ⟨n', h_n', tail', h_route'⟩ := rest.route_eq h_w
      rw [h_route']
      rcases List.mem_cons.1 h_r with rfl | h_r
      · exact h_before [] tail' (h_first n' h_n')
      · obtain ⟨v, h_v, rfl⟩ := List.mem_map.1 h_r
        obtain ⟨n, tail, h_route⟩ := h_inner v h_v
        rw [h_route]
        exact h_before (n :: tail) tail' (h_first n' h_n')
  | @transform directory output name names items st st₁ st' h rest ih =>
    obtain ⟨h_first, h_names⟩ := List.pairwise_cons.1 h_names
    refine List.pairwise_cons.2 ⟨fun r h_r => ?_, ih h_names⟩
    obtain ⟨w, h_w, rfl⟩ := List.mem_map.1 h_r
    obtain ⟨n', h_n', tail', h_route'⟩ := rest.route_eq h_w
    rw [h_route']
    exact h_before [] tail' (h_first n' h_n')
  | pass h_kind h_refused rest ih => exact ih (List.pairwise_cons.1 h_names).2

/-- Whether an item was there when its directory was listed, and everything that had been come to
until then stands outside that directory. -/
def Found (b : Batch) (items : List Item) (st st' : Progress × Disk) (v : Item) : Prop :=
  ∃ before after st₁, items = before ++ after ∧ v ∈ after ∧ b.HandlesAll before st st₁ ∧
    b.HandlesAll after st₁ st' ∧ (∀ u ∈ before, ¬v.directory.route <+: u.directory.route) ∧
    st₁.2.get? v.route ≠ none

/-- What stands in a directory that has just been listed is found. -/
theorem Found.of_lists {items : List Item} {v : Item} (h : b.HandlesAll items st st')
    (h_listed : st.2.Lists directory names) (h_v : v ∈ items)
    (h_directory : v.directory = directory) (h_name : v.name ∈ names) : b.Found items st st' v := by
  refine ⟨[], items, st, rfl, h_v, .nil st, h, by simp, ?_⟩
  obtain ⟨e, h_get⟩ := (h_listed.mem_iff v.name).1 h_name
  rw [Item.route, h_directory, h_get]
  simp

/-- What comes before and after does not matter, if what comes before stands outside. -/
theorem Found.extend {items before after : List Item} {st₂ : Progress × Disk} {v : Item}
    (h : b.Found items st₁ st₂ v) (h_before : b.HandlesAll before st st₁)
    (h_after : b.HandlesAll after st₂ st')
    (h_outside : ∀ u ∈ before, ¬v.directory.route <+: u.directory.route) :
    b.Found (before ++ (items ++ after)) st st' v := by
  obtain ⟨before', after', st₃, rfl, h_mem, h_handled, h_rest, h_others, h_get⟩ := h
  refine ⟨before ++ before', after' ++ after, st₃, by simp, List.mem_append_left _ h_mem,
    h_before.append h_handled, h_rest.append h_after, fun u h_u => ?_, h_get⟩
  rcases List.mem_append.1 h_u with h_first | h_second
  · exact h_outside u h_first
  · exact h_others u h_second

/-- What a tour comes to stands in the directory itself, or behind one of the names. -/
theorem Tour.prefix_directory {items : List Item} (h : b.Tour directory output names items st st')
    {v : Item} (h_v : v ∈ items) :
    v.directory = directory ∧ v.name ∈ names ∨
      ∃ n ∈ names, directory.route ++ [n] <+: v.directory.route := by
  obtain ⟨rel, h_rel, n, h_n, tail, h_tail⟩ := h.placed v h_v
  cases rel with
  | nil =>
    -- the name of the item is the only one on the way
    cases h_tail
    exact .inl ⟨h_rel.directory_eq, h_n⟩
  | cons first rel =>
    cases h_tail
    refine .inr ⟨n, h_n, rel, ?_⟩
    rw [h_rel.directory_route, List.append_assoc, List.singleton_append]

/-- What stands behind one name does not stand behind another one. -/
theorem not_prefix_of_ne {r r₁ r₂ : Route} {n n' : String} (h_ne : n ≠ n')
    (h₁ : r ++ [n] <+: r₁) (h₂ : r ++ [n'] <+: r₂) : ¬r₁ <+: r₂ := by
  intro h
  -- both would be the start of the longer route, and they have the same length
  have h_same := (List.prefix_of_prefix_length_le (h₁.trans h) h₂ (by simp)).eq_of_length (by simp)
  exact h_ne (by simpa using h_same)

/-- What a tour comes to stands in the directory itself, or it was there when its directory was
listed. -/
theorem Tour.listed {items : List Item} (h : b.Tour directory output names items st st')
    (h_names : names.Pairwise (· < ·)) :
    ∀ v ∈ items, v.directory = directory ∧ v.name ∈ names ∨ b.Found items st st' v := by
  -- what stands in a directory above stands outside
  have h_up : ∀ {r r' : Route} {n : String}, r ++ [n] <+: r' → ¬r' <+: r := by
    intro r r' n h h'
    have h_length := (h.trans h').length_le
    simp at h_length
  induction h with
  | done => simp
  | @enter directory output name names found items items' st st₁ st₂ st' h h_listed below rest
      ih_below ih_rest =>
    obtain ⟨h_first, h_names⟩ := List.pairwise_cons.1 h_names
    -- everything that is come to below the directory stands behind its name
    have h_inner : ∀ u ∈ items, directory.route ++ [name] <+: u.directory.route := by
      intro u h_u
      have h_name : IsName name := h.isName
      rw [← Path.route_child directory h_name]
      rcases below.prefix_directory h_u with ⟨h_directory, -⟩ | ⟨n, -, h_start⟩
      · simp [h_directory]
      · exact (List.prefix_append _ _).trans h_start
    intro v h_v
    rcases List.mem_append.1 h_v with h_here | h_later
    · rcases List.mem_cons.1 h_here with rfl | h_below
      · exact .inl ⟨rfl, List.mem_cons_self⟩
      · -- the directory was listed right after it had been entered
        have h_found : b.Found items st₁ st₂ v := by
          rcases ih_below h_listed.sorted v h_below with ⟨h_directory, h_name⟩ | h_found
          · exact .of_lists below.handled h_listed h_below h_directory h_name
          · exact h_found
        exact .inr (h_found.extend (.cons h (.nil _)) rest.handled
          (List.forall_mem_singleton.2 (h_up (h_inner v h_below))))
    · rcases ih_rest h_names v h_later with ⟨h_directory, h_name⟩ | h_found
      · exact .inl ⟨h_directory, List.mem_cons_of_mem _ h_name⟩
      rcases rest.prefix_directory h_later with ⟨h_directory, h_name⟩ | ⟨n, h_n, h_start⟩
      · exact .inl ⟨h_directory, List.mem_cons_of_mem _ h_name⟩
      · -- nothing in the directory that has been entered stands behind a later name
        have h_ne : n ≠ name := (h_first n h_n).ne'
        have h_all := h_found.extend (.cons h below.handled) (.nil _)
          (List.forall_mem_cons.2 ⟨h_up h_start,
            fun u h_u => not_prefix_of_ne h_ne h_start (h_inner u h_u)⟩)
        rw [List.append_nil] at h_all
        exact .inr h_all
  | @transform directory output name names items st st₁ st' h rest ih =>
    intro v h_v
    rcases List.mem_cons.1 h_v with rfl | h_later
    · exact .inl ⟨rfl, List.mem_cons_self⟩
    rcases rest.prefix_directory h_later with ⟨h_directory, h_name⟩ | ⟨n, h_n, h_start⟩
    · exact .inl ⟨h_directory, List.mem_cons_of_mem _ h_name⟩
    rcases ih (List.pairwise_cons.1 h_names).2 v h_later with ⟨h_directory, h_name⟩ | h_found
    · exact .inl ⟨h_directory, List.mem_cons_of_mem _ h_name⟩
    · -- the file itself stands in the directory, hence outside of one further down
      have h_all := h_found.extend (.cons h (.nil _)) (.nil _)
        (List.forall_mem_singleton.2 (h_up h_start))
      rw [List.append_nil] at h_all
      exact .inr h_all
  | pass h_kind h_refused rest ih =>
    intro v h_v
    rcases ih (List.pairwise_cons.1 h_names).2 v h_v with ⟨h_directory, h_name⟩ | h_found
    · exact .inl ⟨h_directory, List.mem_cons_of_mem _ h_name⟩
    · exact .inr h_found

/-- What a tour of a directory comes to was there when its directory was listed. -/
theorem Tour.found {items : List Item} (h : b.Tour directory output names items st st')
    (h_listed : st.2.Lists directory names) : ∀ v ∈ items, b.Found items st st' v := by
  intro v h_v
  rcases h.listed h_listed.sorted v h_v with ⟨h_directory, h_name⟩ | h_found
  · exact .of_lists h.handled h_listed h_v h_directory h_name
  · exact h_found

/-- A file that is there at the start, behind one of the names, is come to, if the directories on
the way to it can be entered. -/
theorem Tour.covers {items : List Item} (h : b.Tour directory output names items st st')
    {rel : List String} {name : String} (h_leads : st.2.Leads directory rel name)
    (h_first : ∃ n ∈ names, ∃ tail, rel ++ [name] = n :: tail)
    (h_accepts : b.accepts ((directory.below rel).child name) = true) :
    ∃ v ∈ items, v.directory = directory.below rel ∧ v.name = name ∧ v.isDirectory = false := by
  -- along the tour; the way from a directory that is entered is shorter by a name
  induction h generalizing rel with
  | done =>
    obtain ⟨n, h_n, -⟩ := h_first
    cases h_n
  | @enter directory output dir names found items items' st st₁ st₂ st' h h_listed below rest
      ih_below ih_rest =>
    obtain ⟨n, h_n, tail, h_tail⟩ := h_first
    rcases List.mem_cons.1 h_n with rfl | h_n
    · have h_dir : IsName n := h.isName
      cases rel with
      | nil =>
        -- what has been entered is not a file
        cases h_tail
        obtain ⟨content, h_file⟩ := h_leads.file
        have h_get := Disk.get?_of_isDirectory h.kind
        rw [Item.path, Path.route_child directory h_dir] at h_get
        cases h_get.symm.trans h_file
      | cons first rel =>
        -- the file is there when the directory is listed, so the next name is in the list
        cases h_tail
        have h_inner := (h.grows.leads h_leads).child h_dir
        obtain ⟨next, tail, h_next, e, h_get⟩ := h_inner.first
        obtain ⟨v, h_v, h_item⟩ := ih_below h_inner
          ⟨next, (h_listed.mem_iff next).2 ⟨e, h_get⟩, tail, h_next⟩ h_accepts
        exact ⟨v, List.mem_append_left _ (List.mem_cons_of_mem _ h_v), h_item⟩
    · -- the way to the file is still open when its name comes
      have h_later := (h.grows.trans below.handled.grows).leads h_leads
      obtain ⟨v, h_v, h_item⟩ := ih_rest h_later ⟨n, h_n, tail, h_tail⟩ h_accepts
      exact ⟨v, List.mem_append_right _ h_v, h_item⟩
  | @transform directory output file names items st st₁ st' h rest ih =>
    obtain ⟨n, h_n, tail, h_tail⟩ := h_first
    rcases List.mem_cons.1 h_n with rfl | h_n
    · cases rel with
      | nil =>
        cases h_tail
        exact ⟨_, List.mem_cons_self, rfl, rfl, rfl⟩
      | cons first rel =>
        -- what can be entered would have been
        cases h_tail
        have h_kind : st.2.isDirectory (directory.child n) = false := h.kind
        cases h_kind.symm.trans (h_leads.opens [n] (by simp) ⟨rel, rfl⟩)
    · obtain ⟨v, h_v, h_item⟩ :=
        ih (h.grows.leads h_leads) ⟨n, h_n, tail, h_tail⟩ h_accepts
      exact ⟨v, List.mem_cons_of_mem _ h_v, h_item⟩
  | @pass directory output other names items st st' h_kind h_refused rest ih =>
    obtain ⟨n, h_n, tail, h_tail⟩ := h_first
    rcases List.mem_cons.1 h_n with rfl | h_n
    · cases rel with
      | nil =>
        cases h_tail
        cases h_refused.symm.trans h_accepts
      | cons first rel =>
        -- what is passed over can not be entered
        cases h_tail
        cases h_kind.symm.trans (h_leads.opens [n] (by simp) ⟨rel, rfl⟩)
    · exact ih h_leads ⟨n, h_n, tail, h_tail⟩ h_accepts

/-! ### Runs are tours -/

/-- What is done about some names is a tour, if that is so for what is done below them. -/
theorem exists_tour_of_each {levels : Nat}
    (h_below : ∀ {directory output : Path} {g g' : Progress} {d d' : Disk},
      d.Stands output → d.isDirectory directory = true →
      b.transformBelow Disk.fileSystem levels directory output g d = ((.ok (), g'), d') →
      ∃ names items, d.Lists directory names ∧ b.Tour directory output names items (g, d) (g', d'))
    {g g' : Progress} {d d' : Disk} (h_stands : d.Stands output)
    (h_open : d.isDirectory directory = true) (h_names : ∀ n ∈ names, IsName n)
    (h : each (b.visitName levels directory output) names g d = ((.ok (), g'), d')) :
    ∃ items, b.Tour directory output names items (g, d) (g', d') := by
  induction names generalizing g d with
  | nil =>
    cases h
    exact ⟨[], .done⟩
  | cons name names ih =>
    obtain ⟨h_name, h_names⟩ := List.forall_mem_cons.1 h_names
    obtain ⟨g₁, d₁, h_visit, h_rest⟩ := each_cons_eq_ok h
    -- the steps of a tour are the branches of a visit
    cases h_kind : d.isDirectory (directory.child name) with
    | true =>
      rw [visitName_of_isDirectory h_kind] at h_visit
      generalize h_make : b.makeOutput Disk.fileSystem (b.innerOutput output name) g d = made
        at h_visit
      obtain ⟨⟨e | ⟨⟩, g₂⟩, d₂⟩ := made
      · cases h_visit
      -- the directory has been entered, and then the run goes on below it
      have h_handles : b.Handles ⟨directory, output, name, true⟩ (g, d) (g₂, d₂) :=
        ⟨h_name, h_stands, h_open, h_kind, fun _ => h_make, by simp⟩
      obtain ⟨found, items, h_listed, h_tour⟩ := h_below
        (makeOutput_eq_ok h_stands h_name h_make).1
        (h_handles.grows.directories.isDirectory h_kind) h_visit
      have h_grows := h_handles.grows.trans h_tour.handled.grows
      obtain ⟨items', h_tour'⟩ := ih (h_grows.stands h_stands)
        (h_grows.directories.isDirectory h_open) h_names h_rest
      exact ⟨_, .enter h_handles h_listed h_tour h_tour'⟩
    | false =>
      rw [visitName_of_file h_kind] at h_visit
      cases h_accepts : b.accepts (directory.child name) with
      | true =>
        rw [h_accepts, if_pos rfl] at h_visit
        generalize h_run : b.transformEntry Disk.fileSystem (directory.child name)
          (b.outputPath output name) g d = after at h_visit
        cases h_visit
        have h_handles : b.Handles ⟨directory, output, name, false⟩ (g, d) after :=
          ⟨h_name, h_stands, h_open, h_kind, by simp, fun _ => ⟨h_accepts, h_run⟩⟩
        have h_grows := h_handles.grows
        obtain ⟨items, h_tour⟩ := ih (h_grows.stands h_stands)
          (h_grows.directories.isDirectory h_open) h_names h_rest
        exact ⟨_, .transform h_handles h_tour⟩
      | false =>
        rw [h_accepts] at h_visit
        cases h_visit
        obtain ⟨items, h_tour⟩ := ih h_stands h_open h_names h_rest
        exact ⟨items, .pass h_kind h_accepts h_tour⟩

/-- What a directory holds has proper names. -/
theorem isName_of_lists {d : Disk} {p : Path} (h : d.Lists p names) : ∀ n ∈ names, IsName n := by
  intro n h_n
  obtain ⟨e, h_get⟩ := (h.mem_iff n).1 h_n
  exact Disk.isName_of_get? h_get n (by simp)

/-- Every run that does not fail is a tour. -/
theorem exists_tour {levels : Nat} {g g' : Progress} {d d' : Disk} (h_stands : d.Stands output)
    (h_open : d.isDirectory directory = true)
    (h : b.transformBelow Disk.fileSystem levels directory output g d = ((.ok (), g'), d')) :
    ∃ names items, d.Lists directory names ∧
      b.Tour directory output names items (g, d) (g', d') := by
  -- each level needs that the levels below it are tours
  induction levels generalizing directory output g g' d d' with
  | zero => cases h
  | succ levels ih =>
    rw [transformBelow_succ] at h
    cases h_list : d.list directory with
    | error e =>
      rw [h_list] at h
      cases h
    | ok found =>
      rw [h_list] at h
      have h_listed := Disk.lists_sortedNames h_list
      obtain ⟨items, h_tour⟩ :=
        exists_tour_of_each ih h_stands h_open (isName_of_lists h_listed) h
      exact ⟨_, items, h_listed, h_tour⟩

/-- Makes the directory that outputs are to stand in, if there is nothing. -/
def makeTarget (target : Path) (d : Disk) : Except IoError Unit × Disk :=
  if d.isPresent target then (.ok (), d) else Disk.fileSystem.makeDirectories target d

/-- Nothing but directories is made, and if that does not fail, the target is there. -/
theorem makeTarget_spec (target : Path) (d : Disk) :
    d.Adds (makeTarget target d).2 ∧
      ((makeTarget target d).1 = .ok () → (makeTarget target d).2.Stands target) := by
  unfold makeTarget
  split
  · next h_present => exact ⟨.refl d, fun _ => .inr h_present⟩
  · exact ⟨(Disk.addsAt_makeDirectories _ d).adds,
      fun h => (Disk.opens_of_makeDirectories h).stands⟩

/-- A run over a directory, down to the given number of levels. -/
def transformDirectoryWithin (b : Batch) (levels : Nat) (source target : Path) (g : Progress)
    (d : Disk) : (Except BatchError BatchSummary × Progress) × Disk :=
  if d.isDirectory source then
    match makeTarget target d with
    | (.error e, d₁) => ((.error (.io e), g), d₁)
    | (.ok (), d₁) =>
      match b.transformBelow Disk.fileSystem levels source target { g with summary := {} } d₁ with
      | ((.error e, g₁), d') => ((.error (.io e), g₁), d')
      | ((.ok (), g₁), d') => ((.ok g₁.summary, g₁.tell [directoryTransformed g₁.summary]), d')
  else ((.error (.noSource source), g), d)

/-- A run over a directory goes down as many levels as a path may have bytes. -/
theorem transformDirectory_eq (b : Batch) (source target : Path) (g : Progress) (d : Disk) :
    b.transformDirectory Disk.fileSystem source target g d =
      b.transformDirectoryWithin Path.maxBytes source target g d := by
  have h_look : Disk.fileSystem.isDirectory source d = (d.isDirectory source, d) := rfl
  have h_present : Disk.fileSystem.isPresent target d = (d.isPresent target, d) := rfl
  rw [transformDirectory, Disk.bind_apply, h_look, transformDirectoryWithin]
  -- both sides branch in the same way, up to the order of their steps
  cases d.isDirectory source with
  | false => rfl
  | true =>
    simp only [Bool.not_true, Bool.false_eq_true, if_false, if_true]
    rw [Disk.bind_apply, h_present, makeTarget]
    cases d.isPresent target with
    | false =>
      simp only [Bool.false_eq_true, if_false]
      rw [Disk.bind_apply]
      generalize Disk.fileSystem.makeDirectories target d = made
      obtain ⟨e | ⟨⟩, d₁⟩ := made
      · rfl
      · dsimp only
        rw [Disk.bind_apply]
        generalize b.transformBelow Disk.fileSystem Path.maxBytes source target _ d₁ = run
        obtain ⟨⟨e | ⟨⟩, g₁⟩, d'⟩ := run <;> rfl
    | true =>
      simp only [if_true, pure_bind]
      rw [Disk.bind_apply]
      generalize b.transformBelow Disk.fileSystem Path.maxBytes source target _ d = run
      obtain ⟨⟨e | ⟨⟩, g₁⟩, d'⟩ := run <;> rfl

/-- A run over a directory does not fail if its parts do not. -/
theorem transformDirectory_of_ok {source target : Path} {g g' : Progress} {d d₁ d' : Disk}
    (h_open : d.isDirectory source = true) (h_make : makeTarget target d = (.ok (), d₁))
    (h : b.transformBelow Disk.fileSystem Path.maxBytes source target { g with summary := {} } d₁ =
      ((.ok (), g'), d')) :
    b.transformDirectory Disk.fileSystem source target g d =
      ((.ok g'.summary, g'.tell [directoryTransformed g'.summary]), d') := by
  rw [transformDirectory_eq, transformDirectoryWithin, if_pos h_open, h_make]
  dsimp only
  rw [h]

/-- A run over a directory that does not fail has made the output directory and gone through the
other one. -/
theorem transformDirectory_eq_ok {source target : Path} {g g' : Progress} {d d' : Disk}
    {s : BatchSummary}
    (h : b.transformDirectory Disk.fileSystem source target g d = ((.ok s, g'), d')) :
    d.isDirectory source = true ∧ ∃ d₁ g₁, makeTarget target d = (.ok (), d₁) ∧
      b.transformBelow Disk.fileSystem Path.maxBytes source target { g with summary := {} } d₁ =
        ((.ok (), g₁), d') ∧ s = g₁.summary := by
  rw [transformDirectory_eq, transformDirectoryWithin] at h
  split at h
  · next h_source =>
    generalize makeTarget target d = made at h ⊢
    obtain ⟨e | ⟨⟩, d₁⟩ := made
    · cases h
    dsimp only at h
    generalize h_run : b.transformBelow Disk.fileSystem Path.maxBytes source target
      { g with summary := {} } d₁ = run at h
    obtain ⟨⟨e | ⟨⟩, g₁⟩, d₂⟩ := run
    · cases h
    · cases h
      exact ⟨h_source, d₁, g₁, rfl, h_run, rfl⟩
  · cases h

/-- What a run over a directory has done that did not fail. The output directory was made first. -/
structure Toured (b : Batch) (source target : Path) (d : Disk) (items : List Item)
    (st st' : Progress × Disk) : Prop where
  isDirectory : d.isDirectory source = true
  adds : d.Adds st.2
  tour : ∃ names, st.2.Lists source names ∧ b.Tour source target names items st st'

/-- The disk has grown before the tour starts. -/
theorem Toured.starts {source target : Path} {d : Disk} {items : List Item}
    (h : b.Toured source target d items st st') : d.Grows st.2 := h.adds.grows

/-- The items of a run are come to one after the other. -/
theorem Toured.handled {source target : Path} {d : Disk} {items : List Item}
    (h : b.Toured source target d items st st') : b.HandlesAll items st st' := by
  obtain ⟨names, -, h_tour⟩ := h.tour
  exact h_tour.handled

/-- Going through a directory without failing is a tour, once the output directory has been made. -/
theorem exists_toured_of_below {source target : Path} {g g' : Progress} {d d₁ d' : Disk}
    (h_open : d.isDirectory source = true) (h_make : makeTarget target d = (.ok (), d₁))
    (h : b.transformBelow Disk.fileSystem Path.maxBytes source target g d₁ = ((.ok (), g'), d')) :
    ∃ items, b.Toured source target d items (g, d₁) (g', d') := by
  obtain ⟨h_adds, h_stands⟩ := makeTarget_spec target d
  rw [h_make] at h_adds h_stands
  obtain ⟨names, items, h_listed, h_tour⟩ := exists_tour (h_stands rfl)
    (h_adds.grows.directories.isDirectory h_open) h
  exact ⟨items, h_open, h_adds, names, h_listed, h_tour⟩

/-- Every run over a directory that does not fail is a tour. -/
theorem exists_toured {source target : Path} {g g' : Progress} {d d' : Disk} {s : BatchSummary}
    (h : b.transformDirectory Disk.fileSystem source target g d = ((.ok s, g'), d')) :
    ∃ items d₁ g₁, b.Toured source target d items ({ g with summary := {} }, d₁) (g₁, d') ∧
      s = g₁.summary := by
  obtain ⟨h_open, d₁, g₁, h_make, h_run, h_summary⟩ := transformDirectory_eq_ok h
  obtain ⟨items, h_toured⟩ := exists_toured_of_below h_open h_make h_run
  exact ⟨items, d₁, g₁, h_toured, h_summary⟩

/-! ### Levels -/

/-- Names are gone through in the same way if that is so for each of them, as long as some property
of disks is kept. -/
theorem each_congr {visit visit' : String → Progress → StateM Disk (Except IoError Unit × Progress)}
    {I : Disk → Prop}
    (h : ∀ name ∈ names, ∀ g d, I d → visit name g d = visit' name g d ∧ I (visit name g d).2)
    {g : Progress} {d : Disk} (h_disk : I d) :
    each visit names g d = each visit' names g d ∧ I (each visit names g d).2 := by
  induction names generalizing g d with
  | nil => exact ⟨rfl, h_disk⟩
  | cons name names ih =>
    obtain ⟨h_name, h_names⟩ := List.forall_mem_cons.1 h
    obtain ⟨h_same, h_after⟩ := h_name g d h_disk
    rw [each, each, Disk.bind_apply, Disk.bind_apply, ← h_same]
    generalize visit name g d = after at h_after
    obtain ⟨⟨e | ⟨⟩, g₁⟩, d₁⟩ := after
    · -- a visit that fails ends both runs
      exact ⟨rfl, h_after⟩
    · exact ih h_names h_after

/-- With as many levels as a path may have bytes, no more levels are needed: every level makes the
path longer, and the path of a directory is not too long. The disk grows on the way. -/
theorem transformBelow_add {d : Disk} {levels : Nat}
    (h_directory : d.isDirectory directory = true)
    (h_levels : Path.maxBytes < directory.text.utf8ByteSize + levels) (more : Nat) (output : Path)
    (g : Progress) :
    b.transformBelow Disk.fileSystem levels directory output g d =
        b.transformBelow Disk.fileSystem (levels + more) directory output g d ∧
      d.Grows (b.transformBelow Disk.fileSystem levels directory output g d).2 := by
  induction levels generalizing directory output g d with
  | zero =>
    -- the path of the directory would be too long
    have h_fits := (Disk.isDirectory_iff.1 h_directory).1
    exact absurd h_levels h_fits.2.2
  | succ levels ih =>
    rw [Nat.add_right_comm, transformBelow_succ, transformBelow_succ]
    cases h_list : d.list directory with
    | error e => exact ⟨rfl, .refl d⟩
    | ok found =>
      have h_names := isName_of_lists (Disk.lists_sortedNames h_list)
      -- what a visit needs of the disk is kept while the disk grows
      refine each_congr (I := fun d' => d.Grows d') ?_ (.refl d)
      intro name h_mem g d' h_grows
      have h_name := h_names name h_mem
      cases h_kind : d'.isDirectory (directory.child name) with
      | false =>
        rw [visitName_of_file h_kind, visitName_of_file h_kind]
        refine ⟨rfl, ?_⟩
        split
        · exact h_grows.trans (growing_transformEntry _ _ g d')
        · exact h_grows
      | true =>
        have h_inner := growing_makeOutput (b := b) (b.innerOutput output name) g d'
        have h_make := h_grows.trans h_inner
        rw [visitName_of_isDirectory h_kind, visitName_of_isDirectory h_kind]
        have h_child : (b.makeOutput Disk.fileSystem (b.innerOutput output name) g d').2.isDirectory
            (directory.child name) = true := h_inner.directories.isDirectory h_kind
        generalize b.makeOutput Disk.fileSystem (b.innerOutput output name) g d' = made
          at h_make h_child
        obtain ⟨⟨e | ⟨⟩, g₁⟩, d₁⟩ := made
        · exact ⟨rfl, h_make⟩
        · -- the path has become longer by the name
          have h_longer := Path.utf8ByteSize_text_child directory h_name.no_slash
          have h_size : 0 < name.utf8ByteSize := by
            rw [Nat.pos_iff_ne_zero, Ne, String.utf8ByteSize_eq_zero_iff]
            exact h_name.ne_empty
          obtain ⟨h_same, h_below⟩ := ih h_child (by omega) (b.innerOutput output name) g₁
          exact ⟨h_same, h_make.trans h_below⟩

/-- A run over a directory goes on in the same way if it is given more levels. -/
theorem transformDirectoryWithin_add (source target : Path) (d : Disk) (g : Progress)
    (more : Nat) :
    b.transformDirectoryWithin (Path.maxBytes + more) source target g d =
      b.transformDirectory Disk.fileSystem source target g d := by
  rw [transformDirectory_eq, transformDirectoryWithin, transformDirectoryWithin]
  split
  · next h_source =>
    obtain ⟨h_adds, -⟩ := makeTarget_spec target d
    generalize makeTarget target d = made at h_adds ⊢
    obtain ⟨e | ⟨⟩, d₁⟩ := made
    · rfl
    · -- the path of the source has one byte at least
      have h_text := Path.utf8ByteSize_text_pos (Disk.isDirectory_iff.1 h_source).1.1
      have h_levels : Path.maxBytes < source.text.utf8ByteSize + Path.maxBytes := by omega
      obtain ⟨h_same, -⟩ := transformBelow_add (b := b)
        (h_adds.grows.directories.isDirectory h_source) h_levels more target
        { g with summary := {} }
      dsimp only
      rw [h_same]
  · rfl

end Batch

end AsyncMarkers
