import AsyncMarkers.Proofs.Files

/-!
# The routes of paths

There are no links on a disk, so where a path leads to can be read off its segments: every name goes
one level down, two dots go one level up. `Path.route` is what comes of it. A disk only decides
whether a path can be followed, never where it leads to (`Disk.find_eq_ok`), and a path is that of a
directory if every segment leads from a directory to a directory (`Disk.isDirectory_iff`).

Below a directory, all of this is about the last segment alone (`Disk.follow_child`).
-/

namespace AsyncMarkers

namespace Path

/-- Where a segment leads to from the directory that names lead to, the last one first. -/
def turn (names : List String) (segment : String) : List String :=
  if isBlank segment then names else if segment = ".." then names.tail else segment :: names

/-- The route that a path describes, whatever stands on the way. -/
def route (p : Path) : Route := (p.segments.foldl turn []).reverse

/-- Whether a path can be followed, as far as its text is concerned. -/
def Fits (p : Path) : Prop :=
  p ≠ empty ∧ ¬p.text.toList.contains '\x00' ∧ ¬maxBytes < p.text.utf8ByteSize

/-- The path below another one that names lead to. -/
def below (p : Path) (names : List String) : Path := names.foldl child p

variable {p : Path} {name : String}

/-- A proper name leads one level down. -/
theorem turn_of_isName (h : IsName name) (names : List String) :
    turn names name = name :: names := by
  simp [turn, isBlank, h.ne_empty, h.ne_dot, h.ne_up]

/-- Empty segments do not matter. -/
theorem foldl_turn_filter (segments names : List String) :
    (segments.filter (· ≠ "")).foldl turn names = segments.foldl turn names := by
  rw [List.foldl_filter]
  congr 1
  funext names segment
  by_cases h_empty : segment = ""
  · simp [h_empty, turn, isBlank]
  · simp [h_empty]

/-- A route can be read off the segments that are not empty. -/
theorem route_eq (p : Path) :
    p.route = ((p.segments.filter (· ≠ "")).foldl turn []).reverse := by
  rw [foldl_turn_filter, route]

/-! ### The segments of a path below another one -/

/-- A text without a slash is a single segment. -/
theorem ofText_of_no_slash (h : '/' ∉ name.toList) : ofText name = ⟨⟨name, h⟩, []⟩ := by
  have h_split : ∀ cs : List Char, '/' ∉ cs →
      (splitSlashes cs).1.1 = cs ∧ (splitSlashes cs).2 = [] := by
    intro cs h_cs
    induction cs with
    | nil => exact ⟨rfl, rfl⟩
    | cons c cs ih =>
      obtain ⟨h_c, h_cs⟩ : '/' ≠ c ∧ '/' ∉ cs := by simpa using h_cs
      obtain ⟨h_first, h_rest⟩ := ih h_cs
      simp [splitSlashes, Ne.symm h_c, h_first, h_rest]
  obtain ⟨h_first, h_rest⟩ := h_split _ h
  simp [ofText, Segment.ofChars, h_first, h_rest]

/-- A name is put behind the segments of a path. An empty segment at the end goes. -/
theorem child_eq_of_ne_empty (h : p ≠ empty) :
    ∃ front, (p.tail = front ∨ p.tail = front ++ [.empty]) ∧
      ∀ name (h_slash : '/' ∉ name.toList),
        p.child name = ⟨p.head, front ++ [⟨name, h_slash⟩]⟩ := by
  -- neither of the paths that replace `p` when something is joined to it
  have h_join : ∀ s : Segment, (isRooted ⟨s, []⟩ || p == empty) = false := by
    intro s
    simp [isRooted, h]
  by_cases h_last : p.tail.getLast? = some .empty
  · -- this is what a slash at the end leaves, and the name takes its place
    obtain ⟨front, h_front⟩ := List.getLast?_eq_some_iff.1 h_last
    refine ⟨front, .inr h_front, fun name h_slash => ?_⟩
    rw [child, ofText_of_no_slash h_slash, join, h_join, if_neg Bool.false_ne_true, if_pos h_last,
      h_front, List.dropLast_concat]
    rfl
  · refine ⟨p.tail, .inl rfl, fun name h_slash => ?_⟩
    rw [child, ofText_of_no_slash h_slash, join, h_join, if_neg Bool.false_ne_true, if_neg h_last]
    rfl

/-- Below the empty path, a name is the whole path. -/
theorem child_empty (h : '/' ∉ name.toList) : empty.child name = ⟨⟨name, h⟩, []⟩ := by
  simp [child, join, ofText_of_no_slash h]

/-- The last segment of a path below another one is the name. -/
theorem getLast?_segments_child (p : Path) (h : '/' ∉ name.toList) :
    (p.child name).segments.getLast? = some name := by
  by_cases h_empty : p = empty
  · rw [h_empty, child_empty h]
    rfl
  · obtain ⟨front, -, h_child⟩ := child_eq_of_ne_empty h_empty
    rw [h_child name h, segments, parts, ← List.cons_append, List.map_append]
    exact List.getLast?_concat

/-- A name is put behind the segments that are not empty. -/
theorem filter_segments_child (p : Path) (h_full : name ≠ "") (h_slash : '/' ∉ name.toList) :
    (p.child name).segments.filter (· ≠ "") = p.segments.filter (· ≠ "") ++ [name] := by
  by_cases h_empty : p = empty
  · rw [h_empty, child_empty h_slash]
    simp [segments, parts, empty, Segment.empty, h_full]
  · -- an empty segment that goes would have been left out anyway
    obtain ⟨front, h_tail, h_child⟩ := child_eq_of_ne_empty h_empty
    have h_front : p.segments.filter (· ≠ "") =
        ((p.head :: front).map Segment.text).filter (· ≠ "") := by
      rcases h_tail with h_tail | h_tail
      · rw [segments, parts, h_tail]
      · rw [segments, parts, h_tail, ← List.cons_append, List.map_append, List.filter_append]
        exact List.append_nil _
    rw [h_front, h_child name h_slash, segments, parts, ← List.cons_append, List.map_append,
      List.filter_append]
    simp [h_full]

/-- The route gets longer by the name. -/
theorem route_child (p : Path) (h : IsName name) : (p.child name).route = p.route ++ [name] := by
  rw [route_eq, route_eq, filter_segments_child p h.ne_empty h.no_slash, List.foldl_append,
    List.foldl_cons, List.foldl_nil, turn_of_isName h, List.reverse_cons]

/-- The text of a path with one more segment. -/
theorem text_concat (head : Segment) (front : List Segment) (segment : Segment) :
    text ⟨head, front ++ [segment]⟩ = text ⟨head, front⟩ ++ "/" ++ segment.text := by
  simp [text]

/-- The text gets longer by the name at least. -/
theorem utf8ByteSize_text_child (p : Path) (h_slash : '/' ∉ name.toList) :
    p.text.utf8ByteSize + name.utf8ByteSize ≤ (p.child name).text.utf8ByteSize := by
  by_cases h_empty : p = empty
  · rw [h_empty, child_empty h_slash]
    show 0 + name.utf8ByteSize ≤ name.utf8ByteSize
    omega
  · obtain ⟨front, h_tail, h_child⟩ := child_eq_of_ne_empty h_empty
    obtain ⟨head, tail⟩ := p
    -- all that can go is an empty segment, and the slash in front of the name is as long
    have h_text : text ⟨head, tail⟩ = text ⟨head, front⟩ ∨
        text ⟨head, tail⟩ = text ⟨head, front⟩ ++ "/" ++ "" :=
      h_tail.imp (fun h => by rw [← h]) (fun h => by rw [← Segment.text_empty, ← text_concat, ← h])
    rw [h_child name h_slash, text_concat]
    rcases h_text with h_text | h_text
    · rw [h_text]
      simp only [String.utf8ByteSize_append]
      omega
    · rw [h_text, String.append_empty]
      simp only [String.utf8ByteSize_append]
      omega

/-- Only the empty path has an empty text. -/
theorem utf8ByteSize_text_pos (h : p ≠ empty) : 0 < p.text.utf8ByteSize := by
  obtain ⟨head, tail⟩ := p
  rcases List.eq_nil_or_concat tail with rfl | ⟨front, segment, rfl⟩
  · -- a single segment is not empty, and with more of them there is a slash
    have h_head : head.text ≠ "" := by
      intro h_text
      rw [Segment.text_eq_empty_iff] at h_text
      rw [h_text] at h
      exact h rfl
    rw [Nat.pos_iff_ne_zero, Ne, String.utf8ByteSize_eq_zero_iff]
    exact h_head
  · have h_slash : "/".utf8ByteSize = 1 := rfl
    rw [List.concat_eq_append, text_concat]
    simp only [String.utf8ByteSize_append]
    omega

/-- The first name leads to the path that the others start from. -/
theorem below_cons (p : Path) (name : String) (names : List String) :
    p.below (name :: names) = (p.child name).below names := rfl

/-- The last name leads on from where the others have led. -/
theorem below_concat (p : Path) (names : List String) (name : String) :
    p.below (names ++ [name]) = (p.below names).child name := by
  simp [below]

/-- The route gets longer by the names. -/
theorem route_below (p : Path) {names : List String} (h : ∀ name ∈ names, IsName name) :
    (p.below names).route = p.route ++ names := by
  induction names generalizing p with
  | nil => simp [below]
  | cons name names ih =>
    rw [below_cons, ih _ fun n h_n => h n (List.mem_cons_of_mem _ h_n),
      route_child p (h name List.mem_cons_self), List.append_assoc, List.singleton_append]

end Path

namespace Disk

variable {d d' : Disk} {p : Path} {name : String}

/-! ### Where paths lead to -/

/-- A step that can be taken leads where the segment says. -/
theorem step_eq_turn {names names' : List String} {segment : String} (h_segment : segment ≠ "")
    (h : d.step names segment = .ok names') : names' = Path.turn names segment := by
  unfold step at h
  unfold Path.turn Path.isBlank
  -- a step fails where a turn has nothing to say: too long a name, or no directory
  split at h
  · next h_dot =>
    cases h
    simp [h_dot]
  next h_dot =>
  split at h
  · next h_up =>
    cases h
    simp [h_up]
  next h_up =>
  split at h
  · cases h
  split at h
  · cases h
    simp [h_segment, h_dot, h_up]
  · cases h
  · cases h

/-- Steps that can be taken lead where the segments say. -/
theorem foldlM_step_eq_turn {names names' : List String} {segments : List String}
    (h_segments : ∀ segment ∈ segments, segment ≠ "")
    (h : segments.foldlM d.step names = .ok names') : names' = segments.foldl Path.turn names := by
  induction segments generalizing names with
  | nil =>
    cases h
    rfl
  | cons segment segments ih =>
    rw [List.foldlM_cons] at h
    cases h_step : d.step names segment with
    | error e =>
      rw [h_step] at h
      cases h
    | ok next =>
      rw [h_step] at h
      rw [ih (fun s h_s => h_segments s (List.mem_cons_of_mem _ h_s)) h,
        step_eq_turn (h_segments segment List.mem_cons_self) h_step, List.foldl_cons]

/-- The last step of a path that can be followed. -/
theorem exists_of_follow {t : Target} (h : d.follow p = .ok t) :
    p.segments.filter (· ≠ "") = [] ∧ t = .passed [] ∨
      ∃ before segment, p.segments.filter (· ≠ "") = before ++ [segment] ∧
        before.foldlM d.step [] = .ok (before.foldl Path.turn []) ∧
        t = last (d.place (before.foldl Path.turn [])) segment (p.segments.getLast? = some "") := by
  obtain ⟨-, -, -, ⟨h_none, h_passed⟩ | ⟨segment, before, names, h_some, h_walk, h_last⟩⟩ :=
    follow_eq_ok_iff.1 h
  · exact .inl ⟨List.reverse_eq_nil_iff.1 h_none, h_passed⟩
  · -- following takes the segments from the end, and here they are from the start
    have h_segments : p.segments.filter (· ≠ "") = before.reverse ++ [segment] := by
      rw [← List.reverse_cons, ← h_some, List.reverse_reverse]
    have h_full : ∀ s ∈ before.reverse, s ≠ "" := by
      intro s h_mem
      have h_filtered : s ∈ p.segments.filter (· ≠ "") := by
        rw [h_segments]
        exact List.mem_append_left _ h_mem
      simpa using (List.mem_filter.1 h_filtered).2
    have h_names := foldlM_step_eq_turn h_full h_walk
    rw [h_names] at h_walk h_last
    exact .inr ⟨before.reverse, segment, h_segments, h_walk, h_last⟩

/-- A path leads to the route it describes. -/
theorem route_of_follow {t : Target} (h : d.follow p = .ok t) :
    (∃ r, t = .passed r ∧ r = p.route ∧ d.get? r = some .directory) ∨
      ∃ r name slash, t = .named r name slash ∧ r ++ [name] = p.route := by
  rcases exists_of_follow h with ⟨h_none, rfl⟩ | ⟨before, segment, h_segments, h_walk, rfl⟩
  · -- a path without segments leads to the top
    refine .inl ⟨[], rfl, ?_, rfl⟩
    rw [Path.route_eq, h_none]
    rfl
  · have h_mem : segment ∈ p.segments.filter (· ≠ "") := by
      rw [h_segments]
      exact List.mem_append_right _ List.mem_cons_self
    have h_empty : segment ≠ "" := by simpa using (List.mem_filter.1 h_mem).2
    -- the route takes the last segment like all others
    have h_route : p.route = (Path.turn (before.foldl Path.turn []) segment).reverse := by
      rw [Path.route_eq, h_segments, List.foldl_append, List.foldl_cons, List.foldl_nil]
    rw [h_route]
    generalize before.foldl Path.turn [] = names at h_walk ⊢
    have h_directory : d.get? names.reverse = some .directory := get?_foldlM_step h_walk d.get?_nil
    -- the last segment is not followed, and says what kind of place the path leads to
    unfold last Path.turn Path.isBlank
    by_cases h_dot : segment = "."
    · refine .inl ⟨names.reverse, ?_, ?_, h_directory⟩
      · rw [if_pos h_dot]
        rfl
      · simp [h_dot]
    by_cases h_up : segment = ".."
    · refine .inl ⟨names.tail.reverse, ?_, ?_, ?_⟩
      · rw [if_neg h_dot, if_pos h_up, ← List.dropLast_reverse]
        rfl
      · simp [h_up]
      · -- this is the step upwards from a directory
        have h_step : d.step names ".." = .ok names.tail := rfl
        exact get?_step h_step h_directory
    · refine .inr ⟨names.reverse, segment, p.segments.getLast? = some "", ?_, ?_⟩
      · rw [if_neg h_dot, if_neg h_up]
        rfl
      · simp [h_empty, h_dot, h_up]

/-- A path under which something is found can be followed. -/
theorem exists_follow_of_find {r : Route} {e : Entry} (h : d.find p = .ok (r, e)) :
    ∃ t, d.follow p = .ok t := by
  cases h_follow : d.follow p with
  | error e =>
    rw [find, h_follow] at h
    cases h
  | ok t => exact ⟨t, rfl⟩

/-- A path that does not end with a name leads to a directory. -/
theorem find_of_passed {r : Route} (h : d.follow p = .ok (.passed r)) :
    d.find p = .ok (r, .directory) := by
  rw [find, h]
  rfl

/-- What a path leads to that leads to a name. -/
theorem find_of_named {r : Route} {slash : Bool} (h : d.follow p = .ok (.named r name slash))
    (h_short : ¬Path.maxSegmentBytes < name.utf8ByteSize) :
    d.find p =
      match d.get? (r ++ [name]) with
      | none => .error .notFound
      | some .directory => .ok (r ++ [name], .directory)
      | some (.file content) =>
        if slash then .error .notDirectory else .ok (r ++ [name], .file content) := by
  rw [find, h]
  change (d.look r name >>= _) = _
  rw [look, if_neg h_short]
  cases d.get? (r ++ [name]) with
  | none => rfl
  | some e =>
    cases e with
    | file content => rfl
    | directory => rfl

/-- A name under which something is found is not too long. -/
theorem short_of_find {r r' : Route} {slash : Bool} {e : Entry}
    (h : d.follow p = .ok (.named r name slash)) (h_find : d.find p = .ok (r', e)) :
    ¬Path.maxSegmentBytes < name.utf8ByteSize := by
  intro h_long
  rw [find, h] at h_find
  change (d.look r name >>= _) = _ at h_find
  rw [look, if_pos h_long] at h_find
  cases h_find

/-- What a path leads to stands at the end of the route that the path describes. -/
theorem find_eq_ok {r : Route} {e : Entry} (h : d.find p = .ok (r, e)) :
    r = p.route ∧ d.get? r = some e := by
  obtain ⟨t, h_follow⟩ := exists_follow_of_find h
  rcases route_of_follow h_follow with ⟨r', rfl, h_route, h_directory⟩ |
    ⟨r', name, slash, rfl, h_route⟩
  · rw [find_of_passed h_follow] at h
    cases h
    exact ⟨h_route, h_directory⟩
  · rw [find_of_named h_follow (short_of_find h_follow h)] at h
    rw [← h_route]
    cases h_get : d.get? (r' ++ [name]) with
    | none =>
      rw [h_get] at h
      cases h
    | some e =>
      rw [h_get] at h
      cases e with
      | directory =>
        cases h
        exact ⟨rfl, h_get⟩
      | file content =>
        -- a file is not found behind a slash
        cases slash with
        | true => cases h
        | false =>
          cases h
          exact ⟨rfl, h_get⟩

/-- What it takes to find a file. -/
theorem find_eq_file_iff {r : Route} {content : ByteArray} :
    d.find p = .ok (r, .file content) ↔
      ∃ r' name, d.follow p = .ok (.named r' name false) ∧
        ¬Path.maxSegmentBytes < name.utf8ByteSize ∧
        d.get? (r' ++ [name]) = some (.file content) ∧ r' ++ [name] = r := by
  constructor
  · intro h
    obtain ⟨t, h_follow⟩ := exists_follow_of_find h
    cases t with
    | passed r' =>
      rw [find_of_passed h_follow] at h
      cases h
    | named r' name slash =>
      have h_short := short_of_find h_follow h
      rw [find_of_named h_follow h_short] at h
      -- nothing, a directory or a file may stand there, and only a file will do
      split at h
      · cases h
      · cases h
      · next h_get =>
        cases slash with
        | true => cases h
        | false =>
          cases h
          exact ⟨r', name, h_follow, h_short, h_get, rfl⟩
  · rintro ⟨r', name, h_follow, h_short, h_get, rfl⟩
    rw [find_of_named h_follow h_short, h_get]
    rfl

/-! ### Directories -/

/-- A path is that of a directory if a directory is found at the end of its route. -/
theorem isDirectory_eq_true_iff :
    d.isDirectory p = true ↔ d.find p = .ok (p.route, .directory) := by
  unfold isDirectory
  constructor
  · intro h
    split at h
    · next r h_find =>
      rw [← (find_eq_ok h_find).1]
      exact h_find
    · cases h
  · intro h
    rw [h]

/-- A path that can be followed fits. -/
theorem fits_of_follow {t : Target} (h : d.follow p = .ok t) : p.Fits :=
  have h_follow := follow_eq_ok_iff.1 h
  ⟨h_follow.1, h_follow.2.1, h_follow.2.2.1⟩

/-- So does one under which something is found. -/
theorem fits_of_find {r : Route} {e : Entry} (h : d.find p = .ok (r, e)) : p.Fits := by
  obtain ⟨t, h_follow⟩ := exists_follow_of_find h
  exact fits_of_follow h_follow

/-- What it takes to go into a directory by its name. -/
theorem step_name_iff {names names' : List String} (h_dot : name ≠ ".") (h_up : name ≠ "..") :
    d.step names name = .ok names' ↔
      ¬Path.maxSegmentBytes < name.utf8ByteSize ∧
        d.get? (names.reverse ++ [name]) = some .directory ∧ name :: names = names' := by
  unfold step
  rw [if_neg h_dot, if_neg h_up, List.reverse_cons]
  by_cases h_long : Path.maxSegmentBytes < name.utf8ByteSize
  · simp [h_long]
  · rw [if_neg h_long, and_iff_right h_long]
    -- the name leads to nothing, to a file or to a directory
    cases h_get : d.get? (names.reverse ++ [name]) with
    | none => simp
    | some e => cases e <;> simp

/-- The last step is taken from where the others have led. -/
theorem foldlM_step_concat {before : List String} {segment : String} {names names' : List String}
    (h : before.foldlM d.step [] = .ok names) :
    (before ++ [segment]).foldlM d.step [] = .ok names' ↔ d.step names segment = .ok names' := by
  have h_last : [segment].foldlM d.step names = d.step names segment := by
    rw [List.foldlM_cons]
    exact bind_pure _
  rw [List.foldlM_append, h]
  change [segment].foldlM d.step names = _ ↔ _
  rw [h_last]

/-- A path that can be followed is that of a directory if its last segment leads to one too. -/
theorem find_eq_directory_iff {before : List String} {segment : String} {names : List String}
    (h_fits : p.Fits) (h_segments : p.segments.filter (· ≠ "") = before ++ [segment])
    (h_walk : before.foldlM d.step [] = .ok names) :
    (∃ r, d.find p = .ok (r, .directory)) ↔ ∃ names', d.step names segment = .ok names' := by
  -- the steps before the last segment can be taken, so the path can be followed
  have h_follow : d.follow p =
      .ok (last (d.place names) segment (p.segments.getLast? = some "")) := by
    refine follow_eq_ok_iff.2 ⟨h_fits.1, h_fits.2.1, h_fits.2.2, .inr ?_⟩
    refine ⟨segment, before.reverse, names, ?_, ?_, rfl⟩
    · rw [h_segments, List.reverse_concat]
    · rwa [List.reverse_reverse]
  unfold last at h_follow
  by_cases h_dot : segment = "."
  · rw [if_pos h_dot] at h_follow
    exact iff_of_true ⟨_, find_of_passed h_follow⟩ ⟨names, by rw [h_dot]; rfl⟩
  rw [if_neg h_dot] at h_follow
  by_cases h_up : segment = ".."
  · rw [if_pos h_up] at h_follow
    exact iff_of_true ⟨_, find_of_passed h_follow⟩ ⟨names.tail, by rw [h_up]; rfl⟩
  -- the last segment is a name, and what it leads to is looked up
  have h_route : (d.place names).route = names.reverse := rfl
  rw [if_neg h_up, h_route] at h_follow
  constructor
  · rintro ⟨r, h_find⟩
    have h_short := short_of_find h_follow h_find
    obtain ⟨h_same, h_get⟩ := find_eq_ok h_find
    rcases route_of_follow h_follow with ⟨_, h_passed, -⟩ | ⟨_, _, _, h_named, h_name⟩
    · cases h_passed
    · cases h_named
      rw [h_same, ← h_name] at h_get
      exact ⟨segment :: names, (step_name_iff h_dot h_up).2 ⟨h_short, h_get, rfl⟩⟩
  · rintro ⟨names', h_step⟩
    obtain ⟨h_short, h_get, -⟩ := (step_name_iff h_dot h_up).1 h_step
    refine ⟨names.reverse ++ [segment], ?_⟩
    rw [find_of_named h_follow h_short, h_get]

/-- A path whose segments all lead to directories is that of a directory. -/
theorem isDirectory_of_foldlM_step {names : List String} (h_fits : p.Fits)
    (h : (p.segments.filter (· ≠ "")).foldlM d.step [] = .ok names) : d.isDirectory p = true := by
  rw [isDirectory_eq_true_iff]
  rcases List.eq_nil_or_concat (p.segments.filter (· ≠ "")) with
    h_none | ⟨before, segment, h_segments⟩
  · -- there is nothing but slashes, which lead to the top
    have h_follow : d.follow p = .ok (.passed []) :=
      follow_eq_ok_iff.2 ⟨h_fits.1, h_fits.2.1, h_fits.2.2, .inl ⟨by rw [h_none]; rfl, rfl⟩⟩
    rw [find_of_passed h_follow, Path.route_eq, h_none]
    rfl
  · rw [List.concat_eq_append] at h_segments
    rw [h_segments] at h
    -- all segments can be followed, so those before the last one can
    cases h_before : before.foldlM d.step [] with
    | error e =>
      rw [List.foldlM_append, h_before] at h
      cases h
    | ok names =>
      have h_step := (foldlM_step_concat h_before).1 h
      obtain ⟨r, h_find⟩ := (find_eq_directory_iff h_fits h_segments h_before).2 ⟨_, h_step⟩
      rwa [(find_eq_ok h_find).1] at h_find

/-- A path is that of a directory if it can be followed to its end, where the route leads to. -/
theorem isDirectory_iff :
    d.isDirectory p = true ↔
      p.Fits ∧ (p.segments.filter (· ≠ "")).foldlM d.step [] = .ok p.route.reverse := by
  refine ⟨fun h => ?_, fun ⟨h_fits, h_walk⟩ => isDirectory_of_foldlM_step h_fits h_walk⟩
  have h_full : ∀ s ∈ p.segments.filter (· ≠ ""), s ≠ "" := by
    intro s h_mem
    simpa using (List.mem_filter.1 h_mem).2
  have h_route : p.route.reverse = (p.segments.filter (· ≠ "")).foldl Path.turn [] := by
    rw [Path.route_eq, List.reverse_reverse]
  rw [isDirectory_eq_true_iff] at h
  refine ⟨fits_of_find h, ?_⟩
  obtain ⟨t, h_follow⟩ := exists_follow_of_find h
  rcases exists_of_follow h_follow with ⟨h_none, -⟩ | ⟨before, segment, h_segments, h_walk, -⟩
  · rw [h_route, h_none]
    rfl
  · -- following stops before the last segment, and that one can be followed as well
    obtain ⟨names, h_step⟩ :=
      (find_eq_directory_iff (fits_of_find h) h_segments h_walk).1 ⟨_, h⟩
    have h_all := (foldlM_step_concat h_walk).2 h_step
    rw [← h_segments] at h_all
    rw [h_route, ← foldlM_step_eq_turn h_full h_all, h_all]

/-- A directory is found on every disk that has all directories of the one it is found on. -/
theorem Keeps.isDirectory (h : d.Keeps d') (h_directory : d.isDirectory p = true) :
    d'.isDirectory p = true := by
  obtain ⟨h_fits, h_walk⟩ := isDirectory_iff.1 h_directory
  exact isDirectory_iff.2 ⟨h_fits, h.foldlM_step h_walk⟩

/-- A directory stands at the end of its route. -/
theorem get?_of_isDirectory (h : d.isDirectory p = true) : d.get? p.route = some .directory :=
  (find_eq_ok (isDirectory_eq_true_iff.1 h)).2

/-! ### What stands in a directory -/

/-- Whether the paths below a path can be followed. The empty path leads nowhere itself. -/
def Opens (d : Disk) (p : Path) : Prop := p = .empty ∨ d.isDirectory p = true

/-- Paths can still be followed when no directory has been taken away. -/
theorem Keeps.opens (h : d.Keeps d') (h_opens : d.Opens p) : d'.Opens p :=
  h_opens.imp id h.isDirectory

/-- A path with paths below it that can be followed can be followed to its end. -/
theorem foldlM_step_of_opens (h : d.Opens p) :
    (p.segments.filter (· ≠ "")).foldlM d.step [] = .ok p.route.reverse := by
  rcases h with rfl | h
  · rfl
  · exact (isDirectory_iff.1 h).2

/-- A path below such a path leads to the name. -/
theorem follow_child (h : d.Opens p) (h_name : IsName name) (h_fits : (p.child name).Fits) :
    d.follow (p.child name) = .ok (.named p.route name false) := by
  refine follow_eq_ok_iff.2 ⟨h_fits.1, h_fits.2.1, h_fits.2.2, .inr ?_⟩
  -- the name is the last segment, and those before it lead to the directory
  refine ⟨name, (p.segments.filter (· ≠ "")).reverse, p.route.reverse, ?_, ?_, ?_⟩
  · rw [Path.filter_segments_child p h_name.ne_empty h_name.no_slash, List.reverse_concat]
  · rw [List.reverse_reverse]
    exact foldlM_step_of_opens h
  · rw [Path.getLast?_segments_child p h_name.no_slash, last, if_neg h_name.ne_dot,
      if_neg h_name.ne_up]
    simp [place, Place.route, h_name.ne_empty]

/-- What a path below another one leads to, if it leads to a name. -/
theorem named_of_follow_child {r : Route} {n : String} {slash : Bool} (h_full : name ≠ "")
    (h_slash : '/' ∉ name.toList) (h : d.follow (p.child name) = .ok (.named r n slash)) :
    r = p.route ∧ n = name := by
  rcases exists_of_follow h with ⟨h_none, -⟩ | ⟨before, segment, h_segments, h_walk, h_last⟩
  · rw [Path.filter_segments_child p h_full h_slash] at h_none
    simp at h_none
  · rw [Path.filter_segments_child p h_full h_slash] at h_segments
    obtain ⟨rfl, h_same⟩ := List.append_inj' h_segments rfl
    cases h_same
    unfold last at h_last
    -- dots do not lead to a name
    split at h_last
    · cases h_last
    split at h_last
    · cases h_last
    cases h_last
    exact ⟨by rw [Path.route_eq]; rfl, rfl⟩

/-- What stands in a directory is found if the path and the name are short enough. -/
theorem find_child (h : d.Opens p) (h_name : IsName name) (h_fits : (p.child name).Fits)
    (h_short : ¬Path.maxSegmentBytes < name.utf8ByteSize) :
    d.find (p.child name) =
      match d.get? (p.route ++ [name]) with
      | none => .error .notFound
      | some e => .ok (p.route ++ [name], e) := by
  rw [find_of_named (follow_child h h_name h_fits) h_short]
  cases d.get? (p.route ++ [name]) with
  | none => rfl
  | some e => cases e <;> rfl

/-- What it takes for something in a directory to be a directory. -/
theorem isDirectory_child_iff (h : d.Opens p) (h_name : IsName name) :
    d.isDirectory (p.child name) = true ↔
      (p.child name).Fits ∧ ¬Path.maxSegmentBytes < name.utf8ByteSize ∧
        d.get? (p.route ++ [name]) = some .directory := by
  rw [isDirectory_eq_true_iff, Path.route_child p h_name]
  constructor
  · intro h_find
    have h_fits := fits_of_find h_find
    exact ⟨h_fits, short_of_find (follow_child h h_name h_fits) h_find, (find_eq_ok h_find).2⟩
  · rintro ⟨h_fits, h_short, h_get⟩
    rw [find_child h h_name h_fits h_short, h_get]

end Disk

end AsyncMarkers
