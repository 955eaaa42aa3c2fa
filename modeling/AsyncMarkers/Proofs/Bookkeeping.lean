import AsyncMarkers.Proofs.Settle
import AsyncMarkers.Proofs.SingleFile

/-!
# The books of a directory

A run over a directory transforms one file after the other. Each of these calls is made in a state
of its own, since a session counts and a disk fills up. `Batch.calls` lists them: it goes the way of
a run, asks the run for the state that each name leaves behind, and notes which files are
transformed.

The summary of a run is what its calls say. What one name adds is one call, or what is added below a
directory, and adding up is all that is done with it (`Batch.Books.append`), so that no file gets
lost in the summary and none is counted twice (`Batch.transformDirectory_books`). That the calls
come in the order of the paths is known from tours (`Batch.Tour.calls_eq`).
-/

namespace AsyncMarkers

/-- Counts put together. -/
def Counts.total (counts : List Counts) : Counts := counts.foldr (· + ·) {}

/-- Counts may be put together in two parts. -/
theorem Counts.total_append (counts counts' : List Counts) :
    total (counts ++ counts') = total counts + total counts' := by
  induction counts with
  | nil => exact (zero_add _).symm
  | cons c counts ih => exact (congrArg (c + ·) ih).trans (add_assoc c _ _).symm

namespace Batch

/-! ### Calls -/

/-- A file that is transformed in the course of a run, and the state this is done in. -/
structure Call where
  source : Path
  target : Path
  progress : Progress
  disk : Disk

namespace Call

/-- What is returned for the file. -/
def result (b : Batch) (c : Call) : Except BatchError BatchSummary :=
  (b.transformFile Disk.fileSystem c.source c.target c.progress c.disk).1.1

/-- The summary of a file that has been transformed. -/
def summary? (b : Batch) (c : Call) : Option BatchSummary :=
  match c.result b with
  | .ok s => some s
  | .error _ => none

/-- The line about a file that has failed. -/
def complaint? (b : Batch) (c : Call) : Option String :=
  match c.result b with
  | .ok _ => none
  | .error e => some (errorLine c.source e)

/-- There is no line about a file if and only if a summary is returned for it. -/
theorem complaint?_eq_none {b : Batch} (c : Call) :
    c.complaint? b = none ↔ ∃ s, c.result b = .ok s := by
  unfold complaint?
  cases c.result b <;> simp

end Call

/-- The calls for names one after the other, until a visit fails. -/
def callsEach (visit : String → Progress → StateM Disk (Except IoError Unit × Progress))
    (calls : String → Progress → Disk → List Call) : List String → Progress → Disk → List Call
  | [], _, _ => []
  | name :: names, g, d =>
    calls name g d ++
      match visit name g d with
      | ((.ok (), g'), d') => callsEach visit calls names g' d'
      | ((.error _, _), _) => []

/-- The calls for a name in a directory, if those below a directory are known. -/
def callsAt (b : Batch) (below : (directory output : Path) → Progress → Disk → List Call)
    (directory output : Path) (name : String) (g : Progress) (d : Disk) : List Call :=
  if d.isDirectory (directory.child name) then
    match b.makeOutput Disk.fileSystem (b.innerOutput output name) g d with
    | ((.ok (), g'), d') => below (directory.child name) (b.innerOutput output name) g' d'
    | ((.error _, _), _) => []
  else if b.accepts (directory.child name) then
    [⟨directory.child name, b.outputPath output name, g, d⟩]
  else []

/-- The calls in a directory and below it, down to the given number of levels. -/
def callsBelow (b : Batch) : Nat → (directory output : Path) → Progress → Disk → List Call
  | 0, _, _, _, _ => []
  | levels + 1, directory, output, g, d =>
    match d.list directory with
    | .ok found =>
      callsEach (b.visitName levels directory output)
        (b.callsAt (b.callsBelow levels) directory output) (sortedNames found) g d
    | .error _ => []

/-- The calls of a run over a directory, in order. -/
def calls (b : Batch) (source target : Path) (g : Progress) (d : Disk) : List Call :=
  if d.isDirectory source then
    match makeTarget target d with
    | (.ok (), d₁) => b.callsBelow Path.maxBytes source target { g with summary := {} } d₁
    | (.error _, _) => []
  else []

/-- The calls of a run are those below its source, once the target has been made. -/
theorem calls_of_ok {b : Batch} {source target : Path} {g : Progress} {d d₁ : Disk}
    (h_open : d.isDirectory source = true) (h_make : makeTarget target d = (.ok (), d₁)) :
    b.calls source target g d =
      b.callsBelow Path.maxBytes source target { g with summary := {} } d₁ := by
  rw [calls, if_pos h_open, h_make]

/-- If the first visit does not fail, its calls come before those for the other names. -/
theorem callsEach_cons_of_ok
    {visit : String → Progress → StateM Disk (Except IoError Unit × Progress)}
    {calls : String → Progress → Disk → List Call} {name : String} {g g₁ : Progress} {d d₁ : Disk}
    (h : visit name g d = ((.ok (), g₁), d₁)) (names : List String) :
    callsEach visit calls (name :: names) g d =
      calls name g d ++ callsEach visit calls names g₁ d₁ := by
  rw [callsEach, h]

/-- In whatever order a directory is listed, the calls are made for its names in order. -/
theorem callsBelow_of_sorted {b : Batch} {directory : Path} {found names : List String} {d : Disk}
    (h_list : d.list directory = .ok found) (h_perm : found.Perm names)
    (h_sorted : names.Pairwise (· < ·)) (levels : Nat) (output : Path) (g : Progress) :
    b.callsBelow (levels + 1) directory output g d =
      callsEach (b.visitName levels directory output)
        (b.callsAt (b.callsBelow levels) directory output) names g d := by
  rw [callsBelow, h_list]
  dsimp only
  rw [sortedNames_eq h_perm h_sorted]

/-! ### What calls add to a summary -/

/-- Whether the second summary is the first one with the results of some calls. How many directories
have been made is not in the results. -/
structure Books (b : Batch) (calls : List Call) (s s' : BatchSummary) : Prop where
  processed : s'.processed = s.processed + calls.length
  finished : s'.transformed + s'.skipped =
    s.transformed + s.skipped + (calls.filterMap (·.summary? b)).length
  counts : s'.counts = s.counts + .total ((calls.filterMap (·.summary? b)).map (·.counts))
  errors : s'.errors = s.errors ++ calls.filterMap (·.complaint? b)

variable {b : Batch} {directory output : Path} {name : String} {names : List String}
  {s s₁ s' : BatchSummary} {g g' : Progress} {d d' : Disk}

/-- Without calls, nothing is added. -/
theorem Books.refl (s : BatchSummary) : b.Books [] s s :=
  ⟨rfl, rfl, (Counts.add_zero _).symm, (List.append_nil _).symm⟩

/-- What calls add is put together from what is added in two parts. -/
theorem Books.append {calls calls' : List Call} (h : b.Books calls s s₁)
    (h' : b.Books calls' s₁ s') : b.Books (calls ++ calls') s s' where
  processed := by rw [h'.processed, h.processed, List.length_append, Nat.add_assoc]
  finished := by
    rw [h'.finished, h.finished, List.filterMap_append, List.length_append, Nat.add_assoc]
  counts := by
    rw [h'.counts, h.counts, List.filterMap_append, List.map_append, Counts.total_append,
      Counts.add_assoc]
  errors := by rw [h'.errors, h.errors, List.filterMap_append, List.append_assoc]

/-- Each call ends in one of two ways. -/
theorem Call.length_eq (b : Batch) (calls : List Call) :
    calls.length =
      (calls.filterMap (·.summary? b)).length + (calls.filterMap (·.complaint? b)).length := by
  induction calls with
  | nil => rfl
  | cons c calls ih =>
    rw [List.filterMap_cons, List.filterMap_cons, List.length_cons, ih]
    unfold summary? complaint?
    cases c.result b with
    | ok s => exact Nat.add_right_comm _ _ 1
    | error e => rfl

/-! ### One step after the other -/

/-- A file that fails adds its line, and counts as processed. -/
theorem Books.of_error {c : Call} {e : BatchError} (h : c.result b = .error e) (s : BatchSummary) :
    b.Books [c] s (s.merge { processed := 1, errors := [errorLine c.source e] }) := by
  have h_summary : [c].filterMap (·.summary? b) = [] := by simp [Call.summary?, h]
  have h_complaint : [c].filterMap (·.complaint? b) = [errorLine c.source e] := by
    simp [Call.complaint?, h]
  constructor
  · rfl
  · rw [h_summary]
    rfl
  · rw [h_summary]
    rfl
  · rw [h_complaint]
    rfl

/-- A file that does not fail adds its summary. -/
theorem Books.of_ok {c : Call} {summary : Summary} (h : c.result b = .ok (.ofFile summary))
    (s : BatchSummary) : b.Books [c] s (s.merge (.ofFile summary)) := by
  have h_summary : [c].filterMap (·.summary? b) = [.ofFile summary] := by simp [Call.summary?, h]
  have h_complaint : [c].filterMap (·.complaint? b) = [] := by simp [Call.complaint?, h]
  constructor
  · rfl
  · -- a file is either transformed or passed over
    rw [h_summary]
    unfold BatchSummary.merge BatchSummary.ofFile
    cases summary.skipped
    · exact Nat.add_right_comm _ 1 _
    · rfl
  · rw [h_summary]
    exact congrArg (s.counts + ·) (Counts.add_zero _).symm
  · rw [h_complaint]
    rfl

/-- A file adds its own call. -/
theorem books_transformEntry (source target : Path) (g : Progress) (d : Disk) :
    b.Books [⟨source, target, g, d⟩] g.summary
      (b.transformEntry Disk.fileSystem source target g d).1.summary := by
  obtain ⟨h_same, h_ok⟩ := transformFile_summary (b := b) source target g d
  rw [transformEntry, Disk.bind_apply, ← h_same]
  -- the call and the entry are made of the same run
  generalize h_run : b.transformFile Disk.fileSystem source target g d = run at h_ok ⊢
  have h_result : Call.result b ⟨source, target, g, d⟩ = run.1.1 := congrArg (·.1.1) h_run
  obtain ⟨⟨e | s, g₁⟩, d₁⟩ := run
  · exact .of_error h_result g₁.summary
  · obtain ⟨summary, rfl⟩ := h_ok s rfl
    exact .of_ok h_result g₁.summary

/-- To make a directory adds nothing. -/
theorem books_makeOutput (p : Path) (g : Progress) (d : Disk) :
    b.Books [] g.summary (b.makeOutput Disk.fileSystem p g d).1.2.summary := by
  have h_look : Disk.fileSystem.isPresent p d = (d.isPresent p, d) := rfl
  unfold makeOutput
  split
  · exact .refl _
  · rw [Disk.bind_apply, h_look]
    dsimp only
    split
    · exact .refl _
    · rw [Disk.bind_apply]
      generalize Disk.fileSystem.makeDirectories p d = made
      obtain ⟨e | ⟨⟩, d₁⟩ := made
      · exact .refl _
      · exact ⟨rfl, rfl, rfl, rfl⟩

/-- What names add is put together from what each of them adds. -/
theorem books_each {visit : String → Progress → StateM Disk (Except IoError Unit × Progress)}
    {calls : String → Progress → Disk → List Call}
    (h : ∀ name g d, b.Books (calls name g d) g.summary (visit name g d).1.2.summary)
    (names : List String) (g : Progress) (d : Disk) :
    b.Books (callsEach visit calls names g d) g.summary (each visit names g d).1.2.summary := by
  -- each visit starts from the state that the one before it has left
  induction names generalizing g d with
  | nil => exact .refl _
  | cons name names ih =>
    have h_first := h name g d
    rw [callsEach, each, Disk.bind_apply]
    generalize visit name g d = after at h_first ⊢
    obtain ⟨⟨e | ⟨⟩, g₁⟩, d₁⟩ := after
    · -- after a failure there are no more calls
      exact h_first.append (.refl _)
    · exact h_first.append (ih g₁ d₁)

/-- The summary of a run below a directory has the calls made there, whether or not the run
fails. -/
theorem books_transformBelow (levels : Nat) (directory output : Path) (g : Progress) (d : Disk) :
    b.Books (b.callsBelow levels directory output g d) g.summary
      (b.transformBelow Disk.fileSystem levels directory output g d).1.2.summary := by
  induction levels generalizing directory output g d with
  | zero => exact .refl _
  | succ levels ih =>
    rw [callsBelow, transformBelow_succ]
    cases d.list directory with
    | error e => exact .refl _
    | ok found =>
      refine books_each (fun name g d => ?_) _ g d
      -- the branches of a visit
      unfold callsAt
      cases h_kind : d.isDirectory (directory.child name) with
      | true =>
        have h_made := books_makeOutput (b := b) (b.innerOutput output name) g d
        rw [visitName_of_isDirectory h_kind, if_pos rfl]
        generalize b.makeOutput Disk.fileSystem (b.innerOutput output name) g d = made at h_made ⊢
        obtain ⟨⟨e | ⟨⟩, g₁⟩, d₁⟩ := made
        · exact h_made
        · exact h_made.append (ih _ _ g₁ d₁)
      | false =>
        rw [visitName_of_file h_kind, if_neg Bool.false_ne_true]
        split
        · exact books_transformEntry _ _ g d
        · exact .refl _

/-! ### The order of the calls -/

/-- A run below a directory that does not fail goes through the names that the directory holds. -/
theorem transformBelow_eq_ok {levels : Nat} (h_listed : d.Lists directory names)
    (h : b.transformBelow Disk.fileSystem levels directory output g d = ((.ok (), g'), d')) :
    ∃ n, each (b.visitName n directory output) names g d = ((.ok (), g'), d') ∧
      b.callsBelow levels directory output g d =
        callsEach (b.visitName n directory output) (b.callsAt (b.callsBelow n) directory output)
          names g d := by
  cases levels with
  -- without levels, a run fails
  | zero => cases h
  | succ n =>
    rw [transformBelow_succ] at h
    rw [callsBelow]
    cases h_list : d.list directory with
    | error e =>
      rw [h_list] at h
      cases h
    | ok found =>
      rw [h_list] at h
      rw [h_listed.unique (Disk.lists_sortedNames h_list)]
      exact ⟨n, h, rfl⟩

/-- The calls of a run are for the files that its tour comes to. -/
theorem Tour.calls_eq {items : List Item} {st st' : Progress × Disk}
    (h : b.Tour directory output names items st st') {levels : Nat}
    (h_run : each (b.visitName levels directory output) names st.1 st.2 = ((.ok (), g'), d')) :
    (g', d') = st' ∧
      (callsEach (b.visitName levels directory output)
          (b.callsAt (b.callsBelow levels) directory output) names st.1 st.2).map (·.source.route) =
        (items.filter (!·.isDirectory)).map Item.route := by
  -- along the tour: the run makes the same steps, one name after the other
  induction h generalizing levels g' d' with
  | done =>
    cases h_run
    exact ⟨rfl, rfl⟩
  | @enter directory output name names found items items' st st₁ st₂ st' h h_listed below rest
      ih_below ih_rest =>
    have h_kind : st.2.isDirectory (directory.child name) = true := h.kind
    have h_make : b.makeOutput Disk.fileSystem (b.innerOutput output name) st.1 st.2 =
      ((.ok (), st₁.1), st₁.2) := h.entered rfl
    obtain ⟨g₁, d₁, h_visit, h_names⟩ := each_cons_eq_ok h_run
    rw [callsEach, h_visit, callsAt, if_pos h_kind, h_make]
    rw [visitName_of_isDirectory h_kind, h_make] at h_visit
    -- the run goes on where the tour does, so both get to the same state
    obtain ⟨n, h_below, h_calls⟩ := transformBelow_eq_ok h_listed h_visit
    obtain ⟨rfl, h_inner⟩ := ih_below h_below
    obtain ⟨rfl, h_later⟩ := ih_rest h_names
    refine ⟨rfl, ?_⟩
    dsimp only
    rw [h_calls, List.map_append, h_inner, h_later, List.cons_append,
      List.filter_cons_of_neg (by simp), List.filter_append, List.map_append]
  | @transform directory output name names items st st₁ st' h rest ih =>
    have h_kind : st.2.isDirectory (directory.child name) = false := h.kind
    have h_accepts : b.accepts (directory.child name) = true := (h.transformed rfl).1
    have h_entry : b.transformEntry Disk.fileSystem (directory.child name)
        (b.outputPath output name) st.1 st.2 = st₁ := (h.transformed rfl).2
    obtain ⟨g₁, d₁, h_visit, h_names⟩ := each_cons_eq_ok h_run
    rw [callsEach, h_visit, callsAt, if_neg (Bool.eq_false_iff.1 h_kind), if_pos h_accepts]
    rw [visitName_of_file h_kind, if_pos h_accepts, h_entry] at h_visit
    -- one file is one call, made in the state of the tour
    cases h_visit
    obtain ⟨rfl, h_later⟩ := ih h_names
    refine ⟨rfl, ?_⟩
    rw [List.map_append, h_later, List.filter_cons_of_pos (by simp)]
    exact congrArg (· :: _) (Path.route_child directory h.isName)
  | @pass directory output name names items st st' h_kind h_refused rest ih =>
    obtain ⟨g₁, d₁, h_visit, h_names⟩ := each_cons_eq_ok h_run
    -- a file that is not accepted is neither called nor an item
    have h_pass := Bool.eq_false_iff.1 h_refused
    rw [callsEach, h_visit, callsAt, if_neg (Bool.eq_false_iff.1 h_kind), if_neg h_pass]
    rw [visitName_of_file h_kind, if_neg h_pass] at h_visit
    cases h_visit
    exact ih h_names

/-- The calls of a run over a directory come in the order of the routes of their files. -/
theorem pairwise_calls {source target : Path} {s : BatchSummary}
    (h : b.transformDirectory Disk.fileSystem source target g d = ((.ok s, g'), d')) :
    ((b.calls source target g d).map (·.source.route)).Pairwise (· < ·) := by
  obtain ⟨h_open, d₁, g₁, h_make, h_run, -⟩ := transformDirectory_eq_ok h
  -- a run that ends well has made a tour, whose items are in order
  obtain ⟨items, h_toured⟩ := exists_toured_of_below h_open h_make h_run
  obtain ⟨names, h_listed, h_tour⟩ := h_toured.tour
  obtain ⟨n, h_each, h_calls⟩ := transformBelow_eq_ok h_listed h_run
  obtain ⟨-, h_routes⟩ := h_tour.calls_eq h_each
  rw [calls_of_ok h_open h_make, h_calls, h_routes]
  exact (h_tour.sorted h_listed.sorted).sublist ((List.filter_sublist).map _)

/-- **The summary of a directory is what its calls say.** Every file that is processed is
transformed, passed over or an error. The counts are those of the files that have been transformed,
put together. The errors are the lines about the files that have failed, in the order of the calls,
and that is the order of the paths, name by name, with what stands in a directory where the
directory has its place. A run is a success if all its calls are. -/
theorem transformDirectory_books {source target : Path} {s : BatchSummary}
    (h : b.transformDirectory Disk.fileSystem source target g d = ((.ok s, g'), d')) :
    let calls := b.calls source target g d
    s.processed = calls.length ∧ s.processed = s.transformed + s.skipped + s.errors.length ∧
    s.counts = .total ((calls.filterMap (·.summary? b)).map (·.counts)) ∧
    s.errors = calls.filterMap (·.complaint? b) ∧
    (s.success = true ↔ ∀ c ∈ calls, ∃ t, c.result b = .ok t) ∧
    (calls.map (·.source.route)).Pairwise (· < ·) := by
  intro calls
  obtain ⟨h_open, d₁, g₁, h_make, h_run, h_summary⟩ := transformDirectory_eq_ok h
  have h_books := books_transformBelow (b := b) Path.maxBytes source target
    { g with summary := {} } d₁
  rw [h_run, ← calls_of_ok h_open h_make, ← h_summary] at h_books
  -- a run starts with an empty summary
  have h_processed := h_books.processed.trans (Nat.zero_add _)
  have h_finished := h_books.finished.trans (Nat.zero_add _)
  have h_errors := h_books.errors.trans (List.nil_append _)
  refine ⟨h_processed, ?_, h_books.counts.trans (Counts.zero_add _), h_errors, ?_,
    pairwise_calls h⟩
  · calc s.processed = calls.length := h_processed
      _ = (calls.filterMap (·.summary? b)).length + (calls.filterMap (·.complaint? b)).length :=
        Call.length_eq b calls
      _ = s.transformed + s.skipped + s.errors.length := by
        rw [h_finished, h_errors]
  · rw [BatchSummary.success, List.isEmpty_iff, h_errors, List.filterMap_eq_nil_iff]
    exact forall₂_congr fun c _ => c.complaint?_eq_none

/-- Of the two calls for the sample, the second one fails. -/
theorem transformDirectory_books_sample :
    let b : Batch := { backup := true }
    let d := sample (Program.mk [] .synthetic).encode.pretty.toUTF8
    ∃ session s g' d', Session.ofConfig {} = .ok session ∧
      b.transformDirectory Disk.fileSystem (.ofText "in") (.ofText "out") { session } d =
        ((.ok s, g'), d') ∧
      let calls := b.calls (.ofText "in") (.ofText "out") { session } d
      calls.length = 2 ∧ s.processed = 2 ∧ s.transformed + s.skipped = 1 ∧
      calls.filterMap (·.complaint? b) =
        ["Error processing in/sub/b.json: parsing syntax tree in in/sub/b.json"] ∧
      s.success = false ∧ (¬∀ c ∈ calls, ∃ t, c.result b = .ok t) ∧
      (calls.map (·.source.route)).Pairwise (· < ·) := by
  have h_selects : (Session.ofConfig {}).map (·.selects (descriptor (.ofText "in/a.json"))) =
    .ok false := rfl
  cases h_session : Session.ofConfig {} with
  | error e =>
    rw [h_session] at h_selects
    cases h_selects
  | ok session =>
    rw [h_session] at h_selects
    obtain ⟨g', h_run⟩ :=
      transformDirectory_sample_eq rfl decodeText?_empty (Except.ok.inj h_selects)
    obtain ⟨h_processed, -, -, h_errors, h_success, h_sorted⟩ := transformDirectory_books h_run
    refine ⟨session, sampleSummary, g', _, rfl, h_run, h_processed.symm, rfl, rfl,
      h_errors.symm.trans ?_, rfl, fun h_all => ?_, h_sorted⟩
    · decide
    · cases h_success.2 h_all

end Batch

end AsyncMarkers
