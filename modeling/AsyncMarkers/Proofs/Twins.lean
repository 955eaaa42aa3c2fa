import AsyncMarkers.Proofs.Course

/-!
# Outputs that overwrite one another

Files take part whatever the letter case of their extension, but all outputs have the same
extension. So files of one directory whose names differ in the letter case of their extension,
`Batch.Twins`, have the same output (`Batch.transformDirectory_loses_output`). Apart from them,
different files have different outputs, if outputs stand in directories like those of the files
(`Batch.HasDefaults.outputOf_eq_iff_twins`), and no output is where the copy of another one goes.
Therefore an output stays until the end of a run unless a twin comes later
(`Batch.Call.IsFor.not_touches`).
-/

namespace AsyncMarkers

/-! ### Names -/

/-- A dot has no case. -/
theorem dot_mem_lowerAfter {before cs : List Char} (h : '.' ∈ cs) : '.' ∈ lowerAfter before cs := by
  induction cs generalizing before with
  | nil => cases h
  | cons c cs ih =>
    rw [lowerAfter]
    rcases List.mem_cons.1 h with rfl | h
    · -- the only letter that depends on its neighbours is not a dot
      have h_lower : lowerChar '.' = ['.'] := by decide
      rw [if_neg (by simp), h_lower]
      exact List.mem_append_left _ List.mem_cons_self
    · exact List.mem_append_right _ (ih h)

/-- There is no dot in an extension of the right letters. -/
theorem no_dot_of_lowerCase {extension : String} (h : lowerCase extension = "json") :
    '.' ∉ extension.toList := by
  intro h_dot
  have h_mem : '.' ∈ (lowerCase extension).toList := by
    rw [lowerCase, String.toList_ofList]
    exact dot_mem_lowerAfter h_dot
  rw [h] at h_mem
  simp at h_mem

/-- A name with another extension ends in that, or leads upwards. -/
theorem renamed_cases {extension : String} (h : extension ≠ "") (name : String) :
    (splitName name).1 = "." ∧ renamed name extension = ".." ∨
      (splitName name).1 ≠ "." ∧
        renamed name extension = (splitName name).1 ++ "." ++ extension := by
  unfold renamed
  dsimp only
  by_cases h_dot : (splitName name).1 = "."
  · exact .inl ⟨h_dot, if_pos h_dot⟩
  · exact .inr ⟨h_dot, by rw [if_neg h_dot, if_neg h]⟩

/-- What is in front of the extension can be read off the name with another extension. -/
theorem renamed_eq_iff {name name' extension : String} (h_name : name ≠ "") (h_name' : name' ≠ "")
    (h : extension ≠ "") :
    renamed name extension = renamed name' extension ↔
      (splitName name).1 = (splitName name').1 := by
  -- there are three characters at least, unless the name leads upwards
  have h_ne {stem : String} (h_stem : stem ≠ "") : stem ++ "." ++ extension ≠ ".." := by
    intro h_up
    have h_length := congrArg (fun s => s.toList.length) h_up
    have h_front := List.length_pos_iff.2 (show stem.toList ≠ [] by simpa using h_stem)
    have h_back := List.length_pos_iff.2 (show extension.toList ≠ [] by simpa using h)
    simp only [String.toList_append, List.length_append] at h_length
    change _ + 1 + _ = 2 at h_length
    omega
  constructor
  · intro h_same
    -- either name may lead upwards, and then so does the other one
    rcases renamed_cases h name with ⟨h_dot, h_up⟩ | ⟨-, h_full⟩ <;>
      rcases renamed_cases h name' with ⟨h_dot', h_up'⟩ | ⟨-, h_full'⟩
    · rw [h_dot, h_dot']
    · rw [h_up, h_full'] at h_same
      exact absurd h_same.symm (h_ne (splitName_ne_empty h_name'))
    · rw [h_full, h_up'] at h_same
      exact absurd h_same (h_ne (splitName_ne_empty h_name))
    · rw [h_full, h_full', String.append_assoc, String.append_assoc] at h_same
      exact String.append_left_inj _ |>.1 h_same
  · intro h_stem
    unfold renamed
    rw [h_stem]

/-- Names are put behind the segments that are not empty. -/
theorem Path.filter_segments_below (p : Path) {names : List String}
    (h : ∀ name ∈ names, IsName name) :
    (p.below names).segments.filter (· ≠ "") = p.segments.filter (· ≠ "") ++ names := by
  induction names using List.reverseRecOn with
  | nil =>
    rw [List.append_nil]
    rfl
  | append_singleton names name ih =>
    have h_name : IsName name := h name (by simp)
    rw [below_concat, filter_segments_child _ h_name.ne_empty h_name.no_slash,
      ih fun n h_n => h n (List.mem_append_left _ h_n), List.append_assoc]

/-- A file cannot be written upwards. -/
theorem Disk.Admits.isName {d : Disk} {p : Path} {name : String} (h : d.Admits (p.child name))
    (h_name : name = ".." ∨ IsName name) : IsName name := by
  rcases h_name with rfl | h_name
  · exact absurd h (not_admits_up p)
  · exact h_name

namespace Batch

variable {b : Batch} {source target output p : Path} {d : Disk} {rel rel' front front' : Route}
  {name name' : String} {c c' : Call}

/-! ### Twins -/

/-- Whether routes lead to files of one directory whose names are the same apart from the letter
case of their extension. -/
def Twins (r r' : Route) : Prop :=
  ∃ front stem e e', stem ≠ "" ∧ r = front ++ [stem ++ "." ++ e] ∧
    r' = front ++ [stem ++ "." ++ e'] ∧ lowerCase e = "json" ∧ lowerCase e' = "json"

/-- Whether the extensions are the default ones and outputs stand in directories like those of the
sources. -/
structure HasDefaults (b : Batch) : Prop where
  keepStructure : b.keepStructure = true
  sourceExtensions : b.sourceExtensions = ["json"]
  outputExtension : b.outputExtension = "json"

/-- What two routes start with does not matter. -/
theorem twins_append_iff {r : Route} :
    Twins (r ++ (front ++ [name])) (r ++ (front' ++ [name'])) ↔
      Twins (front ++ [name]) (front' ++ [name']) := by
  constructor
  · rintro ⟨front₀, stem, e, e', h_stem, h_rel, h_rel', h_e, h_e'⟩
    rw [← List.append_assoc] at h_rel h_rel'
    obtain ⟨h_front, h_last⟩ := List.append_singleton_inj.1 h_rel
    obtain ⟨h_front', h_last'⟩ := List.append_singleton_inj.1 h_rel'
    rw [← h_front'] at h_front
    rw [List.append_cancel_left h_front, h_last, h_last']
    exact ⟨front', stem, e, e', h_stem, rfl, rfl, h_e, h_e'⟩
  · rintro ⟨front₀, stem, e, e', h_stem, h_rel, h_rel', h_e, h_e'⟩
    rw [h_rel, h_rel', ← List.append_assoc, ← List.append_assoc]
    exact ⟨_, stem, e, e', h_stem, rfl, rfl, h_e, h_e'⟩

section Defaults

variable (h_b : b.HasDefaults)

include h_b

/-- The default extension has no slash in it. -/
theorem HasDefaults.no_slash : '/' ∉ b.outputExtension.toList := by
  rw [h_b.outputExtension]
  decide

/-- A file that takes part has a name with the extension in some letter case. -/
theorem HasDefaults.exists_of_accepts (h_name : IsName name)
    (h : b.accepts (p.child name) = true) :
    ∃ stem e, stem ≠ "" ∧ name = stem ++ "." ++ e ∧ lowerCase e = "json" := by
  rw [accepts, Path.extension?_child h_name, h_b.sourceExtensions] at h
  rcases splitName_cases name with h_split | ⟨front, back, h_front, h_list, h_split⟩
  · -- a name without an extension does not take part
    rw [h_split] at h
    cases h
  · rw [h_split] at h
    have h_json : lowerCase "json" = "json" := by decide
    refine ⟨String.ofList front, String.ofList back, by simpa using h_front, ?_, ?_⟩
    · rw [← String.toList_inj, h_list]
      simp
    · dsimp only at h
      rw [List.any_cons, List.any_nil, Bool.or_false, beq_iff_eq, h_json] at h
      exact h.symm

/-- The output for a file stands in a directory like that of the file. -/
theorem HasDefaults.outputOf_concat (h_name : IsName name) :
    b.outputOf target (front ++ [name]) = (target.below front).child (b.outputName name) := by
  rw [outputOf, List.dropLast_concat, List.getLastD_concat, outputPath_eq h_name h_b.no_slash,
    outputBelow, if_pos h_b.keepStructure]

/-- Outputs have the same path if they stand in the same directory under the same name. -/
theorem HasDefaults.outputOf_eq_iff (h : ∀ n ∈ front ++ [name], IsName n)
    (h' : ∀ n ∈ front' ++ [name'], IsName n) :
    b.outputOf target (front ++ [name]) = b.outputOf target (front' ++ [name']) ↔
      front = front' ∧ b.outputName name = b.outputName name' := by
  have h_name : IsName name := h name (by simp)
  have h_name' : IsName name' := h' name' (by simp)
  rw [h_b.outputOf_concat h_name, h_b.outputOf_concat h_name']
  constructor
  · intro h_same
    -- the segments that are not empty say where a path leads through
    have h_segments := congrArg (fun p => p.segments.filter (· ≠ "")) h_same
    have h_last := isName_outputName h_name h_b.no_slash
    have h_last' := isName_outputName h_name' h_b.no_slash
    rw [Path.filter_segments_child _ (ne_empty_of_last h_last) (no_slash_of_last h_last),
      Path.filter_segments_child _ (ne_empty_of_last h_last') (no_slash_of_last h_last'),
      Path.filter_segments_below target fun n h_n => h n (List.mem_append_left _ h_n),
      Path.filter_segments_below target fun n h_n => h' n (List.mem_append_left _ h_n)]
      at h_segments
    obtain ⟨h_front, h_last⟩ := List.append_singleton_inj.1 h_segments
    exact ⟨List.append_cancel_left h_front, h_last⟩
  · rintro ⟨rfl, h_same⟩
    rw [h_same]

/-- Different files have different outputs unless they are twins. -/
theorem HasDefaults.outputOf_eq_iff_twins (h : ∀ n ∈ front ++ [name], IsName n)
    (h' : ∀ n ∈ front' ++ [name'], IsName n)
    (h_accepts : b.accepts (source.below (front ++ [name])) = true)
    (h_accepts' : b.accepts (source.below (front' ++ [name'])) = true) :
    b.outputOf target (front ++ [name]) = b.outputOf target (front' ++ [name']) ↔
      Twins (front ++ [name]) (front' ++ [name']) := by
  have h_name : IsName name := h name (by simp)
  have h_name' : IsName name' := h' name' (by simp)
  rw [h_b.outputOf_eq_iff h h', outputName, outputName, h_b.outputExtension,
    renamed_eq_iff h_name.ne_empty h_name'.ne_empty (by decide)]
  constructor
  · rintro ⟨rfl, h_stem⟩
    -- the stems can be read off the names, since the extensions have no dots
    rw [Path.below_concat] at h_accepts h_accepts'
    obtain ⟨stem, e, h_full, rfl, h_e⟩ := h_b.exists_of_accepts h_name h_accepts
    obtain ⟨stem', e', h_full', rfl, h_e'⟩ := h_b.exists_of_accepts h_name' h_accepts'
    rw [splitName_append h_full (no_dot_of_lowerCase h_e),
      splitName_append h_full' (no_dot_of_lowerCase h_e')] at h_stem
    obtain rfl : stem = stem' := h_stem
    exact ⟨front, stem, e, e', h_full, rfl, rfl, h_e, h_e'⟩
  · rintro ⟨front₀, stem, e, e', h_full, h_rel, h_rel', h_e, h_e'⟩
    obtain ⟨rfl, h_last⟩ := List.append_singleton_inj.1 h_rel
    obtain ⟨rfl, h_last'⟩ := List.append_singleton_inj.1 h_rel'
    rw [h_last, h_last',
      splitName_append h_full (no_dot_of_lowerCase h_e),
      splitName_append h_full (no_dot_of_lowerCase h_e')]
    exact ⟨rfl, rfl⟩

/-- Copies have an ending of their own. -/
theorem HasDefaults.backupName_ne_outputName (h : IsName (b.outputName name))
    (h' : IsName (backupName name')) : backupName name' ≠ b.outputName name := by
  have h_output : ∃ stem, b.outputName name = stem ++ ".json" := by
    rw [outputName, h_b.outputExtension] at h ⊢
    rcases renamed_cases (show "json" ≠ "" by decide) name with ⟨-, h_up⟩ | ⟨-, h_full⟩
    · exact absurd h_up h.ne_up
    · exact ⟨_, h_full.trans String.append_assoc⟩
  have h_copy : ∃ stem, backupName name' = stem ++ ".backup" := by
    unfold backupName at h' ⊢
    split at h'
    · exact absurd rfl h'.ne_up
    next h_other =>
    rw [if_neg h_other]
    rcases renamed_cases (show (splitName name').2.getD "" ++ ".backup" ≠ "" by simp) name' with
      ⟨-, h_up⟩ | ⟨-, h_full⟩
    · exact absurd h_up h'.ne_up
    · exact ⟨_, h_full.trans String.append_assoc.symm⟩
  obtain ⟨stem, h_stem⟩ := h_output
  obtain ⟨stem', h_stem'⟩ := h_copy
  rw [h_stem, h_stem']
  intro h_same
  -- the two endings have different last letters
  have h_last := congrArg (fun s => s.toList.getLast?) h_same
  simp at h_last

/-! ### Calls -/

/-- Two calls have the same target if and only if their files are twins. -/
theorem HasDefaults.target_eq_iff_twins (h : c.IsFor b source target (front ++ [name]))
    (h' : c'.IsFor b source target (front' ++ [name'])) :
    c.target = c'.target ↔ Twins c.source.route c'.source.route := by
  rw [h.target_eq, h'.target_eq, h.route, h'.route, twins_append_iff]
  exact h_b.outputOf_eq_iff_twins h.isName h'.isName (h.source_eq ▸ h.accepted)
    (h'.source_eq ▸ h'.accepted)

/-- The output of a call that succeeds has a proper name. -/
theorem Call.Succeeds.isName_output (h_ok : c.Succeeds b)
    (h : c.IsFor b source target (front ++ [name])) : IsName (b.outputName name) := by
  obtain ⟨o, d₁, -, h_write⟩ := h_ok.written
  have h_name : IsName name := h.isName name (by simp)
  rw [h.target_eq, h_b.outputOf_concat h_name] at h_write
  exact Disk.Admits.isName ⟨_, _, h_write⟩ (isName_outputName h_name h_b.no_slash)

/-- The output of a call stands where the names of its file lead to. -/
theorem Call.IsFor.route_target (h : c.IsFor b source target (front ++ [name]))
    (h_output : IsName (b.outputName name)) :
    c.target.route = target.route ++ front ++ [b.outputName name] := by
  rw [h.target_eq, h_b.outputOf_concat (h.isName name (by simp)), Path.route_child _ h_output,
    Path.route_below target fun n h_n => h.isName n (List.mem_append_left _ h_n)]

/-- An output is not touched by another call unless that is for a twin and succeeds. -/
theorem Call.IsFor.not_touches (h : c.IsFor b source target (front ++ [name]))
    (h' : c'.IsFor b source target (front' ++ [name'])) (h_ok : c.Succeeds b)
    (h_other : c'.Succeeds b → c.target ≠ c'.target) : ¬c'.Touches b c.target.route := by
  have h_output := h_ok.isName_output h_b h
  have h_name' : IsName name' := h'.isName name' (by simp)
  have h_target' := h'.target_eq.trans (h_b.outputOf_concat h_name')
  rw [h.route_target h_b h_output]
  rintro (⟨h_ok', h_same⟩ | ⟨content, d₁, h_write, h_same⟩)
  · -- both outputs would have the same path
    rw [h'.route_target h_b (h_ok'.isName_output h_b h')] at h_same
    obtain ⟨h_front, h_last⟩ := List.append_singleton_inj.1 h_same
    refine h_other h_ok' ?_
    rw [h.target_eq, h'.target_eq, h_b.outputOf_eq_iff h.isName h'.isName]
    exact ⟨List.append_cancel_left h_front, h_last⟩
  · -- the copy would have the name of an output
    have h_last := isName_outputName h_name' h_b.no_slash
    rw [h_target', backupPath_eq h_last] at h_write h_same
    have h_copy := Disk.Admits.isName ⟨_, _, h_write⟩ (isName_backupName h_last)
    rw [Path.route_child _ h_copy] at h_same
    exact h_b.backupName_ne_outputName h_output h_copy
      (List.append_singleton_inj.1 h_same).2.symm

end Defaults

/-! ### Two files with one output -/

unseal Path.child

/-- Two files of a directory whose extensions have different letter cases. -/
def twinFiles (first second : ByteArray) : Disk where
  root := [("in", .directory [("a.JSON", .file first), ("a.json", .file second)])]
  wellFormed := of_decide_eq_true rfl

/-- The same with a directory for what comes of them, which may hold an output. -/
def besideOutput (first second : ByteArray) : Option ByteArray → Disk
  | none =>
    { root := [("out", .directory []),
        ("in", .directory [("a.JSON", .file first), ("a.json", .file second)])]
      wellFormed := of_decide_eq_true rfl }
  | some output =>
    { root := [("out", .directory [("a.json", .file output)]),
        ("in", .directory [("a.JSON", .file first), ("a.json", .file second)])]
      wellFormed := of_decide_eq_true rfl }

/-- The two files are twins. -/
theorem twins_twinFiles : Twins ["a.JSON"] ["a.json"] :=
  ⟨[], "a", "JSON", "json", by decide, by decide, by decide, by decide, by decide⟩

/-- The output for either of them is stored under the same name. -/
theorem store_besideOutput (first second : ByteArray) {name : String} (text : String)
    (old : Option ByteArray) (h_name : name = "a.JSON" ∨ name = "a.json") :
    store {} Disk.fileSystem (outputPath {} (.ofText "out") name) text
        (besideOutput first second old) =
      (.ok (), besideOutput first second (some text.toUTF8)) := by
  have h_path : outputPath {} (.ofText "out") name = .ofText "out/a.json" := by
    rcases h_name with rfl | rfl <;> decide
  rw [h_path]
  unfold store FileSystem.writeText
  -- nothing is asked of the text, which is not to be evaluated
  generalize text.toUTF8 = new
  cases old <;> rfl

/-- Both files are passed over, and the output of the first one does not last. -/
theorem transformDirectory_twinFiles {session : Session} {first second : Program}
    (h_first : Json.decodeText? Program.decode? first.encode.pretty = some first)
    (h_second : Json.decodeText? Program.decode? second.encode.pretty = some second)
    (h_skip : session.selects (descriptor (.ofText "in/a.json")) = false) :
    let content := first.encode.pretty.toUTF8
    let content' := second.encode.pretty.toUTF8
    let d := twinFiles content content'
    ∃ s g' c c',
      transformDirectory {} Disk.fileSystem (.ofText "in") (.ofText "out") { session } d =
        ((.ok s, g'), besideOutput content content' (some content')) ∧
      s.processed = 2 ∧ s.errors = [] ∧
      calls {} (.ofText "in") (.ofText "out") { session } d = [c, c'] ∧
      c'.source = .ofText "in/a.json" ∧ c.Succeeds {} ∧ c'.Succeeds {} := by
  intro content content' d
  let d₁ := besideOutput content content' none
  let d₂ := besideOutput content content' (some content)
  let d₃ := besideOutput content content' (some content')
  have h_outcome₁ : outcome session d₁ (Path.child (.ofText "in") "a.JSON") =
      .ok ⟨first, { skipped := true }⟩ := outcome_of_skipped rfl h_first h_skip
  have h_store₁ : store {} Disk.fileSystem (outputPath {} (.ofText "out") "a.JSON")
      first.encode.pretty d₁ = (.ok (), d₂) := store_besideOutput _ _ _ _ (.inl rfl)
  obtain ⟨g₁, h_visit₁, h_setup₁, h_summary₁⟩ :=
    visitName_of_ok (b := {}) (g := { session }) rfl (by decide) h_outcome₁ h_store₁ 4094
  -- the first run has only changed what the session has counted
  have h_outcome₂ : outcome g₁.session d₂ (Path.child (.ofText "in") "a.json") =
      .ok ⟨second, { skipped := true }⟩ := by
    rw [outcome_of_sameSetup h_setup₁]
    exact outcome_of_skipped rfl h_second h_skip
  have h_store₂ : store {} Disk.fileSystem (outputPath {} (.ofText "out") "a.json")
      second.encode.pretty d₂ = (.ok (), d₃) := store_besideOutput _ _ _ _ (.inr rfl)
  obtain ⟨g₂, h_visit₂, -, h_summary₂⟩ :=
    visitName_of_ok (b := {}) rfl (by decide) h_outcome₂ h_store₂ 4094
  have h_list : d₁.list (.ofText "in") = .ok ["a.JSON", "a.json"] := rfl
  have h_make : makeTarget (.ofText "out") d = (.ok (), d₁) := rfl
  have h_run : transformBelow {} Disk.fileSystem (4094 + 1) (.ofText "in") (.ofText "out")
      { session } d₁ = ((.ok (), g₂), d₃) := by
    rw [transformBelow_of_sorted h_list (.refl _) (by decide), each_cons_of_ok h_visit₁,
      each_cons_of_ok h_visit₂]
    rfl
  let c : Call :=
    ⟨Path.child (.ofText "in") "a.JSON", outputPath {} (.ofText "out") "a.JSON", { session }, d₁⟩
  let c' : Call :=
    ⟨Path.child (.ofText "in") "a.json", outputPath {} (.ofText "out") "a.json", g₁, d₂⟩
  have h_calls : calls {} (.ofText "in") (.ofText "out") { session } d = [c, c'] :=
    (calls_of_ok rfl h_make).trans
      ((callsBelow_of_sorted h_list (.refl _) (by decide) 4094 _ _).trans
        ((callsEach_cons_of_ok h_visit₁ _).trans
          (congrArg (_ ++ ·) (callsEach_cons_of_ok h_visit₂ _))))
  refine ⟨g₂.summary, _, c, c', transformDirectory_of_ok rfl h_make h_run, ?_, ?_, h_calls, rfl,
    Call.succeeds_of_store h_outcome₁ h_store₁, Call.succeeds_of_store h_outcome₂ h_store₂⟩
  · rw [h_summary₂, h_summary₁]
    rfl
  · rw [h_summary₂, h_summary₁]
    rfl

/-- The tree of a file with an empty statement is read from its text. -/
theorem decodeText?_emptyStatement :
    Json.decodeText? Program.decode? (Program.mk [.empty {}] .synthetic).encode.pretty =
      some ⟨[.empty {}], .synthetic⟩ := (Program.decodeText?_pretty _).2 ⟨by decide, by decide⟩

/-- By default, the files are passed over. -/
theorem exists_session_twinFiles :
    ∃ session, Session.ofConfig {} = .ok session ∧
      session.selects (descriptor (.ofText "in/a.json")) = false := by
  have h_selects : (Session.ofConfig {}).map (·.selects (descriptor (.ofText "in/a.json"))) =
    .ok false := rfl
  cases h_session : Session.ofConfig {} with
  | error e =>
    rw [h_session] at h_selects
    cases h_selects
  | ok session =>
    rw [h_session] at h_selects
    exact ⟨session, rfl, Except.ok.inj h_selects⟩

/-- Both files are sources. -/
theorem sources_twinFiles (first second : ByteArray) :
    sources {} (twinFiles first second) (.ofText "in") = [["a.JSON"], ["a.json"]] := rfl

/-- They have the same output. -/
theorem outputOf_twinFiles :
    outputOf {} (.ofText "out") ["a.JSON"] = outputOf {} (.ofText "out") ["a.json"] := by decide

seal Path.child

/-! ### What lasts -/

/-- **Outputs overwrite one another only if their files are twins.** Two sources have the same
output path exactly if they stand in one directory and their names differ in the letter case of the
extension at most. In every run, also in one that fails, the calls are for different files, and what
a call has written is there at the end unless a call for a twin succeeds later. -/
theorem transformDirectory_overwrites_twins (backup : Bool) (source target : Path) (g : Progress)
    (d : Disk) :
    let b : Batch := { backup }
    let calls := b.calls source target g d
    let d' := (b.transformDirectory Disk.fileSystem source target g d).2
    (d.isDirectory source = true → ∀ rel ∈ b.sources d source, ∀ rel' ∈ b.sources d source,
      (b.outputOf target rel = b.outputOf target rel' ↔ Twins rel rel')) ∧
    (∀ c ∈ calls, ∃ rel, c.source = source.below rel ∧ c.target = b.outputOf target rel) ∧
    (calls.Pairwise fun c c' => c.source.route ≠ c'.source.route ∧
      (c.target = c'.target ↔ Twins c.source.route c'.source.route)) ∧
    ∀ before c later, calls = before ++ c :: later → c.Succeeds b →
      (∀ c' ∈ later, c'.Succeeds b → ¬Twins c.source.route c'.source.route) →
      ∃ o, outcome c.progress.session c.disk c.source = .ok o ∧
        d'.get? c.target.route = some (.file o.program.encode.pretty.toUTF8) := by
  intro b calls d'
  have h_b : b.HasDefaults := ⟨rfl, rfl, rfl⟩
  obtain ⟨names, h_ran⟩ : ∃ names, b.Ran source target names calls d d' :=
    ran_transformDirectory source target g d
  -- calls are for files that take part, so what is known of such files can be said of calls
  have h_twins (c : Call) (h_c : c ∈ calls) (c' : Call) (h_c' : c' ∈ calls) :
      c.target = c'.target ↔ Twins c.source.route c'.source.route := by
    obtain ⟨front, name, h_for⟩ := h_ran.exists_isFor h_c
    obtain ⟨front', name', h_for'⟩ := h_ran.exists_isFor h_c'
    exact h_b.target_eq_iff_twins h_for h_for'
  refine ⟨fun h_open rel h_rel rel' h_rel' => ?_, fun c h_c => ?_, ?_,
    fun before c later h_calls h_ok h_later => ?_⟩
  · obtain ⟨-, h_accepts⟩ := mem_sources_iff.1 h_rel
    obtain ⟨-, h_accepts'⟩ := mem_sources_iff.1 h_rel'
    obtain ⟨front, name, rfl, h_names⟩ := exists_concat_of_mem_sources h_open h_rel
    obtain ⟨front', name', rfl, h_names'⟩ := exists_concat_of_mem_sources h_open h_rel'
    exact h_b.outputOf_eq_iff_twins h_names h_names' h_accepts h_accepts'
  · obtain ⟨front, name, h_for⟩ := h_ran.exists_isFor h_c
    exact ⟨_, h_for.source_eq, h_for.target_eq⟩
  · exact h_ran.sorted.imp_of_mem fun {c c'} h_c h_c' h_lt =>
      ⟨ne_of_lt h_lt, h_twins c h_c c' h_c'⟩
  · -- what has been written is still there, since no later call touches it
    have h_c : c ∈ calls := by simp [h_calls]
    obtain ⟨front, name, h_for⟩ := h_ran.exists_isFor h_c
    obtain ⟨o, d₁, h_outcome, h_write⟩ := h_ok.written
    have h_course := h_ran.course
    rw [h_calls] at h_course
    have h_file : (c.after b).get? c.target.route =
        some (.file o.program.encode.pretty.toUTF8) := by
      rw [Disk.get?_route_of_write h_write, if_pos rfl]
    refine ⟨o, h_outcome, h_course.after_call.kept h_file fun c' h_c' => ?_⟩
    have h_mem : c' ∈ calls := by simp [h_calls, h_c']
    obtain ⟨front', name', h_for'⟩ := h_ran.exists_isFor h_mem
    exact h_for.not_touches h_b h_for' h_ok fun h_ok' h_same =>
      h_later c' h_c' h_ok' ((h_twins c h_c c' h_mem).1 h_same)

/-- The files are twins, so they have the same output, and that of the second one lasts. -/
theorem transformDirectory_overwrites_twins_second :
    let d := twinFiles (Program.mk [] .synthetic).encode.pretty.toUTF8
      (Program.mk [.empty {}] .synthetic).encode.pretty.toUTF8
    ∃ session c c', Session.ofConfig {} = .ok session ∧
      Twins ["a.JSON"] ["a.json"] ∧
      outputOf {} (.ofText "out") ["a.JSON"] = outputOf {} (.ofText "out") ["a.json"] ∧
      calls {} (.ofText "in") (.ofText "out") { session } d = [c, c'] ∧
      c.Succeeds {} ∧ c'.Succeeds {} ∧
      c'.source = .ofText "in/a.json" ∧
      ∃ o, outcome c'.progress.session c'.disk c'.source = .ok o ∧
        (transformDirectory {} Disk.fileSystem (.ofText "in") (.ofText "out") { session } d).2.get?
          c'.target.route = some (.file o.program.encode.pretty.toUTF8) := by
  intro d
  obtain ⟨session, h_session, h_skip⟩ := exists_session_twinFiles
  obtain ⟨-, -, c, c', -, -, -, h_calls, h_source, h_ok, h_ok'⟩ :=
    transformDirectory_twinFiles decodeText?_empty decodeText?_emptyStatement h_skip
  obtain ⟨h_outputs, -, -, h_lasts⟩ := transformDirectory_overwrites_twins false (.ofText "in")
    (.ofText "out") { session } d
  refine ⟨session, c, c', h_session, twins_twinFiles, ?_, h_calls, h_ok, h_ok', h_source,
    h_lasts [c] c' [] h_calls h_ok' (by simp)⟩
  have h_mem : ["a.JSON"] ∈ sources {} d (.ofText "in") ∧
      ["a.json"] ∈ sources {} d (.ofText "in") := by
    rw [sources_twinFiles]
    decide
  exact (h_outputs rfl _ h_mem.1 _ h_mem.2).2 twins_twinFiles

/-- Both files succeed, and what has come of the first one is nowhere to be found. -/
theorem transformDirectory_loses_output :
    let first : Program := ⟨[], .synthetic⟩
    let second : Program := ⟨[.empty {}], .synthetic⟩
    let d := twinFiles first.encode.pretty.toUTF8 second.encode.pretty.toUTF8
    ∃ session s g' d', Session.ofConfig {} = .ok session ∧
      transformDirectory {} Disk.fileSystem (.ofText "in") (.ofText "out") { session } d =
        ((.ok s, g'), d') ∧
      sources {} d (.ofText "in") = [["a.JSON"], ["a.json"]] ∧
      outputOf {} (.ofText "out") ["a.JSON"] = outputOf {} (.ofText "out") ["a.json"] ∧
      s.processed = 2 ∧ s.errors = [] ∧ d'.list (.ofText "out") = .ok ["a.json"] ∧
      d'.get? ["out", "a.json"] = some (.file second.encode.pretty.toUTF8) ∧
      first.encode.pretty ≠ second.encode.pretty := by
  obtain ⟨session, h_session, h_skip⟩ := exists_session_twinFiles
  have h_first := decodeText?_empty
  have h_second := decodeText?_emptyStatement
  obtain ⟨s, g', -, -, h_run, h_processed, h_errors, -⟩ :=
    transformDirectory_twinFiles h_first h_second h_skip
  refine ⟨session, s, g', _, h_session, h_run, sources_twinFiles _ _, outputOf_twinFiles,
    h_processed, h_errors, rfl, rfl, ?_⟩
  -- the same text would be read as both programs
  intro h_same
  rw [h_same, h_second] at h_first
  cases h_first

end Batch

end AsyncMarkers
