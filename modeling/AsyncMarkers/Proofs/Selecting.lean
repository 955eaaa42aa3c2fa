import AsyncMarkers.Proofs.Matching
import AsyncMarkers.Selection

/-!
# The files that are selected by default

The default pattern consists of texts that stand for themselves, of a set repeated, and of the marks
for the start and the end of the text. What each of these matches is said here for all texts and
sets (`Pattern.matches_literal`, `Pattern.matches_star_ofSet`). Put together, they say which names
the default pattern matches (`Pattern.search_byDefault_iff`), and so which files are selected
(`Selector.byDefault_selects_iff`).
-/

namespace AsyncMarkers

/-- The set of a single character has no other one. -/
theorem CharSet.contains_single {c d : Char} : (single c).contains d = true ↔ d = c := by
  have h_le : c ≤ d ∧ d ≤ c ↔ d = c :=
    ⟨fun h => Char.le_antisymm h.2 h.1, fun h => h ▸ ⟨Char.le_refl _, Char.le_refl _⟩⟩
  simpa [single, contains] using h_le

/-- Every character but the line feed may stand within a line. -/
theorem CharSet.contains_withinLine {c : Char} : withinLine.contains c = true ↔ c ≠ '\n' := by
  rw [withinLine, contains, Bool.not_eq_true', ← Bool.not_eq_true, contains_single]

namespace Cursor

/-- All of a text is read from its start to its end. -/
theorem reads_whole_iff {text w : List Char} :
    Reads ⟨[], text⟩ w ⟨text.reverse, []⟩ ↔ text = w := by
  simp [Reads]

/-- A place with nothing before it is the start of its text. -/
theorem eq_of_atStart {a : Cursor} (h : a.atStart = true) : a = ⟨[], a.text⟩ := by
  obtain ⟨u, x⟩ := a
  obtain rfl : u = [] := List.isEmpty_iff.1 h
  rfl

/-- A place with nothing behind it is the end of its text. -/
theorem eq_of_atEnd {a : Cursor} (h : a.atEnd = true) : a = ⟨a.text.reverse, []⟩ := by
  obtain ⟨u, x⟩ := a
  obtain rfl : x = [] := List.isEmpty_iff.1 h
  simp [text]

end Cursor

namespace Pattern

variable {p : Pattern} {ps : List Pattern} {set : CharSet} {a b : Cursor}

/-- A sequence matches part by part. -/
theorem matches_sequence_cons :
    (sequence (p :: ps)).Matches a b ↔ ∃ m, p.Matches a m ∧ (sequence ps).Matches m b := by
  cases ps with
  | nil => simp [sequence, Matches]
  | cons q ps => rfl

/-- A character matches itself. -/
theorem matches_char {c : Char} : (ofSet (.single c)).Matches a b ↔ a.Reads [c] b := by
  simp only [ofSet, Matches, CharSet.contains_single, exists_eq_left]

/-- A text that stands for itself. -/
def literal (text : String) : Pattern := sequence (text.toList.map fun c => ofSet (.single c))

/-- A text matches itself. -/
theorem matches_literal {text : String} : (literal text).Matches a b ↔ a.Reads text.toList b := by
  unfold literal
  generalize text.toList = cs
  induction cs generalizing a with
  | nil => exact Cursor.reads_nil.symm
  | cons c cs ih =>
    rw [List.map_cons, matches_sequence_cons, ← List.singleton_append, Cursor.reads_append]
    simp only [ih, matches_char]

/-- A set repeated matches the texts over that set. -/
theorem matches_star_ofSet :
    (star (ofSet set)).Matches a b ↔ ∃ w, (∀ c ∈ w, set.contains c = true) ∧ a.Reads w b := by
  constructor
  · intro h
    -- the characters are read one by one, from the first one on
    induction h using Relation.ReflTransGen.head_induction_on with
    | refl => exact ⟨[], by simp, Cursor.reads_nil.2 rfl⟩
    | head h_first _ ih =>
      obtain ⟨c, h_c, h_read⟩ := h_first
      obtain ⟨w, h_w, h_rest⟩ := ih
      exact ⟨[c] ++ w, List.forall_mem_cons.2 ⟨h_c, h_w⟩, Cursor.reads_append.2 ⟨_, h_read, h_rest⟩⟩
  · rintro ⟨w, h_w, h_read⟩
    induction w generalizing a with
    | nil =>
      rw [Cursor.reads_nil.1 h_read]
      exact .refl
    | cons c w ih =>
      obtain ⟨h_c, h_w⟩ := List.forall_mem_cons.1 h_w
      rw [← List.singleton_append, Cursor.reads_append] at h_read
      obtain ⟨m, h_first, h_rest⟩ := h_read
      exact .head ⟨c, h_c, h_first⟩ (ih h_w h_rest)

/-- What stands at the end of the names that the default pattern matches. -/
def ending : Pattern :=
  sequence [ofSet (.single '.'), ofSet (.single '_'), .alt (literal "js") (literal "coffee")]

/-- The ending is one of two texts. -/
theorem matches_ending :
    ending.Matches a b ↔ a.Reads "._js".toList b ∨ a.Reads "._coffee".toList b := by
  simp only [ending, sequence, Matches, matches_char, matches_literal, and_or_left, exists_or,
    ← Cursor.reads_append]
  exact Iff.rfl

/-- The pattern that file names are searched for by default. -/
def byDefault : Pattern :=
  sequence [.start,
    .alt (literal "unknown") (.seq (.star (ofSet .withinLine)) ending), .stop]

/-- The default pattern is read as this one. -/
theorem parse?_default : parse? ({} : Config).filePattern = some byDefault := rfl

/-- A match of the default pattern reads a text from its start to its end. -/
theorem matches_byDefault :
    byDefault.Matches a b ↔ a.atStart = true ∧ b.atEnd = true ∧
      (a.Reads "unknown".toList b ∨ ∃ w, '\n' ∉ w ∧
        (a.Reads (w ++ "._js".toList) b ∨ a.Reads (w ++ "._coffee".toList) b)) := by
  -- what is repeated is any character within a line
  have h_lines (w : List Char) :
      (∀ c ∈ w, CharSet.withinLine.contains c = true) ↔ '\n' ∉ w := by
    simp only [CharSet.contains_withinLine]
    exact ⟨fun h h_mem => h _ h_mem rfl, fun h c h_c h_eq => h (h_eq ▸ h_c)⟩
  simp only [byDefault, sequence, Matches, matches_literal, matches_ending, Cursor.reads_append]
  constructor
  · rintro ⟨_, ⟨rfl, h_start⟩, _, h_name, rfl, h_end⟩
    refine ⟨h_start, h_end, h_name.imp id ?_⟩
    rintro ⟨m, h_star, h_ending⟩
    obtain ⟨w, h_w, h_read⟩ := matches_star_ofSet.1 h_star
    exact ⟨w, (h_lines w).1 h_w, h_ending.imp (⟨m, h_read, ·⟩) (⟨m, h_read, ·⟩)⟩
  · rintro ⟨h_start, h_end, h_name⟩
    refine ⟨a, ⟨rfl, h_start⟩, b, h_name.imp id ?_, rfl, h_end⟩
    rintro ⟨w, h_w, ⟨m, h_read, h_ending⟩ | ⟨m, h_read, h_ending⟩⟩
    · exact ⟨m, matches_star_ofSet.2 ⟨w, (h_lines w).2 h_w, h_read⟩, .inl h_ending⟩
    · exact ⟨m, matches_star_ofSet.2 ⟨w, (h_lines w).2 h_w, h_read⟩, .inr h_ending⟩

/-- The names that the default pattern matches. -/
theorem search_byDefault_iff {name : String} :
    byDefault.search name = true ↔ name = "unknown" ∨
      ∃ w : String, '\n' ∉ w.toList ∧ (name = w ++ "._js" ∨ name = w ++ "._coffee") := by
  -- the match is the whole name
  have h_whole : (∃ a b : Cursor, a.text = name.toList ∧ byDefault.Matches a b) ↔
      byDefault.Matches ⟨[], name.toList⟩ ⟨name.toList.reverse, []⟩ := by
    constructor
    · rintro ⟨a, b, h_text, h_match⟩
      obtain ⟨w, h_read⟩ := h_match.le
      obtain ⟨h_start, h_end, -⟩ := matches_byDefault.1 h_match
      rwa [Cursor.eq_of_atStart h_start, Cursor.eq_of_atEnd h_end, h_read.text_eq,
        h_text] at h_match
    · intro h_match
      exact ⟨_, _, rfl, h_match⟩
  have h_append (w ending : String) :
      name = w ++ ending ↔ name.toList = w.toList ++ ending.toList := by
    rw [← String.toList_append, String.toList_inj]
  rw [search_iff rfl, h_whole, matches_byDefault]
  simp only [Cursor.reads_whole_iff, String.toList_inj, h_append]
  constructor
  · rintro ⟨-, -, h_name⟩
    refine h_name.imp id ?_
    rintro ⟨w, h_w, h_name⟩
    exact ⟨String.ofList w, by simpa using h_w, by simpa using h_name⟩
  · intro h_name
    refine ⟨rfl, rfl, h_name.imp id ?_⟩
    rintro ⟨w, h_w, h_name⟩
    exact ⟨w.toList, h_w, h_name⟩

end Pattern

/-- **What the default pattern selects.** The pattern is well formed, and it selects the files that
are declared to be written with markers. Of those without a declaration, it selects the ones that
have no name, the name `unknown`, or a name that ends in `._js` or `._coffee` and has no line feed
before that. -/
theorem Selector.byDefault_selects_iff :
    ∃ p, Pattern.parse? ({} : Config).filePattern = some p ∧ ∀ file : FileDescriptor,
      (Selector.pattern p).selects file = true ↔
        file.kind = some .marked ∨ file.kind = none ∧
          let name := file.filename.getD "unknown"
          name = "unknown" ∨
            ∃ w : String, '\n' ∉ w.toList ∧ (name = w ++ "._js" ∨ name = w ++ "._coffee") := by
  refine ⟨.byDefault, Pattern.parse?_default, fun file => ?_⟩
  obtain ⟨filename, kind⟩ := file
  rcases kind with _ | _ | _
  · -- the name counts only if nothing is declared
    simpa [selects, FileDescriptor.displayName] using Pattern.search_byDefault_iff
  · simp [selects]
  · simp [selects]

end AsyncMarkers
