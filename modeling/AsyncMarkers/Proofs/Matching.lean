import AsyncMarkers.Pattern.Basic
import Mathlib.Logic.Relation
import Mathlib.Order.Basic

/-!
# What a pattern matches

A place in a text is a `Cursor`. A pattern relates the place where a match begins with the places
where it can end, `Pattern.Matches`: one pattern after the other is the composition of two
relations, alternatives are their union, and any number of repetitions is the reflexive and
transitive closure.

`Pattern.search` goes through a text once, and what it knows of matches that have begun are marks in
the pattern. `Pattern.Resumes` says what the marks stand for: the places where such a match can end.
What is asked of a pattern at a place (`Pattern.status`) is whether these relations hold there, and
reading a character moves the marks to where a match has come to by then
(`Pattern.resumes_shift`). So a search finds a match exactly if there is one (`Pattern.search_iff`).
-/

namespace AsyncMarkers

/-- A place in a text. -/
structure Cursor where
  /-- What stands before it, the last character first. -/
  before : List Char
  /-- What stands behind it. -/
  after : List Char

namespace Cursor

variable {a b m : Cursor} {v w : List Char}

/-- The text that the place is in. -/
def text (a : Cursor) : List Char := a.before.reverse ++ a.after

/-- Whether nothing stands before the place. -/
def atStart (a : Cursor) : Bool := a.before.isEmpty

/-- Whether nothing stands behind the place. -/
def atEnd (a : Cursor) : Bool := a.after.isEmpty

/-- Whether reading `w` leads from one place to another. -/
def Reads (a : Cursor) (w : List Char) (b : Cursor) : Prop :=
  a.after = w ++ b.after ∧ b.before = w.reverse ++ a.before

/-- Reading nothing leads nowhere else. -/
@[simp] theorem reads_nil : a.Reads [] b ↔ a = b := by
  obtain ⟨u, x⟩ := a
  obtain ⟨v, y⟩ := b
  simp [Reads, and_comm, eq_comm]

/-- A text is read part by part. -/
theorem reads_append : a.Reads (v ++ w) b ↔ ∃ m, a.Reads v m ∧ m.Reads w b := by
  constructor
  · rintro ⟨h_after, h_before⟩
    exact ⟨⟨v.reverse ++ a.before, w ++ b.after⟩, ⟨by simp [h_after], rfl⟩,
      ⟨rfl, by simp [h_before]⟩⟩
  · rintro ⟨m, ⟨h_after, h_before⟩, h_after', h_before'⟩
    exact ⟨by simp [h_after, h_after'], by simp [h_before, h_before']⟩

/-- Reading does not change the text that the place is in. -/
theorem Reads.text_eq (h : a.Reads w b) : b.text = a.text := by
  simp [text, h.1, h.2]

/-- One place comes before another if something can be read between them. -/
instance : PartialOrder Cursor where
  le a b := ∃ w, a.Reads w b
  le_refl a := ⟨[], by simp⟩
  le_trans a b c := by
    rintro ⟨v, h⟩ ⟨w, h'⟩
    exact ⟨v ++ w, reads_append.2 ⟨b, h, h'⟩⟩
  le_antisymm a b := by
    rintro ⟨v, h⟩ ⟨w, h'⟩
    -- both texts behind the places are as long as the other one
    have h_length := congrArg List.length (h.1.trans (congrArg (v ++ ·) h'.1))
    simp only [List.length_append] at h_length
    have h_nil : v = [] := List.length_eq_zero_iff.1 (by omega)
    rw [h_nil] at h
    exact reads_nil.1 h

section Next

variable {c : Char} {a' : Cursor} (h : a.Reads [c] a')

include h

/-- A place before a character is not at the end. -/
theorem Reads.atEnd_eq : a.atEnd = false := by simp [atEnd, h.1]

/-- Reading a character leads to another place. -/
theorem Reads.ne : a' ≠ a := by
  rintro rfl
  simpa using congrArg List.length h.1

/-- There is one character to be read. -/
theorem Reads.one_iff {c' : Char} : a.Reads [c'] b ↔ c' = c ∧ b = a' := by
  obtain ⟨h_after, h_before⟩ := h
  constructor
  · rintro ⟨h_after', h_before'⟩
    obtain ⟨rfl, h_rest⟩ := List.cons.inj (h_after'.symm.trans h_after)
    refine ⟨rfl, ?_⟩
    obtain ⟨v, y⟩ := b
    obtain ⟨v', y'⟩ := a'
    rw [Cursor.mk.injEq]
    exact ⟨h_before'.trans h_before.symm, h_rest⟩
  · rintro ⟨rfl, rfl⟩
    exact ⟨h_after, h_before⟩

/-- What comes later is the place itself, or comes after the character has been read. -/
theorem Reads.le_iff : a ≤ b ↔ b = a ∨ a' ≤ b := by
  constructor
  · rintro ⟨w, h_w⟩
    cases w with
    | nil => exact .inl (reads_nil.1 h_w).symm
    | cons c' w =>
      obtain ⟨m, h_first, h_rest⟩ := reads_append.1 (show a.Reads ([c'] ++ w) b from h_w)
      obtain ⟨-, rfl⟩ := h.one_iff.1 h_first
      exact .inr ⟨w, h_rest⟩
  · rintro (rfl | h_later)
    · exact le_refl b
    · exact le_trans ⟨[c], h⟩ h_later

end Next

end Cursor

namespace Pattern

variable {p q : Pattern} {a b : Cursor}

/-! ### Matches -/

/-- Whether a match that begins at one place can end at another. -/
def Matches : Pattern → Cursor → Cursor → Prop
  | .empty, a, b => a = b
  | .one set _, a, b => ∃ c, set.contains c = true ∧ a.Reads [c] b
  | .start, a, b => a = b ∧ a.atStart = true
  | .stop, a, b => a = b ∧ a.atEnd = true
  | .seq p q, a, b => ∃ m, p.Matches a m ∧ q.Matches m b
  | .alt p q, a, b => p.Matches a b ∨ q.Matches a b
  | .star p, a, b => Relation.ReflTransGen p.Matches a b

/-- Whether a match that has been read along the marks, up to one place, can end at another. -/
def Resumes : Pattern → Cursor → Cursor → Prop
  | .one _ marked, a, b => a = b ∧ marked = true
  | .seq p q, a, b => (∃ m, p.Resumes a m ∧ q.Matches m b) ∨ q.Resumes a b
  | .alt p q, a, b => p.Resumes a b ∨ q.Resumes a b
  | .star p, a, b => ∃ m, p.Resumes a m ∧ Relation.ReflTransGen p.Matches m b
  | _, _, _ => False

/-- A match goes forward. -/
theorem Matches.le (h : p.Matches a b) : a ≤ b := by
  induction p generalizing a b with
  | empty => exact le_of_eq h
  | one set marked =>
    obtain ⟨c, -, h_read⟩ := h
    exact ⟨[c], h_read⟩
  | start => exact le_of_eq h.1
  | stop => exact le_of_eq h.1
  | seq p q ih_p ih_q =>
    obtain ⟨m, h_p, h_q⟩ := h
    exact (ih_p h_p).trans (ih_q h_q)
  | alt p q ih_p ih_q => exact h.elim ih_p ih_q
  | star p ih =>
    -- over the repetitions, each of which goes forward
    induction h with
    | refl => exact le_refl a
    | tail _ h_last ih_rest => exact ih_rest.trans (ih h_last)

/-- Repetitions go forward. -/
theorem le_of_reflTransGen (h : Relation.ReflTransGen p.Matches a b) : a ≤ b :=
  Matches.le (p := .star p) h

/-- A match that has begun goes forward from where it has come to. -/
theorem Resumes.le (h : p.Resumes a b) : a ≤ b := by
  induction p generalizing a b with
  | empty => exact h.elim
  | one set marked => exact le_of_eq h.1
  | start => exact h.elim
  | stop => exact h.elim
  | seq p q ih_p ih_q =>
    obtain ⟨m, h_p, h_q⟩ | h_q := h
    · exact (ih_p h_p).trans h_q.le
    · exact ih_q h_q
  | alt p q ih_p ih_q => exact h.elim ih_p ih_q
  | star p ih =>
    obtain ⟨m, h_p, h_rest⟩ := h
    exact (ih h_p).trans (le_of_reflTransGen h_rest)

/-- What goes forward twice and ends where it began has not moved. -/
theorem exists_and_iff_of_le {R S : Cursor → Cursor → Prop} (h_R : ∀ a b, R a b → a ≤ b)
    (h_S : ∀ a b, S a b → a ≤ b) : (∃ m, R a m ∧ S m a) ↔ R a a ∧ S a a := by
  constructor
  · rintro ⟨m, h_first, h_second⟩
    obtain rfl : a = m := le_antisymm (h_R _ _ h_first) (h_S _ _ h_second)
    exact ⟨h_first, h_second⟩
  · rintro ⟨h_first, h_second⟩
    exact ⟨a, h_first, h_second⟩

/-- A pattern can be skipped where it matches the empty text. -/
theorem skippable_iff :
    (p.status a.atStart a.atEnd).skippable = true ↔ p.Matches a a := by
  induction p with
  | empty => simp [status, Matches]
  | one set marked => simp [status, Matches, Cursor.Reads]
  | start => simp [status, Matches]
  | stop => simp [status, Matches]
  | seq p q ih_p ih_q =>
    rw [Matches, exists_and_iff_of_le (fun _ _ => Matches.le) fun _ _ => Matches.le, ← ih_p, ← ih_q]
    simp [status]
  | alt p q ih_p ih_q =>
    rw [Matches, ← ih_p, ← ih_q]
    simp [status]
  | star p ih => exact iff_of_true rfl .refl

/-- A match is complete where it can end without reading on. -/
theorem complete_iff :
    (p.status a.atStart a.atEnd).complete = true ↔ p.Resumes a a := by
  induction p with
  | empty => simp [status, Resumes]
  | one set marked => simp [status, Resumes]
  | start => simp [status, Resumes]
  | stop => simp [status, Resumes]
  | seq p q ih_p ih_q =>
    rw [Resumes, exists_and_iff_of_le (fun _ _ => Resumes.le) fun _ _ => Matches.le, ← ih_p, ← ih_q,
      ← skippable_iff]
    simp [status]
  | alt p q ih_p ih_q =>
    rw [Resumes, ← ih_p, ← ih_q]
    simp [status]
  | star p ih =>
    rw [Resumes, exists_and_iff_of_le (fun _ _ => Resumes.le) fun _ _ => le_of_reflTransGen, ← ih]
    simp [status, Relation.ReflTransGen.refl]

/-! ### Reading a character -/

/-- Marks do not change what a pattern matches. -/
theorem matches_shift (p : Pattern) (atStart : Bool) (c : Char) (entered : Bool) :
    (p.shift atStart c entered).Matches = p.Matches := by
  -- a part of a pattern may be entered when the whole is not
  induction p generalizing entered with
  | empty | start | stop => rfl
  | one set marked => rfl
  | seq p q ih_p ih_q =>
    funext a b
    simp only [shift, Matches, ih_p, ih_q]
  | alt p q ih_p ih_q =>
    funext a b
    simp only [shift, Matches, ih_p, ih_q]
  | star p ih =>
    funext a b
    simp only [shift, Matches, ih]

/-- Repetitions that get anywhere begin with one that does. -/
theorem exists_of_reflTransGen (h : Relation.ReflTransGen p.Matches a b) (h_ne : b ≠ a) :
    ∃ m, m ≠ a ∧ p.Matches a m ∧ Relation.ReflTransGen p.Matches m b := by
  induction h using Relation.ReflTransGen.head_induction_on with
  | refl => exact absurd rfl h_ne
  | @head a m h_first h_rest ih =>
    -- a repetition that reads nothing is passed over
    by_cases h_idle : m = a
    · rw [h_idle] at ih
      exact ih h_ne
    · exact ⟨m, h_idle, h_first, h_rest⟩

/-- What goes forward from a place and has left it does not come back. -/
theorem ne_of_le {m : Cursor} (h : a ≤ m) (h_ne : m ≠ a) (h' : m ≤ b) : b ≠ a := by
  rintro rfl
  exact h_ne (le_antisymm h' h)

/-- Where a match has come to when a character has been read. It has begun before the character, if
the pattern could be entered there, or earlier. -/
theorem resumes_shift {c : Char} {a' : Cursor} (h : a.Reads [c] a') (p : Pattern) (entered : Bool)
    (b : Cursor) :
    (p.shift a.atStart c entered).Resumes a' b ↔
      b ≠ a ∧ (entered = true ∧ p.Matches a b ∨ p.Resumes a b) := by
  have h_skip (p : Pattern) : (p.status a.atStart false).skippable = true ↔ p.Matches a a := by
    rw [← h.atEnd_eq, skippable_iff]
  have h_complete (p : Pattern) : (p.status a.atStart false).complete = true ↔ p.Resumes a a := by
    rw [← h.atEnd_eq, complete_iff]
  -- a part of the pattern has read the character, and the parts before it have ended at `a`
  induction p generalizing entered b with
  | empty | start | stop =>
    -- these patterns read nothing
    simp only [shift, Resumes, Matches]
    grind
  | one set marked =>
    simp only [shift, Resumes, Matches, h.one_iff, Bool.and_eq_true]
    have h_ne := h.ne
    grind
  | seq p q ih_p ih_q =>
    simp only [shift, Resumes, Matches, ih_p, ih_q, matches_shift, Bool.or_eq_true,
      Bool.and_eq_true, h_skip, h_complete]
    constructor
    · rintro (⟨m, ⟨h_ne, h_first⟩, h_second⟩ | ⟨h_ne, h_second⟩)
      · -- the character is read in the first pattern
        rcases h_first with ⟨h_entered, h_p⟩ | h_p
        · exact ⟨ne_of_le h_p.le h_ne h_second.le, .inl ⟨h_entered, m, h_p, h_second⟩⟩
        · exact ⟨ne_of_le h_p.le h_ne h_second.le, .inr (.inl ⟨m, h_p, h_second⟩)⟩
      · -- it is read in the second one, and the first one ends before it
        refine ⟨h_ne, ?_⟩
        rcases h_second with ⟨⟨h_entered, h_p⟩ | h_p, h_q⟩ | h_q
        · exact .inl ⟨h_entered, a, h_p, h_q⟩
        · exact .inr (.inl ⟨a, h_p, h_q⟩)
        · exact .inr (.inr h_q)
    · -- which of the two reads it depends on where the first one ends
      rintro ⟨h_ne, ⟨h_entered, m, h_p, h_q⟩ | ⟨m, h_p, h_q⟩ | h_q⟩
      · by_cases h_here : m = a
        · subst h_here
          exact .inr ⟨h_ne, .inl ⟨.inl ⟨h_entered, h_p⟩, h_q⟩⟩
        · exact .inl ⟨m, ⟨h_here, .inl ⟨h_entered, h_p⟩⟩, h_q⟩
      · by_cases h_here : m = a
        · subst h_here
          exact .inr ⟨h_ne, .inl ⟨.inr h_p, h_q⟩⟩
        · exact .inl ⟨m, ⟨h_here, .inr h_p⟩, h_q⟩
      · exact .inr ⟨h_ne, .inr h_q⟩
  | alt p q ih_p ih_q =>
    simp only [shift, Resumes, Matches, ih_p, ih_q]
    grind
  | star p ih =>
    simp only [shift, Resumes, Matches, ih, matches_shift, Bool.or_eq_true, h_complete]
    constructor
    · -- the repetition that reads the character begins here, or it has begun before
      rintro ⟨m, ⟨h_ne, h_first⟩, h_rest⟩
      rcases h_first with ⟨h_entered | h_p, h_again⟩ | h_p
      · exact ⟨ne_of_le h_again.le h_ne (le_of_reflTransGen h_rest),
          .inl ⟨h_entered, .head h_again h_rest⟩⟩
      · exact ⟨ne_of_le h_again.le h_ne (le_of_reflTransGen h_rest),
          .inr ⟨a, h_p, .head h_again h_rest⟩⟩
      · exact ⟨ne_of_le h_p.le h_ne (le_of_reflTransGen h_rest), .inr ⟨m, h_p, h_rest⟩⟩
    · rintro ⟨h_ne, ⟨h_entered, h_all⟩ | ⟨m, h_p, h_rest⟩⟩
      · -- a repetition that reads the character is the first one that reads anything
        obtain ⟨m, h_here, h_first, h_rest⟩ := exists_of_reflTransGen h_all h_ne
        exact ⟨m, ⟨h_here, .inl ⟨.inl h_entered, h_first⟩⟩, h_rest⟩
      · -- the repetition that has begun before may have ended here
        by_cases h_here : m = a
        · subst h_here
          obtain ⟨m', h_there, h_first, h_rest⟩ := exists_of_reflTransGen h_rest h_ne
          exact ⟨m', ⟨h_there, .inl ⟨.inr h_p, h_first⟩⟩, h_rest⟩
        · exact ⟨m, ⟨h_here, .inr h_p⟩, h_rest⟩

/-! ### Searching -/

/-- A match is found where one that reads nothing, or one that has begun before, can end. -/
theorem isFound_iff : p.isFound a.atStart a.atEnd = true ↔ p.Matches a a ∨ p.Resumes a a := by
  rw [← skippable_iff, ← complete_iff]
  simp [isFound]

/-- A search from a place on finds a match that has come there along the marks, or one that begins
there or later. -/
theorem searchFrom_iff :
    p.searchFrom a.atStart a.after = true ↔
      (∃ b, p.Resumes a b) ∨ ∃ m b, a ≤ m ∧ p.Matches m b := by
  obtain ⟨u, x⟩ := a
  induction x generalizing p u with
  | nil =>
    -- nothing comes later than the end of the text
    have h_end (b : Cursor) (h : (⟨u, []⟩ : Cursor) ≤ b) : b = ⟨u, []⟩ := by
      obtain ⟨w, h_after, h_before⟩ := h
      obtain ⟨rfl, h_rest⟩ := List.append_eq_nil_iff.1 h_after.symm
      obtain ⟨v, y⟩ := b
      exact Cursor.mk.injEq .. ▸ ⟨h_before, h_rest⟩
    refine (isFound_iff (a := ⟨u, []⟩)).trans ⟨?_, ?_⟩
    · rintro (h_match | h_resume)
      · exact .inr ⟨_, _, le_refl _, h_match⟩
      · exact .inl ⟨_, h_resume⟩
    · rintro (⟨b, h_resume⟩ | ⟨m, b, h_le, h_match⟩)
      · obtain rfl := h_end b h_resume.le
        exact .inr h_resume
      · obtain rfl := h_end m h_le
        obtain rfl := h_end b h_match.le
        exact .inl h_match
  | cons c x ih =>
    -- a match ends here, or it is found when the character has been read: the rest of the text is
    -- searched with the marks moved on, and with a new match begun before the character
    have h_next : Cursor.Reads ⟨u, c :: x⟩ [c] ⟨c :: u, x⟩ := ⟨rfl, rfl⟩
    have h_rest := ih (p := p.shift (Cursor.atStart ⟨u, c :: x⟩) c true) (c :: u)
    simp only [resumes_shift h_next, matches_shift, true_and] at h_rest
    have h_both := or_congr (isFound_iff (p := p) (a := ⟨u, c :: x⟩)) h_rest
    rw [← Bool.or_eq_true] at h_both
    refine h_both.trans ⟨?_, ?_⟩
    · rintro ((h_match | h_resume) | ⟨b, -, h_match | h_resume⟩ | ⟨m, b, h_le, h_match⟩)
      · exact .inr ⟨_, _, le_refl _, h_match⟩
      · exact .inl ⟨_, h_resume⟩
      · exact .inr ⟨_, b, le_refl _, h_match⟩
      · exact .inl ⟨b, h_resume⟩
      · exact .inr ⟨m, b, h_next.le_iff.2 (.inr h_le), h_match⟩
    · -- a match that ends here is found now, and any other one later
      rintro (⟨b, h_resume⟩ | ⟨m, b, h_le, h_match⟩)
      · by_cases h_here : b = ⟨u, c :: x⟩
        · exact .inl (.inr (h_here ▸ h_resume))
        · exact .inr (.inl ⟨b, h_here, .inr h_resume⟩)
      · rcases h_next.le_iff.1 h_le with rfl | h_later
        · by_cases h_here : b = ⟨u, c :: x⟩
          · exact .inl (.inl (h_here ▸ h_match))
          · exact .inr (.inl ⟨b, h_here, .inl h_match⟩)
        · exact .inr (.inr ⟨m, b, h_later, h_match⟩)

/-- Whether a pattern has marks. -/
def isMarked : Pattern → Bool
  | .one _ marked => marked
  | .seq p q | .alt p q => p.isMarked || q.isMarked
  | .star p => p.isMarked
  | _ => false

/-- Only a pattern with marks has a match that has begun. -/
theorem Resumes.isMarked (h : p.Resumes a b) : p.isMarked = true := by
  induction p generalizing a b with
  | empty | start | stop => exact h.elim
  | one set marked => exact h.2
  | seq p q ih_p ih_q =>
    rw [Pattern.isMarked, Bool.or_eq_true]
    obtain ⟨m, h_p, -⟩ | h_q := h
    · exact .inl (ih_p h_p)
    · exact .inr (ih_q h_q)
  | alt p q ih_p ih_q =>
    rw [Pattern.isMarked, Bool.or_eq_true]
    exact h.imp ih_p ih_q
  | star p ih =>
    obtain ⟨m, h_p, -⟩ := h
    exact ih h_p

/-- A search for a pattern without marks finds a match exactly if there is one, wherever it begins
and ends in the text. -/
theorem search_iff (h : p.isMarked = false) {text : String} :
    p.search text = true ↔ ∃ a b : Cursor, a.text = text.toList ∧ p.Matches a b := by
  refine (searchFrom_iff (a := ⟨[], text.toList⟩)).trans ⟨?_, ?_⟩
  · rintro (⟨b, h_resume⟩ | ⟨a, b, ⟨w, h_read⟩, h_match⟩)
    · -- without marks, no match has begun
      cases h.symm.trans h_resume.isMarked
    · exact ⟨a, b, h_read.text_eq, h_match⟩
  · rintro ⟨a, b, h_text, h_match⟩
    exact .inr ⟨a, b, ⟨a.before.reverse, h_text.symm, by simp⟩, h_match⟩

end Pattern

end AsyncMarkers
