import Mathlib.Data.List.Permutation
import Mathlib.Data.List.TakeDrop
import AsyncMarkers.Batch
import AsyncMarkers.Proofs.Files
import AsyncMarkers.Proofs.JsonText
import AsyncMarkers.Proofs.TreeCodec

/-!
# Reading what a batch has written

A file that has been transformed can be the source of another transformation, if what has been
written can be read. Reading a tree stops at `Json.maxLevels` levels, and writing one does not: the
output may be nested deeper than the source, and a source is also nested deeper when it is written
than when it was read, since spans may be left out of a text and are always written.

* A file is transformed if and only if each step of the way succeeds
  (`Batch.transformFile_eq_ok_iff`), and its output is then what can be read under the target.
* A tree is read from its own text if and only if it is not nested too deep and its numbers are read
  as they were (`Program.decodeText?_pretty`).
* Both together say when the output is read back (`Batch.transformFile_output_read_back`). Nested
  blocks are written as a text that is refused (`Batch.transformFile_output_refused`).
-/

namespace AsyncMarkers

open Json

/-! ### Trees and their texts -/

/-- Whether a number is what is read when it has been written. -/
def Double.ReadsBack (x : Double) : Prop := (read? (double x).pretty).bind double? = some x

instance (x : Double) : Decidable x.ReadsBack := inferInstanceAs (Decidable (_ = _))

/-- What has been written is legible if it is read back. -/
theorem Double.legible_written_iff {x : Double} : x.Legible .written ↔ x.ReadsBack := by
  rw [ReadsBack, read?_pretty]
  rfl

/-- A program is read from its text as from its value, with the scalars respelled. -/
theorem Program.decodeText?_eq (p : Program) :
    decodeText? Program.decode? p.encode.pretty =
      Program.decode? maxLevels (p.encode.respell .written) := by
  rw [decodeText?, read?_pretty]
  rfl

/-- A program is read from its text if and only if it is not nested too deep and its numbers are
read as they were. -/
theorem Program.decodeText?_pretty (p : Program) :
    decodeText? Program.decode? p.encode.pretty = some p ↔
      p.encode.depth ≤ maxLevels ∧ ∀ x ∈ p.numbers, x.ReadsBack := by
  simp only [p.decodeText?_eq, p.restored .written maxLevels, Double.legible_written_iff]

/-! ### Nested blocks -/

/-- An empty statement in the given number of blocks. -/
def Statement.blocks : Nat → Statement
  | 0 => .empty {}
  | k + 1 => .block {} [blocks k]

/-- A value of such a statement, with all spans left out. -/
def Statement.bareBlocks : Nat → Json
  | 0 => .record [("kind", .text "Empty")]
  | k + 1 => .record [("kind", .tagged "Block" (.array [bareBlocks k]))]

/-- The program that consists of nested blocks. -/
def Program.nested (k : Nat) : Program := ⟨[.blocks k], .synthetic⟩

/-- A text of that program, with all spans left out. -/
def Program.nestedText (k : Nat) : String :=
  (Json.record [("body", .array [Statement.bareBlocks k])]).pretty

/-- Nothing in such a value is respelled. -/
theorem Statement.respell_bareBlocks (r : Respelling) (k : Nat) :
    (bareBlocks k).respell r = bareBlocks k := by
  induction k with
  | zero => simp [bareBlocks]
  | succ k ih => simp [bareBlocks, ih]

/-- Without spans, three levels are needed for every block and one for the statement in them. -/
theorem Statement.decode?_bareBlocks (k n : Nat) :
    Statement.decode? (n + 3 * k + 1) (bareBlocks k) = some (blocks k) := by
  induction k with
  | zero => rfl
  | succ k ih =>
    -- a block takes three levels, whatever is in it
    have h_block : Statement.decode? (n + 3 * k + 1 + 3) (bareBlocks (k + 1)) =
        ([bareBlocks k].mapM (Statement.decode? (n + 3 * k + 1))).bind fun ss =>
          some (.block {} ss) := rfl
    rw [Nat.mul_succ, ← Nat.add_assoc, Nat.add_right_comm, h_block]
    simp [ih, blocks]

/-- With spans, two levels more are needed for the statement in the blocks. -/
theorem Statement.decode?_blocks {k n : Nat} (h : n < 3 * k + 3) (r : Respelling) :
    Statement.decode? n ((blocks k).encode.respell r) = none := by
  -- every block takes three of the levels that are left
  induction k generalizing n with
  | zero =>
    rw [blocks, Statement.encode, respell_encodeStatement]
    exact Statement.decode?_eq_none h _ _
  | succ k ih =>
    rw [blocks, Statement.encode, respell_encodeStatement]
    by_cases h_three : n < 3
    · exact Statement.decode?_eq_none h_three _ _
    · obtain ⟨m, rfl⟩ : ∃ m, n = m + 3 := ⟨n - 3, by omega⟩
      have h_inner := ih (show m < 3 * k + 3 by omega)
      rw [respell_tagged, Statement.decode?_tagged (by decide)]
      simp [Statement.ofCase?, encodeStatements_eq, h_inner]

/-- Nested blocks are read from the text without spans if that is not nested too deep. -/
theorem Program.decodeText?_nestedText {k : Nat} (h : 3 * k + 3 ≤ maxLevels) :
    decodeText? Program.decode? (nestedText k) = some (nested k) := by
  obtain ⟨n, h_n⟩ := Nat.exists_eq_add_of_le' h
  have h_levels : maxLevels = n + 3 * k + 1 + 2 := by omega
  let value := Json.record [("body", .array [Statement.bareBlocks k])]
  have h_value : value.respell .written = value := by
    simp [value, Statement.respell_bareBlocks]
  have h_program : Program.decode? (n + 3 * k + 1 + 2) value =
      ([Statement.bareBlocks k].mapM (Statement.decode? (n + 3 * k + 1))).bind fun ss =>
        some ⟨ss, .synthetic⟩ := rfl
  rw [decodeText?, nestedText, read?_pretty, h_value, h_levels]
  simp [h_program, Statement.decode?_bareBlocks, nested]

/-- They are not read from their own text if that is nested too deep. -/
theorem Program.decodeText?_nested {k : Nat} (h : maxLevels < 3 * k + 5) :
    decodeText? Program.decode? (nested k).encode.pretty = none := by
  -- two levels are taken by the program itself
  have h_levels : maxLevels = 125 + 2 := rfl
  have h_blocks := Statement.decode?_blocks (show 125 < 3 * k + 3 by omega) .written
  rw [decodeText?_eq, h_levels]
  simp [nested, Program.encode, Program.decode?, List.lookup_cons, decodeList?, encodeStatements_eq,
    h_blocks]

namespace Batch

variable {b : Batch} {d d' : Disk}

/-! ### Transforming a file -/

/-- What is stored has been written after all other steps. -/
theorem exists_of_store {p : Path} {text : String}
    (h : b.store Disk.fileSystem p text d = (.ok (), d')) :
    ∃ d₁ d₂, b.keep Disk.fileSystem p d = (.ok (), d₁) ∧
      makeParent Disk.fileSystem p d₁ = (.ok (), d₂) ∧ d₂.write p text.toUTF8 = .ok d' := by
  rw [store, Disk.bind_apply] at h
  generalize b.keep Disk.fileSystem p d = kept at h
  -- a step that fails passes its error on
  obtain ⟨e | ⟨⟩, d₁⟩ := kept
  · cases h
  dsimp only at h
  rw [Disk.bind_apply] at h
  generalize h_parent : makeParent Disk.fileSystem p d₁ = made at h
  obtain ⟨e | ⟨⟩, d₂⟩ := made
  · cases h
  exact ⟨d₁, d₂, rfl, h_parent, Disk.write_of_write_apply h⟩

/-- A text that has been stored can be read. -/
theorem readText_of_store {p : Path} {text : String}
    (h : b.store Disk.fileSystem p text d = (.ok (), d')) :
    Disk.fileSystem.readText p d' = (.ok text, d') := by
  obtain ⟨d₁, d₂, -, -, h_write⟩ := exists_of_store h
  exact Disk.readText_eq_ok (Disk.read_of_write h_write)

/-- A file is transformed if and only if it can be read and decoded, the transformation has an
output and the output can be stored. -/
theorem transformFile_eq_ok_iff {source target : Path} {g : Progress} :
    (∃ s g', b.transformFile Disk.fileSystem source target g d = ((.ok s, g'), d')) ↔
      ∃ text program output, Disk.fileSystem.readText source d = (.ok text, d) ∧
        decodeText? Program.decode? text = some program ∧
        (g.session.transform .logged program (descriptor source)).1.result = .ok output ∧
        b.store Disk.fileSystem target output.program.encode.pretty d = (.ok (), d') := by
  constructor
  · -- each step that fails would have ended the run with its error
    rintro ⟨s, g', h⟩
    have h_disk := Disk.readText_snd d source
    rw [transformFile, Disk.bind_apply] at h
    generalize Disk.fileSystem.readText source d = read at h h_disk
    obtain ⟨e | text, d₁⟩ := read
    · cases h
    obtain rfl : d = d₁ := h_disk.symm
    dsimp only at h
    cases h_program : decodeText? Program.decode? text with
    | none =>
      rw [h_program] at h
      cases h
    | some program =>
      rw [h_program] at h
      dsimp only at h
      cases h_result : (g.session.transform .logged program (descriptor source)).1.result with
      | error e =>
        rw [h_result] at h
        cases h
      | ok output =>
        rw [h_result] at h
        dsimp only at h
        rw [Disk.bind_apply] at h
        generalize h_store : b.store Disk.fileSystem target output.program.encode.pretty d = stored
          at h
        obtain ⟨e | ⟨⟩, d₂⟩ := stored
        · cases h
        cases h
        exact ⟨text, program, output, rfl, h_program, h_result, h_store⟩
  · -- each step that succeeds is followed by the next one
    rintro ⟨text, program, output, h_read, h_program, h_result, h_store⟩
    let run := g.session.transform .logged program (descriptor source)
    refine ⟨.ofFile output.summary, { g with session := run.2 }.tell run.1.events, ?_⟩
    rw [transformFile, Disk.bind_apply, h_read]
    dsimp only
    rw [h_program]
    dsimp only
    rw [h_result]
    dsimp only
    rw [Disk.bind_apply, h_store]
    rfl

/-! ### One file -/

/-- A disk with nothing on it but one file. -/
def oneFile (text : String) : Disk where
  root := [("a.json", .file text.toUTF8)]
  wellFormed := of_decide_eq_true rfl

/-- The one file can be read. -/
theorem readText_oneFile (text : String) :
    Disk.fileSystem.readText (.ofText "a.json") (oneFile text) = (.ok text, oneFile text) := by
  have h_read : (oneFile text).read (.ofText "a.json") = .ok text.toUTF8 := rfl
  exact Disk.readText_eq_ok h_read

/-- With one file on the disk there is nothing in the way of another one. -/
theorem store_oneFile (text new : String) :
    ∃ d, store {} Disk.fileSystem (.ofText "b.json") new (oneFile text) = (.ok (), d) := by
  refine ⟨(oneFile text).put ["b.json"] (.file new.toUTF8), ?_⟩
  unfold store FileSystem.writeText
  -- nothing is asked of the text, which is not to be evaluated
  generalize new.toUTF8 = content
  rfl

/-- The one file is transformed if its text is decoded and the transformation has an output, whose
text can then be read. -/
theorem transformFile_oneFile {g : Progress} {program : Program} {output : Output} {text : String}
    (h_program : decodeText? Program.decode? text = some program)
    (h_result : (g.session.transform .logged program (descriptor (.ofText "a.json"))).1.result =
      .ok output) :
    ∃ s g' d',
      transformFile {} Disk.fileSystem (.ofText "a.json") (.ofText "b.json") g (oneFile text) =
        ((.ok s, g'), d') ∧
      Disk.fileSystem.readText (.ofText "b.json") d' = (.ok output.program.encode.pretty, d') := by
  obtain ⟨d', h_store⟩ := store_oneFile text output.program.encode.pretty
  obtain ⟨s, g', h⟩ := transformFile_eq_ok_iff.2
    ⟨text, program, output, readText_oneFile text, h_program, h_result, h_store⟩
  exact ⟨s, g', d', h, readText_of_store h_store⟩

/-! ### Reading the output -/

/-- When a file has been transformed, the text of the output is what can be read under the target.
It is read as the output if and only if that is not nested too deep and its numbers are read as they
were. -/
theorem transformFile_output_read_back {source target : Path} {g g' : Progress} {s : BatchSummary}
    (h : b.transformFile Disk.fileSystem source target g d = ((.ok s, g'), d')) :
    ∃ text program output, Disk.fileSystem.readText source d = (.ok text, d) ∧
      decodeText? Program.decode? text = some program ∧
      (g.session.transform .logged program (descriptor source)).1.result = .ok output ∧
      Disk.fileSystem.readText target d' = (.ok output.program.encode.pretty, d') ∧
      (decodeText? Program.decode? output.program.encode.pretty = some output.program ↔
        output.program.encode.depth ≤ maxLevels ∧ ∀ x ∈ output.program.numbers, x.ReadsBack) := by
  obtain ⟨text, program, output, h_read, h_program, h_result, h_store⟩ :=
    transformFile_eq_ok_iff.1 ⟨s, g', h⟩
  exact ⟨text, program, output, h_read, h_program, h_result, readText_of_store h_store,
    output.program.decodeText?_pretty⟩

/-- `f(1.5, _)` is transformed, and the output is read back. -/
theorem transformFile_output_read_back_call :
    let session : Session := Session.addMarkerRules { config := {}, selector := .always }
    let name (n : String) : Expression := .identifier (.at 1 0 1) ⟨n, false⟩
    let number : Expression := .literal (.at 1 2 5)
      (.number ⟨false, 1023 * binadeSize + binadeSize / 2, by decide⟩)
    let program : Program :=
      ⟨[.expression {} (.call (.at 1 0 9) (name "f") [number, name "_"])], .synthetic⟩
    ∃ s g' d' text output,
      transformFile {} Disk.fileSystem (.ofText "a.json") (.ofText "b.json") { session }
        (oneFile program.encode.pretty) = ((.ok s, g'), d') ∧
      (session.transform .logged program (descriptor (.ofText "a.json"))).1.result = .ok output ∧
      output.summary.counts.calls = 1 ∧
      Disk.fileSystem.readText (.ofText "b.json") d' = (.ok text, d') ∧
      decodeText? Program.decode? text = some output.program := by
  intro session name number program
  -- the text of the number is evaluated, and the text of the program is not
  have h_source : decodeText? Program.decode? program.encode.pretty = some program :=
    program.decodeText?_pretty.2 ⟨by decide, by decide +kernel⟩
  -- of the output, only this much is evaluated
  have h_output :
      (session.transform .logged program (descriptor (.ofText "a.json"))).1.result.toOption.map
        (fun o => (o.summary.counts.calls, o.program.encode.depth, o.program.numbers)) =
      some (1, 20, program.numbers) := by
    cbv
  cases h_result : (session.transform .logged program (descriptor (.ofText "a.json"))).1.result with
  | error e =>
    rw [h_result] at h_output
    cases h_output
  | ok output =>
    rw [h_result] at h_output
    obtain ⟨h_calls, h_rest⟩ := Prod.mk.inj (Option.some.inj h_output)
    obtain ⟨h_depth, h_numbers⟩ := Prod.mk.inj h_rest
    obtain ⟨s, g', d', h, -⟩ := transformFile_oneFile (g := { session }) h_source h_result
    obtain ⟨text, read, written, h_read, h_program, h_written, h_target, h_iff⟩ :=
      transformFile_output_read_back h
    -- the text that has been read is the one on the disk
    obtain rfl : program.encode.pretty = text :=
      Except.ok.inj (congrArg Prod.fst ((readText_oneFile _).symm.trans h_read))
    obtain rfl : program = read := Option.some.inj (h_source.symm.trans h_program)
    obtain rfl : output = written := Except.ok.inj (h_result.symm.trans h_written)
    refine ⟨s, g', d', _, output, h, rfl, h_calls, h_target, h_iff.2 ⟨?_, ?_⟩⟩
    · rw [h_depth]
      decide
    · rw [h_numbers]
      decide +kernel

/-- 41 nested blocks are read, passed over and written, and what has been written is refused. -/
theorem transformFile_output_refused :
    ∃ session s g' d' text, Session.ofConfig {} = .ok session ∧
      transformFile {} Disk.fileSystem (.ofText "a.json") (.ofText "b.json") { session }
        (oneFile (Program.nestedText 41)) = ((.ok s, g'), d') ∧
      Disk.fileSystem.readText (.ofText "b.json") d' = (.ok text, d') ∧
      decodeText? Program.decode? text = none := by
  -- by default, the file is not selected
  have h_selects : (Session.ofConfig {}).map (·.selects (descriptor (.ofText "a.json"))) =
    .ok false := rfl
  cases h_session : Session.ofConfig {} with
  | error e =>
    rw [h_session] at h_selects
    cases h_selects
  | ok session =>
    rw [h_session] at h_selects
    have h_skipped : session.selects (descriptor (.ofText "a.json")) = false :=
      Except.ok.inj h_selects
    have h_result :
        (session.transform .logged (.nested 41) (descriptor (.ofText "a.json"))).1.result =
        .ok ⟨.nested 41, { skipped := true }⟩ := by
      rw [Session.transform, if_neg (Bool.eq_false_iff.1 h_skipped)]
    obtain ⟨s, g', d', h, h_target⟩ := transformFile_oneFile (g := { session })
      (Program.decodeText?_nestedText (by decide)) h_result
    exact ⟨session, s, g', d', _, rfl, h, h_target, Program.decodeText?_nested (by decide)⟩

end Batch

end AsyncMarkers
