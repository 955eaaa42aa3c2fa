import AsyncMarkers.Disk.FileSystem
import AsyncMarkers.Json.Printer
import AsyncMarkers.Session
import AsyncMarkers.Text.LowerCase
import AsyncMarkers.Tree.Encode

/-!
# Batches of files

A tree is kept in a file as JSON text, under the name of the source it stands for and one extension
more. `Batch.transformFile` reads one, transforms it and writes the result;
`Batch.transformDirectory` does so for all files below a directory that have one of the batch's
extensions, in the order of their names, and goes on if one of them fails.
-/

namespace AsyncMarkers

/-- How files are found and written. -/
structure Batch where
  /-- The extensions of the files that take part, whatever their case. -/
  sourceExtensions : List String := ["json"]
  /-- The extension of the files that are written. -/
  outputExtension : String := "json"
  /-- Whether outputs stand in directories like those of the sources, or all in one. -/
  keepStructure : Bool := true
  /-- Whether files are copied before they are overwritten. -/
  backup : Bool := false

/-- What has come of files. -/
structure BatchSummary where
  processed : Nat := 0
  transformed : Nat := 0
  /-- The number of files that were not selected. -/
  skipped : Nat := 0
  directoriesMade : Nat := 0
  counts : Counts := {}
  /-- What was wrong with the other files. -/
  errors : List String := []

namespace BatchSummary

/-- Both summaries in one. -/
def merge (s t : BatchSummary) : BatchSummary where
  processed := s.processed + t.processed
  transformed := s.transformed + t.transformed
  skipped := s.skipped + t.skipped
  directoriesMade := s.directoriesMade + t.directoriesMade
  counts := s.counts + t.counts
  errors := s.errors ++ t.errors

/-- The summary of one file. -/
def ofFile (s : Summary) : BatchSummary where
  processed := 1
  transformed := if s.skipped then 0 else 1
  skipped := if s.skipped then 1 else 0
  counts := s.counts

/-- The share of files that have been transformed. -/
def successRate (s : BatchSummary) : Double := .share s.transformed s.processed

/-- Whether nothing has failed. -/
def success (s : BatchSummary) : Bool := s.errors.isEmpty

end BatchSummary

/-- Why a file or a directory has not been transformed. -/
inductive BatchError where
  | unreadable (path : Path) (cause : IoError)
  | unparsable (path : Path)
  | rejected (diagnostic : Diagnostic)
  /-- The directory to be transformed is not there. -/
  | noSource (path : Path)
  /-- Something could not be written or listed. -/
  | io (cause : IoError)

/-- The text of the error. -/
def BatchError.message : BatchError → String
  | .unreadable path _ => "reading " ++ path.text
  | .unparsable path => "parsing syntax tree in " ++ path.text
  | .rejected diagnostic => diagnostic.message
  | .noSource path => "Source directory does not exist: " ++ path.text
  | .io cause => cause.message

/-- What changes in the course of a batch. -/
structure Progress where
  session : Session
  /-- What has been told, in order. -/
  events : List Event := []
  summary : BatchSummary := {}

namespace Progress

/-- Tells something. -/
def tell (g : Progress) (events : List Event) : Progress := { g with events := g.events ++ events }

/-- Adds to the summary. -/
def add (g : Progress) (s : BatchSummary) : Progress := { g with summary := g.summary.merge s }

/-- Counts a file that has failed. -/
def fail (g : Progress) (path : Path) (e : BatchError) : Progress :=
  (g.tell [.fileFailed path.text e.message]).add
    { processed := 1, errors := ["Error processing " ++ path.text ++ ": " ++ e.message] }

end Progress

namespace Batch

variable {m : Type → Type} [Monad m]

/-- Whether a file takes part: its extension is one of the batch's, up to case. -/
def accepts (b : Batch) (p : Path) : Bool :=
  match p.extension? with
  | none => false
  | some extension => b.sourceExtensions.any fun e => lowerCase e == lowerCase extension

/-- The descriptor of the source that a file stands for. -/
def descriptor (p : Path) : FileDescriptor := { filename := some (p.withExtension "").text }

/-- The path that a file is copied to before it is overwritten. -/
def backupPath (p : Path) : Path := p.withExtension (p.extension?.getD "" ++ ".backup")

/-- Copies a file that is about to be overwritten, if it is there and that is asked for. -/
def keep (b : Batch) (fs : FileSystem m) (p : Path) : m (Except IoError Unit) := do
  if !b.backup then return .ok ()
  else if ← fs.isPresent p then fs.copy p (backupPath p)
  else return .ok ()

/-- Makes the directory that a file is to stand in. -/
def makeParent (fs : FileSystem m) (p : Path) : m (Except IoError Unit) :=
  match p.parent? with
  | some parent => fs.makeDirectories parent
  | none => return .ok ()

/-- Writes a file, after it has been copied and its directory made. -/
def store (b : Batch) (fs : FileSystem m) (p : Path) (text : String) : m (Except IoError Unit) := do
  match ← b.keep fs p with
  | .error e => return .error e
  | .ok () =>
    match ← makeParent fs p with
    | .error e => return .error e
    | .ok () => fs.writeText p text

/-- Transforms the tree in a file and writes the result to another one. -/
def transformFile (b : Batch) (fs : FileSystem m) (source target : Path) (g : Progress) :
    m (Except BatchError BatchSummary × Progress) := do
  match ← fs.readText source with
  | .error e => return (.error (.unreadable source e), g)
  | .ok text =>
    match Json.decodeText? Program.decode? text with
    | none => return (.error (.unparsable source), g)
    | some program =>
      -- the statistics go on even if the program is rejected
      let (report, session) := g.session.transform .logged program (descriptor source)
      let g := { g with session }.tell report.events
      match report.result with
      | .error d => return (.error (.rejected d), g)
      | .ok output =>
        match ← b.store fs target output.program.encode.pretty with
        | .error e => return (.error (.io e), g)
        | .ok () => return (.ok (.ofFile output.summary), g)

/-- Transforms a file of a directory, and counts what has come of it. -/
def transformEntry (b : Batch) (fs : FileSystem m) (source target : Path) (g : Progress) :
    m Progress := do
  match ← b.transformFile fs source target g with
  | (.ok summary, g) => return g.add summary
  | (.error e, g) => return g.fail source e

/-- Makes the directory for the outputs of a directory, if it is not there. -/
def makeOutput (b : Batch) (fs : FileSystem m) (target : Path) (g : Progress) :
    m (Except IoError Unit × Progress) := do
  if !b.keepStructure then return (.ok (), g)
  else if ← fs.isPresent target then return (.ok (), g)
  else
    match ← fs.makeDirectories target with
    | .error e => return (.error e, g)
    | .ok () => return (.ok (), g.add { directoriesMade := 1 })

/-- Does the same for names one after the other, until it fails. -/
def each (visit : String → Progress → m (Except IoError Unit × Progress)) :
    List String → Progress → m (Except IoError Unit × Progress)
  | [], g => return (.ok (), g)
  | name :: names, g => do
    match ← visit name g with
    | (.ok (), g) => each visit names g
    | (.error e, g) => return (.error e, g)

/-- The output for a file of the given name, if outputs stand in the directory `output`. -/
def outputPath (b : Batch) (output : Path) (name : String) : Path :=
  (output.child name).withExtension b.outputExtension

/-- Transforms what stands in a directory and below it, down to the given number of levels, and
writes the outputs to the directory `output` and below it. A path gets longer by two bytes at least
with every level, so that with `Path.maxBytes` levels no directory is missed. -/
def transformBelow (b : Batch) (fs : FileSystem m) :
    Nat → (directory output : Path) → Progress → m (Except IoError Unit × Progress)
  -- a path of so many levels would be too long to be listed
  | 0, _, _, g => return (.error .nameTooLong, g)
  | levels + 1, directory, output, g => do
    match ← fs.list directory with
    | .error e => return (.error e, g)
    | .ok found =>
      let visit := fun name g => do
        let path := directory.child name
        -- a directory is entered whatever its name is, and only files have to be accepted
        if ← fs.isDirectory path then
          let inner := if b.keepStructure then output.child name else output
          match ← b.makeOutput fs inner g with
          | (.error e, g) => return (.error e, g)
          | (.ok (), g) => transformBelow b fs levels path inner g
        else if b.accepts path then
          return (.ok (), ← b.transformEntry fs path (b.outputPath output name) g)
        else return (.ok (), g)
      each visit (found.mergeSort fun s t => decide (s ≤ t)) g

/-- What is told of a directory that has been transformed. -/
def directoryTransformed (s : BatchSummary) : Event :=
  .directoryTransformed s.processed s.transformed s.skipped s.errors.length

/-- Transforms all files below a directory. -/
def transformDirectory (b : Batch) (fs : FileSystem m) (source target : Path) (g : Progress) :
    m (Except BatchError BatchSummary × Progress) := do
  if !(← fs.isDirectory source) then return (.error (.noSource source), g)
  else
    let made ← if ← fs.isPresent target then pure (.ok ()) else fs.makeDirectories target
    match made with
    | .error e => return (.error (.io e), g)
    | .ok () =>
      -- the summary starts anew; the session and what has been told go on
      match ← b.transformBelow fs Path.maxBytes source target { g with summary := {} } with
      | (.error e, g) => return (.error (.io e), g)
      | (.ok (), g) => return (.ok g.summary, g.tell [directoryTransformed g.summary])

end Batch

end AsyncMarkers
