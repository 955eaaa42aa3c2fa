import AsyncMarkers.Disk.IoError
import AsyncMarkers.Disk.Path

/-!
# File systems

The operations on files and directories that everything else is written with. They can be run on a
`Disk`, which is a value, or on the files of the machine.
-/

namespace AsyncMarkers

/-- Operations on files and directories. -/
structure FileSystem (m : Type → Type) where
  /-- Whether a directory is there. -/
  isDirectory : Path → m Bool
  /-- Whether a file or a directory is there. -/
  isPresent : Path → m Bool
  read : Path → m (Except IoError ByteArray)
  /-- Makes or overwrites a file. -/
  write : Path → ByteArray → m (Except IoError Unit)
  /-- Makes one directory. -/
  makeDirectory : Path → m (Except IoError Unit)
  /-- The names of what a directory holds, in any order. -/
  list : Path → m (Except IoError (List String))

namespace FileSystem

variable {m : Type → Type} [Monad m]

/-- Reads a file that holds text. -/
def readText (fs : FileSystem m) (p : Path) : m (Except IoError String) := do
  match ← fs.read p with
  | .error e => return .error e
  | .ok bytes =>
    match String.fromUTF8? bytes with
    | some text => return .ok text
    | none => return .error .notText

/-- Makes or overwrites a file that holds text. -/
def writeText (fs : FileSystem m) (p : Path) (text : String) : m (Except IoError Unit) :=
  fs.write p text.toUTF8

/-- Makes or overwrites a file with what another one holds. -/
def copy (fs : FileSystem m) (source target : Path) : m (Except IoError Unit) := do
  if ← fs.isDirectory source then return .error .notFile
  else
    match ← fs.read source with
    | .error e => return .error e
    | .ok bytes => fs.write target bytes

/-- Makes a directory; it is no failure if that fails and the directory is there. -/
def ensureDirectory (fs : FileSystem m) (p : Path) : m (Except IoError Unit) := do
  match ← fs.makeDirectory p with
  | .ok () => return .ok ()
  | .error e => if ← fs.isDirectory p then return .ok () else return .error e

/-- Makes a directory. If something is missing on the way to it, `parents` has to make that
first. -/
def makeBelow (fs : FileSystem m) (p : Path) (parents : m (Except IoError Unit)) :
    m (Except IoError Unit) := do
  match ← fs.makeDirectory p with
  | .ok () => return .ok ()
  | .error .notFound =>
    match ← parents with
    | .ok () => fs.ensureDirectory p
    | .error e => return .error e
  | .error e => if ← fs.isDirectory p then return .ok () else return .error e

/-- Makes the directories on the way along the given segments behind the first one, last first. -/
def makeAncestors (fs : FileSystem m) (head : Segment) : List Segment → m (Except IoError Unit)
  | [] =>
    if head = .empty then fs.makeBelow ⟨.empty, [.empty]⟩ (return .error .noParent)
    else fs.makeBelow ⟨head, []⟩ (return .ok ())
  | segment :: segments =>
    if Path.isBlank segment.text then makeAncestors fs head segments
    else fs.makeBelow ⟨head, (segment :: segments).reverse⟩ (makeAncestors fs head segments)

/-- Makes a directory, and before it the ones on the way to it. -/
def makeDirectories (fs : FileSystem m) (p : Path) : m (Except IoError Unit) :=
  if p = .empty then return .ok ()
  else
    fs.makeBelow p <|
      match p.backwards with
      | _ :: segments => makeAncestors fs p.head segments
      | [] => return if p.head = .empty then .error .noParent else .ok ()

end FileSystem

end AsyncMarkers
