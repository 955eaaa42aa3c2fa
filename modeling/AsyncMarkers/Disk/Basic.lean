import AsyncMarkers.Disk.FileSystem
import AsyncMarkers.Disk.WellFormed

/-!
# Disks

A disk is a well-formed tree of files and directories below a root, and every operation leaves it
well-formed: it ends in `Disk.put`, which does nothing at the end of a route that is not made of
names. Paths are followed as usual: every segment but the last has to lead to a directory, a dot
stays where it is, two dots lead one level up (and at the root nowhere), and a slash at the end
demands a directory. Relative paths start at the root as well.
-/

namespace AsyncMarkers

/-- Files and directories. -/
structure Disk where
  /-- What the root holds. -/
  root : List (String × FileTree) := []
  wellFormed : (FileTree.directory root).WellFormed := by decide

/-- A directory on the way along a path. -/
structure Place where
  /-- The names that lead to it, the last one first. -/
  names : List String
  /-- What it holds. -/
  entries : List (String × FileTree)

/-- The route to a place. -/
def Place.route (p : Place) : Route := p.names.reverse

/-- Where a path leads to. -/
inductive Target where
  /-- To a directory that has been passed through. -/
  | passed (directory : Route)
  /-- To a name in a directory, where nothing need be; behind it there may be a slash. -/
  | named (directory : Route) (name : String) (slash : Bool)

namespace Disk

/-- The whole disk as a tree. -/
def tree (d : Disk) : FileTree := .directory d.root

/-- What stands at the end of a route. -/
def get? (d : Disk) (r : Route) : Option Entry := FileTree.entryAt (some d.tree) r

/-- What stands at the end of a route stands there under proper names. -/
theorem isName_of_get? {d : Disk} {r : Route} {e : Entry} (h : d.get? r = some e) :
    ∀ name ∈ r, IsName name := by
  rw [get?, FileTree.entryAt, Option.bind_some, Option.map_eq_some_iff] at h
  obtain ⟨t, h_tree, -⟩ := h
  exact (d.wellFormed.of_get? h_tree).2

/-- Putting something into the root at the end of a route leaves a well-formed disk. -/
theorem wellFormed_put (d : Disk) {name : String} {route : Route}
    (h : ∀ n ∈ name :: route, IsName n) (e : Entry) :
    (FileTree.directory
      (FileTree.alter name (FileTree.put (.ofEntry e) route) d.root)).WellFormed := by
  have h_tree : ∀ t ∈ some d.tree, t.WellFormed := by
    rintro _ ⟨⟩
    exact d.wellFormed
  exact (FileTree.wellFormed_ofEntry e).put h h_tree _ rfl

/-- Puts something at the end of a route, in place of what is there. -/
def put (d : Disk) : Route → Entry → Disk
  | [], _ => d
  | name :: route, e =>
    if h : ∀ n ∈ name :: route, IsName n then
      ⟨FileTree.alter name (FileTree.put (.ofEntry e) route) d.root, d.wellFormed_put h e⟩
    else d

/-- The root is a directory. -/
theorem get?_nil (d : Disk) : d.get? [] = some .directory := rfl

/-- Putting something new into a directory changes what stands at that place, and nothing else. -/
theorem get?_put {d : Disk} {r : Route} {name : String} (h_parent : d.get? r = some .directory)
    (h_name : IsName name) (h_free : d.get? (r ++ [name]) ≠ some .directory) (e : Entry)
    (r' : Route) :
    (d.put (r ++ [name]) e).get? r' = if r' = r ++ [name] then some e else d.get? r' := by
  have h_route : ∀ n ∈ r ++ [name], IsName n := by
    intro n h_n
    rcases List.mem_append.1 h_n with h_before | h_last
    · exact isName_of_get? h_parent n h_before
    · rwa [List.mem_singleton.1 h_last]
  have h_dropLast : d.get? (r ++ [name]).dropLast = some .directory := by
    rwa [List.dropLast_concat]
  generalize r ++ [name] = route at h_free h_route h_dropLast ⊢
  cases route with
  | nil => exact absurd d.get?_nil h_free
  | cons first route =>
    rw [put, dif_pos h_route]
    exact FileTree.entryAt_put e _ r' _ (.inr h_dropLast) h_free

/-- What a directory holds. -/
def entriesAt (d : Disk) (r : Route) : List (String × FileTree) :=
  match FileTree.get? r d.tree with
  | some (.directory entries) => entries
  | _ => []

/-- The names of what a directory holds. -/
def names (d : Disk) (r : Route) : List String := (d.entriesAt r).map Prod.fst

/-- Everything on the disk, with the routes to it. -/
def listing (d : Disk) : List (Route × Entry) := d.tree.listing

/-! ### Following paths -/

/-- The directory that names lead to, the last one first. -/
def place (d : Disk) (names : List String) : Place := ⟨names, d.entriesAt names.reverse⟩

/-- Where a segment leads to from a directory, if that is a directory too. -/
def enter (d : Disk) (p : Place) (segment : String) : Except IoError Place :=
  if segment = "." then .ok p
  else if segment = ".." then .ok (d.place p.names.tail)
  else if Path.maxSegmentBytes < segment.utf8ByteSize then .error .nameTooLong
  else
    match p.entries.lookup segment with
    | some (.directory entries) => .ok ⟨segment :: p.names, entries⟩
    | some (.file _) => .error .notDirectory
    | none => .error .notFound

/-- Where the last segment leads to from a directory. -/
def last (p : Place) (segment : String) (slash : Bool) : Target :=
  if segment = "." then .passed p.route
  else if segment = ".." then .passed p.route.dropLast
  else .named p.route segment slash

/-- Where a path leads to. -/
def follow (d : Disk) (p : Path) : Except IoError Target :=
  if p = .empty then .error .notFound
  else if p.text.toList.contains '\x00' then .error .zeroInPath
  else if Path.maxBytes < p.text.utf8ByteSize then .error .nameTooLong
  else
    match (p.segments.filter (· ≠ "")).reverse with
    | [] => .ok (.passed [])
    | segment :: before => do
      let place ← before.reverse.foldlM d.enter (d.place [])
      return last place segment (p.segments.getLast? = some "")

/-- What a name leads to from a directory. -/
def look (d : Disk) (r : Route) (name : String) : Except IoError (Option Entry) :=
  if Path.maxSegmentBytes < name.utf8ByteSize then .error .nameTooLong
  else .ok (d.get? (r ++ [name]))

/-- What a path leads to. -/
def find (d : Disk) (p : Path) : Except IoError (Route × Entry) := do
  match ← d.follow p with
  | .passed r => return (r, .directory)
  | .named r name slash =>
    match ← d.look r name with
    | none => throw .notFound
    | some .directory => return (r ++ [name], .directory)
    | some (.file content) =>
      if slash then throw .notDirectory else return (r ++ [name], .file content)

/-! ### Operations -/

/-- Whether a path leads to a directory. -/
def isDirectory (d : Disk) (p : Path) : Bool :=
  match d.find p with
  | .ok (_, .directory) => true
  | _ => false

/-- Whether a path leads to something. -/
def isPresent (d : Disk) (p : Path) : Bool := (d.find p).isOk

/-- The content of a file. -/
def read (d : Disk) (p : Path) : Except IoError ByteArray := do
  match ← d.find p with
  | (_, .file content) => return content
  | (_, .directory) => throw .isDirectory

/-- Makes or overwrites a file. A slash at the end is refused before the name is looked at. -/
def write (d : Disk) (p : Path) (content : ByteArray) : Except IoError Disk := do
  match ← d.follow p with
  | .passed _ | .named _ _ true => throw .isDirectory
  | .named r name false =>
    match ← d.look r name with
    | some .directory => throw .isDirectory
    | _ => return d.put (r ++ [name]) (.file content)

/-- Makes a directory where nothing is. A slash at the end does not matter. -/
def makeDirectory (d : Disk) (p : Path) : Except IoError Disk := do
  match ← d.follow p with
  | .passed _ => throw .alreadyExists
  | .named r name _ =>
    match ← d.look r name with
    | some _ => throw .alreadyExists
    | none => return d.put (r ++ [name]) .directory

/-- The names that a directory holds. -/
def list (d : Disk) (p : Path) : Except IoError (List String) := do
  match ← d.find p with
  | (r, .directory) => return d.names r
  | (_, .file _) => throw .notDirectory

/-- An operation that leaves the disk as it is if it fails. -/
def change (operation : Disk → Except IoError Disk) : StateM Disk (Except IoError Unit) := fun d =>
  match operation d with
  | .ok d' => (.ok (), d')
  | .error e => (.error e, d)

/-- The file operations on a disk. -/
def fileSystem : FileSystem (StateM Disk) where
  isDirectory p := fun d => (d.isDirectory p, d)
  isPresent p := fun d => (d.isPresent p, d)
  read p := fun d => (d.read p, d)
  write p content := change fun d => d.write p content
  makeDirectory p := change fun d => d.makeDirectory p
  list p := fun d => (d.list p, d)

end Disk

end AsyncMarkers
