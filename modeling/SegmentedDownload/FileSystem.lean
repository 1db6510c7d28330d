import SegmentedDownload.Bytes
import SegmentedDownload.IoError

/-!
# SegmentedDownload.FileSystem

Files and directories by their place: the names that lead to them from the root.

* A path is followed name by name. Every name but the last has to lead to a
  directory, no name is longer than 255 bytes, and no path is longer than 4095. A
  relative path starts at the root, too.
* `faults` scripts the coming changes of the tree one by one: `none` is a change
  that the system makes, `some e` one that it refuses.

Every change returns the tree beside its error. What a change does to the nodes
is said by `node?_put` and `node?_erase`.
-/

namespace SegmentedDownload

/-- The names that lead from the root to a file or directory. -/
abbrev Place := List String

inductive Node
  | file (contents : Bytes)
  | directory
deriving Repr, DecidableEq

/-- A tree of files and directories. The root is always there. -/
structure FileSystem where
  entries : List (Place × Node) := []
  faults : List (Option IoError) := []
deriving Repr, DecidableEq, Inhabited

namespace FileSystem

/-! ## Nodes -/

/-- What is at a place. -/
def node? (fs : FileSystem) (place : Place) : Option Node :=
  if place = [] then some .directory else fs.entries.lookup place

/-- Entries less those at a place. -/
def without (place : Place) : List (Place × Node) → List (Place × Node)
  | [] => []
  | e :: rest => if e.1 = place then without place rest else e :: without place rest

/-- The tree with a node at a place. -/
def put (fs : FileSystem) (place : Place) (node : Node) : FileSystem :=
  { fs with entries := (place, node) :: without place fs.entries }

/-- The tree with nothing at a place. -/
def erase (fs : FileSystem) (place : Place) : FileSystem :=
  { fs with entries := without place fs.entries }

/-- Only the place that was taken out is missing. -/
theorem lookup_without (p q : Place) (entries : List (Place × Node)) :
    (without p entries).lookup q = if q = p then none else entries.lookup q := by
  induction entries with
  | nil => simp [without]
  | cons e rest ih =>
    obtain ⟨r, node⟩ := e
    by_cases hr : r = p
    · subst hr
      rw [without, if_pos rfl, ih]
      split
      · rfl
      · next hq =>
        have : (q == r) = false := by simp [hq]
        rw [List.lookup_cons, this]
    · by_cases hq : q = p
      · subst hq
        have : (q == r) = false := by simp [Ne.symm hr]
        simp [without, ih, hr, List.lookup_cons, this]
      · simp [without, ih, hr, hq, List.lookup_cons]

/-- A new node is found where it was put, and the other nodes where they were. -/
theorem node?_put {place : Place} (h : place ≠ []) (fs : FileSystem) (node : Node) (q : Place) :
    (fs.put place node).node? q = if q = place then some node else fs.node? q := by
  by_cases hq : q = place
  · subst hq
    simp [node?, put, h]
  · have : (q == place) = false := by simp [hq]
    simp [node?, put, hq, List.lookup_cons, this, lookup_without]

/-- A node that was erased is gone, and the others stay. -/
theorem node?_erase {place : Place} (h : place ≠ []) (fs : FileSystem) (q : Place) :
    (fs.erase place).node? q = if q = place then none else fs.node? q := by
  by_cases hq : q = place
  · subst hq
    simp [node?, erase, h, lookup_without]
  · simp [node?, erase, hq, lookup_without]

/-! ## Paths -/

/-- The place that one name leads to from another place. -/
def enter (place : Place) (name : String) : Place :=
  if name = "" ∨ name = "." then place
  else if name = ".." then place.dropLast
  else place ++ [name]

/-- Follow names from a place. There need not be anything where they lead to. -/
def walk (fs : FileSystem) : Place → List String → Except IoError Place
  | place, [] => .ok place
  | place, name :: names =>
    match fs.node? place with
    | none => .error .notFound
    | some (.file _) => .error .notADirectory
    | some .directory =>
      if 255 < name.utf8ByteSize then .error .nameTooLong
      else walk fs (enter place name) names

def names (path : String) : List String := (path.toList.splitOn '/').map String.ofList

/-- Check what the system asks of every path before it follows it. -/
def checkPath (path : String) : Except IoError Unit :=
  if path.toList.contains '\x00' then .error .nulInPath
  else if path = "" then .error .notFound
  else if 4095 < path.utf8ByteSize then .error .nameTooLong
  else .ok ()

/-- The place that a path leads to. -/
def locate (fs : FileSystem) (path : String) : Except IoError Place := do
  checkPath path
  fs.walk [] (names path)

/-- Names without the empty ones behind the last slashes. -/
def dropSlashes (names : List String) : List String :=
  (names.reverse.dropWhile (· = "")).reverse

/-- Follow all names but the last, which has to be in a directory. -/
def walkAbove (fs : FileSystem) (names : List String) : Except IoError Place :=
  -- the empty name asks whether the place is a directory
  fs.walk [] ((dropSlashes names).dropLast ++ [""])

/-- The place that a file is put to. A path that ends with a slash stands for a
directory, and is refused for the given cause. -/
def locateFile (fs : FileSystem) (path : String) (cause : IoError) : Except IoError Place := do
  checkPath path
  if path.toList.getLast? = some '/' then
    let _ ← fs.walkAbove (names path)
    throw cause
  fs.walk [] (names path)

/-- What a path leads to. -/
def find? (fs : FileSystem) (path : String) : Option Node :=
  match fs.locate path with
  | .ok place => fs.node? place
  | .error _ => none

/-- Whether a path leads to anything. -/
def has (fs : FileSystem) (path : String) : Bool := (fs.find? path).isSome

def read (fs : FileSystem) (path : String) : Except IoError Bytes := do
  match fs.node? (← fs.locate path) with
  | some (.file contents) => return contents
  | some .directory => throw .isADirectory
  | none => throw .notFound

/-! ## Changes -/

/-- Whether the system refuses the next change. -/
def next (fs : FileSystem) : FileSystem × Option IoError :=
  match fs.faults with
  | [] => (fs, none)
  | fault? :: faults => ({ fs with faults }, fault?)

/-- Make a change if the system does not refuse it. -/
def attempt (fs : FileSystem) (change : FileSystem → Except IoError FileSystem) :
    FileSystem × Option IoError :=
  match fs.next with
  | (fs, some fault) => (fs, some fault)
  | (fs, none) =>
    match change fs with
    | .ok changed => (changed, none)
    | .error fault => (fs, some fault)

/-- Open the file at a path for reading and writing, and create it if there is
none. Returns its place and its contents. -/
def openFile (fs : FileSystem) (path : String) :
    FileSystem × Except IoError (Place × Bytes) :=
  match fs.next with
  | (fs, some fault) => (fs, .error fault)
  | (fs, none) =>
    match fs.locateFile path .isADirectory with
    | .error fault => (fs, .error fault)
    | .ok place =>
      match fs.node? place with
      | some (.file contents) => (fs, .ok (place, contents))
      | some .directory => (fs, .error .isADirectory)
      | none => (fs.put place (.file []), .ok (place, []))

def createNew (fs : FileSystem) (path : String) : FileSystem × Option IoError :=
  fs.attempt fun fs => do
    let place ← fs.locateFile path .isADirectory
    if (fs.node? place).isSome then throw .alreadyExists
    return fs.put place (.file [])

/-- Replace the contents of a file, which is created if there is none. -/
def write (fs : FileSystem) (path : String) (contents : Bytes) : FileSystem × Option IoError :=
  fs.attempt fun fs => do
    let place ← fs.locateFile path .isADirectory
    match fs.node? place with
    | some .directory => throw .isADirectory
    | _ => return fs.put place (.file contents)

def remove (fs : FileSystem) (path : String) : FileSystem × Option IoError :=
  fs.attempt fun fs => do
    let place ← fs.locate path
    match fs.node? place with
    | some (.file _) => return fs.erase place
    | some .directory => throw .isADirectory
    | none => throw .notFound

/-- Give a file a new path. A file that was there is replaced. -/
def rename (fs : FileSystem) (source target : String) : FileSystem × Option IoError :=
  fs.attempt fun fs => do
    let old ← fs.locate source
    let new ← fs.locateFile target .notADirectory
    match fs.node? old, fs.node? new with
    | some (.file contents), some (.file _)
    | some (.file contents), none => return (fs.erase old).put new (.file contents)
    | some (.file _), some .directory => throw .isADirectory
    | some .directory, _ => throw .isADirectory
    | none, _ => throw .notFound

/-! ## Directories -/

/-- Make a directory where there is nothing yet. A dot or two are there as soon
as the directory is that they are in. -/
def makeDirectory (fs : FileSystem) (names : List String) : Except IoError FileSystem := do
  if [".", ".."].contains ((dropSlashes names).getLast?.getD "") then
    let _ ← fs.walkAbove names
    throw .alreadyExists
  let place ← fs.walk [] (dropSlashes names)
  if (fs.node? place).isSome then throw .alreadyExists
  return fs.put place .directory

/-- Whether names lead to a directory. -/
def isDirectory (fs : FileSystem) (names : List String) : Bool :=
  match fs.walk [] names with
  | .ok place => fs.node? place == some .directory
  | .error _ => false

/-- Make a directory; one that is there already is as good as a new one. -/
def makeOrKeep (fs : FileSystem) (names : List String) : Except IoError FileSystem :=
  match fs.makeDirectory names with
  | .ok fs => .ok fs
  | .error fault =>
    if fault = .alreadyExists ∧ fs.isDirectory names then .ok fs else .error fault

/-- Make the first of some directories for which there is room. Returns the ones
before it, the last one first. -/
def makeAbove (fs : FileSystem) (waiting : List (List String)) :
    List (List String) → Except IoError (FileSystem × List (List String))
  | [] => .ok (fs, waiting)
  | names :: above =>
    match fs.makeOrKeep names with
    | .ok fs => .ok (fs, waiting)
    | .error .notFound => makeAbove fs (names :: waiting) above
    | .error fault => .error fault

/-- Make directories one after the other. -/
def makeAll (fs : FileSystem) : List (List String) → FileSystem × Option IoError
  | [] => (fs, none)
  | names :: rest =>
    match fs.makeOrKeep names with
    | .ok fs => makeAll fs rest
    | .error fault => (fs, some fault)

/-- The names that are left when the last ones are taken off one by one. -/
def namesAbove : List String → List (List String)
  | [] => []
  | name :: rest => (namesAbove rest).map (name :: ·) ++ [[name]]

/-- Make the directory at a path and those above it. Those above it are taken
from the path without its dots. -/
def createDirectory (fs : FileSystem) (path : String) : FileSystem × Option IoError :=
  match fs.next with
  | (fs, some fault) => (fs, some fault)
  | (fs, none) =>
    let plain := (names path).filter fun name => name ≠ "" ∧ name ≠ "."
    if plain = [] ∧ (path = "" ∨ path.toList.head? = some '/') then (fs, none)
    else match checkPath path with
      | .error fault => (fs, some fault)
      | .ok () =>
        match fs.makeAbove [] (names path :: namesAbove plain.dropLast) with
        | .error fault => (fs, some fault)
        | .ok (fs, waiting) => fs.makeAll waiting

/-- The last names of the nodes in a directory, in order. -/
def children (fs : FileSystem) (place : Place) : List String :=
  let names := fs.entries.filterMap fun (other, _) =>
    if other.dropLast = place then other.getLast? else none
  names.mergeSort fun a b => decide (a ≤ b)

end FileSystem

end SegmentedDownload
