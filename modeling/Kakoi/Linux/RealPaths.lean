import Kakoi.Linux.FileSystem

/-! What is really behind a path: its resolution walked name by name, links spliced in. -/

namespace Kakoi

/-- What the outer layer found behind a path, with its real path. -/
inductive RealEntry where
  | missing
  | directory (real : Path)
  | notDirectory (real : Path)
  deriving DecidableEq

def RealEntry.path : RealEntry → Option Path
  | .missing => none
  | .directory real => some real
  | .notDirectory real => some real

/-- What resolving one path passed through: the links followed, the directories whose entries were
looked up, each once, and the targets as written. -/
structure Traversal where
  links : List Path := []
  directories : List Path := []
  targets : List (Path × Path) := []
  deriving DecidableEq

namespace RealPaths

/-- How many links one resolution follows before giving up. -/
def linkLimit : Nat := 40

def requiresDirectory (path : Path) : Bool :=
  path.endsWith [slash] || path.endsWith [slash, dot]

/-- The names of a path in order, `..` included and `.` and the root left out. -/
def namesOf (path : Path) : List Name :=
  path.components.filterMap fun component =>
    match component with
    | .normal name => some name
    | .parentDir => some [dot, dot]
    | .rootDir | .curDir => none

def consult (traversal : Traversal) (directory : Path) : Traversal :=
  if traversal.directories.contains directory then traversal
  else { traversal with directories := traversal.directories ++ [directory] }

/-- The names to look up once a link with this target is spliced in front of `rest`. -/
def splice (target : Path) (rest : List Name) : List Name :=
  namesOf target ++ (if requiresDirectory target then [[dot]] else []) ++ rest

def followed (traversal : Traversal) (place target : Path) : Traversal :=
  { traversal with
    links := traversal.links ++ [place]
    targets := traversal.targets ++ [(place, target)] }

/-- The loop of `walk` up to the next link, which `follow` continues from. -/
def walkNames (files : FileSystem)
    (follow : Path → List Name → Traversal → Path → Path → Traversal × Option Path) :
    List Name → Traversal → Path → Traversal × Option Path
  | [], traversal, resolved => (traversal, some resolved)
  | name :: rest, traversal, resolved =>
    -- The name, `..` included, is looked up in `resolved`, so `resolved` is consulted.
    let traversal := consult traversal resolved
    if !files.isDirectory resolved then (traversal, none)
    else if name = [dot] then walkNames files follow rest traversal resolved
    else if name = [dot, dot] then walkNames files follow rest traversal resolved.pop
    else
      match files.lookup resolved name with
      | .absent => (traversal, none)
      | .link target => follow target rest traversal resolved (resolved.join ⟨name⟩)
      | .directory | .other => walkNames files follow rest traversal (resolved.join ⟨name⟩)

/-- The loop of `walk` with a number of links it may still follow. -/
def walkLinks (files : FileSystem) :
    Nat → List Name → Traversal → Path → Traversal × Option Path
  | 0 => walkNames files fun _ _ traversal _ _ => (traversal, none)
  | links + 1 => walkNames files fun target rest traversal resolved place =>
      walkLinks files links (splice target rest) (followed traversal place target)
        (if target.isAbsolute then Path.root else resolved)

def walk (files : FileSystem) (path : Path) : Traversal × Option Path :=
  if !path.isAbsolute then ({}, none)
  else
    let (traversal, reached) := walkLinks files linkLimit (namesOf path) {} Path.root
    (traversal, reached.filter fun real => !requiresDirectory path || files.isDirectory real)

def traverse (files : FileSystem) (path : Path) : Traversal := (walk files path).1

def resolve (files : FileSystem) (path : Path) : Option Path := (walk files path).2

/-- The real path behind a path, taken against the current directory when relative. -/
def realPath (host : Host) (path : Path) : Option Path :=
  if path.isAbsolute then resolve host.toFileSystem path
  else host.currentDir.bind fun directory => resolve host.toFileSystem (directory.join path)

def realEntry (host : Host) (path : Path) : RealEntry :=
  match realPath host path with
  | none => .missing
  | some real =>
    match host.entryAt real with
    | .directory => .directory real
    | .absent => .missing
    | .other | .link _ => .notDirectory real

end RealPaths

end Kakoi
