import Kakoi.Policy.Layers

/-! The merged policy with `~` and the variables expanded, and the paths to look up for it. -/

namespace Kakoi

open Std (ExtTreeMap)

/-- A policy path after expansion: a path, or a variable that has no value. -/
inductive Expansion where
  | path (path : Path)
  | valueless (start : Variable)
  deriving DecidableEq

def Expansion.path? : Expansion → Option Path
  | .path expanded => some expanded
  | .valueless _ => none

structure ExpandedItem where
  directive : Directive
  written : PolicyPath
  origin : LayerOrigin
  path : Expansion

/-- An item that is written with an absolute path. -/
def ExpandedItem.absolute (directive : Directive) (origin : LayerOrigin) (text : String) :
    ExpandedItem :=
  { directive, origin, written := .absolute (.ofString text), path := .path (.ofString text) }

structure ExpandedPath where
  written : PolicyPath
  path : Expansion

structure ExpandedScan where
  written : PolicyPath
  root : Expansion
  names : List String
  exclude : List String
  prune : List String

structure ExpandedHideMounts where
  written : PolicyPath
  under : Expansion
  fstype : List String

structure ExpandedPolicy where
  mounts : List ExpandedItem := []
  scans : List ExpandedScan := []
  hideMounts : List ExpandedHideMounts := []
  secrets : ExtTreeMap String Expansion := ∅
  pathPrepend : List ExpandedPath := []

/-- A base with the rest of the written path put behind its bytes. -/
def Path.extended (base : Path) (rest : String) : Path := ⟨base.bytes ++ utf8 rest⟩

def Variables.value (values : Variables) : Variable → Option Path
  | .workspace => some values.workspace
  | .worktree => some values.worktree
  | .gitCommonDir => values.gitCommonDir
  | .configDir => values.configDir

def expand (path : PolicyPath) (values : Variables) (home : HomeDirectory) : Expansion :=
  match path with
  | .absolute path => .path path
  | .home rest => .path (home.path.extended rest)
  | .ofVariable start rest =>
    match values.value start with
    | some value => .path (value.extended rest)
    | none => .valueless start

/-- Why a path whose variable has no value is skipped. -/
def valuelessReason (start : Variable) : Text := ["`$\x7b", start.name, "\x7d` has no value"]

structure ScanRequest where
  root : Path
  names : List String
  exclude : List String
  prune : List String

/-- What the outer layer must look up: paths, paths to walk, scans, and the `under`
of each `hide-mounts`. -/
structure Candidates where
  paths : List Path := []
  traversals : List Path := []
  scans : List ScanRequest := []
  hideMountsUnder : List Path := []

namespace ExpandedPolicy

def mountPaths (expanded : ExpandedPolicy) : List Path :=
  expanded.mounts.filterMap (·.path.path?)

def scanRoots (expanded : ExpandedPolicy) : List Path :=
  expanded.scans.filterMap (·.root.path?)

def unders (expanded : ExpandedPolicy) : List Path :=
  expanded.hideMounts.filterMap (·.under.path?)

def prependPaths (expanded : ExpandedPolicy) : List Path :=
  expanded.pathPrepend.filterMap (·.path.path?)

end ExpandedPolicy

namespace Candidates

def forGenerators (wanted : Candidates) (expanded : ExpandedPolicy) : Candidates :=
  { wanted with
    scans := expanded.scans.filterMap fun scan =>
      scan.root.path?.map fun root =>
        { root, names := scan.names, exclude := scan.exclude, prune := scan.prune }
    hideMountsUnder := expanded.unders }

def withWalked (wanted : Candidates) (paths : List Path) : Candidates :=
  { wanted with
    paths := distinctPaths (wanted.paths ++ paths)
    traversals := distinctPaths (wanted.traversals ++ paths) }

end Candidates

/-- The paths `candidates` gathers, before they are sorted and deduplicated. -/
def candidatePaths (expanded : ExpandedPolicy) (guarded : List Path) (values : Variables) :
    List Path :=
  expanded.mountPaths ++ expanded.scanRoots ++ expanded.unders ++ expanded.prependPaths ++
    guarded.flatMap Path.ancestors ++
    (values.configDir.map (·.join (Path.ofString "secrets"))).toList

def candidateTraversals (expanded : ExpandedPolicy) (guarded : List Path)
    (workspace : Option Path) : List Path :=
  guarded ++ expanded.mountPaths ++ expanded.scanRoots ++ expanded.unders ++ workspace.toList

/-- The candidate paths of an expanded policy and of the protected paths. -/
def candidates (expanded : ExpandedPolicy) (guarded : List Path) (values : Variables)
    (workspace : Option Path) : Candidates :=
  Candidates.forGenerators
    { paths := distinctPaths (candidatePaths expanded guarded values)
      traversals := distinctPaths (candidateTraversals expanded guarded workspace) }
    expanded

end Kakoi
