import Kakoi.Base.Keyed
import Kakoi.Base.PathSet
import Kakoi.Linux.RealPaths
import Kakoi.Plan.Expansion

/-! The mount items of the merged policy, resolved to real paths: written items, and generated
`hide` items over them. -/

namespace Kakoi

/-- One entry a scan found by name, what is behind it, and whether it is itself a link. -/
structure ScanHit where
  foundAt : Path
  target : RealEntry
  isLink : Bool

/-- The facts the outer layer collected for the mount resolution. -/
structure MountFacts where
  paths : PathMap RealEntry := .empty
  links : PathMap (List Path) := .empty
  directories : PathMap (List Path) := .empty
  linkTargets : PathMap Path := .empty
  scanHits : List ScanHit := []
  mounts : List Mount := []
  mountListUnreadable : Bool := false

namespace MountFacts

/-- What exists behind a path; one that was not looked up is missing. -/
def entry (facts : MountFacts) (path : Path) : RealEntry := (facts.paths path).getD .missing

def traversedLinks (facts : MountFacts) (path : Path) : List Path := (facts.links path).getD []

def visitedDirectories (facts : MountFacts) (path : Path) : List Path :=
  (facts.directories path).getD []

end MountFacts

inductive EntryKind where
  | directory
  | notDirectory
  deriving DecidableEq

/-- Where an item came from: a written layer, or one of the generators. -/
inductive ItemOrigin where
  | written (layer : LayerOrigin)
  | scan
  | hideMounts
  | secretFile (name : String)
  | configSecrets
  deriving DecidableEq

/-- A mount item that applies: its real path and what is there. -/
structure ResolvedItem where
  directive : Directive
  real : Path
  kind : EntryKind
  origin : ItemOrigin
  written : Text
  deriving DecidableEq

structure SkippedItem where
  directive : Directive
  written : Text
  origin : LayerOrigin
  reason : Text
  deriving DecidableEq

/-- A scan hit left visible on purpose. -/
structure LeftVisible where
  link : Path
  reason : Text
  deriving DecidableEq

inductive SkippedRole where
  | scanRoot
  | hideMountsUnder
  | pathPrepend
  | base
  | resolverTarget
  deriving DecidableEq

structure SkippedPath where
  role : SkippedRole
  written : Text
  reason : Text
  deriving DecidableEq

/-- A `hide` item that names nothing the "listed" mount mode shows. -/
structure NotShown where
  item : ResolvedItem
  reason : Text
  deriving DecidableEq

structure ResolvedMounts where
  items : List ResolvedItem := []
  skipped : List SkippedItem := []
  leftVisible : List LeftVisible := []
  notShown : List NotShown := []
  deriving DecidableEq

/-- The scan roots, `under`s and `path-prepend` entries that are skipped. -/
def skippedPaths (expanded : ExpandedPolicy) (facts : MountFacts) : List SkippedPath :=
  let written :=
    expanded.scans.map (fun scan => (SkippedRole.scanRoot, scan.written, scan.root)) ++
    expanded.hideMounts.map (fun hide => (SkippedRole.hideMountsUnder, hide.written, hide.under)) ++
    expanded.pathPrepend.map (fun entry => (SkippedRole.pathPrepend, entry.written, entry.path))
  written.filterMap fun (role, written, expansion) =>
    match expansion with
    | .valueless start => some { role, written := written.text, reason := valuelessReason start }
    | .path path =>
      if facts.entry path = .missing then
        some { role, written := written.text, reason := ["does not exist"] }
      else none

/-- A written item with its identity: the real path when something exists, else the
expanded path as written. -/
structure Candidate where
  directive : Directive
  written : Text
  origin : LayerOrigin
  key : Path
  entry : RealEntry

/-- What two candidates for the same place share. -/
def Candidate.place (candidate : Candidate) : List Component := candidate.key.components

def ResolvedItem.place (item : ResolvedItem) : List Component := item.real.components

def realAndKind : RealEntry → Option (Path × EntryKind)
  | .missing => none
  | .directory real => some (real, .directory)
  | .notDirectory real => some (real, .notDirectory)

/-- The written items merged so far, lower layers first. -/
structure Merging where
  merged : List Candidate := []
  skipped : List SkippedItem := []
  conflicts : List (Path × Diagnostic) := []

def candidateOf (facts : MountFacts) (item : ExpandedItem) (path : Path) : Candidate :=
  let entry := facts.entry path
  { directive := item.directive
    written := item.written.text
    origin := item.origin
    key := entry.path.getD path
    entry }

def conflict (existing candidate : Candidate) : Path × Diagnostic :=
  let description := format
    ["`", existing.written, "` and `", candidate.written, "` name the same path ",
      candidate.key, " with different directives"]
  (candidate.key,
    match candidate.origin with
    | .commandLine => .usage description
    | _ => .policy description)

/-- The loop body of `resolve_written`. -/
def mergeItem (facts : MountFacts) (merging : Merging) (item : ExpandedItem) : Merging :=
  match item.path with
  | .valueless start =>
    { merging with
      skipped := merging.skipped ++
        [{ directive := item.directive
           written := item.written.text
           origin := item.origin
           reason := valuelessReason start }] }
  | .path path =>
    let candidate := candidateOf facts item path
    match merging.merged.find? (·.key == candidate.key) with
    | some existing =>
      -- Lower layers come first, so a later item is the upper layer replacing.
      if existing.origin != candidate.origin then
        { merging with merged := upsert Candidate.place candidate merging.merged }
      else if existing.directive ≠ candidate.directive then
        { merging with conflicts := merging.conflicts ++ [conflict existing candidate] }
      else merging
    | none => { merging with merged := merging.merged ++ [candidate] }

def byRealPath (left right : ResolvedItem) : Prop := left.real.byteLe right.real

instance : DecidableRel byRealPath :=
  fun left right => inferInstanceAs (Decidable (left.real.byteLe right.real))

def sortItems (items : List ResolvedItem) : List ResolvedItem := items.insertionSort byRealPath

def Candidate.item (candidate : Candidate) : Option ResolvedItem :=
  (realAndKind candidate.entry).map fun (real, kind) =>
    { directive := candidate.directive
      real
      kind
      origin := .written candidate.origin
      written := candidate.written }

def Candidate.nothing (candidate : Candidate) : Option SkippedItem :=
  match realAndKind candidate.entry with
  | some _ => none
  | none =>
    some
      { directive := candidate.directive
        written := candidate.written
        origin := candidate.origin
        reason := ["does not exist"] }

/-- The written items resolved to real paths, before the generated ones. The conflict
reported is the first in byte order, not the first written. -/
def resolveWritten (expanded : ExpandedPolicy) (facts : MountFacts) :
    Except Diagnostic ResolvedMounts :=
  let merging := expanded.mounts.foldl (mergeItem facts) {}
  match minBy (fun left right => left.1.byteLe right.1) merging.conflicts with
  | some (_, diagnostic) => .error diagnostic
  | none =>
    .ok
      { items := sortItems (merging.merged.filterMap Candidate.item)
        skipped := merging.skipped ++ merging.merged.filterMap Candidate.nothing }

/-- The real paths of the policy files that were read. -/
def policySources (layers : List Layer) (facts : MountFacts) : List PolicySource :=
  layers.filterMap fun layer =>
    match layer.origin with
    | .profile path | .policyFile path => some (.file ((facts.entry path).path.getD path))
    | .builtInDefault => some .builtInDefault
    | .commandLine => none

def generatedHide (written : Path) (origin : ItemOrigin) (entry : RealEntry) :
    Option ResolvedItem :=
  (realAndKind entry).map fun (real, kind) =>
    { directive := .hide, real, kind, origin, written := [written] }

structure Scanned where
  hidden : List ResolvedItem := []
  leftVisible : List LeftVisible := []

def swappableScan (hit : ScanHit) (real : Path) (ro : ResolvedItem) : Diagnostic :=
  .path (format
    ["the scan found the symbolic link ", hit.foundAt, " pointing at ", real,
      ", inside the `ro` item `", ro.written, "` at ", ro.real,
      ", whose resolution passes through a writable item, so the link and the item could be re-pointed from inside the isolation and the next start made to empty another file"])

def visibleReason (real : Path) (ro : ResolvedItem) : Text :=
  format
    ["points at ", real, ", inside the `ro` item `", ro.written, "` at ", ro.real,
      ", which cannot be swapped from inside the isolation; hiding it would empty the read-only file"]

/-- The written `ro` items a link's target lies at or in. -/
def containingRo (written : List ResolvedItem) (hit : ScanHit) (real : Path) : List ResolvedItem :=
  written.filter fun item => item.directive = .ro && (hit.isLink && real.startsWith item.real)

/-- The loop body of `scan_items`. -/
def scanHit (written : List ResolvedItem) (policyFiles swappableRo : List Path)
    (scanned : Scanned) (hit : ScanHit) : Except Diagnostic Scanned :=
  match hit.target with
  | .notDirectory real =>
    if policyFiles.contains real then .ok scanned
    else
      let around := containingRo written hit real
      -- Any swappable `ro` around the target stops the run.
      match around.find? fun ro => swappableRo.contains ro.real with
      | some ro => .error (swappableScan hit real ro)
      | none =>
        match around.head? with
        | some ro =>
          .ok
            { scanned with
              leftVisible := scanned.leftVisible ++
                [{ link := hit.foundAt, reason := visibleReason real ro }] }
        | none =>
          .ok
            { scanned with
              hidden := scanned.hidden ++
                (generatedHide hit.foundAt .scan hit.target).toList }
  -- A directory, or a link to one, is not hidden; a link to nothing hides nothing.
  | .missing | .directory _ => .ok scanned

def byPlaceFound (left right : ScanHit) : Prop := left.foundAt.byteLe right.foundAt

instance : DecidableRel byPlaceFound :=
  fun left right => inferInstanceAs (Decidable (left.foundAt.byteLe right.foundAt))

/-- The `hide` items of the scan. -/
def scanItems (written : List ResolvedItem) (layers : List Layer) (facts : MountFacts)
    (swappableRo : List Path) : Except Diagnostic Scanned :=
  let policyFiles := (policySources layers facts).filterMap PolicySource.path
  (facts.scanHits.insertionSort byPlaceFound).foldlM (scanHit written policyFiles swappableRo) {}

/-- The places the user chose to work in, never hidden by their mount type. -/
def workPlaces (values : Variables) : List Path :=
  [values.workspace, values.worktree] ++ values.gitCommonDir.toList

def hiddenMount (values : Variables) (hide : ExpandedHideMounts) (under : Path) (mount : Mount) :
    Bool :=
  mount.target.startsWith under && hide.fstype.contains mount.fstype &&
    !(workPlaces values).contains mount.target

/-- The `hide` items of one `hide-mounts`. -/
def hiddenMounts (values : Variables) (facts : MountFacts) (hide : ExpandedHideMounts) :
    List ResolvedItem :=
  match hide.under.path?.bind fun under => (facts.entry under).path with
  | none => []
  | some under =>
    (facts.mounts.filter (hiddenMount values hide under)).flatMap fun mount =>
      (generatedHide mount.target .hideMounts (facts.entry mount.target)).toList

/-- The `hide` items of `hide-mounts`. -/
def hideMountsItems (expanded : ExpandedPolicy) (values : Variables) (facts : MountFacts) :
    Except Diagnostic (List ResolvedItem) :=
  if facts.mountListUnreadable && !expanded.hideMounts.isEmpty then
    .error (.path ["`mounts.hide-mounts` is written but the mount list could not be read, so a mount to hide might be missed"])
  else
    .ok (expanded.hideMounts.flatMap (hiddenMounts values facts))

def configSecrets (values : Variables) : Option Path :=
  values.configDir.map (·.join (Path.ofString "secrets"))

/-- The `hide` items of the secrets: each secret file, then `secrets/`. -/
def secretItems (expanded : ExpandedPolicy) (values : Variables) (facts : MountFacts) :
    List ResolvedItem :=
  expanded.secrets.toList.flatMap (fun (name, expansion) =>
    match expansion.path? with
    | none => []
    | some path => (generatedHide path (.secretFile name) (facts.entry path)).toList) ++
  (configSecrets values).toList.flatMap fun path =>
    (generatedHide path .configSecrets (facts.entry path)).toList

def kindProblem (item : ResolvedItem) : Except Diagnostic Unit :=
  match item.directive, item.kind with
  | .rw, .notDirectory =>
    .error (.path (format ["`rw` needs a directory but `", item.written, "` is ", item.real,
      "; use `rw-file` for a file"]))
  | .rwFile, .directory =>
    .error (.path (format ["`rw-file` takes a file but `", item.written,
      "` is the directory ", item.real]))
  | _, _ => .ok ()

/-- `rw` takes a directory and `rw-file` anything else. -/
def checkKinds (items : List ResolvedItem) : Except Diagnostic Unit := checkAll kindProblem items

/-- The generated items laid over the written ones, each in the place of the item at
its real path. -/
def lay (items generated : List ResolvedItem) : List ResolvedItem :=
  generated.foldl (fun items item => upsert ResolvedItem.place item items) items

/-- Applies the generated `hide` items to the written items. -/
def generate (written : ResolvedMounts) (expanded : ExpandedPolicy) (layers : List Layer)
    (values : Variables) (facts : MountFacts) (swappableRo : List Path) :
    Except Diagnostic ResolvedMounts := do
  let scanned ← scanItems written.items layers facts swappableRo
  let mounts ← hideMountsItems expanded values facts
  let generated := scanned.hidden ++ mounts ++ secretItems expanded values facts
  let items := sortItems (lay written.items generated)
  checkKinds items
  return { written with items, leftVisible := scanned.leftVisible }

/-- The item in force at a path: the last one at the path or at an ancestor of it. -/
def coveringItem (items : List ResolvedItem) (path : Path) : Option ResolvedItem :=
  items.reverse.find? fun item => path.startsWith item.real

/-- Whether the item in force at a path hides it. -/
def hidden (path : Path) (items : List ResolvedItem) : Bool :=
  (coveringItem items path).any fun item => item.directive = .hide

end Kakoi
