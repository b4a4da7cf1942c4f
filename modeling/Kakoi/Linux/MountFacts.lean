import Kakoi.Plan.Mounts
import Kakoi.Policy.Wildcard

/-! Collecting the facts of the mount resolution from the host. -/

namespace Kakoi

open RealPaths

/-- The names of a directory as the scan takes them. -/
def sortedNames (names : List Name) : List Name :=
  names.insertionSort fun left right => left.map UInt8.toNat ≤ right.map UInt8.toNat

/-- The walk of one scan below a directory; the tree is not deeper than `depth`. -/
def scanBelow (host : Host) (request : ScanRequest) : Nat → Path → List ScanHit
  | 0, _ => []
  | depth + 1, directory =>
    (sortedNames (host.names directory)).flatMap fun name =>
      let path := directory.join ⟨name⟩
      let node := host.lookup directory name
      let matched (patterns : List String) := patterns.any fun pattern => wildcardMatches pattern name
      (if matched request.names && !matched request.exclude then
        [{ foundAt := path
           target := realEntry host path
           isLink := match node with | .link _ => true | _ => false }]
      else []) ++
      (if node = .directory && !matched request.prune then scanBelow host request depth path
      else [])

/-- The entries under a real path that a scan finds; what is no directory has none. -/
def scan (host : Host) (request : ScanRequest) (root : Path) : List ScanHit :=
  if host.isDirectory root then scanBelow host request (host.height + 1) root else []

/-- Looks up every candidate path and walks every path whose traversal is asked for. -/
def collectPathFacts (host : Host) (wanted : Candidates) : MountFacts :=
  let walked (path : Path) := traverse host.toFileSystem path
  { paths := PathMap.empty.insertAll (realEntry host) wanted.paths
    links := PathMap.empty.insertAll (fun path => (walked path).links) wanted.traversals
    directories := PathMap.empty.insertAll (fun path => (walked path).directories) wanted.traversals
    linkTargets := PathMap.empty.extend (wanted.traversals.flatMap fun path => (walked path).targets) }

/-- What the scans find from their real roots. -/
def collectScans (host : Host) (wanted : Candidates) (facts : MountFacts) : MountFacts :=
  { facts with
    scanHits := facts.scanHits ++ wanted.scans.flatMap fun request =>
      (facts.entry request.root).path.toList.flatMap (scan host request) }

/-- The mount targets at or under one of the `under`s. -/
def mountTargets (wanted : Candidates) (facts : MountFacts) (mounts : List Mount) : List Path :=
  let unders := wanted.hideMountsUnder.filterMap fun under => (facts.entry under).path
  (mounts.map (·.target)).filter fun target => unders.any target.startsWith

/-- The mount list, and each mount target under one of the `under`s looked up. -/
def collectMountList (host : Host) (wanted : Candidates) (facts : MountFacts) : MountFacts :=
  if wanted.hideMountsUnder.isEmpty then facts
  else
    let listed :=
      match host.mountList with
      | some mounts => { facts with mounts }
      | none => { facts with mountListUnreadable := true }
    { listed with
      paths := listed.paths.insertAll (realEntry host) (mountTargets wanted listed listed.mounts) }

def collectGeneratorFacts (host : Host) (wanted : Candidates) (facts : MountFacts) : MountFacts :=
  collectMountList host wanted (collectScans host wanted facts)

end Kakoi
