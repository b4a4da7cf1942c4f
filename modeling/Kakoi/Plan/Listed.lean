import Kakoi.Plan.Mounts

/-! The root of the "listed" mount mode: the base, the places shown, and what leads to them. -/

namespace Kakoi

def guardRoot : Path := Path.ofString "/dev/kakoi-guard"

def firstRoot : Path := Path.ofString "/dev/kakoi-first"

def nestingMark : Path := Path.ofString "/dev/kakoi-isolated"

def tunDevice : Path := Path.ofString "/dev/net/tun"

/-- The host's directories shown read-only as a whole while `mounts.system` is true. -/
def baseDirectories : List String := ["/usr", "/bin", "/sbin", "/lib", "/lib64", "/etc"]

def resolverText : String := "/etc/resolv.conf"

def resolver : Path := Path.ofString resolverText

/-- What the isolation has whatever the policy writes. -/
def provided : List Path := ["/dev", "/proc", "/tmp"].map Path.ofString

/-- What is put in the provided places with content of its own under it. -/
def putInsideWithContent : List Path := [guardRoot, firstRoot, Path.ofString "/dev/fd"]

/-- What is put in the provided places as it is. -/
def putInside : List Path :=
  [nestingMark, tunDevice] ++
    ["/dev/null", "/dev/zero", "/dev/full", "/dev/random", "/dev/urandom", "/dev/tty", "/dev/shm",
      "/dev/pts", "/dev/ptmx", "/dev/stdin", "/dev/stdout", "/dev/stderr",
      "/dev/core"].map Path.ofString

/-- Whether a path is one of the places or inside one. -/
def covered (path : Path) (places : List Path) : Bool := places.any path.startsWith

/-- Whether a path is in the isolation without being made. -/
def inIsolation (path : Path) (places : List Path) : Bool :=
  covered path places || (provided ++ putInside).any (path == ·) ||
    covered path putInsideWithContent

/-- A link made again inside, holding the target the host's does. -/
structure RebuiltLink where
  place : Path
  target : Path
  deriving DecidableEq

/-- The root of a "listed" isolation besides the mount items. -/
structure ListedRoot where
  directories : List Path := []
  base : List Path := []
  links : List RebuiltLink := []
  resolver : Option Path := none
  filteredResolver : Option Path := none
  places : List Path := []
  deriving DecidableEq

namespace ListedRoot

def shows (root : ListedRoot) (path : Path) : Bool := inIsolation path root.places

/-- Whether a path is there as written when resolving it passes through the links. -/
def showsThrough (root : ListedRoot) (links : List Path) (real : Path) : Bool :=
  root.shows real &&
    links.all fun link => root.shows link || root.links.any fun rebuilt => rebuilt.place == link

/-- Whether anything of the host's at or under a path is shown. -/
def reaches (root : ListedRoot) (path : Path) : Bool :=
  covered path root.places || root.places.any fun place => place.startsWith path

end ListedRoot

/-- The paths the "listed" root needs looked up and walked. -/
def rootLookups (system : Bool) : List Path :=
  if system then baseDirectories.map Path.ofString ++ [resolver] else []

/-- The base directories that exist, each as kakoi names it and by its real path. -/
def presentBase (system : Bool) (facts : MountFacts) : List (Path × Path) :=
  if system then
    baseDirectories.filterMap fun text =>
      match facts.entry (Path.ofString text) with
      | .directory real => some (Path.ofString text, real)
      | .missing | .notDirectory _ => none
  else []

def skippedBase (system : Bool) (facts : MountFacts) : List SkippedPath :=
  if system then
    baseDirectories.filterMap fun text =>
      match facts.entry (Path.ofString text) with
      | .directory _ => none
      | .missing => some { role := .base, written := [text], reason := ["does not exist"] }
      | .notDirectory _ => some { role := .base, written := [text], reason := ["is not a directory"] }
  else []

/-- Whether the resolver configuration is a link whose target may need to be shown. -/
def resolverFollowed (system : Bool) (networkMode : NetworkMode) (facts : MountFacts) : Bool :=
  system && networkMode ≠ .filtered && !(facts.traversedLinks resolver).isEmpty

/-- Where filtered puts its resolver configuration. -/
def filteredResolverOf (system : Bool) (facts : MountFacts) : Path :=
  if !system then resolver
  else
    match (facts.entry resolver).path with
    | some real => real
    | none =>
      (((facts.traversedLinks resolver).getLast?.bind facts.linkTargets).filter
        Path.isAbsolute).getD resolver

/-- The links of one walked path that are neither inside a place shown nor made yet. -/
def rebuildLink (facts : MountFacts) (places : List Path) (links : List RebuiltLink)
    (place : Path) : List RebuiltLink :=
  if inIsolation place places || links.any fun link => link.place == place then links
  else
    match facts.linkTargets place with
    | some target => links ++ [{ place, target }]
    | none => links

def byBytes (left right : Path) : Prop := left.byteLe right

instance : DecidableRel byBytes :=
  fun left right => inferInstanceAs (Decidable (left.byteLe right))

/-- The root of a "listed" isolation for the resolved items, and what is skipped. -/
def listedRoot (system : Bool) (networkMode : NetworkMode) (items : List ResolvedItem)
    (expanded : ExpandedPolicy) (facts : MountFacts) : ListedRoot × List SkippedPath :=
  let present := presentBase system facts
  let wholeBase := present.map Prod.snd
  let shown := (items.filter (·.directive ≠ .hide)).map (·.real)
  let writtenShown := ((expanded.mounts.filter (·.directive ≠ .hide)).filterMap
    (·.path.path?)).filter fun path => (facts.entry path).path.any fun real => shown.contains real
  let followed := resolverFollowed system networkMode facts
  let outside := ((facts.entry resolver).path.filter fun real =>
    followed && !covered real wholeBase)
  let skippedResolver : List SkippedPath :=
    if followed && (facts.entry resolver = .missing : Bool) then
      [{ role := .resolverTarget, written := [resolverText], reason := ["points at nothing"] }]
    else []
  -- The paths as written, or as kakoi names them, whose links are made again.
  let walked := present.map Prod.fst ++ writtenShown ++
    (if outside.isSome then [resolver] else [])
  let base := wholeBase.filter fun directory =>
    !covered directory (wholeBase.filter (· != directory))
  let resolverTarget := outside.filter fun real => !inIsolation real (base ++ shown)
  let filteredResolver :=
    if networkMode = .filtered then some (filteredResolverOf system facts) else none
  let places := base ++ shown ++ resolverTarget.toList ++ filteredResolver.toList
  let links := (walked.flatMap facts.traversedLinks).foldl (rebuildLink facts places) []
  let directories := (places ++ links.map RebuiltLink.place).flatMap fun place =>
    place.ancestors.tail.filter fun above => above != Path.root && !inIsolation above places
  ({ directories := dedupPaths (directories.insertionSort byBytes)
     base
     links
     resolver := resolverTarget
     filteredResolver
     places },
   skippedBase system facts ++ skippedResolver)

/-- Sets aside the `hide` items that name nothing shown. -/
def setAsideUnshown (mounts : ResolvedMounts) (root : ListedRoot) : ResolvedMounts :=
  let kept (item : ResolvedItem) : Bool := item.directive ≠ .hide || root.shows item.real
  { mounts with
    items := mounts.items.filter kept
    notShown := (mounts.items.filter (!kept ·)).map fun item =>
      { item, reason := ["outside what the \"listed\" mount mode shows"] } }

/-- Whether a generator's place exists and has nothing shown at or under it. -/
def unshown (facts : MountFacts) (root : ListedRoot) (expansion : Expansion) : Bool :=
  expansion.path?.any fun path => (facts.entry path).path.any fun real => !root.reaches real

/-- The policy without the generators whose places show nothing, and those left out. -/
def shownGenerators (expanded : ExpandedPolicy) (facts : MountFacts) (root : ListedRoot) :
    ExpandedPolicy × List SkippedPath :=
  let skip (role : SkippedRole) (written : PolicyPath) : SkippedPath :=
    { role
      written := written.text
      reason := ["nothing under it is shown in the \"listed\" mount mode"] }
  ({ expanded with
     scans := expanded.scans.filter fun scan => !unshown facts root scan.root
     hideMounts := expanded.hideMounts.filter fun hide => !unshown facts root hide.under },
   (expanded.scans.filter fun scan => unshown facts root scan.root).map
      (fun scan => skip .scanRoot scan.written) ++
    (expanded.hideMounts.filter fun hide => unshown facts root hide.under).map
      fun hide => skip .hideMountsUnder hide.written)

end Kakoi
