import Kakoi.Plan.Mounts

/-! The checks on where things are placed, made on the resolved mount items. -/

namespace Kakoi

/-- The protected paths, in the order they are reported. -/
structure ProtectedPaths where
  policyFiles : List Path := []
  configDir : Path
  secrets : List (String × Path) := []
  pathPrepend : List Path := []
  sharedFiles : Option Path := none

def ProtectedPaths.paths (guarded : ProtectedPaths) : List Path :=
  guarded.policyFiles ++ [guarded.configDir] ++ guarded.secrets.map Prod.snd ++
    guarded.pathPrepend ++ guarded.sharedFiles.toList

def protectedPaths (expanded : ExpandedPolicy) (layers : List Layer) (configDir : Path) :
    ProtectedPaths where
  policyFiles := layers.filterMap fun layer =>
    match layer.origin with
    | .profile path | .policyFile path => some path
    | .builtInDefault | .commandLine => none
  configDir := configDir
  secrets := expanded.secrets.toList.filterMap fun (name, expansion) =>
    expansion.path?.map fun path => (name, path)
  pathPrepend := expanded.prependPaths

/-- One written mount item by its expanded path. -/
structure WrittenItem where
  directive : Directive
  origin : LayerOrigin
  written : Text
  start : Option Variable
  path : Path

def derivedFromWorkspace : Option Variable → Bool
  | some .workspace | some .worktree | some .gitCommonDir => true
  | some .configDir | none => false

def variableOf : PolicyPath → Option Variable
  | .ofVariable start _ => some start
  | .absolute _ | .home _ => none

def WrittenItem.inheritsFromWorkspace (item : WrittenItem) : Bool :=
  derivedFromWorkspace item.start

/-- The written items that expanded to a path, and the `--workspace` path as given. -/
structure WrittenPaths where
  items : List WrittenItem := []
  workspace : Option Path := none

def writtenItem (item : ExpandedItem) : Option WrittenItem :=
  item.path.path?.map fun path =>
    { directive := item.directive
      origin := item.origin
      written := item.written.text
      start := variableOf item.written
      path }

def writtenPaths (expanded : ExpandedPolicy) (workspace : Option Path) : WrittenPaths where
  items := expanded.mounts.filterMap writtenItem
  workspace := workspace

/-- The items whose writes reach the host. -/
def writableItems (items : List ResolvedItem) : List ResolvedItem :=
  items.filter (·.directive.writesToHost)

/-- The `--workspace` given, unless its real path is the current directory. -/
def workspaceUnderCheck (written : WrittenPaths) (values : Variables) (currentDir : Path) :
    Option Path :=
  written.workspace.filter fun _ => values.workspace != currentDir

/-- A writable item the resolution of a path under check referenced. -/
structure Reference where
  item : ResolvedItem
  inherited : Bool

def Reference.how (reference : Reference) : Text :=
  let through := format
    ["through the `", reference.item.directive.name, "` item ", reference.item.real]
  if reference.inherited then
    format ["and the workspace it was expanded from resolved ", through, ","]
  else through

/-- The first writable item a place lies at or in. -/
def holder (writable : List ResolvedItem) (place : Path) : Option ResolvedItem :=
  writable.find? fun item => place.startsWith item.real

/-- The first writable item that resolving a path consulted: one holding a link the
resolution followed or a directory it passed through. -/
def consultedWritable (given : Path) (writable : List ResolvedItem) (facts : MountFacts) :
    Option ResolvedItem :=
  (facts.traversedLinks given ++ facts.visitedDirectories given).findSome? (holder writable)

def referencedWritable (path : Path) (inherits : Bool) (workspace : Option Path)
    (writable : List ResolvedItem) (facts : MountFacts) : Option Reference :=
  match consultedWritable path writable facts with
  | some item => some { item, inherited := false }
  | none =>
    ((workspace.filter fun _ => inherits).bind fun workspace =>
      consultedWritable workspace writable facts).map fun item => { item, inherited := true }

/-- The first link the resolution of a path followed inside a writable item. -/
def linkInsideWritable (path : Path) (writable : List ResolvedItem) (facts : MountFacts) :
    Option (Path × ResolvedItem) :=
  (facts.traversedLinks path).findSome? fun link =>
    (holder writable link).map fun item => (link, item)

/-- The written writable forms that resolve to an item. -/
def writableFormsOf (item : ResolvedItem) (written : WrittenPaths) (facts : MountFacts) :
    List WrittenItem :=
  written.items.filter fun form =>
    form.directive.writesToHost && (facts.entry form.path).path.any (· == item.real)

/-- The writable items none of whose written forms referenced anything writable. -/
def rootItems (written : WrittenPaths) (workspace : Option Path) (writable : List ResolvedItem)
    (facts : MountFacts) : List ResolvedItem :=
  writable.filter fun item =>
    (writableFormsOf item written facts).all fun form =>
      (referencedWritable form.path form.inheritsFromWorkspace workspace writable facts).isNone

/-- A scan root or a `hide-mounts` `under`, with what to call it. -/
structure ScanOrigin where
  role : String
  form : PolicyPath
  expansion : Expansion

def scanOrigins (expanded : ExpandedPolicy) : List ScanOrigin :=
  expanded.scans.map (fun scan =>
    { role := "the scan root", form := scan.written, expansion := scan.root }) ++
  expanded.hideMounts.map fun hide =>
    { role := "the `hide-mounts` `under`", form := hide.written, expansion := hide.under }

/-- The loop body of `check_origins`. -/
def checkOrigin (writable roots : List ResolvedItem) (workspace : Option Path)
    (facts : MountFacts) (origin : ScanOrigin) : Except Diagnostic Unit :=
  match origin.expansion.path? with
  | none => .ok ()
  | some path =>
    match (facts.entry path).path with
    | none => .ok ()
    | some real =>
      match linkInsideWritable path writable facts with
      | some (link, item) =>
        .error (.path (format
          [origin.role, " `", origin.form.text, "` at ", path, " follows the symbolic link ",
            link, " inside the `", item.directive.name, "` item ", item.real,
            ", so the link could be removed from inside the isolation and the next start would skip the origin and hide nothing under it"]))
      | none =>
        let inherits := derivedFromWorkspace (variableOf origin.form)
        match referencedWritable path inherits workspace writable facts with
        | none => .ok ()
        | some reference =>
          if roots.any (fun root => real.startsWith root.real) &&
              writable.any (fun item => item.real == real) then .ok ()
          else
            .error (.path (format
              [origin.role, " `", origin.form.text, "` at ", path, " resolves to ", real, " ",
                reference.how, " but is not the mount point of an `rw` or `rw-file` item that could not itself be redirected; the origin is not mounted, so it could be renamed or re-pointed from inside the isolation and the next start would walk an empty tree"]))

/-- The checks on the scan roots and the `under`s, made before generation. -/
def checkOrigins (expanded : ExpandedPolicy) (beforeGeneration : ResolvedMounts)
    (written : WrittenPaths) (values : Variables) (currentDir : Path) (facts : MountFacts) :
    Except Diagnostic Unit :=
  let writable := writableItems beforeGeneration.items
  let workspace := workspaceUnderCheck written values currentDir
  let roots := rootItems written workspace writable facts
  checkAll (checkOrigin writable roots workspace facts) (scanOrigins expanded)

/-- The written `ro` items, by real path, that could be swapped from inside. -/
def swappableRoItems (beforeGeneration : ResolvedMounts) (written : WrittenPaths)
    (values : Variables) (currentDir : Path) (facts : MountFacts) : List Path :=
  let writable := writableItems beforeGeneration.items
  let workspace := workspaceUnderCheck written values currentDir
  (beforeGeneration.items.filter fun item =>
    item.directive = .ro &&
      written.items.any fun form =>
        form.directive = .ro && (facts.entry form.path).path.any (· == item.real) &&
          (referencedWritable form.path form.inheritsFromWorkspace workspace writable
            facts).isSome).map (·.real)

/-- One of the three complaints of `check_prefixes`, for the first writable item a place
lies at or in. -/
def checkPlace (writable : List ResolvedItem) (complaint : Path → ResolvedItem → Text)
    (place : Path) : Except Diagnostic Unit :=
  match holder writable place with
  | some item => .error (.path (complaint place item))
  | none => .ok ()

/-- Resolving a protected path must consult nothing inside a writable item: no existing prefix, no
link, no directory it passes through. -/
def checkPrefixes (path : Path) (role : Text) (writable : List ResolvedItem)
    (facts : MountFacts) : Except Diagnostic Unit := do
  checkAll
    (checkPlace writable fun _ item => format
      [role, " ", path, " is inside the `", item.directive.name, "` item ", item.real,
        " and could be replaced from inside the isolation"])
    (path.ancestors.filterMap fun above => (facts.entry above).path)
  checkAll
    (checkPlace writable fun link item => format
      ["the symbolic link ", link, " on the way to ", role, " ", path, " is inside the `",
        item.directive.name, "` item ", item.real,
        " and could be re-pointed from inside the isolation"])
    (facts.traversedLinks path)
  checkAll
    (checkPlace writable fun directory item => format
      ["the directory ", directory, " on the way to ", role, " ", path, " is inside the `",
        item.directive.name, "` item ", item.real,
        " and its entries could be replaced from inside the isolation"])
    (facts.visitedDirectories path)

def checkNothingWritableInside (place : Path) (role holds : String)
    (writable : List ResolvedItem) (facts : MountFacts) : Except Diagnostic Unit :=
  let real := (facts.entry place).path.getD place
  match writable.find? fun item => item.real.startsWith real || item.real.startsWith place with
  | some item =>
    .error (.path (format
      ["the `", item.directive.name, "` item ", item.real, " is inside ", role, " ", place, ", ",
        holds, ", and could change them from inside the isolation"]))
  | none => .ok ()

def checkProtectedPaths (guarded : ProtectedPaths) (writable : List ResolvedItem)
    (facts : MountFacts) : Except Diagnostic Unit := do
  checkAll (fun path => checkPrefixes path ["the policy file"] writable facts) guarded.policyFiles
  checkPrefixes guarded.configDir ["the configuration directory"] writable facts
  checkNothingWritableInside guarded.configDir "the configuration directory"
    "whose profiles and secret files the next start reads" writable facts
  checkAll (fun (name, path) =>
    checkPrefixes path ["the file of secret `", name, "`"] writable facts) guarded.secrets
  checkAll (fun path => checkPrefixes path ["the `path-prepend` entry"] writable facts)
    guarded.pathPrepend
  checkAll (fun place => do
    checkPrefixes place ["the shared file place"] writable facts
    checkNothingWritableInside place "the shared file place"
      "whose files every run binds read-only" writable facts) guarded.sharedFiles.toList

/-- The exposing pairs: an item over a partner that would make something newly readable
or writable. -/
def exposes : Directive → Directive → Bool
  | .rw, .hide | .rw, .ro | .rw, .rwCopy => true
  | .rwFile, .hide | .rwFile, .ro | .rwFile, .rwCopy => true
  | .ro, .hide | .rwCopy, .hide => true
  | _, _ => false

def checkHideLinks (role : Text) (item : WrittenItem) (writable : List ResolvedItem)
    (facts : MountFacts) : Except Diagnostic Unit :=
  match linkInsideWritable item.path writable facts with
  | some (link, holding) =>
    .error (.path (format
      [role, " follows the symbolic link ", link, " inside the `", holding.directive.name,
        "` item ", holding.real, ", so the link could be removed from inside the isolation and the next start would leave the target unhidden"]))
  | none => .ok ()

/-- A path that referenced something writable must resolve at or in a root item. -/
def checkLanding (role : Text) (reference : Option Reference) (real : Path)
    (roots : List ResolvedItem) : Except Diagnostic Unit :=
  match reference with
  | none => .ok ()
  | some reference =>
    if roots.any fun root => real.startsWith root.real then .ok ()
    else
      .error (.path (format
        [role, " resolves to ", real, " ", reference.how, " but outside every `rw` and `rw-file` item that could not itself be redirected, so it could be redirected from inside the isolation"]))

/-- An item that another would invalidate, as a diagnostic names it. -/
structure Partner where
  directive : Directive
  written : Text
  path : Path

/-- The last item of a lower layer with the same identity. -/
def identicalPartner (item : WrittenItem) (real : Path) (lower : List WrittenItem)
    (facts : MountFacts) : Option Partner :=
  (lower.reverse.find? fun lower =>
    lower.origin != item.origin && (facts.entry lower.path).path.getD lower.path == real).map
    fun lower => { directive := lower.directive, written := lower.written, path := lower.path }

/-- The item in force over the innermost proper ancestor that has one. -/
def overPartner (real : Path) (inForce : List ResolvedItem) : Option Partner :=
  (real.ancestors.tail.findSome? fun above => inForce.find? fun other => other.real == above).map
    fun other => { directive := other.directive, written := other.written, path := other.real }

/-- An item that referenced something writable must not expose what it invalidates. -/
def checkReplacement (role : Text) (item : WrittenItem) (reference : Option Reference)
    (real : Path) (lower : List WrittenItem) (inForce : List ResolvedItem) (facts : MountFacts) :
    Except Diagnostic Unit :=
  if reference.isNone then .ok ()
  else
    let partners :=
      (identicalPartner item real lower facts).toList ++ (overPartner real inForce).toList
    match partners.find? fun partner => exposes item.directive partner.directive with
    | some partner =>
      .error (.path (format
        [role, " resolves to ", real, ", which is or lies inside the `", partner.directive.name,
          "` item `", partner.written, "` at ", partner.path,
          ", so it could be redirected from inside the isolation"]))
    | none => .ok ()

def checkWorkspaceLinks (workspace real : Path) (roots : List ResolvedItem)
    (written : WrittenPaths) (facts : MountFacts) : Except Diagnostic Unit :=
  match (facts.traversedLinks workspace).head? with
  | none => .ok ()
  | some link =>
    if roots.any fun root =>
        real.startsWith root.real &&
          (writableFormsOf root written facts).all fun form => !form.inheritsFromWorkspace
    then .ok ()
    else
      .error (.path (format
        ["the workspace ", workspace, " resolves to ", real, " through the symbolic link ", link,
          " but outside every `rw` and `rw-file` item with no form expanded from the workspace itself, so it could be redirected from inside the isolation"]))

/-- A written item that resolved to something, with its position in the written order. -/
structure Landed where
  index : Nat
  item : WrittenItem
  real : Path

def byLanding (left right : Landed) : Prop := left.real.byteLe right.real

instance : DecidableRel byLanding :=
  fun left right => inferInstanceAs (Decidable (left.real.byteLe right.real))

def landed (written : WrittenPaths) (facts : MountFacts) : List Landed :=
  written.items.zipIdx.filterMap fun (item, index) =>
    (facts.entry item.path).path.map fun real => { index, item, real }

/-- The loop body of `check_written_paths`. -/
def checkLanded (written : WrittenPaths) (inForce writable roots : List ResolvedItem)
    (workspace : Option Path) (facts : MountFacts) (landed : Landed) : Except Diagnostic Unit := do
  let item := landed.item
  let role := format
    ["the `", item.directive.name, "` item `", item.written, "` at ", item.path]
  let reference :=
    referencedWritable item.path item.inheritsFromWorkspace workspace writable facts
  if item.directive = .hide then checkHideLinks role item writable facts
  if item.directive ≠ .ro ∧ item.directive ≠ .rwCopy then
    checkLanding role reference landed.real roots
  checkReplacement role item reference landed.real (written.items.take landed.index) inForce facts

def checkWorkspace (written : WrittenPaths) (writable roots : List ResolvedItem)
    (values : Variables) (facts : MountFacts) (workspace : Path) : Except Diagnostic Unit := do
  let reference := (consultedWritable workspace writable facts).map fun item =>
    { item, inherited := false }
  checkLanding ["the workspace ", workspace] reference values.workspace roots
  checkWorkspaceLinks workspace values.workspace roots written facts

/-- The root-item check, the link rule and the exposing pairs over the written items, then
the same for the workspace. -/
def checkWrittenPaths (written : WrittenPaths) (inForce : List ResolvedItem) (values : Variables)
    (currentDir : Path) (facts : MountFacts) : Except Diagnostic Unit := do
  let writable := writableItems inForce
  let workspace := workspaceUnderCheck written values currentDir
  let roots := rootItems written workspace writable facts
  checkAll (checkLanded written inForce writable roots workspace facts)
    ((landed written facts).insertionSort byLanding)
  checkAll (checkWorkspace written writable roots values facts) workspace.toList

def fixedTarget (real : Path) : Bool :=
  real == Path.root || real.startsWith (Path.ofString "/dev") ||
    real.startsWith (Path.ofString "/proc")

/-- No item may land where the fixed part of the isolation mounts. -/
def checkFixedTargets (items : List ResolvedItem) : Except Diagnostic Unit :=
  match items.find? fun item => fixedTarget item.real with
  | some item =>
    .error (.path (format
      ["the `", item.directive.name, "` item `", item.written, "` resolves to ", item.real,
        ", which is `/`, `/dev`, or `/proc` or lies inside them; the isolation mounts those itself and an item there would cover or break its own view"]))
  | none => .ok ()

def isOrAncestorOf (candidate path : Path) : Bool :=
  candidate == Path.root || path.ancestors.any (· == candidate)

def checkWidth (writable : List ResolvedItem) (home : HomeDirectory) : Except Diagnostic Unit :=
  match writable.find? fun item => isOrAncestorOf item.real home.path with
  | some item =>
    .error (.path (format
      ["the `", item.directive.name, "` item ", item.real,
        " is `/`, the home directory, or an ancestor of it"]))
  | none => .ok ()

def checkWorkPlace (values : Variables) (home : HomeDirectory) : Except Diagnostic Unit :=
  checkAll (fun (name, path) =>
    if isOrAncestorOf path home.path then
      .error (.path (format
        ["the ", name, " ", path, " is `/`, the home directory, or an ancestor of it"]))
    else .ok ())
    [("worktree", values.worktree), ("workspace", values.workspace)]

/-- A `hide` in force at the current directory leaves nowhere to start in. -/
def checkCurrentDir (items : List ResolvedItem) (currentDir : Path) : Except Diagnostic Unit :=
  match (coveringItem items currentDir).filter fun item => item.directive = .hide with
  | some item =>
    .error (.path (format
      ["the current directory ", currentDir, " is inside the `hide` item ", item.real]))
  | none => .ok ()

def workPlaceWarning (items : List ResolvedItem) (values : Variables) : Option Warning :=
  if items.any fun item => item.directive = .rw &&
      (values.workspace.startsWith item.real || values.worktree.startsWith item.real)
  then none
  else some ⟨format
    ["no `rw` item covers the workspace ", values.workspace, " or the worktree ",
      values.worktree]⟩

/-- Runs the checks in the order they are reported and returns the warnings of a run that
may go on. -/
def checkPlacement (resolved : ResolvedMounts) (guarded : ProtectedPaths) (written : WrittenPaths)
    (values : Variables) (home : HomeDirectory) (currentDir : Path) (facts : MountFacts) :
    Except Diagnostic (List Warning) := do
  let writable := writableItems resolved.items
  checkProtectedPaths guarded writable facts
  checkWrittenPaths written resolved.items values currentDir facts
  checkFixedTargets resolved.items
  checkWidth writable home
  checkWorkPlace values home
  checkCurrentDir resolved.items currentDir
  return (workPlaceWarning resolved.items values).toList

end Kakoi
