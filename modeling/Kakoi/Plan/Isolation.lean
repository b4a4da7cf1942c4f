import Kakoi.Linux.MountFacts
import Kakoi.Plan.IsolatedEnv
import Kakoi.Plan.Listed
import Kakoi.Plan.Placement

/-! The decisions of stage 7 from explicit inputs and observed facts. -/

namespace Kakoi

open Std (ExtTreeMap)

/-- The values stage 7 uses; the state of the host is observed by the outer layer. -/
structure Inputs where
  layers : List Layer := []
  policy : Policy
  expanded : ExpandedPolicy
  values : Variables
  home : HomeDirectory
  configDir : Path
  workspace : Option Path := none
  currentDir : Path
  host : Values := ∅
  sharedFiles : Option Path := none
  outerGuard : Bool := false

/-- A policy whose only item is the work place. -/
def workplaceInputs : Inputs where
  policy := {}
  expanded := { mounts := [.absolute .rw .builtInDefault "/w"] }
  values := { workspace := .ofString "/w", worktree := .ofString "/w" }
  home := ⟨.ofString "/home"⟩
  configDir := .ofString "/cfg"
  currentDir := .ofString "/w"

structure IsolationFacts where
  mounts : MountFacts
  secrets : ExtTreeMap String SecretFile := ∅

structure Isolation where
  mounts : ResolvedMounts
  sourcePaths : List (Path × Path)
  skippedPaths : List SkippedPath
  environment : Environment
  warnings : List Warning
  policySources : List PolicySource
  listed : Option ListedRoot

def listedRootOf (inputs : Inputs) (items : List ResolvedItem) (facts : MountFacts) :
    ListedRoot × List SkippedPath :=
  listedRoot inputs.policy.mountsSystem inputs.policy.networkMode items inputs.expanded facts

/-- The generators the "listed" mount mode keeps, given the written items as resolved. -/
def listedGenerators (inputs : Inputs) (facts : MountFacts) (written : ResolvedMounts) :
    ExpandedPolicy × List SkippedPath :=
  shownGenerators inputs.expanded facts (listedRootOf inputs written.items facts).1

/-- The generators that apply, before the outer layer observes anything for them. -/
def generatingPolicy (inputs : Inputs) (facts : MountFacts) :
    Except Diagnostic (ExpandedPolicy × List SkippedPath) := do
  if inputs.policy.mountsMode ≠ .listed then return (inputs.expanded, [])
  let written ← resolveWritten inputs.expanded facts
  return listedGenerators inputs facts written

def placesSharedFiles (networkMode : NetworkMode) (items : List ResolvedItem) : Bool :=
  networkMode = .filtered ||
    items.any fun item => item.directive = .hide && item.kind = .notDirectory

def usedSharedFiles (inputs : Inputs) (items : List ResolvedItem) : Option Path :=
  inputs.sharedFiles.filter fun _ => placesSharedFiles inputs.policy.networkMode items

def checkCurrentDirShown (currentDir : Path) (root : ListedRoot) : Except Diagnostic Unit :=
  if root.shows currentDir then .ok ()
  else
    .error (.path (format
      ["the current directory ", currentDir,
        " is not among the places the \"listed\" mount mode shows"]))

/-- The written `rw`, `rw-file` and `ro` paths whose items are selected, with their real
paths. -/
def sourcePaths (expanded : ExpandedPolicy) (items : List ResolvedItem) (facts : MountFacts) :
    List (Path × Path) :=
  expanded.mounts.filterMap fun item =>
    if item.directive = .rwCopy || item.directive = .hide then none
    else
      item.path.path?.bind fun written =>
        (facts.entry written).path.bind fun real =>
          if items.any fun selected => selected.real == real && selected.directive = item.directive
          then some (written, real)
          else none

/-- The mount items as laid, with the "listed" root and the paths skipped for it. -/
structure Laid where
  mounts : ResolvedMounts
  listed : Option ListedRoot
  skipped : List SkippedPath

/-- In "listed" mode, the root for the generated items, and the hides that name nothing
shown set aside. -/
def layListed (inputs : Inputs) (facts : MountFacts) (generated : ResolvedMounts)
    (skippedGenerators : List SkippedPath) : Laid :=
  if inputs.policy.mountsMode = .listed then
    let (root, skippedBase) := listedRootOf inputs generated.items facts
    { mounts := setAsideUnshown generated root
      listed := some root
      skipped := skippedBase ++ skippedGenerators }
  else { mounts := generated, listed := none, skipped := [] }

/-- The generators that apply, from the written items already resolved. -/
def chosenGenerators (inputs : Inputs) (facts : MountFacts) (written : ResolvedMounts) :
    ExpandedPolicy × List SkippedPath :=
  if inputs.policy.mountsMode = .listed then listedGenerators inputs facts written
  else (inputs.expanded, [])

/-- Stage 7 up to the placement checks: origins, generation, the "listed" root. -/
def resolveMounts (inputs : Inputs) (facts : MountFacts) : Except Diagnostic Laid := do
  let written := writtenPaths inputs.expanded inputs.workspace
  let beforeGeneration ← resolveWritten inputs.expanded facts
  checkOrigins inputs.expanded beforeGeneration written inputs.values inputs.currentDir facts
  let swappableRo :=
    swappableRoItems beforeGeneration written inputs.values inputs.currentDir facts
  -- The same choice the outer layer made with `generatingPolicy`.
  let generators := chosenGenerators inputs facts beforeGeneration
  let generated ←
    generate beforeGeneration generators.1 inputs.layers inputs.values facts swappableRo
  return layListed inputs facts generated generators.2

def guardedPaths (inputs : Inputs) (items : List ResolvedItem) : ProtectedPaths :=
  { protectedPaths inputs.expanded inputs.layers inputs.configDir with
    sharedFiles := usedSharedFiles inputs items }

def checkLaid (inputs : Inputs) (facts : MountFacts) (laid : Laid) :
    Except Diagnostic (List Warning) := do
  let written := writtenPaths inputs.expanded inputs.workspace
  let warnings ← checkPlacement laid.mounts (guardedPaths inputs laid.mounts.items) written
    inputs.values inputs.home inputs.currentDir facts
  checkAll (checkCurrentDirShown inputs.currentDir) laid.listed.toList
  return warnings

/-- Stage 7 in diagnostic order: origins, generation, placement, then environment. -/
def resolveIsolation (inputs : Inputs) (facts : IsolationFacts) : Except Diagnostic Isolation := do
  let laid ← resolveMounts inputs facts.mounts
  let warnings ← checkLaid inputs facts.mounts laid
  let pathPrepend := inputs.expanded.prependPaths.filterMap fun entry =>
    (facts.mounts.entry entry).path
  let assembled ← assembleEnvironment inputs.policy inputs.host facts.secrets pathPrepend
  return {
    mounts := laid.mounts
    sourcePaths := sourcePaths inputs.expanded laid.mounts.items facts.mounts
    skippedPaths := skippedPaths inputs.expanded facts.mounts ++ laid.skipped
    environment := assembled.environment
    warnings := warnings ++ assembled.warnings
    policySources := policySources inputs.layers facts.mounts
    listed := laid.listed }

/-- The paths the "listed" mount mode looks up besides the policy's own. -/
def listedLookups (policy : Policy) : List Path :=
  if policy.mountsMode ≠ .listed then [] else rootLookups policy.mountsSystem

/-- The paths the items of `commands.allow` expand to. -/
def commandLookups (policy : Policy) (values : Variables) (home : HomeDirectory) : List Path :=
  policy.commandsAllow.filterMap fun item => (expand item values home).path?

/-- Every path the resolution protects, the shared file place whether or not it is used. -/
def lookedUpPaths (inputs : Inputs) : List Path :=
  ProtectedPaths.paths
    { protectedPaths inputs.expanded inputs.layers inputs.configDir with
      sharedFiles := inputs.sharedFiles }

/-- What a start asks the outer layer to look up. -/
def wantedCandidates (inputs : Inputs) : Candidates :=
  ((candidates inputs.expanded (lookedUpPaths inputs) inputs.values inputs.workspace).withWalked
    (listedLookups inputs.policy)).withWalked
    (commandLookups inputs.policy inputs.values inputs.home)

/-- The facts a start collects: the paths first, then what the scans find and the mount
list, only for the generators that apply. -/
def collectFacts (host : Host) (inputs : Inputs) : Except Diagnostic MountFacts := do
  let wanted := wantedCandidates inputs
  let facts := collectPathFacts host wanted
  let generators ← generatingPolicy inputs facts
  return collectGeneratorFacts host (wanted.forGenerators generators.1) facts

section Inversion

variable {inputs : Inputs}

theorem resolveIsolation_ok (accepted : resolveIsolation inputs facts = .ok isolation) :
    ∃ laid warnings, resolveMounts inputs facts.mounts = .ok laid ∧
      checkLaid inputs facts.mounts laid = .ok warnings ∧ isolation.mounts = laid.mounts ∧
      isolation.listed = laid.listed := by
  unfold resolveIsolation at accepted
  obtain ⟨laid, resolved, accepted⟩ := Except.bind_eq_ok.mp accepted
  obtain ⟨warnings, checked, accepted⟩ := Except.bind_eq_ok.mp accepted
  obtain ⟨assembled, -, accepted⟩ := Except.bind_eq_ok.mp accepted
  cases accepted
  exact ⟨laid, warnings, resolved, checked, rfl, rfl⟩

theorem resolveMounts_ok (accepted : resolveMounts inputs facts = .ok laid) :
    ∃ before generated, resolveWritten inputs.expanded facts = .ok before ∧
      checkOrigins inputs.expanded before (writtenPaths inputs.expanded inputs.workspace)
        inputs.values inputs.currentDir facts = .ok () ∧
      generate before (chosenGenerators inputs facts before).1 inputs.layers inputs.values facts
        (swappableRoItems before (writtenPaths inputs.expanded inputs.workspace) inputs.values
          inputs.currentDir facts) = .ok generated ∧
      laid = layListed inputs facts generated (chosenGenerators inputs facts before).2 := by
  unfold resolveMounts at accepted
  obtain ⟨before, resolved, accepted⟩ := Except.bind_eq_ok.mp accepted
  obtain ⟨origins, accepted⟩ := Except.check_eq_ok.mp accepted
  obtain ⟨generated, made, accepted⟩ := Except.bind_eq_ok.mp accepted
  cases accepted
  exact ⟨before, generated, resolved, origins, made, rfl⟩

theorem checkLaid_ok (accepted : checkLaid inputs facts laid = .ok warnings) :
    checkPlacement laid.mounts (guardedPaths inputs laid.mounts.items)
      (writtenPaths inputs.expanded inputs.workspace) inputs.values inputs.home inputs.currentDir
      facts = .ok warnings ∧ ∀ root ∈ laid.listed, root.shows inputs.currentDir = true := by
  unfold checkLaid at accepted
  obtain ⟨found, placed, accepted⟩ := Except.bind_eq_ok.mp accepted
  obtain ⟨shown, accepted⟩ := Except.check_eq_ok.mp accepted
  cases accepted
  refine ⟨placed, ?_⟩
  intro root listed
  have passed := checkAll_ok.mp shown root (by simpa using listed)
  unfold checkCurrentDirShown at passed
  split at passed
  · assumption
  · cases passed

theorem checkPlacement_ok
    (accepted : checkPlacement resolved guarded written values home currentDir facts = .ok warnings) :
    checkWrittenPaths written resolved.items values currentDir facts = .ok () ∧
      checkFixedTargets resolved.items = .ok () := by
  unfold checkPlacement at accepted
  obtain ⟨-, accepted⟩ := Except.check_eq_ok.mp accepted
  obtain ⟨rewritten, accepted⟩ := Except.check_eq_ok.mp accepted
  obtain ⟨targets, -⟩ := Except.check_eq_ok.mp accepted
  exact ⟨rewritten, targets⟩

theorem checkFixedTargets_ok (accepted : checkFixedTargets items = .ok ()) :
    ∀ item ∈ items, fixedTarget item.real = false := by
  unfold checkFixedTargets at accepted
  split at accepted
  · cases accepted
  · rename_i passed
    simpa [List.find?_eq_none] using passed

/-- No item of an accepted isolation is where the fixed part of it mounts. -/
theorem isolation_targets (accepted : resolveIsolation inputs facts = .ok isolation) :
    ∀ item ∈ isolation.mounts.items, fixedTarget item.real = false := by
  obtain ⟨laid, warnings, -, checked, mounts, -⟩ := resolveIsolation_ok accepted
  rw [mounts]
  exact checkFixedTargets_ok (checkPlacement_ok (checkLaid_ok checked).1).2

end Inversion

end Kakoi
