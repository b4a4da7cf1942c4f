import Kakoi.Linux.OperationSequence
import Kakoi.Plan.GeneratedHiding

/-! What the bwrap operations show at a path: the deepest mount item, or what made the root. -/

namespace Kakoi.BwrapArguments

/-- The operation that puts a copy at an item's place. -/
def copyMount (item : ResolvedItem) (source : Option CopySource) : Operation :=
  match source, item.kind with
  | some (.file _ content), _ => [text "--bind-data", .copiedFile content, place item.real]
  | some (.directory _ _), _ => tmpfs item.real
  | none, .directory => tmpfs item.real
  | none, .notDirectory => [text "--ro-bind-data", .emptyFile, place item.real]

/-- The operation by which an item shows what its directive says: host content writable or
read-only, a copy, or nothing. -/
def itemMount (provisions : Provisions) (copies : PathMap CopySource) (item : ResolvedItem) :
    Operation :=
  match item.directive, item.kind with
  | .rw, _ | .rwFile, _ => [text "--bind", place item.real, place item.real]
  | .ro, _ => readOnlyBind item.real item.real
  | .rwCopy, _ => copyMount item (copies item.real)
  | .hide, .directory => tmpfs item.real
  | .hide, .notDirectory => put provisions .empty item.real

attribute [local simp] covers

section Items

variable {provisions : Provisions}

theorem lastCovering_single (mounts : destination operation = some target) (path : Path) :
    lastCovering [operation] path = if path.startsWith target then some operation else none := by
  simp only [lastCovering, List.reverse_singleton, List.find?_cons, List.find?_nil,
    covers_some mounts]
  cases path.startsWith target <;> rfl

theorem lastCovering_behind (uncovering : ∀ operation ∈ back, covers path operation = false) :
    lastCovering (front ++ back) path = lastCovering front path := by
  rw [lastCovering_append, lastCovering_eq_none.mpr uncovering, Option.none_or]

theorem lastCovering_before (uncovering : ∀ operation ∈ front, covers path operation = false) :
    lastCovering (front ++ back) path = lastCovering back path := by
  rw [lastCovering_append, lastCovering_eq_none.mpr uncovering, Option.or_none]

theorem entryOperations_uncovering (item : ResolvedItem) (entry : CopiedEntry) (path : Path) :
    ∀ operation ∈ entryOperations item entry, covers path operation = false := by
  unfold entryOperations
  cases entry <;> simp

theorem permissions_uncovering (mode : String) (path : Path) :
    ∀ operation ∈ [permissions mode], covers path operation = false := by
  simp

theorem lastCovering_copy (item : ResolvedItem) (source : Option CopySource) (path : Path) :
    lastCovering (copyOperations item source) path =
      if path.startsWith item.real then some (copyMount item source) else none := by
  unfold copyOperations copyMount
  cases source with
  | none =>
    cases item.kind with
    | directory => exact lastCovering_single (destination_tmpfs _) path
    | notDirectory => exact lastCovering_single (destination_readOnlyData _ _) path
  | some source =>
    cases source with
    | file mode content =>
      exact (lastCovering_before (permissions_uncovering _ path)).trans
        (lastCovering_single (destination_bindData _ _) path)
    | directory mode entries =>
      have seeded : ∀ operation ∈ entries.flatMap (entryOperations item),
          covers path operation = false :=
        List.forall_mem_flatMap.mpr fun entry _ => entryOperations_uncovering item entry path
      refine (lastCovering_behind seeded).trans ?_
      exact (lastCovering_before (permissions_uncovering _ path)).trans
        (lastCovering_single (destination_tmpfs _) path)

/-- Of the operations of one item, its mount is the one that covers. -/
theorem lastCovering_item (item : ResolvedItem) :
    lastCovering (itemOperations provisions copies item) path =
      if path.startsWith item.real then some (itemMount provisions copies item) else none := by
  unfold itemOperations itemMount
  cases item.directive with
  | rw => exact lastCovering_single (destination_bind _ _) path
  | rwFile => exact lastCovering_single (destination_bind _ _) path
  | ro => exact lastCovering_single (destination_readOnlyBind _ _) path
  | rwCopy => exact lastCovering_copy item (copies item.real) path
  | hide =>
    cases item.kind with
    | directory => exact lastCovering_single (destination_tmpfs _) path
    | notDirectory => exact lastCovering_single (destination_put _ _ _) path

/-- Of the operations of all the items, the mount of the item in force covers. -/
theorem lastCovering_items (items : List ResolvedItem) :
    lastCovering (items.flatMap (itemOperations provisions copies)) path =
      (coveringItem items path).map (itemMount provisions copies) := by
  induction items using List.reverseRecOn with
  | nil => rfl
  | append_singleton front last ih =>
    have covering : coveringItem (front ++ [last]) path =
        if path.startsWith last.real then some last else coveringItem front path := by
      simp only [coveringItem, List.reverse_append, List.reverse_singleton, List.cons_append,
        List.nil_append, List.find?_cons]
      cases path.startsWith last.real <;> rfl
    rw [List.flatMap_append, List.flatMap_singleton, lastCovering_append, ih, lastCovering_item,
      covering]
    split <;> simp

end Items

section Outside

variable {path : Path}

theorem outside_below (outside : path.startsWith above = false)
    (below : target.startsWith above = true) : path.startsWith target = false := by
  apply Bool.eq_false_iff.mpr
  intro inside
  rw [Path.startsWith_trans inside below] at outside
  cases outside

theorem absolute_below_root (absolute : path.isAbsolute = true) : path.startsWith Path.root = true := by
  rw [Path.startsWith_iff]
  simp only [Path.components, absolute, ↓reduceIte]
  exact ⟨_, rfl⟩

/-- Outside the places bwrap provides itself, the first operation is the fixed one in
force. -/
theorem lastCovering_fixed (networkMode : NetworkMode) (currentDir : Path) (provisions : Provisions)
    (absolute : path.isAbsolute = true) (dev : path.startsWith (Path.ofString "/dev") = false)
    (proc : path.startsWith (Path.ofString "/proc") = false) :
    lastCovering (fixedOperations networkMode currentDir provisions) path =
      some (if provisions.listed.isSome then tmpfs Path.root
        else readOnlyBind Path.root Path.root) := by
  have inDev : ∀ place : Path, place.startsWith (Path.ofString "/dev") = true →
      path.startsWith place = false := fun place below => outside_below dev below
  have mark := inDev nestingMark (by decide +kernel)
  have tun := inDev tunDevice (by decide +kernel)
  have guards := inDev guardRoot (by decide +kernel)
  unfold fixedOperations
  simp only [List.append_assoc]
  rw [lastCovering_behind]
  · have covered := absolute_below_root absolute
    cases provisions.listed with
    | none =>
      have single := lastCovering_single (destination_readOnlyBind Path.root Path.root) path
      simpa [covered] using single
    | some root => simpa [covered] using lastCovering_single (destination_tmpfs Path.root) path
  · simp only [List.forall_mem_append]
    refine ⟨?_, ?_, ?_, ?_, ?_, ?_, ?_⟩
    · simp [dev, mark]
    · split <;> simp [tun]
    · split <;> simp [guards]
    · simp [proc]
    · split <;> simp
    · split <;> simp
    · simp

theorem directory_uncovering (place path : Path) :
    ∀ operation ∈ directory place, covers path operation = false := by
  simp [directory]

theorem overlay_uncovering (kakoi : Path) (program : path.startsWith made.1 = false)
    (relocated : path.startsWith made.2 = false) :
    ∀ operation ∈ overlayOperations kakoi made, covers path operation = false := by
  simp only [overlayOperations, List.forall_mem_append]
  constructor
  · exact List.forall_mem_flatMap.mpr fun place _ => directory_uncovering place path
  · simp [program, relocated]

/-- The guards cover nothing but what is in their tmpfs and the programs overlaid. -/
theorem guardTmpfs_uncovering (kakoi : Path) (root : path.startsWith guardRoot = false)
    (placed : ∀ placed ∈ guards.placed, placed.guard.startsWith guardRoot = true)
    (relocated : ∀ made ∈ guards.overlaid, made.2.startsWith guardRoot = true)
    (overlaid : ∀ made ∈ guards.overlaid, path.startsWith made.1 = false) :
    ∀ operation ∈ guardTmpfs kakoi guards, covers path operation = false := by
  have table : path.startsWith guardTable = false := outside_below root (by decide +kernel)
  simp only [guardTmpfs, List.forall_mem_append]
  refine ⟨⟨⟨⟨⟨?_, directory_uncovering guardLocation path⟩, ?_⟩, ?_⟩, ?_⟩, ?_⟩
  · simp [root]
  · refine List.forall_mem_map.mpr fun guard listed => ?_
    simp [outside_below root (placed guard listed)]
  · refine List.forall_mem_flatMap.mpr fun made listed => ?_
    exact overlay_uncovering kakoi (overlaid made listed) (outside_below root (relocated made listed))
  · simp [readOnlyData, table]
  · simp

theorem firstProcessTmpfs_uncovering (limits : CommandLimits)
    (first : path.startsWith firstRoot = false) :
    ∀ operation ∈ firstProcessTmpfs limits, covers path operation = false := by
  have process : path.startsWith firstProcess = false := outside_below first (by decide +kernel)
  have list : path.startsWith allowedList = false := outside_below first (by decide +kernel)
  simp [firstProcessTmpfs, readOnlyData, first, process, list]

theorem guards_uncovering (dev : path.startsWith (Path.ofString "/dev") = false)
    (placed : ∀ placed ∈ guards.placed, placed.guard.startsWith guardRoot = true)
    (relocated : ∀ made ∈ guards.overlaid, made.2.startsWith guardRoot = true)
    (overlaid : ∀ made ∈ guards.overlaid, path.startsWith made.1 = false)
    (commands : Option CommandLimits) :
    ∀ operation ∈ guardOperations guards commands, covers path operation = false := by
  simp only [guardOperations, List.forall_mem_append]
  constructor
  · split
    · split
      · simp
      · have root : path.startsWith guardRoot = false := outside_below dev (by decide +kernel)
        exact guardTmpfs_uncovering _ root placed relocated overlaid
    · simp
  · have first : path.startsWith firstRoot = false := outside_below dev (by decide +kernel)
    exact List.forall_mem_flatMap.mpr fun limits _ => firstProcessTmpfs_uncovering limits first

/-- Of the operations that make the "listed" root, one that covers binds a base directory
or the resolver's target at or above the path, or makes `/tmp`. -/
theorem lastCovering_listed (root : ListedRoot) (path : Path) :
    lastCovering (listedOperations root) path = none ∨
      lastCovering (listedOperations root) path = some (tmpfs (Path.ofString "/tmp")) ∨
      ∃ shown, (shown ∈ root.base ∨ root.resolver = some shown) ∧ path.startsWith shown = true ∧
        lastCovering (listedOperations root) path = some (readOnlyBind shown shown) := by
  cases last : lastCovering (listedOperations root) path with
  | none => exact .inl rfl
  | some operation =>
    have covering : covers path operation = true := List.find?_some last
    have member : operation ∈ listedOperations root :=
      List.mem_reverse.mp (List.mem_of_find?_eq_some last)
    simp only [listedOperations, List.mem_append, List.mem_map, Option.mem_toList] at member
    right
    rcases member with (((start | directories) | ⟨base, listed, rfl⟩) | ⟨link, -, rfl⟩) | ⟨target, found, rfl⟩
    · rcases List.mem_cons.mp start with rfl | made
      · simp at covering
      · exact .inl (congrArg some (List.mem_singleton.mp made))
    · obtain ⟨place, -, inside⟩ := List.mem_flatMap.mp directories
      rw [directory_uncovering place path operation inside] at covering
      cases covering
    · exact .inr ⟨base, .inl listed, by simpa using covering, rfl⟩
    · simp at covering
    · exact .inr ⟨target, .inr found, by simpa using covering, rfl⟩

end Outside

/-- The item in force at a path, with what is mounted before and after it. -/
theorem coveringItem_split (covering : coveringItem items path = some item) :
    ∃ front back, items = front ++ item :: back ∧
      ∀ later ∈ back, path.startsWith later.real = false := by
  obtain ⟨-, later, earlier, split, passed⟩ := List.find?_eq_some_iff_append.mp covering
  refine ⟨earlier.reverse, later.reverse, by simpa using congrArg List.reverse split, ?_⟩
  intro other member
  simpa using passed other (List.mem_reverse.mp member)

/-- A run of the generator for an accepted isolation. -/
structure Launch where
  inputs : Inputs
  isolation : Isolation
  copies : PathMap CopySource
  rules : List GuardEntry
  pathPresent : Bool
  names : Std.ExtTreeMap String (List NameFact)
  kakoi : Option Path
  kakoiFile : Option FileId
  executable : Option Path
  commands : Option CommandLimits
  command : Option ResolvedCommand

namespace Launch

def guards (launch : Launch) : GuardPlan :=
  { placeGuards launch.rules launch.pathPresent launch.names launch.isolation.mounts.items
      launch.kakoi launch.kakoiFile with executable := launch.executable }

def provisions (launch : Launch) : Provisions :=
  Kakoi.provisions launch.inputs launch.isolation launch.commands

def parts (launch : Launch) : Parts :=
  bwrapParts launch.inputs.policy.networkMode launch.inputs.currentDir
    launch.isolation.mounts.items launch.copies launch.guards launch.provisions launch.command

def arguments (launch : Launch) : List Argument :=
  (bwrapArgumentsWithLayout launch.inputs.policy.networkMode launch.inputs.currentDir
    launch.isolation.mounts.items launch.copies launch.guards launch.provisions launch.command).1

end Launch

/-- A path that bwrap does not provide itself, that is not in the managed resolver
configuration, and that is in no overlaid program. -/
structure Outside (launch : Launch) (path : Path) : Prop where
  absolute : path.isAbsolute = true
  dev : path.startsWith (Path.ofString "/dev") = false
  proc : path.startsWith (Path.ofString "/proc") = false
  resolver : launch.inputs.policy.networkMode = .filtered →
    path.startsWith (resolverDestination launch.provisions) = false
  overlaid : ∀ made ∈ launch.guards.overlaid, path.startsWith made.1 = false

namespace Outside

/-- What comes after the mount items covers nothing outside. -/
theorem uncovered_after (outside : Outside launch path)
    (allowed : ∀ entry ∈ launch.rules, entry.rule.programAllowed = true) :
    ∀ operation ∈ launch.parts.resolver ++ launch.parts.guards, covers path operation = false := by
  obtain ⟨placed, relocated, -⟩ := placeGuards_inside allowed launch.pathPresent launch.names
    launch.isolation.mounts.items launch.kakoi launch.kakoiFile
  have inTmpfs : ∀ placed ∈ launch.guards.placed, placed.guard.startsWith guardRoot = true := placed
  have moved : ∀ made ∈ launch.guards.overlaid, made.2.startsWith guardRoot = true := relocated
  simp only [Launch.parts, bwrapParts, List.forall_mem_append]
  refine ⟨?_, guards_uncovering outside.dev inTmpfs moved outside.overlaid _, ?_⟩
  · unfold resolverOperations
    split
    · rename_i filtered
      simp [outside.resolver filtered]
    · simp
  · simp

/-- The operation in force is that of the mount items, then that of the "listed" root,
then the fixed one. -/
theorem lastCovering_launch (outside : Outside launch path)
    (allowed : ∀ entry ∈ launch.rules, entry.rule.programAllowed = true) :
    lastCovering launch.parts.operations path =
      ((coveringItem launch.isolation.mounts.items path).map
          (itemMount launch.provisions launch.copies)).or
        ((launch.isolation.listed.bind fun root => lastCovering (listedOperations root) path).or
          (some (if launch.isolation.listed.isSome then tmpfs Path.root
            else readOnlyBind Path.root Path.root))) := by
  have fixed := lastCovering_fixed launch.inputs.policy.networkMode launch.inputs.currentDir
    launch.provisions outside.absolute outside.dev outside.proc
  have named : ∀ operation ∈ launch.parts.argv0, covers path operation = false := by
    simp [Launch.parts, bwrapParts]
  have listed : lastCovering (launch.isolation.listed.toList.flatMap listedOperations) path =
      launch.isolation.listed.bind fun root => lastCovering (listedOperations root) path := by
    cases launch.isolation.listed with
    | none => rfl
    | some root => simp
  unfold Parts.operations
  rw [List.append_assoc, lastCovering_behind (outside.uncovered_after allowed), lastCovering_append,
    lastCovering_behind named]
  simp only [Launch.parts, bwrapParts]
  rw [lastCovering_append, lastCovering_items, fixed]
  have same : launch.provisions.listed = launch.isolation.listed := rfl
  rw [same, listed, Option.or_assoc]

end Outside

theorem listed_iff_mode (accepted : resolveIsolation inputs facts = .ok isolation) :
    isolation.listed.isSome = true ↔ inputs.policy.mountsMode = .listed := by
  obtain ⟨laid, warnings, placed, -, -, same⟩ := resolveIsolation_ok accepted
  obtain ⟨written, generated, -, -, -, rfl⟩ := resolveMounts_ok placed
  rw [same, layListed]
  split
  · rename_i mode
    simp [mode]
  · rename_i mode
    simp [mode]

/-- The last operation that covers a path is the mount of the deepest item at or above it,
or, where no item is, the operation that made the root there. -/
theorem last_covering_operation (launch : Launch)
    (collected : collectFacts host launch.inputs = .ok facts)
    (accepted : resolveIsolation launch.inputs { mounts := facts, secrets } = .ok launch.isolation)
    (allowed : ∀ entry ∈ launch.rules, entry.rule.programAllowed = true)
    (outside : Outside launch path) :
    ∃ sequence, operations launch.arguments = .ok (indexed 0 sequence) ∧
      ((∃ item ∈ launch.isolation.mounts.items, path.startsWith item.real = true ∧
          (∀ other ∈ launch.isolation.mounts.items, path.startsWith other.real = true →
            item.real.startsWith other.real = true) ∧
          (∃ before after,
            sequence = before ++ itemOperations launch.provisions launch.copies item ++ after ∧
              ∀ operation ∈ after, covers path operation = false) ∧
          lastCovering sequence path = some (itemMount launch.provisions launch.copies item)) ∨
        (∀ item ∈ launch.isolation.mounts.items, path.startsWith item.real = false) ∧
          (launch.inputs.policy.mountsMode ≠ .listed →
            lastCovering sequence path = some (readOnlyBind Path.root Path.root)) ∧
          (launch.inputs.policy.mountsMode = .listed → ∃ root, launch.isolation.listed = some root ∧
            ((∃ shown, (shown ∈ root.base ∨ root.resolver = some shown) ∧
                path.startsWith shown = true ∧
                lastCovering sequence path = some (readOnlyBind shown shown)) ∨
              lastCovering sequence path = some (tmpfs (Path.ofString "/tmp")) ∨
              lastCovering sequence path = some (tmpfs Path.root)))) := by
  have ordered := isolation_ordered (collectFacts_grounded collected) accepted
  have last := outside.lastCovering_launch allowed
  refine ⟨launch.parts.operations, bwrapArguments_operations .., ?_⟩
  cases covering : coveringItem launch.isolation.mounts.items path with
  | some item =>
    obtain ⟨member, covers, deepest⟩ := coveringItem_deepest ordered covering
    rw [covering, Option.map_some, Option.some_or] at last
    refine .inl ⟨item, member, covers, deepest, ?_, last⟩
    obtain ⟨front, back, split, later⟩ := coveringItem_split covering
    refine ⟨launch.parts.fixed ++ launch.parts.argv0 ++
      launch.isolation.listed.toList.flatMap listedOperations ++
      front.flatMap (itemOperations launch.provisions launch.copies),
      back.flatMap (itemOperations launch.provisions launch.copies) ++
        (launch.parts.resolver ++ launch.parts.guards), ?_, ?_⟩
    · have mounts : launch.parts.mounts =
          launch.isolation.listed.toList.flatMap listedOperations ++
            (front ++ item :: back).flatMap (itemOperations launch.provisions launch.copies) := by
        rw [← split]
        rfl
      simp [Parts.operations, mounts]
    · refine List.forall_mem_append.mpr ⟨?_, outside.uncovered_after allowed⟩
      refine List.forall_mem_flatMap.mpr fun other listed => lastCovering_eq_none.mp ?_
      rw [lastCovering_item, later other listed]
      rfl
  | none =>
    rw [covering, Option.map_none, Option.none_or] at last
    refine .inr ⟨?_, ?_, ?_⟩
    · intro item member
      simpa using List.find?_eq_none.mp covering item (List.mem_reverse.mpr member)
    · intro mode
      have absent : launch.isolation.listed = none := by
        rw [← Option.not_isSome_iff_eq_none, listed_iff_mode accepted]
        exact mode
      rw [last, absent]
      rfl
    · intro mode
      obtain ⟨root, found⟩ := Option.isSome_iff_exists.mp ((listed_iff_mode accepted).mpr mode)
      refine ⟨root, found, ?_⟩
      rw [found, Option.bind_some] at last
      rcases lastCovering_listed root path with none | tmp | ⟨shown, listed, above, bound⟩
      · rw [none] at last
        exact .inr (.inr last)
      · rw [tmp] at last
        exact .inr (.inl last)
      · rw [bound] at last
        exact .inl ⟨shown, listed, above, last⟩

/-- A launch without guards or command. -/
def bareLaunch (inputs : Inputs) (isolation : Isolation) : Launch where
  inputs := inputs
  isolation := isolation
  copies := .empty
  rules := []
  pathPresent := true
  names := ∅
  kakoi := none
  kakoiFile := none
  executable := none
  commands := none
  command := none

def shownSecretsLaunch : Isolation → Launch := bareLaunch shownSecretsInputs

theorem shown_secrets_covered :
    ∃ isolation sequence operation,
      resolveIsolation shownSecretsInputs { mounts := shownSecretsFacts } = .ok isolation ∧
        operations (shownSecretsLaunch isolation).arguments = .ok (indexed 0 sequence) ∧
        lastCovering sequence (Path.ofString "/cfg/secrets/token") = some operation := by
  obtain ⟨isolation, accepted⟩ := shownSecrets_accepted
  have outside : Outside (shownSecretsLaunch isolation) (Path.ofString "/cfg/secrets/token") := {
    absolute := by decide +kernel
    dev := by decide +kernel
    proc := by decide +kernel
    resolver := fun filtered => by cases filtered
    overlaid := by simp [Launch.guards, shownSecretsLaunch, bareLaunch, placeGuards, programs] }
  obtain ⟨sequence, read, shown⟩ := last_covering_operation (shownSecretsLaunch isolation)
    shownSecrets_collected accepted (by simp [shownSecretsLaunch, bareLaunch]) outside
  rcases shown with ⟨item, -, -, -, -, last⟩ | ⟨-, host, -⟩
  · exact ⟨isolation, sequence, _, accepted, read, last⟩
  · have mode : shownSecretsInputs.policy.mountsMode ≠ .listed := by decide
    exact ⟨isolation, sequence, _, accepted, read, host mode⟩

end Kakoi.BwrapArguments
