import Kakoi.Linux.GuardLocations
import Kakoi.Linux.LaunchBookkeeping

/-! The stages of a launch from the library, and what is recorded for it at each of them. -/

namespace Kakoi.HelperPlacement

open BwrapArguments

/-- What a launch is given and what the file system answers it. -/
structure LaunchWorld where
  guardImage : Option FileContent
  openPath : Nat → Path → Except String Opened
  putInPlace : Path → List SharedFile → Bool
  resolver : ResolverFacts
  initImage : FileContent
  initPath : Path
  tryClone : RetainedMount → Except String Nat

inductive Stage where
  | placed (plan : Plan)
  | retained (plan : Plan) (mounts : List RetainedMount)
  | settled (plan : Plan) (mounts : List RetainedMount)
  | resolved (plan : Plan) (mounts : List RetainedMount)
  | started (plan : Plan) (mounts : List RetainedMount)

namespace Stage

def plan : Stage → Plan
  | .placed plan | .retained plan _ | .settled plan _ | .resolved plan _ | .started plan _ => plan

def mounts : Stage → List RetainedMount
  | .placed _ => []
  | .retained _ mounts | .settled _ mounts | .resolved _ mounts | .started _ mounts => mounts

end Stage

/-- Where the resolver configuration may have been put by a stage. -/
def LaunchWorld.moved (world : LaunchWorld) : Stage → Option Path
  | .placed _ | .retained _ _ | .settled _ _ => none
  | .resolved _ _ | .started _ _ => world.resolver.target

/-- The stages a launch reaches, each by the step of the source that leads to it. -/
inductive Reaches (launch : Launch) (world : LaunchWorld) : Stage → Prop where
  | place (placed : place (planOf launch) world.guardImage = .ok plan) :
      Reaches launch world (.placed plan)
  | retain (reached : Reaches launch world (.placed plan))
      (separated : plan.launchLayout.commandSeparator = some separator)
      (retained : retain world.openPath (plan.arguments.take separator) = .ok mounts) :
      Reaches launch world (.retained plan mounts)
  | settle (reached : Reaches launch world (.retained plan mounts))
      (settled : settleShared world.putInPlace world.openPath plan.arguments mounts = .ok result) :
      Reaches launch world (.settled { plan with arguments := result.1 } result.2)
  | resolver (reached : Reaches launch world (.settled plan mounts))
      (done : launchResolver world.resolver plan mounts = .ok (next, left)) :
      Reaches launch world (.resolved next left)
  | init (reached : Reaches launch world (.resolved plan mounts))
      (started : placeInit plan world.initImage world.initPath = some next) :
      Reaches launch world (.started next mounts)

/-- What the launch makes of the resolver configuration: the parts the plan has then, and the
parts the mounts were recorded from. -/
inductive ResolverEdit (facts : ResolverFacts) (settled : Parts) : Parts → Parts → Prop where
  | kept : ResolverEdit facts settled settled settled
  | retargeted (target : Path) (asked : facts.target = some target) :
      ResolverEdit facts settled (retargetParts target settled) settled
  | reused : ResolverEdit facts settled (reuseParts settled) (reuseParts settled)

/-- The parts a stage's plan is made of, and those its mounts were recorded from. -/
inductive Follows (launch : Launch) (world : LaunchWorld) (rest : List Argument) :
    Stage → Parts → Parts → Prop where
  | placed (made : placedParts launch world.guardImage = some parts) (carries : Carries plan parts rest) :
      Follows launch world rest (.placed plan) parts parts
  | retained (made : placedParts launch world.guardImage = some parts)
      (carries : Carries plan parts rest) (retains : Retains mounts parts.operations) :
      Follows launch world rest (.retained plan mounts) parts parts
  | settled (made : placedParts launch world.guardImage = some parts) (fit : Option Bool)
      (carries : Carries plan (settledParts fit parts) rest)
      (retains : Retains mounts (settledParts fit parts).operations) :
      Follows launch world rest (.settled plan mounts) (settledParts fit parts) (settledParts fit parts)
  | resolved (made : placedParts launch world.guardImage = some parts) (fit : Option Bool)
      (edit : ResolverEdit world.resolver (settledParts fit parts) actual recorded)
      (carries : Carries plan actual rest) (shaped : Shaped recorded)
      (retains : Retains mounts recorded.operations) :
      Follows launch world rest (.resolved plan mounts) actual recorded
  | started (made : placedParts launch world.guardImage = some parts) (fit : Option Bool)
      (edit : ResolverEdit world.resolver (settledParts fit parts) actual recorded)
      (shaped : Shaped recorded) (parent : world.initPath.parent = some folder)
      (starts : Starts plan (initParts folder world.initImage world.initPath actual) world.initPath)
      (retains : Retains mounts
        (initParts folder world.initImage world.initPath recorded).operations) :
      Follows launch world rest (.started plan mounts)
        (initParts folder world.initImage world.initPath actual)
        (initParts folder world.initImage world.initPath recorded)

theorem reuse_retarget (target : Path) (parts : Parts) :
    reuseParts (retargetParts target parts) = reuseParts parts := by
  rcases List.eq_nil_or_concat' parts.resolver with empty | ⟨front, last, shape⟩
  · simp [reuseParts, retargetParts, empty]
  · simp [reuseParts, retargetParts, shape]

theorem retargetResolver_eq (retargeted : retargetResolver plan target = .ok next) :
    next.launchLayout = plan.launchLayout := by
  unfold retargetResolver at retargeted
  split at retargeted
  · cases retargeted
  · cases retargeted
    rfl

/-- Which mounts are left does not depend on what the arguments are. -/
theorem reuseResolver_mounts (same : next.launchLayout = plan.launchLayout)
    (reused : reuseResolver next mounts = .ok (last, left)) :
    ∃ other, reuseResolver plan mounts = .ok (other, left) := by
  unfold reuseResolver at reused ⊢
  rw [same] at reused
  split at reused
  · cases reused
  · rename_i index present
    obtain ⟨⟨arguments, kept⟩, removed, made⟩ := Except.bind_eq_ok.mp reused
    cases made
    unfold removeGeneratedArguments at removed ⊢
    split at removed
    · cases removed
    · rename_i apart
      cases removed
      simp only [apart]
      exact ⟨_, rfl⟩

theorem inheritResolver_cases (done : inheritResolver facts plan mounts = .ok (next, left)) :
    (next = plan ∧ left = mounts) ∨ reuseResolver plan mounts = .ok (next, left) := by
  unfold inheritResolver at done
  split at done
  · cases done
    exact .inl ⟨rfl, rfl⟩
  · split at done
    · cases done
    · split at done
      · split at done
        · exact .inr done
        · cases done
          exact .inl ⟨rfl, rfl⟩
      · cases done
        exact .inl ⟨rfl, rfl⟩

theorem launchResolver_edits (carries : Carries plan parts rest)
    (retains : Retains mounts parts.operations)
    (done : launchResolver facts plan mounts = .ok (next, left)) :
    ∃ actual recorded, ResolverEdit facts parts actual recorded ∧ Carries next actual rest ∧
      Shaped recorded ∧ Retains left recorded.operations := by
  unfold launchResolver at done
  split at done
  · cases done
    exact ⟨parts, parts, .kept, carries, carries.shaped, retains⟩
  · obtain ⟨middle, located, done⟩ := Except.bind_eq_ok.mp done
    unfold locateResolver at located
    split at located
    · rename_i target asked
      have moved := retarget_carries carries located
      rcases inheritResolver_cases done with ⟨rfl, rfl⟩ | reused
      · exact ⟨_, parts, .retargeted target asked, moved, carries.shaped, retains⟩
      · obtain ⟨other, same⟩ := reuseResolver_mounts (retargetResolver_eq located) reused
        have left := reuse_carries moved reused
        rw [reuse_retarget] at left
        exact ⟨_, _, .reused, left, left.shaped, reuse_retains carries retains same⟩
    · cases located
      rcases inheritResolver_cases done with ⟨rfl, rfl⟩ | reused
      · exact ⟨parts, parts, .kept, carries, carries.shaped, retains⟩
      · have left := reuse_carries carries reused
        exact ⟨_, _, .reused, left, left.shaped, reuse_retains carries retains reused⟩

theorem commandArguments_unshared (provisions : Provisions) (command : ResolvedCommand) :
    (commandArguments provisions command).filterMap sharedFile = [] := by
  unfold commandArguments
  split <;> simp [sharedFile, text, BwrapArguments.place]

theorem reaches_follows (commanded : launch.command = some command)
    (elsewhere : ∀ item ∈ launch.isolation.mounts.items, item.real ≠ firstRoot)
    (reached : Reaches launch world stage) :
    ∃ actual recorded,
      Follows launch world (commandArguments launch.provisions command) stage actual recorded := by
  induction reached with
  | place placed =>
    obtain ⟨parts, made, carries⟩ := place_carries commanded elsewhere placed
    exact ⟨parts, parts, .placed made carries⟩
  | retain _ separated retained ih =>
    obtain ⟨parts, recorded, follows⟩ := ih
    cases follows with
    | placed made carries =>
      rw [carries.layout] at separated
      cases separated
      rw [carries.arguments, List.take_left] at retained
      have read : operations (parts.operations.flatten ++ []) = .ok (indexed 0 parts.operations) :=
        operations_flatten carries.shaped.formed (.inl rfl)
      rw [List.append_nil] at read
      exact ⟨parts, parts, .retained made carries (retain_places read retained)⟩
  | settle _ settled ih =>
    obtain ⟨parts, recorded, follows⟩ := ih
    cases follows with
    | retained made carries retains =>
      obtain ⟨carriesNow, retainsNow⟩ := settleShared_carries carries retains
        (commandArguments_unshared _ _) settled
      exact ⟨_, _, .settled made _ carriesNow retainsNow⟩
  | resolver _ done ih =>
    obtain ⟨parts, recorded, follows⟩ := ih
    cases follows with
    | settled made fit carries retains =>
      obtain ⟨actual, recorded, edit, carriesNow, shaped, retainsNow⟩ :=
        launchResolver_edits carries retains done
      exact ⟨actual, recorded, .resolved made fit edit carriesNow shaped retainsNow⟩
  | init _ started ih =>
    obtain ⟨actual, recorded, follows⟩ := ih
    cases follows with
    | resolved made fit edit carries shaped retains =>
      obtain ⟨folder, parent, starts⟩ := placeInit_starts carries started
      exact ⟨_, _, .started made fit edit shaped parent starts
        (initParts_retains shaped retains folder world.initImage world.initPath)⟩

theorem indexed_here (front back : List Operation) (operation : Operation) :
    (front.flatten.length, operation) ∈ indexed 0 (front ++ operation :: back) := by
  rw [indexed_append, Nat.zero_add]
  exact List.mem_append_right _ List.mem_cons_self

/-- The arguments are read as the operations of the parts, and the positions recorded for `--argv0`
and the resolver configuration are those of their operands. -/
structure Booked (plan : Plan) (parts : Parts) : Prop where
  read : operations plan.arguments = .ok (indexed 0 parts.operations)
  argv0 : ∃ index name, plan.launchLayout.argv0 = some (index + 1) ∧
    (index, [text "--argv0", .literal name]) ∈ indexed 0 parts.operations ∧
    parts.argv0 = [[text "--argv0", .literal name]]
  resolver : ∀ position, plan.launchLayout.resolverDestination = some position →
    ∃ index option source target, position = index + 2 ∧
      (index, [option, source, .literal target]) ∈ indexed 0 parts.operations ∧
      parts.resolver.getLast? = some [option, source, .literal target]

/-- The position recorded for the command is that of the separator, which ends the operations. -/
def Separated (plan : Plan) (parts : Parts) : Prop :=
  plan.launchLayout.commandSeparator = some parts.operations.flatten.length ∧
    plan.arguments[parts.operations.flatten.length]? = some (text "--")

theorem layoutOf_resolver (shape : parts.resolver = front ++ [[option, source, target]]) :
    (layoutOf parts).resolverDestination =
      some ((parts.fixed ++ parts.argv0 ++ parts.mounts ++ front).flatten.length + 2) := by
  have present : parts.resolver.isEmpty = false := by simp [shape]
  simp only [layoutOf, present, Bool.false_eq_true, if_false]
  rw [shape]
  simp only [List.flatten_append, List.flatten_cons, List.flatten_nil, List.append_nil,
    List.length_append, List.length_cons, List.length_nil]
  congr 1

theorem booked_of_layout (shaped : Shaped parts)
    (argv0 : plan.launchLayout.argv0 = (layoutOf parts).argv0)
    (resolver : plan.launchLayout.resolverDestination = (layoutOf parts).resolverDestination)
    (arguments : plan.arguments = parts.operations.flatten ++ rest) (tail : Tail rest) :
    Booked plan parts where
  read := by
    rw [arguments]
    exact operations_flatten shaped.formed tail
  argv0 := by
    obtain ⟨name, shape⟩ := shaped.named
    refine ⟨parts.fixed.flatten.length, name, argv0, ?_, shape⟩
    have split : parts.operations = parts.fixed ++ [text "--argv0", .literal name] ::
        (parts.mounts ++ parts.resolver ++ parts.guards) := by
      simp [Parts.operations, shape]
    rw [split]
    exact indexed_here _ _ _
  resolver := by
    intro position present
    rw [resolver] at present
    rcases shaped.resolver with empty | ⟨front, option, source, target, shape⟩
    · simp [layoutOf, empty] at present
    · rw [layoutOf_resolver shape] at present
      cases present
      refine ⟨_, option, source, target, rfl, ?_, by simp [shape]⟩
      rw [operations_around shape]
      exact indexed_here _ _ _

theorem Carries.booked (carries : Carries plan parts rest) : Booked plan parts :=
  booked_of_layout carries.shaped (by rw [carries.layout]) (by rw [carries.layout])
    carries.arguments carries.tail

theorem Starts.booked (starts : Starts plan parts path) : Booked plan parts :=
  booked_of_layout starts.shaped starts.argv0 starts.resolver starts.arguments (.inr ⟨_, rfl⟩)

theorem Carries.separated (carries : Carries plan parts (text "--" :: later)) :
    Separated plan parts := by
  refine ⟨by rw [carries.layout]; rfl, ?_⟩
  rw [carries.arguments, List.getElem?_append_right (le_refl _)]
  simp

section Mounts

variable {actual recorded settled : Parts}
  {sequence : List Operation}

/-- The parts are those the mounts were recorded from, but for where the resolver configuration
is bound. -/
def Moved (target : Option Path) (actual recorded : Parts) : Prop :=
  actual = recorded ∨ ∃ path front option source old, target = some path ∧
    recorded.resolver = front ++ [[option, source, .literal old]] ∧
    actual = { recorded with resolver := front ++ [[option, source, BwrapArguments.place path]] }

theorem ResolverEdit.moved (shaped : Shaped recorded)
    (edit : ResolverEdit facts settled actual recorded) : Moved facts.target actual recorded := by
  cases edit with
  | kept => exact .inl rfl
  | reused => exact .inl rfl
  | retargeted target asked =>
    rcases shaped.resolver with empty | ⟨front, option, source, old, shape⟩
    · have same : (retargetParts target recorded).resolver = recorded.resolver := by
        simp [retargetParts, empty]
      exact .inl (congrArg (fun resolver => { recorded with resolver }) same)
    · refine .inr ⟨target, front, option, source, old, asked, shape, ?_⟩
      simp [retargetParts, shape]

theorem Moved.init (moved : Moved target actual recorded) (folder : Path) (image : FileContent)
    (path : Path) :
    Moved target (initParts folder image path actual) (initParts folder image path recorded) := by
  rcases moved with rfl | ⟨new, front, option, source, old, asked, shape, rfl⟩
  · exact .inl rfl
  · exact .inr ⟨new, front, option, source, old, asked, shape, rfl⟩

/-- An operation the mounts were recorded from is still there, or it is the bind of the resolver
configuration and only its destination is another. -/
theorem Moved.entry (moved : Moved target actual recorded)
    (member : (index, operation) ∈ indexed 0 recorded.operations) :
    (index, operation) ∈ indexed 0 actual.operations ∨
      ∃ path option source old, target = some path ∧ operation = [option, source, .literal old] ∧
        (index, [option, source, BwrapArguments.place path]) ∈ indexed 0 actual.operations ∧
        (layoutOf actual).resolverDestination = some (index + 2) := by
  rcases moved with rfl | ⟨path, front, option, source, old, asked, shape, rfl⟩
  · exact .inl member
  · rw [operations_around shape, indexed_append, Nat.zero_add] at member
    set changed : Parts :=
      { recorded with resolver := front ++ [[option, source, BwrapArguments.place path]] } with new
    have around : changed.operations = _ := operations_around rfl
    rw [around, indexed_append, Nat.zero_add]
    rcases List.mem_append.mp member with ahead | behind
    · exact .inl (List.mem_append_left _ ahead)
    · rcases List.mem_cons.mp behind with here | later
      · cases here
        exact .inr ⟨path, option, source, old, asked, rfl,
          List.mem_append_right _ List.mem_cons_self, layoutOf_resolver rfl⟩
      · exact .inl (List.mem_append_right _ (List.mem_cons_of_mem _ later))

/-- A mount is at the start of its bind, with its source and, but for a resolver configuration put
elsewhere, its destination. -/
def Held (target : Option Path) (layout : LaunchLayout) (sequence : List Operation)
    (mount : RetainedMount) : Prop :=
  ∃ option destination,
    (mount.argumentIndex, [option, .literal mount.source.bytes, BwrapArguments.place destination]) ∈
      indexed 0 sequence ∧
    (destination = mount.destination ∨
      target = some destination ∧ layout.resolverDestination = some (mount.argumentIndex + 2))

theorem retained_held (moved : Moved target actual recorded)
    (retains : Retains mounts recorded.operations) (listed : mount ∈ mounts) :
    Held target (layoutOf actual) actual.operations mount := by
  have placed : mount.place ∈ bindPlaces 0 recorded.operations := by
    rw [← show mounts.map RetainedMount.place = _ from retains]
    exact List.mem_map_of_mem listed
  obtain ⟨⟨index, operation⟩, member, bound⟩ := List.mem_filterMap.mp placed
  obtain ⟨start, option, shape⟩ := bindPlace_eq_some bound
  simp only at start shape
  rw [← start, shape] at member
  rcases moved.entry member with same | ⟨path, other, source, old, asked, same, there, layout⟩
  · exact ⟨option, mount.destination, same, .inl rfl⟩
  · cases same
    exact ⟨option, path, there, .inr ⟨asked, layout⟩⟩

theorem retained_aligned (moved : Moved target actual recorded)
    (retains : Retains mounts recorded.operations) : Aligned mounts actual.operations where
  starts := by
    intro mount listed
    obtain ⟨option, destination, member, -⟩ := retained_held moved retains listed
    exact ⟨_, member, rfl⟩
  apart := by
    have sorted := bindPlaces_sorted 0 recorded.operations
    rw [← show mounts.map RetainedMount.place = _ from retains] at sorted
    exact (List.pairwise_map.mp sorted).imp fun less => Nat.ne_of_lt less

theorem describedOperation_formed (numbers : RetainedMount → Nat) (mounts : List RetainedMount)
    (formed : wellFormed entry.2 = true) :
    wellFormed (describedOperation numbers mounts entry) = true := by
  unfold describedOperation
  split
  · split <;> exact wellFormed_known (by simp [optionArities])
  · exact formed

theorem descriptorArguments_error {mounts : List RetainedMount}
    (failed : mounts.foldlM (describeMount tryClone) described = .error problem) :
    ∃ mount ∈ mounts, mount.device = false ∧ tryClone mount = .error problem := by
  induction mounts generalizing described with
  | nil => cases failed
  | cons mount later ih =>
    rw [List.foldlM_cons] at failed
    cases first : describeMount tryClone described mount with
    | ok next =>
      rw [first] at failed
      obtain ⟨other, listed, cause⟩ := ih failed
      exact ⟨other, List.mem_cons_of_mem _ listed, cause⟩
    | error found =>
      rw [first] at failed
      cases failed
      refine ⟨mount, List.mem_cons_self, ?_⟩
      unfold describeMount at first
      split at first
      · cases first
      · rename_i path
        cases cloned : tryClone mount with
        | ok number =>
          rw [cloned] at first
          cases first
        | error other =>
          rw [cloned] at first
          cases first
          exact ⟨by simpa using path, rfl⟩

/-- Arguments read as operations, with the descriptors of the mounts in their binds. -/
structure Described (world : LaunchWorld) (stage : Stage) (sequence : List Operation) : Prop where
  read : ∀ result, descriptorArguments world.tryClone stage.plan.arguments stage.mounts = .ok result →
    operations result.1 = .ok ((indexed 0 sequence).map fun entry =>
      (entry.1, describedOperation (clonedNumber world.tryClone) stage.mounts entry))
  fails : ∀ problem,
    descriptorArguments world.tryClone stage.plan.arguments stage.mounts = .error problem →
      ∃ mount ∈ stage.mounts, mount.device = false ∧ world.tryClone mount = .error problem

theorem described_of_aligned (aligned : Aligned stage.mounts sequence)
    (formed : ∀ operation ∈ sequence, wellFormed operation = true)
    (arguments : stage.plan.arguments = sequence.flatten ++ rest) (tail : Tail rest) :
    Described world stage sequence where
  read := by
    intro result made
    unfold descriptorArguments at made
    rw [arguments] at made
    have nonempty : ∀ operation ∈ sequence, operation ≠ [] := by
      rintro operation listed rfl
      exact absurd (formed [] listed) (by decide)
    rw [descriptorArguments_edits aligned nonempty [] made, ← indexed_map _ fun entry _ =>
      describedOperation_length (clonedNumber world.tryClone) stage.mounts entry]
    refine operations_flatten (fun operation listed => ?_) tail
    obtain ⟨entry, member, rfl⟩ := List.mem_map.mp listed
    obtain ⟨front, back, split, -⟩ := mem_indexed member
    exact describedOperation_formed _ _ (formed entry.2 (by simp [split]))
  fails := fun _ failed => descriptorArguments_error failed

/-- What the launch has booked at a stage. -/
structure Bookkeeping (launch : Launch) (world : LaunchWorld) (command : ResolvedCommand)
    (stage : Stage) (actual recorded : Parts) : Prop where
  follows : Follows launch world (commandArguments launch.provisions command) stage actual recorded
  booked : Booked stage.plan actual
  separated : (∀ plan mounts, stage ≠ .started plan mounts) → Separated stage.plan actual
  held : ∀ mount ∈ stage.mounts,
    Held (world.moved stage) stage.plan.launchLayout actual.operations mount
  described : Described world stage actual.operations

theorem bookkeeping_of_carries
    (follows : Follows launch world (commandArguments launch.provisions command) stage actual recorded)
    (carries : Carries stage.plan actual (commandArguments launch.provisions command))
    (held : ∀ mount ∈ stage.mounts, Held (world.moved stage) (layoutOf actual) actual.operations mount)
    (aligned : Aligned stage.mounts actual.operations) :
    Bookkeeping launch world command stage actual recorded where
  follows := follows
  booked := carries.booked
  separated := fun _ => Carries.separated carries
  held := by
    rw [carries.layout]
    exact held
  described := described_of_aligned aligned carries.shaped.formed carries.arguments carries.tail

theorem follows_bookkeeping
    (follows : Follows launch world
    (commandArguments launch.provisions command) stage actual recorded) :
    Bookkeeping launch world command stage actual recorded := by
  have origin := follows
  cases follows with
  | placed made carries =>
    refine bookkeeping_of_carries origin carries (fun mount listed => ?_) ⟨fun mount listed => ?_, .nil⟩
    · cases listed
    · cases listed
  | retained made carries retains =>
    exact bookkeeping_of_carries origin carries (fun mount => retained_held (.inl rfl) retains)
      (retained_aligned (.inl rfl : Moved none actual actual) retains)
  | settled made fit carries retains =>
    exact bookkeeping_of_carries origin carries (fun mount => retained_held (.inl rfl) retains)
      (retained_aligned (.inl rfl : Moved none _ _) retains)
  | resolved made fit edit carries shaped retains =>
    have moved := edit.moved shaped
    exact bookkeeping_of_carries origin carries (fun mount => retained_held moved retains)
      (retained_aligned moved retains)
  | started made fit edit shaped parent starts retains =>
    have moved := (edit.moved shaped).init ‹Path› world.initImage world.initPath
    refine ⟨origin, starts.booked, fun other => absurd rfl (other _ _), fun mount listed => ?_,
      described_of_aligned (retained_aligned moved retains) starts.shaped.formed starts.arguments
        (.inr ⟨_, rfl⟩)⟩
    obtain ⟨option, destination, member, same | ⟨asked, layout⟩⟩ := retained_held moved retains listed
    · exact ⟨option, destination, member, .inl same⟩
    · exact ⟨option, destination, member, .inr ⟨asked, starts.resolver.trans layout⟩⟩

/-- At every stage of a launch its plan is read as the operations generated for it, and what is
recorded of their positions and their mounts is right. -/
theorem launch_bookkeeping {facts : IsolationFacts}
    (accepted : resolveIsolation launch.inputs facts = .ok launch.isolation)
    (commanded : launch.command = some command) (reached : Reaches launch world stage) :
    ∃ actual recorded, Bookkeeping launch world command stage actual recorded := by
  obtain ⟨actual, recorded, follows⟩ := reaches_follows commanded (items_elsewhere accepted) reached
  exact ⟨actual, recorded, follows_bookkeeping follows⟩

end Mounts

def sharedHost : Host :=
  { FileSystem.ofTable
      [⟨Path.root, utf8 "shared", .directory⟩, ⟨Path.root, utf8 "w", .directory⟩]
      (by decide +kernel) with
    currentDir := some (Path.ofString "/w")
    mountList := none }

/-- A policy for the filtered network whose only item is the work place. -/
def sharedInputs : Inputs :=
  { workplaceInputs with
    policy := { networkMode := .filtered }, sharedFiles := some (Path.ofString "/shared") }

def sharedFacts : IsolationFacts where
  mounts := collectGeneratorFacts sharedHost (wantedCandidates sharedInputs)
    (collectPathFacts sharedHost (wantedCandidates sharedInputs))

def sharedCommand : ResolvedCommand where
  command := utf8 "true"
  arguments := [utf8 "--"]
  path := Path.ofString "/bin/true"

def sharedLaunch (isolation : Isolation) : Launch :=
  { bareLaunch sharedInputs isolation with command := some sharedCommand }

/-- The shared files are in place, and the host's resolver configuration is a link. -/
def sharedWorld : LaunchWorld where
  guardImage := none
  openPath := fun index _ => .ok
    { descriptor := index, identity := { device := 0, inode := index, kind := 0, rdev := 0 } }
  putInPlace := fun _ _ => true
  resolver :=
    { session := true
      target := some (Path.ofString "/run/resolv.conf")
      nested := false
      inherited := fun _ _ => false }
  initImage := .bytes []
  initPath := Path.ofString "/dev/kakoi-runtime/init"
  tryClone := fun mount => .ok mount.descriptor

/-- Whether an operation at a position binds at a destination. -/
def bindsAt (index : Nat) (destination : Path) (entry : Nat × Operation) : Bool :=
  entry.1 = index &&
    match entry.2 with
    | [_, _, .literal target] => decide (target = destination.bytes)
    | _ => false

set_option synthInstance.maxSize 256 in
theorem sharedLaunch_resolved :
    ∃ isolation plan mounts parsed, resolveIsolation sharedInputs sharedFacts = .ok isolation ∧
      Reaches (sharedLaunch isolation) sharedWorld (.resolved plan mounts) ∧
      operations plan.arguments = .ok parsed ∧
      ∃ mount ∈ mounts, ∀ entry ∈ parsed, bindsAt mount.argumentIndex mount.destination entry = false := by
  have evaluated : ∃ isolation, resolveIsolation sharedInputs sharedFacts = .ok isolation ∧
      ∃ first, place (planOf (sharedLaunch isolation)) none = .ok first ∧
      ∃ separator ∈ first.launchLayout.commandSeparator,
      ∃ held, retain sharedWorld.openPath (first.arguments.take separator) = .ok held ∧
      ∃ settled, settleShared sharedWorld.putInPlace sharedWorld.openPath first.arguments held =
        .ok settled ∧
      ∃ resolved, launchResolver sharedWorld.resolver { first with arguments := settled.1 }
        settled.2 = .ok resolved ∧
      ∃ parsed, operations resolved.1.arguments = .ok parsed ∧
      ∃ mount ∈ resolved.2, ∀ entry ∈ parsed,
        bindsAt mount.argumentIndex mount.destination entry = false := by decide +kernel
  obtain ⟨isolation, accepted, first, placed, separator, separated, held, retained, settled, done,
    resolved, retargeted, parsed, read, missed⟩ := evaluated
  exact ⟨isolation, _, _, parsed, accepted, .resolver (.settle (.retain (.place placed) separated
    retained) done) retargeted, read, missed⟩

/-- Where the host's resolver configuration is a link, the mount keeps the name of the link, and the
bind names what it links to. -/
theorem retargeted_mount_keeps_link :
    ∃ isolation plan mounts parsed, resolveIsolation sharedInputs sharedFacts = .ok isolation ∧
      Reaches (sharedLaunch isolation) sharedWorld (.resolved plan mounts) ∧
      operations plan.arguments = .ok parsed ∧
      ∃ mount ∈ mounts, ∀ option source,
        (mount.argumentIndex, [option, source, .literal mount.destination.bytes]) ∉ parsed := by
  obtain ⟨isolation, plan, mounts, parsed, accepted, reached, read, mount, listed, missed⟩ :=
    sharedLaunch_resolved
  refine ⟨isolation, plan, mounts, parsed, accepted, reached, read, mount, listed, ?_⟩
  intro option source member
  have none := missed _ member
  simp [bindsAt] at none

theorem shared_launch_booked :
    ∃ isolation plan mounts actual recorded,
      resolveIsolation sharedInputs sharedFacts = .ok isolation ∧
        Reaches (sharedLaunch isolation) sharedWorld (.resolved plan mounts) ∧ mounts ≠ [] ∧
        Bookkeeping (sharedLaunch isolation) sharedWorld sharedCommand (.resolved plan mounts)
          actual recorded := by
  obtain ⟨isolation, plan, mounts, parsed, accepted, reached, -, mount, listed, -⟩ :=
    sharedLaunch_resolved
  obtain ⟨actual, recorded, booked⟩ := launch_bookkeeping accepted rfl reached
  exact ⟨isolation, plan, mounts, actual, recorded, accepted, reached, List.ne_nil_of_mem listed,
    booked⟩

end Kakoi.HelperPlacement
