import Kakoi.Linux.GuardImages

/-! The operations of a launch around its guards: what else binds read-only. -/

namespace Kakoi.HelperPlacement

open BwrapArguments Replacement

/-- The plan a launch hands to the placement of images. -/
def planOf (launch : Launch) : Plan where
  arguments := launch.arguments
  launchLayout := (bwrapArgumentsWithLayout launch.inputs.policy.networkMode
    launch.inputs.currentDir launch.isolation.mounts.items launch.copies launch.guards
    launch.provisions launch.command).2
  commands := launch.commands
  guards := launch.guards

/-- The operations that relocate an overlaid program. -/
def relocating (made : Path × Path) : List Operation :=
  (made.2.parent.toList.flatMap fun parent => parent.parent.toList ++ [parent]).flatMap directory ++
    [readOnlyBind made.1 made.2]

/-- The guards and the overlaid programs, with how a guard is put at a location. -/
def guardsWith (guard : Path → List Operation) (guards : GuardPlan) : List Operation :=
  guards.placed.flatMap (fun placed => guard placed.guard) ++
    guards.overlaid.flatMap (fun made => relocating made ++ guard made.1)

def opening (launch : Launch) : List Operation :=
  launch.parts.fixed ++ launch.parts.argv0 ++ launch.parts.mounts ++ launch.parts.resolver ++
    ([permissions "0755", tmpfs guardRoot] ++ directory guardLocation)

def tableOperations (guards : GuardPlan) : List Operation :=
  readOnlyData (.table guards.table) guardTable ++ [remountReadOnly guardRoot]

def rootRemount (launch : Launch) : List Operation :=
  launch.isolation.listed.toList.map fun _ => remountReadOnly Path.root

/-- The operations of a launch, with how a guard is put at a location and what places the
first process. -/
def operationsWith (launch : Launch) (guard : Path → List Operation) (first : List Operation) :
    List Operation :=
  opening launch ++ guardsWith guard launch.guards ++ tableOperations launch.guards ++ first ++
    rootRemount launch

/-- Whether an item's place is made by a read-only bind. -/
def boundReadOnly (provisions : Provisions) (item : ResolvedItem) : Bool :=
  item.directive = .ro ||
    item.directive = .hide && item.kind = .notDirectory && provisions.sharedFiles.isSome

/-- The places bound read-only before the guards are placed: the root or the "listed" base, the
guards of the run around this one, `ro` items and what is hidden or configured by a shared file. -/
def earlierPlaces (launch : Launch) : List Path :=
  (if launch.isolation.listed.isNone then [Path.root] else []) ++
  (if launch.inputs.outerGuard then [guardRoot] else []) ++
  launch.isolation.listed.toList.flatMap (fun root => root.base ++ root.resolver.toList) ++
  (launch.isolation.mounts.items.filter (boundReadOnly launch.provisions)).map (·.real) ++
  (if launch.inputs.policy.networkMode = .filtered ∧ launch.provisions.sharedFiles.isSome then
    [resolverDestination launch.provisions] else [])

/-- The places besides the guards' locations where a read-only bind or the guard table goes. -/
def otherPlaces (launch : Launch) : List Path :=
  earlierPlaces launch ++ launch.guards.overlaid.map Prod.snd ++ [guardTable]

section Bound

attribute [local simp] boundAt_two optionArities

@[simp]
theorem boundAt_put (provisions : Provisions) (file : SharedFile) (target : Path) :
    boundAt (put provisions file target) =
      if provisions.sharedFiles.isSome then some target else none := by
  unfold put
  split
  · rename_i shared found
    simp [found]
  · rename_i absent
    simp [absent]

theorem bound_fixed (networkMode : NetworkMode) (currentDir : Path) (provisions : Provisions) :
    (fixedOperations networkMode currentDir provisions).filterMap boundAt =
      (if provisions.listed.isNone then [Path.root] else []) ++
        (if provisions.outerGuard then [guardRoot] else []) := by
  simp only [fixedOperations, List.filterMap_append]
  cases provisions.listed <;> cases provisions.outerGuard <;>
    simp [tmpfs, apply_ite]

theorem bound_directories (paths : List Path) : (paths.flatMap directory).filterMap boundAt = [] := by
  simp [List.filterMap_flatMap, directory, permissions]

theorem bound_binds (paths : List Path) :
    (paths.map fun path => readOnlyBind path path).filterMap boundAt = paths := by
  simp [List.filterMap_map]

theorem bound_listed (root : ListedRoot) :
    (listedOperations root).filterMap boundAt = root.base ++ root.resolver.toList := by
  have links : (root.links.map fun link => [text "--symlink", BwrapArguments.place link.target,
      BwrapArguments.place link.place]).filterMap boundAt = [] := by
    simp
  simp only [listedOperations, List.filterMap_append, bound_directories, bound_binds, links]
  simp [permissions, tmpfs]

theorem bound_entry (item : ResolvedItem) (entry : CopiedEntry) :
    (entryOperations item entry).filterMap boundAt = [] := by
  unfold entryOperations
  cases entry <;> simp [permissions]

theorem bound_copy (item : ResolvedItem) (source : Option CopySource) :
    (copyOperations item source).filterMap boundAt = [] := by
  unfold copyOperations
  split
  · simp [permissions]
  · simp [List.filterMap_flatMap, bound_entry, permissions, tmpfs]
  · simp [tmpfs]
  · simp

theorem bound_item (provisions : Provisions) (copies : PathMap CopySource) (item : ResolvedItem) :
    (itemOperations provisions copies item).filterMap boundAt =
      if boundReadOnly provisions item then [item.real] else [] := by
  unfold itemOperations boundReadOnly
  cases item.directive with
  | rw => simp
  | rwFile => simp
  | ro => simp
  | rwCopy => simp [bound_copy]
  | hide =>
    cases item.kind with
    | directory => simp [tmpfs]
    | notDirectory => cases shared : provisions.sharedFiles.isSome <;> simp [shared]

theorem bound_items (provisions : Provisions) (copies : PathMap CopySource)
    (items : List ResolvedItem) :
    (items.flatMap (itemOperations provisions copies)).filterMap boundAt =
      (items.filter (boundReadOnly provisions)).map (·.real) := by
  induction items with
  | nil => rfl
  | cons first rest ih =>
    rw [List.flatMap_cons, List.filterMap_append, bound_item, ih]
    cases bound : boundReadOnly provisions first <;> simp [bound]

theorem bound_opening (launch : Launch) : (opening launch).filterMap boundAt = earlierPlaces launch := by
  have fixed : launch.parts.fixed.filterMap boundAt =
      (if launch.isolation.listed.isNone then [Path.root] else []) ++
        (if launch.inputs.outerGuard then [guardRoot] else []) := bound_fixed ..
  have named : launch.parts.argv0.filterMap boundAt = [] := by
    simp [Launch.parts, bwrapParts]
  have listed : (launch.isolation.listed.toList.flatMap listedOperations).filterMap boundAt =
      launch.isolation.listed.toList.flatMap fun root => root.base ++ root.resolver.toList := by
    cases launch.isolation.listed <;> simp [bound_listed]
  have mounts : launch.parts.mounts =
      launch.isolation.listed.toList.flatMap listedOperations ++
        launch.isolation.mounts.items.flatMap (itemOperations launch.provisions launch.copies) := rfl
  have resolver : launch.parts.resolver.filterMap boundAt =
      if launch.inputs.policy.networkMode = .filtered ∧ launch.provisions.sharedFiles.isSome then
        [resolverDestination launch.provisions] else [] := by
    simp only [Launch.parts, bwrapParts, resolverOperations]
    cases launch.inputs.policy.networkMode <;> cases shared : launch.provisions.sharedFiles <;>
      simp [shared]
  have made : ([permissions "0755", tmpfs guardRoot] ++ directory guardLocation).filterMap boundAt =
      [] := by
    simp [permissions, tmpfs, directory]
  simp only [opening, earlierPlaces, List.filterMap_append, fixed, named, mounts, listed, bound_items,
    resolver, made, List.append_nil, List.nil_append, List.append_assoc]

theorem bound_relocating (made : Path × Path) : (relocating made).filterMap boundAt = [made.2] := by
  simp [relocating, List.filterMap_append, bound_directories]

end Bound

theorem unmarked_of_generated (generated : Generated (· ≠ firstRoot) operation) :
    Unmarked operation := by
  cases generated with
  | tmpfs elsewhere => exact unmarked_tmpfs elsewhere
  | remount elsewhere => exact unmarked_remount elsewhere
  | alone => exact unmarked_alone _
  | one known other => exact unmarked_one known _ other.1 other.2
  | two => exact unmarked_two ..
  | put provisions file target =>
    unfold BwrapArguments.put
    split <;> exact unmarked_two ..

/-- Items that are not where the first process goes are not taken for it. -/
theorem unmarked_opening (launch : Launch)
    (elsewhere : ∀ item ∈ launch.isolation.mounts.items, item.real ≠ firstRoot) :
    ∀ operation ∈ opening launch, Unmarked operation := by
  have generated : ∀ operation ∈ opening launch, Generated (· ≠ firstRoot) operation := by
    have root : guardRoot ≠ firstRoot := by decide +kernel
    simp only [opening, Launch.parts, bwrapParts, List.forall_mem_append]
    refine ⟨⟨⟨⟨fixedOperations_generated _ _ _ (by decide +kernel), ?_⟩, ?_, ?_⟩,
      resolverOperations_generated _ _⟩, ?_, directory_generated guardLocation⟩
    · simp [optionArities]
    · exact List.forall_mem_flatMap.mpr fun root _ =>
        listedOperations_generated root (by decide +kernel)
    · exact List.forall_mem_flatMap.mpr fun item member =>
        itemOperations_generated _ _ (elsewhere item member)
    · simp [permissions, root, optionArities]
  exact fun operation member => unmarked_of_generated (generated operation member)

theorem unmarked_guards (kakoi : Path) (guards : GuardPlan) :
    ∀ operation ∈ guardsWith (fun location => [readOnlyBind kakoi location]) guards ++
      tableOperations guards, Unmarked operation := by
  have root : guardRoot ≠ firstRoot := by decide +kernel
  simp only [guardsWith, tableOperations, relocating, List.forall_mem_append]
  refine ⟨⟨List.forall_mem_flatMap.mpr fun placed _ => ?_,
    List.forall_mem_flatMap.mpr fun made _ => ?_⟩, ?_, ?_⟩
  · simp [readOnlyBind]
  · simp only [List.forall_mem_append]
    exact ⟨⟨List.forall_mem_flatMap.mpr fun path _ => unmarked_directory path, by simp [readOnlyBind]⟩,
      by simp [readOnlyBind]⟩
  · simp [readOnlyData]
  · simp [unmarked_remount root]

end Kakoi.HelperPlacement
