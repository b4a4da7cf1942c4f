import Kakoi.Linux.BoundPlaces

/-! The guard locations of a launch after the images are placed. -/

namespace Kakoi.HelperPlacement

open BwrapArguments Replacement
open scoped List

/-- The last operation that mounts something at exactly a path. -/
def lastAt (sequence : List Operation) (path : Path) : Option Operation :=
  sequence.reverse.find? fun operation => destination operation = some path

theorem lastAt_split (mounts : destination operation = some path)
    (later : ∀ other ∈ back, destination other ≠ some path) (front : List Operation) :
    lastAt (front ++ operation :: back) path = some operation := by
  have passed : back.reverse.find? (fun other => destination other = some path) = none := by
    simpa [List.find?_eq_none] using later
  simp [lastAt, List.find?_append, passed, mounts]

/-- Where every operation of the back that mounts at a path is one and the same, it is the
last one. -/
theorem lastAt_same (only : ∀ other ∈ back, destination other = some path → other = operation)
    (member : operation ∈ back) (mounts : destination operation = some path)
    (front : List Operation) : lastAt (front ++ back) path = some operation := by
  cases found : back.reverse.find? (fun other => destination other = some path) with
  | none =>
    have missed := List.find?_eq_none.mp found operation (List.mem_reverse.mpr member)
    simp [mounts] at missed
  | some other =>
    have there : destination other = some path := by simpa using List.find?_some found
    have listed := List.mem_reverse.mp (List.mem_of_find?_eq_some found)
    simp [lastAt, List.find?_append, found, only other listed there]

section Placed

variable {launch : Launch}

theorem launch_operations (executable : launch.executable = some kakoi)
    (placed : launch.guards.placed ≠ []) :
    launch.parts.operations =
      operationsWith launch (fun location => [readOnlyBind kakoi location])
        (launch.commands.toList.flatMap firstProcessTmpfs) := by
  have known : launch.guards.executable = some kakoi := executable
  have guards : launch.parts.guards =
      guardTmpfs kakoi launch.guards ++ launch.commands.toList.flatMap firstProcessTmpfs ++
        rootRemount launch := by
    simp only [Launch.parts, bwrapParts, guardOperations, known, List.isEmpty_iff, placed, ↓reduceIte]
    rfl
  have overlays : overlayOperations kakoi =
      fun made => relocating made ++ [readOnlyBind kakoi made.1] := by
    funext made
    simp [overlayOperations, relocating]
  have binds : (launch.guards.placed.map fun placed => readOnlyBind kakoi placed.guard) =
      launch.guards.placed.flatMap fun placed => [readOnlyBind kakoi placed.guard] := by
    simp [List.map_eq_flatMap]
  simp only [Parts.operations, operationsWith, opening, guards, guardTmpfs, overlays, binds, guardsWith,
    tableOperations, List.append_assoc]

/-- The locations of the guard table. -/
def locations (guards : GuardPlan) : List Path := guards.table.entries.map fun entry => ⟨entry.location⟩

theorem locations_eq (allowed : ∀ entry ∈ launch.rules, entry.rule.programAllowed = true) :
    locations launch.guards =
      launch.guards.placed.map PlacedGuard.guard ++ launch.guards.overlaid.map Prod.fst := by
  obtain ⟨-, -, listed⟩ := placeGuards_inside allowed launch.pathPresent launch.names
    launch.isolation.mounts.items launch.kakoi launch.kakoiFile
  have paths := congrArg (List.map Path.mk) listed
  simpa [locations, Launch.guards, List.map_map, Function.comp_def] using paths

theorem bound_closing (launch : Launch) :
    (tableOperations launch.guards ++ rootRemount launch).filterMap boundAt = [] := by
  cases listed : launch.isolation.listed <;>
    simp [tableOperations, rootRemount, readOnlyData, remountReadOnly, permissions, boundAt_two,
      optionArities, listed]

theorem closing_destination (member : operation ∈ tableOperations launch.guards ++ rootRemount launch)
    (mounts : destination operation = some path) : path = guardTable := by
  simp only [tableOperations, rootRemount, readOnlyData, List.mem_append, List.mem_cons,
    List.not_mem_nil, or_false, List.mem_map] at member
  rcases member with ((rfl | rfl) | rfl) | ⟨root, -, rfl⟩
  · simp at mounts
  · simpa using mounts.symm
  · simp at mounts
  · simp at mounts

theorem items_elsewhere (accepted : resolveIsolation inputs facts = .ok isolation) :
    ∀ item ∈ isolation.mounts.items, item.real ≠ firstRoot := by
  intro item member same
  have free := isolation_targets accepted item member
  have fixed : fixedTarget firstRoot = true := by decide +kernel
  rw [same, fixed] at free
  cases free

/-- After the images are placed, the operations are those of one pass over the locations. -/
theorem placed_reads (executable : launch.executable = some kakoi)
    (guarded : launch.guards.placed ≠ [])
    (elsewhere : ∀ item ∈ launch.isolation.mounts.items, item.real ≠ firstRoot)
    (placed : place (planOf launch) (some image) = .ok plan) :
    Reads plan
      (replaceEach boundAt (imaged image) (locations launch.guards)
        (operationsWith launch (fun location => [readOnlyBind kakoi location]) []))
      (launch.command.toList.flatMap (commandArguments launch.provisions)) := by
  obtain ⟨rest, removed, filled⟩ := Except.bind_eq_ok.mp placed
  have start : Reads (planOf launch) launch.parts.operations
      (launch.command.toList.flatMap (commandArguments launch.provisions)) :=
    ⟨rfl, bwrapParts_formed _ _ _ _ _ _ _, commandArguments_tail _ _⟩
  have marks := List.forall_mem_append.mpr
    ⟨unmarked_opening launch elsewhere, unmarked_guards kakoi launch.guards⟩
  rw [launch_operations executable guarded] at start
  refine placeEntries_replace ?_ filled
  have commands : (planOf launch).commands = launch.commands := rfl
  have dropped := removeFirstProcess_drops _ (rootRemount launch)
    (by simpa [operationsWith, commands] using start) marks removed
  simpa [operationsWith] using dropped

/-- Where nothing else is bound at a location, exactly the guards are replaced. -/
theorem pass_expected (image : FileContent)
    (allowed : ∀ entry ∈ launch.rules, entry.rule.programAllowed = true)
    (free : ∀ location ∈ locations launch.guards, location ∉ otherPlaces launch) :
    replaceEach boundAt (imaged image) (locations launch.guards)
        (operationsWith launch (fun location => [readOnlyBind kakoi location]) []) =
      operationsWith launch (guardImage image) [] := by
  have early : ∀ operation ∈ opening launch, ∀ found, boundAt operation = some found →
      found ∉ locations launch.guards := by
    intro operation member found bound left
    apply free found left
    have listed := List.mem_filterMap.mpr ⟨operation, member, bound⟩
    rw [bound_opening] at listed
    simp [otherPlaces, listed]
  have moved : ∀ made ∈ launch.guards.overlaid, ∀ operation ∈ relocating made, ∀ found,
      boundAt operation = some found → found ∉ launch.guards.overlaid.map Prod.fst ++ [] := by
    intro made listed operation member found bound left
    have place := List.mem_filterMap.mpr ⟨operation, member, bound⟩
    rw [bound_relocating] at place
    cases List.mem_singleton.mp place
    refine free made.2 ?_ ?_
    · rw [locations_eq allowed]
      exact List.mem_append_right _ (by simpa using left)
    · simp only [otherPlaces, List.mem_append, List.mem_map]
      exact .inl (.inr ⟨made, listed, rfl⟩)
  have guards : ∀ back, replaceEach boundAt (imaged image)
        (launch.guards.placed.map PlacedGuard.guard ++ launch.guards.overlaid.map Prod.fst)
        (launch.guards.placed.flatMap (fun placed => [] ++ [readOnlyBind kakoi placed.guard]) ++ back) =
      launch.guards.placed.flatMap (fun placed => [] ++ imaged image (readOnlyBind kakoi placed.guard)) ++
        replaceEach boundAt (imaged image) (launch.guards.overlaid.map Prod.fst) back :=
    replaceEach_run (by simp) (by simp)
  have overlays : ∀ back, replaceEach boundAt (imaged image) (launch.guards.overlaid.map Prod.fst ++ [])
        (launch.guards.overlaid.flatMap
          (fun made => relocating made ++ [readOnlyBind kakoi made.1]) ++ back) =
      launch.guards.overlaid.flatMap
          (fun made => relocating made ++ imaged image (readOnlyBind kakoi made.1)) ++
        replaceEach boundAt (imaged image) [] back :=
    replaceEach_run (by simp) moved
  simp only [List.nil_append, List.append_nil, imaged_of_boundAt (boundAt_readOnlyBind _ _),
    replaceEach_no_keys] at guards overlays
  simp only [operationsWith, guardsWith, List.append_nil, List.append_assoc]
  rw [replaceEach_absent early, locations_eq allowed, guards, overlays]

theorem guards_bind (kakoi : Path) (guards : GuardPlan) :
    ∀ operation ∈ guardsWith (fun location => [readOnlyBind kakoi location]) guards,
      destination operation = boundAt operation := by
  have made : ∀ path, ∀ operation ∈ directory path, destination operation = boundAt operation := by
    simp [directory]
  simp only [guardsWith, relocating, List.forall_mem_append]
  refine ⟨List.forall_mem_flatMap.mpr fun placed _ => by simp,
    List.forall_mem_flatMap.mpr fun moved _ => ?_⟩
  simp only [List.forall_mem_append]
  exact ⟨⟨List.forall_mem_flatMap.mpr fun path _ => made path, by simp⟩, by simp⟩

theorem bound_guards (kakoi : Path) (guards : GuardPlan) :
    ((guardsWith (fun location => [readOnlyBind kakoi location]) guards).filterMap boundAt).Perm
      (guards.placed.map PlacedGuard.guard ++ guards.overlaid.map Prod.fst ++
        guards.overlaid.map Prod.snd) := by
  have moved : ∀ overlaid : List (Path × Path),
      ((overlaid.flatMap fun made => relocating made ++ [readOnlyBind kakoi made.1]).filterMap
        boundAt).Perm (overlaid.map Prod.fst ++ overlaid.map Prod.snd) := by
    intro overlaid
    induction overlaid with
    | nil => exact .refl _
    | cons first rest ih =>
      have one : (relocating first ++ [readOnlyBind kakoi first.1]).filterMap boundAt =
          [first.2, first.1] := by
        simp [List.filterMap_append, bound_relocating]
      rw [List.flatMap_cons, List.filterMap_append, one]
      calc first.2 :: first.1 :: _
          _ ~ first.1 :: first.2 :: (rest.map Prod.fst ++ rest.map Prod.snd) :=
            (List.Perm.swap _ _ _).trans ((ih.cons _).cons _)
          _ ~ first.1 :: (rest.map Prod.fst ++ first.2 :: rest.map Prod.snd) :=
            List.perm_middle.symm.cons _
  rw [guardsWith, List.filterMap_append, List.append_assoc]
  refine List.Perm.append ?_ (moved guards.overlaid)
  simp [List.filterMap_flatMap, List.map_eq_flatMap]

/-- Where something else is at a location, the image is not the last at it. -/
theorem pass_uncovered (content : List UInt8)
    (allowed : ∀ entry ∈ launch.rules, entry.rule.programAllowed = true)
    (listed : location ∈ locations launch.guards) (taken : location ∈ otherPlaces launch) :
    ∃ operation,
      lastAt (replaceEach boundAt (imaged (.bytes content)) (locations launch.guards)
        (operationsWith launch (fun location => [readOnlyBind kakoi location]) [])) location =
          some operation ∧ operation ≠ imageAt (.bytes content) location := by
  by_cases table : location = guardTable
  · -- The table is written after every guard.
    have closing : tableOperations launch.guards ++ rootRemount launch =
        permissions "0444" :: imageAt (.table launch.guards.table) guardTable ::
          remountReadOnly guardRoot :: rootRemount launch := rfl
    have later : ∀ other ∈ remountReadOnly guardRoot :: rootRemount launch,
        destination other ≠ some guardTable := by
      simp [rootRemount]
    refine ⟨imageAt (.table launch.guards.table) location, ?_, by simp [imageAt]⟩
    simp only [operationsWith, List.append_nil]
    rw [List.append_assoc, replaceEach_append, replaceEach_unkeyed (bound_closing launch), closing,
      table, List.append_cons]
    exact lastAt_split (destination_imageAt _ _) later _
  · have extra : location ∈ earlierPlaces launch ++ launch.guards.overlaid.map Prod.snd := by
      simpa [otherPlaces, table] using taken
    have bound := bound_guards kakoi launch.guards
    rw [← locations_eq allowed] at bound
    obtain ⟨front, operation, back, split, here, last⟩ :=
      exists_last (bound.mem_iff.mpr (List.mem_append_left _ listed))
    have shared : (locations launch.guards ++
        (earlierPlaces launch ++ launch.guards.overlaid.map Prod.snd)) ~
        ((opening launch ++ front) ++ operation :: back).filterMap boundAt := by
      rw [List.append_assoc, ← split, List.filterMap_append, bound_opening]
      calc locations launch.guards ++ (earlierPlaces launch ++ launch.guards.overlaid.map Prod.snd)
          _ ~ earlierPlaces launch ++ (locations launch.guards ++ launch.guards.overlaid.map Prod.snd) :=
            List.perm_append_comm_assoc _ _ _
          _ ~ earlierPlaces launch ++ _ := bound.symm.append_left _
    obtain ⟨before, left, pass, spent⟩ := replaceEach_last_kept (imaged (.bytes content)) shared extra
      here last (tableOperations launch.guards ++ rootRemount launch)
    have whole : operationsWith launch (fun location => [readOnlyBind kakoi location]) [] =
        opening launch ++ front ++ operation :: back ++
          (tableOperations launch.guards ++ rootRemount launch) := by
      simp [operationsWith, split]
    have later : ∀ other ∈ replaceEach boundAt (imaged (.bytes content)) left
        (back ++ (tableOperations launch.guards ++ rootRemount launch)),
        destination other ≠ some location := by
      intro other member mounts
      rcases mem_replaceEach member with old | ⟨first, found, bound, remains, made⟩
      · rcases List.mem_append.mp old with behind | closing
        · have guard : other ∈ guardsWith (fun location => [readOnlyBind kakoi location])
              launch.guards := by
            rw [split]
            exact List.mem_append_right _ (List.mem_cons_of_mem _ behind)
          rw [guards_bind kakoi launch.guards other guard] at mounts
          exact last other behind mounts
        · exact table (closing_destination closing mounts)
      · rw [imaged_of_boundAt bound] at made
        simp only [guardImage, List.mem_cons, List.not_mem_nil, or_false] at made
        rcases made with rfl | rfl
        · simp at mounts
        · rw [destination_imageAt] at mounts
          cases mounts
          exact spent remains
    refine ⟨operation, ?_, ?_⟩
    · rw [whole, pass]
      exact lastAt_split (destination_of_boundAt here) later before
    · rintro rfl
      rw [boundAt_imageAt] at here
      cases here

theorem guardImage_destination (member : operation ∈ guardImage image target)
    (mounts : destination operation = some location) : operation = imageAt image location := by
  simp only [guardImage, List.mem_cons, List.not_mem_nil, or_false] at member
  rcases member with rfl | rfl
  · simp at mounts
  · rw [destination_imageAt] at mounts
    cases mounts
    rfl

theorem relocating_destination (member : operation ∈ relocating made)
    (mounts : destination operation = some location) : location = made.2 := by
  rcases mem_concat.mp member with parents | rfl
  · obtain ⟨path, -, inside⟩ := List.mem_flatMap.mp parents
    simp only [directory, List.mem_cons, List.not_mem_nil, or_false] at inside
    rcases inside with rfl | rfl <;> simp at mounts
  · simpa using mounts.symm

/-- Where the images are the guards' own, each is the last at its location. -/
theorem expected_covered (image : FileContent)
    (allowed : ∀ entry ∈ launch.rules, entry.rule.programAllowed = true)
    (listed : location ∈ locations launch.guards) (free : location ∉ otherPlaces launch) :
    lastAt (operationsWith launch (guardImage image) []) location = some (imageAt image location) := by
  have only : ∀ other ∈ guardsWith (guardImage image) launch.guards ++
      (tableOperations launch.guards ++ rootRemount launch),
      destination other = some location → other = imageAt image location := by
    intro other member mounts
    rcases List.mem_append.mp member with guards | closing
    · rcases List.mem_append.mp guards with placed | overlaid
      · obtain ⟨placed, -, made⟩ := List.mem_flatMap.mp placed
        exact guardImage_destination made mounts
      · obtain ⟨made, present, inside⟩ := List.mem_flatMap.mp overlaid
        rcases List.mem_append.mp inside with moved | guard
        · refine absurd ?_ free
          rw [relocating_destination moved mounts]
          simp only [otherPlaces, List.mem_append, List.mem_map]
          exact .inl (.inr ⟨made, present, rfl⟩)
        · exact guardImage_destination guard mounts
    · refine absurd ?_ free
      rw [closing_destination closing mounts]
      simp [otherPlaces]
  have member : imageAt image location ∈ guardsWith (guardImage image) launch.guards ++
      (tableOperations launch.guards ++ rootRemount launch) := by
    rw [locations_eq allowed, List.mem_append, List.mem_map, List.mem_map] at listed
    apply List.mem_append_left
    rcases listed with ⟨placed, present, rfl⟩ | ⟨made, present, rfl⟩
    · exact List.mem_append_left _ (List.mem_flatMap.mpr ⟨placed, present, by simp [guardImage]⟩)
    · exact List.mem_append_right _ (List.mem_flatMap.mpr ⟨made, present, by simp [guardImage]⟩)
  have whole : operationsWith launch (guardImage image) [] =
      opening launch ++ (guardsWith (guardImage image) launch.guards ++
        (tableOperations launch.guards ++ rootRemount launch)) := by
    simp [operationsWith]
  rw [whole]
  exact lastAt_same only member (destination_imageAt _ _) _

/-- The last operation at every location of the guard table puts the image there, and every other
operation is as it was, exactly when nothing else is bound at one of the locations. -/
theorem guard_images_last_iff (content : List UInt8)
    (accepted : resolveIsolation launch.inputs facts = .ok launch.isolation)
    (allowed : ∀ entry ∈ launch.rules, entry.rule.programAllowed = true)
    (executable : launch.executable = some kakoi) (guarded : launch.guards.table.entries ≠ [])
    (placed : place (planOf launch) (some (.bytes content)) = .ok plan) :
    operations launch.arguments =
        .ok (indexed 0 (operationsWith launch (fun location => [readOnlyBind kakoi location])
          (launch.commands.toList.flatMap firstProcessTmpfs))) ∧
      ((∃ sequence, operations plan.arguments = .ok (indexed 0 sequence) ∧
          (∀ entry ∈ launch.guards.table.entries,
            lastAt sequence ⟨entry.location⟩ = some (imageAt (.bytes content) ⟨entry.location⟩)) ∧
          sequence = operationsWith launch (guardImage (.bytes content)) []) ↔
        ∀ entry ∈ launch.guards.table.entries, ⟨entry.location⟩ ∉ otherPlaces launch) := by
  have present : launch.guards.placed ≠ [] := placeGuards_placed _ _ _ _ _ guarded
  have reads := placed_reads executable present (items_elsewhere accepted) placed
  have start : operations launch.arguments = .ok (indexed 0 launch.parts.operations) :=
    bwrapArguments_operations _ _ _ _ _ _ _
  rw [launch_operations executable present] at start
  refine ⟨start, ?_, ?_⟩
  · rintro ⟨sequence, read, last, -⟩ entry member taken
    have same := congrArg (List.map Prod.snd) (Except.ok.inj (read.symm.trans reads.operations))
    simp only [indexed_operations] at same
    obtain ⟨operation, found, different⟩ := pass_uncovered content allowed
      (List.mem_map.mpr ⟨entry, member, rfl⟩) taken
    rw [← same, last entry member] at found
    exact different (Option.some.inj found).symm
  · intro free
    have away : ∀ location ∈ locations launch.guards, location ∉ otherPlaces launch := by
      simpa [locations] using free
    refine ⟨_, reads.operations, ?_, pass_expected (.bytes content) allowed away⟩
    intro entry member
    rw [pass_expected (.bytes content) allowed away]
    exact expected_covered (.bytes content) allowed (List.mem_map.mpr ⟨entry, member, rfl⟩)
      (free entry member)

end Placed

def guardedProgram : Path := Path.ofString "/usr/bin/git"

def guardedHost : Host :=
  { FileSystem.ofTable
      [⟨Path.root, utf8 "usr", .directory⟩,
       ⟨Path.ofString "/usr", utf8 "bin", .directory⟩,
       ⟨Path.ofString "/usr/bin", utf8 "git", .other⟩,
       ⟨Path.root, utf8 "w", .directory⟩] (by decide +kernel) with
    currentDir := some (Path.ofString "/w")
    mountList := none }

/-- A policy whose only item is the work place, and one that writes `ro` for the guarded
program as well. -/
def guardedInputs (shown : Bool) : Inputs :=
  { workplaceInputs with
    expanded := { mounts := workplaceInputs.expanded.mounts ++
      if shown then [⟨.ro, .absolute guardedProgram, .commandLine, .path guardedProgram⟩] else [] } }

def guardedFacts (shown : Bool) : IsolationFacts where
  mounts := collectGeneratorFacts guardedHost (wantedCandidates (guardedInputs shown))
    (collectPathFacts guardedHost (wantedCandidates (guardedInputs shown)))

def guardedName : NameFact where
  candidate := guardedProgram
  name := some guardedProgram
  real := some guardedProgram
  links := []
  executable := true
  file := none

/-- A launch with a rule for the program that also guards its absolute path. -/
def guardedLaunch (shown : Bool) (isolation : Isolation) : Launch :=
  { bareLaunch (guardedInputs shown) isolation with
    rules :=
      [{ rule := { program := "git", reason := "guarded", guardAbsolutePath := true }
         origin := .commandLine }]
    names := .ofList [("git", [guardedName])]
    executable := some (Path.ofString "/opt/kakoi") }

theorem guardedLaunch_allowed (shown : Bool) (isolation : Isolation) :
    ∀ entry ∈ (guardedLaunch shown isolation).rules, entry.rule.programAllowed = true := by
  have allowed : GuardRule.programAllowed
      { program := "git", reason := "guarded", guardAbsolutePath := true } = true := by decide +kernel
  simp [guardedLaunch, allowed]

theorem guarded_program_images_last :
    ∃ isolation plan sequence,
      resolveIsolation (guardedInputs false) (guardedFacts false) = .ok isolation ∧
        place (planOf (guardedLaunch false isolation)) (some (.bytes [])) = .ok plan ∧
        operations plan.arguments = .ok (indexed 0 sequence) ∧
        ∀ entry ∈ (guardedLaunch false isolation).guards.table.entries,
          lastAt sequence ⟨entry.location⟩ = some (imageAt (.bytes []) ⟨entry.location⟩) := by
  have evaluated : ∃ isolation,
      resolveIsolation (guardedInputs false) (guardedFacts false) = .ok isolation ∧
      (∃ plan, place (planOf (guardedLaunch false isolation)) (some (.bytes [])) = .ok plan) ∧
      (guardedLaunch false isolation).guards.table.entries ≠ [] ∧
      ∀ entry ∈ (guardedLaunch false isolation).guards.table.entries,
        ∀ place ∈ otherPlaces (guardedLaunch false isolation), place ≠ ⟨entry.location⟩ := by
    decide +kernel
  obtain ⟨isolation, accepted, ⟨plan, placed⟩, present, free⟩ := evaluated
  obtain ⟨-, images⟩ := guard_images_last_iff [] accepted
    (guardedLaunch_allowed false isolation) rfl present placed
  obtain ⟨sequence, read, last, -⟩ := images.mpr fun entry member taken =>
    free entry member _ taken rfl
  exact ⟨isolation, plan, sequence, accepted, placed, read, last⟩

/-- A written `ro` for a program whose absolute path is guarded takes the image, and the
last operation at the program's place is still a bind. -/
theorem shown_program_takes_image :
    ∃ isolation plan parsed operation,
      resolveIsolation (guardedInputs true) (guardedFacts true) = .ok isolation ∧
        place (planOf (guardedLaunch true isolation)) (some (.bytes [])) = .ok plan ∧
        operations plan.arguments = .ok parsed ∧
        (∃ entry ∈ (guardedLaunch true isolation).guards.table.entries,
          (⟨entry.location⟩ : Path) = guardedProgram) ∧
        lastAt (parsed.map Prod.snd) guardedProgram = some operation ∧
        boundAt operation = some guardedProgram ∧
        operation ≠ imageAt (.bytes []) guardedProgram := by
  have evaluated : ∃ isolation,
      resolveIsolation (guardedInputs true) (guardedFacts true) = .ok isolation ∧
      ∃ plan, place (planOf (guardedLaunch true isolation)) (some (.bytes [])) = .ok plan ∧
      ∃ parsed, operations plan.arguments = .ok parsed ∧
        (∃ entry ∈ (guardedLaunch true isolation).guards.table.entries,
          (⟨entry.location⟩ : Path) = guardedProgram) ∧
        ∃ operation ∈ lastAt (parsed.map Prod.snd) guardedProgram,
          boundAt operation = some guardedProgram := by decide +kernel
  obtain ⟨isolation, accepted, plan, placed, parsed, read, listed, operation, last, bind⟩ :=
    evaluated
  refine ⟨isolation, plan, parsed, operation, accepted, placed, read, listed, last, bind, ?_⟩
  rintro rfl
  rw [boundAt_imageAt] at bind
  cases bind

end Kakoi.HelperPlacement
