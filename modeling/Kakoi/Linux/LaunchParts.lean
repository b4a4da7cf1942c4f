import Kakoi.Linux.BoundPlaces
import Kakoi.Linux.RetainedMounts

/-! The arguments of a launch as parts: each step is an edit of one part's operations. -/

namespace Kakoi.HelperPlacement

open BwrapArguments Replacement

/-- Where the operand of `--argv0`, the separator of the command and the destination of the
resolver configuration are among the arguments of the parts. -/
def layoutOf (parts : Parts) : LaunchLayout where
  argv0 := some (parts.fixed.flatten.length + 1)
  commandSeparator := some parts.operations.flatten.length
  resolverDestination :=
    if parts.resolver.isEmpty then none
    else some ((parts.fixed ++ parts.argv0 ++ parts.mounts ++ parts.resolver).flatten.length - 1)

/-- An edit of every operation. -/
def mapParts (edit : Operation → Operation) (parts : Parts) : Parts where
  fixed := parts.fixed.map edit
  argv0 := parts.argv0.map edit
  mounts := parts.mounts.map edit
  resolver := parts.resolver.map edit
  guards := parts.guards.map edit

/-- Puts a guard image in place of the first bind at a location. -/
def replaceBound (image : FileContent) (parts : Parts) (location : Path) : Option Parts :=
  let replace := replaceFirst boundAt (imaged image) location
  ((replace parts.fixed).map fun fixed => { parts with fixed }) <|>
  ((replace parts.mounts).map fun mounts => { parts with mounts }) <|>
  ((replace parts.resolver).map fun resolver => { parts with resolver }) <|>
  ((replace parts.guards).map fun guards => { parts with guards })

/-- An operation that has a shared file binds it read-only. -/
def SharedBound (operation : Operation) : Prop :=
  operation.filterMap sharedFile = [] ∨
    ∃ file path target, operation = [text "--ro-bind", .sharedFile file path, .literal target]

/-- What every step keeps of the parts. -/
structure Shaped (parts : Parts) : Prop where
  formed : ∀ operation ∈ parts.operations, wellFormed operation = true
  named : ∃ name, parts.argv0 = [[text "--argv0", .literal name]]
  resolver : parts.resolver = [] ∨ ∃ front option source target,
    parts.resolver = front ++ [[option, source, .literal target]]
  shared : ∀ operation ∈ parts.operations, SharedBound operation

/-- The arguments of a plan are the parts and then the command, and its layout is theirs. -/
structure Carries (plan : Plan) (parts : Parts) (rest : List Argument) : Prop where
  arguments : plan.arguments = parts.operations.flatten ++ rest
  layout : plan.launchLayout = layoutOf parts
  shaped : Shaped parts
  tail : Tail rest

theorem Carries.reads (carries : Carries plan parts rest) : Reads plan parts.operations rest :=
  ⟨carries.arguments, carries.shaped.formed, carries.tail⟩

theorem shiftPosition_ahead (ahead : position < start) (delta : Int) :
    shiftPosition start delta position = position := by
  rw [shiftPosition, if_neg (by omega)]

/-- Where a position is once two arguments more are at a start. -/
def Pushed (start position pushed : Nat) : Prop :=
  start ≤ position ∧ pushed = position + 2 ∨ position < start ∧ pushed = position

theorem Pushed.shiftPosition (moves : Pushed start position pushed) :
    shiftPosition start 2 position = pushed := by
  rcases moves with ⟨behind, rfl⟩ | ⟨ahead, rfl⟩
  · rw [HelperPlacement.shiftPosition, if_pos behind]
    omega
  · exact shiftPosition_ahead ahead 2

theorem split_append {left right front back : List α}
    (same : left ++ right = front ++ element :: back) :
    (∃ middle, left = front ++ element :: middle ∧ back = middle ++ right) ∨
      ∃ middle, front = left ++ middle ∧ right = middle ++ element :: back := by
  rcases List.append_eq_append_iff.mp same with ⟨middle, rfl, rfl⟩ | ⟨middle, rfl, cut⟩
  · exact .inr ⟨middle, rfl, rfl⟩
  · cases middle with
    | nil => exact .inr ⟨[], by simp, by simpa using cut.symm⟩
    | cons first rest =>
      cases cut
      exact .inl ⟨rest, rfl, rfl⟩

theorem bound_length (bound : boundAt operation = some location) : operation.length = 3 := by
  obtain ⟨source, rfl⟩ := boundAt_eq_some bound
  rfl

theorem imaged_length (bound : boundAt operation = some location) :
    (imaged image operation).flatten.length = 5 := by
  rw [imaged_of_boundAt bound]
  rfl

/-- Two more arguments at a position move the positions behind it. -/
theorem layout_inserted {replaced : Parts} {start : Nat}
    (fixed : Pushed start (parts.fixed.flatten.length + 1) (replaced.fixed.flatten.length + 1))
    (whole : Pushed start parts.operations.flatten.length replaced.operations.flatten.length)
    (empty : replaced.resolver.isEmpty = parts.resolver.isEmpty)
    (before : Pushed start
      ((parts.fixed ++ parts.argv0 ++ parts.mounts ++ parts.resolver).flatten.length - 1)
      ((replaced.fixed ++ replaced.argv0 ++ replaced.mounts ++
        replaced.resolver).flatten.length - 1)) :
    layoutOf replaced = shiftLayout (layoutOf parts) start 2 := by
  simp only [layoutOf, shiftLayout, Option.map_some, fixed.shiftPosition, whole.shiftPosition, empty]
  split
  · rfl
  · rw [Option.map_some, before.shiftPosition]

/-- Where the first bind at a location is among the parts; the option `--argv0` is none. -/
inductive FoundIn (parts : Parts) (front : List Operation) (operation : Operation)
    (back : List Operation) : Prop where
  | fixed (after : List Operation) (here : parts.fixed = front ++ operation :: after)
      (behind : back = after ++ (parts.argv0 ++ (parts.mounts ++ (parts.resolver ++ parts.guards))))
  | mounts (ahead after : List Operation) (here : parts.mounts = ahead ++ operation :: after)
      (before : front = parts.fixed ++ (parts.argv0 ++ ahead))
      (behind : back = after ++ (parts.resolver ++ parts.guards))
  | resolver (ahead after : List Operation) (here : parts.resolver = ahead ++ operation :: after)
      (before : front = parts.fixed ++ (parts.argv0 ++ (parts.mounts ++ ahead)))
      (behind : back = after ++ parts.guards)
  | guards (ahead : List Operation) (here : parts.guards = ahead ++ operation :: back)
      (before : front = parts.fixed ++ (parts.argv0 ++ (parts.mounts ++ (parts.resolver ++ ahead))))

theorem foundIn_of_split (split : parts.operations = front ++ operation :: back)
    (other : operation ∉ parts.argv0) : FoundIn parts front operation back := by
  simp only [Parts.operations, List.append_assoc] at split
  rcases split_append split with ⟨after, here, behind⟩ | ⟨ahead, before, behindFixed⟩
  · exact .fixed after here behind
  rcases split_append behindFixed with ⟨after, here, -⟩ | ⟨ahead, rfl, behindArgv0⟩
  · rw [here] at other
    simp at other
  rcases split_append behindArgv0 with ⟨after, here, behind⟩ | ⟨ahead, rfl, behindMounts⟩
  · exact .mounts _ after here before behind
  rcases split_append behindMounts with ⟨after, here, behind⟩ | ⟨ahead, rfl, here⟩
  · exact .resolver _ after here before behind
  · exact .guards _ here before

/-- The image goes to the part that holds the first bind at the location. -/
theorem replaceBound_operations (image : FileContent)
    (split : parts.operations = front ++ operation :: back)
    (named : ∃ name, parts.argv0 = [[text "--argv0", .literal name]])
    (bound : boundAt operation = some location)
    (absent : ∀ earlier ∈ front, boundAt earlier ≠ some location) :
    ∃ replaced, replaceBound image parts location = some replaced ∧
      replaced.operations = front ++ (imaged image operation ++ back) ∧
      layoutOf replaced = shiftLayout (layoutOf parts) front.flatten.length 2 := by
  obtain ⟨name, named⟩ := named
  have size := bound_length bound
  have grown : (imaged image operation).flatten.length = 5 := imaged_length bound
  have opened : parts.argv0.flatten.length = 2 := by simp [named]
  have other : operation ∉ parts.argv0 := by
    rw [named, List.mem_singleton]
    rintro rfl
    simp at bound
  have missing : ∀ list, (∀ element ∈ list, element ∈ front) →
      replaceFirst boundAt (imaged image) location list = none := fun list within =>
    replaceFirst_absent fun element member => absent element (within element member)
  have replacing : ∀ ahead after, (∀ element ∈ ahead, element ∈ front) →
      replaceFirst boundAt (imaged image) location (ahead ++ operation :: after) =
        some (ahead ++ (imaged image operation ++ after)) := fun ahead after within =>
    replaceFirst_split (fun element member => absent element (within element member)) bound after
  cases foundIn_of_split split other with
  | fixed after here behind =>
    refine ⟨{ parts with fixed := front ++ (imaged image operation ++ after) }, ?_, ?_, ?_⟩
    · rw [replaceBound, here, replacing front after fun _ member => member]
      rfl
    · simp [Parts.operations, behind]
    · refine layout_inserted ?_ ?_ rfl ?_ <;>
        simp only [Parts.operations, here, List.flatten_append, List.flatten_cons,
          List.length_append, grown, opened, size] <;> unfold Pushed <;> omega
  | mounts ahead after here before behind =>
    subst before
    refine ⟨{ parts with mounts := ahead ++ (imaged image operation ++ after) }, ?_, ?_, ?_⟩
    · rw [replaceBound, missing parts.fixed (by simp +contextual), here,
        replacing ahead after (by simp +contextual)]
      rfl
    · simp [Parts.operations, behind]
    · refine layout_inserted ?_ ?_ rfl ?_ <;>
        simp only [Parts.operations, here, List.flatten_append, List.flatten_cons,
          List.length_append, grown, opened, size] <;> unfold Pushed <;> omega
  | resolver ahead after here before behind =>
    subst before
    refine ⟨{ parts with resolver := ahead ++ (imaged image operation ++ after) }, ?_, ?_, ?_⟩
    · rw [replaceBound, missing parts.fixed (by simp +contextual),
        missing parts.mounts (by simp +contextual), here, replacing ahead after (by simp +contextual)]
      rfl
    · simp [Parts.operations, behind]
    · have nonempty : (ahead ++ (imaged image operation ++ after)).isEmpty = parts.resolver.isEmpty := by
        rw [here, imaged_of_boundAt bound]
        cases ahead <;> rfl
      refine layout_inserted ?_ ?_ nonempty ?_ <;>
        simp only [Parts.operations, here, List.flatten_append, List.flatten_cons,
          List.length_append, grown, opened, size] <;> unfold Pushed <;> omega
  | guards ahead here before =>
    subst before
    refine ⟨{ parts with guards := ahead ++ (imaged image operation ++ back) }, ?_, ?_, ?_⟩
    · rw [replaceBound, missing parts.fixed (by simp +contextual),
        missing parts.mounts (by simp +contextual), missing parts.resolver (by simp +contextual), here,
        replacing ahead back (by simp +contextual)]
      rfl
    · simp [Parts.operations]
    · refine layout_inserted ?_ ?_ rfl ?_ <;>
        simp only [Parts.operations, here, List.flatten_append, List.flatten_cons,
          List.length_append, grown, opened, size] <;> unfold Pushed <;> omega

theorem sharedBound_imaged (bound : boundAt operation = some location) :
    ∀ made ∈ imaged image operation, SharedBound made := by
  rw [imaged_of_boundAt bound]
  simp [guardImage, permissions, imageAt, SharedBound, sharedFile, text, BwrapArguments.place]

theorem imaged_formed (bound : boundAt operation = some location) :
    ∀ made ∈ imaged image operation, wellFormed made = true := by
  rw [imaged_of_boundAt bound]
  exact guardImage_formed image location

/-- A property of single operations that the image has is kept where it replaces a bind. -/
theorem forall_replaced {P : Operation → Prop} (all : ∀ old ∈ front ++ operation :: back, P old)
    (made : ∀ new ∈ imaged image operation, P new) :
    ∀ new ∈ front ++ (imaged image operation ++ back), P new := by
  simp only [List.forall_mem_append, List.forall_mem_cons] at all ⊢
  exact ⟨all.1, made, all.2.2⟩

theorem replaceBound_parts (made : replaceBound image parts location = some replaced) :
    replaced.argv0 = parts.argv0 ∧ (replaced.resolver = parts.resolver ∨
      replaceFirst boundAt (imaged image) location parts.resolver = some replaced.resolver) := by
  simp only [replaceBound, Option.orElse_eq_orElse, Option.orElse_eq_or, Option.or_eq_some_iff,
    Option.map_eq_some_iff, Option.map_eq_none_iff] at made
  rcases made with ⟨_, -, rfl⟩ | ⟨-, ⟨_, -, rfl⟩ | ⟨-, ⟨_, found, rfl⟩ | ⟨-, _, -, rfl⟩⟩⟩
  · exact ⟨rfl, .inl rfl⟩
  · exact ⟨rfl, .inl rfl⟩
  · exact ⟨rfl, .inr found⟩
  · exact ⟨rfl, .inl rfl⟩

/-- The resolver configuration stays the last operation of its part, or becomes an image. -/
theorem resolver_replaced
    (replaced : replaceFirst boundAt (imaged image) location
      (front ++ [[option, source, .literal target]]) = some result) :
    ∃ front option source target, result = front ++ [[option, source, .literal target]] := by
  obtain ⟨ahead, operation, back, split, bound, rfl⟩ := replaceFirst_eq_some replaced
  rcases List.eq_nil_or_concat' back with rfl | ⟨later, last, rfl⟩
  · rw [imaged_of_boundAt bound]
    refine ⟨ahead ++ [permissions "0555"], text "--ro-bind-data", .copiedFile image,
      location.bytes, ?_⟩
    simp [guardImage, imageAt, BwrapArguments.place]
  · have regrouped : front ++ [[option, source, .literal target]] =
        (ahead ++ operation :: later) ++ [last] := by simpa using split
    have same := List.singleton_inj.mp (List.append_inj' regrouped rfl).2
    exact ⟨ahead ++ (imaged image operation ++ later), option, source, target, by simp [same]⟩

theorem replaceBound_shaped (shaped : Shaped parts)
    (made : replaceBound image parts location = some replaced)
    (split : parts.operations = front ++ operation :: back)
    (bound : boundAt operation = some location)
    (result : replaced.operations = front ++ (imaged image operation ++ back)) : Shaped replaced where
  formed := by
    rw [result]
    have formed := shaped.formed
    rw [split] at formed
    exact forall_replaced formed (imaged_formed bound)
  named := by
    rw [(replaceBound_parts made).1]
    exact shaped.named
  resolver := by
    rcases (replaceBound_parts made).2 with same | replacedThere
    · rw [same]
      exact shaped.resolver
    · rcases shaped.resolver with empty | ⟨front, option, source, target, shape⟩
      · rw [empty] at replacedThere
        cases replacedThere
      · rw [shape] at replacedThere
        exact .inr (resolver_replaced replacedThere)
  shared := by
    rw [result]
    have shared := shaped.shared
    rw [split] at shared
    exact forall_replaced shared (sharedBound_imaged bound)

theorem placeEntry_carries (carries : Carries plan parts rest)
    (placed : placeEntry (some image) plan entry = .ok next) :
    ∃ replaced, replaceBound image parts ⟨entry.location⟩ = some replaced ∧
      Carries next replaced rest := by
  obtain ⟨front, operation, back, split, bound, absent, rfl⟩ := placeEntry_split carries.reads placed
  obtain ⟨replaced, made, result, layout⟩ :=
    replaceBound_operations image split carries.shaped.named bound absent
  refine ⟨replaced, made, ?_, ?_, replaceBound_shaped carries.shaped made split bound result,
    carries.tail⟩
  · rw [result]
  · rw [layout, ← carries.layout]

theorem placeEntries_carries {entries : List TableEntry} (carries : Carries plan parts rest)
    (placed : entries.foldlM (placeEntry (some image)) plan = .ok next) :
    ∃ replaced, (entries.map fun entry => (⟨entry.location⟩ : Path)).foldlM (replaceBound image) parts =
        some replaced ∧ Carries next replaced rest := by
  induction entries generalizing plan parts with
  | nil =>
    cases placed
    exact ⟨parts, rfl, carries⟩
  | cons entry others ih =>
    rw [List.foldlM_cons] at placed
    obtain ⟨middle, first, later⟩ := Except.bind_eq_ok.mp placed
    obtain ⟨replaced, made, carriesNow⟩ := placeEntry_carries carries first
    obtain ⟨final, rest, carriesLast⟩ := ih carriesNow later
    refine ⟨final, ?_, carriesLast⟩
    rw [List.map_cons, List.foldlM_cons, made]
    exact rest

/-- The parts of a launch without the operations that place kakoi as the first process. -/
def partsWithoutFirst (launch : Launch) : Parts :=
  bwrapParts launch.inputs.policy.networkMode launch.inputs.currentDir
    launch.isolation.mounts.items launch.copies launch.guards
    { launch.provisions with commands := none } launch.command

@[simp]
theorem sharedFile_unshared (own : Unshared argument) : sharedFile argument = none := by
  cases argument with
  | sharedFile => exact own.elim
  | literal | emptyFile | seccomp | copiedFile => rfl

theorem shared_of_generated (generated : Generated allowed operation) : SharedBound operation := by
  cases generated with
  | tmpfs | remount | alone => exact .inl rfl
  | one known other own => exact .inl (by simp [own])
  | two known own target => exact .inl (by simp [own])
  | put provisions file target =>
    unfold BwrapArguments.put
    split
    · exact .inr ⟨file, _, target.bytes, rfl⟩
    · left
      cases file <;> rfl

theorem bwrapParts_shaped (networkMode : NetworkMode) (currentDir : Path)
    (items : List ResolvedItem) (copies : PathMap CopySource) (guards : GuardPlan)
    (provisions : Provisions) (command : ResolvedCommand) :
    Shaped (bwrapParts networkMode currentDir items copies guards provisions (some command)) where
  formed := bwrapParts_formed networkMode currentDir items copies guards provisions (some command)
  named := ⟨command.command, rfl⟩
  resolver := by
    simp only [bwrapParts, resolverOperations]
    split
    · right
      unfold put
      split
      · exact ⟨[], _, _, _, rfl⟩
      · exact ⟨[], _, _, _, rfl⟩
    · exact .inl rfl
  shared := fun operation member =>
    shared_of_generated (bwrapParts_generated _ _ _ _ _ _ _ operation member)

/-- The generated arguments are the parts, and their layout is that of the parts. -/
theorem launch_carries (commanded : launch.command = some command) :
    Carries (planOf launch) launch.parts (commandArguments launch.provisions command) where
  arguments := by
    simp [planOf, Launch.arguments, bwrapArgumentsWithLayout, Launch.parts, commanded]
  layout := by
    have resolved : (resolverOperations launch.inputs.policy.networkMode launch.provisions).isEmpty =
        !decide (launch.inputs.policy.networkMode = .filtered) := by
      unfold resolverOperations
      split <;> simp_all
    have parted : (if launch.parts.resolver.isEmpty then none else
        some ((launch.parts.fixed ++ launch.parts.argv0 ++ launch.parts.mounts ++
          launch.parts.resolver).flatten.length - 1)) =
        if launch.inputs.policy.networkMode = .filtered then
          some ((launch.parts.fixed ++ launch.parts.argv0 ++ launch.parts.mounts ++
            launch.parts.resolver).flatten.length - 1) else none := by
      rw [show launch.parts.resolver.isEmpty = _ from resolved]
      split <;> simp_all
    rw [layoutOf, parted]
    simp only [planOf, bwrapArgumentsWithLayout, Launch.parts, commanded, Option.map_some]
  shaped := by
    rw [Launch.parts, commanded]
    exact bwrapParts_shaped _ _ _ _ _ _ _
  tail := .inr ⟨_, rfl⟩

/-- The operations of a launch up to those that place the first process. -/
def aheadOfFirst (launch : Launch) : List Operation :=
  launch.parts.fixed ++ launch.parts.argv0 ++ launch.parts.mounts ++ launch.parts.resolver ++
    guardOperations launch.guards none

theorem unmarked_ahead (elsewhere : ∀ item ∈ launch.isolation.mounts.items, item.real ≠ firstRoot) :
    ∀ operation ∈ aheadOfFirst launch, Unmarked operation := by
  have opening := unmarked_opening launch elsewhere
  simp only [HelperPlacement.opening, List.forall_mem_append] at opening
  simp only [aheadOfFirst, guardOperations, List.forall_mem_append]
  refine ⟨opening.1, ?_, by simp⟩
  split
  · split
    · simp
    · exact fun operation member =>
        unmarked_of_generated (guardTmpfs_generated _ _ (by decide +kernel) operation member)
  · simp

theorem partsWithoutFirst_eq (launch : Launch) : partsWithoutFirst launch =
    { launch.parts with guards := guardOperations launch.guards none ++ rootRemount launch } := rfl

theorem parts_around_first (launch : Launch) :
    launch.parts.operations = aheadOfFirst launch ++
      launch.commands.toList.flatMap firstProcessTmpfs ++ rootRemount launch := by
  simp [Launch.parts, bwrapParts, Parts.operations, aheadOfFirst, guardOperations, rootRemount,
    Launch.provisions, provisions]

theorem operations_without_first (launch : Launch) :
    (partsWithoutFirst launch).operations = aheadOfFirst launch ++ rootRemount launch := by
  simp [partsWithoutFirst_eq, Parts.operations, aheadOfFirst]

theorem partsWithoutFirst_shaped (commanded : launch.command = some command) :
    Shaped (partsWithoutFirst launch) := by
  rw [partsWithoutFirst, commanded]
  exact bwrapParts_shaped _ _ _ _ _ _ _

/-- Taking out the first process moves the separator only: the other positions are before
it. -/
theorem layout_without_first (named : ∃ name, launch.parts.argv0 = [[text "--argv0", .literal name]])
    (commands : launch.commands = some limits) :
    shiftLayout (layoutOf launch.parts)
        (aheadOfFirst launch ++ firstProcessTmpfs limits).flatten.length
        (-(firstProcessTmpfs limits).flatten.length) = layoutOf (partsWithoutFirst launch) := by
  obtain ⟨name, shape⟩ := named
  have opened : launch.parts.argv0.flatten.length = 2 := by simp [shape]
  have ahead : (aheadOfFirst launch).flatten.length = (launch.parts.fixed ++ launch.parts.argv0 ++
      launch.parts.mounts ++ launch.parts.resolver).flatten.length +
      (guardOperations launch.guards none).flatten.length := by
    rw [aheadOfFirst, List.flatten_append, List.length_append]
  have before : launch.parts.fixed.flatten.length + 2 ≤ (launch.parts.fixed ++ launch.parts.argv0 ++
      launch.parts.mounts ++ launch.parts.resolver).flatten.length := by
    simp only [List.flatten_append, List.length_append, opened]
    omega
  have whole : launch.parts.operations.flatten.length = (aheadOfFirst launch).flatten.length +
      (firstProcessTmpfs limits).flatten.length + (rootRemount launch).flatten.length := by
    rw [parts_around_first, commands, Option.toList_some, List.flatMap_singleton]
    simp only [List.flatten_append, List.length_append]
  have left : (partsWithoutFirst launch).operations.flatten.length =
      (aheadOfFirst launch).flatten.length + (rootRemount launch).flatten.length := by
    rw [operations_without_first, List.flatten_append, List.length_append]
  have separator : shiftPosition (aheadOfFirst launch ++ firstProcessTmpfs limits).flatten.length
      (-(firstProcessTmpfs limits).flatten.length) launch.parts.operations.flatten.length =
      (partsWithoutFirst launch).operations.flatten.length := by
    rw [shiftPosition, if_pos (by simp only [List.flatten_append, List.length_append]; omega)]
    omega
  have smaller : ∀ position, position < (aheadOfFirst launch).flatten.length →
      shiftPosition (aheadOfFirst launch ++ firstProcessTmpfs limits).flatten.length
        (-(firstProcessTmpfs limits).flatten.length) position = position := fun position bound =>
    shiftPosition_ahead (by simp only [List.flatten_append, List.length_append]; omega) _
  simp only [shiftLayout, layoutOf, Option.map_some, separator, LaunchLayout.mk.injEq, true_and]
  refine ⟨by rw [smaller _ (by omega)]; rfl, ?_⟩
  cases empty : launch.parts.resolver.isEmpty with
  | true => simp [partsWithoutFirst_eq, empty]
  | false =>
    simp only [partsWithoutFirst_eq, empty, Bool.false_eq_true, ↓reduceIte, Option.map_some]
    rw [smaller _ (by omega)]

theorem removeFirstProcess_carries (commanded : launch.command = some command)
    (elsewhere : ∀ item ∈ launch.isolation.mounts.items, item.real ≠ firstRoot)
    (removed : removeFirstProcess (planOf launch) = .ok next) :
    Carries next (partsWithoutFirst launch) (commandArguments launch.provisions command) := by
  have carries := launch_carries commanded
  cases commands : launch.commands with
  | none =>
    have same : partsWithoutFirst launch = launch.parts := by
      simp [partsWithoutFirst_eq, Launch.parts, bwrapParts, Launch.provisions, provisions, commands,
        rootRemount]
    have kept : (planOf launch).commands = none := commands
    unfold removeFirstProcess at removed
    simp only [kept, Option.isNone_none, ↓reduceIte] at removed
    cases removed
    rw [same]
    exact carries
  | some limits =>
    have reads := carries.reads
    rw [parts_around_first, commands, Option.toList_some, List.flatMap_singleton] at reads
    rw [removeFirstProcess_split _ _ commands reads (unmarked_ahead elsewhere)] at removed
    cases removed
    refine ⟨by rw [operations_without_first], ?_, partsWithoutFirst_shaped commanded, carries.tail⟩
    rw [carries.layout]
    exact layout_without_first carries.shaped.named commands

/-- What placing an image at a location makes of the parts. -/
def placeParts (given : Option FileContent) (parts : Parts) (location : Path) : Option Parts :=
  given.bind fun image => replaceBound image parts location

/-- The parts of a launch after the images are placed. -/
def placedParts (launch : Launch) (given : Option FileContent) : Option Parts :=
  (launch.guards.table.entries.map fun entry => (⟨entry.location⟩ : Path)).foldlM
    (placeParts given) (partsWithoutFirst launch)

theorem place_carries (commanded : launch.command = some command)
    (elsewhere : ∀ item ∈ launch.isolation.mounts.items, item.real ≠ firstRoot)
    (placed : place (planOf launch) given = .ok plan) :
    ∃ parts, placedParts launch given = some parts ∧
      Carries plan parts (commandArguments launch.provisions command) := by
  obtain ⟨rest, removed, filled⟩ := Except.bind_eq_ok.mp placed
  have carries := removeFirstProcess_carries commanded elsewhere removed
  cases given with
  | some image => exact placeEntries_carries carries filled
  | none =>
    have guards : (planOf launch).guards = launch.guards := rfl
    unfold placedParts
    cases entries : launch.guards.table.entries with
    | nil =>
      rw [guards, entries] at filled
      cases filled
      exact ⟨_, rfl, carries⟩
    | cons entry others =>
      rw [guards, entries] at filled
      cases filled

end Kakoi.HelperPlacement
