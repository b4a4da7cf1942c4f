import Kakoi.Base.Replacement
import Kakoi.Linux.HelperPlacement
import Kakoi.Linux.MountView

/-! Where the guard images end up: the search takes the first bind at a guard's location. -/

namespace Kakoi.HelperPlacement

open BwrapArguments Replacement

/-- A guard image at a location, readable and executable by everyone. -/
def imageAt (image : FileContent) (location : Path) : Operation :=
  [text "--ro-bind-data", .copiedFile image, BwrapArguments.place location]

def guardImage (image : FileContent) (location : Path) : List Operation :=
  [permissions "0555", imageAt image location]

/-- What placing an image makes of a read-only bind. -/
def imaged (image : FileContent) (operation : Operation) : List Operation :=
  match boundAt operation with
  | some location => guardImage image location
  | none => [operation]

theorem readOnlyBind_known : ∀ known ∈ optionArities,
    (utf8 known.1 = utf8 "--ro-bind" ↔ known.1 = "--ro-bind") := by
  decide +kernel

theorem boundAt_two (source : Argument) (target : Path) (known : (option, 2) ∈ optionArities) :
    boundAt [text option, source, BwrapArguments.place target] =
      if option = "--ro-bind" then some target else none := by
  simp only [boundAt, text, BwrapArguments.place, readOnlyBind_known _ known]

@[simp]
theorem boundAt_one (option operand : Argument) : boundAt [option, operand] = none := by
  cases option <;> rfl

@[simp]
theorem boundAt_alone (option : Argument) : boundAt [option] = none := by
  cases option <;> rfl

@[simp]
theorem boundAt_permissions (mode : String) : boundAt (permissions mode) = none := boundAt_one _ _

@[simp]
theorem boundAt_readOnlyBind (source target : Path) :
    boundAt (readOnlyBind source target) = some target :=
  boundAt_two _ target (by decide)

theorem boundAt_eq_some (bound : boundAt operation = some location) :
    ∃ source, operation = [text "--ro-bind", source, BwrapArguments.place location] := by
  unfold boundAt at bound
  split at bound
  · rename_i option source path
    split at bound
    · rename_i same
      cases bound
      exact ⟨source, by simp [text, BwrapArguments.place, same]⟩
    · cases bound
  · cases bound

theorem destination_of_boundAt (bound : boundAt operation = some location) :
    destination operation = some location := by
  obtain ⟨source, rfl⟩ := boundAt_eq_some bound
  exact destination_two source location (by decide)

theorem boundAt_imageAt (image : FileContent) (location : Path) :
    boundAt (imageAt image location) = none :=
  boundAt_two _ location (by decide)

theorem destination_imageAt (image : FileContent) (location : Path) :
    destination (imageAt image location) = some location :=
  destination_readOnlyData _ location

theorem imaged_of_boundAt (bound : boundAt operation = some location) :
    imaged image operation = guardImage image location := by
  simp only [imaged, bound]

theorem imaged_inert (image : FileContent) (operation : Operation) (location : Path)
    (bound : boundAt operation = some location) :
    ∀ made ∈ imaged image operation, boundAt made = none := by
  simp [imaged_of_boundAt bound, guardImage, permissions, boundAt_imageAt]

theorem guardImage_formed (image : FileContent) (location : Path) :
    ∀ operation ∈ guardImage image location, wellFormed operation = true := by
  simp [guardImage, permissions, imageAt, optionArities]

section Run

variable {sequence : List Operation}

/-- What the arguments of a plan are while images are placed: whole operations, then the
command. -/
structure Reads (plan : Plan) (sequence : List Operation) (rest : List Argument) : Prop where
  arguments : plan.arguments = sequence.flatten ++ rest
  formed : ∀ operation ∈ sequence, wellFormed operation = true
  tail : Tail rest

theorem Reads.operations (reads : Reads plan sequence rest) :
    operations plan.arguments = .ok (indexed 0 sequence) := by
  rw [reads.arguments]
  exact operations_flatten reads.formed reads.tail

/-- Placing an entry's image edits the first bind at its location and moves the layout behind
it. -/
theorem placeEntry_split (reads : Reads plan sequence rest)
    (placed : placeEntry (some image) plan entry = .ok next) :
    ∃ front operation back, sequence = front ++ operation :: back ∧
      boundAt operation = some ⟨entry.location⟩ ∧
      (∀ earlier ∈ front, boundAt earlier ≠ some ⟨entry.location⟩) ∧
      next = { plan with
        arguments := (front ++ (imaged image operation ++ back)).flatten ++ rest
        launchLayout := shiftLayout plan.launchLayout front.flatten.length 2 } := by
  unfold placeEntry at placed
  obtain ⟨parsed, read, placed⟩ := Except.bind_eq_ok.mp placed
  cases reads.operations.symm.trans read
  split at placed
  · rename_i index operation found
    obtain ⟨front, back, rfl, rfl, bound, none⟩ := indexed_find
      (fun operation => boundAt operation = some ⟨entry.location⟩) found
    have bound : boundAt operation = some ⟨entry.location⟩ := by simpa using bound
    refine ⟨front, operation, back, rfl, bound, by simpa using none, ?_⟩
    obtain ⟨source, rfl⟩ := boundAt_eq_some bound
    cases placed
    simp [reads.arguments, imaged_of_boundAt bound, guardImage, imageAt, permissions]
  · cases placed

/-- Placing an entry's image replaces the first bind at its location. -/
theorem placeEntry_replaces (reads : Reads plan sequence rest)
    (placed : placeEntry (some image) plan entry = .ok next) :
    ∃ replaced, replaceFirst boundAt (imaged image) ⟨entry.location⟩ sequence = some replaced ∧
      Reads next replaced rest := by
  obtain ⟨front, operation, back, rfl, bound, none, rfl⟩ := placeEntry_split reads placed
  refine ⟨front ++ (imaged image operation ++ back), replaceFirst_split none bound back, rfl, ?_,
    reads.tail⟩
  rw [imaged_of_boundAt bound]
  have formed := reads.formed
  simp only [List.forall_mem_append, List.forall_mem_cons] at formed ⊢
  exact ⟨formed.1, guardImage_formed image ⟨entry.location⟩, formed.2.2⟩

/-- Placing the images of all entries is one pass over the operations. -/
theorem placeEntries_replace {entries : List TableEntry} (reads : Reads plan sequence rest)
    (placed : entries.foldlM (placeEntry (some image)) plan = .ok next) :
    Reads next
      (replaceEach boundAt (imaged image) (entries.map fun entry => ⟨entry.location⟩) sequence) rest := by
  induction entries generalizing plan sequence with
  | nil =>
    cases placed
    rw [List.map_nil, replaceEach_no_keys]
    exact reads
  | cons entry others ih =>
    rw [List.foldlM_cons] at placed
    obtain ⟨middle, first, later⟩ := Except.bind_eq_ok.mp placed
    obtain ⟨replaced, made, readsNow⟩ := placeEntry_replaces reads first
    rw [List.map_cons, ← replaceEach_replaceFirst (imaged_inert image) made]
    exact ih readsNow later

end Run

theorem applied_known : ∀ known ∈ optionArities,
    (utf8 known.1 = utf8 "--tmpfs" ↔ known.1 = "--tmpfs") ∧
      (utf8 known.1 = utf8 "--remount-ro" ↔ known.1 = "--remount-ro") := by
  decide +kernel

/-- An operation that the search for the first process passes over. -/
def Unmarked (operation : Operation) : Prop :=
  appliesTo "--tmpfs" firstRoot operation = false ∧
    appliesTo "--remount-ro" firstRoot operation = false

@[simp]
theorem unmarked_two (option source target : Argument) : Unmarked [option, source, target] := by
  simp [Unmarked, appliesTo]

@[simp]
theorem unmarked_alone (option : Argument) : Unmarked [option] := by
  cases option <;> exact ⟨rfl, rfl⟩

theorem unmarked_one (known : (option, 1) ∈ optionArities) (operand : Argument)
    (tmpfs : option ≠ "--tmpfs") (remount : option ≠ "--remount-ro") :
    Unmarked [text option, operand] := by
  obtain ⟨tmpfsOnly, remountOnly⟩ := applied_known _ known
  cases operand with
  | literal name =>
    simp [Unmarked, appliesTo, text, tmpfsOnly, remountOnly, tmpfs, remount]
  | _ => exact ⟨rfl, rfl⟩

theorem unmarked_tmpfs (elsewhere : path ≠ firstRoot) : Unmarked (tmpfs path) := by
  have different : utf8 "--tmpfs" ≠ utf8 "--remount-ro" := by decide +kernel
  have bytes : path.bytes ≠ firstRoot.bytes := fun same => elsewhere (congrArg Path.mk same)
  simp [Unmarked, appliesTo, tmpfs, text, BwrapArguments.place, bytes, different]

theorem unmarked_remount (elsewhere : path ≠ firstRoot) : Unmarked (remountReadOnly path) := by
  have different : utf8 "--remount-ro" ≠ utf8 "--tmpfs" := by decide +kernel
  have bytes : path.bytes ≠ firstRoot.bytes := fun same => elsewhere (congrArg Path.mk same)
  simp [Unmarked, appliesTo, remountReadOnly, text, BwrapArguments.place, bytes, different]

@[simp]
theorem unmarked_permissions (mode : String) : Unmarked (permissions mode) :=
  unmarked_one (by decide) _ (by simp) (by simp)

theorem unmarked_directory (path : Path) : ∀ operation ∈ directory path, Unmarked operation := by
  simp [directory, unmarked_one, optionArities]

/-- The bind and the list between the tmpfs of the first process and its remount. -/
def firstProcessContent (limits : CommandLimits) : List Operation :=
  readOnlyBind limits.executable firstProcess ::
    readOnlyData (.allowedList (limits.allowed ++ limits.relocated ++ limits.outerGuards)) allowedList

theorem firstProcessTmpfs_eq (limits : CommandLimits) :
    firstProcessTmpfs limits =
      permissions "0755" :: tmpfs firstRoot :: firstProcessContent limits ++
        [remountReadOnly firstRoot] := rfl

theorem unmarked_content (limits : CommandLimits) :
    ∀ operation ∈ firstProcessContent limits, Unmarked operation := by
  simp [firstProcessContent, readOnlyBind, readOnlyData]

theorem cut_block (front block back : List Operation) (rest : List Argument) :
    ((front ++ block ++ back).flatten ++ rest).take front.flatten.length ++
        ((front ++ block ++ back).flatten ++ rest).drop (front ++ block).flatten.length =
      (front ++ back).flatten ++ rest := by
  have behind : (front ++ block ++ back).flatten ++ rest =
      (front ++ block).flatten ++ (back.flatten ++ rest) := by simp
  have ahead : (front ++ block ++ back).flatten ++ rest =
      front.flatten ++ (block.flatten ++ (back.flatten ++ rest)) := by simp
  nth_rewrite 1 [ahead]
  rw [behind, List.take_left, List.drop_left, List.flatten_append, List.append_assoc]

/-- Removing the first process takes out exactly the operations that place it, and moves the
layout behind them. -/
theorem removeFirstProcess_split {plan : Plan} (front back : List Operation)
    (commands : plan.commands = some limits)
    (reads : Reads plan (front ++ firstProcessTmpfs limits ++ back) rest)
    (unmarked : ∀ operation ∈ front, Unmarked operation) :
    removeFirstProcess plan = .ok { plan with
      arguments := (front ++ back).flatten ++ rest
      launchLayout := shiftLayout plan.launchLayout
        (front ++ firstProcessTmpfs limits).flatten.length
        (-(firstProcessTmpfs limits).flatten.length) } := by
  have marksTmpfs : appliesTo "--tmpfs" firstRoot (tmpfs firstRoot) = true := by decide +kernel
  have marksRemount : appliesTo "--remount-ro" firstRoot (remountReadOnly firstRoot) = true := by
    decide +kernel
  have otherMark : appliesTo "--remount-ro" firstRoot (tmpfs firstRoot) = false := by decide +kernel
  have opened : ∀ operation ∈ front ++ [permissions "0755"],
      appliesTo "--tmpfs" firstRoot operation = false :=
    List.forall_mem_append.mpr ⟨fun operation member => (unmarked operation member).1,
      List.forall_mem_singleton.mpr (unmarked_permissions "0755").1⟩
  have filled : ∀ operation ∈
      front ++ permissions "0755" :: tmpfs firstRoot :: firstProcessContent limits,
      appliesTo "--remount-ro" firstRoot operation = false :=
    List.forall_mem_append.mpr ⟨fun operation member => (unmarked operation member).2,
      List.forall_mem_cons.mpr ⟨(unmarked_permissions "0755").2, List.forall_mem_cons.mpr
        ⟨otherMark, fun operation member => (unmarked_content limits operation member).2⟩⟩⟩
  have starts := indexed_find_first _ _ opened marksTmpfs 0
    (firstProcessContent limits ++ remountReadOnly firstRoot :: back)
  have ends := indexed_find_first _ _ filled marksRemount 0 back
  have read := reads.operations
  have start : 0 + (front ++ [permissions "0755"]).flatten.length = front.flatten.length + 2 := by
    simp [permissions]
  have stop : 0 + (front ++ permissions "0755" :: tmpfs firstRoot ::
      firstProcessContent limits).flatten.length + 2 =
      (front ++ firstProcessTmpfs limits).flatten.length := by
    simp [firstProcessTmpfs_eq, remountReadOnly]
    omega
  have size : (front ++ firstProcessTmpfs limits).flatten.length - front.flatten.length =
      (firstProcessTmpfs limits).flatten.length := by
    simp
  simp only [firstProcessTmpfs_eq, List.append_assoc, List.cons_append, List.nil_append] at read starts ends
  unfold removeFirstProcess
  simp only [commands, read, Option.isNone_some, bind, Except.bind, starts, ends, start,
    Bool.false_eq_true, ↓reduceIte, Nat.not_lt.mpr (Nat.le_add_left 2 _),
    Nat.add_sub_cancel, stop, size]
  rw [reads.arguments, cut_block front _ back rest]
  rfl

/-- Removing the first process takes out exactly the operations that place it. -/
theorem removeFirstProcess_drops {plan : Plan} (front back : List Operation)
    (reads : Reads plan (front ++ plan.commands.toList.flatMap firstProcessTmpfs ++ back) rest)
    (unmarked : ∀ operation ∈ front, Unmarked operation)
    (removed : removeFirstProcess plan = .ok next) : Reads next (front ++ back) rest := by
  cases commands : plan.commands with
  | none =>
    unfold removeFirstProcess at removed
    simp only [commands, Option.isNone_none, ↓reduceIte] at removed
    cases removed
    simpa [commands] using reads
  | some limits =>
    rw [commands, Option.toList_some, List.flatMap_singleton] at reads
    rw [removeFirstProcess_split front back commands reads unmarked] at removed
    cases removed
    refine ⟨rfl, ?_, reads.tail⟩
    have formed := reads.formed
    simp only [List.forall_mem_append] at formed ⊢
    exact ⟨formed.1.1, formed.2⟩

end Kakoi.HelperPlacement
