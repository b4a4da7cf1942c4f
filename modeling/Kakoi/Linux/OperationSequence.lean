import Kakoi.Linux.BwrapArguments

/-! A sequence of bwrap operations: its arguments are read back, and of the operations that cover
a path the last counts. -/

namespace Kakoi.BwrapArguments

/-- An option with as many operands as it takes. -/
def wellFormed : Operation → Bool
  | .literal option :: operands => arity option = .ok (some operands.length)
  | _ => false

/-- The operations, each with the position of its option among the arguments. -/
def indexed : Nat → List Operation → List (Nat × Operation)
  | _, [] => []
  | index, operation :: rest => (index, operation) :: indexed (index + operation.length) rest

/-- What may follow the operations: nothing, or the separator of the command. -/
def Tail (arguments : List Argument) : Prop :=
  arguments = [] ∨ ∃ rest, arguments = text "--" :: rest

theorem arity_known : ∀ known ∈ optionArities, arity (utf8 known.1) = .ok (some known.2) := by
  decide +kernel

theorem wellFormed_known (known : (option, operands.length) ∈ optionArities) :
    wellFormed (text option :: operands) = true := by
  simp [wellFormed, text, arity_known _ known]

theorem bindOptions_known : ∀ known ∈ optionArities,
    (bindOptions.any fun option => utf8 option = utf8 known.1) = bindOptions.contains known.1 := by
  decide +kernel

theorem mountOptions_known : ∀ known ∈ optionArities,
    (mountOptions.any fun option => utf8 option = utf8 known.1) = mountOptions.contains known.1 := by
  decide +kernel

theorem destination_two (source : Argument) (target : Path) (known : (option, 2) ∈ optionArities) :
    destination [text option, source, place target] =
      if bindOptions.contains option then some target else none := by
  simp only [destination, text, place, bindOptions_known _ known]

theorem destination_one (target : Path) (known : (option, 1) ∈ optionArities) :
    destination [text option, place target] =
      if mountOptions.contains option then some target else none := by
  simp only [destination, text, place, mountOptions_known _ known]

@[simp]
theorem destination_tmpfs (path : Path) : destination (tmpfs path) = some path :=
  destination_one path (by decide)

@[simp]
theorem destination_readOnlyBind (source target : Path) :
    destination (readOnlyBind source target) = some target :=
  destination_two _ target (by decide)

@[simp]
theorem destination_permissions (mode : String) : destination (permissions mode) = none :=
  destination_one (Path.ofString mode) (by decide)

@[simp]
theorem destination_remountReadOnly (path : Path) : destination (remountReadOnly path) = none :=
  destination_one path (by decide)

@[simp]
theorem destination_alone (option : Argument) : destination [option] = none := by
  cases option <;> rfl

@[simp]
theorem destination_seccomp : destination [text "--seccomp", .seccomp] = none := rfl

@[simp]
theorem destination_dev (path : Path) : destination [text "--dev", place path] = some path :=
  destination_one path (by decide)

@[simp]
theorem destination_proc (path : Path) : destination [text "--proc", place path] = some path :=
  destination_one path (by decide)

@[simp]
theorem destination_chdir (path : Path) : destination [text "--chdir", place path] = none :=
  destination_one path (by decide)

@[simp]
theorem destination_capDrop : destination [text "--cap-drop", text "ALL"] = none :=
  destination_one (Path.ofString "ALL") (by decide)

@[simp]
theorem destination_argv0 (command : Name) :
    destination [text "--argv0", .literal command] = none :=
  destination_one ⟨command⟩ (by decide)

@[simp]
theorem destination_devBind (source : Argument) (path : Path) :
    destination [text "--dev-bind", source, place path] = some path :=
  destination_two source path (by decide)

@[simp]
theorem destination_dir (path : Path) : destination [text "--dir", place path] = none :=
  destination_one path (by decide)

@[simp]
theorem destination_symlink (source : Argument) (path : Path) :
    destination [text "--symlink", source, place path] = none :=
  destination_two source path (by decide)

@[simp]
theorem destination_file (source : Argument) (path : Path) :
    destination [text "--file", source, place path] = none :=
  destination_two source path (by decide)

@[simp]
theorem destination_bind (source : Argument) (path : Path) :
    destination [text "--bind", source, place path] = some path :=
  destination_two source path (by decide)

@[simp]
theorem destination_bindData (source : Argument) (path : Path) :
    destination [text "--bind-data", source, place path] = some path :=
  destination_two source path (by decide)

@[simp]
theorem destination_readOnlyData (source : Argument) (path : Path) :
    destination [text "--ro-bind-data", source, place path] = some path :=
  destination_two source path (by decide)

@[simp]
theorem destination_put (provisions : Provisions) (file : SharedFile) (target : Path) :
    destination (put provisions file target) = some target := by
  unfold put
  split
  · exact destination_two _ target (by decide)
  · exact destination_two _ target (by decide)

theorem covers_some (mounts : destination operation = some target) (path : Path) :
    covers path operation = path.startsWith target := by
  simp [covers, mounts]

/-- The parser reads back the operations that were written, each at its position. -/
theorem operationsFrom_flatten {operations : List Operation}
    (formed : ∀ operation ∈ operations, wellFormed operation = true) (tail : Tail rest)
    (enough : (operations.flatten ++ rest).length ≤ fuel) (index : Nat) :
    operationsFrom fuel index (operations.flatten ++ rest) = .ok (indexed index operations) := by
  induction operations generalizing fuel index with
  | nil =>
    rcases tail with rfl | ⟨more, rfl⟩
    · cases fuel <;> rfl
    · cases fuel with
      | zero => simp at enough
      | succ fuel =>
        have separator : arity (utf8 "--") = .ok none := by decide +kernel
        simp [operationsFrom, text, separator, indexed, bind, Except.bind, pure, Except.pure]
  | cons first others ih =>
    have shape := formed first List.mem_cons_self
    unfold wellFormed at shape
    split at shape
    · rename_i option operands
      have known : arity option = .ok (some operands.length) := by simpa using shape
      cases fuel with
      | zero => simp at enough
      | succ fuel =>
        have later : operationsFrom fuel (index + 1 + operands.length) (others.flatten ++ rest) =
            .ok (indexed (index + 1 + operands.length) others) := by
          apply ih (fun operation member => formed operation (List.mem_cons_of_mem _ member))
          simp at enough ⊢
          omega
        have position : index + (operands.length + 1) = index + 1 + operands.length := by omega
        simp [operationsFrom, known, later, indexed, position, bind, Except.bind, pure, Except.pure]
    · cases shape

theorem operations_flatten {sequence : List Operation}
    (formed : ∀ operation ∈ sequence, wellFormed operation = true) (tail : Tail rest) :
    operations (sequence.flatten ++ rest) = .ok (indexed 0 sequence) :=
  operationsFrom_flatten formed tail (le_refl _) 0

@[simp]
theorem indexed_operations (index : Nat) (sequence : List Operation) :
    (indexed index sequence).map Prod.snd = sequence := by
  induction sequence generalizing index with
  | nil => rfl
  | cons first rest ih => simp [indexed, ih]

/-- The first operation that passes a test, with what comes before and after it. -/
theorem indexed_find (test : Operation → Bool) {sequence : List Operation}
    (found : (indexed start sequence).find? (fun entry => test entry.2) = some (index, operation)) :
    ∃ front back, sequence = front ++ operation :: back ∧ index = start + front.flatten.length ∧
      test operation = true ∧ ∀ earlier ∈ front, test earlier = false := by
  induction sequence generalizing start with
  | nil => cases found
  | cons first rest ih =>
    rw [indexed, List.find?_cons] at found
    cases passes : test first with
    | true =>
      simp only [passes] at found
      cases found
      exact ⟨[], rest, rfl, by simp, passes, by simp⟩
    | false =>
      simp only [passes] at found
      obtain ⟨front, back, rfl, rfl, holds, none⟩ := ih found
      refine ⟨first :: front, back, rfl, by simp; omega, holds, ?_⟩
      intro earlier member
      rcases List.mem_cons.mp member with rfl | later
      · exact passes
      · exact none earlier later

/-- The first operation that passes a test is found at its position. -/
theorem indexed_find_first (test : Operation → Bool) (front : List Operation)
    (none : ∀ earlier ∈ front, test earlier = false) (passes : test operation = true) (start : Nat)
    (back : List Operation) :
    (indexed start (front ++ operation :: back)).find? (fun entry => test entry.2) =
      some (start + front.flatten.length, operation) := by
  induction front generalizing start with
  | nil => simp [indexed, passes]
  | cons first rest ih =>
    have later := ih (fun earlier member => none earlier (List.mem_cons_of_mem first member))
      (start + first.length)
    simp only [List.cons_append, indexed, List.find?_cons, none first List.mem_cons_self, later,
      List.flatten_cons, List.length_append]
    rw [Nat.add_assoc]

/-- The operation in force at a path: the last that covers it. -/
def lastCovering (sequence : List Operation) (path : Path) : Option Operation :=
  sequence.reverse.find? (covers path)

theorem lastCovering_append (front back : List Operation) (path : Path) :
    lastCovering (front ++ back) path = (lastCovering back path).or (lastCovering front path) := by
  simp [lastCovering, List.find?_append]

theorem lastCovering_eq_none {sequence : List Operation} :
    lastCovering sequence path = none ↔ ∀ operation ∈ sequence, covers path operation = false := by
  simp [lastCovering, List.find?_eq_none]

section Generated

@[simp]
theorem wellFormed_two (first second : Argument) (known : (option, 2) ∈ optionArities) :
    wellFormed [text option, first, second] = true :=
  wellFormed_known known

@[simp]
theorem wellFormed_one (operand : Argument) (known : (option, 1) ∈ optionArities) :
    wellFormed [text option, operand] = true :=
  wellFormed_known known

@[simp]
theorem wellFormed_zero (known : (option, 0) ∈ optionArities) : wellFormed [text option] = true :=
  wellFormed_known known

/-- An argument that is not a shared file. -/
def Unshared : Argument → Prop
  | .sharedFile _ _ => False
  | _ => True

@[simp]
theorem unshared_text (name : String) : Unshared (text name) := trivial

@[simp]
theorem unshared_place (path : Path) : Unshared (place path) := trivial

@[simp]
theorem unshared_literal (name : Name) : Unshared (.literal name) := trivial

@[simp]
theorem unshared_data : Unshared .emptyFile ∧ Unshared .seccomp ∧
    ∀ content, Unshared (.copiedFile content) := ⟨trivial, trivial, fun _ => trivial⟩

/-- The operations that are generated, by their shapes. Those that make a tmpfs or remount do it
at a place that is allowed. -/
inductive Generated (allowed : Path → Prop) : Operation → Prop where
  | tmpfs (here : allowed path) : Generated allowed (tmpfs path)
  | remount (here : allowed path) : Generated allowed (remountReadOnly path)
  | alone (known : (option, 0) ∈ optionArities) : Generated allowed [text option]
  | one (known : (option, 1) ∈ optionArities) (other : option ≠ "--tmpfs" ∧ option ≠ "--remount-ro")
      (own : Unshared operand) : Generated allowed [text option, operand]
  | two (known : (option, 2) ∈ optionArities) (own : Unshared source) (target : Path) :
      Generated allowed [text option, source, place target]
  | put (provisions : Provisions) (file : SharedFile) (target : Path) :
      Generated allowed (put provisions file target)

attribute [simp] Generated.tmpfs Generated.remount Generated.alone Generated.one Generated.two
  Generated.put

attribute [local simp] optionArities permissions readOnlyBind

theorem Generated.formed (generated : Generated allowed operation) : wellFormed operation = true := by
  cases generated with
  | tmpfs | remount => exact wellFormed_one _ (by decide)
  | alone known => exact wellFormed_zero known
  | one known => exact wellFormed_one _ known
  | two known => exact wellFormed_two _ _ known
  | put provisions file target =>
    unfold BwrapArguments.put
    split <;> simp

variable {allowed : Path → Prop}

theorem fixedOperations_generated (networkMode : NetworkMode) (currentDir : Path)
    (provisions : Provisions) (root : allowed Path.root) :
    ∀ operation ∈ fixedOperations networkMode currentDir provisions, Generated allowed operation := by
  unfold fixedOperations
  simp only [List.forall_mem_append]
  refine ⟨⟨⟨⟨⟨⟨⟨?_, ?_⟩, ?_⟩, ?_⟩, ?_⟩, ?_⟩, ?_⟩, ?_⟩
  · split <;> simp [root]
  · simp
  · split <;> simp
  · split <;> simp
  · simp
  · split <;> simp
  · split <;> simp
  · simp

theorem directory_generated (path : Path) :
    ∀ operation ∈ directory path, Generated allowed operation := by
  simp [directory]

theorem directories_generated (paths : List Path) :
    ∀ operation ∈ paths.flatMap directory, Generated allowed operation :=
  List.forall_mem_flatMap.mpr fun path _ => directory_generated path

theorem listedOperations_generated (root : ListedRoot) (tmp : allowed (Path.ofString "/tmp")) :
    ∀ operation ∈ listedOperations root, Generated allowed operation := by
  unfold listedOperations
  simp only [List.forall_mem_append]
  refine ⟨⟨⟨⟨?_, directories_generated _⟩, ?_⟩, ?_⟩, ?_⟩
  · simp [tmp]
  · simp
  · simp
  · simp

theorem entryOperations_generated (item : ResolvedItem) (entry : CopiedEntry) :
    ∀ operation ∈ entryOperations item entry, Generated allowed operation := by
  unfold entryOperations
  cases entry <;> simp

theorem itemOperations_generated (provisions : Provisions) (copies : PathMap CopySource)
    {item : ResolvedItem} (here : allowed item.real) :
    ∀ operation ∈ itemOperations provisions copies item, Generated allowed operation := by
  unfold itemOperations
  split
  · simp
  · simp
  · simp
  · unfold copyOperations
    split
    · simp
    · simp only [List.forall_mem_append]
      exact ⟨by simp [here],
        List.forall_mem_flatMap.mpr fun entry _ => entryOperations_generated item entry⟩
    · simp [here]
    · simp
  · simp [here]
  · simp

theorem overlayOperations_generated (kakoi : Path) (overlaid : Path × Path) :
    ∀ operation ∈ overlayOperations kakoi overlaid, Generated allowed operation := by
  unfold overlayOperations
  simp only [List.forall_mem_append]
  exact ⟨directories_generated _, by simp⟩

theorem guardTmpfs_generated (kakoi : Path) (guards : GuardPlan) (root : allowed guardRoot) :
    ∀ operation ∈ guardTmpfs kakoi guards, Generated allowed operation := by
  unfold guardTmpfs
  simp only [List.forall_mem_append]
  refine ⟨⟨⟨⟨⟨?_, directory_generated guardLocation⟩, ?_⟩, ?_⟩, ?_⟩, ?_⟩
  · simp [root]
  · simp
  · exact List.forall_mem_flatMap.mpr fun overlaid _ => overlayOperations_generated kakoi overlaid
  · simp [readOnlyData]
  · simp [root]

theorem firstProcessTmpfs_generated (limits : CommandLimits) (root : allowed firstRoot) :
    ∀ operation ∈ firstProcessTmpfs limits, Generated allowed operation := by
  simp [firstProcessTmpfs, readOnlyData, root]

theorem resolverOperations_generated (networkMode : NetworkMode) (provisions : Provisions) :
    ∀ operation ∈ resolverOperations networkMode provisions, Generated allowed operation := by
  unfold resolverOperations
  split <;> simp

section Parts

variable (networkMode : NetworkMode) (currentDir : Path) (items : List ResolvedItem)
  (copies : PathMap CopySource) (guards : GuardPlan) (provisions : Provisions)
  (command : Option ResolvedCommand)

theorem bwrapParts_generated : ∀ operation ∈
    (bwrapParts networkMode currentDir items copies guards provisions command).operations,
    Generated (fun _ => True) operation := by
  simp only [Parts.operations, bwrapParts, guardOperations, List.forall_mem_append]
  refine ⟨⟨⟨⟨fixedOperations_generated networkMode currentDir provisions trivial, ?_⟩, ?_, ?_⟩,
    resolverOperations_generated networkMode provisions⟩, ⟨?_, ?_⟩, ?_⟩
  · simp
  · exact List.forall_mem_flatMap.mpr fun root _ => listedOperations_generated root trivial
  · exact List.forall_mem_flatMap.mpr fun item _ => itemOperations_generated provisions copies trivial
  · split
    · split
      · simp
      · exact guardTmpfs_generated _ guards trivial
    · simp
  · exact List.forall_mem_flatMap.mpr fun limits _ => firstProcessTmpfs_generated limits trivial
  · simp

/-- Every operation that is generated is well formed. -/
theorem bwrapParts_formed : ∀ operation ∈
    (bwrapParts networkMode currentDir items copies guards provisions command).operations,
    wellFormed operation = true :=
  fun operation member => (bwrapParts_generated _ _ _ _ _ _ _ operation member).formed

theorem commandArguments_tail (provisions : Provisions) (command : Option ResolvedCommand) :
    Tail (command.toList.flatMap (commandArguments provisions)) := by
  cases command with
  | none => exact .inl rfl
  | some command => exact .inr ⟨_, by simp [commandArguments]; rfl⟩

/-- The generated arguments are read back as the operations they were made of. -/
theorem bwrapArguments_operations :
    operations (bwrapArgumentsWithLayout networkMode currentDir items copies guards provisions
        command).1 =
      .ok (indexed 0
        (bwrapParts networkMode currentDir items copies guards provisions command).operations) :=
  operations_flatten
    (bwrapParts_formed networkMode currentDir items copies guards provisions command)
    (commandArguments_tail provisions command)

end Parts

end Generated

end Kakoi.BwrapArguments
