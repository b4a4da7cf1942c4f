import Kakoi.Linux.SettledMounts

/-! The bookkeeping of a launch from the library: recorded positions are those of their operands,
and each retained mount is at the start of its bind. -/

namespace Kakoi.HelperPlacement

open BwrapArguments

theorem mapParts_operations (edit : Operation → Operation) (parts : Parts) :
    (mapParts edit parts).operations = parts.operations.map edit := by
  simp [mapParts, Parts.operations]

theorem layoutOf_mapParts (kept : ∀ operation, (edit operation).length = operation.length)
    (parts : Parts) : layoutOf (mapParts edit parts) = layoutOf parts := by
  have lengths := flatten_map_length kept
  rw [layoutOf, layoutOf, mapParts_operations, lengths]
  simp only [mapParts, ← List.map_append, lengths, List.isEmpty_map]

def settledParts (fit : Option Bool) : Parts → Parts := mapParts (settledOperation fit)

theorem settledOperation_shared (shape : SharedBound operation) (fit : Option Bool) :
    SharedBound (settledOperation fit operation) := by
  rcases shape with unshared | ⟨file, path, target, rfl⟩
  · rw [settledOperation_unshared unshared]
    exact .inl unshared
  · match fit with
    | none => exact .inr ⟨file, path, target, rfl⟩
    | some true => exact .inl rfl
    | some false => cases file <;> exact .inl rfl

theorem settledOperation_three (fit : Option Bool) (option source : Argument) (target : Name) :
    ∃ other content, settledOperation fit [option, source, .literal target] =
      [other, content, .literal target] := by
  unfold settledOperation
  split
  · rename_i shape
    cases shape
    exact ⟨_, _, rfl⟩
  · rename_i shape
    cases shape
    exact ⟨_, _, rfl⟩
  · exact ⟨option, source, rfl⟩

theorem settledParts_shaped (shaped : Shaped parts) (fit : Option Bool) :
    Shaped (settledParts fit parts) where
  formed := by
    rw [settledParts, mapParts_operations, List.forall_mem_map]
    exact fun operation member => settledOperation_formed (shaped.shared operation member)
      (shaped.formed operation member) fit
  named := by
    obtain ⟨name, named⟩ := shaped.named
    exact ⟨name, by simp [settledParts, mapParts, named, settledOperation_unshared]⟩
  resolver := by
    rcases shaped.resolver with empty | ⟨front, option, source, target, shape⟩
    · exact .inl (by simp [settledParts, mapParts, empty])
    · obtain ⟨other, content, made⟩ := settledOperation_three fit option source target
      exact .inr ⟨front.map (settledOperation fit), other, content, target,
        by simp [settledParts, mapParts, shape, made]⟩
  shared := by
    rw [settledParts, mapParts_operations, List.forall_mem_map]
    exact fun operation member => settledOperation_shared (shaped.shared operation member) fit

theorem settleShared_carries (carries : Carries plan parts rest)
    (retains : Retains mounts parts.operations) (unshared : rest.filterMap sharedFile = [])
    (settled : settleShared putInPlace openPath plan.arguments mounts = .ok result) :
    Carries { plan with arguments := result.1 }
        (settledParts (sharedFit putInPlace plan.arguments) parts) rest ∧
      Retains result.2 (settledParts (sharedFit putInPlace plan.arguments) parts).operations := by
  rw [carries.arguments] at settled ⊢
  obtain ⟨arguments, retainsNow⟩ := settleShared_retains retains carries.shaped.formed
    carries.shaped.shared carries.tail unshared settled
  rw [settledParts, mapParts_operations]
  refine ⟨⟨?_, ?_, settledParts_shaped carries.shaped _, carries.tail⟩, retainsNow⟩
  · rw [mapParts_operations]
    exact arguments
  · rw [layoutOf_mapParts (settledOperation_length _)]
    exact carries.layout

section Resolver

variable {parts : Parts}

/-- The resolver configuration put at another place. -/
def retargetParts (target : Path) (parts : Parts) : Parts :=
  { parts with
    resolver := parts.resolver.dropLast ++ parts.resolver.getLast?.toList.map fun operation =>
      operation.dropLast ++ [BwrapArguments.place target] }

/-- The parts without the resolver configuration. -/
def reuseParts (parts : Parts) : Parts :=
  { parts with resolver := [], guards := parts.resolver.dropLast ++ parts.guards }

theorem Carries.resolver_split (carries : Carries plan parts rest)
    (present : plan.launchLayout.resolverDestination = some index) :
    ∃ front option source target, parts.resolver = front ++ [[option, source, .literal target]] ∧
      index = (parts.fixed ++ parts.argv0 ++ parts.mounts ++ front).flatten.length + 2 := by
  rw [carries.layout] at present
  rcases carries.shaped.resolver with empty | ⟨front, option, source, target, shape⟩
  · simp [layoutOf, empty] at present
  · refine ⟨front, option, source, target, shape, ?_⟩
    have some : parts.resolver.isEmpty = false := by simp [shape]
    simp only [layoutOf, some, Bool.false_eq_true, ↓reduceIte, Option.some.injEq] at present
    rw [← present, shape]
    simp only [List.flatten_append, List.length_append, List.flatten_cons, List.flatten_nil,
      List.length_cons, List.length_nil]
    omega

theorem operations_around (shape : parts.resolver = front ++ [operation]) :
    parts.operations =
      (parts.fixed ++ parts.argv0 ++ parts.mounts ++ front) ++ operation :: parts.guards := by
  simp [Parts.operations, shape]

theorem set_third (before behind : List Operation) (option source old new : Argument)
    (rest : List Argument) :
    ((before ++ [option, source, old] :: behind).flatten ++ rest).set (before.flatten.length + 2) new =
      (before ++ [option, source, new] :: behind).flatten ++ rest := by
  simp only [List.flatten_append, List.flatten_cons, List.append_assoc]
  rw [List.set_append_right _ _ (by omega), Nat.add_sub_cancel_left]
  rfl

theorem forall_around {P : Operation → Prop} (all : ∀ old ∈ front ++ operation :: back, P old)
    (new : P changed) : ∀ old ∈ front ++ changed :: back, P old := by
  simp only [List.forall_mem_append, List.forall_mem_cons] at all ⊢
  exact ⟨all.1, new, all.2.2⟩

theorem retargetParts_resolver (target : Path)
    (shape : parts.resolver = front ++ [[option, source, .literal old]]) :
    (retargetParts target parts).resolver =
      front ++ [[option, source, BwrapArguments.place target]] := by
  simp [retargetParts, shape]

theorem retargeted_formed (formed : wellFormed [option, source, .literal old] = true)
    (target : Argument) : wellFormed [option, source, target] = true := by
  cases option with
  | literal name => exact formed
  | _ => cases formed

theorem retargeted_shared (shape : SharedBound [option, source, .literal old]) (target : Name) :
    SharedBound [option, source, .literal target] := by
  rcases shape with unshared | ⟨file, path, other, same⟩
  · exact .inl (by simpa using unshared)
  · cases same
    exact .inr ⟨file, path, target, rfl⟩

theorem retarget_carries (carries : Carries plan parts rest)
    (retargeted : retargetResolver plan target = .ok next) :
    Carries next (retargetParts target parts) rest := by
  unfold retargetResolver at retargeted
  split at retargeted
  · cases retargeted
  · rename_i index present
    cases retargeted
    obtain ⟨front, option, source, old, shape, rfl⟩ := carries.resolver_split present
    have changed := retargetParts_resolver target shape
    have around := operations_around shape
    have aroundNow : (retargetParts target parts).operations = (parts.fixed ++ parts.argv0 ++
        parts.mounts ++ front) ++ [option, source, BwrapArguments.place target] :: parts.guards :=
      operations_around changed
    have formed := carries.shaped.formed
    have shared := carries.shaped.shared
    rw [around] at formed shared
    have member : [option, source, .literal old] ∈ (parts.fixed ++ parts.argv0 ++
        parts.mounts ++ front) ++ [option, source, .literal old] :: parts.guards := by simp
    refine ⟨?_, ?_, ⟨?_, carries.shaped.named, .inr ⟨front, option, source, target.bytes, changed⟩, ?_⟩,
      carries.tail⟩
    · rw [carries.arguments, around, aroundNow]
      exact set_third _ _ option source _ _ rest
    · have size : (retargetParts target parts).operations.flatten.length =
          parts.operations.flatten.length := by
        rw [around, aroundNow]
        simp
      rw [carries.layout, layoutOf, layoutOf, size, changed, shape]
      simp [retargetParts]
    · rw [aroundNow]
      exact forall_around formed (retargeted_formed (formed _ member) _)
    · rw [aroundNow]
      exact forall_around shared (retargeted_shared (shared _ member) _)

/-- Reusing the resolver configuration takes its operation out; no mount overlaps it. -/
theorem reuse_split (carries : Carries plan parts rest)
    (reused : reuseResolver plan mounts = .ok (next, left)) :
    ∃ before operation, operation.length = 3 ∧
      before.flatten.length ≥ parts.fixed.flatten.length + 2 ∧
      parts.operations = before ++ operation :: parts.guards ∧
      (reuseParts parts).operations = before ++ parts.guards ∧
      next.arguments = (before ++ parts.guards).flatten ++ rest ∧
      next.launchLayout = shiftLayout { plan.launchLayout with resolverDestination := none }
        (before.flatten.length + 3) (-3) ∧
      (left = mounts.map fun mount =>
        if before.flatten.length + 3 ≤ mount.argumentIndex then
          { mount with argumentIndex := mount.argumentIndex - 3 } else mount) ∧
      ∀ mount ∈ mounts, before.flatten.length + 3 ≤ mount.argumentIndex ∨
        mount.argumentIndex + 3 ≤ before.flatten.length := by
  unfold reuseResolver at reused
  split at reused
  · cases reused
  · rename_i index present
    obtain ⟨⟨arguments, kept⟩, removed, made⟩ := Except.bind_eq_ok.mp reused
    cases made
    obtain ⟨front, option, source, old, shape, rfl⟩ := carries.resolver_split present
    obtain ⟨name, named⟩ := carries.shaped.named
    have around := operations_around shape
    have aroundNow : (reuseParts parts).operations =
        (parts.fixed ++ parts.argv0 ++ parts.mounts ++ front) ++ parts.guards := by
      simp [reuseParts, Parts.operations, shape]
    have opened : (parts.fixed ++ parts.argv0 ++ parts.mounts ++ front).flatten.length ≥
        parts.fixed.flatten.length + 2 := by
      have two : parts.argv0.flatten.length = 2 := by simp [named]
      simp only [List.flatten_append, List.length_append, two]
      omega
    generalize parts.fixed ++ parts.argv0 ++ parts.mounts ++ front = before at *
    have cut := cut_block before [[option, source, .literal old]] parts.guards rest
    have size : (before ++ [[option, source, .literal old]]).flatten.length =
        before.flatten.length + 3 := by
      rw [List.flatten_append, List.length_append]
      rfl
    have width : before.flatten.length + 3 - before.flatten.length = 3 := Nat.add_sub_cancel_left _ _
    simp only [removeGeneratedArguments, Nat.add_sub_cancel, width] at removed
    split at removed
    · cases removed
    · rename_i apart
      cases removed
      refine ⟨before, [option, source, .literal old], rfl, opened, around, aroundNow, ?_, rfl, rfl, ?_⟩
      · rw [← cut, size, carries.arguments, around]
        simp only [List.append_assoc, List.singleton_append]
      · intro mount member
        rw [Bool.not_eq_true, List.any_eq_false] at apart
        have clear := apart mount member
        simp only [Bool.and_eq_true, decide_eq_true_eq, not_and] at clear
        omega

theorem reuse_carries (carries : Carries plan parts rest)
    (reused : reuseResolver plan mounts = .ok (next, left)) :
    Carries next (reuseParts parts) rest := by
  obtain ⟨before, operation, size, opened, around, aroundNow, arguments, layout, -, -⟩ :=
    reuse_split carries reused
  have formed := carries.shaped.formed
  have shared := carries.shaped.shared
  rw [around] at formed shared
  simp only [List.forall_mem_append, List.forall_mem_cons] at formed shared
  refine ⟨by rw [arguments, aroundNow], ?_, ⟨?_, carries.shaped.named, .inl rfl, ?_⟩, carries.tail⟩
  · have whole : parts.operations.flatten.length =
        before.flatten.length + 3 + parts.guards.flatten.length := by
      rw [around, List.flatten_append, List.length_append, List.flatten_cons, List.length_append, size,
        ← Nat.add_assoc]
    have remains : (reuseParts parts).operations.flatten.length =
        before.flatten.length + parts.guards.flatten.length := by
      rw [aroundNow, List.flatten_append, List.length_append]
    rw [layout, carries.layout]
    simp only [shiftLayout, layoutOf, Option.map_some, Option.map_none, LaunchLayout.mk.injEq]
    refine ⟨?_, ?_, rfl⟩
    · rw [shiftPosition_ahead (by omega)]
      rfl
    · rw [shiftPosition, if_pos (by omega), whole, remains]
      congr 1
      omega
  · rw [aroundNow]
    simp only [List.forall_mem_append]
    exact ⟨formed.1, formed.2.2⟩
  · rw [aroundNow]
    simp only [List.forall_mem_append]
    exact ⟨shared.1, shared.2.2⟩

theorem bindPlaces_moved (start amount : Nat) (sequence : List Operation) :
    bindPlaces (start + amount) sequence =
      (bindPlaces start sequence).map fun found => { found with index := found.index + amount } := by
  induction sequence generalizing start with
  | nil => rfl
  | cons first later ih =>
    rw [bindPlaces_cons, bindPlaces_cons, List.map_append, ← ih, Nat.add_right_comm,
      bindPlace_moved (start + amount), bindPlace_moved start]
    cases bindPlace (0, first) <;> rfl

/-- Dropping an operation that is not retained moves the mounts behind it. -/
theorem reuse_retains (carries : Carries plan parts rest) (retains : Retains mounts parts.operations)
    (reused : reuseResolver plan mounts = .ok (next, left)) :
    Retains left (reuseParts parts).operations := by
  obtain ⟨before, operation, size, -, around, aroundNow, -, -, rfl, apart⟩ := reuse_split carries reused
  rw [Retains, around, bindPlaces_append, bindPlaces_cons, Nat.zero_add, size] at retains
  -- The operation that goes is no bind: a mount of it would overlap it.
  have unbound : bindPlace (before.flatten.length, operation) = none := by
    rw [Option.eq_none_iff_forall_ne_some]
    intro found bound
    have member : found ∈ mounts.map RetainedMount.place := by
      rw [retains, bound]
      simp
    obtain ⟨mount, listed, rfl⟩ := List.mem_map.mp member
    have index : mount.argumentIndex = before.flatten.length := (bindPlace_eq_some bound).1
    have clear := apart mount listed
    omega
  rw [unbound, Option.toList_none, List.nil_append, bindPlaces_moved] at retains
  rw [Retains, aroundNow, bindPlaces_append, Nat.zero_add]
  have moved : (mounts.map fun mount =>
      if before.flatten.length + 3 ≤ mount.argumentIndex then
        { mount with argumentIndex := mount.argumentIndex - 3 } else mount).map RetainedMount.place =
      (mounts.map RetainedMount.place).map fun found =>
        if before.flatten.length + 3 ≤ found.index then { found with index := found.index - 3 } else found := by
    rw [List.map_map, List.map_map]
    refine List.map_congr_left fun mount _ => ?_
    by_cases behind : before.flatten.length + 3 ≤ mount.argumentIndex
    · simp only [Function.comp_apply, RetainedMount.place, if_pos behind]
      exact (if_pos behind).symm
    · simp only [Function.comp_apply, RetainedMount.place, if_neg behind]
      exact (if_neg behind).symm
  rw [moved, retains, List.map_append]
  congr 1
  · refine (List.map_congr_left fun found member => ?_).trans (List.map_id _)
    have within := (bindPlaces_within member).2
    rw [if_neg (by omega)]
    rfl
  · rw [List.map_map]
    refine (List.map_congr_left fun found member => ?_).trans (List.map_id _)
    have within := (bindPlaces_within member).1
    simp only [Function.comp_apply]
    rw [if_pos (by omega)]
    simp

end Resolver

/-- The operations that put an init at a path. -/
def initOperations (directory : Path) (image : FileContent) (path : Path) : List Operation :=
  [[text "--dir", BwrapArguments.place directory], permissions "0700",
    [text "--ro-bind-data", .copiedFile image, BwrapArguments.place path], [text "--as-pid-1"]]

/-- The parts with an init in place of the command. -/
def initParts (directory : Path) (image : FileContent) (path : Path) (parts : Parts) : Parts :=
  { parts with
    argv0 := [[text "--argv0", BwrapArguments.place path]]
    guards := parts.guards ++ initOperations directory image path }

theorem initParts_shaped (shaped : Shaped parts) (directory : Path) (image : FileContent) (path : Path) :
    Shaped (initParts directory image path parts) where
  formed := by
    have formed := shaped.formed
    simp only [Parts.operations, initParts, List.forall_mem_append] at formed ⊢
    refine ⟨⟨⟨⟨formed.1.1.1.1, ?_⟩, formed.1.1.2⟩, formed.1.2⟩, formed.2, ?_⟩
    · simp [optionArities]
    · simp [initOperations, permissions, optionArities]
  named := ⟨path.bytes, rfl⟩
  resolver := shaped.resolver
  shared := by
    have shared := shaped.shared
    simp only [Parts.operations, initParts, List.forall_mem_append] at shared ⊢
    refine ⟨⟨⟨⟨shared.1.1.1.1, ?_⟩, shared.1.1.2⟩, shared.1.2⟩, shared.2, ?_⟩
    · simp [SharedBound]
    · simp [initOperations, permissions, SharedBound]

/-- The arguments of a plan whose command was replaced by an init. The separator of the layout
is that of the command. -/
structure Starts (plan : Plan) (parts : Parts) (path : Path) : Prop where
  arguments : plan.arguments = parts.operations.flatten ++ [text "--", BwrapArguments.place path]
  argv0 : plan.launchLayout.argv0 = (layoutOf parts).argv0
  resolver : plan.launchLayout.resolverDestination = (layoutOf parts).resolverDestination
  shaped : Shaped parts

theorem placeInit_starts (carries : Carries plan parts rest)
    (started : placeInit plan image path = some next) :
    ∃ directory, path.parent = some directory ∧
      Starts next (initParts directory image path parts) path := by
  obtain ⟨directory, parent, started⟩ := Option.bind_eq_some_iff.mp started
  obtain ⟨name, named⟩ := carries.shaped.named
  refine ⟨directory, parent, ?_⟩
  rw [carries.layout] at started
  simp only [layoutOf, Option.bind_eq_bind, Option.bind_some, carries.arguments, List.take_left] at started
  cases started
  refine ⟨?_, rfl, ?_, initParts_shaped carries.shaped directory image path⟩
  · have renamed : parts.operations.flatten.set (parts.fixed.flatten.length + 1)
        (BwrapArguments.place path) = (parts.fixed ++ [[text "--argv0", BwrapArguments.place path]] ++
          parts.mounts ++ parts.resolver ++ parts.guards).flatten := by
      simp only [Parts.operations, named, List.flatten_append, List.append_assoc]
      rw [List.set_append_right _ _ (by omega), Nat.add_sub_cancel_left]
      rfl
    rw [renamed]
    simp [initParts, initOperations, Parts.operations, permissions]
  · simp [layoutOf, initParts, named]

theorem initParts_retains (shaped : Shaped parts) (retains : Retains mounts parts.operations)
    (directory : Path) (image : FileContent) (path : Path) :
    Retains mounts (initParts directory image path parts).operations := by
  obtain ⟨name, named⟩ := shaped.named
  have unbound : ∀ start, bindPlaces start (initOperations directory image path) = [] := fun _ => rfl
  have renamed : ∀ start operand, bindPlaces start [[text "--argv0", .literal operand]] = [] :=
    fun _ _ => rfl
  simp only [Retains, Parts.operations, initParts, bindPlaces_append, unbound, named, renamed,
    BwrapArguments.place, List.append_nil, List.flatten_append, List.flatten_singleton,
    List.length_append, List.length_cons] at retains ⊢
  exact retains

section Descriptors

variable {sequence : List Operation}

/-- A bind handed over by descriptor: the option and the source are replaced. -/
def describedOperation (numbers : RetainedMount → Nat) (mounts : List RetainedMount)
    (entry : Nat × Operation) : Operation :=
  match mounts.find? (fun mount => mount.argumentIndex = entry.1 && !mount.device), entry.2 with
  | some mount, [_, _, target] =>
    [text (if mount.readOnly then "--ro-bind-fd" else "--bind-fd"), text (toString (numbers mount)),
      target]
  | _, operation => operation

/-- Each mount is at the start of an operation with two operands, no two at the same one. -/
structure Aligned (mounts : List RetainedMount) (sequence : List Operation) : Prop where
  starts : ∀ mount ∈ mounts, ∃ operation, (mount.argumentIndex, operation) ∈ indexed 0 sequence ∧
    operation.length = 3
  apart : mounts.Pairwise fun left right => left.argumentIndex ≠ right.argumentIndex

theorem indexed_start (member : (index, operation) ∈ indexed start sequence) : start ≤ index := by
  obtain ⟨front, back, -, rfl⟩ := mem_indexed member
  omega

theorem indexed_end (member : (index, operation) ∈ indexed start sequence) :
    index + operation.length ≤ start + sequence.flatten.length := by
  obtain ⟨front, back, rfl, rfl⟩ := mem_indexed member
  simp only [List.flatten_append, List.length_append, List.flatten_cons]
  omega

theorem describedOperation_other (numbers : RetainedMount → Nat)
    (other : ∀ mount ∈ mounts, mount.argumentIndex ≠ index) (operation : Operation) :
    describedOperation numbers mounts (index, operation) = operation := by
  have missing : mounts.find? (fun mount => mount.argumentIndex = index && !mount.device) = none := by
    simpa [List.find?_eq_none] using fun mount member same => absurd same (other mount member)
  rw [describedOperation, missing]

theorem describedOperation_length (numbers : RetainedMount → Nat) (mounts : List RetainedMount)
    (entry : Nat × Operation) :
    (describedOperation numbers mounts entry).length = entry.2.length := by
  unfold describedOperation
  split
  · rename_i shape
    rw [shape]
    rfl
  · rfl

/-- What a clone of a mount's descriptor is numbered. -/
def clonedNumber (tryClone : RetainedMount → Except String Nat) (mount : RetainedMount) : Nat :=
  (tryClone mount).toOption.getD 0

theorem describeMount_edits (formed : ∀ operation ∈ sequence, operation ≠ [])
    (start : (mount.argumentIndex, operation) ∈ indexed 0 sequence) (size : operation.length = 3)
    (described : describeMount tryClone (sequence.flatten ++ rest, numbers) mount = .ok result) :
    result.1 = ((indexed 0 sequence).map
        (describedOperation (clonedNumber tryClone) [mount])).flatten ++ rest := by
  obtain ⟨front, back, rfl, position⟩ := mem_indexed start
  rw [Nat.zero_add] at position
  have ahead : (indexed 0 front).map (describedOperation (clonedNumber tryClone) [mount]) = front := by
    refine (List.map_congr_left fun entry member => ?_).trans (indexed_operations 0 front)
    refine describedOperation_other _ (fun other listed => ?_) entry.2
    have bound := indexed_end member
    have nonempty : entry.2 ≠ [] := by
      obtain ⟨ahead, behind, shape, -⟩ := mem_indexed member
      exact formed entry.2 (by simp [shape])
    have long := List.length_pos_iff.mpr nonempty
    rw [List.mem_singleton.mp listed]
    omega
  have behind : (indexed (front.flatten.length + operation.length) back).map
      (describedOperation (clonedNumber tryClone) [mount]) = back := by
    refine (List.map_congr_left fun entry member => ?_).trans (indexed_operations _ back)
    refine describedOperation_other _ (fun other listed => ?_) entry.2
    have bound := indexed_start member
    rw [List.mem_singleton.mp listed]
    omega
  rw [indexed_append, Nat.zero_add, List.map_append, ahead, indexed, List.map_cons, behind]
  unfold describeMount at described
  split at described
  · rename_i device
    cases described
    have same : describedOperation (clonedNumber tryClone) [mount] (front.flatten.length, operation) =
        operation := by
      simp [describedOperation, device]
    rw [same]
  · rename_i path
    obtain ⟨descriptor, cloned, made⟩ := Except.bind_eq_ok.mp described
    cases made
    obtain ⟨option, source, target, rfl⟩ := List.length_eq_three.mp size
    have number : clonedNumber tryClone mount = descriptor := by
      rw [clonedNumber, cloned]
      rfl
    have changed : describedOperation (clonedNumber tryClone) [mount]
        (front.flatten.length, [option, source, target]) =
        [text (if mount.readOnly then "--ro-bind-fd" else "--bind-fd"), text (toString descriptor),
          target] := by
      simp [describedOperation, position, path, number]
    rw [changed, position]
    simp only [List.flatten_append, List.flatten_cons, List.append_assoc]
    rw [List.set_append_right _ _ (by omega), Nat.sub_self,
      List.set_append_right _ _ (by omega), Nat.add_sub_cancel_left]
    rfl

/-- The mounts stay where they are while operations keep their lengths. -/
theorem indexed_map (edit : Nat × Operation → Operation)
    (kept : ∀ entry ∈ indexed start sequence, (edit entry).length = entry.2.length) :
    indexed start ((indexed start sequence).map edit) =
      (indexed start sequence).map fun entry => (entry.1, edit entry) := by
  induction sequence generalizing start with
  | nil => rfl
  | cons first later ih =>
    have here := kept (start, first) List.mem_cons_self
    simp only [indexed, List.map_cons] at here ⊢
    rw [here, ih fun entry member => kept entry (List.mem_cons_of_mem _ member)]

theorem describedOperation_twice (numbers : RetainedMount → Nat)
    (apart : ∀ later ∈ mounts, mount.argumentIndex ≠ later.argumentIndex) (entry : Nat × Operation) :
    describedOperation numbers mounts (entry.1, describedOperation numbers [mount] entry) =
      describedOperation numbers (mount :: mounts) entry := by
  by_cases here : mount.argumentIndex = entry.1
  · have others : ∀ later ∈ mounts, later.argumentIndex ≠ entry.1 := fun later member same =>
      apart later member (here.trans same.symm)
    rw [describedOperation_other numbers others]
    cases device : mount.device with
    | true =>
      have rest := describedOperation_other numbers others entry.2
      unfold describedOperation at rest ⊢
      simpa [device] using rest.symm
    | false => simp [describedOperation, here, device]
  · have alone : describedOperation numbers [mount] entry = entry.2 := by
      simp [describedOperation, here]
    rw [alone]
    simp [describedOperation, here]

/-- Handing over the mounts edits the operations they were retained from, and nothing else. -/
theorem descriptorArguments_edits (aligned : Aligned mounts sequence)
    (formed : ∀ operation ∈ sequence, operation ≠ []) (clones : List Nat)
    (described : mounts.foldlM (describeMount tryClone) (sequence.flatten ++ rest, clones) =
      .ok result) :
    result.1 = ((indexed 0 sequence).map
        (describedOperation (clonedNumber tryClone) mounts)).flatten ++ rest := by
  induction mounts generalizing sequence clones with
  | nil =>
    cases described
    have same : (indexed 0 sequence).map (describedOperation (clonedNumber tryClone) []) = sequence :=
      (List.map_congr_left fun entry _ => rfl).trans (indexed_operations 0 sequence)
    rw [same]
  | cons mount later ih =>
    rw [List.foldlM_cons] at described
    obtain ⟨⟨arguments, cloned⟩, first, others⟩ := Except.bind_eq_ok.mp described
    obtain ⟨operation, start, size⟩ := aligned.starts mount List.mem_cons_self
    have edited : arguments = _ := describeMount_edits formed start size first
    have apart := List.pairwise_cons.mp aligned.apart
    have kept := describedOperation_length (clonedNumber tryClone) [mount]
    have moved := indexed_map (describedOperation (clonedNumber tryClone) [mount])
      fun entry (_ : entry ∈ indexed 0 sequence) => kept entry
    rw [edited] at others
    have final := ih ⟨?_, apart.2⟩ ?_ cloned others
    · rw [final, moved, List.map_map]
      congr 2
      exact List.map_congr_left fun entry _ =>
        describedOperation_twice (clonedNumber tryClone) apart.1 entry
    · intro other listed
      obtain ⟨operation, start, size⟩ := aligned.starts other (List.mem_cons_of_mem _ listed)
      refine ⟨describedOperation (clonedNumber tryClone) [mount] (other.argumentIndex, operation), ?_,
        (kept (other.argumentIndex, operation)).trans size⟩
      rw [moved]
      exact List.mem_map.mpr ⟨_, start, rfl⟩
    · intro new listed
      obtain ⟨entry, member, rfl⟩ := List.mem_map.mp listed
      obtain ⟨front, back, shape, -⟩ := mem_indexed member
      have old : entry.2 ≠ [] := formed entry.2 (by simp [shape])
      rw [← List.length_pos_iff, kept entry]
      exact List.length_pos_iff.mpr old

end Descriptors

end Kakoi.HelperPlacement
