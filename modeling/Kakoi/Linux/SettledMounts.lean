import Kakoi.Linux.LaunchParts

/-! After each step of a launch the retained mounts are the binds among its operations. -/

namespace Kakoi.HelperPlacement

open BwrapArguments

variable {sequence : List Operation} {settled : List Argument}

/-- A bind among the arguments: the position of its option, what it binds where, and how. -/
structure BindPlace where
  index : Nat
  source : Path
  destination : Path
  readOnly : Bool
  device : Bool

def bindPlace (entry : Nat × Operation) : Option BindPlace :=
  match entry.2 with
  | [.literal option, .literal source, .literal destination] =>
    if retainedOptions.any fun known => utf8 known = option then
      some { index := entry.1, source := ⟨source⟩, destination := ⟨destination⟩,
             readOnly := option = utf8 "--ro-bind", device := option = utf8 "--dev-bind" }
    else none
  | _ => none

def RetainedMount.place (mount : RetainedMount) : BindPlace where
  index := mount.argumentIndex
  source := mount.source
  destination := mount.destination
  readOnly := mount.readOnly
  device := mount.device

/-- The binds among operations that start at a position. -/
def bindPlaces (start : Nat) (sequence : List Operation) : List BindPlace :=
  (indexed start sequence).filterMap bindPlace

/-- The mounts are the binds among the operations, in their order. -/
def Retains (mounts : List RetainedMount) (sequence : List Operation) : Prop :=
  mounts.map RetainedMount.place = bindPlaces 0 sequence

theorem indexed_append (start : Nat) (front back : List Operation) :
    indexed start (front ++ back) =
      indexed start front ++ indexed (start + front.flatten.length) back := by
  induction front generalizing start with
  | nil => simp [indexed]
  | cons first rest ih => simp [indexed, ih, Nat.add_assoc]

theorem bindPlaces_append (start : Nat) (front back : List Operation) :
    bindPlaces start (front ++ back) =
      bindPlaces start front ++ bindPlaces (start + front.flatten.length) back := by
  rw [bindPlaces, indexed_append, List.filterMap_append]
  rfl

theorem bindPlaces_cons (start : Nat) (first : Operation) (rest : List Operation) :
    bindPlaces start (first :: rest) =
      (bindPlace (start, first)).toList ++ bindPlaces (start + first.length) rest := by
  simp only [bindPlaces, indexed, List.filterMap_cons]
  cases bindPlace (start, first) <;> rfl

theorem bindPlace_eq_some (bound : bindPlace entry = some found) :
    found.index = entry.1 ∧ ∃ option, entry.2 =
      [option, .literal found.source.bytes, .literal found.destination.bytes] := by
  unfold bindPlace at bound
  split at bound
  · rename_i option source destination shape
    split at bound
    · cases bound
      exact ⟨rfl, _, shape⟩
    · cases bound
  · cases bound

theorem bindPlaces_within (member : found ∈ bindPlaces start sequence) :
    start ≤ found.index ∧ found.index + 3 ≤ start + sequence.flatten.length := by
  induction sequence generalizing start with
  | nil => cases member
  | cons first rest ih =>
    rw [bindPlaces_cons] at member
    simp only [List.flatten_cons, List.length_append]
    rcases List.mem_append.mp member with here | later
    · obtain ⟨index, option, shape⟩ := bindPlace_eq_some (Option.mem_toList.mp here)
      simp only at index shape
      rw [index, shape]
      simp
    · have bounds := ih later
      omega

/-- The binds of operations are in the order of their positions, apart from each other. -/
theorem bindPlaces_sorted (start : Nat) (sequence : List Operation) :
    (bindPlaces start sequence).Pairwise fun left right => left.index < right.index := by
  induction sequence generalizing start with
  | nil => exact .nil
  | cons first rest ih =>
    rw [bindPlaces_cons]
    refine List.pairwise_append.mpr ⟨?_, ih _, ?_⟩
    · cases bindPlace (start, first) <;> simp
    · intro here member later behind
      obtain ⟨index, option, shape⟩ := bindPlace_eq_some (Option.mem_toList.mp member)
      have bounds := (bindPlaces_within behind).1
      simp only at index shape
      rw [shape] at bounds
      simp at bounds
      omega

theorem retainOperation_place (retained : retainOperation openPath entry = .ok result) :
    result.map RetainedMount.place = bindPlace entry := by
  unfold retainOperation at retained
  split at retained
  · rename_i option source destination shape
    split at retained
    · rename_i known
      obtain ⟨opened, -, made⟩ := Except.bind_eq_ok.mp retained
      cases made
      simp [bindPlace, shape, known, RetainedMount.place]
    · rename_i unknown
      cases retained
      simp [bindPlace, shape, unknown]
  · rename_i other
    cases retained
    have unbound : bindPlace entry = none := by
      unfold bindPlace
      split
      · rename_i option source destination shape
        exact (other option source destination shape).elim
      · rfl
    rw [unbound]
    rfl

theorem mapM_places {entries : List (Nat × Operation)}
    (retained : entries.mapM (retainOperation openPath) = .ok results) :
    (results.filterMap id).map RetainedMount.place = entries.filterMap bindPlace := by
  induction entries generalizing results with
  | nil =>
    cases retained
    rfl
  | cons entry rest ih =>
    rw [List.mapM_cons] at retained
    obtain ⟨first, here, retained⟩ := Except.bind_eq_ok.mp retained
    obtain ⟨others, later, made⟩ := Except.bind_eq_ok.mp retained
    cases made
    rw [List.filterMap_cons, List.filterMap_cons, ← retainOperation_place here, ← ih later]
    cases first <;> rfl

theorem retain_places (read : operations arguments = .ok (indexed 0 sequence))
    (retained : retain openPath arguments = .ok mounts) : Retains mounts sequence := by
  obtain ⟨parsed, found, retained⟩ := Except.bind_eq_ok.mp retained
  cases read.symm.trans found
  obtain ⟨results, made, rest⟩ := Except.bind_eq_ok.mp retained
  cases rest
  exact mapM_places made

section Settling

variable {sequence : List Operation}

/-- What settling makes of an operation: a shared file becomes its path, or the same file put
from data, or stays where no place is named. -/
def settledOperation (fit : Option Bool) (operation : Operation) : Operation :=
  match operation, fit with
  | [option, .sharedFile _ path, target], some true => [option, .literal path.bytes, target]
  | [_, .sharedFile file _, target], some false => [text "--ro-bind-data", file.fromData, target]
  | operation, _ => operation

theorem settledOperation_unshared (unshared : operation.filterMap sharedFile = [])
    (fit : Option Bool) : settledOperation fit operation = operation := by
  unfold settledOperation
  split
  · simp [sharedFile] at unshared
  · simp [sharedFile] at unshared
  · rfl

theorem settledOperation_length (fit : Option Bool) (operation : Operation) :
    (settledOperation fit operation).length = operation.length := by
  unfold settledOperation
  split <;> rfl

theorem settledOperation_none (operation : Operation) : settledOperation none operation = operation := by
  unfold settledOperation
  split
  · contradiction
  · contradiction
  · rfl

theorem inPathForm_append (front back : List Argument) :
    inPathForm (front ++ back) = inPathForm front ++ inPathForm back :=
  List.map_append

theorem inPathForm_unshared (unshared : arguments.filterMap sharedFile = []) :
    inPathForm arguments = arguments := by
  induction arguments with
  | nil => rfl
  | cons first rest ih =>
    cases first with
    | sharedFile file path => simp [sharedFile] at unshared
    | _ => simpa [inPathForm] using ih (by simpa using unshared)

theorem inPathForm_operation (shape : SharedBound operation) :
    inPathForm operation = settledOperation (some true) operation := by
  rcases shape with unshared | ⟨file, path, target, rfl⟩
  · rw [settledOperation_unshared unshared, inPathForm_unshared unshared]
  · rfl

theorem inPathForm_flatten (shapes : ∀ operation ∈ sequence, SharedBound operation) :
    inPathForm sequence.flatten = (sequence.map (settledOperation (some true))).flatten := by
  induction sequence with
  | nil => rfl
  | cons first rest ih =>
    rw [List.flatten_cons, inPathForm_append, inPathForm_operation (shapes first List.mem_cons_self),
      ih fun operation member => shapes operation (List.mem_cons_of_mem first member)]
    rfl

/-- One step of the replacement by data. -/
def dataStep (result : List Argument) (argument : Argument) : List Argument :=
  match argument with
  | .sharedFile file _ => result.dropLast ++ [text "--ro-bind-data", file.fromData]
  | other => result ++ [other]

theorem inDataForm_eq (arguments : List Argument) : inDataForm arguments = arguments.foldl dataStep [] :=
  rfl

theorem dataStep_unshared (unshared : arguments.filterMap sharedFile = []) (result : List Argument) :
    arguments.foldl dataStep result = result ++ arguments := by
  induction arguments generalizing result with
  | nil => simp
  | cons first rest ih =>
    cases first with
    | sharedFile file path => simp [sharedFile] at unshared
    | _ => simp [dataStep, ih (by simpa using unshared)]

theorem dataStep_operation (shape : SharedBound operation) (result : List Argument) :
    operation.foldl dataStep result = result ++ settledOperation (some false) operation := by
  rcases shape with unshared | ⟨file, path, target, rfl⟩
  · rw [settledOperation_unshared unshared, dataStep_unshared unshared]
  · simp [dataStep, settledOperation, text]

theorem dataStep_flatten (shapes : ∀ operation ∈ sequence, SharedBound operation)
    (result : List Argument) :
    sequence.flatten.foldl dataStep result =
      result ++ (sequence.map (settledOperation (some false))).flatten := by
  induction sequence generalizing result with
  | nil => simp
  | cons first rest ih =>
    rw [List.flatten_cons, List.foldl_append, dataStep_operation (shapes first List.mem_cons_self),
      ih fun operation member => shapes operation (List.mem_cons_of_mem first member)]
    simp

/-- Settling edits each operation, and leaves what comes behind them. -/
theorem settle_flatten (putInPlace : Path → List SharedFile → Bool)
    (shapes : ∀ operation ∈ sequence, SharedBound operation)
    (unshared : rest.filterMap sharedFile = []) :
    settle putInPlace (sequence.flatten ++ rest) =
      (sequence.map (settledOperation (sharedFit putInPlace (sequence.flatten ++ rest)))).flatten ++
        rest := by
  rw [settle]
  split
  · rename_i unnamed
    rw [unnamed, List.map_congr_left fun operation _ => settledOperation_none operation, List.map_id']
  · rename_i fit
    rw [fit, inPathForm_append, inPathForm_flatten shapes, inPathForm_unshared unshared]
  · rename_i unfit
    rw [unfit, inDataForm_eq, List.foldl_append, dataStep_flatten shapes, dataStep_unshared unshared,
      List.nil_append]

theorem flatten_map_length {edit : Operation → Operation}
    (kept : ∀ operation, (edit operation).length = operation.length) (sequence : List Operation) :
    (sequence.map edit).flatten.length = sequence.flatten.length := by
  induction sequence with
  | nil => rfl
  | cons first rest ih => simp only [List.map_cons, List.flatten_cons, List.length_append, kept, ih]

theorem mem_indexed (member : (index, operation) ∈ indexed start sequence) :
    ∃ front back, sequence = front ++ operation :: back ∧ index = start + front.flatten.length := by
  induction sequence generalizing start with
  | nil => cases member
  | cons first rest ih =>
    rcases List.mem_cons.mp member with here | later
    · cases here
      exact ⟨[], rest, rfl, rfl⟩
    · obtain ⟨front, back, rfl, rfl⟩ := ih later
      exact ⟨first :: front, back, rfl, by simp [Nat.add_assoc]⟩

/-- An operation is read back at its position after an edit that keeps lengths. -/
theorem window_edited {edit : Operation → Operation}
    (kept : ∀ operation, (edit operation).length = operation.length)
    (member : (index, operation) ∈ indexed 0 sequence) :
    (((sequence.map edit).flatten ++ rest).drop index).take operation.length = edit operation := by
  obtain ⟨front, back, rfl, rfl⟩ := mem_indexed member
  have length := flatten_map_length kept front
  simp only [List.map_append, List.map_cons, List.flatten_append, List.flatten_cons,
    List.append_assoc, Nat.zero_add]
  rw [List.drop_left' length, List.take_left' (kept operation)]

end Settling

section SharedMounts

variable {sequence : List Operation}

theorem settledOperation_formed (shape : SharedBound operation) (formed : wellFormed operation = true)
    (fit : Option Bool) : wellFormed (settledOperation fit operation) = true := by
  rcases shape with unshared | ⟨file, path, target, rfl⟩
  · rwa [settledOperation_unshared unshared]
  · match fit with
    | none => exact formed
    | some true => exact wellFormed_two _ _ (by decide)
    | some false => exact wellFormed_two _ _ (by decide)

/-- What a shared file leaves to retain when it is settled. -/
def sharedPlace (fit : Option Bool) (entry : Nat × Operation) : Option BindPlace :=
  match entry.2 with
  | _ :: .sharedFile _ _ :: _ => bindPlace (entry.1, settledOperation fit entry.2)
  | _ => none

theorem bindPlace_moved (index : Nat) (operation : Operation) :
    bindPlace (index, operation) =
      (bindPlace (0, operation)).map fun found => { found with index := index } := by
  simp only [bindPlace]
  split
  · split <;> rfl
  · rfl

/-- A settled operation is bound as before, or its shared file is. -/
theorem bindPlace_settled (shape : SharedBound operation) (fit : Option Bool) (index : Nat) :
    (bindPlace (index, settledOperation fit operation)).toList =
      (bindPlace (index, operation)).toList ++ (sharedPlace fit (index, operation)).toList ∧
    (bindPlace (index, operation) = none ∨ sharedPlace fit (index, operation) = none) := by
  rcases shape with unshared | ⟨file, path, target, rfl⟩
  · have none : sharedPlace fit (index, operation) = none := by
      unfold sharedPlace
      split
      · rename_i shape
        simp only at shape
        rw [shape] at unshared
        simp [sharedFile, List.filterMap_cons] at unshared
        split at unshared <;> cases unshared
      · rfl
    rw [settledOperation_unshared unshared, none]
    exact ⟨by simp, .inr rfl⟩
  · exact ⟨rfl, .inl rfl⟩

theorem bindPlaces_settled (shapes : ∀ operation ∈ sequence, SharedBound operation)
    (fit : Option Bool) (start : Nat) :
    (bindPlaces start sequence ++ (indexed start sequence).filterMap (sharedPlace fit)).Perm
      (bindPlaces start (sequence.map (settledOperation fit))) := by
  induction sequence generalizing start with
  | nil => exact .nil
  | cons first later ih =>
    have tail := ih (fun operation member => shapes operation (List.mem_cons_of_mem first member))
      (start + first.length)
    have here := (bindPlace_settled (shapes first List.mem_cons_self) fit start).1
    rw [List.map_cons, bindPlaces_cons, bindPlaces_cons, settledOperation_length, here]
    have shared : (indexed start (first :: later)).filterMap (sharedPlace fit) =
        (sharedPlace fit (start, first)).toList ++
          (indexed (start + first.length) later).filterMap (sharedPlace fit) := by
      simp only [indexed, List.filterMap_cons]
      cases sharedPlace fit (start, first) <;> rfl
    rw [shared, List.append_assoc, List.append_assoc]
    exact ((List.perm_append_comm_assoc _ _ _).trans (tail.append_left _)).append_left _

theorem retainShared_places (formed : wellFormed operation = true) (shape : SharedBound operation)
    (window : (settled.drop index).take operation.length = settledOperation fit operation)
    (retained : retainShared openPath settled (index, operation) = .ok found) :
    found.map RetainedMount.place = (sharedPlace fit (index, operation)).toList := by
  unfold retainShared at retained
  rcases shape with unshared | ⟨file, path, target, rfl⟩
  · split at retained
    · rename_i shape
      simp only at shape
      rw [shape] at unshared
      simp [sharedFile, List.filterMap_cons] at unshared
      split at unshared <;> cases unshared
    · rename_i other
      cases retained
      unfold sharedPlace
      split
      · rename_i option file path more shape
        exact (other option file path more shape).elim
      · rfl
  · obtain ⟨mounts, made, rest⟩ := Except.bind_eq_ok.mp retained
    cases rest
    have formedNow := settledOperation_formed (.inr ⟨file, path, target, rfl⟩) formed fit
    have place : sharedPlace fit (index, [text "--ro-bind", .sharedFile file path, .literal target]) =
        bindPlace (index,
          settledOperation fit [text "--ro-bind", .sharedFile file path, .literal target]) := rfl
    rw [place]
    rw [show (settled.drop index).take 3 = _ from window] at made
    generalize settledOperation fit _ = operation at made formedNow
    have read : operations ([operation].flatten ++ []) = .ok (indexed 0 [operation]) :=
      operations_flatten (by simpa using formedNow) (.inl rfl)
    have places := retain_places (by simpa using read) made
    have moved : (mounts.map fun mount => { mount with argumentIndex := index }).map
        RetainedMount.place =
        (mounts.map RetainedMount.place).map fun found => { found with index := index } := by
      simp [RetainedMount.place]
    rw [moved, places, bindPlaces_cons, bindPlace_moved index]
    cases bindPlace (0, operation) <;> rfl

theorem mapM_sharedPlaces (fit : Option Bool) {entries : List (Nat × Operation)}
    (each : ∀ entry ∈ entries, ∀ found, retainShared openPath settled entry = .ok found →
      found.map RetainedMount.place = (sharedPlace fit entry).toList)
    (retained : entries.mapM (retainShared openPath settled) = .ok results) :
    results.flatten.map RetainedMount.place = entries.filterMap (sharedPlace fit) := by
  induction entries generalizing results with
  | nil =>
    cases retained
    rfl
  | cons entry later ih =>
    rw [List.mapM_cons] at retained
    obtain ⟨first, here, retained⟩ := Except.bind_eq_ok.mp retained
    obtain ⟨others, behind, made⟩ := Except.bind_eq_ok.mp retained
    cases made
    have tail := ih (fun entry member => each entry (List.mem_cons_of_mem _ member)) behind
    rw [List.flatten_cons, List.map_append, each entry List.mem_cons_self first here, tail,
      List.filterMap_cons]
    cases sharedPlace fit entry <;> rfl

theorem bindPlace_unique {places : List BindPlace}
    (sorted : places.Pairwise fun left right => left.index < right.index) (left : a ∈ places)
    (right : b ∈ places) (same : a.index = b.index) : a = b := by
  by_contra different
  obtain ⟨i, inLeft, rfl⟩ := List.getElem_of_mem left
  obtain ⟨j, inRight, rfl⟩ := List.getElem_of_mem right
  have pairs := List.pairwise_iff_getElem.mp sorted
  rcases Nat.lt_trichotomy i j with before | rfl | behind
  · have apart := pairs i j inLeft inRight before
    omega
  · exact different rfl
  · have apart := pairs j i inRight inLeft behind
    omega

/-- After the shared files are settled, the mounts are the binds of the settled operations. -/
theorem settleShared_retains (retains : Retains mounts sequence)
    (formed : ∀ operation ∈ sequence, wellFormed operation = true)
    (shapes : ∀ operation ∈ sequence, SharedBound operation) (tail : Tail rest)
    (unshared : rest.filterMap sharedFile = [])
    (settled : settleShared putInPlace openPath (sequence.flatten ++ rest) mounts = .ok result) :
    result.1 = (sequence.map (settledOperation
        (sharedFit putInPlace (sequence.flatten ++ rest)))).flatten ++ rest ∧
      Retains result.2 (sequence.map (settledOperation
        (sharedFit putInPlace (sequence.flatten ++ rest)))) := by
  generalize known : sharedFit putInPlace (sequence.flatten ++ rest) = fit
  have arguments := settle_flatten putInPlace shapes unshared
  rw [known] at arguments
  obtain ⟨parsed, read, settled⟩ := Except.bind_eq_ok.mp settled
  cases (operations_flatten formed tail).symm.trans read
  obtain ⟨results, retained, made⟩ := Except.bind_eq_ok.mp settled
  cases made
  refine ⟨arguments, ?_⟩
  have places := mapM_sharedPlaces fit (fun entry member found here => by
    obtain ⟨front, back, split, -⟩ := mem_indexed member
    have listed : entry.2 ∈ sequence := by simp [split]
    refine retainShared_places (formed _ listed) (shapes _ listed) ?_ here
    rw [arguments]
    exact window_edited (settledOperation_length fit) member) retained
  have permuted := (List.perm_insertionSort
    (fun left right : RetainedMount => left.argumentIndex ≤ right.argumentIndex)
    (mounts ++ results.flatten)).map RetainedMount.place
  rw [List.map_append, places, show mounts.map RetainedMount.place = _ from retains] at permuted
  have whole := permuted.trans (bindPlaces_settled shapes fit 0)
  have strictly := bindPlaces_sorted 0 (sequence.map (settledOperation fit))
  refine whole.eq_of_pairwise ?_ ?_ (strictly.imp fun less => Nat.le_of_lt less)
  · intro a b left right lower upper
    exact bindPlace_unique strictly (whole.mem_iff.mp left) right (Nat.le_antisymm lower upper)
  · have total : Std.Total fun left right : RetainedMount =>
        left.argumentIndex ≤ right.argumentIndex := ⟨fun _ _ => Nat.le_total _ _⟩
    have transitive : IsTrans RetainedMount fun left right =>
        left.argumentIndex ≤ right.argumentIndex := ⟨fun _ _ _ => Nat.le_trans⟩
    exact List.pairwise_map.mpr (List.pairwise_insertionSort _ _)

end SharedMounts

end Kakoi.HelperPlacement
