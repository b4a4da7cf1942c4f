import Kakoi.Base.BoundedQueue
import Kakoi.Linux.BwrapArguments
import Kakoi.Linux.CopyFacts

/-! An `rw-copy` directory is copied whole or not at all, and the operations its entries become
build the tree again. -/

namespace Kakoi.CopyFacts

abbrev HostNode := HostDirectory ⊕ HostLeaf

/-- Nothing on the way to a node's content fails. -/
def Readable : HostNode → Prop
  | .inl found => found.unlisted = none
  | .inr (.file _ _ failure) => failure = none
  | .inr (.symlink _ failure) => failure = none
  | .inr (.special _) => True
  | .inr (.unknown _) => False

/-- The bytes of file content a node takes. -/
def size : HostNode → Nat
  | .inr (.file _ content _) => content.length
  | _ => 0

/-- The entry a node is copied as. -/
def copied : List Name × HostNode → Option CopiedEntry
  | (names, .inl found) => some (.directory (Path.below names) (modeOf found.mode))
  | (names, .inr (.file mode content _)) =>
    some (.file (Path.below names) (modeOf mode) (.bytes content))
  | (names, .inr (.symlink target _)) => some (.symlink (Path.below names) target)
  | (_, .inr (.special _)) | (_, .inr (.unknown _)) => none

/-- What a node is reported as, when it is left out. -/
def omitted (item : ResolvedItem) (base : List Name) : List Name × HostNode → Option NotCopied
  | (names, .inr (.special _)) => some (leftOut item (Path.ofNames (base ++ names)))
  | _ => none

/-- One node of the tree as the reading takes it, by the names that lead to it. -/
def visit (item : ResolvedItem) (base : List Name) (reading : Reading)
    (node : List Name × HostNode) : Except Diagnostic Reading :=
  match node.2 with
  | .inr leaf => readLeaf item (Path.ofNames (base ++ node.1)) (Path.below node.1) leaf reading
  | .inl found => do
    let reading ← reading.takeEntry item
    attempt item (Path.ofNames (base ++ node.1)) found.unlisted
    return reading.push (.directory (Path.below node.1) (modeOf found.mode))

section Reading

variable {reading result : Reading}

/-- The recursive reading takes the nodes in preorder. -/
theorem readEntries_eq {place : List Name} (plainBase : ∀ name ∈ base, Plain name)
    (plainPlace : ∀ name ∈ place, Plain name) (named : tree.AllNamed Plain) (reading : Reading) :
    readEntries item (Path.ofNames (base ++ place)) (Path.below place) tree reading =
      (tree.preorder place).foldlM (visit item base) reading := by
  have plainAll : ∀ {place : List Name}, (∀ name ∈ place, Plain name) →
      ∀ name ∈ base ++ place, Plain name := by
    intro place plain name member
    rcases List.mem_append.mp member with above | inside
    · exact plainBase name above
    · exact plain name inside
  induction tree generalizing place reading with
  | nil => rfl
  | leaf name leaf rest ih =>
    rw [readEntries, Path.join_ofNames (plainAll plainPlace) named.1,
      Path.join_below plainPlace named.1, List.append_assoc, Forest.preorder, List.foldlM_cons]
    exact bind_congr fun reading => ih plainPlace named.2 reading
  | branch name found children rest ihChildren ih =>
    have plainInside : ∀ other ∈ place ++ [name], Plain other := by
      intro other member
      rcases mem_concat.mp member with above | last
      · exact plainPlace other above
      · rw [last]
        exact named.1
    rw [readEntries, Path.join_ofNames (plainAll plainPlace) named.1,
      Path.join_below plainPlace named.1, List.append_assoc, Forest.preorder, List.foldlM_cons]
    simp only [visit, List.foldlM_append, bind_assoc, pure_bind]
    refine bind_congr fun reading => bind_congr fun _ => ?_
    rw [ihChildren plainInside named.2.1]
    exact bind_congr fun reading => ih plainPlace named.2.2 reading

/-- What the reading has come to behind one node. -/
def extended (item : ResolvedItem) (base : List Name) (reading : Reading)
    (node : List Name × HostNode) : Reading where
  budget := ⟨reading.budget.entries - 1, reading.budget.bytes - size node.2⟩
  entries := reading.entries ++ (copied node).toList
  notCopied := reading.notCopied ++ (omitted item base node).toList

theorem takeEntry_ok : reading.takeEntry item = .ok result ↔ 1 ≤ reading.budget.entries ∧
    result = { reading with budget := { reading.budget with
      entries := reading.budget.entries - 1 } } := by
  unfold Reading.takeEntry Budget.takeEntry
  by_cases empty : reading.budget.entries = 0
  · simp [empty, bind, Except.bind]
  · simp [empty, bind, Except.bind, pure, Except.pure, eq_comm, Nat.one_le_iff_ne_zero]

theorem attempt_ok {failure : Option IoFailure} {nothing : Unit} :
    attempt item path failure = .ok nothing ↔ failure = none := by
  cases failure with
  | none => simp [attempt]
  | some failure => simp [attempt]

theorem readFile_ok {budget : Budget} {failure : Option IoFailure}
    {outcome : Nat × FileContent × Budget} :
    readFile item path (.file mode content failure) budget = .ok outcome ↔
      failure = none ∧ content.length ≤ budget.bytes ∧
        outcome = (modeOf mode, .bytes content,
          { budget with bytes := budget.bytes - content.length }) := by
  rw [readFile, Except.check_eq_ok, attempt_ok]
  refine and_congr_right fun _ => ?_
  by_cases fits : content.length ≤ budget.bytes
  · have whole : content.take (budget.bytes + 1) = content := List.take_of_length_le (by omega)
    simp [whole, Budget.spend, fits, Nat.not_lt.mpr fits, bind, Except.bind, pure, Except.pure,
      eq_comm]
  · have cut : (content.take (budget.bytes + 1)).length = budget.bytes + 1 := by
      rw [List.length_take]
      omega
    simp [cut, Budget.spend, fits, bind, Except.bind]

theorem visit_ok {node : List Name × HostNode} : visit item base reading node = .ok result ↔
    Readable node.2 ∧ 1 ≤ reading.budget.entries ∧ size node.2 ≤ reading.budget.bytes ∧
      result = extended item base reading node := by
  obtain ⟨names, value⟩ := node
  rcases value with found | leaf
  · simp only [visit, Except.bind_eq_ok, takeEntry_ok, attempt_ok, Readable, size, pure,
      Except.pure, Except.ok.injEq]
    constructor
    · rintro ⟨_, ⟨left, rfl⟩, _, listed, rfl⟩
      exact ⟨listed, left, by omega, by simp [extended, copied, omitted, size, Reading.push]⟩
    · rintro ⟨listed, left, -, rfl⟩
      exact ⟨_, ⟨left, rfl⟩, (), listed, by simp [extended, copied, omitted, size, Reading.push]⟩
  · cases leaf with
    | unknown reason => simp [visit, readLeaf, Readable]
    | symlink target reason =>
      simp only [visit, readLeaf, Except.bind_eq_ok, takeEntry_ok, attempt_ok, Readable, size, pure,
        Except.pure, Except.ok.injEq]
      constructor
      · rintro ⟨_, ⟨left, rfl⟩, _, found, rfl⟩
        exact ⟨found, left, by omega, by simp [extended, copied, omitted, size, Reading.push]⟩
      · rintro ⟨found, left, -, rfl⟩
        exact ⟨_, ⟨left, rfl⟩, (), found, by simp [extended, copied, omitted, size, Reading.push]⟩
    | special opening =>
      simp only [visit, readLeaf, Except.bind_eq_ok, takeEntry_ok, Readable, size, pure,
        Except.pure, Except.ok.injEq]
      constructor
      · rintro ⟨_, ⟨left, rfl⟩, rfl⟩
        exact ⟨trivial, left, by omega, by simp [extended, copied, omitted, size]⟩
      · rintro ⟨-, left, -, rfl⟩
        exact ⟨_, ⟨left, rfl⟩, by simp [extended, copied, omitted, size]⟩
    | file mode content reason =>
      simp only [visit, readLeaf, Except.bind_eq_ok, takeEntry_ok, readFile_ok, Readable, size,
        pure, Except.pure, Except.ok.injEq]
      constructor
      · rintro ⟨_, ⟨left, rfl⟩, _, ⟨found, fits, rfl⟩, rfl⟩
        exact ⟨found, left, fits, by simp [extended, copied, omitted, size, Reading.push]⟩
      · rintro ⟨found, left, fits, rfl⟩
        exact ⟨_, ⟨left, rfl⟩, _, ⟨found, fits, rfl⟩,
          by simp [extended, copied, omitted, size, Reading.push]⟩

/-- What the reading has come to behind some nodes. -/
def gathered (item : ResolvedItem) (base : List Name) (reading : Reading)
    (nodes : List (List Name × HostNode)) : Reading where
  budget := ⟨reading.budget.entries - nodes.length,
    reading.budget.bytes - weigh (fun node => size node.2) nodes⟩
  entries := reading.entries ++ nodes.filterMap copied
  notCopied := reading.notCopied ++ nodes.filterMap (omitted item base)

theorem visits_ok :
    nodes.foldlM (visit item base) reading = .ok result ↔
      (∀ node ∈ nodes, Readable node.2) ∧ nodes.length ≤ reading.budget.entries ∧
      weigh (fun node => size node.2) nodes ≤ reading.budget.bytes ∧
      result = gathered item base reading nodes := by
  induction nodes generalizing reading with
  | nil => simp [gathered, pure, Except.pure, eq_comm]
  | cons first nodes ih =>
    rw [List.foldlM_cons, Except.bind_eq_ok]
    have onward : gathered item base (extended item base reading first) nodes =
        gathered item base reading (first :: nodes) := by
      have listed : ∀ {γ : Type} (entry : List Name × HostNode → Option γ),
          (entry first).toList ++ nodes.filterMap entry = (first :: nodes).filterMap entry := by
        intro γ entry
        cases shape : entry first with
        | none => simp [shape]
        | some value => simp [shape]
      simp only [gathered, extended, List.append_assoc, Nat.sub_sub, List.length_cons,
        weigh_cons, Nat.add_comm 1]
      rw [listed copied, listed (omitted item base)]
    constructor
    · rintro ⟨middle, visited, rest⟩
      obtain ⟨readable, left, fits, rfl⟩ := visit_ok.mp visited
      obtain ⟨others, count, bytes, rfl⟩ := ih.mp rest
      refine ⟨List.forall_mem_cons.mpr ⟨readable, others⟩, ?_, ?_, onward⟩
      · simp only [extended] at count
        simp only [List.length_cons]
        omega
      · simp only [extended] at bytes
        rw [weigh_cons]
        omega
    · rintro ⟨readable, count, bytes, rfl⟩
      obtain ⟨first', others⟩ := List.forall_mem_cons.mp readable
      simp only [List.length_cons] at count
      rw [weigh_cons] at bytes
      refine ⟨_, visit_ok.mpr ⟨first', by omega, by omega, rfl⟩, ih.mpr ⟨others, ?_, ?_, onward.symm⟩⟩
      · simp only [extended]
        omega
      · simp only [extended]
        omega

/-- Reading one directory item: it succeeds exactly when all of it can be read and is within
the limits, and yields its nodes in order. -/
theorem readCopySources_ok {host : Path → HostEntry} {found : HostDirectory}
    (copies : item.directive = .rwCopy) (kind : item.kind = .directory)
    (real : item.real = Path.ofNames base) (plainBase : ∀ name ∈ base, Plain name)
    (there : host item.real = .directory unstated found tree) (named : tree.AllNamed Plain) :
    readCopySources host [item] = .ok collected ↔
      unstated = none ∧ found.unlisted = none ∧
      (∀ node ∈ (tree.inOrder nameLe).preorder [], Readable node.2) ∧
      ((tree.inOrder nameLe).preorder []).length ≤ entryLimit ∧
      weigh (fun node => size node.2) ((tree.inOrder nameLe).preorder []) ≤ byteLimit ∧
      collected = ⟨PathMap.empty.insert item.real (.directory (modeOf found.mode)
          (((tree.inOrder nameLe).preorder []).filterMap copied)),
        ((tree.inOrder nameLe).preorder []).filterMap (omitted item base)⟩ := by
  have inOrder : (tree.inOrder nameLe).AllNamed Plain := Forest.allNamed_inOrder named
  have entries : ∀ reading, readEntries item item.real ⟨[]⟩ (tree.inOrder nameLe) reading =
      ((tree.inOrder nameLe).preorder []).foldlM (visit item base) reading := by
    intro reading
    have whole : readEntries item (Path.ofNames (base ++ [])) (Path.below [])
        (tree.inOrder nameLe) reading = _ :=
      readEntries_eq plainBase (List.forall_mem_nil _) inOrder reading
    rwa [List.append_nil, ← real] at whole
  have single : readCopySources host [item] = readCopySource host {} item := bind_pure _
  rw [single]
  simp only [readCopySource, copies, kind, there, readDirectory, entries, ne_eq,
    not_true_eq_false, ↓reduceIte, Except.bind_eq_ok, attempt_ok, visits_ok, pure, Except.pure,
    Except.ok.injEq]
  constructor
  · rintro ⟨_, stated, _, ⟨_, listed, readable, count, bytes, rfl⟩, rfl⟩
    exact ⟨stated, listed, readable, count, bytes, rfl⟩
  · rintro ⟨stated, listed, readable, count, bytes, rfl⟩
    exact ⟨(), stated, _, ⟨(), listed, readable, count, bytes, rfl⟩, rfl⟩

end Reading

section Replay

open BwrapArguments

/-- What the isolation has at a place. -/
inductive SandboxNode where
  | directory (mode : Nat)
  | file (mode : Nat) (content : FileContent)
  | symlink (target : Name)

def SandboxNode.isDirectory : SandboxNode → Bool
  | .directory _ => true
  | _ => false

/-- The root file system that bwrap puts together, and the mode the next operation gives. -/
structure Sandbox where
  nodes : List Name → Option SandboxNode
  perms : Option Nat := none

namespace Sandbox

def emptyRoot : Sandbox where
  nodes place := if place = [] then some (.directory 0o755) else none

/-- A number in octal digits. -/
def readOctal (text : Name) : Nat := text.foldl (fun value digit => 8 * value + (digit.toNat - 48)) 0

/-- The names of a path, as the kernel takes it apart. -/
def placeOf (bytes : Name) : List Name := (Path.mk bytes).pieces.filter (· ≠ [])

/-- A new, empty file system at a place; the directories on the way are made when they are
missing. -/
def mount (sandbox : Sandbox) (place : List Name) : Sandbox where
  nodes other :=
    if other = place then some (.directory (sandbox.perms.getD 0o755))
    else if place <+: other then none
    else if other <+: place then (sandbox.nodes other).or (some (.directory 0o755))
    else sandbox.nodes other

/-- A new node inside a directory that is there. -/
def make (sandbox : Sandbox) (place : List Name) (node : SandboxNode) : Option Sandbox :=
  (create SandboxNode.isDirectory sandbox.nodes (place, node)).map fun nodes => { nodes }

/-- One operation of those that copies consist of. -/
def execute (sandbox : Sandbox) : Operation → Option Sandbox
  | [.literal option, .literal argument] =>
    if option = utf8 "--perms" then some { sandbox with perms := some (readOctal argument) }
    else if option = utf8 "--tmpfs" then some (sandbox.mount (placeOf argument))
    else if option = utf8 "--dir" then
      sandbox.make (placeOf argument) (.directory (sandbox.perms.getD 0o755))
    else none
  | [.literal option, .copiedFile content, .literal destination] =>
    if option = utf8 "--file" then
      sandbox.make (placeOf destination) (.file (sandbox.perms.getD 0o666) content)
    else none
  | [.literal option, .literal target, .literal destination] =>
    if option = utf8 "--symlink" then sandbox.make (placeOf destination) (.symlink target)
    else none
  | _ => none

def run (sandbox : Sandbox) (operations : List Operation) : Option Sandbox :=
  operations.foldlM execute sandbox

end Sandbox

open Sandbox

/-- What a copied node is in the isolation. -/
def nodeOf : HostNode → Option SandboxNode
  | .inl found => some (.directory (modeOf found.mode))
  | .inr (.file mode content _) => some (.file (modeOf mode) (.bytes content))
  | .inr (.symlink target _) => some (.symlink target.bytes)
  | .inr (.special _) | .inr (.unknown _) => none

theorem utf8_digits (digits : ∀ character ∈ characters, character.isDigit = true) :
    utf8 (String.ofList characters) =
      characters.map fun character => UInt8.ofNat character.toNat := by
  unfold utf8
  rw [String.toList_ofList, List.map_eq_flatMap]
  refine List.flatMap_congr fun character member => ?_
  have small : character.toNat ≤ '9'.toNat :=
    (Char.isDigit_iff_toNat.mp (digits character member)).2
  exact if_pos (small.trans (by decide))

theorem ofDigitChars_padded (count : Nat) (characters : List Char) :
    Nat.ofDigitChars 8 (List.replicate count '0' ++ characters) 0 =
      Nat.ofDigitChars 8 characters 0 := by
  induction count with
  | zero => rfl
  | succ count ih => rwa [List.replicate_succ, List.cons_append, Nat.ofDigitChars_cons]

theorem readOctal_octal (mode : Nat) : readOctal (utf8 (octal mode)) = mode := by
  have digits : ∀ character ∈ List.replicate (4 - (Nat.toDigits 8 mode).length) '0' ++
      Nat.toDigits 8 mode, character.isDigit = true := by
    intro character member
    rcases List.mem_append.mp member with padding | digit
    · rw [(List.mem_replicate.mp padding).2]
      rfl
    · exact Nat.isDigit_of_mem_toDigits (by omega) (by omega) digit
  unfold octal
  dsimp only
  rw [utf8_digits digits, readOctal, List.foldl_map]
  calc _ = Nat.ofDigitChars 8 _ 0 := by
        refine List.foldl_ext _ _ _ fun value character member => ?_
        have small : character.toNat ≤ '9'.toNat :=
          (Char.isDigit_iff_toNat.mp (digits character member)).2
        rw [UInt8.toNat_ofNat', Nat.mod_eq_of_lt (lt_of_le_of_lt small (by decide))]
        rfl
    _ = Nat.ofDigitChars 8 (Nat.toDigits 8 mode) 0 := ofDigitChars_padded _ _
    _ = mode := Nat.ofDigitChars_toDigits (by omega) (by omega)

theorem placeOf_ofNames (plain : ∀ name ∈ names, Plain name) :
    placeOf (Path.ofNames names).bytes = names := by
  by_cases empty : names = []
  · subst empty
    decide
  · unfold placeOf
    have pieces : (Path.mk (Path.ofNames names).bytes).pieces = [] :: names :=
      Path.pieces_ofNames plain empty
    rw [pieces, List.filter_cons_of_neg (by simp), List.filter_eq_self]
    exact fun name member => by simpa using (plain name member).nonempty

theorem run_entry {node : List Name × HostNode} {sandbox : Sandbox}
    (real : item.real = Path.ofNames base) (plainBase : ∀ name ∈ base, Plain name)
    (plain : ∀ name ∈ node.1, Plain name) (some : node.1 ≠ []) (entry : copied node = .some copy) :
    sandbox.run (entryOperations item copy) =
      (nodeOf node.2).bind (sandbox.make (base ++ node.1)) := by
  obtain ⟨names, value⟩ := node
  have destination : placeOf (item.real.join (Path.below names)).bytes = base ++ names := by
    rw [real, Path.ofNames_join_below plainBase plain some, placeOf_ofNames]
    intro name member
    rcases List.mem_append.mp member with above | inside
    · exact plainBase name above
    · exact plain name inside
  have permitted : ∀ mode, sandbox.execute (permissions (octal mode)) =
      .some { sandbox with perms := .some mode } := by
    intro mode
    simp [permissions, text, execute, readOctal_octal]
  rcases value with found | leaf
  · cases entry
    simp only [Sandbox.run, entryOperations, List.foldlM_cons, permitted, List.foldlM_nil, bind_pure,
      Option.bind_eq_bind, Option.bind_some, CopiedEntry.relative, nodeOf]
    have other : utf8 "--dir" ≠ utf8 "--perms" ∧ utf8 "--dir" ≠ utf8 "--tmpfs" := by decide
    simp [execute, text, place, other, destination, make]
  · cases leaf with
    | unknown failure => cases entry
    | special opening => cases entry
    | symlink target failure =>
      cases entry
      simp only [Sandbox.run, entryOperations, List.foldlM_cons, List.foldlM_nil, bind_pure,
        Option.bind_some, CopiedEntry.relative, nodeOf]
      simp [execute, text, place, destination]
    | file mode content failure =>
      cases entry
      simp only [Sandbox.run, entryOperations, List.foldlM_cons, permitted, List.foldlM_nil, bind_pure,
        Option.bind_eq_bind, Option.bind_some, CopiedEntry.relative, nodeOf]
      simp [execute, text, place, destination, make]

/-- The node a copied node is made as, at its place. -/
def creation (base : List Name) (node : List Name × HostNode) :
    Option (List Name × SandboxNode) :=
  (nodeOf node.2).map fun made => (base ++ node.1, made)

theorem nodeOf_isSome (node : List Name × HostNode) :
    (nodeOf node.2).isSome = (copied node).isSome := by
  obtain ⟨names, found | leaf⟩ := node
  · rfl
  · cases leaf <;> rfl

theorem run_entries {nodes : List (List Name × HostNode)} {sandbox : Sandbox}
    (real : item.real = Path.ofNames base) (plainBase : ∀ name ∈ base, Plain name)
    (plain : ∀ node ∈ nodes, ∀ name ∈ node.1, Plain name)
    (below : ∀ node ∈ nodes, node.1 ≠ []) (unset : sandbox.perms = none) :
    sandbox.run ((nodes.filterMap copied).flatMap (entryOperations item)) =
    (build SandboxNode.isDirectory sandbox.nodes (nodes.filterMap (creation base))).map
      fun nodes => { nodes } := by
  induction nodes generalizing sandbox with
  | nil =>
    obtain ⟨nodes, perms⟩ := sandbox
    cases unset
    rfl
  | cons first nodes ih =>
    obtain ⟨plainFirst, plainRest⟩ := List.forall_mem_cons.mp plain
    obtain ⟨belowFirst, belowRest⟩ := List.forall_mem_cons.mp below
    cases shape : copied first with
    | none =>
      have unmade : creation base first = none := by
        have none := nodeOf_isSome first
        rw [shape, Option.isSome_none, Option.isSome_eq_false_iff, Option.isNone_iff_eq_none] at none
        rw [creation, none, Option.map_none]
      rw [List.filterMap_cons_none shape, List.filterMap_cons_none unmade]
      exact ih plainRest belowRest unset
    | some copy =>
      obtain ⟨made, value, node⟩ : ∃ made, nodeOf first.2 = some made ∧
          creation base first = some (base ++ first.1, made) := by
        obtain ⟨made, value⟩ := Option.isSome_iff_exists.mp
          ((nodeOf_isSome first).trans (by rw [shape]; rfl))
        exact ⟨made, value, by rw [creation, value, Option.map_some]⟩
      have step : sandbox.run (entryOperations item copy) = _ :=
        run_entry real plainBase plainFirst belowFirst shape
      rw [value, Option.bind_some] at step
      rw [List.filterMap_cons_some shape, List.flatMap_cons, Sandbox.run, List.foldlM_append]
      rw [Sandbox.run] at step
      rw [step, List.filterMap_cons_some node, build, List.foldlM_cons, make]
      cases create SandboxNode.isDirectory sandbox.nodes (base ++ first.1, made) with
      | none => rfl
      | some nodes => exact ih plainRest belowRest rfl

theorem mem_creation {nodes : List (List Name × HostNode)} :
    made ∈ nodes.filterMap (creation base) ↔
      ∃ node ∈ nodes, made.1 = base ++ node.1 ∧ nodeOf node.2 = some made.2 := by
  simp only [List.mem_filterMap, creation, Option.map_eq_some_iff]
  constructor
  · rintro ⟨node, present, value, kind, rfl⟩
    exact ⟨node, present, rfl, kind⟩
  · rintro ⟨node, present, place, kind⟩
    exact ⟨node, present, made.2, kind, by rw [← place]⟩

theorem creation_parents {tree : HostTree} (below : ∀ node ∈ tree.preorder [], node.1 ≠ [])
    (before : List (List Name × SandboxNode)) (entry : List Name × SandboxNode)
    (after : List (List Name × SandboxNode))
    (split : (tree.preorder []).filterMap (creation base) = before ++ entry :: after) :
    entry.1.dropLast = base ∨
      ∃ parent ∈ before, parent.1 = entry.1.dropLast ∧ parent.2.isDirectory = true := by
  obtain ⟨front, back, whole, rfl, rest⟩ := List.filterMap_eq_append_iff.mp split
  obtain ⟨skipped, node, others, rfl, unmade, made, -⟩ := List.filterMap_eq_cons_iff.mp rest
  have place : entry.1 = base ++ node.1 := by
    obtain ⟨value, -, rfl⟩ := Option.map_eq_some_iff.mp made
    rfl
  have some : node.1 ≠ [] := below node (by rw [whole]; simp)
  rw [place, List.dropLast_append_of_ne_nil some]
  rw [← List.append_assoc] at whole
  rcases Forest.preorder_parent whole with same | ⟨found, member⟩
  · exact .inl (by rw [same, List.append_nil])
  · refine .inr ⟨(base ++ node.1.dropLast, .directory (modeOf found.mode)), ?_, rfl, rfl⟩
    rcases List.mem_append.mp member with early | late
    · exact mem_creation.mpr ⟨_, early, rfl, rfl⟩
    · cases unmade _ late

theorem creation_distinct {tree : HostTree} (distinct : tree.Distinct) :
    (((tree.preorder []).filterMap (creation base)).map Prod.fst).Nodup := by
  rw [List.Nodup, List.pairwise_map, List.pairwise_filterMap]
  refine (Forest.preorder_pairwise distinct).imp fun {left right} apart first made next also same =>
    apart ?_
  obtain ⟨_, -, rfl⟩ := Option.map_eq_some_iff.mp made
  obtain ⟨_, -, rfl⟩ := Option.map_eq_some_iff.mp also
  rw [List.append_cancel_left same]

/-- The operations of a copied directory, from an empty root on: the directory, and below it
just the nodes that are copied. -/
theorem run_copy {tree : HostTree} {mode : Nat} (real : item.real = Path.ofNames base)
    (plainBase : ∀ name ∈ base, Plain name) (named : tree.AllNamed Plain)
    (distinct : tree.Distinct) :
    ∃ sandbox, emptyRoot.run (copyOperations item (some (.directory mode
        ((tree.preorder []).filterMap copied)))) = some sandbox ∧
      sandbox.nodes base = some (.directory mode) ∧
      ∀ names node, names ≠ [] → (sandbox.nodes (base ++ names) = some node ↔
        ∃ value, (names, value) ∈ tree.preorder [] ∧ nodeOf value = some node) := by
  have plain := Forest.preorder_named named (List.forall_mem_nil _)
  have below : ∀ node ∈ tree.preorder [], node.1 ≠ [] := by
    intro node member
    obtain ⟨name, -, deeper, same⟩ := Forest.mem_preorder member
    simp [same]
  have mounted : emptyRoot.run (copyOperations item (some (.directory mode
      ((tree.preorder []).filterMap copied)))) =
      ((Sandbox.mk emptyRoot.nodes (some mode)).mount base).run
        (((tree.preorder []).filterMap copied).flatMap (entryOperations item)) := by
    have other : utf8 "--tmpfs" ≠ utf8 "--perms" := by decide
    simp only [copyOperations, Sandbox.run, List.foldlM_append, List.foldlM_cons, List.foldlM_nil]
    simp [permissions, tmpfs, text, place, execute, readOctal_octal, other, real,
      placeOf_ofNames plainBase]
  rw [mounted, run_entries real plainBase plain below rfl]
  have top : ((Sandbox.mk emptyRoot.nodes (some mode)).mount base).nodes base =
      some (.directory mode) := by
    simp [mount]
  have empty : ∀ names, names ≠ [] →
      ((Sandbox.mk emptyRoot.nodes (some mode)).mount base).nodes (base ++ names) = none := by
    intro names some
    simp [mount, some]
  have branch : (((Sandbox.mk emptyRoot.nodes (some mode)).mount base).nodes base).any
      SandboxNode.isDirectory = true := by
    rw [top]
    rfl
  have unused : ∀ entry ∈ (tree.preorder []).filterMap (creation base),
      ((Sandbox.mk emptyRoot.nodes (some mode)).mount base).nodes entry.1 = none := by
    intro entry member
    obtain ⟨node, present, place, -⟩ := mem_creation.mp member
    rw [place]
    exact empty node.1 (below node present)
  obtain ⟨built, made, holds⟩ :=
    build_some branch (creation_parents below) (creation_distinct distinct) unused
  refine ⟨⟨built, none⟩, by rw [made]; rfl, (holds base _).mpr (.inr top),
    fun names node some => (holds (base ++ names) node).trans ?_⟩
  rw [empty names some, mem_creation]
  constructor
  · rintro (⟨⟨others, value⟩, present, same, kind⟩ | impossible)
    · rw [List.append_right_inj] at same
      exact ⟨value, same ▸ present, kind⟩
    · cases impossible
  · rintro ⟨value, present, kind⟩
    exact .inl ⟨(names, value), present, rfl, kind⟩

end Replay

section Whole

open BwrapArguments Sandbox

variable
  {tree : HostTree}

theorem copied_relative (entry : copied node = some copy) : copy.relative = Path.below node.1 := by
  obtain ⟨names, directory | leaf⟩ := node
  · cases entry
    rfl
  · cases leaf <;> cases entry <;> rfl

/-- No entry comes before a directory it is under. -/
theorem copied_in_order (named : tree.AllNamed Plain) (distinct : tree.Distinct) :
    ((tree.preorder []).filterMap copied).Pairwise fun earlier later =>
      earlier.relative.startsWith later.relative = false := by
  have plain := Forest.preorder_named named (List.forall_mem_nil _)
  rw [List.pairwise_filterMap]
  refine (Forest.preorder_pairwise distinct).imp_of_mem ?_
  intro left right memberLeft memberRight apart earlier entry later next
  rw [Bool.eq_false_iff, ne_eq, Path.startsWith_iff, copied_relative entry, copied_relative next,
    Path.components_below (plain left memberLeft), Path.components_below (plain right memberRight),
    List.prefix_map_iff_of_injective Path.normal_injective]
  exact apart

theorem mem_omitted {nodes : List (List Name × HostNode)} {note : NotCopied} :
    note ∈ nodes.filterMap (omitted item base) ↔ ∃ names opening,
      (names, .inr (.special opening)) ∈ nodes ∧
        note = leftOut item (Path.ofNames (base ++ names)) := by
  rw [List.mem_filterMap]
  constructor
  · rintro ⟨⟨names, directory | leaf⟩, member, entry⟩
    · cases entry
    · cases leaf <;> cases entry
      exact ⟨names, _, member, rfl⟩
  · rintro ⟨names, opening, member, rfl⟩
    exact ⟨_, member, rfl⟩

/-- A copied directory is read whole, unless some of it cannot be read or it is over the
limits, and its operations build it again. -/
theorem rw_copy_reproduces (copies : item.directive = .rwCopy) (kind : item.kind = .directory)
    (real : item.real = Path.ofNames base) (plainBase : ∀ name ∈ base, Plain name)
    (there : host item.real = .directory unstated found tree) (named : tree.AllNamed Plain)
    (distinct : tree.Distinct) :
    ((∃ collected, readCopySources host [item] = .ok collected) ↔
      (unstated = none ∧ found.unlisted = none ∧ ∀ node ∈ tree.preorder [], Readable node.2) ∧
      (tree.preorder []).length ≤ entryLimit ∧
      weigh (fun node => size node.2) (tree.preorder []) ≤ byteLimit) ∧
    ∀ collected, readCopySources host [item] = .ok collected →
      (∃ entries, collected.sources item.real =
          some (.directory (modeOf found.mode) entries) ∧
        entries.Pairwise fun earlier later =>
          earlier.relative.startsWith later.relative = false) ∧
      (∃ sandbox, emptyRoot.run (copyOperations item (collected.sources item.real)) =
          some sandbox ∧
        sandbox.nodes base = some (.directory (modeOf found.mode)) ∧
        ∀ names node, names ≠ [] → (sandbox.nodes (base ++ names) = some node ↔
          ∃ value, (names, value) ∈ tree.preorder [] ∧ nodeOf value = some node)) ∧
      ∀ note, note ∈ collected.notCopied ↔ ∃ names opening,
        (names, .inr (.special opening)) ∈ tree.preorder [] ∧
          note = leftOut item (Path.ofNames (base ++ names)) := by
  have sorted : ((tree.inOrder nameLe).preorder []).Perm (tree.preorder []) :=
    Forest.preorder_inOrder []
  have ok : ∀ collected, readCopySources host [item] = .ok collected ↔ _ :=
    fun collected => readCopySources_ok copies kind real plainBase there named
  have sizes : weigh (fun node => size node.2) ((tree.inOrder nameLe).preorder []) =
      weigh (fun node => size node.2) (tree.preorder []) := weigh_perm sorted
  simp only [sorted.mem_iff, sorted.length_eq, sizes] at ok
  constructor
  · constructor
    · rintro ⟨collected, accepted⟩
      obtain ⟨stated, listed, readable, count, bytes, -⟩ := (ok collected).mp accepted
      exact ⟨⟨stated, listed, readable⟩, count, bytes⟩
    · rintro ⟨⟨stated, listed, readable⟩, count, bytes⟩
      exact ⟨_, (ok _).mpr ⟨stated, listed, readable, count, bytes, rfl⟩⟩
  · intro collected accepted
    obtain ⟨-, -, -, -, -, rfl⟩ := (ok collected).mp accepted
    have source : (PathMap.empty.insert item.real (CopySource.directory (modeOf found.mode)
        (((tree.inOrder nameLe).preorder []).filterMap copied))) item.real = _ :=
      PathMap.insert_same (Path.beq_self item.real)
    have namedSorted : (tree.inOrder nameLe).AllNamed Plain := Forest.allNamed_inOrder named
    have distinctSorted : (tree.inOrder nameLe).Distinct := Forest.distinct_inOrder distinct
    refine ⟨⟨_, source, copied_in_order namedSorted distinctSorted⟩, ?_, fun note => ?_⟩
    · dsimp only
      rw [source]
      obtain ⟨sandbox, made, top, holds⟩ := run_copy real plainBase namedSorted distinctSorted
      refine ⟨sandbox, made, top, fun names node some => (holds names node some).trans ?_⟩
      simp only [sorted.mem_iff]
    · rw [mem_omitted]
      simp only [sorted.mem_iff]

/-- A directory with a file in it, beside a FIFO. -/
def seedTree : HostTree :=
  .leaf (utf8 "pipe") (.special none)
    (.branch (utf8 "a") ⟨0o40750, none⟩ (.leaf (utf8 "f") (.file 0o100644 [1, 2] none) .nil) .nil)

def seedItem : ResolvedItem :=
  { directive := .rwCopy, real := Path.ofNames [utf8 "d"], kind := .directory,
    origin := .written .commandLine, written := "/d" }

def seedHost (_ : Path) : HostEntry := .directory none ⟨0o40755, none⟩ seedTree

theorem seedTree_named : seedTree.AllNamed Plain :=
  ⟨by decide, by decide, ⟨by decide, trivial⟩, trivial⟩

theorem seedTree_distinct : seedTree.Distinct :=
  ⟨by decide, by decide, ⟨by decide, trivial⟩, trivial⟩

theorem seed_reproduced : ∃ collected,
    readCopySources seedHost [seedItem] = .ok collected ∧
    ∃ sandbox, emptyRoot.run (copyOperations seedItem (collected.sources seedItem.real)) =
        some sandbox ∧
      sandbox.nodes ([utf8 "d"] ++ [utf8 "a", utf8 "f"]) =
        some (.file 0o644 (.bytes [1, 2])) := by
  have plain : ∀ name ∈ [utf8 "d"], Plain name := by decide
  have there : seedHost seedItem.real = .directory none ⟨0o40755, none⟩ seedTree := rfl
  obtain ⟨reads, reproduces⟩ :=
    rw_copy_reproduces rfl rfl rfl plain there seedTree_named seedTree_distinct
  have readable : ∀ node ∈ seedTree.preorder [], Readable node.2 := by
    simp [seedTree, Forest.preorder, Readable]
  obtain ⟨collected, accepted⟩ := reads.mpr ⟨⟨rfl, rfl, readable⟩, by decide, by decide⟩
  obtain ⟨-, ⟨sandbox, ran, -, holds⟩, -⟩ := reproduces collected accepted
  refine ⟨collected, accepted, sandbox, ran, (holds _ _ (by simp)).mpr
    ⟨.inr (.file 0o100644 [1, 2] none), ?_, rfl⟩⟩
  simp [seedTree, Forest.preorder]

end Whole

end Kakoi.CopyFacts
