import Kakoi.Plan.Listed

/-! Where the command guard is placed: the real programs of a rule, the guards in front of them,
and the table they read. -/

namespace Kakoi

open Std (ExtTreeMap)

/-- The directory of the guards, put first on `PATH`. -/
def guardLocation : Path := Path.ofString "/dev/kakoi-guard/bin"

def guardTable : Path := Path.ofString "/dev/kakoi-guard/table"

/-- Where a program relocated for `guard-absolute-path` goes. -/
def relocatedRoot : Path := Path.ofString "/dev/kakoi-guard/real"

/-- A file by its device and inode, whatever path names it. -/
structure FileId where
  device : UInt64
  inode : UInt64
  deriving DecidableEq

/-- What the outer layer found at one name of a program on the isolation's `PATH`. -/
structure NameFact where
  candidate : Path
  name : Option Path
  real : Option Path
  links : List Path
  executable : Bool
  file : Option FileId

/-- Whether the items hide where a name is, what it resolves to, or a link on the way. -/
def nameHidden (fact : NameFact) (mounts : List ResolvedItem) : Bool :=
  (fact.name.toList ++ fact.real.toList ++ fact.links).any fun path => hidden path mounts

/-- The first name the shell inside would start. -/
def realProgram (names : List NameFact) (mounts : List ResolvedItem) : Option NameFact :=
  names.find? fun fact => fact.executable && fact.real.isSome && !nameHidden fact mounts

structure PlacedGuard where
  program : String
  location : Path
  found : Path
  relocated : Option Path
  notRelocated : Option Text
  sources : List LayerOrigin

/-- The guard itself: the program's name in the guard location. -/
def PlacedGuard.guard (placed : PlacedGuard) : Path := placed.location.join (Path.ofString placed.program)

structure SkippedGuard where
  program : String
  reason : String

/-- One path a guard is started from, what it executes and the rules it applies. -/
structure TableEntry where
  location : Name
  execute : Name
  rules : List GuardRule

structure GuardTable where
  entries : List TableEntry := []

/-- The guards of a run, the real programs overlaid with where each is relocated, and the
table. -/
structure GuardPlan where
  placed : List PlacedGuard := []
  skipped : List SkippedGuard := []
  overlaid : List (Path × Path) := []
  table : GuardTable := {}
  executable : Option Path := none

/-- The programs the rules name, each once, in the order of their first rule. -/
def programs (guards : List GuardEntry) : List String :=
  guards.foldl (fun programs entry =>
    if programs.contains entry.rule.program then programs
    else programs ++ [entry.rule.program]) []

/-- The found name and the real path of a program, or why it gets no guard. -/
def checkProgram (pathPresent : Bool) (names : List NameFact) (mounts : List ResolvedItem)
    (kakoi : Option Path) (kakoiFile : Option FileId) : Except String (Path × Path) :=
  if !pathPresent then .error "the isolation's environment has no PATH"
  else
    match realProgram names mounts with
    | some { candidate, real := some real, file, .. } =>
      if kakoi.any (· == real) || (file.isSome && file = kakoiFile) then
        .error "the program found on PATH is kakoi itself"
      else .ok (candidate, real)
    | _ => .error "not found on the isolation's PATH"

/-- A program with its candidate on `PATH` and its real path. -/
structure FoundProgram where
  program : String
  candidate : Path
  real : Path

/-- The rules of every program that resolves to the same real program. -/
def rulesOf (guards : List GuardEntry) (found : List FoundProgram) (real : Path) : List GuardEntry :=
  guards.filter fun entry =>
    found.any fun other => other.real == real && other.program = entry.rule.program

/-- Where a real program is relocated, the same place for every program that resolves to
it, with the relocations made so far. -/
def relocation (relocations : List (Path × Path)) (real : Path) : Path × List (Path × Path) :=
  match relocations.find? fun made => made.1 == real with
  | some made => (made.2, relocations)
  | none =>
    let place := (relocatedRoot.join (Path.ofString (toString relocations.length))).join
      ⟨real.fileName.getD real.bytes⟩
    (place, relocations ++ [(real, place)])

def anotherName (real : Path) : Text :=
  format ["its real program ", real, " has another name, and a guard over it would apply these rules to every program started through it"]

/-- The guards placed so far and the relocations they needed. -/
structure Placing where
  placed : List PlacedGuard := []
  entries : List TableEntry := []
  relocations : List (Path × Path) := []

/-- The loop over the programs found. -/
def placeGuard (guards : List GuardEntry) (found : List FoundProgram) (placing : Placing)
    (next : FoundProgram) : Placing :=
  let entries := rulesOf guards found next.real
  let absolute := entries.any fun entry => entry.rule.guardAbsolutePath
  -- A file named as none of the programs that lead to it is started under many names.
  let sameName := found.any fun other =>
    other.real == next.real && next.real.fileName = some (utf8 other.program)
  let (relocated, relocations) :=
    if absolute && sameName then
      let (place, relocations) := relocation placing.relocations next.real
      (some place, relocations)
    else (none, placing.relocations)
  let placed : PlacedGuard :=
    { program := next.program
      location := guardLocation
      found := next.candidate
      relocated
      notRelocated := if absolute && !sameName then some (anotherName next.real) else none
      sources := entries.map (·.origin) }
  { placed := placing.placed ++ [placed]
    entries := placing.entries ++
      [{ location := placed.guard.bytes
         execute := (relocated.getD next.candidate).bytes
         rules := entries.map (·.rule) }]
    relocations }

/-- Decides the guards of the merged rules from the names found on `PATH`. -/
def placeGuards (guards : List GuardEntry) (pathPresent : Bool)
    (facts : ExtTreeMap String (List NameFact)) (mounts : List ResolvedItem) (kakoi : Option Path)
    (kakoiFile : Option FileId) : GuardPlan :=
  let checked := (programs guards).map fun program =>
    (program, checkProgram pathPresent (facts[program]?.getD []) mounts kakoi kakoiFile)
  let found := checked.filterMap fun (program, outcome) =>
    match outcome with
    | .ok (candidate, real) => some { program, candidate, real : FoundProgram }
    | .error _ => none
  let placing := found.foldl (placeGuard guards found) {}
  { placed := placing.placed
    skipped := checked.filterMap fun (program, outcome) =>
      match outcome with
      | .ok _ => none
      | .error reason => some { program, reason }
    overlaid := placing.relocations
    table := {
      entries := placing.entries ++ placing.relocations.map fun (real, relocated) =>
        { location := real.bytes
          execute := relocated.bytes
          rules := (rulesOf guards found real).map (·.rule) } } }

/-- What the shape check of a rule asks of the program's name. -/
def GuardRule.programAllowed (rule : GuardRule) : Bool :=
  !rule.program.isEmpty && !rule.program.toList.contains '/' && rule.program ≠ "kakoi"

/-- Only the slash itself is encoded with the byte of a slash. -/
theorem slash_mem_utf8EncodeChar (member : slash ∈ String.utf8EncodeChar char) : char = '/' := by
  have small : ∀ value : Nat, value < 256 → slash = UInt8.ofNat value → value = 47 := by
    intro value bound same
    have number := congrArg UInt8.toNat same
    have byte : slash.toNat = 47 := rfl
    rw [UInt8.toNat_ofNat', byte] at number
    omega
  -- Every byte of a longer encoding is at least 128.
  have high : ∀ value : Nat, 128 ≤ value → value < 256 → slash ≠ UInt8.ofNat value := by
    intro value above bound same
    have := small value bound same
    omega
  unfold String.utf8EncodeChar at member
  simp only at member
  split at member
  · have value := small char.val.toNat (by omega) (by simpa using member)
    exact Char.ext (UInt32.toNat_inj.mp value)
  · exfalso
    revert member
    split
    · simp only [List.mem_cons, List.not_mem_nil, or_false]
      rintro (same | same) <;> exact high _ (by omega) (by omega) same
    · split
      · simp only [List.mem_cons, List.not_mem_nil, or_false]
        rintro (same | same | same) <;> exact high _ (by omega) (by omega) same
      · simp only [List.mem_cons, List.not_mem_nil, or_false]
        rintro (same | same | same | same) <;> exact high _ (by omega) (by omega) same

theorem slash_mem_utf8 (member : slash ∈ utf8 text) : '/' ∈ text.toList := by
  obtain ⟨char, present, encoded⟩ := List.mem_flatMap.mp member
  rwa [← slash_mem_utf8EncodeChar encoded]

theorem ofString_relative (unslashed : '/' ∉ text.toList) :
    (Path.ofString text).isAbsolute = false := by
  rw [Path.isAbsolute, beq_eq_false_iff_ne]
  intro head
  exact unslashed (slash_mem_utf8 (List.mem_of_head? head))

theorem program_relative {rule : GuardRule} (allowed : rule.programAllowed = true) :
    (Path.ofString rule.program).isAbsolute = false := by
  simp only [GuardRule.programAllowed, Bool.and_eq_true, Bool.not_eq_true'] at allowed
  apply ofString_relative
  simpa using allowed.1.2

theorem isDigit_of_mem_number (number : Nat) (member : char ∈ (toString number).toList) :
    char.isDigit = true := by
  rw [Nat.toString_eq_repr, Nat.toList_repr] at member
  exact Nat.isDigit_of_mem_toDigits (by omega) (by omega) member

theorem number_unslashed (number : Nat) : '/' ∉ (toString number).toList := by
  intro slashed
  have digit := isDigit_of_mem_number number slashed
  simp [Char.isDigit] at digit

theorem number_relative (number : Nat) : (Path.ofString (toString number)).isAbsolute = false :=
  ofString_relative (number_unslashed number)

theorem mem_programs (member : program ∈ programs guards) :
    ∃ entry ∈ guards, entry.rule.program = program := by
  unfold programs at member
  induction guards using List.reverseRecOn with
  | nil => cases member
  | append_singleton front last ih =>
    rw [List.foldl_append, List.foldl_cons, List.foldl_nil] at member
    split at member
    · obtain ⟨entry, listed, same⟩ := ih member
      exact ⟨entry, List.mem_append_left _ listed, same⟩
    · rcases mem_concat.mp member with earlier | new
      · obtain ⟨entry, listed, same⟩ := ih earlier
        exact ⟨entry, List.mem_append_left _ listed, same⟩
      · exact ⟨last, by simp, new.symm⟩

/-- The places a run of the loop makes are all in the guards' tmpfs, and its table lists
the guards it placed. -/
structure Placing.Inside (placing : Placing) : Prop where
  placed : ∀ placed ∈ placing.placed, placed.guard.startsWith guardRoot = true
  relocated : ∀ made ∈ placing.relocations, made.2.startsWith guardRoot = true
  listed : placing.entries.map (·.location) = placing.placed.map (·.guard.bytes)

theorem relocation_inside (inside : ∀ made ∈ relocations, made.2.startsWith guardRoot = true)
    (named : real.fileName = some name) (relative : (Path.mk name).isAbsolute = false) :
    ∀ made ∈ (relocation relocations real).2, made.2.startsWith guardRoot = true := by
  intro made member
  unfold relocation at member
  split at member
  · exact inside made member
  · rcases mem_concat.mp member with old | rfl
    · exact inside made old
    · have number := number_relative relocations.length
      have nonempty : relocatedRoot.bytes ≠ [] := by decide +kernel
      have root : relocatedRoot.startsWith guardRoot = true := by decide +kernel
      have below := Path.startsWith_join_relative relocatedRoot nonempty number
      have further := Path.startsWith_join_relative
        (relocatedRoot.join (Path.ofString (toString relocations.length)))
        (Path.join_nonempty relocatedRoot nonempty number) relative
      rw [named, Option.getD_some]
      exact Path.startsWith_trans (Path.startsWith_trans further below) root

theorem placeGuard_inside (inside : placing.Inside)
    (relative : ∀ other ∈ found, (Path.ofString other.program).isAbsolute = false)
    (member : next ∈ found) : (placeGuard guards found placing next).Inside where
  placed := by
    intro placed listed
    rcases mem_concat.mp listed with old | rfl
    · exact inside.placed placed old
    · have below := Path.startsWith_join_relative guardLocation (by decide +kernel)
        (relative next member)
      have root : guardLocation.startsWith guardRoot = true := by decide +kernel
      exact Path.startsWith_trans below root
  relocated := by
    unfold placeGuard
    simp only
    split
    · rename_i asked
      rw [Bool.and_eq_true] at asked
      obtain ⟨other, present, shared⟩ := List.any_eq_true.mp asked.2
      simp only [Bool.and_eq_true, decide_eq_true_eq] at shared
      exact relocation_inside inside.relocated shared.2 (relative other present)
    · exact inside.relocated
  listed := by
    simp only [placeGuard, List.map_append, inside.listed, List.map_cons, List.map_nil]

theorem placing_inside {rest : List FoundProgram} (guards : List GuardEntry)
    (relative : ∀ other ∈ found, (Path.ofString other.program).isAbsolute = false)
    (within : ∀ next ∈ rest, next ∈ found) (inside : placing.Inside) :
    (rest.foldl (placeGuard guards found) placing).Inside := by
  induction rest generalizing placing with
  | nil => exact inside
  | cons next later ih =>
    have step : (placeGuard guards found placing next).Inside :=
      placeGuard_inside inside relative (within next List.mem_cons_self)
    exact ih (fun other member => within other (List.mem_cons_of_mem next member)) step

/-- Every guard and every relocated program is in the guards' tmpfs, and the table lists
the guards and the programs overlaid. -/
theorem placeGuards_inside (allowed : ∀ entry ∈ guards, entry.rule.programAllowed = true)
    (pathPresent : Bool) (facts : ExtTreeMap String (List NameFact)) (mounts : List ResolvedItem)
    (kakoi : Option Path) (kakoiFile : Option FileId) :
    let plan := placeGuards guards pathPresent facts mounts kakoi kakoiFile
    (∀ placed ∈ plan.placed, placed.guard.startsWith guardRoot = true) ∧
      (∀ made ∈ plan.overlaid, made.2.startsWith guardRoot = true) ∧
      plan.table.entries.map (·.location) =
        plan.placed.map (·.guard.bytes) ++ plan.overlaid.map (·.1.bytes) := by
  simp only [placeGuards]
  generalize shape : List.filterMap _ _ = found
  have relative : ∀ other ∈ found, (Path.ofString other.program).isAbsolute = false := by
    intro other member
    rw [← shape] at member
    obtain ⟨⟨program, outcome⟩, checked, made⟩ := List.mem_filterMap.mp member
    obtain ⟨name, named, same⟩ := List.mem_map.mp checked
    cases same
    obtain ⟨entry, listed, rfl⟩ := mem_programs named
    split at made
    · cases made
      exact program_relative (allowed entry listed)
    · cases made
  have start : Placing.Inside {} := ⟨by simp, by simp, rfl⟩
  have inside := placing_inside guards relative (fun _ member => member) start
  refine ⟨inside.placed, inside.relocated, ?_⟩
  simp [inside.listed]

theorem placing_length (guards : List GuardEntry) (found : List FoundProgram)
    (rest : List FoundProgram) (placing : Placing) :
    (rest.foldl (placeGuard guards found) placing).placed.length =
      placing.placed.length + rest.length := by
  induction rest generalizing placing with
  | nil => rfl
  | cons next later ih =>
    rw [List.foldl_cons, ih]
    simp only [placeGuard, List.length_append, List.length_cons, List.length_nil]
    omega

/-- A table that is not empty has a guard that is placed. -/
theorem placeGuards_placed (pathPresent : Bool) (facts : ExtTreeMap String (List NameFact))
    (mounts : List ResolvedItem) (kakoi : Option Path) (kakoiFile : Option FileId)
    (listed : (placeGuards guards pathPresent facts mounts kakoi kakoiFile).table.entries ≠ []) :
    (placeGuards guards pathPresent facts mounts kakoi kakoiFile).placed ≠ [] := by
  simp only [placeGuards] at listed ⊢
  revert listed
  generalize List.filterMap _ _ = found
  intro listed empty
  have length := placing_length guards found found {}
  rw [empty] at length
  have none : found = [] := List.eq_nil_of_length_eq_zero (by simpa using length.symm)
  subst none
  exact listed rfl

end Kakoi
