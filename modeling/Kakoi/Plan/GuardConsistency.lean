import Kakoi.Plan.GuardPlacement

/-! The guards of one run agree: one real program has one set of rules, is relocated once, and
what a guard starts is never a guard. -/

namespace Kakoi

open Std (ExtTreeMap)

/-- The names found on `PATH` were looked up in one file system, where a real path leads to
itself. -/
structure OneFileSystem (resolve : Path → Option Path)
    (facts : ExtTreeMap String (List NameFact)) : Prop where
  resolved : ∀ program : String, ∀ fact ∈ facts[program]?.getD [], fact.real = resolve fact.candidate
  settled : ∀ program : String, ∀ fact ∈ facts[program]?.getD [], ∀ real,
    fact.real = some real → resolve real = some real

/-- No name found and nothing a name leads to is in the guards' tmpfs. -/
structure OutsideGuards (facts : ExtTreeMap String (List NameFact)) : Prop where
  candidate : ∀ program : String, ∀ fact ∈ facts[program]?.getD [],
    fact.candidate.startsWith guardRoot = false
  real : ∀ program : String, ∀ fact ∈ facts[program]?.getD [], ∀ real,
    fact.real = some real → real.startsWith guardRoot = false

/-- What a name leads to inside, where the guards' tmpfs is over what the host has at its
root. -/
def resolveInside (resolve : Path → Option Path) (name : Path) : Option Path :=
  if name.startsWith guardRoot then some name else resolve name

/-- Whether a guard that was placed stands for a real program. -/
def PlacedGuard.leadsTo (resolve : Path → Option Path) (placed : PlacedGuard) (real : Path) : Bool :=
  (resolve placed.found).any (· == real)

/-- All rules, in order, of the placed programs that resolve to a real program. -/
def GuardPlan.rulesFor (plan : GuardPlan) (guards : List GuardEntry)
    (resolve : Path → Option Path) (real : Path) : List GuardRule :=
  (guards.filter fun entry => plan.placed.any fun placed =>
    placed.program = entry.rule.program && placed.leadsTo resolve real).map (·.rule)

/-- What is asked of the guards of one run. -/
structure GuardPlan.Consistent (plan : GuardPlan) (guards : List GuardEntry)
    (resolve : Path → Option Path) : Prop where
  locations : (plan.table.entries.map (·.location)).Nodup
  listed : plan.table.entries.map (·.location) =
    plan.placed.map (·.guard.bytes) ++ plan.overlaid.map (·.1.bytes)
  resolves : ∀ placed ∈ plan.placed, ∃ real, resolve placed.found = some real
  guardRules : ∀ entry ∈ plan.table.entries, ∀ placed ∈ plan.placed, ∀ real,
    entry.location = placed.guard.bytes → resolve placed.found = some real →
      entry.rules = plan.rulesFor guards resolve real
  overlaidRules : ∀ entry ∈ plan.table.entries, ∀ made ∈ plan.overlaid,
    entry.location = made.1.bytes → entry.rules = plan.rulesFor guards resolve made.1
  unguarded : ∀ entry ∈ plan.table.entries,
    entry.execute ∉ plan.table.entries.map (·.location) ∧
      ∀ real, resolveInside resolve ⟨entry.execute⟩ = some real →
        ∀ made ∈ plan.overlaid, (made.1 == real) = false
  overlaidOnce : plan.overlaid.Pairwise fun left right =>
    (left.1 == right.1) = false ∧ (left.2 == right.2) = false
  relocated : ∀ placed ∈ plan.placed, ∀ real, resolve placed.found = some real →
    (placed.relocated.isSome = true ↔
      (∃ rule ∈ plan.rulesFor guards resolve real, rule.guardAbsolutePath = true) ∧
        ∃ other ∈ plan.placed, other.leadsTo resolve real = true ∧
          real.fileName = some (utf8 other.program))
  relocatedTo : ∀ placed ∈ plan.placed, ∀ real place, resolve placed.found = some real →
    placed.relocated = some place → ∃ made ∈ plan.overlaid, (made.1 == real) = true ∧ made.2 = place
  overlaidFor : ∀ made ∈ plan.overlaid, ∃ placed ∈ plan.placed,
    resolve placed.found = some made.1 ∧ placed.relocated = some made.2

theorem body_unslashed (unslashed : slash ∉ name) :
    (Path.mk name).body = (Component.ofPiece name).toList := by
  rw [Path.body, Path.pieces_unsplit unslashed]
  cases shape : Component.ofPiece name <;> simp [shape]

theorem number_plain (number : Nat) : Plain (utf8 (toString number)) where
  nonempty empty := by
    have same : toString number = "" := utf8_injective empty
    rw [Nat.toString_eq_repr, ← String.toList_inj, Nat.toList_repr] at same
    exact Nat.toDigits_ne_nil same
  unsplit slashed := number_unslashed number (slash_mem_utf8 slashed)
  notDot named := by
    have same : toString number = "." := utf8_injective named
    have digit : Char.isDigit '.' = true := isDigit_of_mem_number number (by simp [same])
    exact absurd digit (by decide)
  notDotDot named := by
    have same : toString number = ".." := utf8_injective named
    have digit : Char.isDigit '.' = true := isDigit_of_mem_number number (by simp [same])
    exact absurd digit (by decide)

/-- The place of the relocation with an index. -/
def relocatedPlace (index : Nat) (real : Path) : Path :=
  (relocatedRoot.join (Path.ofString (toString index))).join ⟨real.fileName.getD real.bytes⟩

theorem relocatedPlace_components (named : real.fileName = some (utf8 program))
    (unslashed : '/' ∉ program.toList) :
    (relocatedPlace index real).components = relocatedRoot.components ++
      .normal (utf8 (toString index)) :: (Path.ofString program).body := by
  have nonempty : relocatedRoot.bytes ≠ [] := by decide +kernel
  have number := number_relative index
  have numberBody : (Path.ofString (toString index)).body = [.normal (utf8 (toString index))] := by
    have plain := number_plain index
    rw [Path.ofString, body_unslashed plain.unsplit, plain.ofPiece]
    rfl
  rw [relocatedPlace, named, Option.getD_some, ← Path.ofString,
    Path.components_join _ (Path.join_nonempty relocatedRoot nonempty number)
      (ofString_relative unslashed),
    Path.components_join relocatedRoot nonempty number, numberBody, List.append_assoc]
  rfl

/-- Whether a real program is relocated: a rule asks for it, and a program that leads to it
has its name. -/
def relocates (guards : List GuardEntry) (found : List FoundProgram) (real : Path) : Bool :=
  (rulesOf guards found real).any (fun entry => entry.rule.guardAbsolutePath) &&
    found.any fun other => other.real == real && real.fileName = some (utf8 other.program)

/-- The table entry of a program's guard. -/
def entryFor (guards : List GuardEntry) (found : List FoundProgram) (next : FoundProgram)
    (placed : PlacedGuard) : TableEntry where
  location := placed.guard.bytes
  execute := (placed.relocated.getD next.candidate).bytes
  rules := (rulesOf guards found next.real).map (·.rule)

/-- The guard the loop makes for a program it found. -/
structure PlacedFrom (guards : List GuardEntry) (found : List FoundProgram)
    (relocations : List (Path × Path)) (next : FoundProgram) (placed : PlacedGuard) : Prop where
  program : placed.program = next.program
  location : placed.location = guardLocation
  candidate : placed.found = next.candidate
  relocated : placed.relocated.isSome = relocates guards found next.real
  place : ∀ place, placed.relocated = some place →
    ∃ made ∈ relocations, (made.1 == next.real) = true ∧ made.2 = place

theorem PlacedFrom.mono (earlier : PlacedFrom guards found relocations next placed)
    (grown : relocations ⊆ later) : PlacedFrom guards found later next placed := by
  refine { earlier with place := fun place relocated => ?_ }
  obtain ⟨made, member, same⟩ := earlier.place place relocated
  exact ⟨made, grown member, same⟩

/-- What one round does to the relocations. -/
inductive Relocating (guards : List GuardEntry) (found : List FoundProgram) (real : Path)
    (relocations : List (Path × Path)) : List (Path × Path) → Prop where
  | same : Relocating guards found real relocations relocations
  | new (asked : relocates guards found real = true)
      (fresh : ∀ made ∈ relocations, (made.1 == real) = false) :
      Relocating guards found real relocations
        (relocations ++ [(real, relocatedPlace relocations.length real)])

theorem Relocating.subset (grown : Relocating guards found real relocations later) :
    relocations ⊆ later := by
  cases grown with
  | same => exact List.Subset.refl _
  | new => exact List.subset_append_left _ _

theorem relocation_spec (relocations : List (Path × Path)) (asked : relocates guards found real = true) :
    Relocating guards found real relocations (relocation relocations real).2 ∧
      ∃ made ∈ (relocation relocations real).2,
        (made.1 == real) = true ∧ made.2 = (relocation relocations real).1 := by
  unfold relocation
  split
  next made present =>
    have same : (made.1 == real) = true := by simpa using List.find?_some present
    exact ⟨.same, made, List.mem_of_find?_eq_some present, same, rfl⟩
  next absent =>
    refine ⟨.new asked fun made member => ?_, _, List.mem_append_right _ List.mem_cons_self,
      Path.beq_self real, rfl⟩
    simpa using List.find?_eq_none.mp absent made member

theorem placeGuard_spec (guards : List GuardEntry) (found : List FoundProgram) (placing : Placing)
    (next : FoundProgram) :
    ∃ placed later, placeGuard guards found placing next =
        { placed := placing.placed ++ [placed]
          entries := placing.entries ++ [entryFor guards found next placed]
          relocations := later } ∧
      PlacedFrom guards found later next placed ∧
      Relocating guards found next.real placing.relocations later := by
  by_cases asked : relocates guards found next.real = true
  · obtain ⟨grown, present⟩ := relocation_spec placing.relocations asked
    have shape := asked
    unfold relocates at shape
    simp only [placeGuard, shape, if_true]
    refine ⟨_, _, rfl, ⟨rfl, rfl, rfl, asked.symm, ?_⟩, grown⟩
    intro place same
    cases same
    exact present
  · have shape := Bool.eq_false_iff.mpr asked
    have kept := shape
    unfold relocates at shape
    simp only [placeGuard, shape, Bool.false_eq_true, if_false]
    refine ⟨_, _, rfl, ⟨rfl, rfl, rfl, kept.symm, ?_⟩, .same⟩
    intro place same
    cases same

/-- What holds of the loop's state when the programs in `done` were placed. -/
structure Placing.Kept (guards : List GuardEntry) (found done : List FoundProgram)
    (placing : Placing) : Prop where
  placed : List.Forall₂ (PlacedFrom guards found placing.relocations) done placing.placed
  entries : placing.entries = List.zipWith (entryFor guards found) done placing.placed
  distinct : placing.relocations.Pairwise fun left right => (left.1 == right.1) = false
  numbered : ∀ index made, placing.relocations[index]? = some made →
    made.2 = relocatedPlace index made.1
  asked : ∀ made ∈ placing.relocations,
    relocates guards found made.1 = true ∧ ∃ next ∈ done, next.real = made.1

theorem Placing.Kept.start (guards : List GuardEntry) (found : List FoundProgram) :
    Placing.Kept guards found [] {} where
  placed := .nil
  entries := rfl
  distinct := .nil
  numbered := by simp
  asked := by simp

theorem Placing.Kept.step (kept : placing.Kept guards found done) (next : FoundProgram) :
    (placeGuard guards found placing next).Kept guards found (done ++ [next]) := by
  obtain ⟨placed, later, shape, made, grown⟩ := placeGuard_spec guards found placing next
  rw [shape]
  have older := kept.placed.imp fun _ _ earlier => earlier.mono grown.subset
  have length := kept.placed.length_eq
  refine ⟨List.rel_append older (.cons made .nil), ?_, ?_, ?_, ?_⟩
  · rw [List.zipWith_append length, kept.entries]
    rfl
  · cases grown with
    | same => exact kept.distinct
    | new _ fresh =>
      exact pairwise_concat.mpr ⟨kept.distinct, fresh⟩
  · cases grown with
    | same => exact kept.numbered
    | new =>
      intro index entry present
      rw [List.getElem?_append] at present
      split at present
      · exact kept.numbered index entry present
      · have last : index - placing.relocations.length = 0 := by
          by_contra past
          simp [past] at present
        have same : index = placing.relocations.length := by omega
        simp only [same, Nat.sub_self, List.getElem?_cons_zero, Option.some.injEq] at present
        rw [← present, same]
  · cases grown with
    | same =>
      intro old member
      obtain ⟨asked, other, present, same⟩ := kept.asked old member
      exact ⟨asked, other, List.mem_append_left _ present, same⟩
    | new asked =>
      intro old member
      rcases mem_concat.mp member with earlier | last
      · obtain ⟨asked, other, present, same⟩ := kept.asked old earlier
        exact ⟨asked, other, List.mem_append_left _ present, same⟩
      · rw [last]
        exact ⟨asked, next, by simp, rfl⟩

theorem placing_kept (guards : List GuardEntry) (found rest : List FoundProgram)
    (kept : placing.Kept guards found done) :
    (rest.foldl (placeGuard guards found) placing).Kept guards found (done ++ rest) := by
  induction rest generalizing done placing with
  | nil => simpa using kept
  | cons next later ih =>
    have stepped := ih (kept.step next)
    simpa using stepped

section Plan

variable {placing : Placing}
  {path : Path}

/-- What the placement knows of the programs it found. -/
structure Found (resolve : Path → Option Path) (found : List FoundProgram) : Prop where
  unslashed : ∀ next ∈ found, '/' ∉ next.program.toList
  distinct : (found.map (·.program)).Nodup
  resolved : ∀ next ∈ found, resolve next.candidate = some next.real
  settled : ∀ next ∈ found, resolve next.real = some next.real
  candidateOutside : ∀ next ∈ found, next.candidate.startsWith guardRoot = false
  realOutside : ∀ next ∈ found, next.real.startsWith guardRoot = false

theorem Forall₂.exists_left (related : List.Forall₂ R xs ys) (member : y ∈ ys) :
    ∃ x ∈ xs, R x y := by
  induction related with
  | nil => cases member
  | cons first _ ih =>
    rcases List.mem_cons.mp member with rfl | later
    · exact ⟨_, List.mem_cons_self, first⟩
    · obtain ⟨x, present, same⟩ := ih later
      exact ⟨x, List.mem_cons_of_mem _ present, same⟩

theorem Forall₂.map_eq (agree : ∀ x y, R x y → f x = g y) (related : List.Forall₂ R xs ys) :
    xs.map f = ys.map g := by
  induction related with
  | nil => rfl
  | cons first _ ih => rw [List.map_cons, List.map_cons, agree _ _ first, ih]

theorem Forall₂.mem_zipWith (related : List.Forall₂ R xs ys) (member : z ∈ List.zipWith f xs ys) :
    ∃ x ∈ xs, ∃ y ∈ ys, R x y ∧ z = f x y := by
  induction related with
  | nil => cases member
  | cons first _ ih =>
    rcases List.mem_cons.mp member with rfl | later
    · exact ⟨_, List.mem_cons_self, _, List.mem_cons_self, first, rfl⟩
    · obtain ⟨x, inLeft, y, inRight, same⟩ := ih later
      exact ⟨x, List.mem_cons_of_mem _ inLeft, y, List.mem_cons_of_mem _ inRight, same⟩

theorem Forall₂.map_zipWith (right : ∀ x y, g (f x y) = h y) (related : List.Forall₂ R xs ys) :
    (List.zipWith f xs ys).map g = ys.map h := by
  induction related with
  | nil => rfl
  | cons _ _ ih => rw [List.zipWith_cons_cons, List.map_cons, List.map_cons, right, ih]

theorem beq_right_congr (same : (left == right) = true) (path : Path) :
    (path == left) = (path == right) := by
  rw [Bool.eq_iff_iff, Path.beq_iff, Path.beq_iff, (Path.beq_iff left right).mp same]

theorem rulesOf_congr (same : (left == right) = true) :
    rulesOf guards found left = rulesOf guards found right := by
  simp only [rulesOf, beq_right_congr same]

theorem relocates_congr (same : (left == right) = true) :
    relocates guards found left = relocates guards found right := by
  have name : left.fileName = right.fileName := by
    rw [Path.fileName, Path.fileName, (Path.beq_iff left right).mp same]
  simp only [relocates, rulesOf_congr same, beq_right_congr same, name]

/-- A real program that is overlaid is named as a program that leads to it. -/
theorem relocates_named (asked : relocates guards found real = true) :
    ∃ other ∈ found, real.fileName = some (utf8 other.program) := by
  obtain ⟨other, member, same⟩ := List.any_eq_true.mp ((Bool.and_eq_true _ _).mp asked).2
  simp only [Bool.and_eq_true, decide_eq_true_eq] at same
  exact ⟨other, member, same.2⟩

theorem PlacedFrom.guard_below (made : PlacedFrom guards found relocations next placed)
    (unslashed : '/' ∉ next.program.toList) : placed.guard.startsWith guardLocation = true := by
  rw [PlacedGuard.guard, made.location, made.program]
  exact Path.startsWith_join_relative guardLocation (by decide +kernel) (ofString_relative unslashed)

/-- The directory of the guards and that of the relocated programs are apart. -/
theorem guard_not_relocated (guard : path.startsWith guardLocation = true)
    (place : path.startsWith relocatedRoot = true) : False := by
  rcases Path.startsWith_chain guard place with nested | nested
  · exact absurd nested (by decide +kernel)
  · exact absurd nested (by decide +kernel)

theorem guardLocation_inside (guard : path.startsWith guardLocation = true) :
    path.startsWith guardRoot = true :=
  Path.startsWith_trans guard (by decide +kernel)

theorem relocatedRoot_inside (place : path.startsWith relocatedRoot = true) :
    path.startsWith guardRoot = true :=
  Path.startsWith_trans place (by decide +kernel)

/-- The plan of the placed programs, as the placement ends with it. -/
def planOf (guards : List GuardEntry) (found : List FoundProgram) (placing : Placing)
    (skipped : List SkippedGuard) : GuardPlan where
  placed := placing.placed
  skipped := skipped
  overlaid := placing.relocations
  table := {
    entries := placing.entries ++ placing.relocations.map fun made =>
      { location := made.1.bytes
        execute := made.2.bytes
        rules := (rulesOf guards found made.1).map (·.rule) } }

namespace Placing.Kept

variable (kept : placing.Kept guards found found)

include kept

theorem placed_from {placed : PlacedGuard} (member : placed ∈ placing.placed) :
    ∃ next ∈ found, PlacedFrom guards found placing.relocations next placed :=
  Forall₂.exists_left kept.placed member

theorem placed_for (member : next ∈ found) :
    ∃ placed ∈ placing.placed, PlacedFrom guards found placing.relocations next placed :=
  Forall₂.exists_left kept.placed.flip member

/-- An entry of the table is that of a guard or that of a program overlaid. -/
theorem entry_cases
    (member : entry ∈ (planOf guards found placing skipped).table.entries) :
    (∃ next ∈ found, ∃ placed ∈ placing.placed,
      PlacedFrom guards found placing.relocations next placed ∧
        entry = entryFor guards found next placed) ∨
    ∃ made ∈ placing.relocations, entry.location = made.1.bytes ∧
      entry.execute = made.2.bytes ∧ entry.rules = (rulesOf guards found made.1).map (·.rule) := by
  rcases List.mem_append.mp member with guard | overlaid
  · rw [kept.entries] at guard
    exact .inl (Forall₂.mem_zipWith kept.placed guard)
  · obtain ⟨made, present, rfl⟩ := List.mem_map.mp overlaid
    exact .inr ⟨made, present, rfl, rfl, rfl⟩

theorem listed :
    (planOf guards found placing skipped).table.entries.map (·.location) =
      placing.placed.map (·.guard.bytes) ++ placing.relocations.map (·.1.bytes) := by
  have guards := Forall₂.map_zipWith (f := entryFor guards found) (g := (·.location))
    (h := (·.guard.bytes)) (fun _ _ => rfl) kept.placed
  simp [planOf, kept.entries, guards]

theorem relocation_unique {other : Path × Path} (left : made ∈ placing.relocations)
    (right : other ∈ placing.relocations) (same : (made.1 == other.1) = true) : made = other := by
  by_contra different
  have symmetric : Std.Symm fun left right : Path × Path => (left.1 == right.1) = false := by
    refine ⟨fun left right apart => Bool.eq_false_iff.mpr fun equal => ?_⟩
    rw [Path.beq_symm equal] at apart
    cases apart
  rw [kept.distinct.forall left right different] at same
  cases same

/-- A name that is executed as it was found leads to a program that is not overlaid. -/
theorem candidate_unguarded (unasked : relocates guards found real = false) :
    ∀ made ∈ placing.relocations, (made.1 == real) = false := by
  intro made overlaid
  rw [Bool.eq_false_iff]
  intro same
  have asked := (kept.asked made overlaid).1
  rw [relocates_congr same, unasked] at asked
  cases asked

variable (known : Found resolve found)

include known

theorem any_placed (name : String → Bool) (real : Path) :
    (placing.placed.any fun placed => name placed.program && placed.leadsTo resolve real) =
      found.any fun other => other.real == real && name other.program := by
  rw [Bool.eq_iff_iff, List.any_eq_true, List.any_eq_true]
  constructor
  · rintro ⟨placed, member, holds⟩
    obtain ⟨next, present, made⟩ := kept.placed_from member
    rw [PlacedGuard.leadsTo, made.candidate, known.resolved next present, made.program] at holds
    exact ⟨next, present, by simpa [and_comm] using holds⟩
  · rintro ⟨next, present, holds⟩
    obtain ⟨placed, member, made⟩ := kept.placed_for present
    refine ⟨placed, member, ?_⟩
    rw [PlacedGuard.leadsTo, made.candidate, known.resolved next present, made.program]
    simpa [and_comm] using holds

theorem guards_nodup : (placing.placed.map (·.guard.bytes)).Nodup := by
  have spelled : found.map (fun next => (guardLocation.join (Path.ofString next.program)).bytes) =
      placing.placed.map (·.guard.bytes) := by
    refine Forall₂.map_eq (fun next placed made => ?_) kept.placed
    rw [PlacedGuard.guard, made.location, made.program]
  rw [← spelled]
  obtain ⟨front, -, joined⟩ := Path.join_relative guardLocation (by decide +kernel)
  refine (List.nodup_map_iff_inj_on (List.Nodup.of_map _ known.distinct)).mpr ?_
  intro left inLeft right inRight same
  rw [joined _ (ofString_relative (known.unslashed left inLeft)),
    joined _ (ofString_relative (known.unslashed right inRight))] at same
  have names : utf8 left.program = utf8 right.program := by
    simpa [Path.ofString] using same
  exact List.inj_on_of_nodup_map known.distinct inLeft inRight (utf8_injective names)

theorem place_components {index : Nat}
    (present : placing.relocations[index]? = some made) :
    ∃ rest, made.2.components =
      relocatedRoot.components ++ .normal (utf8 (toString index)) :: rest := by
  have asked := (kept.asked made (List.mem_of_getElem? present)).1
  obtain ⟨other, member, named⟩ := relocates_named asked
  rw [kept.numbered index made present]
  exact ⟨_, relocatedPlace_components named (known.unslashed other member)⟩

theorem relocations_once : placing.relocations.Pairwise fun left right =>
      (left.1 == right.1) = false ∧ (left.2 == right.2) = false := by
  refine kept.distinct.and (List.pairwise_iff_getElem.mpr ?_)
  intro i j inLeft inRight before
  obtain ⟨leftRest, left⟩ := kept.place_components known (List.getElem?_eq_getElem inLeft)
  obtain ⟨rightRest, right⟩ := kept.place_components known (List.getElem?_eq_getElem inRight)
  rw [Bool.eq_false_iff, ne_eq, Path.beq_iff, left, right]
  intro same
  have numbers := (List.cons.inj (List.append_cancel_left same)).1
  have equal : i = j := number_injective (Component.normal.inj numbers)
  omega

theorem place_below (member : made ∈ placing.relocations) :
    made.2.startsWith relocatedRoot = true := by
  obtain ⟨index, present⟩ := List.mem_iff_getElem?.mp member
  obtain ⟨rest, spelled⟩ := kept.place_components known present
  rw [Path.startsWith_iff, spelled]
  exact List.prefix_append _ _

theorem rulesFor (skipped : List SkippedGuard) (real : Path) :
    (planOf guards found placing skipped).rulesFor guards resolve real =
      (rulesOf guards found real).map (·.rule) := by
  rw [GuardPlan.rulesFor, rulesOf]
  congr 2
  funext entry
  exact kept.any_placed known (fun program => decide (program = entry.rule.program)) real

theorem real_outside (member : made ∈ placing.relocations) :
    made.1.startsWith guardRoot = false := by
  obtain ⟨next, present, same⟩ := (kept.asked made member).2
  rw [← same]
  exact known.realOutside next present

theorem guard_ne_real {placed : PlacedGuard} (member : placed ∈ placing.placed)
    (present : made ∈ placing.relocations) : placed.guard ≠ made.1 := by
  obtain ⟨next, listed, placedFrom⟩ := kept.placed_from member
  have inside := guardLocation_inside (placedFrom.guard_below (known.unslashed next listed))
  intro same
  rw [same, kept.real_outside known present] at inside
  cases inside

theorem locations_nodup :
    ((planOf guards found placing skipped).table.entries.map (·.location)).Nodup := by
  rw [kept.listed]
  refine List.nodup_append.mpr ⟨kept.guards_nodup known, ?_, ?_⟩
  · refine List.pairwise_map.mpr (kept.distinct.imp fun different same => ?_)
    rw [Path.eq_of_bytes same, Path.beq_self] at different
    cases different
  · intro location guard other real same
    obtain ⟨placed, member, rfl⟩ := List.mem_map.mp guard
    obtain ⟨made, present, rfl⟩ := List.mem_map.mp real
    exact kept.guard_ne_real known member present (Path.eq_of_bytes same)

theorem place_unlisted (present : made ∈ placing.relocations) :
    made.2.bytes ∉ (planOf guards found placing skipped).table.entries.map (·.location) := by
  rw [kept.listed]
  have below := kept.place_below known present
  intro listed
  rcases List.mem_append.mp listed with guard | real
  · obtain ⟨placed, member, spelled⟩ := List.mem_map.mp guard
    obtain ⟨next, found, placedFrom⟩ := kept.placed_from member
    rw [← Path.eq_of_bytes spelled] at below
    exact guard_not_relocated (placedFrom.guard_below (known.unslashed next found)) below
  · obtain ⟨other, overlaid, spelled⟩ := List.mem_map.mp real
    have inside := relocatedRoot_inside below
    rw [← Path.eq_of_bytes spelled, kept.real_outside known overlaid] at inside
    cases inside

theorem place_unguarded (present : made ∈ placing.relocations)
    (leads : resolveInside resolve made.2 = some real) :
    ∀ other ∈ placing.relocations, (other.1 == real) = false := by
  intro other overlaid
  have inside := relocatedRoot_inside (kept.place_below known present)
  rw [resolveInside, if_pos inside] at leads
  cases leads
  rw [Bool.eq_false_iff, ne_eq, Path.beq_iff]
  intro same
  have outside := kept.real_outside known overlaid
  rw [Path.startsWith, same] at outside
  rw [Path.startsWith, outside] at inside
  cases inside

theorem candidate_unlisted (present : next ∈ found)
    (unasked : relocates guards found next.real = false) :
    next.candidate.bytes ∉ (planOf guards found placing skipped).table.entries.map (·.location) := by
  rw [kept.listed]
  intro listed
  rcases List.mem_append.mp listed with guard | real
  · obtain ⟨placed, member, spelled⟩ := List.mem_map.mp guard
    obtain ⟨other, found, placedFrom⟩ := kept.placed_from member
    have inside := guardLocation_inside (placedFrom.guard_below (known.unslashed other found))
    rw [Path.eq_of_bytes spelled, known.candidateOutside next present] at inside
    cases inside
  · obtain ⟨made, overlaid, spelled⟩ := List.mem_map.mp real
    -- A real path leads to itself, so the name would lead to the program overlaid there.
    obtain ⟨other, found, same⟩ := (kept.asked made overlaid).2
    have settled := known.settled other found
    rw [same, Path.eq_of_bytes spelled, known.resolved next present, Option.some.injEq] at settled
    have apart := kept.candidate_unguarded unasked made overlaid
    rw [Path.eq_of_bytes spelled, settled, Path.beq_self] at apart
    cases apart

/-- A guard never starts a guard: what an entry executes is neither in the table nor a name
of a program that is overlaid. -/
theorem unguarded
    (member : entry ∈ (planOf guards found placing skipped).table.entries) :
    entry.execute ∉ (planOf guards found placing skipped).table.entries.map (·.location) ∧
      ∀ real, resolveInside resolve ⟨entry.execute⟩ = some real →
        ∀ made ∈ placing.relocations, (made.1 == real) = false := by
  rcases kept.entry_cases member with ⟨next, present, placed, listed, made, rfl⟩ |
    ⟨made, overlaid, -, execute, -⟩
  · cases moved : placed.relocated with
    | some place =>
      obtain ⟨made, overlaid, -, rfl⟩ := made.place place moved
      simp only [entryFor, moved, Option.getD_some]
      exact ⟨kept.place_unlisted known overlaid, fun real => kept.place_unguarded known overlaid⟩
    | none =>
      have unasked : relocates guards found next.real = false := by
        rw [← made.relocated, moved]
        rfl
      simp only [entryFor, moved, Option.getD_none]
      refine ⟨kept.candidate_unlisted known present unasked, fun real leads => ?_⟩
      rw [resolveInside, known.candidateOutside next present, if_neg Bool.false_ne_true,
        known.resolved next present] at leads
      cases leads
      exact kept.candidate_unguarded unasked
  · rw [execute]
    exact ⟨kept.place_unlisted known overlaid, fun real => kept.place_unguarded known overlaid⟩

theorem relocates_iff (skipped : List SkippedGuard) (real : Path) :
    relocates guards found real = true ↔
      (∃ rule ∈ (planOf guards found placing skipped).rulesFor guards resolve real,
        rule.guardAbsolutePath = true) ∧
      ∃ other ∈ placing.placed, other.leadsTo resolve real = true ∧
        real.fileName = some (utf8 other.program) := by
  have named := kept.any_placed known (fun program => decide (real.fileName = some (utf8 program))) real
  rw [kept.rulesFor known, relocates, Bool.and_eq_true, ← named]
  simp [List.any_eq_true, and_comm]

/-- The guards the loop leaves agree with each other. -/
theorem consistent (skipped : List SkippedGuard) :
    (planOf guards found placing skipped).Consistent guards resolve where
  locations := kept.locations_nodup known
  listed := kept.listed
  resolves placed member := by
    obtain ⟨next, present, made⟩ := kept.placed_from member
    exact ⟨next.real, by rw [made.candidate, known.resolved next present]⟩
  guardRules entry member placed listed real location leads := by
    rw [kept.rulesFor known]
    rcases kept.entry_cases member with ⟨next, present, other, present', made, rfl⟩ |
      ⟨made, overlaid, real, -, -⟩
    · have same : other = placed :=
        List.inj_on_of_nodup_map (kept.guards_nodup known) present' listed location
      rw [← same, made.candidate, known.resolved next present] at leads
      cases leads
      rfl
    · exact absurd (Path.eq_of_bytes (location.symm.trans real))
        (kept.guard_ne_real known listed overlaid)
  overlaidRules entry member made overlaid location := by
    rw [kept.rulesFor known]
    rcases kept.entry_cases member with ⟨next, present, placed, listed, -, rfl⟩ |
      ⟨other, -, real, -, rules⟩
    · exact absurd (Path.eq_of_bytes location) (kept.guard_ne_real known listed overlaid)
    · rw [rules, Path.eq_of_bytes (real.symm.trans location)]
  unguarded entry member := kept.unguarded known member
  overlaidOnce := kept.relocations_once known
  relocated placed member real leads := by
    obtain ⟨next, present, made⟩ := kept.placed_from member
    rw [made.candidate, known.resolved next present] at leads
    cases leads
    rw [made.relocated]
    exact kept.relocates_iff known skipped next.real
  relocatedTo placed member real place leads moved := by
    obtain ⟨next, present, made⟩ := kept.placed_from member
    rw [made.candidate, known.resolved next present] at leads
    cases leads
    exact made.place place moved
  overlaidFor made overlaid := by
    obtain ⟨asked, next, present, real⟩ := kept.asked made overlaid
    obtain ⟨placed, member, placedFrom⟩ := kept.placed_for present
    rw [← real, ← placedFrom.relocated] at asked
    obtain ⟨place, moved⟩ := Option.isSome_iff_exists.mp asked
    obtain ⟨other, listed, same, rfl⟩ := placedFrom.place place moved
    rw [real] at same
    refine ⟨placed, member, ?_, ?_⟩
    · rw [placedFrom.candidate, known.resolved next present, real]
    · rw [moved, kept.relocation_unique listed overlaid same]

end Placing.Kept

/-- The programs the placement finds. -/
def foundPrograms (guards : List GuardEntry) (pathPresent : Bool)
    (facts : ExtTreeMap String (List NameFact)) (mounts : List ResolvedItem) (kakoi : Option Path)
    (kakoiFile : Option FileId) : List FoundProgram :=
  (programs guards).filterMap fun program =>
    (checkProgram pathPresent (facts[program]?.getD []) mounts kakoi kakoiFile).toOption.map
      fun found => { program, candidate := found.1, real := found.2 }

theorem programs_nodup (guards : List GuardEntry) : (programs guards).Nodup := by
  unfold programs
  induction guards using List.reverseRecOn with
  | nil => exact List.nodup_nil
  | append_singleton front last ih =>
    rw [List.foldl_append, List.foldl_cons, List.foldl_nil]
    split
    · exact ih
    · rename_i new
      refine List.nodup_append.mpr ⟨ih, List.nodup_singleton _, ?_⟩
      intro old member fresh present same
      rw [List.mem_singleton.mp present] at same
      exact new (List.contains_iff_mem.mpr (same ▸ member))

theorem checkProgram_ok
    (accepted : checkProgram pathPresent names mounts kakoi kakoiFile = .ok outcome) :
    ∃ fact ∈ names, fact.candidate = outcome.1 ∧ fact.real = some outcome.2 := by
  unfold checkProgram at accepted
  split at accepted
  · cases accepted
  · split at accepted
    next candidate name real links executable file present =>
      split at accepted
      · cases accepted
      · cases accepted
        exact ⟨_, List.mem_of_find?_eq_some present, rfl, rfl⟩
    · cases accepted

theorem mem_foundPrograms
    (member : next ∈ foundPrograms guards pathPresent facts mounts kakoi kakoiFile) :
    next.program ∈ programs guards ∧ ∃ fact ∈ facts[next.program]?.getD [],
      fact.candidate = next.candidate ∧ fact.real = some next.real := by
  obtain ⟨program, named, made⟩ := List.mem_filterMap.mp member
  obtain ⟨outcome, accepted, rfl⟩ := Option.map_eq_some_iff.mp made
  exact ⟨named, checkProgram_ok (Except.toOption_eq_some.mp accepted)⟩

theorem foundPrograms_nodup (guards : List GuardEntry) :
    ((foundPrograms guards pathPresent facts mounts kakoi kakoiFile).map (·.program)).Nodup := by
  refine (programs_nodup guards).sublist ?_
  unfold foundPrograms
  induction programs guards with
  | nil => exact List.Sublist.refl _
  | cons program rest ih =>
    rw [List.filterMap_cons]
    cases (checkProgram pathPresent (facts[program]?.getD []) mounts kakoi kakoiFile).toOption with
    | none => exact ih.cons program
    | some outcome => exact ih.cons_cons program

theorem found_known (allowed : ∀ entry ∈ guards, entry.rule.programAllowed = true)
    (system : OneFileSystem resolve facts) (outside : OutsideGuards facts) (pathPresent : Bool)
    (mounts : List ResolvedItem) (kakoi : Option Path) (kakoiFile : Option FileId) :
    Found resolve (foundPrograms guards pathPresent facts mounts kakoi kakoiFile) where
  unslashed next member := by
    obtain ⟨entry, listed, same⟩ := mem_programs (mem_foundPrograms member).1
    have shaped := allowed entry listed
    simp only [GuardRule.programAllowed, Bool.and_eq_true, Bool.not_eq_true', same] at shaped
    simpa using shaped.1.2
  distinct := foundPrograms_nodup guards
  resolved next member := by
    obtain ⟨-, fact, listed, candidate, real⟩ := mem_foundPrograms member
    rw [← candidate, ← system.resolved _ fact listed, real]
  settled next member := by
    obtain ⟨-, fact, listed, -, real⟩ := mem_foundPrograms member
    exact system.settled _ fact listed _ real
  candidateOutside next member := by
    obtain ⟨-, fact, listed, candidate, -⟩ := mem_foundPrograms member
    rw [← candidate]
    exact outside.candidate _ fact listed
  realOutside next member := by
    obtain ⟨-, fact, listed, -, real⟩ := mem_foundPrograms member
    exact outside.real _ fact listed _ real

theorem placeGuards_eq (guards : List GuardEntry) (pathPresent : Bool)
    (facts : ExtTreeMap String (List NameFact)) (mounts : List ResolvedItem) (kakoi : Option Path)
    (kakoiFile : Option FileId) :
    ∃ skipped, placeGuards guards pathPresent facts mounts kakoi kakoiFile =
      planOf guards (foundPrograms guards pathPresent facts mounts kakoi kakoiFile)
        ((foundPrograms guards pathPresent facts mounts kakoi kakoiFile).foldl
          (placeGuard guards (foundPrograms guards pathPresent facts mounts kakoi kakoiFile)) {})
        skipped := by
  have same : foundPrograms guards pathPresent facts mounts kakoi kakoiFile =
      ((programs guards).map fun program =>
        (program, checkProgram pathPresent (facts[program]?.getD []) mounts kakoi kakoiFile)).filterMap
          fun checked => checked.2.toOption.map fun outcome =>
            { program := checked.1, candidate := outcome.1, real := outcome.2 : FoundProgram } := by
    rw [List.filterMap_map]
    rfl
  rw [same]
  refine ⟨_, congrArg (fun found => planOf guards found (found.foldl (placeGuard guards found) {}) _)
    (List.filterMap_congr fun checked _ => ?_)⟩
  obtain ⟨program, outcome⟩ := checked
  cases outcome <;> rfl

/-- The guards of one run agree with each other, whatever programs lead to one file. -/
theorem placeGuards_consistent (allowed : ∀ entry ∈ guards, entry.rule.programAllowed = true)
    (system : OneFileSystem resolve facts) (outside : OutsideGuards facts) (pathPresent : Bool)
    (mounts : List ResolvedItem) (kakoi : Option Path) (kakoiFile : Option FileId) :
    (placeGuards guards pathPresent facts mounts kakoi kakoiFile).Consistent guards resolve := by
  obtain ⟨skipped, shape⟩ := placeGuards_eq guards pathPresent facts mounts kakoi kakoiFile
  have known := found_known allowed system outside pathPresent mounts kakoi kakoiFile
  rw [shape]
  exact (placing_kept guards _ _ (Placing.Kept.start guards _)).consistent known skipped

/-- Two names of one program, one rule for each, and the file under the name of one. -/
def aliasRules : List GuardEntry :=
  [⟨{ program := "git", reason := "", guardAbsolutePath := true }, .builtInDefault⟩,
    ⟨{ program := "g", reason := "" }, .builtInDefault⟩]

def aliasFact (name : String) : NameFact where
  candidate := Path.ofString ("/usr/bin/" ++ name)
  name := some (Path.ofString ("/usr/bin/" ++ name))
  real := some (Path.ofString "/opt/git")
  links := []
  executable := true
  file := none

def aliasFacts : ExtTreeMap String (List NameFact) :=
  ((∅ : ExtTreeMap String (List NameFact)).insert "git" [aliasFact "git"]).insert "g" [aliasFact "g"]

def aliasResolve (path : Path) : Option Path :=
  if path.bytes ∈ ["/usr/bin/git", "/usr/bin/g", "/opt/git"].map utf8 then
    some (Path.ofString "/opt/git") else none

theorem mem_aliasFacts {program : String} (member : fact ∈ aliasFacts[program]?.getD []) :
    fact = aliasFact "git" ∨ fact = aliasFact "g" := by
  simp only [aliasFacts, ExtTreeMap.getElem?_insert] at member
  split at member
  · exact .inr (List.mem_singleton.mp member)
  · split at member
    · exact .inl (List.mem_singleton.mp member)
    · simp at member

theorem alias_guards_consistent :
    ((placeGuards aliasRules true aliasFacts [] none none).overlaid =
      [(Path.ofString "/opt/git", Path.ofString "/dev/kakoi-guard/real/0/git")]) ∧
    (placeGuards aliasRules true aliasFacts [] none none).Consistent aliasRules aliasResolve := by
  refine ⟨by decide +kernel, ?_⟩
  refine placeGuards_consistent (by decide +kernel) ⟨?_, ?_⟩ ⟨?_, ?_⟩ true [] none none
  · intro program fact member
    rcases mem_aliasFacts member with rfl | rfl <;> decide +kernel
  · intro program fact member real known
    rcases mem_aliasFacts member with rfl | rfl <;> cases known <;> decide +kernel
  · intro program fact member
    rcases mem_aliasFacts member with rfl | rfl <;> decide +kernel
  · intro program fact member real known
    rcases mem_aliasFacts member with rfl | rfl <;> cases known <;> decide +kernel

end Plan

end Kakoi
