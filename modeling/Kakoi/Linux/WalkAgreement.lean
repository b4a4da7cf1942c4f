import Kakoi.Linux.WalkTrace

/-! The walk reads nothing but the directories it reports, and two spellings of one path differ
only in what a trailing slash asks for. -/

namespace Kakoi.RealPaths

/-- The two file systems have the same entries in each of these directories. -/
def Agree (files other : FileSystem) (places : List Path) : Prop :=
  ∀ directory ∈ places, ∀ name, other.lookup directory name = files.lookup directory name

theorem consult_grows (traversal : Traversal) (place : Path) :
    traversal.directories ⊆ (consult traversal place).directories := by
  unfold consult
  split
  · exact List.Subset.refl _
  · exact List.subset_append_left _ _

theorem WalkTrace.grows (trace : WalkTrace files links remaining traversal resolved final reached) :
    traversal.directories ⊆ final.directories := by
  induction trace with
  | done => exact List.Subset.refl _
  | blocked | missing | exhausted => exact consult_grows _ _
  | here directory later ih | up directory later ih | enter directory named found later ih
  | follow directory named found later ih => exact List.Subset.trans (consult_grows _ _) ih

theorem Agree.subset (agree : Agree files other places) (fewer : chosen ⊆ places) :
    Agree files other chosen :=
  fun directory member => agree directory (fewer member)

theorem Standing.isDirectory_agrees (standing : Standing files traversal resolved)
    (agree : Agree files other traversal.directories) :
    other.isDirectory resolved = files.isDirectory resolved := by
  rcases standing.real.root_or_join with rfl | ⟨name, plain, joined, different⟩
  · rfl
  · have above := standing.passed resolved.pop standing.real.pop
      standing.real.startsWith_pop different
    unfold FileSystem.isDirectory
    rw [joined, files.entryAt_join standing.real.pop plain,
      other.entryAt_join standing.real.pop plain, agree _ above]

/-- A derivation in one file system is one in every file system that agrees with it
on the directories the derivation reports. -/
theorem WalkTrace.agrees
    (trace : WalkTrace files links remaining traversal resolved final reached)
    (initial : Standing files traversal resolved) (agree : Agree files other final.directories) :
    WalkTrace other links remaining traversal resolved final reached := by
  induction trace with
  | done => exact .done
  | blocked notDirectory =>
    have same := initial.isDirectory_agrees (agree.subset (consult_grows _ _))
    exact .blocked (same.trans notDirectory)
  | missing directory named found =>
    have same := initial.isDirectory_agrees (agree.subset (consult_grows _ _))
    exact .missing (same.trans directory) named ((agree _ initial.here_mem _).trans found)
  | exhausted directory named found =>
    have same := initial.isDirectory_agrees (agree.subset (consult_grows _ _))
    exact .exhausted (same.trans directory) named ((agree _ initial.here_mem _).trans found)
  | here directory later ih =>
    have before := agree.subset later.grows
    have same := initial.isDirectory_agrees (before.subset (consult_grows _ _))
    exact .here (same.trans directory) (ih (initial.consulted directory) agree)
  | up directory later ih =>
    have before := agree.subset later.grows
    have same := initial.isDirectory_agrees (before.subset (consult_grows _ _))
    exact .up (same.trans directory) (ih (initial.consulted directory).up agree)
  | enter directory named found later ih =>
    have before := agree.subset later.grows
    have same := initial.isDirectory_agrees (before.subset (consult_grows _ _))
    have entry := before _ initial.here_mem
    refine .enter (same.trans directory) named ?_
      (ih ((initial.consulted directory).enter initial.here_mem found) agree)
    simpa only [entry] using found
  | follow directory named found later ih =>
    have before : Agree files other _ := agree.subset later.grows
    have same := initial.isDirectory_agrees (before.subset (consult_grows _ _))
    exact .follow (same.trans directory) named ((before _ initial.here_mem _).trans found)
      (ih ((initial.consulted directory).follow initial.here_mem found) agree)

theorem walk_relative (files : FileSystem) (relative : path.isAbsolute = false) :
    walk files path = ({}, none) := by
  simp [walk, relative]

theorem walk_absolute (files : FileSystem) (absolute : path.isAbsolute = true) :
    walk files path =
      ((walkLinks files linkLimit (namesOf path) {} Path.root).1,
       (walkLinks files linkLimit (namesOf path) {} Path.root).2.filter
         fun real => !requiresDirectory path || files.isDirectory real) := by
  simp [walk, absolute]

/-- The places a path's resolution reports are all it depends on. -/
theorem walk_agrees (agree : Agree files other (walk files path).1.directories) :
    walk other path = walk files path := by
  by_cases absolute : path.isAbsolute = true
  · rw [walk_absolute files absolute] at agree ⊢
    rw [walk_absolute other absolute]
    have trace := walkLinks_trace files linkLimit (namesOf path) {} Path.root
    have result := (trace.agrees (standing_root files) agree).result
    rw [result]
    congr 1
    cases reached : (walkLinks files linkLimit (namesOf path) {} Path.root).2 with
    | none => rfl
    | some real =>
      have standing := trace.standing (standing_root files) real reached
      simp [Option.filter, standing.isDirectory_agrees agree]
  · simp only [Bool.not_eq_true] at absolute
    rw [walk_relative files absolute, walk_relative other absolute]

theorem walk_standing (arrived : (walk files path).2 = some real) :
    Standing files (walk files path).1 real := by
  by_cases absolute : path.isAbsolute = true
  · rw [walk_absolute files absolute] at arrived ⊢
    have reached := (Option.filter_eq_some_iff.mp arrived).1
    exact (walkLinks_trace files linkLimit (namesOf path) {} Path.root).standing
      (standing_root files) real reached
  · simp only [Bool.not_eq_true] at absolute
    rw [walk_relative files absolute] at arrived
    cases arrived

theorem isAbsolute_iff_components (path : Path) :
    path.isAbsolute = true ↔ path.components.head? = some .rootDir := by
  unfold Path.components
  cases absolute : path.isAbsolute
  · simp only [Bool.false_eq_true, ↓reduceIte, false_iff]
    split
    · simp
    · intro first
      obtain ⟨piece, -, same⟩ := List.mem_filterMap.mp (List.mem_of_mem_head? first)
      revert same
      unfold Component.ofPiece
      split <;> [simp; split <;> [simp; split <;> simp]]
  · simp

theorem isAbsolute_of_beq {left right : Path} (same : (left == right) = true) :
    left.isAbsolute = right.isAbsolute := by
  apply Bool.eq_iff_iff.mpr
  rw [isAbsolute_iff_components, isAbsolute_iff_components, (Path.beq_iff _ _).mp same]

theorem namesOf_of_beq {left right : Path} (same : (left == right) = true) :
    namesOf left = namesOf right := by
  rw [namesOf, namesOf, (Path.beq_iff _ _).mp same]

theorem traverse_of_beq {left right : Path} (files : FileSystem) (same : (left == right) = true) :
    traverse files left = traverse files right := by
  simp only [traverse, walk, isAbsolute_of_beq same, namesOf_of_beq same]
  split <;> rfl

end Kakoi.RealPaths
