import Kakoi.Linux.WalkAgreement

/-! What a walk reports, whether or not it arrives, and where real paths lead. -/

namespace Kakoi.RealPaths

/-- A report that tells the truth about the file system. -/
structure Recorded (files : FileSystem) (traversal : Traversal) : Prop where
  places : ∀ directory ∈ traversal.directories, directory.Canonical
  named : traversal.links = traversal.targets.map Prod.fst
  truthful : ∀ pair ∈ traversal.targets, ∃ directory ∈ traversal.directories, ∃ name,
    Plain name ∧ pair.1 = directory.join ⟨name⟩ ∧ files.lookup directory name = .link pair.2

theorem recorded_empty (files : FileSystem) : Recorded files {} := by
  constructor <;> simp

theorem consult_targets (traversal : Traversal) (place : Path) :
    (consult traversal place).targets = traversal.targets := by
  unfold consult
  split <;> rfl

theorem Recorded.consulted (recorded : Recorded files traversal) (real : place.Canonical) :
    Recorded files (consult traversal place) where
  places := by
    intro directory member
    rcases (mem_consult recorded.places real).mp member with old | rfl
    · exact recorded.places directory old
    · exact real
  named := by rw [consult_links, consult_targets, recorded.named]
  truthful := by
    rw [consult_targets]
    intro pair member
    obtain ⟨directory, found, rest⟩ := recorded.truthful pair member
    exact ⟨directory, (mem_consult recorded.places real).mpr (.inl found), rest⟩

theorem Recorded.followed (recorded : Recorded files traversal)
    (behind : directory ∈ traversal.directories) (found : files.lookup directory name = .link target) :
    Recorded files (followed traversal (directory.join ⟨name⟩) target) where
  places := recorded.places
  named := by simp [RealPaths.followed, recorded.named]
  truthful := by
    intro pair member
    rcases mem_concat.mp member with old | new
    · exact recorded.truthful pair old
    · have plain : Plain name := files.plain_of_lookup directory (by simp [found])
      rw [new]
      exact ⟨directory, behind, name, plain, rfl, found⟩

theorem WalkTrace.recorded (trace : WalkTrace files links remaining traversal resolved final reached)
    (initial : Standing files traversal resolved) (recorded : Recorded files traversal) :
    Recorded files final := by
  induction trace with
  | done => exact recorded
  | blocked | missing | exhausted => exact recorded.consulted initial.real
  | here directory later ih =>
    exact ih (initial.consulted directory) (recorded.consulted initial.real)
  | up directory later ih =>
    exact ih (initial.consulted directory).up (recorded.consulted initial.real)
  | enter directory named found later ih =>
    exact ih ((initial.consulted directory).enter initial.here_mem found)
      (recorded.consulted initial.real)
  | follow directory named found later ih =>
    exact ih ((initial.consulted directory).follow initial.here_mem found)
      ((recorded.consulted initial.real).followed initial.here_mem found)

theorem traverse_recorded (files : FileSystem) (path : Path) : Recorded files (traverse files path) := by
  by_cases absolute : path.isAbsolute = true
  · rw [traverse, walk_absolute files absolute]
    exact (walkLinks_trace files linkLimit (namesOf path) {} Path.root).recorded
      (standing_root files) (recorded_empty files)
  · rw [traverse, walk_relative files (Bool.eq_false_iff.mpr absolute)]
    exact recorded_empty files

theorem target_of_traversed (member : place ∈ (traverse files path).links) :
    ∃ directory name target, Plain name ∧ directory.Canonical ∧ place = directory.join ⟨name⟩ ∧
      files.lookup directory name = .link target ∧ (place, target) ∈ (traverse files path).targets := by
  have recorded := traverse_recorded files path
  rw [recorded.named] at member
  obtain ⟨⟨link, target⟩, present, rfl⟩ := List.mem_map.mp member
  obtain ⟨directory, behind, name, plain, same, found⟩ := recorded.truthful _ present
  exact ⟨directory, name, target, plain, recorded.places directory behind, same, found, present⟩

theorem resolve_canonical (arrived : resolve files path = some real) : real.Canonical :=
  (walk_standing arrived).real

theorem present_of_realPath (arrived : realPath host path = some real) :
    host.entryAt real = .directory ∨ host.entryAt real = .other := by
  unfold realPath at arrived
  split at arrived
  · exact (walk_standing arrived).present
  · obtain ⟨directory, -, reached⟩ := Option.bind_eq_some_iff.mp arrived
    exact (walk_standing reached).present

theorem realEntry_path (host : Host) (path : Path) :
    (realEntry host path).path = realPath host path := by
  unfold realEntry
  cases arrived : realPath host path with
  | none => rfl
  | some real =>
    rcases present_of_realPath arrived with found | found <;> simp [found, RealEntry.path]

theorem realPath_canonical (arrived : realPath host path = some real) : real.Canonical := by
  unfold realPath at arrived
  split at arrived
  · exact resolve_canonical arrived
  · obtain ⟨directory, -, reached⟩ := Option.bind_eq_some_iff.mp arrived
    exact resolve_canonical reached

theorem realEntry_canonical (found : (realEntry host path).path = some real) : real.Canonical := by
  rw [realEntry_path] at found
  exact realPath_canonical found

end Kakoi.RealPaths
