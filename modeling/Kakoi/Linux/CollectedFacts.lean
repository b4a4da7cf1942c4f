import Kakoi.Linux.MountFacts
import Kakoi.Linux.WalkRecord

/-! What the collected facts answer: a path by the one spelling of it that was kept, a walked path
by its own walk. -/

namespace Kakoi

open RealPaths

/-- One spelling of the path is in the list. -/
def Among (paths : List Path) (path : Path) : Prop := ∃ kept ∈ paths, (kept == path) = true

theorem among_of_mem (member : path ∈ paths) : Among paths path :=
  ⟨path, member, Path.beq_self path⟩

theorem among_distinctPaths (among : Among paths path) : Among (distinctPaths paths) path := by
  obtain ⟨given, member, same⟩ := among
  obtain ⟨kept, present, equal⟩ := distinctPaths_represents member
  exact ⟨kept, present, Path.beq_trans equal same⟩

/-- The front of a list may be kept with one spelling each. -/
theorem among_distinct_front (among : Among (front ++ back) path) :
    Among (distinctPaths front ++ back) path := by
  obtain ⟨given, member, same⟩ := among
  rcases List.mem_append.mp member with ahead | behind
  · obtain ⟨kept, present, equal⟩ := among_distinctPaths ⟨given, ahead, same⟩
    exact ⟨kept, List.mem_append_left _ present, equal⟩
  · exact ⟨given, List.mem_append_right _ behind, same⟩

theorem mem_of_mem_distinct_front (member : path ∈ distinctPaths front ++ back) :
    path ∈ front ++ back := by
  rcases List.mem_append.mp member with ahead | behind
  · exact List.mem_append_left _ (mem_of_mem_distinctPaths ahead)
  · exact List.mem_append_right _ behind

/-- Of every path to look up, one spelling is given. -/
def Candidates.Distinct (wanted : Candidates) : Prop :=
  ∀ path ∈ wanted.paths, ∀ other ∈ wanted.paths, (path == other) = true → path = other

theorem candidates_distinct (expanded : ExpandedPolicy) (guarded : List Path) (values : Variables)
    (workspace : Option Path) : (candidates expanded guarded values workspace).Distinct :=
  fun _ left _ right same => distinctPaths_unique left right same

theorem withWalked_distinct (wanted : Candidates) (more : List Path) :
    (wanted.withWalked more).Distinct :=
  fun _ left _ right same => distinctPaths_unique left right same

section PathFacts

variable {host : Host}

theorem collectPathFacts_entry (distinct : wanted.Distinct) (member : kept ∈ wanted.paths)
    (same : (path == kept) = true) : (collectPathFacts host wanted).entry path = realEntry host kept := by
  have found : (collectPathFacts host wanted).paths path = some (realEntry host kept) :=
    PathMap.insertAll_unique distinct member same
  rw [MountFacts.entry, found, Option.getD_some]

/-- What is read off a walk is found under every spelling of a path that was walked. -/
theorem gathered_walk (view : Traversal → α) (walked : Among paths path) :
    PathMap.empty.insertAll (fun path => view (traverse host.toFileSystem path)) paths path =
      some (view (traverse host.toFileSystem path)) := by
  obtain ⟨kept, member, same⟩ := walked
  have congruent : ∀ left right, (left == right) = true →
      view (traverse host.toFileSystem left) = view (traverse host.toFileSystem right) :=
    fun _ _ equal => by rw [traverse_of_beq host.toFileSystem equal]
  exact PathMap.insertAll_congr congruent member (Path.beq_symm same)

theorem collectPathFacts_links (walked : Among wanted.traversals path) :
    (collectPathFacts host wanted).links path = some (traverse host.toFileSystem path).links :=
  gathered_walk Traversal.links walked

theorem collectPathFacts_directories (walked : Among wanted.traversals path) :
    (collectPathFacts host wanted).directories path =
      some (traverse host.toFileSystem path).directories :=
  gathered_walk Traversal.directories walked

/-- The target recorded for a link that a walk followed is the one it holds. -/
theorem collectPathFacts_target (walked : Among wanted.traversals path)
    (followed : place ∈ (traverse host.toFileSystem path).links) :
    ∃ directory name target, directory.Canonical ∧ Plain name ∧ place = directory.join ⟨name⟩ ∧
      host.lookup directory name = .link target ∧
      (collectPathFacts host wanted).linkTargets place = some target := by
  obtain ⟨directory, name, target, plain, real, rfl, found, recorded⟩ := target_of_traversed followed
  refine ⟨directory, name, target, real, plain, rfl, found, ?_⟩
  obtain ⟨kept, member, same⟩ := walked
  rw [← traverse_of_beq host.toFileSystem same] at recorded
  have cases := PathMap.extend_cases PathMap.empty
    (wanted.traversals.flatMap fun path => (traverse host.toFileSystem path).targets)
    (directory.join ⟨name⟩)
  rcases cases with ⟨pair, inside, equal, answer⟩ | ⟨apart, -⟩
  · obtain ⟨other, -, listed⟩ := List.mem_flatMap.mp inside
    have truth := traverse_recorded host.toFileSystem other
    obtain ⟨parent, behind, last, lastPlain, joined, holds⟩ := truth.truthful pair listed
    rw [joined] at equal
    have joinedSame := ((real.join plain).beq_iff_eq
      ((truth.places parent behind).join lastPlain)).mp equal
    have sameEntry : host.entryAt (directory.join ⟨name⟩) = .link pair.2 := by
      rw [joinedSame, host.entryAt_join (truth.places parent behind) lastPlain, holds]
    rw [host.entryAt_join real plain, found] at sameEntry
    rw [Node.link.inj sameEntry]
    exact answer
  · have listed : (directory.join ⟨name⟩, target) ∈
        wanted.traversals.flatMap fun path => (traverse host.toFileSystem path).targets :=
      List.mem_flatMap.mpr ⟨kept, member, recorded⟩
    have different := apart _ listed
    rw [Path.beq_self] at different
    cases different

end PathFacts

/-- The paths gathered for the policy, with further lists of paths to look up. -/
def gatheredPaths (expanded : ExpandedPolicy) (looked : List Path) (values : Variables)
    (more : List (List Path)) : List Path :=
  candidatePaths expanded looked values ++ more.flatten

def gatheredCandidates (expanded : ExpandedPolicy) (looked : List Path) (values : Variables)
    (workspace : Option Path) (more : List (List Path)) : Candidates :=
  more.foldl Candidates.withWalked (candidates expanded looked values workspace)

theorem allWalked_paths (distinct : wanted.Distinct) (more : List (List Path)) :
    (more.foldl Candidates.withWalked wanted).Distinct ∧
      (∀ path, Among (wanted.paths ++ more.flatten) path →
        Among (more.foldl Candidates.withWalked wanted).paths path) ∧
      ∀ path ∈ (more.foldl Candidates.withWalked wanted).paths, path ∈ wanted.paths ++ more.flatten := by
  induction more generalizing wanted with
  | nil => simpa using distinct
  | cons first rest ih =>
    obtain ⟨later, covers, among⟩ := ih (withWalked_distinct wanted first)
    refine ⟨later, ?_, ?_⟩
    · intro path given
      apply covers
      rw [List.flatten_cons, ← List.append_assoc] at given
      exact among_distinct_front given
    · intro path member
      rw [List.flatten_cons, ← List.append_assoc]
      exact mem_of_mem_distinct_front (among path member)

/-- Each path gathered is answered by a spelling of it that was gathered too. -/
theorem gathered_entry (host : Host) (workspace : Option Path)
    (member : path ∈ gatheredPaths expanded looked values more) :
    ∃ kept ∈ gatheredPaths expanded looked values more, (kept == path) = true ∧
      ∀ other, (other == path) = true →
        (collectPathFacts host (gatheredCandidates expanded looked values workspace more)).entry other =
          realEntry host kept := by
  obtain ⟨distinct, covers, among⟩ :=
    allWalked_paths (candidates_distinct expanded looked values workspace) more
  obtain ⟨kept, found, same⟩ := covers path (among_distinct_front (among_of_mem member))
  refine ⟨kept, mem_of_mem_distinct_front (among kept found), same, fun other equal => ?_⟩
  exact collectPathFacts_entry distinct found (Path.beq_trans equal (Path.beq_symm same))

theorem allWalked_walked {wanted : Candidates} {more : List (List Path)}
    (among : Among (wanted.traversals ++ more.flatten) path) :
    Among (more.foldl Candidates.withWalked wanted).traversals path := by
  induction more generalizing wanted with
  | nil => simpa using among
  | cons first rest ih =>
    rw [List.flatten_cons, ← List.append_assoc] at among
    exact ih (among_distinct_front among)

theorem gathered_walked (expanded : ExpandedPolicy) (values : Variables)
    (member : path ∈ candidateTraversals expanded looked workspace ++ more.flatten) :
    Among (gatheredCandidates expanded looked values workspace more).traversals path :=
  allWalked_walked (among_distinct_front (among_of_mem member))

section GeneratorFacts

variable (host : Host) (wanted : Candidates) (facts : MountFacts)

/-- The facts of the generators leave what was found of the paths. -/
@[simp]
theorem collectGeneratorFacts_walks :
    (collectGeneratorFacts host wanted facts).links = facts.links ∧
      (collectGeneratorFacts host wanted facts).directories = facts.directories ∧
      (collectGeneratorFacts host wanted facts).linkTargets = facts.linkTargets := by
  unfold collectGeneratorFacts collectMountList collectScans
  split
  · exact ⟨rfl, rfl, rfl⟩
  · cases host.mountList <;> exact ⟨rfl, rfl, rfl⟩

end GeneratorFacts

end Kakoi
