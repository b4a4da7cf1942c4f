import Kakoi.Linux.CollectedFacts
import Kakoi.Plan.Placement

/-! When the checks on the protected paths accept, nothing rewritten inside the writable items
redirects one. -/

namespace Kakoi

open RealPaths

/-- The other file system has the same entries in every directory that is not at or
below a writable item. -/
def AgreesOutside (files other : FileSystem) (writable : List ResolvedItem) : Prop :=
  ∀ directory name, (∀ item ∈ writable, directory.startsWith item.real = false) →
    other.lookup directory name = files.lookup directory name

theorem holder_eq_none :
    holder writable place = none ↔ ∀ item ∈ writable, place.startsWith item.real = false := by
  simp [holder]

theorem checkPlace_ok :
    checkPlace writable complaint place = .ok () ↔
      ∀ item ∈ writable, place.startsWith item.real = false := by
  rw [← holder_eq_none, checkPlace]
  cases holder writable place <;> simp

/-- An accepted protected path has no existing prefix, no link and no directory of its
resolution at or below a writable item. -/
theorem checkPrefixes_ok :
    checkPrefixes path role writable facts = .ok () ↔
      (∀ above ∈ path.ancestors, ∀ real, (facts.entry above).path = some real →
        ∀ item ∈ writable, real.startsWith item.real = false) ∧
      (∀ link ∈ facts.traversedLinks path, ∀ item ∈ writable,
        link.startsWith item.real = false) ∧
      (∀ directory ∈ facts.visitedDirectories path, ∀ item ∈ writable,
        directory.startsWith item.real = false) := by
  simp only [checkPrefixes, Except.check_eq_ok, checkAll_ok, checkPlace_ok, List.mem_filterMap,
    forall_exists_index, and_imp]
  constructor
  · intro passed
    obtain ⟨above, links, directories⟩ := passed
    exact ⟨fun upper member real found => above real upper member found, links, directories⟩
  · intro passed
    obtain ⟨above, links, directories⟩ := passed
    exact ⟨fun real upper member found => above upper member real found, links, directories⟩

theorem checkProtectedPaths_ok
    (accepted : checkProtectedPaths guarded writable facts = .ok ()) :
    ∀ path ∈ guarded.paths, ∃ role, checkPrefixes path role writable facts = .ok () := by
  simp only [checkProtectedPaths, Except.check_eq_ok, checkAll_ok] at accepted
  obtain ⟨policyFiles, configDir, -, secrets, prepended, shared⟩ := accepted
  intro path member
  simp only [ProtectedPaths.paths, List.append_assoc, List.mem_append, List.mem_singleton,
    List.mem_map] at member
  rcases member with file | rfl | ⟨secret, listed, rfl⟩ | entry | place
  · exact ⟨_, policyFiles path file⟩
  · exact ⟨_, configDir⟩
  · exact ⟨_, secrets secret listed⟩
  · exact ⟨_, prepended path entry⟩
  · exact ⟨_, (shared path place).1⟩

/-- When the checks accept, every file system with the same entries outside the writable items walks
every protected path in the same way: the same links in order, the same directories, the same end.
-/
theorem protected_walks_unchanged (host : Host) (other : FileSystem) (items : List ResolvedItem)
    (guarded : ProtectedPaths) (expanded : ExpandedPolicy) (looked : List Path)
    (values : Variables) (workspace : Option Path) (more : List (List Path)) (requests : Candidates)
    (lookedUp : ∀ path ∈ guarded.paths, path ∈ looked)
    (accepted : checkProtectedPaths guarded (writableItems items)
      (collectGeneratorFacts host requests (collectPathFacts host
        (gatheredCandidates expanded looked values workspace more))) = .ok ())
    (agree : AgreesOutside host.toFileSystem other (writableItems items)) :
    ∀ path ∈ guarded.paths, walk other path = walk host.toFileSystem path := by
  intro path member
  obtain ⟨role, passed⟩ := checkProtectedPaths_ok accepted path member
  have walked : Among (gatheredCandidates expanded looked values workspace more).traversals path := by
    apply gathered_walked
    simp [candidateTraversals, lookedUp path member]
  obtain ⟨-, -, outside⟩ := checkPrefixes_ok.mp passed
  apply walk_agrees
  intro directory visited name
  apply agree
  apply outside
  rw [MountFacts.visitedDirectories, (collectGeneratorFacts_walks ..).2.1,
    collectPathFacts_directories walked, Option.getD_some]
  exact visited

/-- Rows put in front of a table change only the directories they name. -/
theorem ofTable_agreesOutside (table added : List FileSystem.Row)
    (plain : ∀ row ∈ table, Plain row.name) (addedPlain : ∀ row ∈ added ++ table, Plain row.name)
    (inside : ∀ row ∈ added, ∃ item ∈ writable, row.directory.startsWith item.real = true) :
    AgreesOutside (.ofTable table plain) (.ofTable (added ++ table) addedPlain) writable := by
  intro directory name outside
  have untouched : (added.find? fun row => decide (row.directory = directory ∧ row.name = name)) =
      none := by
    apply List.find?_eq_none.mpr
    intro row member found
    obtain ⟨item, writes, below⟩ := inside row member
    have same : row.directory = directory := (of_decide_eq_true found).1
    rw [same, outside item writes] at below
    cases below
  simp only [FileSystem.ofTable, FileSystem.find, List.find?_append, untouched, Option.none_or]

/-- A configuration directory reached through a relative link, beside a work place. -/
def linkedRows : List FileSystem.Row :=
  [⟨Path.root, utf8 "etc", .directory⟩,
   ⟨Path.ofString "/etc", utf8 "kakoi", .link (Path.ofString "../home/kakoi/.")⟩,
   ⟨Path.root, utf8 "home", .directory⟩,
   ⟨Path.ofString "/home", utf8 "kakoi", .directory⟩,
   ⟨Path.root, utf8 "w", .directory⟩]

def redirectedRows : List FileSystem.Row :=
  [⟨Path.ofString "/w", utf8 "etc", .link (Path.ofString "/etc")⟩]

def linkedHost : Host :=
  { FileSystem.ofTable linkedRows (by decide +kernel) with
    currentDir := none
    mountList := none }

def redirectedFiles : FileSystem :=
  .ofTable (redirectedRows ++ linkedRows) (by decide +kernel)

def workItem : ResolvedItem where
  directive := .rw
  real := Path.ofString "/w"
  kind := .directory
  origin := .written .commandLine
  written := [Path.ofString "/w"]

def linkedConfig : ProtectedPaths := { configDir := Path.ofString "/etc/kakoi" }

def workValues : Variables := { workspace := Path.ofString "/w", worktree := Path.ofString "/w" }

theorem linkedConfig_walk_unchanged :
    (walk redirectedFiles (Path.ofString "/etc/kakoi")).2 = some (Path.ofString "/home/kakoi") ∧
      walk redirectedFiles (Path.ofString "/etc/kakoi") =
        walk linkedHost.toFileSystem (Path.ofString "/etc/kakoi") := by
  refine ⟨by decide +kernel, ?_⟩
  refine protected_walks_unchanged linkedHost redirectedFiles [workItem] linkedConfig {}
    linkedConfig.paths workValues none [] {} (fun _ member => member) (by decide +kernel) ?_ _
    (by simp [ProtectedPaths.paths, linkedConfig])
  exact ofTable_agreesOutside linkedRows redirectedRows (by decide +kernel) (by decide +kernel)
    (by decide +kernel)

end Kakoi
