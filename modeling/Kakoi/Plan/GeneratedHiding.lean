import Kakoi.Linux.CollectedFacts
import Kakoi.Plan.Generation
import Kakoi.Plan.Isolation

/-! Whatever the policy layers write, generated hiding wins. -/

namespace Kakoi

open RealPaths

/-- Facts that a file system can give: what exists is named by its real path. -/
structure Grounded (facts : MountFacts) : Prop where
  entries : ∀ path real, (facts.entry path).path = some real → real.Canonical
  hits : ∀ hit ∈ facts.scanHits, ∀ real, hit.target.path = some real → real.Canonical

theorem collectPathFacts_grounded (host : Host) (wanted : Candidates) :
    Grounded (collectPathFacts host wanted) where
  entries := by
    intro path real found
    rcases PathMap.insertAll_cases PathMap.empty (realEntry host) wanted.paths path with
      ⟨key, -, -, answer⟩ | ⟨-, answer⟩
    · have there : (realEntry host key).path = some real := by
        simpa [MountFacts.entry, collectPathFacts, answer] using found
      exact realEntry_canonical there
    · simp [MountFacts.entry, collectPathFacts, answer, PathMap.empty, RealEntry.path] at found
  hits := by
    intro hit member
    cases member

theorem scanBelow_target (member : hit ∈ scanBelow host request depth directory) :
    hit.target = realEntry host hit.foundAt := by
  induction depth generalizing directory with
  | zero => cases member
  | succ depth ih =>
    obtain ⟨name, -, inside⟩ := List.mem_flatMap.mp member
    rcases List.mem_append.mp inside with here | below
    · split at here
      · cases List.mem_singleton.mp here
        rfl
      · cases here
    · split at below
      · exact ih below
      · cases below

theorem scan_target (member : hit ∈ scan host request root) :
    hit.target = realEntry host hit.foundAt := by
  unfold scan at member
  split at member
  · exact scanBelow_target member
  · cases member

theorem collectScans_grounded (grounded : Grounded facts) (host : Host) (wanted : Candidates) :
    Grounded (collectScans host wanted facts) where
  entries := grounded.entries
  hits := by
    intro hit member real found
    rcases List.mem_append.mp member with old | new
    · exact grounded.hits hit old real found
    · obtain ⟨request, -, inside⟩ := List.mem_flatMap.mp new
      obtain ⟨root, -, scanned⟩ := List.mem_flatMap.mp inside
      rw [scan_target scanned] at found
      exact realEntry_canonical found

theorem collectMountList_grounded (grounded : Grounded facts) (host : Host) (wanted : Candidates) :
    Grounded (collectMountList host wanted facts) := by
  have looked : ∀ (targets : List Path) path real,
      (((facts.paths.insertAll (realEntry host) targets) path).getD .missing).path = some real →
        real.Canonical := by
    intro targets path real found
    rcases PathMap.insertAll_cases facts.paths (realEntry host) targets path with
      ⟨key, -, -, answer⟩ | ⟨-, answer⟩
    · rw [answer, Option.getD_some] at found
      exact realEntry_canonical found
    · rw [answer] at found
      exact grounded.entries path real found
  unfold collectMountList
  split
  · exact grounded
  · cases host.mountList with
    | none => exact ⟨looked _, grounded.hits⟩
    | some mounts => exact ⟨looked _, grounded.hits⟩

/-- The facts a start collects are of this kind. -/
theorem collectFacts_grounded (collected : collectFacts host inputs = .ok facts) : Grounded facts := by
  unfold collectFacts at collected
  obtain ⟨generators, -, collected⟩ := Except.bind_eq_ok.mp collected
  cases collected
  exact collectMountList_grounded
    (collectScans_grounded (collectPathFacts_grounded host _) host _) host _

/-- The real paths that must be hidden, given the generators that apply and the written
items. -/
inductive MustHide (generating : ExpandedPolicy) (layers : List Layer) (values : Variables)
    (written : List ResolvedItem) (facts : MountFacts) : Path → Prop where
  | secretFile (named : (name, Expansion.path path) ∈ generating.secrets.toList)
      (found : (facts.entry path).path = some real) : MustHide generating layers values written facts real
  | configSecrets (configured : values.configDir = some directory)
      (found : (facts.entry (directory.join (Path.ofString "secrets"))).path = some real) :
      MustHide generating layers values written facts real
  | mount (member : hide ∈ generating.hideMounts) (expansion : hide.under = .path under)
      (top : (facts.entry under).path = some place) (listed : mount ∈ facts.mounts)
      (below : mount.target.startsWith place = true) (type : mount.fstype ∈ hide.fstype)
      (elsewhere : ∀ chosen ∈ workPlaces values, (mount.target == chosen) = false)
      (found : (facts.entry mount.target).path = some real) :
      MustHide generating layers values written facts real
  | scanHit (listed : hit ∈ facts.scanHits) (found : hit.target = .notDirectory real)
      (unread : ∀ file ∈ (policySources layers facts).filterMap PolicySource.path,
        (real == file) = false)
      (outside : hit.isLink = true → ∀ item ∈ written, item.directive = .ro →
        real.startsWith item.real = false) : MustHide generating layers values written facts real

theorem contains_eq_false {paths : List Path} (apart : ∀ other ∈ paths, (path == other) = false) :
    paths.contains path = false := by
  induction paths with
  | nil => rfl
  | cons first rest ih =>
    rw [List.contains_cons, apart first List.mem_cons_self, Bool.false_or]
    exact ih fun other member => apart other (List.mem_cons_of_mem first member)

section Generated

variable {written result : ResolvedMounts}

/-- What is generated for a path that must be hidden. -/
theorem mustHide_generated (scanned : scanItems written.items layers facts swappableRo = .ok hits)
    (mounts : hideMountsItems generating values facts = .ok made)
    (must : MustHide generating layers values written.items facts real) :
    ∃ item ∈ hits.hidden ++ made ++ secretItems generating values facts, item.real = real := by
  cases must with
  | secretFile named found =>
    obtain ⟨item, member, same⟩ := secretItems_secret values named found
    exact ⟨item, List.mem_append_right _ member, same⟩
  | configSecrets configured found =>
    obtain ⟨item, member, same⟩ := secretItems_config generating
      (show Kakoi.configSecrets values = some _ by simp [Kakoi.configSecrets, configured]) found
    exact ⟨item, List.mem_append_right _ member, same⟩
  | mount member expansion top listed below type elsewhere found =>
    obtain ⟨item, present, same⟩ := (hideMountsItems_ok mounts).2 _ member _ _ expansion top _ listed
      (by simp [hiddenMount, below, type, contains_eq_false elsewhere]) _ found
    exact ⟨item, List.mem_append_left _ (List.mem_append_right _ present), same⟩
  | scanHit listed found unread outside =>
    rename_i hit
    have around : containingRo written.items hit real = [] := by
      apply List.filter_eq_nil_iff.mpr
      intro item member
      cases link : hit.isLink with
      | false => simp
      | true =>
        by_cases ro : item.directive = .ro
        · simp [outside link item member ro]
        · simp [ro]
    obtain ⟨-, -, complete⟩ := scanHits_ok scanned
    obtain ⟨item, member, same⟩ := complete hit
      ((List.perm_insertionSort byPlaceFound facts.scanHits).mem_iff.mpr listed) real found
      (contains_eq_false unread) around
    exact ⟨item, List.mem_append_left _ (List.mem_append_left _ member), same⟩

theorem generated_hides (scanned : scanItems written.items layers facts swappableRo = .ok hits)
    (mounts : hideMountsItems generating values facts = .ok made)
    (member : item ∈ hits.hidden ++ made ++ secretItems generating values facts) :
    item.directive = .hide ∧ ((∃ hit ∈ facts.scanHits, Hides hit.target item) ∨
      ∃ path, Hides (facts.entry path) item) := by
  rw [List.mem_append, List.mem_append] at member
  rcases member with (hit | mount) | secret
  · obtain ⟨-, sources, -⟩ := scanHits_ok scanned
    rcases sources item hit with none | ⟨found, listed, hides, -⟩
    · cases none
    · have present := (List.perm_insertionSort byPlaceFound facts.scanHits).mem_iff.mp listed
      exact ⟨hides.hide, .inl ⟨found, present, hides⟩⟩
  · obtain ⟨hide, chosen, -, hides⟩ := (hideMountsItems_ok mounts).1 item mount
    exact ⟨hide, .inr ⟨chosen.target, hides⟩⟩
  · obtain ⟨hide, path, hides⟩ := secretItems_hides secret
    exact ⟨hide, .inr ⟨path, hides⟩⟩

theorem generated_canonical (grounded : Grounded facts)
    (source : (∃ hit ∈ facts.scanHits, Hides hit.target item) ∨ ∃ path, Hides
    (facts.entry path) item) : item.real.Canonical := by
  rcases source with ⟨hit, listed, hides⟩ | ⟨path, hides⟩
  · exact grounded.hits hit listed item.real hides.real
  · exact grounded.entries path item.real hides.real

/-- What `generate` lays is in mount order, and hides every path that must be hidden. -/
theorem generate_hides (grounded : Grounded facts)
    (resolved : resolveWritten expanded facts = .ok written)
    (accepted : generate written generating layers values facts swappableRo = .ok result) :
    Ordered result.items ∧ ∀ real, MustHide generating layers values written.items facts real →
      ∃ item ∈ result.items, item.directive = .hide ∧ item.real = real := by
  obtain ⟨hits, made, scanned, mounts, same, -⟩ := generate_ok accepted
  have before := resolveWritten_result resolved
  have hides : ∀ item ∈ hits.hidden ++ made ++ secretItems generating values facts, _ :=
    fun item member => generated_hides scanned mounts member
  have writtenReal : ∀ item ∈ written.items, item.real.Canonical := by
    intro item member
    obtain ⟨candidate, inForms, -, applies⟩ := (before.stands item).mp member
    obtain ⟨form, -, path, -, rfl⟩ := mem_forms.mp inForms
    exact grounded.entries path item.real (candidateOf_item applies).2.2.1
  rw [same]
  constructor
  · apply sortItems_ordered (lay_distinct before.distinct _)
    intro item member
    rcases mem_lay before.distinct member with new | ⟨old, -⟩
    · exact generated_canonical grounded (hides item new).2
    · exact writtenReal item old
  · intro real must
    obtain ⟨new, member, here⟩ := mustHide_generated scanned mounts must
    obtain ⟨item, laid, generated, samePlace⟩ := lay_generated before.distinct member
    refine ⟨item, mem_sortItems.mpr laid, (hides item generated).1, ?_⟩
    have itemReal := generated_canonical grounded (hides item generated).2
    have newReal := generated_canonical grounded (hides new member).2
    have equal : (item.real == new.real) = true := (Path.beq_iff _ _).mpr samePlace
    rw [← here, (itemReal.beq_iff_eq newReal).mp equal]

end Generated

theorem isolation_ordered (grounded : Grounded facts)
    (accepted : resolveIsolation inputs { mounts := facts, secrets } = .ok isolation) :
    Ordered isolation.mounts.items := by
  obtain ⟨laid, warnings, placed, -, sameMounts, -⟩ := resolveIsolation_ok accepted
  obtain ⟨written, generated, resolved, -, made, rfl⟩ := resolveMounts_ok placed
  obtain ⟨ordered, -⟩ := generate_hides grounded resolved made
  rw [sameMounts, layListed]
  split
  · exact ordered.filter _
  · exact ordered

def shownSecretsRows : List FileSystem.Row :=
  [⟨Path.root, utf8 "cfg", .directory⟩,
   ⟨Path.ofString "/cfg", utf8 "secrets", .directory⟩,
   ⟨Path.ofString "/cfg/secrets", utf8 "token", .other⟩,
   ⟨Path.root, utf8 "w", .directory⟩]

def shownSecretsHost : Host :=
  { FileSystem.ofTable shownSecretsRows (by decide +kernel) with
    currentDir := some (Path.ofString "/w")
    mountList := none }

/-- A policy that writes `ro` for `secrets/` itself. -/
def shownSecretsInputs : Inputs :=
  { workplaceInputs with
    expanded := { mounts := workplaceInputs.expanded.mounts ++
      [.absolute .ro .commandLine "/cfg/secrets"] }
    values := { workplaceInputs.values with configDir := some (Path.ofString "/cfg") } }

def shownSecretsFacts : MountFacts :=
  collectGeneratorFacts shownSecretsHost (wantedCandidates shownSecretsInputs)
    (collectPathFacts shownSecretsHost (wantedCandidates shownSecretsInputs))

theorem shownSecrets_collected :
    collectFacts shownSecretsHost shownSecretsInputs = .ok shownSecretsFacts := rfl

theorem shownSecrets_accepted : ∃ isolation,
    resolveIsolation shownSecretsInputs { mounts := shownSecretsFacts } = .ok isolation := by
  decide +kernel

end Kakoi
