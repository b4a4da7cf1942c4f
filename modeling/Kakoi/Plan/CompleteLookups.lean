import Kakoi.Linux.FaithfulFacts
import Kakoi.Plan.Lookups

/-! The list of paths a start looks up is complete: facts that answer all of them lead to the same
result. -/

namespace Kakoi

open RealPaths

namespace Alike

variable {inputs : Inputs}

section Listed

variable (listed : inputs.policy.mountsMode = .listed)

include listed

theorem base_gathered (system : inputs.policy.mountsSystem = true)
    (member : text ∈ baseDirectories) : Path.ofString text ∈ listedLookups inputs.policy := by
  simp only [listedLookups, listed, rootLookups, system, ne_eq, not_true_eq_false, ↓reduceIte,
    List.mem_append]
  exact .inl (List.mem_map_of_mem member)

theorem resolver_gathered (system : inputs.policy.mountsSystem = true) :
    resolver ∈ listedLookups inputs.policy := by
  simp [listedLookups, listed, rootLookups, system]

theorem presentBase_walked
    (member : path ∈ (presentBase inputs.policy.mountsSystem facts).map Prod.fst) :
    path ∈ walkedPaths inputs := by
  obtain ⟨pair, present, rfl⟩ := List.mem_map.mp member
  unfold presentBase at present
  split at present
  · rename_i system
    obtain ⟨text, base, made⟩ := List.mem_filterMap.mp present
    split at made
    · cases made
      exact walked_listed (base_gathered listed system base)
    · cases made
    · cases made
  · cases present

/-- The resolver's entry is read only where the resolver is followed, and then it was
looked up. -/
theorem resolver_of_followed
    (followed : resolverFollowed inputs.policy.mountsSystem networkMode total = true) :
    resolver ∈ listedLookups inputs.policy := by
  unfold resolverFollowed at followed
  simp only [Bool.and_eq_true] at followed
  exact resolver_gathered listed followed.1.1

end Listed

/-- The generators chosen keep the secrets and take their places from the policy's. -/
theorem chosenGenerators_within (inputs : Inputs) (facts : MountFacts) (written : ResolvedMounts) :
    (chosenGenerators inputs facts written).1.secrets = inputs.expanded.secrets ∧
      ∀ hide ∈ (chosenGenerators inputs facts written).1.hideMounts,
        hide ∈ inputs.expanded.hideMounts := by
  unfold chosenGenerators
  split
  · exact ⟨rfl, fun hide member => (List.mem_filter.mp member).1⟩
  · exact ⟨rfl, fun _ member => member⟩

variable (alike : Alike inputs facts total)

include alike

/-- The links of paths that are walked are made again alike. -/
theorem rebuiltLinks_eq {walked : List Path} (within : ∀ path ∈ walked, path ∈ walkedPaths inputs)
    (places : List Path) :
    (walked.flatMap facts.traversedLinks).foldl (rebuildLink facts places) [] =
      (walked.flatMap total.traversedLinks).foldl (rebuildLink total places) [] := by
  have same : walked.flatMap facts.traversedLinks = walked.flatMap total.traversedLinks :=
    List.flatMap_congr fun path member => alike.links path (within path member)
  rw [same]
  apply List.foldl_ext
  intro links place member
  obtain ⟨path, listed, inside⟩ := List.mem_flatMap.mp member
  simp only [rebuildLink, alike.targets path (within path listed) place inside]

theorem writtenShown_eq (shown : List Path) :
    ((inputs.expanded.mounts.filter (·.directive ≠ .hide)).filterMap (·.path.path?)).filter
        (fun path => (facts.entry path).path.any fun real => shown.contains real) =
      ((inputs.expanded.mounts.filter (·.directive ≠ .hide)).filterMap (·.path.path?)).filter
        fun path => (total.entry path).path.any fun real => shown.contains real := by
  apply List.filter_congr
  intro path member
  obtain ⟨item, kept, expansion⟩ := List.mem_filterMap.mp member
  have mounted : path ∈ inputs.expanded.mountPaths :=
    List.mem_filterMap.mpr ⟨item, (List.mem_filter.mp kept).1, expansion⟩
  rw [alike.entry path (looked_mount mounted)]

theorem unshown_eq (root : ListedRoot)
    (looked : ∀ path, expansion.path? = some path → path ∈ lookedPaths inputs) :
    unshown facts root expansion = unshown total root expansion := by
  unfold unshown
  cases expanded : expansion.path? with
  | none => rfl
  | some path => simp only [Option.any_some, alike.entry path (looked path expanded)]

theorem shownGenerators_eq (root : ListedRoot) :
    shownGenerators inputs.expanded facts root = shownGenerators inputs.expanded total root := by
  have scans : ∀ scan ∈ inputs.expanded.scans,
      unshown facts root scan.root = unshown total root scan.root := fun scan member =>
    alike.unshown_eq root fun _ expanded =>
      looked_scanRoot (List.mem_filterMap.mpr ⟨scan, member, expanded⟩)
  have hides : ∀ hide ∈ inputs.expanded.hideMounts,
      unshown facts root hide.under = unshown total root hide.under := fun hide member =>
    alike.unshown_eq root fun _ expanded =>
      looked_under (List.mem_filterMap.mpr ⟨hide, member, expanded⟩)
  have keptScans : inputs.expanded.scans.filter (fun scan => !unshown facts root scan.root) =
      inputs.expanded.scans.filter fun scan => !unshown total root scan.root :=
    List.filter_congr fun scan member => congrArg not (scans scan member)
  have keptHides : inputs.expanded.hideMounts.filter (fun hide => !unshown facts root hide.under) =
      inputs.expanded.hideMounts.filter fun hide => !unshown total root hide.under :=
    List.filter_congr fun hide member => congrArg not (hides hide member)
  simp only [shownGenerators, keptScans, keptHides, List.filter_congr scans, List.filter_congr hides]

section Root

variable (listed : inputs.policy.mountsMode = .listed)

include listed

theorem presentBase_eq :
    presentBase inputs.policy.mountsSystem facts = presentBase inputs.policy.mountsSystem total := by
  unfold presentBase
  split
  · rename_i system
    apply List.filterMap_congr
    intro text member
    rw [alike.entry _ (looked_listed (base_gathered listed system member))]
  · rfl

theorem skippedBase_eq :
    skippedBase inputs.policy.mountsSystem facts = skippedBase inputs.policy.mountsSystem total := by
  unfold skippedBase
  split
  · rename_i system
    apply List.filterMap_congr
    intro text member
    rw [alike.entry _ (looked_listed (base_gathered listed system member))]
  · rfl

theorem resolverFollowed_eq (networkMode : NetworkMode) :
    resolverFollowed inputs.policy.mountsSystem networkMode facts =
      resolverFollowed inputs.policy.mountsSystem networkMode total := by
  unfold resolverFollowed
  cases system : inputs.policy.mountsSystem with
  | false => rfl
  | true => rw [alike.links _ (walked_listed (resolver_gathered listed system))]

theorem filteredResolverOf_eq :
    filteredResolverOf inputs.policy.mountsSystem facts =
      filteredResolverOf inputs.policy.mountsSystem total := by
  unfold filteredResolverOf
  cases system : inputs.policy.mountsSystem with
  | false => rfl
  | true =>
    have gathered := resolver_gathered listed system
    have target : (total.traversedLinks resolver).getLast?.bind facts.linkTargets =
        (total.traversedLinks resolver).getLast?.bind total.linkTargets := by
      cases last : (total.traversedLinks resolver).getLast? with
      | none => rfl
      | some link =>
        exact alike.targets resolver (walked_listed gathered) link (List.mem_of_getLast? last)
    simp only [alike.entry _ (looked_listed gathered), alike.links _ (walked_listed gathered), target]

theorem listedRootOf_eq (items : List ResolvedItem) :
    listedRootOf inputs items facts = listedRootOf inputs items total := by
  have outside : ((facts.entry resolver).path.filter fun real =>
      resolverFollowed inputs.policy.mountsSystem inputs.policy.networkMode total &&
        !covered real ((presentBase inputs.policy.mountsSystem total).map Prod.snd)) =
      (total.entry resolver).path.filter fun real =>
      resolverFollowed inputs.policy.mountsSystem inputs.policy.networkMode total &&
        !covered real ((presentBase inputs.policy.mountsSystem total).map Prod.snd) := by
    cases followed : resolverFollowed inputs.policy.mountsSystem inputs.policy.networkMode total with
    | false => simp
    | true => rw [alike.entry _ (looked_listed (resolver_of_followed listed followed))]
  have dangling : (resolverFollowed inputs.policy.mountsSystem inputs.policy.networkMode total &&
      (facts.entry resolver = .missing : Bool)) =
      (resolverFollowed inputs.policy.mountsSystem inputs.policy.networkMode total &&
        (total.entry resolver = .missing : Bool)) := by
    cases followed : resolverFollowed inputs.policy.mountsSystem inputs.policy.networkMode total with
    | false => rfl
    | true => rw [alike.entry _ (looked_listed (resolver_of_followed listed followed))]
  simp only [listedRootOf, listedRoot, alike.presentBase_eq listed, alike.skippedBase_eq listed,
    alike.resolverFollowed_eq listed, alike.filteredResolverOf_eq listed, alike.writtenShown_eq,
    outside, dangling]
  rw [alike.rebuiltLinks_eq]
  intro path member
  simp only [List.mem_append] at member
  rcases member with (base | written) | resolved
  · exact presentBase_walked listed base
  · obtain ⟨item, kept, expansion⟩ := List.mem_filterMap.mp (List.mem_filter.mp written).1
    exact walked_mount (List.mem_filterMap.mpr ⟨item, (List.mem_filter.mp kept).1, expansion⟩)
  · split at resolved
    · rename_i reached
      obtain ⟨real, found⟩ := Option.isSome_iff_exists.mp reached
      have followed := (Option.filter_eq_some_iff.mp found).2
      rw [Bool.and_eq_true] at followed
      cases List.mem_singleton.mp resolved
      exact walked_listed (resolver_of_followed listed followed.1)
    · cases resolved

theorem listedGenerators_eq (written : ResolvedMounts) :
    listedGenerators inputs facts written = listedGenerators inputs total written := by
  simp only [listedGenerators, alike.listedRootOf_eq listed, alike.shownGenerators_eq]

end Root

theorem generatingPolicy_eq : generatingPolicy inputs facts = generatingPolicy inputs total := by
  unfold generatingPolicy
  by_cases listed : inputs.policy.mountsMode = .listed
  · simp only [alike.resolveWritten_eq, alike.listedGenerators_eq listed]
  · simp only [listed, ne_eq, not_false_eq_true, ↓reduceIte]

theorem chosenGenerators_eq (written : ResolvedMounts) :
    chosenGenerators inputs facts written = chosenGenerators inputs total written := by
  unfold chosenGenerators
  split
  · rename_i listed
    exact alike.listedGenerators_eq listed written
  · rfl

end Alike

/-- What was gathered for the generators is the same, and every mount target one of them
hides is answered alike. -/
structure AlikeGenerated (generating : ExpandedPolicy) (facts total : MountFacts) : Prop where
  hits : facts.scanHits = total.scanHits
  mounts : facts.mounts = total.mounts
  unreadable : facts.mountListUnreadable = total.mountListUnreadable
  targets : ∀ hide ∈ generating.hideMounts, ∀ under top, hide.under.path? = some under →
    (total.entry under).path = some top → ∀ mount ∈ total.mounts,
      mount.target.startsWith top = true → facts.entry mount.target = total.entry mount.target

namespace Alike

theorem guardedPaths_within (inputs : Inputs) (items : List ResolvedItem) :
    ∀ path ∈ (guardedPaths inputs items).paths, path ∈ lookedUpPaths inputs := by
  intro path member
  simp only [guardedPaths, lookedUpPaths, ProtectedPaths.paths, List.mem_append,
    Option.mem_toList] at member ⊢
  rcases member with fixed | shared
  · exact .inl fixed
  · exact .inr (Option.eq_some_of_filter_eq_some shared)

variable (alike : Alike inputs facts total)

include alike

theorem hideMountsItems_eq (generated : AlikeGenerated generating facts total)
    (within : ∀ hide ∈ generating.hideMounts, hide ∈ inputs.expanded.hideMounts) :
    hideMountsItems generating inputs.values facts =
      hideMountsItems generating inputs.values total := by
  have made : ∀ hide ∈ generating.hideMounts,
      hiddenMounts inputs.values facts hide = hiddenMounts inputs.values total hide := by
    intro hide member
    unfold hiddenMounts
    cases expansion : hide.under.path? with
    | none => simp only [Option.bind_none]
    | some under =>
      have looked := looked_under (List.mem_filterMap.mpr ⟨hide, within hide member, expansion⟩)
      simp only [Option.bind_some, alike.entry under looked]
      cases top : (total.entry under).path with
      | none => simp only
      | some real =>
        simp only [generated.mounts]
        apply List.flatMap_congr
        intro mount chosen
        obtain ⟨listed, hidden⟩ := List.mem_filter.mp chosen
        simp only [hiddenMount, Bool.and_eq_true] at hidden
        rw [generated.targets hide member under real expansion top mount listed hidden.1.1]
  simp only [hideMountsItems, generated.unreadable, List.flatMap_congr made]

theorem generate_eq (generated : AlikeGenerated generating facts total)
    (within : ∀ hide ∈ generating.hideMounts, hide ∈ inputs.expanded.hideMounts)
    (secrets : generating.secrets = inputs.expanded.secrets) (written : ResolvedMounts)
    (swappableRo : List Path) :
    generate written generating inputs.layers inputs.values facts swappableRo =
      generate written generating inputs.layers inputs.values total swappableRo := by
  have scanned : scanItems written.items inputs.layers facts swappableRo =
      scanItems written.items inputs.layers total swappableRo := by
    simp only [scanItems, alike.policySources_eq, generated.hits]
  simp only [generate, scanned, alike.hideMountsItems_eq generated within,
    alike.secretItems_eq secrets]

theorem resolveMounts_eq
    (generated : ∀ written, resolveWritten inputs.expanded total = .ok written →
      AlikeGenerated (chosenGenerators inputs total written).1 facts total) :
    resolveMounts inputs facts = resolveMounts inputs total := by
  unfold resolveMounts
  rw [alike.resolveWritten_eq]
  cases resolved : resolveWritten inputs.expanded total with
  | error failure => simp only [bind, Except.bind]
  | ok written =>
    obtain ⟨secrets, within⟩ := chosenGenerators_within inputs total written
    have laid : ∀ generated skipped, layListed inputs facts generated skipped =
        layListed inputs total generated skipped := by
      intro generated skipped
      unfold layListed
      split
      · rename_i listed
        rw [alike.listedRootOf_eq listed]
      · rfl
    simp only [bind, Except.bind, alike.checkOrigins_eq, alike.swappableRoItems_eq,
      alike.chosenGenerators_eq, alike.generate_eq (generated written resolved) within secrets, laid]

theorem sourcePaths_eq (items : List ResolvedItem) :
    sourcePaths inputs.expanded items facts = sourcePaths inputs.expanded items total := by
  apply List.filterMap_congr
  intro item member
  cases expansion : item.path with
  | valueless start => rfl
  | path path =>
    simp only [Expansion.path?, Option.bind_some,
      alike.entry path (looked_mount (mem_mountPaths member expansion))]

theorem skippedPaths_eq :
    skippedPaths inputs.expanded facts = skippedPaths inputs.expanded total := by
  apply List.filterMap_congr
  intro origin member
  have looked : ∀ path, origin.2.2 = .path path → path ∈ lookedPaths inputs := by
    intro path expansion
    simp only [List.mem_append, List.mem_map] at member
    rcases member with (⟨scan, listed, rfl⟩ | ⟨hide, listed, rfl⟩) | ⟨entry, listed, rfl⟩
    · exact looked_scanRoot (List.mem_filterMap.mpr ⟨scan, listed, congrArg Expansion.path? expansion⟩)
    · exact looked_under (List.mem_filterMap.mpr ⟨hide, listed, congrArg Expansion.path? expansion⟩)
    · exact looked_prepend (List.mem_filterMap.mpr ⟨entry, listed, congrArg Expansion.path? expansion⟩)
  obtain ⟨role, written, expansion⟩ := origin
  cases expansion with
  | valueless start => rfl
  | path path => simp only [alike.entry path (looked path rfl)]

theorem resolveIsolation_eq
    (generated : ∀ written, resolveWritten inputs.expanded total = .ok written →
      AlikeGenerated (chosenGenerators inputs total written).1 facts total)
    (secrets : Std.ExtTreeMap String SecretFile) :
    resolveIsolation inputs { mounts := facts, secrets } =
      resolveIsolation inputs { mounts := total, secrets } := by
  have prepended : inputs.expanded.prependPaths.filterMap (fun entry => (facts.entry entry).path) =
      inputs.expanded.prependPaths.filterMap fun entry => (total.entry entry).path := by
    apply List.filterMap_congr
    intro entry member
    rw [alike.entry entry (looked_prepend member)]
  have checked : ∀ laid, checkLaid inputs facts laid = checkLaid inputs total laid := by
    intro laid
    simp only [checkLaid, alike.checkPlacement_eq laid.mounts (guardedPaths_within inputs _)]
  simp only [resolveIsolation, alike.resolveMounts_eq generated, checked, prepended,
    alike.sourcePaths_eq, alike.skippedPaths_eq, alike.policySources_eq]

theorem allowedPrograms_eq (mounts : List ResolvedItem) (listed : Option ListedRoot) :
    allowedPrograms inputs.policy inputs.values inputs.home facts mounts listed =
      allowedPrograms inputs.policy inputs.values inputs.home total mounts listed := by
  have outcomes : inputs.policy.commandsAllow.map
      (allowedProgram inputs.values inputs.home facts mounts listed) =
      inputs.policy.commandsAllow.map
        (allowedProgram inputs.values inputs.home total mounts listed) := by
    apply List.map_congr_left
    intro item member
    unfold allowedProgram
    cases expansion : expand item inputs.values inputs.home with
    | valueless start => rfl
    | path path =>
      have asked : path ∈ commandLookups inputs.policy inputs.values inputs.home :=
        List.mem_filterMap.mpr ⟨item, member, by rw [expansion]; rfl⟩
      simp only [alike.entry path (looked_command asked), alike.links path (walked_command asked)]
  simp only [allowedPrograms, outcomes]

end Alike

/-- Facts that answer every lookup of a file system truthfully. -/
def totalPathFacts (host : Host) : MountFacts where
  paths path := some (realEntry host path)
  links path := some (traverse host.toFileSystem path).links
  directories path := some (traverse host.toFileSystem path).directories
  linkTargets place :=
    match host.entryAt place with
    | .link target => some target
    | .absent | .directory | .other => none

/-- Those facts with what is gathered for the generators that apply. -/
def totalFacts (host : Host) (inputs : Inputs) : Except Diagnostic MountFacts := do
  let facts := totalPathFacts host
  let generators ← generatingPolicy inputs facts
  let gathered :=
    collectGeneratorFacts host ((wantedCandidates inputs).forGenerators generators.1) facts
  return { gathered with paths := facts.paths }

/-- The mount targets a start looks up. -/
def lookedTargets (host : Host) (inputs : Inputs) : List Path :=
  let facts := collectPathFacts host (wantedCandidates inputs)
  match generatingPolicy inputs facts with
  | .error _ => []
  | .ok generators =>
    mountTargets ((wantedCandidates inputs).forGenerators generators.1) facts
      (host.mountList.getD [])

/-- No two of the paths are equal by components but different in bytes. -/
def OneSpelling (paths : List Path) : Prop :=
  ∀ path ∈ paths, ∀ other ∈ paths, (path == other) = true → path = other

theorem wantedCandidates_eq (inputs : Inputs) :
    wantedCandidates inputs = gatheredCandidates inputs.expanded (lookedUpPaths inputs) inputs.values
      inputs.workspace
      [listedLookups inputs.policy, commandLookups inputs.policy inputs.values inputs.home] := rfl

theorem walked_among (member : path ∈ walkedPaths inputs) :
    Among (wantedCandidates inputs).traversals path := by
  rw [wantedCandidates_eq]
  exact gathered_walked inputs.expanded inputs.values member

theorem collectPathFacts_alike (single : OneSpelling (lookedPaths inputs)) :
    Alike inputs (collectPathFacts host (wantedCandidates inputs)) (totalPathFacts host) where
  entry := by
    intro path member
    obtain ⟨kept, present, same, answer⟩ := gathered_entry host inputs.workspace member
    rw [single kept present path member same] at answer
    rw [wantedCandidates_eq, answer path (Path.beq_self path)]
    simp only [MountFacts.entry, totalPathFacts, Option.getD_some]
  links := by
    intro path member
    rw [MountFacts.traversedLinks, collectPathFacts_links (walked_among member), Option.getD_some]
    simp only [MountFacts.traversedLinks, totalPathFacts, Option.getD_some]
  directories := by
    intro path member
    rw [MountFacts.visitedDirectories, collectPathFacts_directories (walked_among member),
      Option.getD_some]
    simp only [MountFacts.visitedDirectories, totalPathFacts, Option.getD_some]
  targets := by
    intro path member place followed
    obtain ⟨directory, name, target, real, plain, rfl, holds, recorded⟩ :=
      collectPathFacts_target (walked_among member) followed
    rw [recorded]
    simp only [totalPathFacts, host.entryAt_join real plain, holds]

theorem generatingPolicy_within (chosen : generatingPolicy inputs facts = .ok generators) :
    (∀ scan ∈ generators.1.scans, scan ∈ inputs.expanded.scans) ∧
      ∀ hide ∈ generators.1.hideMounts, hide ∈ inputs.expanded.hideMounts := by
  unfold generatingPolicy at chosen
  split at chosen
  · cases chosen
    exact ⟨fun _ member => member, fun _ member => member⟩
  · obtain ⟨written, -, chosen⟩ := Except.bind_eq_ok.mp chosen
    cases chosen
    exact ⟨fun _ member => (List.mem_filter.mp member).1, fun _ member => (List.mem_filter.mp member).1⟩

/-- The generators stage 7 chooses are those the facts were gathered for. -/
theorem chosenGenerators_of_generating (chosen : generatingPolicy inputs facts = .ok generators)
    (resolved : resolveWritten inputs.expanded facts = .ok written) :
    chosenGenerators inputs facts written = generators := by
  unfold generatingPolicy at chosen
  unfold chosenGenerators
  by_cases listed : inputs.policy.mountsMode = .listed
  · simp only [listed, resolved, ne_eq, not_true_eq_false, ↓reduceIte, bind, Except.bind] at chosen ⊢
    exact Except.ok.inj chosen
  · simp only [listed, ne_eq, not_false_eq_true, ↓reduceIte] at chosen ⊢
    exact Except.ok.inj chosen

/-- What gathering for the generators adds to facts that hold no hits and no mounts yet. -/
structure Gathered (host : Host) (wanted : Candidates) (facts gathered : MountFacts) : Prop where
  paths : gathered.paths =
    facts.paths.insertAll (realEntry host) (mountTargets wanted facts (host.mountList.getD []))
  links : gathered.links = facts.links
  directories : gathered.directories = facts.directories
  linkTargets : gathered.linkTargets = facts.linkTargets
  hits : gathered.scanHits = wanted.scans.flatMap fun request =>
    (facts.entry request.root).path.toList.flatMap (scan host request)
  mounts : gathered.mounts =
    if wanted.hideMountsUnder.isEmpty then [] else host.mountList.getD []
  unreadable : gathered.mountListUnreadable =
    (facts.mountListUnreadable || (!wanted.hideMountsUnder.isEmpty && host.mountList.isNone))

theorem collectGeneratorFacts_gathered (host : Host) (wanted : Candidates)
    (fresh : facts.mounts = []) (unscanned : facts.scanHits = []) :
    Gathered host wanted facts (collectGeneratorFacts host wanted facts) := by
  unfold collectGeneratorFacts collectMountList
  split
  · rename_i empty
    have none : wanted.hideMountsUnder = [] := List.isEmpty_iff.mp empty
    have targets : mountTargets wanted facts (host.mountList.getD []) = [] := by
      simp [mountTargets, none]
    exact {
      paths := by rw [targets]; rfl
      links := rfl
      directories := rfl
      linkTargets := rfl
      hits := by simp [collectScans, unscanned]
      mounts := by simp [empty, collectScans, fresh]
      unreadable := by simp [empty, collectScans] }
  · rename_i some
    cases read : host.mountList with
    | none =>
      exact {
        paths := by simp only [read, collectScans, fresh]; rfl
        links := rfl
        directories := rfl
        linkTargets := rfl
        hits := by simp [collectScans, unscanned]
        mounts := by simp [collectScans, fresh, read]
        unreadable := by simp [some, read] }
    | some mounts =>
      exact {
        paths := by simp only [read, collectScans]; rfl
        links := rfl
        directories := rfl
        linkTargets := rfl
        hits := by simp [collectScans, unscanned]
        mounts := by simp [some, read]
        unreadable := by simp [collectScans, read] }

theorem mem_mountTargets (member : mount ∈ mounts) (under : asked ∈ wanted.hideMountsUnder)
    (found : (facts.entry asked).path = some top) (below : mount.target.startsWith top = true) :
    mount.target ∈ mountTargets wanted facts mounts := by
  refine List.mem_filter.mpr ⟨List.mem_map_of_mem member, ?_⟩
  exact List.any_eq_true.mpr ⟨top, List.mem_filterMap.mpr ⟨asked, under, found⟩, below⟩

section Generators

variable {facts total gathered : MountFacts}

/-- After gathering, a looked-up path or mount target is answered for its own bytes. -/
theorem gathered_answers (single : OneSpelling (lookedPaths inputs ++ targets))
    (before : ∀ path ∈ lookedPaths inputs, facts.entry path = realEntry host path)
    (paths : gathered.paths = facts.paths.insertAll (realEntry host) targets) :
    (∀ path ∈ lookedPaths inputs, gathered.entry path = realEntry host path) ∧
      ∀ target ∈ targets, gathered.entry target = realEntry host target := by
  have answers : ∀ path ∈ lookedPaths inputs ++ targets,
      (∀ target ∈ targets, (path == target) = false) ∨ gathered.entry path = realEntry host path := by
    intro path member
    rcases PathMap.insertAll_cases facts.paths (realEntry host) targets path with
      ⟨key, listed, same, found⟩ | ⟨apart, -⟩
    · rw [single path member key (List.mem_append_right _ listed) same]
      rw [single path member key (List.mem_append_right _ listed) same] at found
      exact .inr (by rw [MountFacts.entry, paths, found, Option.getD_some])
    · exact .inl apart
  constructor
  · intro path member
    rcases answers path (List.mem_append_left _ member) with apart | answered
    · rw [← before path member, MountFacts.entry, paths, PathMap.insertAll_other apart]
      rfl
    · exact answered
  · intro target member
    rcases answers target (List.mem_append_right _ member) with apart | answered
    · have different := apart target member
      rw [Path.beq_self] at different
      cases different
    · exact answered

/-- The facts collected and the total ones, once both have gathered for the generators. -/
theorem gathered_alike
    (chosen : generatingPolicy inputs (totalPathFacts host) = .ok generators)
    (alike : Alike inputs (collectPathFacts host (wantedCandidates inputs)) (totalPathFacts host))
    (single : OneSpelling (lookedPaths inputs ++
      mountTargets ((wantedCandidates inputs).forGenerators generators.1)
        (collectPathFacts host (wantedCandidates inputs)) (host.mountList.getD [])))
    (less : Gathered host ((wantedCandidates inputs).forGenerators generators.1)
      (collectPathFacts host (wantedCandidates inputs)) facts)
    (more : Gathered host ((wantedCandidates inputs).forGenerators generators.1)
      (totalPathFacts host) gathered)
    (same : total = { gathered with paths := (totalPathFacts host).paths }) :
    Alike inputs facts total ∧ AlikeGenerated generators.1 facts total := by
  obtain ⟨scans, hides⟩ := generatingPolicy_within chosen
  obtain ⟨looked, answered⟩ := gathered_answers single alike.entry less.paths
  subst same
  constructor
  · exact {
      entry := looked
      links := fun path member => by
        have equal := alike.links path member
        simpa only [MountFacts.traversedLinks, less.links, more.links] using equal
      directories := fun path member => by
        have equal := alike.directories path member
        simpa only [MountFacts.visitedDirectories, less.directories, more.directories] using equal
      targets := fun path member place followed => by
        have equal := alike.targets path member place
        simp only [MountFacts.traversedLinks, more.links] at followed
        simpa only [less.linkTargets, more.linkTargets] using equal followed }
  · refine ⟨?_, ?_, ?_, ?_⟩
    · rw [less.hits]
      refine Eq.trans ?_ more.hits.symm
      apply List.flatMap_congr
      intro request member
      obtain ⟨scan, listed, made⟩ := List.mem_filterMap.mp member
      obtain ⟨root, expansion, rfl⟩ := Option.map_eq_some_iff.mp made
      rw [alike.entry root
        (looked_scanRoot (List.mem_filterMap.mpr ⟨scan, scans scan listed, expansion⟩))]
    · rw [less.mounts]
      exact more.mounts.symm
    · rw [less.unreadable]
      exact more.unreadable.symm
    · intro hide member under top expansion found mount listed below
      have asked : under ∈ generators.1.unders := List.mem_filterMap.mpr ⟨hide, member, expansion⟩
      have present : mount ∈ host.mountList.getD [] := by
        have nonempty : ¬ (generators.1.unders.isEmpty = true) := by
          rw [List.isEmpty_iff]
          exact List.ne_nil_of_mem asked
        have mounts := more.mounts
        simp only [Candidates.forGenerators, nonempty, Bool.false_eq_true, ↓reduceIte] at mounts
        rw [← mounts]
        exact listed
      apply answered
      refine mem_mountTargets present asked ?_ below
      rw [alike.entry under
        (looked_under (List.mem_filterMap.mpr ⟨hide, hides hide member, expansion⟩))]
      exact found

end Generators

/-- Gathering for the generators changes no answer of the total facts. -/
theorem total_alike (host : Host) (inputs : Inputs) (wanted : Candidates) :
    Alike inputs
      { collectGeneratorFacts host wanted (totalPathFacts host) with
        paths := (totalPathFacts host).paths } (totalPathFacts host) where
  entry := fun _ _ => rfl
  links := fun _ _ => by simp [MountFacts.traversedLinks]
  directories := fun _ _ => by simp [MountFacts.visitedDirectories]
  targets := fun _ _ _ _ => by simp

/-- The facts a start collects and facts that answer every lookup lead to the same isolation and the
same allowed programs. -/
theorem lookups_complete (host : Host) (inputs : Inputs)
    (single : OneSpelling (lookedPaths inputs ++ lookedTargets host inputs)) :
    (∃ failure, collectFacts host inputs = .error failure ∧ totalFacts host inputs = .error failure) ∨
      ∃ facts total, collectFacts host inputs = .ok facts ∧ totalFacts host inputs = .ok total ∧
        (∀ secrets, resolveIsolation inputs { mounts := facts, secrets } =
          resolveIsolation inputs { mounts := total, secrets }) ∧
        ∀ items listed,
          allowedPrograms inputs.policy inputs.values inputs.home facts items listed =
            allowedPrograms inputs.policy inputs.values inputs.home total items listed := by
  have alike : Alike inputs (collectPathFacts host (wantedCandidates inputs)) (totalPathFacts host) :=
    collectPathFacts_alike fun path member other present =>
      single path (List.mem_append_left _ member) other (List.mem_append_left _ present)
  have generating := alike.generatingPolicy_eq
  simp only [lookedTargets, generating] at single
  simp only [collectFacts, totalFacts, generating]
  cases chosen : generatingPolicy inputs (totalPathFacts host) with
  | error failure => exact .inl ⟨failure, rfl, rfl⟩
  | ok generators =>
    simp only [chosen] at single
    obtain ⟨final, generated⟩ := gathered_alike chosen alike single
      (collectGeneratorFacts_gathered host _ rfl rfl) (collectGeneratorFacts_gathered host _ rfl rfl)
      rfl
    refine .inr ⟨_, _, rfl, rfl, final.resolveIsolation_eq ?_, final.allowedPrograms_eq⟩
    intro written resolved
    have alone := total_alike host inputs ((wantedCandidates inputs).forGenerators generators.1)
    rw [alone.resolveWritten_eq] at resolved
    rw [alone.chosenGenerators_eq, chosenGenerators_of_generating chosen resolved]
    exact generated

/-- A host whose `/bin` is a link into `/usr`. -/
def mergedUsrRows : List FileSystem.Row :=
  [⟨Path.root, utf8 "usr", .directory⟩,
   ⟨Path.ofString "/usr", utf8 "bin", .directory⟩,
   ⟨Path.ofString "/usr/bin", utf8 "git", .other⟩,
   ⟨Path.root, utf8 "bin", .link (Path.ofString "usr/bin")⟩,
   ⟨Path.root, utf8 "w", .directory⟩]

def mergedUsrHost : Host :=
  { FileSystem.ofTable mergedUsrRows (by decide +kernel) with
    currentDir := some (Path.ofString "/w")
    mountList := some [⟨Path.ofString "/w/net", "nfs"⟩] }

def mergedUsrInputs : Inputs :=
  { workplaceInputs with
    policy := {
      mountsMode := .listed
      commandsMode := .listed
      commandsAllow := [.absolute (Path.ofString "/bin/git")] }
    expanded := { workplaceInputs.expanded with
      hideMounts := [{
        written := .absolute (Path.ofString "/w")
        under := .path (Path.ofString "/w")
        fstype := ["nfs"] }] } }

theorem mergedUsr_lookups_complete :
    lookedTargets mergedUsrHost mergedUsrInputs = [Path.ofString "/w/net"] ∧
      ∃ facts total, collectFacts mergedUsrHost mergedUsrInputs = .ok facts ∧
        totalFacts mergedUsrHost mergedUsrInputs = .ok total ∧
        resolveIsolation mergedUsrInputs { mounts := facts } =
          resolveIsolation mergedUsrInputs { mounts := total } := by
  have single : OneSpelling (lookedPaths mergedUsrInputs ++
      lookedTargets mergedUsrHost mergedUsrInputs) := by
    unfold OneSpelling
    decide +kernel
  have collects : (collectFacts mergedUsrHost mergedUsrInputs).isOk = true := by decide +kernel
  refine ⟨by decide +kernel, ?_⟩
  rcases lookups_complete mergedUsrHost mergedUsrInputs single with
    ⟨failure, failed, -⟩ | ⟨facts, total, collected, answered, same, -⟩
  · rw [failed] at collects
    cases collects
  · exact ⟨facts, total, collected, answered, same ∅⟩

end Kakoi
