import Mathlib.Data.List.Find
import Kakoi.Linux.CollectedFacts
import Kakoi.Plan.CommandLimits
import Kakoi.Plan.Isolation

/-! What stage 7 asks of its facts: sets of facts that answer alike lead it to the same result. -/

namespace Kakoi

/-- The paths a start looks up. -/
def lookedPaths (inputs : Inputs) : List Path :=
  gatheredPaths inputs.expanded (lookedUpPaths inputs) inputs.values
    [listedLookups inputs.policy, commandLookups inputs.policy inputs.values inputs.home]

/-- The paths a start walks. -/
def walkedPaths (inputs : Inputs) : List Path :=
  candidateTraversals inputs.expanded (lookedUpPaths inputs) inputs.workspace ++
    [listedLookups inputs.policy, commandLookups inputs.policy inputs.values inputs.home].flatten

/-- The facts answer alike for every path gathered. -/
structure Alike (inputs : Inputs) (facts total : MountFacts) : Prop where
  entry : ∀ path ∈ lookedPaths inputs, facts.entry path = total.entry path
  links : ∀ path ∈ walkedPaths inputs, facts.traversedLinks path = total.traversedLinks path
  directories : ∀ path ∈ walkedPaths inputs,
    facts.visitedDirectories path = total.visitedDirectories path
  targets : ∀ path ∈ walkedPaths inputs, ∀ place ∈ total.traversedLinks path,
    facts.linkTargets place = total.linkTargets place

theorem looked_mount (member : path ∈ inputs.expanded.mountPaths) : path ∈ lookedPaths inputs := by
  simp [lookedPaths, gatheredPaths, candidatePaths, member]

theorem walked_mount (member : path ∈ inputs.expanded.mountPaths) : path ∈ walkedPaths inputs := by
  simp [walkedPaths, candidateTraversals, member]

theorem looked_scanRoot (member : path ∈ inputs.expanded.scanRoots) : path ∈ lookedPaths inputs := by
  simp [lookedPaths, gatheredPaths, candidatePaths, member]

theorem walked_scanRoot (member : path ∈ inputs.expanded.scanRoots) : path ∈ walkedPaths inputs := by
  simp [walkedPaths, candidateTraversals, member]

theorem looked_under (member : path ∈ inputs.expanded.unders) : path ∈ lookedPaths inputs := by
  simp [lookedPaths, gatheredPaths, candidatePaths, member]

theorem walked_under (member : path ∈ inputs.expanded.unders) : path ∈ walkedPaths inputs := by
  simp [walkedPaths, candidateTraversals, member]

theorem looked_prepend (member : path ∈ inputs.expanded.prependPaths) : path ∈ lookedPaths inputs := by
  simp [lookedPaths, gatheredPaths, candidatePaths, member]

/-- Of a protected path every prefix is looked up. -/
theorem looked_above (member : path ∈ lookedUpPaths inputs) (above : other ∈ path.ancestors) :
    other ∈ lookedPaths inputs := by
  have listed : other ∈ (lookedUpPaths inputs).flatMap Path.ancestors :=
    List.mem_flatMap.mpr ⟨path, member, above⟩
  simp only [lookedPaths, gatheredPaths, candidatePaths, List.mem_append]
  exact .inl (.inl (.inr listed))

theorem walked_guarded (member : path ∈ lookedUpPaths inputs) : path ∈ walkedPaths inputs := by
  simp [walkedPaths, candidateTraversals, member]

theorem looked_configSecrets (place : configSecrets inputs.values = some path) :
    path ∈ lookedPaths inputs := by
  have listed : path ∈ (configSecrets inputs.values).toList := by simp [place]
  simp only [lookedPaths, gatheredPaths, candidatePaths, List.mem_append]
  exact .inl (.inr listed)

theorem walked_workspace (given : inputs.workspace = some path) : path ∈ walkedPaths inputs := by
  simp [walkedPaths, candidateTraversals, given]

theorem looked_listed (member : path ∈ listedLookups inputs.policy) : path ∈ lookedPaths inputs := by
  simp [lookedPaths, gatheredPaths, member]

theorem walked_listed (member : path ∈ listedLookups inputs.policy) : path ∈ walkedPaths inputs := by
  simp [walkedPaths, member]

theorem looked_command (member : path ∈ commandLookups inputs.policy inputs.values inputs.home) :
    path ∈ lookedPaths inputs := by
  simp [lookedPaths, gatheredPaths, member]

theorem walked_command (member : path ∈ commandLookups inputs.policy inputs.values inputs.home) :
    path ∈ walkedPaths inputs := by
  simp [walkedPaths, member]

theorem all_eq_of_mem {test other : α → Bool} {elements : List α}
    (same : ∀ element ∈ elements, test element = other element) :
    elements.all test = elements.all other := by
  rw [Bool.eq_iff_iff, List.all_eq_true, List.all_eq_true]
  exact forall₂_congr fun element member => by rw [same element member]

theorem any_eq_of_mem {test other : α → Bool} {elements : List α}
    (same : ∀ element ∈ elements, test element = other element) :
    elements.any test = elements.any other := by
  rw [Bool.eq_iff_iff, List.any_eq_true, List.any_eq_true]
  exact exists_congr fun element => and_congr_right fun member => by rw [same element member]

theorem mem_mountPaths {expanded : ExpandedPolicy} {item : ExpandedItem}
    (member : item ∈ expanded.mounts) (expansion : item.path = .path path) :
    path ∈ expanded.mountPaths :=
  List.mem_filterMap.mpr ⟨item, member, by simp [expansion, Expansion.path?]⟩

theorem writtenPaths_mem (member : form ∈ (writtenPaths expanded workspace).items) :
    form.path ∈ expanded.mountPaths := by
  obtain ⟨item, listed, made⟩ := List.mem_filterMap.mp member
  unfold writtenItem at made
  obtain ⟨path, expansion, rfl⟩ := Option.map_eq_some_iff.mp made
  exact List.mem_filterMap.mpr ⟨item, listed, expansion⟩

namespace Alike

/-- A policy file that was read is a protected path. -/
theorem policyFile_guarded (member : layer ∈ inputs.layers)
    (file : layer.origin = .profile path ∨ layer.origin = .policyFile path) :
    path ∈ lookedUpPaths inputs := by
  simp only [lookedUpPaths, ProtectedPaths.paths, protectedPaths, List.mem_append]
  refine .inl (.inl (.inl (.inl (List.mem_filterMap.mpr ⟨layer, member, ?_⟩))))
  rcases file with origin | origin <;> rw [origin]

theorem self_mem_ancestors (path : Path) : path ∈ path.ancestors := List.mem_cons_self

theorem secret_guarded (member : secret ∈ inputs.expanded.secrets.toList)
    (expansion : secret.2.path? = some path) : path ∈ lookedUpPaths inputs := by
  simp only [lookedUpPaths, ProtectedPaths.paths, protectedPaths, List.mem_append]
  refine .inl (.inl (.inr (List.mem_map.mpr ⟨(secret.1, path), ?_, rfl⟩)))
  exact List.mem_filterMap.mpr ⟨secret, member, by simp [expansion]⟩

theorem workspace_walked :
    ∀ place ∈ workspaceUnderCheck (writtenPaths inputs.expanded inputs.workspace) inputs.values
      inputs.currentDir, place ∈ walkedPaths inputs := by
  intro place member
  exact walked_workspace (Option.eq_some_of_filter_eq_some member)

theorem origin_gathered (member : origin ∈ scanOrigins inputs.expanded)
    (expansion : origin.expansion.path? = some path) :
    path ∈ lookedPaths inputs ∧ path ∈ walkedPaths inputs := by
  rcases List.mem_append.mp member with fromScan | fromHide
  · obtain ⟨scan, listed, rfl⟩ := List.mem_map.mp fromScan
    have root : path ∈ inputs.expanded.scanRoots := List.mem_filterMap.mpr ⟨scan, listed, expansion⟩
    exact ⟨looked_scanRoot root, walked_scanRoot root⟩
  · obtain ⟨hide, listed, rfl⟩ := List.mem_map.mp fromHide
    have under : path ∈ inputs.expanded.unders := List.mem_filterMap.mpr ⟨hide, listed, expansion⟩
    exact ⟨looked_under under, walked_under under⟩

theorem landed_item (member : landing ∈ landed written facts) : landing.item ∈ written.items := by
  obtain ⟨pair, listed, made⟩ := List.mem_filterMap.mp member
  obtain ⟨real, -, rfl⟩ := Option.map_eq_some_iff.mp made
  exact List.fst_mem_of_mem_zipIdx listed

variable (alike : Alike inputs facts total)

include alike

theorem form_entry (member : form ∈ (writtenPaths inputs.expanded workspace).items) :
    facts.entry form.path = total.entry form.path :=
  alike.entry _ (looked_mount (writtenPaths_mem member))

theorem resolveWritten_eq :
    resolveWritten inputs.expanded facts = resolveWritten inputs.expanded total := by
  have merged : inputs.expanded.mounts.foldl (mergeItem facts) {} =
      inputs.expanded.mounts.foldl (mergeItem total) {} := by
    apply List.foldl_ext
    intro merging item member
    cases expansion : item.path with
    | valueless start => simp only [mergeItem, expansion]
    | path path =>
      have same := alike.entry path (looked_mount (mem_mountPaths member expansion))
      have candidate : candidateOf facts item path = candidateOf total item path := by
        simp only [candidateOf, same]
      simp only [mergeItem, expansion, candidate]
  simp only [resolveWritten, merged]

theorem guarded_entry (member : path ∈ lookedUpPaths inputs) :
    facts.entry path = total.entry path :=
  alike.entry path (looked_above member (self_mem_ancestors path))

theorem policySources_eq :
    policySources inputs.layers facts = policySources inputs.layers total := by
  apply List.filterMap_congr
  intro layer member
  cases origin : layer.origin with
  | profile path => simp only [alike.guarded_entry (policyFile_guarded member (.inl origin))]
  | policyFile path => simp only [alike.guarded_entry (policyFile_guarded member (.inr origin))]
  | builtInDefault => rfl
  | commandLine => rfl

theorem secretItems_eq (secrets : generating.secrets = inputs.expanded.secrets) :
    secretItems generating inputs.values facts = secretItems generating inputs.values total := by
  unfold secretItems
  rw [secrets]
  congr 1
  · apply List.flatMap_congr
    intro secret member
    cases expansion : secret.2.path? with
    | none => simp only [expansion]
    | some path => simp only [expansion, alike.guarded_entry (secret_guarded member expansion)]
  · apply List.flatMap_congr
    intro path member
    rw [alike.entry path (looked_configSecrets (by simpa using member))]

theorem consultedWritable_eq (walked : path ∈ walkedPaths inputs) :
    consultedWritable path writable facts = consultedWritable path writable total := by
  rw [consultedWritable, alike.links path walked, alike.directories path walked]
  rfl

theorem referencedWritable_eq (walked : path ∈ walkedPaths inputs)
    (given : ∀ place ∈ workspace, place ∈ walkedPaths inputs) :
    referencedWritable path inherits workspace writable facts =
      referencedWritable path inherits workspace writable total := by
  have inherited : ((workspace.filter fun _ => inherits).bind fun place =>
      consultedWritable place writable facts) =
      (workspace.filter fun _ => inherits).bind fun place => consultedWritable place writable total := by
    cases workspace with
    | none => rfl
    | some place =>
      cases inherits with
      | false => rfl
      | true => exact alike.consultedWritable_eq (given place rfl)
  rw [referencedWritable, alike.consultedWritable_eq walked, inherited]
  rfl

theorem linkInsideWritable_eq (walked : path ∈ walkedPaths inputs) :
    linkInsideWritable path writable facts = linkInsideWritable path writable total := by
  rw [linkInsideWritable, alike.links path walked]
  rfl

theorem writableFormsOf_eq (item : ResolvedItem) :
    writableFormsOf item (writtenPaths inputs.expanded workspace) facts =
      writableFormsOf item (writtenPaths inputs.expanded workspace) total := by
  apply List.filter_congr
  intro form member
  rw [alike.form_entry member]

theorem rootItems_eq (given : ∀ place ∈ workspace, place ∈ walkedPaths inputs) :
    rootItems (writtenPaths inputs.expanded other) workspace writable facts =
      rootItems (writtenPaths inputs.expanded other) workspace writable total := by
  apply List.filter_congr
  intro item _
  rw [alike.writableFormsOf_eq]
  apply all_eq_of_mem
  intro form member
  have walked := walked_mount (writtenPaths_mem (List.mem_filter.mp member).1)
  rw [alike.referencedWritable_eq walked given]

theorem checkOrigins_eq (before : ResolvedMounts) :
    checkOrigins inputs.expanded before (writtenPaths inputs.expanded inputs.workspace)
        inputs.values inputs.currentDir facts =
      checkOrigins inputs.expanded before (writtenPaths inputs.expanded inputs.workspace)
        inputs.values inputs.currentDir total := by
  simp only [checkOrigins]
  rw [alike.rootItems_eq workspace_walked]
  apply checkAll_congr
  intro origin member
  unfold checkOrigin
  cases expansion : origin.expansion.path? with
  | none => rfl
  | some path =>
    obtain ⟨looked, walked⟩ := origin_gathered member expansion
    simp only [alike.entry path looked, alike.linkInsideWritable_eq walked,
      alike.referencedWritable_eq walked workspace_walked]

theorem swappableRoItems_eq (before : ResolvedMounts) :
    swappableRoItems before (writtenPaths inputs.expanded inputs.workspace) inputs.values
        inputs.currentDir facts =
      swappableRoItems before (writtenPaths inputs.expanded inputs.workspace) inputs.values
        inputs.currentDir total := by
  simp only [swappableRoItems]
  congr 1
  apply List.filter_congr
  intro item _
  congr 1
  apply any_eq_of_mem
  intro form member
  rw [alike.form_entry member,
    alike.referencedWritable_eq (walked_mount (writtenPaths_mem member)) workspace_walked]

theorem checkPrefixes_eq (member : path ∈ lookedUpPaths inputs) (role : Text)
    (writable : List ResolvedItem) :
    checkPrefixes path role writable facts = checkPrefixes path role writable total := by
  have above : path.ancestors.filterMap (fun above => (facts.entry above).path) =
      path.ancestors.filterMap fun above => (total.entry above).path := by
    apply List.filterMap_congr
    intro other listed
    rw [alike.entry other (looked_above member listed)]
  have walked := walked_guarded member
  simp only [checkPrefixes, above, alike.links path walked, alike.directories path walked]

theorem checkNothingWritableInside_eq (member : path ∈ lookedUpPaths inputs) (role holds : String)
    (writable : List ResolvedItem) :
    checkNothingWritableInside path role holds writable facts =
      checkNothingWritableInside path role holds writable total := by
  simp only [checkNothingWritableInside, alike.guarded_entry member]

theorem checkProtectedPaths_eq (within : ∀ path ∈ guarded.paths, path ∈ lookedUpPaths inputs)
    (writable : List ResolvedItem) :
    checkProtectedPaths guarded writable facts = checkProtectedPaths guarded writable total := by
  simp only [ProtectedPaths.paths, List.mem_append] at within
  have config : guarded.configDir ∈ lookedUpPaths inputs :=
    within _ (.inl (.inl (.inl (.inr List.mem_cons_self))))
  have files := checkAll_congr fun path (member : path ∈ guarded.policyFiles) =>
    alike.checkPrefixes_eq (within path (.inl (.inl (.inl (.inl member))))) ["the policy file"] writable
  have secrets := checkAll_congr fun secret (member : secret ∈ guarded.secrets) =>
    alike.checkPrefixes_eq
      (within secret.2 (.inl (.inl (.inr (List.mem_map_of_mem member)))))
      ["the file of secret `", secret.1, "`"] writable
  have prepend := checkAll_congr fun path (member : path ∈ guarded.pathPrepend) =>
    alike.checkPrefixes_eq (within path (.inl (.inr member))) ["the `path-prepend` entry"] writable
  have shared := checkAll_congr fun place (member : place ∈ guarded.sharedFiles.toList) =>
    congrArg₂ (fun prefixes (inside : Except Diagnostic Unit) => prefixes >>= fun _ => inside)
      (alike.checkPrefixes_eq (within place (.inr member)) ["the shared file place"] writable)
      (alike.checkNothingWritableInside_eq (within place (.inr member)) "the shared file place"
        "whose files every run binds read-only" writable)
  simp only [checkProtectedPaths, files, secrets, prepend, shared, alike.checkPrefixes_eq config,
    alike.checkNothingWritableInside_eq config]

theorem identicalPartner_eq (item : WrittenItem) (real : Path)
    (within : ∀ form ∈ lower, form ∈ (writtenPaths inputs.expanded inputs.workspace).items) :
    identicalPartner item real lower facts = identicalPartner item real lower total := by
  unfold identicalPartner
  congr 1
  apply List.find?_congr
  intro form member
  rw [alike.form_entry (within form (List.mem_reverse.mp member))]

theorem landed_eq :
    landed (writtenPaths inputs.expanded inputs.workspace) facts =
      landed (writtenPaths inputs.expanded inputs.workspace) total := by
  apply List.filterMap_congr
  intro pair member
  have form := List.fst_mem_of_mem_zipIdx member
  simp only [alike.form_entry form]

theorem checkLanded_eq
    (member : landing ∈ landed (writtenPaths inputs.expanded inputs.workspace) total) :
    checkLanded (writtenPaths inputs.expanded inputs.workspace) inForce writable roots
        (workspaceUnderCheck (writtenPaths inputs.expanded inputs.workspace) inputs.values
          inputs.currentDir) facts landing =
      checkLanded (writtenPaths inputs.expanded inputs.workspace) inForce writable roots
        (workspaceUnderCheck (writtenPaths inputs.expanded inputs.workspace) inputs.values
          inputs.currentDir) total landing := by
  have form := landed_item member
  have walked := walked_mount (writtenPaths_mem form)
  have lower := alike.identicalPartner_eq landing.item landing.real
    fun other (listed : other ∈ List.take landing.index _) => List.mem_of_mem_take listed
  simp only [checkLanded, checkHideLinks, checkReplacement, lower,
    alike.referencedWritable_eq walked workspace_walked, alike.linkInsideWritable_eq walked]

theorem checkWorkspace_eq (walked : path ∈ walkedPaths inputs)
    (writable roots : List ResolvedItem) :
    checkWorkspace (writtenPaths inputs.expanded inputs.workspace) writable roots inputs.values
        facts path =
      checkWorkspace (writtenPaths inputs.expanded inputs.workspace) writable roots inputs.values
        total path := by
  simp only [checkWorkspace, checkWorkspaceLinks, alike.consultedWritable_eq walked,
    alike.links path walked, alike.writableFormsOf_eq]

theorem checkWrittenPaths_eq (inForce : List ResolvedItem) :
    checkWrittenPaths (writtenPaths inputs.expanded inputs.workspace) inForce inputs.values
        inputs.currentDir facts =
      checkWrittenPaths (writtenPaths inputs.expanded inputs.workspace) inForce inputs.values
        inputs.currentDir total := by
  simp only [checkWrittenPaths, alike.landed_eq, alike.rootItems_eq workspace_walked]
  congr 1
  · apply checkAll_congr
    intro landing member
    exact alike.checkLanded_eq ((List.perm_insertionSort byLanding _).mem_iff.mp member)
  · funext _
    apply checkAll_congr
    intro place member
    exact alike.checkWorkspace_eq (workspace_walked place (Option.mem_toList.mp member)) _ _

theorem checkPlacement_eq (resolved : ResolvedMounts)
    (within : ∀ path ∈ guarded.paths, path ∈ lookedUpPaths inputs) :
    checkPlacement resolved guarded (writtenPaths inputs.expanded inputs.workspace) inputs.values
        inputs.home inputs.currentDir facts =
      checkPlacement resolved guarded (writtenPaths inputs.expanded inputs.workspace) inputs.values
        inputs.home inputs.currentDir total := by
  simp only [checkPlacement, alike.checkProtectedPaths_eq within, alike.checkWrittenPaths_eq]

end Alike

end Kakoi
