import Kakoi.Base.Layered
import Kakoi.Plan.Mounts

/-! What the written items resolve to: at each place the winner of the forms written for it. -/

namespace Kakoi

/-- What the comparison of two origins looks at. -/
def LayerOrigin.identity : LayerOrigin → Nat × List Component
  | .profile path => (0, path.components)
  | .builtInDefault => (1, [])
  | .policyFile path => (2, path.components)
  | .commandLine => (3, [])

theorem LayerOrigin.beq_iff (left right : LayerOrigin) :
    (left == right) = true ↔ left.identity = right.identity := by
  cases left with
  | profile path =>
    cases right with
    | profile other => exact (Path.beq_iff path other).trans (by simp [identity])
    | _ => simp [BEq.beq, identity]
  | policyFile path =>
    cases right with
    | policyFile other => exact (Path.beq_iff path other).trans (by simp [identity])
    | _ => simp [BEq.beq, identity]
  | _ => cases right <;> simp [BEq.beq, identity]

def Candidate.layer (candidate : Candidate) : Nat × List Component := candidate.origin.identity

/-- The written items that expanded to a path, each with its identity. -/
def forms (facts : MountFacts) (mounts : List ExpandedItem) : List Candidate :=
  mounts.filterMap fun item => item.path.path?.map (candidateOf facts item)

def formsAt (facts : MountFacts) (mounts : List ExpandedItem) (place : List Component) :
    List Candidate :=
  (forms facts mounts).filter (·.place = place)

theorem forms_append (facts : MountFacts) (front back : List ExpandedItem) :
    forms facts (front ++ back) = forms facts front ++ forms facts back :=
  List.filterMap_append

theorem formsAt_append (facts : MountFacts) (front back : List ExpandedItem)
    (place : List Component) :
    formsAt facts (front ++ back) place = formsAt facts front place ++ formsAt facts back place := by
  rw [formsAt, forms_append, List.filter_append]
  rfl

theorem formsAt_here (expanded : item.path = .path path)
    (here : (candidateOf facts item path).place = place) :
    formsAt facts [item] place = [candidateOf facts item path] := by
  simp [formsAt, forms, expanded, Expansion.path?, here]

theorem formsAt_elsewhere (expanded : item.path = .path path)
    (elsewhere : (candidateOf facts item path).place ≠ place) : formsAt facts [item] place = [] := by
  simp [formsAt, forms, expanded, Expansion.path?, elsewhere]

theorem formsAt_valueless (expanded : item.path = .valueless start) :
    formsAt facts [item] place = [] := by
  simp [formsAt, forms, expanded, Expansion.path?]

theorem place_of_mem_formsAt (member : candidate ∈ formsAt facts mounts place) :
    candidate.place = place := by
  simpa using (List.mem_filter.mp member).2

/-- The state of the merge after these written items. -/
structure Merged (facts : MountFacts) (mounts : List ExpandedItem) (merging : Merging) : Prop where
  distinct : (merging.merged.map Candidate.place).Nodup
  stands : ∀ candidate, candidate ∈ merging.merged ↔
    winner Candidate.layer (formsAt facts mounts candidate.place) = some candidate
  harmonious : merging.conflicts = [] → ∀ place,
    Harmonious Candidate.layer Candidate.directive (formsAt facts mounts place)

theorem merged_start (facts : MountFacts) : Merged facts [] {} where
  distinct := List.nodup_nil
  stands := by simp [formsAt, forms, winner_nil]
  harmonious := fun _ _ => harmonious_nil

namespace Merged

section Winners

variable (merged : Merged facts mounts merging)

include merged

/-- What is found under the key of a form is what stands at its place. -/
theorem winner_of_find {candidate existing : Candidate}
    (found : merging.merged.find? (·.key == candidate.key) = some existing) :
    existing.place = candidate.place ∧
      winner Candidate.layer (formsAt facts mounts candidate.place) = some existing := by
  have same : existing.place = candidate.place := (Path.beq_iff _ _).mp (by
    simpa using List.find?_some found)
  have won := (merged.stands existing).mp (List.mem_of_find?_eq_some found)
  exact ⟨same, same ▸ won⟩

theorem absent_of_find {candidate : Candidate}
    (missing : merging.merged.find? (·.key == candidate.key) = none) :
    (∀ other ∈ merging.merged, other.place ≠ candidate.place) ∧
      formsAt facts mounts candidate.place = [] := by
  have apart : ∀ other ∈ merging.merged, other.place ≠ candidate.place := by
    intro other member same
    exact List.find?_eq_none.mp missing other member ((Path.beq_iff _ _).mpr same)
  refine ⟨apart, ?_⟩
  rw [← winner_eq_none Candidate.layer]
  by_contra stands
  obtain ⟨standing, won⟩ := Option.ne_none_iff_exists'.mp stands
  have here := place_of_mem_formsAt (winner_mem won)
  exact apart standing ((merged.stands standing).mpr (here ▸ won)) here

/-- A form at a place where nothing stands is put at the end. -/
theorem pushed (expanded : item.path = .path path)
    (missing : merging.merged.find? (·.key == (candidateOf facts item path).key) = none) :
    Merged facts (mounts ++ [item])
      { merging with merged := merging.merged ++ [candidateOf facts item path] } := by
  obtain ⟨apart, nothing⟩ := merged.absent_of_find missing
  refine ⟨?_, ?_, ?_⟩
  · rw [List.map_append]
    refine merged.distinct.append (List.nodup_singleton _) ?_
    intro place member single
    obtain ⟨other, present, rfl⟩ := List.mem_map.mp member
    exact apart other present (List.mem_singleton.mp single)
  · intro candidate
    rw [formsAt_append, List.mem_append, List.mem_singleton]
    by_cases here : (candidateOf facts item path).place = candidate.place
    · rw [formsAt_here expanded here, ← here, nothing, List.nil_append]
      constructor
      · rintro (old | rfl)
        · exact absurd here.symm (apart candidate old)
        · rfl
      · intro won
        exact .inr (Option.some.inj won).symm
    · rw [formsAt_elsewhere expanded here, List.append_nil, ← merged.stands candidate]
      constructor
      · rintro (old | rfl)
        · exact old
        · exact absurd rfl here
      · exact .inl
  · intro quiet place
    rw [formsAt_append]
    by_cases here : (candidateOf facts item path).place = place
    · rw [formsAt_here expanded here, ← here, nothing]
      refine harmonious_concat harmonious_nil ?_
      intro standing won
      cases won
    · rw [formsAt_elsewhere expanded here, List.append_nil]
      exact merged.harmonious quiet place

/-- A form of another layer takes the place of what stands there. -/
theorem replaced (expanded : item.path = .path path)
    (found : merging.merged.find? (·.key == (candidateOf facts item path).key) = some existing)
    (upper : existing.layer ≠ (candidateOf facts item path).layer) :
    Merged facts (mounts ++ [item])
      { merging with
        merged := upsert Candidate.place (candidateOf facts item path) merging.merged } := by
  obtain ⟨same, won⟩ := merged.winner_of_find found
  have wins : winner Candidate.layer (formsAt facts mounts (candidateOf facts item path).place ++
      [candidateOf facts item path]) = some (candidateOf facts item path) := by
    rw [winner_concat, won, pick, if_neg upper]
  refine ⟨upsert_distinct merged.distinct, ?_, ?_⟩
  · intro candidate
    rw [formsAt_append, mem_upsert merged.distinct]
    by_cases here : (candidateOf facts item path).place = candidate.place
    · rw [formsAt_here expanded here, ← here, wins]
      constructor
      · rintro (rfl | ⟨-, different⟩)
        · rfl
        · exact absurd rfl different
      · intro chosen
        exact .inl (Option.some.inj chosen).symm
    · rw [formsAt_elsewhere expanded here, List.append_nil, ← merged.stands candidate]
      constructor
      · rintro (rfl | ⟨old, -⟩)
        · exact absurd rfl here
        · exact old
      · exact fun old => .inr ⟨old, fun equal => here equal.symm⟩
  · intro quiet place
    rw [formsAt_append]
    by_cases here : (candidateOf facts item path).place = place
    · rw [formsAt_here expanded here, ← here]
      refine harmonious_concat (merged.harmonious quiet _) ?_
      intro standing stood equal
      rw [won] at stood
      cases stood
      exact absurd equal upper
    · rw [formsAt_elsewhere expanded here, List.append_nil]
      exact merged.harmonious quiet place

/-- A form of the layer that stands there changes nothing, and is in harmony with it when
it has its directive. -/
theorem kept (expanded : item.path = .path path)
    (found : merging.merged.find? (·.key == (candidateOf facts item path).key) = some existing)
    (same : existing.layer = (candidateOf facts item path).layer)
    (agreed : conflicts = [] → merging.conflicts = [] ∧
      existing.directive = (candidateOf facts item path).directive) :
    Merged facts (mounts ++ [item]) { merging with conflicts := conflicts } := by
  obtain ⟨-, won⟩ := merged.winner_of_find found
  refine ⟨merged.distinct, ?_, ?_⟩
  · intro candidate
    rw [formsAt_append, merged.stands candidate]
    by_cases here : (candidateOf facts item path).place = candidate.place
    · rw [formsAt_here expanded here, ← here, winner_concat, won, pick, if_pos same]
    · rw [formsAt_elsewhere expanded here, List.append_nil]
  · intro quiet place
    obtain ⟨before, directive⟩ := agreed quiet
    rw [formsAt_append]
    by_cases here : (candidateOf facts item path).place = place
    · rw [formsAt_here expanded here, ← here]
      refine harmonious_concat (merged.harmonious before _) ?_
      intro standing stood _
      rw [won] at stood
      cases stood
      exact directive
    · rw [formsAt_elsewhere expanded here, List.append_nil]
      exact merged.harmonious before place

theorem step (item : ExpandedItem) :
    Merged facts (mounts ++ [item]) (mergeItem facts merging item) := by
  unfold mergeItem
  cases expanded : item.path with
  | valueless start =>
    refine ⟨merged.distinct, ?_, ?_⟩
    · intro candidate
      rw [formsAt_append, formsAt_valueless expanded, List.append_nil, merged.stands candidate]
    · intro quiet place
      rw [formsAt_append, formsAt_valueless expanded, List.append_nil]
      exact merged.harmonious quiet place
  | path path =>
    simp only
    split
    · rename_i existing found
      split
      · rename_i other
        refine merged.replaced expanded found ?_
        intro same
        simp [bne, (LayerOrigin.beq_iff _ _).mpr same] at other
      · rename_i notOther
        have same : existing.layer = (candidateOf facts item path).layer := by
          apply (LayerOrigin.beq_iff _ _).mp
          simpa [bne] using notOther
        split
        · refine merged.kept expanded found same ?_
          intro quiet
          simp at quiet
        · rename_i equal
          refine merged.kept expanded found same ?_
          intro quiet
          exact ⟨quiet, not_not.mp equal⟩
    · rename_i missing
      exact merged.pushed expanded missing

end Winners

end Merged

theorem realAndKind_path (found : realAndKind entry = some (real, kind)) : entry.path = some real := by
  cases entry with
  | missing => cases found
  | directory place =>
    cases found
    rfl
  | notDirectory place =>
    cases found
    rfl

/-- An item is at the place of the form it comes from. -/
theorem candidateOf_item (applies : (candidateOf facts form path).item = some item) :
    item.real = (candidateOf facts form path).key ∧ item.directive = form.directive ∧
      (facts.entry path).path = some item.real ∧ item.origin = .written form.origin := by
  unfold Candidate.item at applies
  obtain ⟨⟨real, kind⟩, found, rfl⟩ := Option.map_eq_some_iff.mp applies
  have entry := realAndKind_path found
  refine ⟨?_, rfl, entry, rfl⟩
  show real = ((facts.entry path).path).getD path
  rw [show (facts.entry path).path = some real from entry, Option.getD_some]

theorem mem_forms :
    candidate ∈ forms facts mounts ↔
      ∃ item ∈ mounts, ∃ path, item.path = .path path ∧ candidate = candidateOf facts item path := by
  unfold forms
  rw [List.mem_filterMap]
  constructor
  · intro found
    obtain ⟨item, member, same⟩ := found
    cases expanded : item.path with
    | valueless start => simp [expanded, Expansion.path?] at same
    | path path =>
      refine ⟨item, member, path, expanded, ?_⟩
      simpa [expanded, Expansion.path?] using same.symm
  · intro found
    obtain ⟨item, member, path, expanded, rfl⟩ := found
    exact ⟨item, member, by simp [expanded, Expansion.path?]⟩

theorem mem_formsAt :
    candidate ∈ formsAt facts mounts place ↔ candidate ∈ forms facts mounts ∧ candidate.place = place := by
  simp [formsAt]

theorem item_place (member : candidate ∈ forms facts mounts) (applies : candidate.item = some item) :
    item.place = candidate.place := by
  obtain ⟨form, -, path, -, rfl⟩ := mem_forms.mp member
  rw [ResolvedItem.place, (candidateOf_item applies).1]
  rfl

/-- The merge of all the written items. -/
theorem merge_merged (facts : MountFacts) (mounts : List ExpandedItem) :
    Merged facts mounts (mounts.foldl (mergeItem facts) {}) := by
  induction mounts using List.reverseRecOn with
  | nil => exact merged_start facts
  | append_singleton front item ih =>
    rw [List.foldl_append]
    exact ih.step item

/-- What `resolve_written` returns: at each place the winner of its forms, if anything is
there. -/
structure WrittenResult (facts : MountFacts) (mounts : List ExpandedItem) (items : List ResolvedItem) :
    Prop where
  stands : ∀ item, item ∈ items ↔ ∃ candidate ∈ forms facts mounts,
    winner Candidate.layer (formsAt facts mounts candidate.place) = some candidate ∧
      candidate.item = some item
  distinct : (items.map ResolvedItem.place).Nodup
  harmonious : ∀ place, Harmonious Candidate.layer Candidate.directive (formsAt facts mounts place)

theorem resolveWritten_result (accepted : resolveWritten expanded facts = .ok resolved) :
    WrittenResult facts expanded.mounts resolved.items := by
  have merged := merge_merged facts expanded.mounts
  unfold resolveWritten at accepted
  simp only at accepted
  split at accepted
  · cases accepted
  · rename_i quiet
    have kept : ∀ candidate ∈ (expanded.mounts.foldl (mergeItem facts) {}).merged,
        candidate ∈ forms facts expanded.mounts := fun candidate member =>
      (mem_formsAt.mp (winner_mem ((merged.stands candidate).mp member))).1
    cases accepted
    refine ⟨?_, ?_, merged.harmonious (minBy_eq_none.mp quiet)⟩
    · intro item
      rw [sortItems, (List.perm_insertionSort _ _).mem_iff, List.mem_filterMap]
      constructor
      · intro found
        obtain ⟨candidate, member, applies⟩ := found
        exact ⟨candidate, kept candidate member, (merged.stands candidate).mp member, applies⟩
      · intro found
        obtain ⟨candidate, -, won, applies⟩ := found
        exact ⟨candidate, (merged.stands candidate).mpr won, applies⟩
    · have perm := (List.perm_insertionSort byRealPath
        ((expanded.mounts.foldl (mergeItem facts) {}).merged.filterMap Candidate.item)).map
          ResolvedItem.place
      refine perm.nodup_iff.mpr (List.Sublist.nodup ?_ merged.distinct)
      exact filterMap_map_sublist fun candidate member item applies =>
        item_place (kept candidate member) applies

end Kakoi
