import Kakoi.Plan.MountOrder

/-! What the generators make, and how it is laid over the written items. -/

namespace Kakoi

theorem lay_concat (items front : List ResolvedItem) (last : ResolvedItem) :
    lay items (front ++ [last]) = upsert ResolvedItem.place last (lay items front) := by
  simp [lay]

theorem lay_distinct (distinct : (items.map ResolvedItem.place).Nodup) (generated : List ResolvedItem) :
    ((lay items generated).map ResolvedItem.place).Nodup := by
  induction generated using List.reverseRecOn with
  | nil => exact distinct
  | append_singleton front last ih =>
    rw [lay_concat]
    exact upsert_distinct ih

/-- An item that is laid is generated, or written where nothing is generated. -/
theorem mem_lay (distinct : (items.map ResolvedItem.place).Nodup)
    (member : item ∈ lay items generated) :
    item ∈ generated ∨ (item ∈ items ∧ ∀ new ∈ generated, new.place ≠ item.place) := by
  induction generated using List.reverseRecOn with
  | nil => exact .inr ⟨member, by simp⟩
  | append_singleton front last ih =>
    rw [lay_concat, mem_upsert (lay_distinct distinct front)] at member
    rcases member with rfl | ⟨old, apart⟩
    · exact .inl (by simp)
    · rcases ih old with made | ⟨kept, others⟩
      · exact .inl (List.mem_append_left _ made)
      · refine .inr ⟨kept, ?_⟩
        intro new present
        rcases mem_concat.mp present with earlier | final
        · exact others new earlier
        · rw [final]
          exact fun same => apart same.symm

/-- Where something is generated, a generated item is laid. -/
theorem lay_generated (distinct : (items.map ResolvedItem.place).Nodup) (member : new ∈ generated) :
    ∃ item ∈ lay items generated, item ∈ generated ∧ item.place = new.place := by
  induction generated using List.reverseRecOn with
  | nil => cases member
  | append_singleton front last ih =>
    rw [lay_concat]
    by_cases here : new.place = last.place
    · refine ⟨last, ?_, by simp, here.symm⟩
      exact (mem_upsert (lay_distinct distinct front)).mpr (.inl rfl)
    · rcases mem_concat.mp member with earlier | final
      · obtain ⟨item, laid, made, same⟩ := ih earlier
        refine ⟨item, ?_, List.mem_append_left _ made, same⟩
        exact (mem_upsert (lay_distinct distinct front)).mpr (.inr ⟨laid, same ▸ here⟩)
      · exact absurd (congrArg ResolvedItem.place final) here

/-- A generated item hides what exists at its real path. -/
structure Hides (entry : RealEntry) (item : ResolvedItem) : Prop where
  hide : item.directive = .hide
  real : entry.path = some item.real

theorem generatedHide_hides (made : generatedHide written origin entry = some item) :
    Hides entry item := by
  unfold generatedHide at made
  obtain ⟨⟨real, kind⟩, found, rfl⟩ := Option.map_eq_some_iff.mp made
  exact ⟨rfl, realAndKind_path found⟩

theorem generatedHide_of_path (written : Path) (origin : ItemOrigin)
    (found : entry.path = some real) :
    ∃ item ∈ (generatedHide written origin entry).toList, Hides entry item ∧ item.real = real := by
  cases entry with
  | missing => cases found
  | directory place =>
    cases found
    exact ⟨_, List.mem_singleton_self _, ⟨rfl, rfl⟩, rfl⟩
  | notDirectory place =>
    cases found
    exact ⟨_, List.mem_singleton_self _, ⟨rfl, rfl⟩, rfl⟩

/-- What the scan does with one hit, when it does not stop there. -/
theorem scanHit_ok (passed : scanHit written policyFiles swappableRo scanned hit = .ok next) :
    next.hidden = scanned.hidden ∨
      ∃ real, hit.target = .notDirectory real ∧
        next.hidden = scanned.hidden ++ (generatedHide hit.foundAt .scan hit.target).toList := by
  unfold scanHit at passed
  split at passed
  · rename_i real target
    split at passed
    · cases passed
      exact .inl rfl
    · simp only at passed
      split at passed
      · cases passed
      · split at passed
        · cases passed
          exact .inl rfl
        · cases passed
          exact .inr ⟨real, target, rfl⟩
  · cases passed
    exact .inl rfl
  · cases passed
    exact .inl rfl

theorem scanHit_hides (passed : scanHit written policyFiles swappableRo scanned hit = .ok next)
    (target : hit.target = .notDirectory real) (unread : policyFiles.contains real = false)
    (outside : containingRo written hit real = []) :
    next.hidden = scanned.hidden ++ (generatedHide hit.foundAt .scan hit.target).toList := by
  simp only [scanHit, target, unread, outside, Bool.false_eq_true, ↓reduceIte, List.find?_nil,
    List.head?_nil] at passed
  cases passed
  rw [target]

/-- What the scan hides stays hidden, comes from a hit that is not a directory, and misses none that
it has no reason to leave visible. -/
theorem scanHits_ok {hits : List ScanHit}
    (passed : hits.foldlM (scanHit written policyFiles swappableRo) scanned = .ok final) :
    (∀ item ∈ scanned.hidden, item ∈ final.hidden) ∧
      (∀ item ∈ final.hidden, item ∈ scanned.hidden ∨
        ∃ hit ∈ hits, Hides hit.target item ∧ hit.target = .notDirectory item.real) ∧
      ∀ hit ∈ hits, ∀ real, hit.target = .notDirectory real → policyFiles.contains real = false →
        containingRo written hit real = [] → ∃ item ∈ final.hidden, item.real = real := by
  induction hits generalizing scanned with
  | nil =>
    cases passed
    exact ⟨fun _ member => member, fun _ member => .inl member, by simp⟩
  | cons hit rest ih =>
    rw [List.foldlM_cons] at passed
    obtain ⟨next, first, later⟩ := Except.bind_eq_ok.mp passed
    obtain ⟨grows, sources, complete⟩ := ih later
    have kept : ∀ item ∈ scanned.hidden, item ∈ next.hidden := by
      intro item member
      rcases scanHit_ok first with same | ⟨-, -, more⟩
      · exact same ▸ member
      · rw [more]
        exact List.mem_append_left _ member
    refine ⟨fun item member => grows item (kept item member), ?_, ?_⟩
    · intro item member
      rcases sources item member with old | ⟨other, present, hides, target⟩
      · rcases scanHit_ok first with same | ⟨real, target, more⟩
        · exact .inl (same ▸ old)
        · rw [more, List.mem_append, Option.mem_toList] at old
          rcases old with before | made
          · exact .inl before
          · have hides := generatedHide_hides made
            have found := hides.real
            rw [target] at found
            cases found
            exact .inr ⟨hit, List.mem_cons_self, hides, target⟩
      · exact .inr ⟨other, List.mem_cons_of_mem hit present, hides, target⟩
    · intro other member real target unread outside
      rcases List.mem_cons.mp member with rfl | present
      · have more := scanHit_hides first target unread outside
        have found : other.target.path = some real := by
          rw [target]
          rfl
        obtain ⟨item, made, -, same⟩ := generatedHide_of_path other.foundAt .scan found
        refine ⟨item, grows item ?_, same⟩
        rw [more]
        exact List.mem_append_right _ made
      · exact complete other present real target unread outside

theorem hideMountsItems_ok (passed : hideMountsItems expanded values facts = .ok made) :
    (∀ item ∈ made, item.directive = .hide ∧ ∃ mount ∈ facts.mounts,
      Hides (facts.entry mount.target) item) ∧
      ∀ hide ∈ expanded.hideMounts, ∀ under top, hide.under = .path under →
        (facts.entry under).path = some top → ∀ mount ∈ facts.mounts,
        hiddenMount values hide top mount = true → ∀ real,
        (facts.entry mount.target).path = some real → ∃ item ∈ made, item.real = real := by
  unfold hideMountsItems at passed
  split at passed
  · cases passed
  · cases passed
    constructor
    · intro item member
      obtain ⟨hide, -, inside⟩ := List.mem_flatMap.mp member
      unfold hiddenMounts at inside
      split at inside
      · cases inside
      · obtain ⟨mount, chosen, produced⟩ := List.mem_flatMap.mp inside
        have hides := generatedHide_hides (Option.mem_toList.mp produced)
        exact ⟨hides.hide, mount, (List.mem_filter.mp chosen).1, hides⟩
    · intro hide member under top expansion found mount listed chosen real exists_
      obtain ⟨item, produced, -, same⟩ := generatedHide_of_path mount.target .hideMounts exists_
      refine ⟨item, List.mem_flatMap.mpr ⟨hide, member, ?_⟩, same⟩
      simp only [hiddenMounts, expansion, Expansion.path?, Option.bind_some, found]
      exact List.mem_flatMap.mpr ⟨mount, List.mem_filter.mpr ⟨listed, chosen⟩, produced⟩

theorem secretItems_hides (member : item ∈ secretItems expanded values facts) :
    item.directive = .hide ∧ ∃ path, Hides (facts.entry path) item := by
  rcases List.mem_append.mp member with secret | config
  · obtain ⟨⟨name, expansion⟩, -, inside⟩ := List.mem_flatMap.mp secret
    simp only at inside
    split at inside
    · cases inside
    · rename_i path found
      have hides := generatedHide_hides (Option.mem_toList.mp inside)
      exact ⟨hides.hide, path, hides⟩
  · obtain ⟨path, -, inside⟩ := List.mem_flatMap.mp config
    have hides := generatedHide_hides (Option.mem_toList.mp inside)
    exact ⟨hides.hide, path, hides⟩

theorem secretItems_secret (values : Variables)
    (listed : (name, Expansion.path path) ∈ expanded.secrets.toList)
    (found : (facts.entry path).path = some real) :
    ∃ item ∈ secretItems expanded values facts, item.real = real := by
  obtain ⟨item, made, -, same⟩ := generatedHide_of_path path (.secretFile name) found
  refine ⟨item, List.mem_append_left _ (List.mem_flatMap.mpr ⟨_, listed, ?_⟩), same⟩
  simpa [Expansion.path?] using made

theorem secretItems_config (expanded : ExpandedPolicy) (place : configSecrets values = some path)
    (found : (facts.entry path).path = some real) :
    ∃ item ∈ secretItems expanded values facts, item.real = real := by
  obtain ⟨item, made, -, same⟩ := generatedHide_of_path path .configSecrets found
  refine ⟨item, List.mem_append_right _ (List.mem_flatMap.mpr ⟨path, ?_, made⟩), same⟩
  simp [place]

/-- What `generate` returns: the items generated, all of them hides, laid over the written
ones in mount order. -/
theorem generate_ok (accepted : generate written expanded layers values facts swappableRo = .ok result) :
    ∃ scanned mounts, scanItems written.items layers facts swappableRo = .ok scanned ∧
      hideMountsItems expanded values facts = .ok mounts ∧
      result.items =
        sortItems (lay written.items (scanned.hidden ++ mounts ++ secretItems expanded values facts)) ∧
      checkKinds result.items = .ok () := by
  unfold generate at accepted
  obtain ⟨scanned, first, accepted⟩ := Except.bind_eq_ok.mp accepted
  obtain ⟨mounts, second, accepted⟩ := Except.bind_eq_ok.mp accepted
  obtain ⟨kinds, accepted⟩ := Except.check_eq_ok.mp accepted
  cases accepted
  exact ⟨scanned, mounts, first, second, rfl, kinds⟩

end Kakoi
