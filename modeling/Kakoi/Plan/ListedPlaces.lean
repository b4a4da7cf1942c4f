import Kakoi.Plan.Listed

/-! What the "listed" root makes leads to every place it shows. -/

namespace Kakoi

/-- The links made for those walked so far: the host's, where nothing is, one a place, and none
left out. -/
structure LinksMade (facts : MountFacts) (places walked : List Path) (links : List RebuiltLink) :
    Prop where
  own : ∀ link ∈ links, facts.linkTargets link.place = some link.target ∧
    inIsolation link.place places = false
  once : links.Pairwise fun left right => (left.place == right.place) = false
  leads : ∀ place ∈ walked, (facts.linkTargets place).isSome →
    inIsolation place places = true ∨ ∃ link ∈ links, (link.place == place) = true

theorem LinksMade.step (rebuilt : LinksMade facts places walked links) (place : Path) :
    LinksMade facts places (walked ++ [place]) (rebuildLink facts places links place) := by
  unfold rebuildLink
  split
  · rename_i present
    refine { rebuilt with leads := fun other member known => ?_ }
    rcases mem_concat.mp member with earlier | rfl
    · exact rebuilt.leads other earlier known
    · simpa only [Bool.or_eq_true, List.any_eq_true] using present
  · rename_i absent
    simp only [Bool.or_eq_true, List.any_eq_true, not_or, not_exists, not_and,
      Bool.not_eq_true] at absent
    split
    · rename_i target found
      refine ⟨?_, pairwise_concat.mpr ⟨rebuilt.once, absent.2⟩, ?_⟩
      · intro link member
        rcases mem_concat.mp member with earlier | rfl
        · exact rebuilt.own link earlier
        · exact ⟨found, absent.1⟩
      · intro other member known
        rcases mem_concat.mp member with earlier | rfl
        · refine (rebuilt.leads other earlier known).imp_right ?_
          rintro ⟨link, inside, same⟩
          exact ⟨link, mem_concat.mpr (.inl inside), same⟩
        · exact .inr ⟨_, mem_concat.mpr (.inr rfl), Path.beq_self _⟩
    · rename_i missing
      refine { rebuilt with leads := fun other member known => ?_ }
      rcases mem_concat.mp member with earlier | rfl
      · exact rebuilt.leads other earlier known
      · simp [missing] at known

theorem LinksMade.fold (facts : MountFacts) (places walked : List Path) :
    LinksMade facts places walked (walked.foldl (rebuildLink facts places) []) := by
  induction walked using List.reverseRecOn with
  | nil => exact ⟨by simp, .nil, by simp⟩
  | append_singleton walked place ih =>
    rw [List.foldl_append]
    exact ih.step place

theorem inIsolation_of_beq (member : place ∈ places) (same : (path == place) = true) :
    inIsolation path places = true := by
  have inside : path.startsWith place = true := by
    rw [Path.startsWith_iff, (Path.beq_iff _ _).mp same]
  simp only [inIsolation, covered, Bool.or_eq_true, List.any_eq_true]
  exact .inl (.inl ⟨place, member, inside⟩)

/-- The links made again are the host's and collide with nothing, and what the policy shows is there
as written. -/
theorem listed_root_leads (system : Bool) (networkMode : NetworkMode) (items : List ResolvedItem)
    (expanded : ExpandedPolicy) (facts : MountFacts) :
    let root := (listedRoot system networkMode items expanded facts).1
    (∀ link ∈ root.links, facts.linkTargets link.place = some link.target ∧
      root.shows link.place = false) ∧
    (root.links.Pairwise fun left right => (left.place == right.place) = false) ∧
    ∀ written ∈ expanded.mounts, written.directive ≠ .hide →
      ∀ path, written.path.path? = some path → ∀ real, (facts.entry path).path = some real →
      (∃ item ∈ items, item.directive ≠ .hide ∧ (real == item.real) = true) →
      (∀ link ∈ facts.traversedLinks path, (facts.linkTargets link).isSome) →
      root.showsThrough (facts.traversedLinks path) real = true := by
  refine ⟨(LinksMade.fold facts _ _).own, (LinksMade.fold facts _ _).once, ?_⟩
  intro written member shows path named real found ⟨item, listed, kept, same⟩ known
  have shown : item.real ∈ (items.filter (·.directive ≠ .hide)).map (·.real) :=
    List.mem_map_of_mem (List.mem_filter.mpr ⟨listed, by simpa using kept⟩)
  simp only [ListedRoot.showsThrough, Bool.and_eq_true, List.all_eq_true, Bool.or_eq_true,
    List.any_eq_true]
  refine ⟨inIsolation_of_beq ?_ same, fun link traversed =>
    (LinksMade.fold facts _ _).leads link (List.mem_flatMap.mpr ⟨path, ?_, traversed⟩)
      (known link traversed)⟩
  · exact List.mem_append_left _ (List.mem_append_left _ (List.mem_append_right _ shown))
  refine List.mem_append_left _ (List.mem_append_right _ (List.mem_filter.mpr ⟨?_, ?_⟩))
  · exact List.mem_filterMap.mpr
      ⟨written, List.mem_filter.mpr ⟨member, by simpa using shows⟩, named⟩
  · rw [found]
    exact List.contains_iff_exists_mem_beq.mpr ⟨item.real, shown, same⟩

/-- A directory written through a link, as `/var/run` is one to `/run`. -/
def linkedFacts : MountFacts where
  paths := PathMap.empty.insert (.ofString "/var/run/app") (.directory (.ofString "/run/app"))
  links := PathMap.empty.insert (.ofString "/var/run/app") [.ofString "/var/run"]
  linkTargets := PathMap.empty.insert (.ofString "/var/run") (.ofString "/run")

/-- It is shown as written, and the link is made again. -/
theorem linked_place_shown :
    let root := (listedRoot false .none
      [⟨.rw, .ofString "/run/app", .directory, .scan, []⟩]
      { mounts := [.absolute .rw .builtInDefault "/var/run/app"] } linkedFacts).1
    root.links = [⟨.ofString "/var/run", .ofString "/run"⟩] ∧
      root.showsThrough [.ofString "/var/run"] (.ofString "/run/app") = true := by
  refine ⟨by decide +kernel, ?_⟩
  obtain ⟨-, -, leads⟩ := listed_root_leads false .none
    [⟨.rw, .ofString "/run/app", .directory, .scan, []⟩]
    { mounts := [.absolute .rw .builtInDefault "/var/run/app"] } linkedFacts
  exact leads _ List.mem_cons_self nofun _ rfl _ rfl ⟨_, List.mem_cons_self, nofun, by decide⟩
    (by decide)

end Kakoi
