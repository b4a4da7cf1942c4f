import Kakoi.Linux.CollectedFacts
import Kakoi.Plan.MountOrder

/-! The conflicts and the result of the merge of the written items, told by identity: the real
path, or the expanded path when nothing is there. -/

namespace Kakoi

/-- The items one layer lists. -/
structure WrittenLayer where
  origin : LayerOrigin
  items : List ExpandedItem
  own : ∀ item ∈ items, item.origin = origin

namespace WrittenLayer

/-- Two items of the layer have this identity and different directives. -/
def Clashes (facts : MountFacts) (layer : WrittenLayer) (identity : Path) : Prop :=
  ∃ form ∈ forms facts layer.items, ∃ other ∈ forms facts layer.items,
    form.key = identity ∧ other.key = identity ∧ form.directive ≠ other.directive

/-- A form of the layer has another directive than the first one the layer has for the
same path. -/
def Contested (facts : MountFacts) (layer : WrittenLayer) (form : Candidate) : Prop :=
  form ∈ forms facts layer.items ∧
    ∃ first, (formsAt facts layer.items form.place).head? = some first ∧
      first.directive ≠ form.directive

end WrittenLayer

/-- Every path of an item is answered by what the files say of it in one spelling. -/
def MountFacts.OfFiles (host : Host) (facts : MountFacts) (expanded : ExpandedPolicy) : Prop :=
  ∀ path ∈ expanded.mountPaths, ∃ spelled, (spelled == path) = true ∧
    facts.entry path = RealPaths.realEntry host spelled

theorem gathered_ofFiles (host : Host) (expanded : ExpandedPolicy) (looked : List Path)
    (values : Variables) (workspace : Option Path) (more : List (List Path)) :
    (collectPathFacts host (gatheredCandidates expanded looked values workspace more)).OfFiles host
      expanded := by
  intro path member
  have listed : path ∈ gatheredPaths expanded looked values more := by
    simp [gatheredPaths, candidatePaths, member]
  obtain ⟨kept, -, same, answer⟩ := gathered_entry host workspace listed
  exact ⟨kept, same, answer path (Path.beq_self path)⟩

def Diagnostic.ReportsAt (diagnostic : Diagnostic) (identity : Path) : Prop :=
  ∃ front, diagnostic.description =
    front ++ [.path identity, .text " with different directives"]

/-- A result of `resolve_written` told by the identities of the items. -/
structure ByIdentity (facts : MountFacts) (layers : List WrittenLayer)
    (result : Except Diagnostic ResolvedMounts) : Prop where
  refused : (∃ diagnostic, result = .error diagnostic) ↔
    ∃ layer ∈ layers, ∃ identity, layer.Clashes facts identity
  reported : ∀ diagnostic, result = .error diagnostic → ∃ identity,
    diagnostic.ReportsAt identity ∧ (∃ layer ∈ layers, layer.Clashes facts identity) ∧
      ∀ other, (∃ layer ∈ layers, layer.Clashes facts other) → identity.byteLe other
  sorted : ∀ resolved, result = .ok resolved → resolved.items.Pairwise byRealPath
  existing : ∀ resolved, result = .ok resolved → ∀ item ∈ resolved.items,
    ∃ layer ∈ layers, ∃ form ∈ forms facts layer.items, form.entry.path = some item.real
  single : ∀ resolved, result = .ok resolved → ∀ real,
    (∃ layer ∈ layers, ∃ form ∈ forms facts layer.items, form.entry.path = some real) →
      resolved.items.countP (·.real = real) = 1
  highest : ∀ resolved, result = .ok resolved → ∀ item ∈ resolved.items,
    ∃ lower layer upper, layers = lower ++ layer :: upper ∧
      (∀ above ∈ upper, ∀ form ∈ forms facts above.items, form.key ≠ item.real) ∧
      (∃ form ∈ forms facts layer.items, form.key = item.real) ∧
      ∀ form ∈ forms facts layer.items, form.key = item.real → form.directive = item.directive

/-- Where two spellings of a path meet, they change nothing. -/
structure SpelledAlike (facts : MountFacts) (layers : List WrittenLayer) : Prop where
  contested : ∀ layer ∈ layers, ∀ form, layer.Contested facts form →
    (∀ other ∈ layers, ∀ rival, other.Contested facts rival → form.key.byteLe rival.key) →
    ∃ same ∈ layers, same.Clashes facts form.key
  standing : (∀ layer ∈ layers, ∀ form, ¬ layer.Contested facts form) →
    ∀ lower layer upper, layers = lower ++ layer :: upper →
    ∀ place, (∀ above ∈ upper, formsAt facts above.items place = []) →
    ∀ first, (formsAt facts layer.items place).head? = some first →
    (∃ other ∈ layers, ∃ form ∈ formsAt facts other.items place, form.entry ≠ .missing) →
    first.entry ≠ .missing

section Layers

variable {layers : List WrittenLayer}

theorem formsAt_layers (facts : MountFacts) (layers : List WrittenLayer) (place : List Component) :
    formsAt facts (layers.flatMap WrittenLayer.items) place =
      (layers.map fun layer => formsAt facts layer.items place).flatten := by
  induction layers with
  | nil => rfl
  | cons layer rest ih => rw [List.flatMap_cons, formsAt_append, ih, List.map_cons, List.flatten_cons]

theorem mem_forms_layers :
    form ∈ forms facts (layers.flatMap WrittenLayer.items) ↔
      ∃ layer ∈ layers, form ∈ forms facts layer.items := by
  simp only [mem_forms, List.mem_flatMap]
  constructor
  · rintro ⟨item, ⟨layer, member, inside⟩, found⟩
    exact ⟨layer, member, item, inside, found⟩
  · rintro ⟨layer, member, item, inside, found⟩
    exact ⟨item, ⟨layer, member, inside⟩, found⟩

/-- One spelling of each path is enough. -/
theorem spelledAlike_of_keys
    (keys : ∀ form ∈ forms facts (layers.flatMap WrittenLayer.items),
      ∀ other ∈ forms facts (layers.flatMap WrittenLayer.items), form.place = other.place →
        form.key = other.key ∧ (form.entry = .missing ↔ other.entry = .missing)) :
    SpelledAlike facts layers where
  contested := by
    rintro layer member form ⟨inside, first, head, different⟩ -
    obtain ⟨known, here⟩ := mem_formsAt.mp (List.mem_of_head? head)
    have same := (keys first (mem_forms_layers.mpr ⟨layer, member, known⟩) form
      (mem_forms_layers.mpr ⟨layer, member, inside⟩) here).1
    exact ⟨layer, member, first, known, form, inside, same, rfl, different⟩
  standing := by
    rintro - lower layer upper rfl place - first head ⟨other, member, form, inside, there⟩ missing
    obtain ⟨known, here⟩ := mem_formsAt.mp (List.mem_of_head? head)
    obtain ⟨present, located⟩ := mem_formsAt.mp inside
    have alike := (keys first (mem_forms_layers.mpr ⟨layer, by simp, known⟩) form
      (mem_forms_layers.mpr ⟨other, member, present⟩) (here.trans located.symm)).2
    exact there (alike.mp missing)

theorem WrittenLayer.form_layer (layer : WrittenLayer) (member : form ∈ forms facts layer.items) :
    form.layer = layer.origin.identity := by
  obtain ⟨item, inside, path, -, rfl⟩ := mem_forms.mp member
  exact congrArg LayerOrigin.identity (layer.own item inside)

/-- The forms of a place, layer by layer. -/
theorem ownLayers_formsAt
    (apart : layers.Pairwise fun lower upper => (lower.origin == upper.origin) = false)
    (place : List Component) :
    OwnLayers Candidate.layer (layers.map fun layer => formsAt facts layer.items place) where
  shared := by
    intro block member form inside other present
    obtain ⟨layer, -, rfl⟩ := List.mem_map.mp member
    rw [layer.form_layer (mem_formsAt.mp inside).1, layer.form_layer (mem_formsAt.mp present).1]
  apart := by
    refine List.pairwise_map.mpr (apart.imp ?_)
    intro lower upper different form inside other present same
    rw [lower.form_layer (mem_formsAt.mp inside).1, upper.form_layer (mem_formsAt.mp present).1] at same
    rw [(LayerOrigin.beq_iff _ _).mpr same] at different
    cases different

/-- The merge disputes a form exactly when a layer contests it. -/
theorem disputed_iff_contested
    (apart : layers.Pairwise fun lower upper => (lower.origin == upper.origin) = false) :
    (∃ standing, Disputed Candidate.layer Candidate.directive
      (formsAt facts (layers.flatMap WrittenLayer.items) next.place) standing next) ↔
      ∃ layer ∈ layers, layer.Contested facts next := by
  rw [formsAt_layers]
  simp only [(ownLayers_formsAt apart next.place).disputed_iff, List.mem_map]
  constructor
  · rintro ⟨standing, block, ⟨layer, member, rfl⟩, inside, head, different⟩
    exact ⟨layer, member, (mem_formsAt.mp inside).1, standing, head, different⟩
  · rintro ⟨layer, member, inside, standing, head, different⟩
    exact ⟨standing, _, ⟨layer, member, rfl⟩, mem_formsAt.mpr ⟨inside, rfl⟩, head, different⟩

/-- The form that stands at a place: the first of the last layer that has one. -/
theorem winner_layers_iff
    (apart : layers.Pairwise fun lower upper => (lower.origin == upper.origin) = false) :
    winner Candidate.layer (formsAt facts (layers.flatMap WrittenLayer.items) place) = some chosen ↔
      ∃ lower layer upper, layers = lower ++ layer :: upper ∧
        (∀ above ∈ upper, formsAt facts above.items place = []) ∧
        (formsAt facts layer.items place).head? = some chosen := by
  rw [formsAt_layers, (ownLayers_formsAt apart place).winner_iff]
  constructor
  · rintro ⟨front, block, back, split, empty, head⟩
    obtain ⟨lower, tail, rfl, rfl, rest⟩ := List.map_eq_append_iff.mp split
    obtain ⟨layer, upper, rfl, rfl, rfl⟩ := List.map_eq_cons_iff.mp rest
    exact ⟨lower, layer, upper, rfl, by simpa using empty, head⟩
  · rintro ⟨lower, layer, upper, rfl, empty, head⟩
    exact ⟨_, _, _, List.map_append, by simpa using empty, head⟩

end Layers

/-- The conflicts recorded after these written items. -/
def Recorded (facts : MountFacts) (mounts : List ExpandedItem) (merging : Merging) : Prop :=
  ∀ pair, pair ∈ merging.conflicts ↔ ∃ standing next,
    Disputed Candidate.layer Candidate.directive (formsAt facts mounts next.place) standing next ∧
      pair = conflict standing next

theorem disputed_append_elsewhere (elsewhere : formsAt facts [item] next.place = []) :
    Disputed Candidate.layer Candidate.directive (formsAt facts (mounts ++ [item]) next.place) standing next ↔
      Disputed Candidate.layer Candidate.directive (formsAt facts mounts next.place) standing next := by
  rw [formsAt_append, elsewhere, List.append_nil]

/-- One more form is disputed by what stands at its place, and by nothing else. -/
theorem disputed_append (expanded : item.path = .path path) :
    Disputed Candidate.layer Candidate.directive (formsAt facts (mounts ++ [item]) next.place) standing next ↔
      Disputed Candidate.layer Candidate.directive (formsAt facts mounts next.place) standing next ∨
        (next = candidateOf facts item path ∧
          winner Candidate.layer (formsAt facts mounts (candidateOf facts item path).place) = some standing ∧
          standing.layer = (candidateOf facts item path).layer ∧
          standing.directive ≠ (candidateOf facts item path).directive) := by
  by_cases here : (candidateOf facts item path).place = next.place
  · rw [formsAt_append, formsAt_here expanded here, disputed_concat, here]
  · rw [disputed_append_elsewhere (formsAt_elsewhere expanded here)]
    refine ⟨.inl, fun either => either.resolve_right ?_⟩
    rintro ⟨rfl, -⟩
    exact here rfl

theorem Recorded.quiet (recorded : Recorded facts mounts merging) (expanded : item.path = .path path)
    (agreed : ∀ standing,
      winner Candidate.layer (formsAt facts mounts (candidateOf facts item path).place) = some standing →
      standing.layer = (candidateOf facts item path).layer →
      standing.directive = (candidateOf facts item path).directive)
    (same : after.conflicts = merging.conflicts) : Recorded facts (mounts ++ [item]) after := by
  intro pair
  rw [same, recorded pair]
  refine exists_congr fun standing => exists_congr fun next => and_congr_left fun _ => ?_
  rw [disputed_append expanded]
  refine ⟨.inl, fun either => either.resolve_right ?_⟩
  rintro ⟨-, won, layer, different⟩
  exact different (agreed standing won layer)

theorem Recorded.step (recorded : Recorded facts mounts merging) (merged : Merged facts mounts merging)
    (item : ExpandedItem) : Recorded facts (mounts ++ [item]) (mergeItem facts merging item) := by
  unfold mergeItem
  cases expanded : item.path with
  | valueless start =>
    intro pair
    simp only [recorded pair, disputed_append_elsewhere (formsAt_valueless expanded)]
  | path path =>
    simp only
    split
    · rename_i existing found
      obtain ⟨-, won⟩ := merged.winner_of_find found
      split
      · rename_i other
        refine recorded.quiet expanded ?_ rfl
        intro standing stood layer
        rw [won] at stood
        cases stood
        simp [bne, (LayerOrigin.beq_iff _ _).mpr layer] at other
      · rename_i notOther
        have same : existing.layer = (candidateOf facts item path).layer := by
          apply (LayerOrigin.beq_iff _ _).mp
          simpa [bne] using notOther
        split
        · rename_i different
          intro pair
          simp only [List.mem_append, List.mem_singleton, recorded pair, disputed_append expanded]
          constructor
          · rintro (⟨standing, next, disputed, rfl⟩ | rfl)
            · exact ⟨standing, next, .inl disputed, rfl⟩
            · exact ⟨existing, _, .inr ⟨rfl, won, same, different⟩, rfl⟩
          · rintro ⟨standing, next, disputed | ⟨rfl, stood, -, -⟩, rfl⟩
            · exact .inl ⟨standing, next, disputed, rfl⟩
            · rw [won] at stood
              cases stood
              exact .inr rfl
        · rename_i equal
          refine recorded.quiet expanded ?_ rfl
          intro standing stood _
          rw [won] at stood
          cases stood
          exact not_not.mp equal
    · rename_i missing
      refine recorded.quiet expanded ?_ rfl
      intro standing stood
      rw [(merged.absent_of_find missing).2] at stood
      cases stood

theorem merge_recorded (facts : MountFacts) (mounts : List ExpandedItem) :
    Recorded facts mounts (mounts.foldl (mergeItem facts) {}) := by
  induction mounts using List.reverseRecOn with
  | nil =>
    intro pair
    simp [formsAt, forms, Disputed]
  | append_singleton front item ih =>
    rw [List.foldl_append]
    exact ih.step (merge_merged facts front) item

theorem least_conflict
    (chosen : minBy (fun
    (left right : Path × Diagnostic) => left.1.byteLe right.1) conflicts = some best) :
    best ∈ conflicts ∧ ∀ other ∈ conflicts, best.1.byteLe other.1 :=
  minBy_least (fun (left right : Path × Diagnostic) => le_total left.1.byteRank right.1.byteRank)
    (fun _ _ _ lower upper => le_trans (α := List Nat) lower upper) chosen

/-- An error is the conflict of the disputed form with the least key. -/
theorem resolveWritten_error (failed : resolveWritten expanded facts = .error diagnostic) :
    ∃ standing next, diagnostic = (conflict standing next).2 ∧
      Disputed Candidate.layer Candidate.directive (formsAt facts expanded.mounts next.place)
        standing next ∧
      ∀ stood other, Disputed Candidate.layer Candidate.directive
        (formsAt facts expanded.mounts other.place) stood other → next.key.byteLe other.key := by
  have recorded := merge_recorded facts expanded.mounts
  unfold resolveWritten at failed
  simp only at failed
  split at failed
  · rename_i key reported chosen
    cases failed
    obtain ⟨member, least⟩ := least_conflict chosen
    obtain ⟨standing, next, disputed, same⟩ := (recorded _).mp member
    refine ⟨standing, next, congrArg Prod.snd same, disputed, ?_⟩
    intro stood other rival
    have behind := least _ ((recorded _).mpr ⟨stood, other, rival, rfl⟩)
    rw [same] at behind
    exact behind
  · cases failed

theorem resolveWritten_ok_iff (expanded : ExpandedPolicy) (facts : MountFacts) :
    (∃ resolved, resolveWritten expanded facts = .ok resolved) ↔
      ∀ standing next, ¬ Disputed Candidate.layer Candidate.directive
        (formsAt facts expanded.mounts next.place) standing next := by
  have recorded := merge_recorded facts expanded.mounts
  constructor
  · rintro ⟨resolved, accepted⟩ standing next
    exact harmonious_iff.mp ((resolveWritten_result accepted).harmonious next.place) standing next
  · intro quiet
    unfold resolveWritten
    simp only
    split
    · rename_i key diagnostic chosen
      obtain ⟨member, -⟩ := least_conflict chosen
      obtain ⟨standing, next, disputed, -⟩ := (recorded _).mp member
      exact absurd disputed (quiet standing next)
    · exact ⟨_, rfl⟩

theorem resolveWritten_sorted (accepted : resolveWritten expanded facts = .ok resolved) :
    resolved.items.Pairwise byRealPath := by
  unfold resolveWritten at accepted
  simp only at accepted
  split at accepted
  · cases accepted
  · cases accepted
    exact List.pairwise_insertionSort byRealPath _

theorem conflict_reportsAt (standing next : Candidate) :
    (conflict standing next).2.ReportsAt identity ↔ next.key = identity := by
  have description : (conflict standing next).2.description =
      format ["`", standing.written, "` and `", next.written, "` name the same path "] ++
        [Fragment.path next.key, Fragment.text " with different directives"] := by
    unfold conflict
    cases next.origin <;> simp [format, Diagnostic.usage, Diagnostic.policy]
  unfold Diagnostic.ReportsAt
  rw [description]
  constructor
  · rintro ⟨front, same⟩
    have ends := (List.append_inj' same rfl).2
    simpa using ends
  · rintro rfl
    exact ⟨_, rfl⟩

section ByIdentity

variable {layers : List WrittenLayer} {expanded : ExpandedPolicy}

/-- A clash of a layer makes it contest a form with that identity. -/
theorem WrittenLayer.Clashes.contested {layer : WrittenLayer} (clash : layer.Clashes facts identity) :
    ∃ form, layer.Contested facts form ∧ form.key = identity := by
  obtain ⟨form, member, other, present, rfl, same, different⟩ := clash
  have place : other.place = form.place := congrArg Path.components same
  have inside : form ∈ formsAt facts layer.items form.place := mem_formsAt.mpr ⟨member, rfl⟩
  obtain ⟨first, rest, split⟩ := List.exists_cons_of_ne_nil (List.ne_nil_of_mem inside)
  have head : (formsAt facts layer.items form.place).head? = some first := by rw [split]; rfl
  by_cases agrees : first.directive = form.directive
  · exact ⟨other, ⟨present, first, by rw [place, head], agrees ▸ different⟩, same⟩
  · exact ⟨form, ⟨member, first, head, agrees⟩, rfl⟩

/-- Forms of one place that exist have the same real path. -/
theorem existing_key (truthful : facts.OfFiles host expanded)
    (member : form ∈ forms facts expanded.mounts) (found : form.entry.path = some real) :
    form.key = real ∧ real.Canonical := by
  obtain ⟨item, inside, path, expands, rfl⟩ := mem_forms.mp member
  have listed : path ∈ expanded.mountPaths :=
    List.mem_filterMap.mpr ⟨item, inside, by simp [expands, Expansion.path?]⟩
  obtain ⟨spelled, -, answer⟩ := truthful path listed
  have entry : (facts.entry path).path = some real := found
  have there : (RealPaths.realEntry host spelled).path = some real := answer ▸ entry
  refine ⟨?_, RealPaths.realEntry_canonical there⟩
  show (facts.entry path).path.getD path = real
  rw [entry, Option.getD_some]

theorem RealEntry.path_of_present {entry : RealEntry} (present : entry ≠ .missing) :
    ∃ real, entry.path = some real := by
  cases entry with
  | missing => exact absurd rfl present
  | directory real => exact ⟨real, rfl⟩
  | notDirectory real => exact ⟨real, rfl⟩

theorem item_of_existing {form : Candidate} (found : form.entry.path = some real) :
    ∃ item, form.item = some item ∧ item.real = real := by
  unfold Candidate.item
  cases entry : form.entry with
  | missing => simp [entry, RealEntry.path] at found
  | directory place =>
    have same : place = real := by simpa [entry, RealEntry.path] using found
    exact ⟨_, rfl, same⟩
  | notDirectory place =>
    have same : place = real := by simpa [entry, RealEntry.path] using found
    exact ⟨_, rfl, same⟩

theorem existing_of_item {form : Candidate} (applies : form.item = some item) :
    form.entry.path = some item.real := by
  unfold Candidate.item at applies
  obtain ⟨⟨real, kind⟩, found, rfl⟩ := Option.map_eq_some_iff.mp applies
  exact realAndKind_path found

variable (written : expanded.mounts = layers.flatMap WrittenLayer.items)
  (apart : layers.Pairwise fun lower upper => (lower.origin == upper.origin) = false)

include written apart

theorem error_contested (failed : resolveWritten expanded facts = .error diagnostic) :
    ∃ layer ∈ layers, ∃ form, layer.Contested facts form ∧
      (∀ identity, diagnostic.ReportsAt identity ↔ form.key = identity) ∧
      ∀ other ∈ layers, ∀ rival, other.Contested facts rival → form.key.byteLe rival.key := by
  obtain ⟨standing, next, rfl, disputed, least⟩ := resolveWritten_error failed
  rw [written] at disputed least
  obtain ⟨layer, member, contested⟩ := (disputed_iff_contested apart).mp ⟨standing, disputed⟩
  refine ⟨layer, member, next, contested, fun identity => conflict_reportsAt standing next, ?_⟩
  intro other present rival contest
  obtain ⟨stood, between⟩ := (disputed_iff_contested apart).mpr ⟨other, present, contest⟩
  exact least stood rival between

theorem error_iff_contested :
    (∃ diagnostic, resolveWritten expanded facts = .error diagnostic) ↔
      ∃ layer ∈ layers, ∃ form, layer.Contested facts form := by
  constructor
  · rintro ⟨diagnostic, failed⟩
    obtain ⟨layer, member, form, contested, -⟩ := error_contested written apart failed
    exact ⟨layer, member, form, contested⟩
  · rintro ⟨layer, member, form, contested⟩
    obtain ⟨standing, disputed⟩ := (disputed_iff_contested apart).mpr ⟨layer, member, contested⟩
    cases result : resolveWritten expanded facts with
    | error diagnostic => exact ⟨diagnostic, rfl⟩
    | ok resolved =>
      have quiet := (resolveWritten_ok_iff expanded facts).mp ⟨resolved, result⟩
      rw [written] at quiet
      exact absurd disputed (quiet standing form)

theorem uncontested_of_ok (accepted : resolveWritten expanded facts = .ok resolved) :
    ∀ layer ∈ layers, ∀ form, ¬ layer.Contested facts form := by
  intro layer member form contested
  obtain ⟨diagnostic, failed⟩ := (error_iff_contested written apart).mpr ⟨layer, member, form, contested⟩
  rw [accepted] at failed
  cases failed

/-- The items: for each place where the form that stands exists, that form. -/
theorem item_stands (accepted : resolveWritten expanded facts = .ok resolved)
    (member : item ∈ resolved.items) :
    ∃ lower layer upper first, layers = lower ++ layer :: upper ∧
      (∀ above ∈ upper, formsAt facts above.items item.place = []) ∧
      (formsAt facts layer.items item.place).head? = some first ∧ first.item = some item := by
  obtain ⟨first, present, won, applies⟩ := ((resolveWritten_result accepted).stands item).mp member
  rw [← item_place present applies, written] at won
  obtain ⟨lower, layer, upper, split, empty, head⟩ := (winner_layers_iff apart).mp won
  exact ⟨lower, layer, upper, first, split, empty, head, applies⟩

/-- Once the items are accepted, an identity that exists has an item exactly when the form
that stands at its place exists. -/
theorem item_at (truthful : facts.OfFiles host expanded)
    (accepted : resolveWritten expanded facts = .ok resolved)
    (split : layers = lower ++ layer :: upper)
    (empty : ∀ above ∈ upper, formsAt facts above.items (Path.components real) = [])
    (head : (formsAt facts layer.items real.components).head? = some first) (plain : real.Canonical) :
    (∃ item ∈ resolved.items, item.real = real) ↔ first.entry ≠ .missing := by
  have won : winner Candidate.layer (formsAt facts expanded.mounts real.components) = some first := by
    rw [written]
    exact (winner_layers_iff apart).mpr ⟨lower, layer, upper, split, empty, head⟩
  have here : first.place = real.components := place_of_mem_formsAt (winner_mem won)
  have present : first ∈ forms facts expanded.mounts := (mem_formsAt.mp (winner_mem won)).1
  constructor
  · rintro ⟨item, member, rfl⟩ missing
    obtain ⟨candidate, known, stands, applies⟩ :=
      ((resolveWritten_result accepted).stands item).mp member
    have same : candidate.place = item.real.components := (item_place known applies).symm
    rw [same, won] at stands
    cases stands
    have existing := existing_of_item applies
    rw [missing] at existing
    cases existing
  · intro there
    obtain ⟨place, found⟩ := RealEntry.path_of_present there
    obtain ⟨key, known⟩ := existing_key truthful present found
    have same : place = real := by
      refine (known.beq_iff_eq plain).mp ((Path.beq_iff _ _).mpr ?_)
      rw [← key]
      exact here
    obtain ⟨item, applies, located⟩ := item_of_existing found
    refine ⟨item, ((resolveWritten_result accepted).stands item).mpr
      ⟨first, present, ?_, applies⟩, located.trans same⟩
    rw [here]
    exact won

omit written apart in
theorem countP_real {items : List ResolvedItem} {item : ResolvedItem}
    (distinct : (items.map ResolvedItem.place).Nodup) (member : item ∈ items)
    (located : item.real = real) : items.countP (·.real = real) = 1 := by
  have once := List.nodup_iff_count_le_one.mp distinct real.components
  have fewer : items.countP (·.real = real) ≤ (items.map ResolvedItem.place).count real.components := by
    rw [List.count, List.countP_map]
    apply List.countP_mono_left
    intro other _ same
    simpa [ResolvedItem.place] using congrArg Path.components (of_decide_eq_true same)
  have some : 0 < items.countP (·.real = real) :=
    List.countP_pos_iff.mpr ⟨item, member, decide_eq_true located⟩
  omega

omit apart in
theorem form_existing (truthful : facts.OfFiles host expanded) (member : layer ∈ layers)
    (inside : form ∈ forms facts layer.items) (found : form.entry.path = some real) :
    form.key = real ∧ real.Canonical :=
  existing_key truthful (written ▸ mem_forms_layers.mpr ⟨layer, member, inside⟩) found

theorem single_of_standing (truthful : facts.OfFiles host expanded) (alike : SpelledAlike facts layers)
    (accepted : resolveWritten expanded facts = .ok resolved) (member : layer ∈ layers)
    (inside : form ∈ forms facts layer.items) (found : form.entry.path = some real) :
    resolved.items.countP (·.real = real) = 1 := by
  obtain ⟨key, plain⟩ := form_existing written truthful member inside found
  have here : form ∈ formsAt facts layer.items real.components :=
    mem_formsAt.mpr ⟨inside, congrArg Path.components key⟩
  have filled : formsAt facts (layers.flatMap WrittenLayer.items) real.components ≠ [] := by
    rw [formsAt_layers]
    exact List.ne_nil_of_mem (List.mem_flatten.mpr ⟨_, List.mem_map.mpr ⟨layer, member, rfl⟩, here⟩)
  obtain ⟨first, won⟩ := Option.ne_none_iff_exists'.mp fun none =>
    filled ((winner_eq_none Candidate.layer).mp none)
  obtain ⟨lower, top, upper, split, empty, head⟩ := (winner_layers_iff apart).mp won
  have present : form.entry ≠ .missing := by
    intro missing
    rw [missing] at found
    cases found
  have stands := alike.standing (uncontested_of_ok written apart accepted) lower top upper split _ empty
    first head ⟨layer, member, form, here, present⟩
  obtain ⟨item, listed, located⟩ :=
    (item_at written apart truthful accepted split empty head plain).mpr stands
  exact countP_real (resolveWritten_result accepted).distinct listed located

theorem standing_of_single (truthful : facts.OfFiles host expanded)
    (told : ByIdentity facts layers (resolveWritten expanded facts))
    (quiet : ∀ layer ∈ layers, ∀ form, ¬ layer.Contested facts form)
    (split : layers = lower ++ layer :: upper)
    (empty : ∀ above ∈ upper, formsAt facts above.items place = [])
    (head : (formsAt facts layer.items place).head? = some first)
    (member : other ∈ layers) (inside : form ∈ formsAt facts other.items place)
    (there : form.entry ≠ .missing) : first.entry ≠ .missing := by
  obtain ⟨real, found⟩ := RealEntry.path_of_present there
  obtain ⟨known, rfl⟩ := mem_formsAt.mp inside
  obtain ⟨key, plain⟩ := form_existing written truthful member known found
  cases result : resolveWritten expanded facts with
  | error diagnostic =>
    obtain ⟨contester, present, rival, contested⟩ :=
      (error_iff_contested written apart).mp ⟨diagnostic, result⟩
    exact absurd contested (quiet contester present rival)
  | ok resolved =>
    have once := told.single resolved result real ⟨other, member, form, known, found⟩
    obtain ⟨item, listed, located⟩ := List.countP_pos_iff.mp (once ▸ Nat.one_pos)
    unfold Candidate.place at empty head
    rw [key] at empty head
    exact (item_at written apart truthful result split empty head plain).mp
      ⟨item, listed, of_decide_eq_true located⟩

theorem item_highest (truthful : facts.OfFiles host expanded)
    (accepted : resolveWritten expanded facts = .ok resolved) (listed : item ∈ resolved.items) :
    ∃ lower layer upper, layers = lower ++ layer :: upper ∧
      (∀ above ∈ upper, ∀ form ∈ forms facts above.items, form.key ≠ item.real) ∧
      (∃ form ∈ forms facts layer.items, form.key = item.real) ∧
      ∀ form ∈ forms facts layer.items, form.key = item.real → form.directive = item.directive := by
  obtain ⟨lower, layer, upper, first, split, empty, head, applies⟩ :=
    item_stands written apart accepted listed
  have member : layer ∈ layers := by simp [split]
  obtain ⟨known, -⟩ := mem_formsAt.mp (List.mem_of_head? head)
  have key := (form_existing written truthful member known (existing_of_item applies)).1
  refine ⟨lower, layer, upper, split, ?_, ⟨first, known, key⟩, ?_⟩
  · intro above higher form inside same
    have here : form ∈ formsAt facts above.items item.place :=
      mem_formsAt.mpr ⟨inside, congrArg Path.components same⟩
    rw [empty above higher] at here
    cases here
  · intro form inside same
    have place : form.place = item.place := congrArg Path.components same
    have directive : first.directive = item.directive := by
      unfold Candidate.item at applies
      obtain ⟨pair, -, rfl⟩ := Option.map_eq_some_iff.mp applies
      rfl
    rw [← directive]
    by_contra different
    refine uncontested_of_ok written apart accepted layer member form ⟨inside, first, ?_, Ne.symm different⟩
    rw [place, head]

/-- `resolve_written` acts by identity exactly when no path is written in a spelling that
meets another one's identity and changes what becomes of it. -/
theorem resolve_written_by_identity_iff (truthful : facts.OfFiles host expanded) :
    ByIdentity facts layers (resolveWritten expanded facts) ↔ SpelledAlike facts layers := by
  constructor
  · intro told
    refine ⟨?_, ?_⟩
    · intro layer member form contested least
      obtain ⟨diagnostic, failed⟩ :=
        (error_iff_contested written apart).mpr ⟨layer, member, form, contested⟩
      obtain ⟨other, present, rival, contest, reports, first⟩ := error_contested written apart failed
      obtain ⟨identity, named, clash, -⟩ := told.reported diagnostic failed
      have same : form.key = rival.key :=
        Path.byteLe_antisymm (least other present rival contest) (first layer member form contested)
      rw [same, (reports identity).mp named]
      exact clash
    · intro quiet lower layer upper split place empty first head existing
      obtain ⟨other, member, form, inside, there⟩ := existing
      exact standing_of_single written apart truthful told quiet split empty head member inside there
  · intro alike
    refine ⟨?_, ?_, ?_, ?_, ?_, ?_⟩
    · rw [error_iff_contested written apart]
      constructor
      · intro contests
        obtain ⟨diagnostic, failed⟩ := (error_iff_contested written apart).mpr contests
        obtain ⟨layer, member, form, contested, -, least⟩ := error_contested written apart failed
        obtain ⟨same, present, clash⟩ := alike.contested layer member form contested least
        exact ⟨same, present, form.key, clash⟩
      · rintro ⟨layer, member, identity, clash⟩
        obtain ⟨form, contested, -⟩ := clash.contested
        exact ⟨layer, member, form, contested⟩
    · intro diagnostic failed
      obtain ⟨layer, member, form, contested, reports, least⟩ := error_contested written apart failed
      refine ⟨form.key, (reports _).mpr rfl, alike.contested layer member form contested least, ?_⟩
      rintro other ⟨clashing, present, clash⟩
      obtain ⟨rival, contest, rfl⟩ := clash.contested
      exact least clashing present rival contest
    · exact fun resolved accepted => resolveWritten_sorted accepted
    · intro resolved accepted item member
      obtain ⟨lower, layer, upper, first, rfl, -, head, applies⟩ :=
        item_stands written apart accepted member
      exact ⟨layer, by simp, first, (mem_formsAt.mp (List.mem_of_head? head)).1,
        existing_of_item applies⟩
    · rintro resolved accepted real ⟨layer, member, form, inside, found⟩
      exact single_of_standing written apart truthful alike accepted member inside found
    · intro resolved accepted item listed
      exact item_highest written apart truthful accepted listed

end ByIdentity

def respelledItem (directive : Directive) (origin : LayerOrigin) (text : String) : ExpandedItem where
  directive := directive
  written := .absolute (Path.ofString text)
  origin := origin
  path := .path (Path.ofString text)

/-- `/x` is a link to the file `/m/b`. -/
def respelledHost : Host :=
  { FileSystem.ofTable
      [⟨Path.root, utf8 "m", .directory⟩, ⟨Path.ofString "/m", utf8 "b", .other⟩,
       ⟨Path.root, utf8 "x", .link (Path.ofString "/m/b")⟩] (by decide +kernel) with
    currentDir := some Path.root
    mountList := none }

def respelledProfile : LayerOrigin := .profile (Path.ofString "/p")

def respelledFile : LayerOrigin := .policyFile (Path.ofString "/f")

/-- The profile hides the file through the link; the policy file names it again. -/
def respelledLayers (text : String) : List WrittenLayer :=
  [{ origin := respelledProfile
     items := [respelledItem .hide respelledProfile "/x"]
     own := by simp [respelledItem] },
   { origin := respelledFile
     items := [respelledItem .ro respelledFile text]
     own := by simp [respelledItem] }]

def respelledPolicy (text : String) : ExpandedPolicy where
  mounts := (respelledLayers text).flatMap WrittenLayer.items

def respelledFacts (text : String) : MountFacts :=
  collectPathFacts respelledHost
    (gatheredCandidates (respelledPolicy text) [] { workspace := Path.root, worktree := Path.root } none [])

theorem respelledLayers_apart (text : String) :
    (respelledLayers text).Pairwise fun lower upper => (lower.origin == upper.origin) = false := by
  simp [respelledLayers, respelledProfile, respelledFile, BEq.beq]

/-- With its own path written above it the file is shown read only, as that layer says. -/
theorem rewritten_by_identity :
    ByIdentity (respelledFacts "/m/b") (respelledLayers "/m/b")
      (resolveWritten (respelledPolicy "/m/b") (respelledFacts "/m/b")) := by
  refine (resolve_written_by_identity_iff rfl (respelledLayers_apart _)
    (gathered_ofFiles respelledHost _ _ _ _ _)).mpr (spelledAlike_of_keys ?_)
  decide +kernel

/-- Written with a slash behind it nothing is there, and yet it takes the place of the
item that hides the file. -/
theorem respelled_file_shown :
    (respelledFacts "/m/b/").OfFiles respelledHost (respelledPolicy "/m/b/") ∧
      ¬ ByIdentity (respelledFacts "/m/b/") (respelledLayers "/m/b/")
        (resolveWritten (respelledPolicy "/m/b/") (respelledFacts "/m/b/")) := by
  refine ⟨gathered_ofFiles respelledHost _ _ _ _ _, ?_⟩
  intro told
  have empty : ∃ resolved,
      resolveWritten (respelledPolicy "/m/b/") (respelledFacts "/m/b/") = .ok resolved ∧
      resolved.items = [] := by decide +kernel
  obtain ⟨resolved, accepted, none⟩ := empty
  have once := told.single resolved accepted (Path.ofString "/m/b") (by decide +kernel)
  rw [none] at once
  cases once

end Kakoi
