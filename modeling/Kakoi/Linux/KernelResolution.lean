import Kakoi.Base.PathSet
import Kakoi.Linux.WalkRecord

/-! How a path is resolved, said without the loop of `walk`: the target of a link is resolved in
its own right before the names behind it. The loop finds the same. -/

namespace Kakoi

namespace Path

/-- The names between the slashes of a path, without those that are empty or `.`. -/
def names (path : Path) : List Name := path.pieces.filter fun piece => !trivialPiece piece

/-- Whether a path ends in a slash or in `.`, and so asks for a directory. -/
def trailing (path : Path) : Bool := path.pieces.getLast?.any trivialPiece

end Path

namespace RealPaths

/-- The name a component is looked up by. -/
def lookedUpName : Component → Option Name
  | .normal name => some name
  | .parentDir => some [dot, dot]
  | .rootDir | .curDir => none

theorem namesOf_components (path : Path) : namesOf path = path.components.filterMap lookedUpName := by
  unfold namesOf
  refine List.filterMap_congr fun component _ => ?_
  cases component with
  | _ => rfl

theorem namesOf_eq (path : Path) : namesOf path = path.names := by
  have body : namesOf path = (path.pieces.filterMap Component.ofPiece).filterMap lookedUpName := by
    rw [namesOf_components]
    unfold Path.components
    dsimp only
    split
    · rfl
    · split
      · rfl
      · rfl
  rw [body, List.filterMap_filterMap, Path.names, ← List.filterMap_eq_filter]
  refine List.filterMap_congr fun piece _ => ?_
  unfold Component.ofPiece
  by_cases empty : piece = []
  · subst empty
    rfl
  · by_cases here : piece = [dot]
    · subst here
      rfl
    · by_cases up : piece = [dot, dot]
      · subst up
        rfl
      · simp [empty, here, up, Path.trivialPiece, Option.guard, lookedUpName]

theorem getLast_pieces (unsplit : slash ∉ tail) (front : Name) :
    (Path.mk (front ++ slash :: tail)).pieces.getLast? = some tail := by
  rw [Path.pieces_append, Path.pieces_unsplit unsplit, List.getLast?_concat]

theorem last_unique {ahead front more tail : Name} (same : ahead ++ slash :: more = front ++ slash :: tail)
    (first : slash ∉ more) (second : slash ∉ tail) : more = tail := by
  have last := getLast_pieces first ahead
  rw [same, getLast_pieces second] at last
  exact (Option.some.inj last).symm

theorem requiresDirectory_last (unsplit : slash ∉ tail) (front : Name) :
    requiresDirectory ⟨front ++ slash :: tail⟩ = Path.trivialPiece tail := by
  rw [Bool.eq_iff_iff]
  simp only [requiresDirectory, Path.endsWith, Bool.or_eq_true, List.isSuffixOf_iff_suffix,
    Path.trivialPiece, beq_iff_eq]
  constructor
  · rintro (⟨ahead, same⟩ | ⟨ahead, same⟩)
    · exact .inl (last_unique same (by simp) unsplit).symm
    · exact .inr (last_unique same (by decide) unsplit).symm
  · rintro (rfl | rfl)
    · exact .inl ⟨front, rfl⟩
    · exact .inr ⟨front, rfl⟩

/-- A path asks for a directory where the source says so, or it names nothing but the place it
is taken against. -/
theorem requires_or_nameless (path : Path) :
    path.trailing = requiresDirectory path ∨
      requiresDirectory path = false ∧ path.names = [] ∧ path.isAbsolute = false := by
  obtain ⟨spelled⟩ := path
  rcases Path.unsplit_or_last spelled with unsplit | ⟨front, tail, rfl, unsplit⟩
  · have ends : requiresDirectory ⟨spelled⟩ = false := by
      rw [Bool.eq_false_iff]
      simp only [requiresDirectory, Path.endsWith, ne_eq, Bool.or_eq_true,
        List.isSuffixOf_iff_suffix]
      rintro (⟨ahead, rfl⟩ | ⟨ahead, rfl⟩)
      · simp at unsplit
      · simp at unsplit
    by_cases trivial : Path.trivialPiece spelled = true
    · right
      refine ⟨ends, by simp [Path.names, Path.pieces_unsplit unsplit, trivial], ?_⟩
      simp only [Path.trivialPiece, Bool.or_eq_true, beq_iff_eq] at trivial
      rcases trivial with rfl | rfl
      · rfl
      · rfl
    · left
      rw [ends, Path.trailing, Path.pieces_unsplit unsplit]
      simpa using trivial
  · left
    rw [requiresDirectory_last unsplit, Path.trailing, getLast_pieces unsplit, Option.any_some]

/-- What happens on the way: a name is looked up, a link is followed, the end of its target has to
be a directory, or a name stands behind what is not one. -/
inductive WalkEvent where
  | lookup (directory : Path) (name : Name)
  | follow (link target : Path)
  | required (place : Path)
  | blocked (place : Path)

/-- Where the target of a link that is found in a directory is taken against. -/
def startOf (target directory : Path) : Path := if target.isAbsolute then Path.root else directory

/-- What the target of a link asks of the place it leads to. -/
def ending (target middle : Path) : List WalkEvent :=
  if target.trailing then [.required middle] else []

/-- The resolution of names from a place with so many links left to follow: what happens, and
where it leads with how many links left. -/
inductive Resolves (files : FileSystem) :
    Nat → Path → List Name → List WalkEvent → Option (Path × Nat) → Prop where
  | done : Resolves files links place [] [] (some (place, links))
  | blocked (notDirectory : files.isDirectory place = false) :
      Resolves files links place (name :: rest) [.blocked place] none
  | up (directory : files.isDirectory place = true)
      (later : Resolves files links place.pop rest events outcome) :
      Resolves files links place ([dot, dot] :: rest) (.lookup place [dot, dot] :: events) outcome
  | missing (directory : files.isDirectory place = true) (named : name ≠ [dot, dot])
      (found : files.lookup place name = .absent) :
      Resolves files links place (name :: rest) [.lookup place name] none
  | enter (directory : files.isDirectory place = true) (named : name ≠ [dot, dot])
      (found : files.lookup place name = .directory ∨ files.lookup place name = .other)
      (later : Resolves files links (place.join ⟨name⟩) rest events outcome) :
      Resolves files links place (name :: rest) (.lookup place name :: events) outcome
  | limit (directory : files.isDirectory place = true) (named : name ≠ [dot, dot])
      (found : files.lookup place name = .link target) :
      Resolves files 0 place (name :: rest) [.lookup place name] none
  | broken (directory : files.isDirectory place = true) (named : name ≠ [dot, dot])
      (found : files.lookup place name = .link target)
      (inner : Resolves files links (startOf target place) target.names events none) :
      Resolves files (links + 1) place (name :: rest)
        (.lookup place name :: .follow (place.join ⟨name⟩) target :: events) none
  | notEnding (directory : files.isDirectory place = true) (named : name ≠ [dot, dot])
      (found : files.lookup place name = .link target)
      (inner : Resolves files links (startOf target place) target.names events (some (middle, left)))
      (asks : target.trailing = true) (notDirectory : files.isDirectory middle = false) :
      Resolves files (links + 1) place (name :: rest)
        (.lookup place name :: .follow (place.join ⟨name⟩) target :: (events ++ [.required middle]))
        none
  | through (directory : files.isDirectory place = true) (named : name ≠ [dot, dot])
      (found : files.lookup place name = .link target)
      (inner : Resolves files links (startOf target place) target.names events (some (middle, left)))
      (ends : target.trailing = true → files.isDirectory middle = true)
      (later : Resolves files left middle rest more outcome) :
      Resolves files (links + 1) place (name :: rest)
        (.lookup place name :: .follow (place.join ⟨name⟩) target ::
          (events ++ (ending target middle ++ more))) outcome

theorem Resolves.fewer (resolution : Resolves files links place names events outcome) :
    ∀ middle left, outcome = some (middle, left) → left ≤ links := by
  induction resolution with
  | done =>
    intro middle left same
    cases same
    exact Nat.le_refl _
  | blocked | missing | limit | broken | notEnding =>
    intro middle left same
    cases same
  | up directory later ih | enter directory named found later ih => exact ih
  | through directory named found inner ends later innerFewer ih =>
    intro middle left same
    exact ((ih middle left same).trans (innerFewer _ _ rfl)).trans (Nat.le_succ _)

/-- Every resolution ends, cycles of links or not. -/
theorem resolves_total (files : FileSystem) (links : Nat) (names : List Name) :
    ∀ place, ∃ events outcome, Resolves files links place names events outcome := by
  -- The links left bound what a target and the names behind a link still follow.
  induction links using Nat.strongRecOn generalizing names with
  | ind links fewer =>
    induction names with
    | nil => exact fun place => ⟨_, _, .done⟩
    | cons name rest ih =>
      intro place
      by_cases directory : files.isDirectory place = true
      · by_cases up : name = [dot, dot]
        · obtain ⟨events, outcome, later⟩ := ih place.pop
          subst up
          exact ⟨_, _, .up directory later⟩
        · cases found : files.lookup place name with
          | absent => exact ⟨_, _, .missing directory up found⟩
          | directory =>
            obtain ⟨events, outcome, later⟩ := ih (place.join ⟨name⟩)
            exact ⟨_, _, .enter directory up (.inl found) later⟩
          | other =>
            obtain ⟨events, outcome, later⟩ := ih (place.join ⟨name⟩)
            exact ⟨_, _, .enter directory up (.inr found) later⟩
          | link target =>
            cases links with
            | zero => exact ⟨_, _, .limit directory up found⟩
            | succ links =>
              obtain ⟨events, outcome, inner⟩ :=
                fewer links (Nat.lt_succ_self _) target.names (startOf target place)
              cases outcome with
              | none => exact ⟨_, _, .broken directory up found inner⟩
              | some reached =>
                obtain ⟨middle, left⟩ := reached
                by_cases ends : target.trailing = true → files.isDirectory middle = true
                · obtain ⟨more, outcome, later⟩ :=
                    fewer left (Nat.lt_succ_of_le (inner.fewer _ _ rfl)) rest middle
                  exact ⟨_, _, .through directory up found inner ends later⟩
                · simp only [Classical.not_imp, Bool.not_eq_true] at ends
                  exact ⟨_, _, .notEnding directory up found inner ends.1 ends.2⟩
      · exact ⟨_, _, .blocked (Bool.eq_false_iff.mpr directory)⟩

theorem Resolves.unique (first : Resolves files links place names events outcome)
    (second : Resolves files links place names others result) :
    events = others ∧ outcome = result := by
  induction first generalizing others result with
  | done =>
    cases second
    exact ⟨rfl, rfl⟩
  | blocked notDirectory => cases second <;> simp_all
  | up directory later ih =>
    cases second with
    | up _ other =>
      obtain ⟨rfl, rfl⟩ := ih other
      exact ⟨rfl, rfl⟩
    | _ => simp_all
  | missing directory named found => cases second <;> simp_all
  | enter directory named found later ih =>
    cases second with
    | enter _ _ _ other =>
      obtain ⟨rfl, rfl⟩ := ih other
      exact ⟨rfl, rfl⟩
    | _ => simp_all
  | limit directory named found => cases second <;> simp_all
  | broken directory named found inner ih =>
    cases second with
    | broken _ _ other again =>
      cases found.symm.trans other
      obtain ⟨rfl, -⟩ := ih again
      exact ⟨rfl, rfl⟩
    | notEnding _ _ other again | through _ _ other again =>
      cases found.symm.trans other
      cases (ih again).2
    | _ => simp_all
  | notEnding directory named found inner asks notDirectory ih =>
    cases second with
    | broken _ _ other again =>
      cases found.symm.trans other
      cases (ih again).2
    | notEnding _ _ other again =>
      cases found.symm.trans other
      obtain ⟨rfl, same⟩ := ih again
      cases same
      exact ⟨rfl, rfl⟩
    | through _ _ other again ends =>
      cases found.symm.trans other
      cases (ih again).2
      rw [ends asks] at notDirectory
      cases notDirectory
    | _ => simp_all
  | through directory named found inner ends later innerUnique ih =>
    cases second with
    | broken _ _ other again =>
      cases found.symm.trans other
      cases (innerUnique again).2
    | notEnding _ _ other again asks notDirectory =>
      cases found.symm.trans other
      cases (innerUnique again).2
      rw [ends asks] at notDirectory
      cases notDirectory
    | through _ _ other again _ behind =>
      cases found.symm.trans other
      obtain ⟨rfl, same⟩ := innerUnique again
      cases same
      obtain ⟨rfl, rfl⟩ := ih behind
      exact ⟨rfl, rfl⟩
    | _ => simp_all

/-- What the walk notes of an event. -/
def note (traversal : Traversal) : WalkEvent → Traversal
  | .lookup directory _ => consult traversal directory
  | .follow link target => followed traversal link target
  | .required place => consult traversal place
  | .blocked place => consult traversal place

/-- How the loop goes on where a resolution has led. -/
def resume (files : FileSystem) (rest : List Name) (traversal : Traversal) :
    Option (Path × Nat) → Traversal × Option Path
  | none => (traversal, none)
  | some (middle, left) => walkLinks files left rest traversal middle

theorem contains_consult (traversal : Traversal) (place : Path) :
    (consult traversal place).directories.contains place = true := by
  unfold consult
  split
  · assumption
  · refine List.contains_iff_exists_mem_beq.mpr ⟨place, ?_, Path.beq_self place⟩
    simp

theorem consult_twice (traversal : Traversal) (link target place : Path) :
    consult (followed (consult traversal place) link target) place =
      followed (consult traversal place) link target :=
  if_pos (contains_consult traversal place)

theorem dot_not_mem_names (path : Path) : [dot] ∉ path.names := by
  intro member
  simpa [Path.trivialPiece] using (List.mem_filter.mp member).2

theorem splice_eq (target : Path) (rest : List Name) :
    splice target rest =
      target.names ++ ((if requiresDirectory target then [[dot]] else []) ++ rest) := by
  rw [splice, namesOf_eq, List.append_assoc]

theorem Resolves.nil (resolution : Resolves files links place [] events outcome) :
    events = [] ∧ outcome = some (place, links) := by
  cases resolution
  exact ⟨rfl, rfl⟩

/-- A target that names nothing leads to the place it is taken against. -/
theorem Resolves.nameless {target place middle : Path}
    (inner : Resolves files links (startOf target place) target.names events (some (middle, left)))
    (names : target.names = []) (relative : target.isAbsolute = false) :
    events = [] ∧ middle = place ∧ left = links := by
  rw [names] at inner
  obtain ⟨none, reached⟩ := inner.nil
  cases reached
  simp [none, startOf, relative]

/-- Where the target of a link has to end in a directory and does, the loop looks `.` up there. -/
theorem walkLinks_ends {target place middle link : Path}
    (inner : Resolves files links (startOf target place) target.names events (some (middle, left)))
    (ends : target.trailing = true → files.isDirectory middle = true) (rest : List Name) :
    walkLinks files left ((if requiresDirectory target then [[dot]] else []) ++ rest)
        (events.foldl note (followed (consult traversal place) link target)) middle =
      walkLinks files left rest ((ending target middle).foldl note
        (events.foldl note (followed (consult traversal place) link target))) middle := by
  rcases requires_or_nameless target with same | ⟨requires, names, relative⟩
  · cases asks : requiresDirectory target with
    | false =>
      rw [asks] at same
      simp [ending, same]
    | true =>
      rw [asks] at same
      have directory := ends same
      simp [ending, same, walkLinks_cons, directory, note]
  · -- The place such a target names is noted already.
    obtain ⟨rfl, rfl, -⟩ := inner.nameless names relative
    have noted : (ending target middle).foldl note (followed (consult traversal middle) link target) =
        followed (consult traversal middle) link target := by
      unfold ending
      split
      · exact consult_twice traversal link target middle
      · rfl
    simp [requires, noted]

theorem walkLinks_notEnding {target place middle : Path}
    (directory : files.isDirectory place = true)
    (inner : Resolves files links (startOf target place) target.names events (some (middle, left)))
    (asks : target.trailing = true) (notDirectory : files.isDirectory middle = false)
    (rest : List Name) :
    walkLinks files left ((if requiresDirectory target then [[dot]] else []) ++ rest) traversal middle =
      (consult traversal middle, none) := by
  rcases requires_or_nameless target with same | ⟨-, names, relative⟩
  · rw [asks] at same
    simp [← same, walkLinks_cons, notDirectory]
  · obtain ⟨-, rfl, -⟩ := inner.nameless names relative
    rw [directory] at notDirectory
    cases notDirectory

/-- The loop does what the resolution does, with the names behind it left for later. -/
theorem Resolves.walks (resolution : Resolves files links place names events outcome)
    (undotted : [dot] ∉ names) (rest : List Name) (traversal : Traversal) :
    walkLinks files links (names ++ rest) traversal place =
      resume files rest (events.foldl note traversal) outcome := by
  induction resolution generalizing rest traversal with
  | done => rfl
  | blocked notDirectory => simp [walkLinks_cons, notDirectory, resume, note]
  | up directory later ih =>
    rw [List.mem_cons, not_or] at undotted
    rw [List.cons_append, walkLinks_cons]
    have apart : ([dot, dot] : Name) ≠ [dot] := by decide
    simpa [directory, apart, note] using ih undotted.2 rest (consult traversal _)
  | missing directory named found =>
    rw [List.mem_cons, not_or] at undotted
    have apart := Ne.symm undotted.1
    simp [walkLinks_cons, directory, apart, named, found, resume, note]
  | enter directory named found later ih =>
    rw [List.mem_cons, not_or] at undotted
    have apart := Ne.symm undotted.1
    rw [List.cons_append, walkLinks_cons]
    rcases found with found | found
    · simpa [directory, apart, named, found, note] using ih undotted.2 rest (consult traversal _)
    · simpa [directory, apart, named, found, note] using ih undotted.2 rest (consult traversal _)
  | limit directory named found =>
    rw [List.mem_cons, not_or] at undotted
    have apart := Ne.symm undotted.1
    simp [walkLinks_cons, directory, apart, named, found, resume, note]
  | broken directory named found inner ih =>
    rw [List.mem_cons, not_or] at undotted
    have apart := Ne.symm undotted.1
    rw [List.cons_append, walkLinks_cons]
    simp only [directory, apart, named, found, Bool.not_true, Bool.false_eq_true, if_false, splice_eq]
    exact ih (dot_not_mem_names _) _ _
  | notEnding directory named found inner asks notDirectory ih =>
    rw [List.mem_cons, not_or] at undotted
    have apart := Ne.symm undotted.1
    rw [List.cons_append, walkLinks_cons]
    simp only [directory, apart, named, found, Bool.not_true, Bool.false_eq_true, if_false, splice_eq]
    refine (ih (dot_not_mem_names _) _ _).trans ?_
    refine (walkLinks_notEnding directory inner asks notDirectory _).trans ?_
    simp only [List.foldl_cons, List.foldl_append, List.foldl_nil, note, resume]
  | through directory named found inner ends later innerWalks ih =>
    rw [List.mem_cons, not_or] at undotted
    have apart := Ne.symm undotted.1
    rw [List.cons_append, walkLinks_cons]
    simp only [directory, apart, named, found, Bool.not_true, Bool.false_eq_true, if_false, splice_eq]
    refine (innerWalks (dot_not_mem_names _) _ _).trans ?_
    refine (walkLinks_ends inner ends _).trans ?_
    rw [ih undotted.2]
    simp only [List.foldl_cons, List.foldl_append, note]

/-- The place an event makes the walk note. -/
@[simp]
def WalkEvent.place : WalkEvent → Option Path
  | .lookup directory _ => some directory
  | .follow _ _ => none
  | .required place => some place
  | .blocked place => some place

/-- The link an event follows, with its target. -/
@[simp]
def WalkEvent.followed : WalkEvent → Option (Path × Path)
  | .follow link target => some (link, target)
  | _ => none

theorem canonical_startOf (real : place.Canonical) (target : Path) : (startOf target place).Canonical := by
  unfold startOf
  split
  · exact Path.canonical_root
  · exact real

theorem ending_canonical (real : middle.Canonical) (target : Path) :
    ∀ event ∈ ending target middle, ∀ noted, event.place = some noted → noted.Canonical := by
  intro event member
  unfold ending at member
  split at member
  · cases List.mem_singleton.mp member
    rintro noted ⟨⟩
    exact real
  · cases member

theorem Resolves.canonical (resolution : Resolves files links place names events outcome)
    (real : place.Canonical) :
    (∀ event ∈ events, ∀ noted, event.place = some noted → noted.Canonical) ∧
      ∀ middle left, outcome = some (middle, left) → middle.Canonical := by
  induction resolution with
  | done =>
    refine ⟨by simp, ?_⟩
    rintro middle left ⟨⟩
    exact real
  | blocked | missing | limit => simp [real]
  | up directory later ih =>
    obtain ⟨noted, reached⟩ := ih real.pop
    exact ⟨by simpa [real] using noted, reached⟩
  | enter directory named found later ih =>
    obtain ⟨noted, reached⟩ := ih (real.join (files.plain_of_entered found))
    exact ⟨by simpa [real] using noted, reached⟩
  | broken directory named found inner ih =>
    obtain ⟨noted, -⟩ := ih (canonical_startOf real _)
    exact ⟨by simpa [real] using noted, by simp⟩
  | notEnding directory named found inner asks notDirectory ih =>
    obtain ⟨noted, reached⟩ := ih (canonical_startOf real _)
    refine ⟨?_, by simp⟩
    have middle := reached _ _ rfl
    simp only [List.forall_mem_cons, List.forall_mem_append]
    refine ⟨by simpa using real, by simp, noted, by simpa using middle⟩
  | through directory named found inner ends later innerReal ih =>
    obtain ⟨noted, reached⟩ := innerReal (canonical_startOf real _)
    have middle := reached _ _ rfl
    obtain ⟨notedLater, reachedLater⟩ := ih middle
    refine ⟨?_, reachedLater⟩
    simp only [List.forall_mem_cons, List.forall_mem_append]
    exact ⟨by simpa using real, by simp, noted, ending_canonical middle _, notedLater⟩

theorem note_places (canonical : ∀ directory ∈ traversal.directories, directory.Canonical)
    (real : ∀ noted, event.place = some noted → noted.Canonical) :
    (∀ place, place ∈ (note traversal event).directories ↔
      place ∈ traversal.directories ∨ event.place = some place) ∧
    ∀ directory ∈ (note traversal event).directories, directory.Canonical := by
  have member : ∀ place, place ∈ (note traversal event).directories ↔
      place ∈ traversal.directories ∨ event.place = some place := by
    intro place
    cases event with
    | follow link target => simp [note, RealPaths.followed]
    | lookup noted | required noted | blocked noted =>
      rw [note, mem_consult canonical (real noted rfl), WalkEvent.place, Option.some.injEq]
      exact or_congr Iff.rfl eq_comm
  refine ⟨member, fun place inside => ?_⟩
  rcases (member place).mp inside with old | new
  · exact canonical place old
  · exact real place new

theorem noted_places {events : List WalkEvent}
    (canonical : ∀ directory ∈ traversal.directories, directory.Canonical)
    (real : ∀ event ∈ events, ∀ noted, event.place = some noted → noted.Canonical) (place : Path) :
    place ∈ (events.foldl note traversal).directories ↔
      place ∈ traversal.directories ∨ ∃ event ∈ events, event.place = some place := by
  induction events generalizing traversal with
  | nil => simp
  | cons event events ih =>
    obtain ⟨here, kept⟩ := note_places canonical (real event List.mem_cons_self)
    rw [List.foldl_cons, ih kept fun later member => real later (List.mem_cons_of_mem _ member), here]
    simp only [List.exists_mem_cons_iff, or_assoc]

theorem consult_nodup (distinct : traversal.directories.Nodup) (place : Path) :
    (consult traversal place).directories.Nodup := by
  unfold consult
  split
  · exact distinct
  · rename_i absent
    refine distinct.append (List.nodup_singleton _) (List.disjoint_singleton.mpr fun member => absent ?_)
    exact List.contains_iff_exists_mem_beq.mpr ⟨place, member, Path.beq_self place⟩

theorem noted_nodup {events : List WalkEvent} (distinct : traversal.directories.Nodup) :
    (events.foldl note traversal).directories.Nodup := by
  induction events generalizing traversal with
  | nil => exact distinct
  | cons event events ih =>
    refine ih ?_
    cases event with
    | follow link target => exact distinct
    | lookup noted | required noted | blocked noted => exact consult_nodup distinct noted

theorem noted_links (events : List WalkEvent) (traversal : Traversal) :
    (events.foldl note traversal).targets =
        traversal.targets ++ events.filterMap WalkEvent.followed ∧
      (events.foldl note traversal).links =
        traversal.links ++ (events.filterMap WalkEvent.followed).map Prod.fst := by
  induction events generalizing traversal with
  | nil => simp
  | cons event events ih =>
    obtain ⟨targets, links⟩ := ih (note traversal event)
    rw [List.foldl_cons, targets, links]
    cases event with
    | follow link target => simp [note, RealPaths.followed]
    | lookup noted | required noted | blocked noted =>
      rw [List.filterMap_cons_none rfl]
      simp [note, consult_links, consult_targets]

end RealPaths

end Kakoi
