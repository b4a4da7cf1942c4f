import Kakoi.Linux.KernelResolution

/-! The walk as its loop runs it finds and reports what the resolution of the path does. -/

namespace Kakoi.RealPaths

/-- A walk down directories that are no links arrives, and follows none. -/
theorem walkLinks_down (links : Nat) {front names : List Name}
    (plain : ∀ name ∈ front ++ names, Plain name)
    (above : ∀ upper, upper <+: front ++ names → upper ≠ front ++ names →
      files.isDirectory (Path.ofNames upper) = true)
    (present : files.entryAt (Path.ofNames (front ++ names)) = .directory ∨
      files.entryAt (Path.ofNames (front ++ names)) = .other) (traversal : Traversal) :
    (walkLinks files links names traversal (Path.ofNames front)).2 =
        some (Path.ofNames (front ++ names)) ∧
      (walkLinks files links names traversal (Path.ofNames front)).1.links = traversal.links := by
  induction names generalizing front traversal with
  | nil => simp [walkLinks_nil]
  | cons name rest ih =>
    have named : Plain name := plain name (by simp)
    have frontPlain : ∀ other ∈ front, Plain other := fun other member => plain other (by simp [member])
    have whole : front ++ name :: rest = (front ++ [name]) ++ rest := by simp
    have here : files.isDirectory (Path.ofNames front) = true :=
      above front (List.prefix_append ..) (by simp)
    have joined : (Path.ofNames front).join ⟨name⟩ = Path.ofNames (front ++ [name]) :=
      Path.join_ofNames frontPlain named
    have found : files.lookup (Path.ofNames front) name = .directory ∨
        files.lookup (Path.ofNames front) name = .other := by
      rw [← files.entryAt_join (Path.canonical_ofNames frontPlain) named, joined]
      by_cases last : rest = []
      · subst last
        exact present
      · left
        have inside := above (front ++ [name]) (whole ▸ List.prefix_append ..)
          (by simpa using Ne.symm last)
        simpa [FileSystem.isDirectory] using inside
    have later := ih (whole ▸ plain) (whole ▸ above) (whole ▸ present)
      (consult traversal (Path.ofNames front))
    rw [walkLinks_cons, whole]
    rcases found with found | found
    · simpa [here, named.notDot, named.notDotDot, found, joined, consult_links] using later
    · simpa [here, named.notDot, named.notDotDot, found, joined, consult_links] using later

theorem names_ofNames (plain : ∀ name ∈ names, Plain name) : (Path.ofNames names).names = names := by
  by_cases empty : names = []
  · subst empty
    decide
  · rw [Path.names, Path.pieces_ofNames plain empty, List.filter_cons_of_neg (by decide)]
    exact List.filter_eq_self.mpr fun name member => by simp [(plain name member).not_trivial]

theorem requiresDirectory_ofNames (plain : ∀ name ∈ names, Plain name)
    (asks : requiresDirectory (Path.ofNames names) = true) : names = [] := by
  by_contra some
  rcases requires_or_nameless (Path.ofNames names) with same | ⟨none, -⟩
  · rcases List.eq_nil_or_concat' names with empty | ⟨front, last, rfl⟩
    · exact some empty
    · have trivial : Path.trivialPiece last = true := by
        rw [asks, Path.trailing, Path.pieces_ofNames plain some, ← List.cons_append,
          List.getLast?_concat] at same
        exact same
      rw [(plain last (by simp)).not_trivial] at trivial
      cases trivial
  · rw [none] at asks
    cases asks

theorem walk_standing_again (standing : Standing files traversal real) :
    (walk files real).2 = some real ∧ (walk files real).1.links = [] := by
  obtain ⟨names, plain, rfl⟩ := standing.real
  have above : ∀ upper, upper <+: [] ++ names → upper ≠ [] ++ names →
      files.isDirectory (Path.ofNames upper) = true := by
    intro upper inside different
    have upperPlain : ∀ name ∈ upper, Plain name := fun name member => plain name (inside.subset member)
    refine standing.entered _ (standing.passed _ (Path.canonical_ofNames upperPlain)
      ((Path.startsWith_ofNames plain upperPlain).mpr inside) fun same => different ?_)
    exact Path.ofNames_injective upperPlain plain (congrArg Path.components same)
  obtain ⟨arrives, follows⟩ := walkLinks_down linkLimit plain above standing.present {}
  rw [walk_absolute files (Path.isAbsolute_ofNames names), namesOf_eq, names_ofNames plain]
  refine ⟨?_, follows⟩
  rw [show Path.root = Path.ofNames [] from rfl, arrives, List.nil_append, Option.filter_some, if_pos]
  by_cases asks : requiresDirectory (Path.ofNames names) = true
  · rw [requiresDirectory_ofNames plain asks]
    simp [FileSystem.isDirectory, Path.ofNames_nil, files.entryAt_root]
  · simp [asks]

/-- What the loop of `walk` changes from one round to the next. -/
structure WalkLoop where
  traversal : Traversal := {}
  resolved : Path := Path.root
  remaining : List Name
  followed : Nat := 0

namespace WalkLoop

/-- One round of the loop, or what it ends with. -/
def round (files : FileSystem) (loop : WalkLoop) : Except (Traversal × Option Path) WalkLoop :=
  match loop.remaining with
  | [] => .error (loop.traversal, some loop.resolved)
  | name :: rest =>
    let traversal := consult loop.traversal loop.resolved
    if !files.isDirectory loop.resolved then .error (traversal, none)
    else if name = [dot] then .ok { loop with traversal, remaining := rest }
    else if name = [dot, dot] then
      .ok { loop with traversal, remaining := rest, resolved := loop.resolved.pop }
    else
      match files.lookup loop.resolved name with
      | .absent => .error (traversal, none)
      | .directory | .other =>
        .ok { loop with traversal, remaining := rest, resolved := loop.resolved.join ⟨name⟩ }
      | .link target =>
        if linkLimit < loop.followed + 1 then .error (traversal, none)
        else
          .ok
            { traversal := RealPaths.followed traversal (loop.resolved.join ⟨name⟩) target
              resolved := if target.isAbsolute then Path.root else loop.resolved
              remaining := splice target rest
              followed := loop.followed + 1 }

/-- So many rounds of the loop, if they are enough for it to end. -/
def run (files : FileSystem) : Nat → WalkLoop → Option (Traversal × Option Path)
  | 0, _ => none
  | rounds + 1, loop =>
    match loop.round files with
    | .error result => some result
    | .ok next => run files rounds next

theorem run_error (ended : round files loop = .error result) : run files 1 loop = some result := by
  simp [run, ended]

theorem run_next (goes : round files loop = .ok next) (later : run files rounds next = some result) :
    run files (rounds + 1) loop = some result := by
  simp [run, goes, later]

end WalkLoop

theorem walkLoop_ends (trace : WalkTrace files links remaining traversal resolved final reached) :
    ∀ followed, followed + links = linkLimit → ∃ rounds,
      WalkLoop.run files rounds { traversal, resolved, remaining, followed } = some (final, reached) := by
  induction trace with
  | done => exact fun followed _ => ⟨1, WalkLoop.run_error rfl⟩
  | blocked notDirectory =>
    exact fun followed _ => ⟨1, WalkLoop.run_error (by simp [WalkLoop.round, notDirectory])⟩
  | here directory later ih =>
    intro followed limit
    obtain ⟨rounds, result⟩ := ih followed limit
    exact ⟨rounds + 1, WalkLoop.run_next (by simp [WalkLoop.round, directory]) result⟩
  | up directory later ih =>
    intro followed limit
    obtain ⟨rounds, result⟩ := ih followed limit
    exact ⟨rounds + 1, WalkLoop.run_next (by simp [WalkLoop.round, directory]) result⟩
  | missing directory named found =>
    exact fun followed _ => ⟨1, WalkLoop.run_error (by simp [WalkLoop.round, directory, named, found])⟩
  | enter directory named found later ih =>
    intro followed limit
    obtain ⟨rounds, result⟩ := ih followed limit
    refine ⟨rounds + 1, WalkLoop.run_next ?_ result⟩
    rcases found with found | found
    · simp [WalkLoop.round, directory, named, found]
    · simp [WalkLoop.round, directory, named, found]
  | exhausted directory named found =>
    intro followed limit
    have exceeded : linkLimit < followed + 1 := by omega
    exact ⟨1, WalkLoop.run_error (by simp [WalkLoop.round, directory, named, found, exceeded])⟩
  | follow directory named found later ih =>
    intro followed limit
    obtain ⟨rounds, result⟩ := ih (followed + 1) (by omega)
    have within : ¬ linkLimit < followed + 1 := by omega
    exact ⟨rounds + 1, WalkLoop.run_next (by simp [WalkLoop.round, directory, named, found, within]) result⟩

/-- What `walk` makes of where its loop ended. -/
def finish (files : FileSystem) (path : Path) (ended : Traversal × Option Path) :
    Traversal × Option Path :=
  (ended.1, ended.2.filter fun real => !requiresDirectory path || files.isDirectory real)

/-- What the walk finds and reports, given what the resolution of the path does. -/
structure Reported (files : FileSystem) (path : Path) (events : List WalkEvent)
    (outcome : Option (Path × Nat)) : Prop where
  arrives : ∀ real, (walk files path).2 = some real ↔
    (∃ left, outcome = some (real, left)) ∧ (path.trailing = true → files.isDirectory real = true)
  links : (walk files path).1.links = (events.filterMap WalkEvent.followed).map Prod.fst
  targets : (walk files path).1.targets = events.filterMap WalkEvent.followed
  directories : ∀ place, place ∈ (walk files path).1.directories ↔
    ∃ event ∈ events, event.place = some place
  once : (walk files path).1.directories.Nodup

/-- A path of plain names, none of them a link. -/
structure Unlinked (files : FileSystem) (real : Path) : Prop where
  plain : real.Canonical
  unlinked : ∀ upper, upper.Canonical → real.startsWith upper = true →
    ∀ target, files.entryAt upper ≠ .link target

theorem unlinked_of_standing (standing : Standing files traversal real) : Unlinked files real := by
  refine ⟨standing.real, fun upper upperReal above target linked => ?_⟩
  by_cases same : upper = real
  · subst same
    rcases standing.present with found | found
    · exact Node.noConfusion (found.symm.trans linked)
    · exact Node.noConfusion (found.symm.trans linked)
  · have entered := standing.entered upper (standing.passed upper upperReal above same)
    simp [FileSystem.isDirectory, linked] at entered

theorem reported_of_resolves (absolute : path.isAbsolute = true)
    (resolution : Resolves files linkLimit Path.root path.names events outcome) :
    Reported files path events outcome := by
  have walked := resolution.walks (dot_not_mem_names path) [] {}
  rw [List.append_nil, ← namesOf_eq] at walked
  have asks : path.trailing = requiresDirectory path := by
    rcases requires_or_nameless path with same | ⟨-, -, relative⟩
    · exact same
    · rw [absolute] at relative
      cases relative
  have ended : walk files path = finish files path (resume files [] (events.foldl note {}) outcome) := by
    rw [walk_absolute files absolute, walked]
    rfl
  have noted : (walk files path).1 = events.foldl note {} := by
    rw [ended]
    cases outcome with
    | none => rfl
    | some reached => simp [finish, resume, walkLinks_nil]
  obtain ⟨targets, links⟩ := noted_links events {}
  refine ⟨fun real => ?_, ?_, ?_, fun place => ?_, ?_⟩
  · rw [ended, asks]
    cases outcome with
    | none => simp [finish, resume]
    | some reached =>
      obtain ⟨middle, left⟩ := reached
      simp only [finish, resume, walkLinks_nil, Option.filter_some]
      constructor
      · intro found
        split at found
        · rename_i passes
          cases found
          refine ⟨⟨left, rfl⟩, fun required => ?_⟩
          simpa [required] using passes
        · cases found
      · rintro ⟨⟨_, same⟩, required⟩
        cases same
        rw [if_pos]
        cases asked : requiresDirectory path with
        | false => rfl
        | true => simpa using required asked
  · rw [noted, links]
    rfl
  · rw [noted, targets]
    rfl
  · rw [noted, noted_places (by simp) (resolution.canonical Path.canonical_root).1]
    simp
  · rw [noted]
    exact noted_nodup List.nodup_nil

/-- The walk of an absolute path arrives where its resolution does; what it arrives at has no link
and leads to itself; and it reports the links followed and the places where names are looked up,
with those that have to be directories for it. -/
theorem walk_resolves (files : FileSystem) (absolute : path.isAbsolute = true) :
    (∃ rounds, (WalkLoop.run files rounds { remaining := namesOf path }).map (finish files path) =
      some (walk files path)) ∧
    (∃ events outcome, Resolves files 40 Path.root path.names events outcome ∧
      Reported files path events outcome ∧
      ∀ others result, Resolves files 40 Path.root path.names others result →
        others = events ∧ result = outcome) ∧
    ∀ real, (walk files path).2 = some real →
      Unlinked files real ∧ (walk files real).2 = some real ∧ (walk files real).1.links = [] := by
  refine ⟨?_, ?_, ?_⟩
  · obtain ⟨rounds, ended⟩ :=
      walkLoop_ends (walkLinks_trace files linkLimit (namesOf path) {} Path.root) 0 (Nat.zero_add _)
    exact ⟨rounds, by rw [ended, walk_absolute files absolute]; rfl⟩
  · obtain ⟨events, outcome, resolution⟩ := resolves_total files linkLimit path.names Path.root
    exact ⟨events, outcome, resolution, reported_of_resolves absolute resolution,
      fun others result other => other.unique resolution⟩
  · intro real arrived
    have standing := walk_standing arrived
    exact ⟨unlinked_of_standing standing, walk_standing_again standing⟩

/-- A directory, a file, and a link to the directory that ends in a slash. -/
def slashedFiles : FileSystem :=
  FileSystem.ofTable
    [⟨Path.root, utf8 "d", .directory⟩, ⟨Path.root, utf8 "f", .other⟩,
     ⟨Path.root, utf8 "l", .link (Path.ofString "d/")⟩] (by decide +kernel)

theorem slashedFiles_link :
    Resolves slashedFiles 40 Path.root (Path.ofString "/l").names
      [.lookup Path.root (utf8 "l"), .follow (Path.ofString "/l") (Path.ofString "d/"),
       .lookup Path.root (utf8 "d"), .required (Path.ofString "/d")]
      (some (Path.ofString "/d", 39)) := by
  have inner : Resolves slashedFiles 39 (startOf (Path.ofString "d/") Path.root)
      (Path.ofString "d/").names [.lookup Path.root (utf8 "d")] (some (Path.ofString "/d", 39)) :=
    .enter (by decide +kernel) (by decide +kernel) (.inl (by decide +kernel)) .done
  exact .through (by decide +kernel) (by decide +kernel) (by decide +kernel) inner
    (fun _ => by decide +kernel) .done

theorem slashedFiles_blocked :
    Resolves slashedFiles 40 Path.root (Path.ofString "/f/x").names
      [.lookup Path.root (utf8 "f"), .blocked (Path.ofString "/f")] none :=
  .enter (by decide +kernel) (by decide +kernel) (.inr (by decide +kernel))
    (.blocked (by decide +kernel))

/-- The walk reports places in which no name is looked up: where a link's target has to be a
directory, and one a name stands behind. -/
theorem places_without_lookups_reported :
    (Path.ofString "/d" ∈ (walk slashedFiles (Path.ofString "/l")).1.directories ∧
      ∀ events outcome,
        Resolves slashedFiles 40 Path.root (Path.ofString "/l").names events outcome →
        ∀ name, .lookup (Path.ofString "/d") name ∉ events) ∧
    Path.ofString "/f" ∈ (walk slashedFiles (Path.ofString "/f/x")).1.directories ∧
      ∀ events outcome,
        Resolves slashedFiles 40 Path.root (Path.ofString "/f/x").names events outcome →
        ∀ name, .lookup (Path.ofString "/f") name ∉ events := by
  have directory : Path.ofString "/d" ≠ Path.root := by decide +kernel
  have file : Path.ofString "/f" ≠ Path.root := by decide +kernel
  have link := reported_of_resolves (by decide +kernel) slashedFiles_link
  have behind := reported_of_resolves (by decide +kernel) slashedFiles_blocked
  refine ⟨⟨(link.directories _).mpr ⟨.required _, by simp, rfl⟩, ?_⟩,
    (behind.directories _).mpr ⟨.blocked _, by simp, rfl⟩, ?_⟩
  · intro events outcome resolution name member
    rw [(resolution.unique slashedFiles_link).1] at member
    simp [directory] at member
  · intro events outcome resolution name member
    rw [(resolution.unique slashedFiles_blocked).1] at member
    simp [file] at member

theorem slashed_link_resolves :
    (walk slashedFiles (Path.ofString "/l")).2 = some (Path.ofString "/d") ∧
      Unlinked slashedFiles (Path.ofString "/d") ∧
      (walk slashedFiles (Path.ofString "/d")).2 = some (Path.ofString "/d") := by
  have arrived : (walk slashedFiles (Path.ofString "/l")).2 = some (Path.ofString "/d") := by
    decide +kernel
  have absolute : (Path.ofString "/l").isAbsolute = true := by decide +kernel
  obtain ⟨unlinked, again, -⟩ := (walk_resolves slashedFiles absolute).2.2 _ arrived
  exact ⟨arrived, unlinked, again⟩

end Kakoi.RealPaths
