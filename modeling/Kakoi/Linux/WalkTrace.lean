import Kakoi.Linux.RealPaths

/-! Every branch of the walk as a derivation, and what each derivation keeps. -/

namespace Kakoi.RealPaths

/-- One constructor for each way the loop of `walk` goes on or stops. -/
inductive WalkTrace (files : FileSystem) :
    Nat → List Name → Traversal → Path → Traversal → Option Path → Prop where
  | done : WalkTrace files links [] traversal resolved traversal (some resolved)
  | blocked (notDirectory : files.isDirectory resolved = false) :
      WalkTrace files links (name :: rest) traversal resolved (consult traversal resolved) none
  | here (directory : files.isDirectory resolved = true)
      (later : WalkTrace files links rest (consult traversal resolved) resolved final reached) :
      WalkTrace files links ([dot] :: rest) traversal resolved final reached
  | up (directory : files.isDirectory resolved = true)
      (later : WalkTrace files links rest (consult traversal resolved) resolved.pop final reached) :
      WalkTrace files links ([dot, dot] :: rest) traversal resolved final reached
  | missing (directory : files.isDirectory resolved = true)
      (named : name ≠ [dot] ∧ name ≠ [dot, dot]) (found : files.lookup resolved name = .absent) :
      WalkTrace files links (name :: rest) traversal resolved (consult traversal resolved) none
  | enter (directory : files.isDirectory resolved = true)
      (named : name ≠ [dot] ∧ name ≠ [dot, dot])
      (found : files.lookup resolved name = .directory ∨ files.lookup resolved name = .other)
      (later : WalkTrace files links rest (consult traversal resolved) (resolved.join ⟨name⟩)
        final reached) :
      WalkTrace files links (name :: rest) traversal resolved final reached
  | exhausted (directory : files.isDirectory resolved = true)
      (named : name ≠ [dot] ∧ name ≠ [dot, dot]) (found : files.lookup resolved name = .link target) :
      WalkTrace files 0 (name :: rest) traversal resolved (consult traversal resolved) none
  | follow (directory : files.isDirectory resolved = true)
      (named : name ≠ [dot] ∧ name ≠ [dot, dot]) (found : files.lookup resolved name = .link target)
      (later : WalkTrace files links (splice target rest)
        (followed (consult traversal resolved) (resolved.join ⟨name⟩) target)
        (if target.isAbsolute then Path.root else resolved) final reached) :
      WalkTrace files (links + 1) (name :: rest) traversal resolved final reached

theorem walkNames_trace (files : FileSystem) (links : Nat)
    (follow : Path → List Name → Traversal → Path → Path → Traversal × Option Path)
    (continues : ∀ target rest name traversal resolved,
      files.isDirectory resolved = true → name ≠ [dot] ∧ name ≠ [dot, dot] →
      files.lookup resolved name = .link target →
      WalkTrace files links (name :: rest) traversal resolved
        (follow target rest (consult traversal resolved) resolved (resolved.join ⟨name⟩)).1
        (follow target rest (consult traversal resolved) resolved (resolved.join ⟨name⟩)).2)
    (remaining : List Name) (traversal : Traversal) (resolved : Path) :
    WalkTrace files links remaining traversal resolved
      (walkNames files follow remaining traversal resolved).1
      (walkNames files follow remaining traversal resolved).2 := by
  induction remaining generalizing traversal resolved with
  | nil => exact .done
  | cons name rest ih =>
    by_cases directory : files.isDirectory resolved = true
    · by_cases here : name = [dot]
      · subst here
        simpa [walkNames, directory] using .here directory (ih _ _)
      · by_cases up : name = [dot, dot]
        · subst up
          simpa [walkNames, directory] using .up directory (ih _ _)
        · cases found : files.lookup resolved name with
          | absent =>
            simpa [walkNames, directory, here, up, found] using .missing directory ⟨here, up⟩ found
          | directory =>
            simpa [walkNames, directory, here, up, found] using
              .enter directory ⟨here, up⟩ (.inl found) (ih _ _)
          | other =>
            simpa [walkNames, directory, here, up, found] using
              .enter directory ⟨here, up⟩ (.inr found) (ih _ _)
          | link target =>
            simpa [walkNames, directory, here, up, found] using
              continues target rest name traversal resolved directory ⟨here, up⟩ found
    · simp only [Bool.not_eq_true] at directory
      simpa [walkNames, directory] using .blocked directory

theorem walkLinks_trace (files : FileSystem) (links : Nat) (remaining : List Name)
    (traversal : Traversal) (resolved : Path) :
    WalkTrace files links remaining traversal resolved
      (walkLinks files links remaining traversal resolved).1
      (walkLinks files links remaining traversal resolved).2 := by
  induction links generalizing remaining traversal resolved with
  | zero =>
    apply walkNames_trace
    intro target rest name traversal resolved directory named found
    exact .exhausted directory named found
  | succ links ih =>
    apply walkNames_trace
    intro target rest name traversal resolved directory named found
    exact .follow directory named found (ih _ _ _)

theorem walkLinks_nil (files : FileSystem) (links : Nat) (traversal : Traversal) (resolved : Path) :
    walkLinks files links [] traversal resolved = (traversal, some resolved) := by
  cases links <;> rfl

theorem walkLinks_cons (files : FileSystem) (links : Nat) (name : Name) (rest : List Name)
    (traversal : Traversal) (resolved : Path) :
    walkLinks files links (name :: rest) traversal resolved =
      if !files.isDirectory resolved then (consult traversal resolved, none)
      else if name = [dot] then walkLinks files links rest (consult traversal resolved) resolved
      else if name = [dot, dot] then
        walkLinks files links rest (consult traversal resolved) resolved.pop
      else
        match files.lookup resolved name with
        | .absent => (consult traversal resolved, none)
        | .link target =>
          match links with
          | 0 => (consult traversal resolved, none)
          | links + 1 => walkLinks files links (splice target rest)
              (followed (consult traversal resolved) (resolved.join ⟨name⟩) target)
              (if target.isAbsolute then Path.root else resolved)
        | .directory | .other =>
          walkLinks files links rest (consult traversal resolved) (resolved.join ⟨name⟩) := by
  cases links <;> rfl

/-- The derivation is the computation: there is one result for each input. -/
theorem WalkTrace.result (trace : WalkTrace files links remaining traversal resolved final reached) :
    walkLinks files links remaining traversal resolved = (final, reached) := by
  induction trace with
  | done => exact walkLinks_nil ..
  | blocked notDirectory => simp [walkLinks_cons, notDirectory]
  | here directory later ih => simpa [walkLinks_cons, directory] using ih
  | up directory later ih => simpa [walkLinks_cons, directory] using ih
  | missing directory named found => simp [walkLinks_cons, directory, named, found]
  | enter directory named found later ih =>
    rcases found with found | found <;> simpa [walkLinks_cons, directory, named, found] using ih
  | exhausted directory named found => simp [walkLinks_cons, directory, named, found]
  | follow directory named found later ih => simpa [walkLinks_cons, directory, named, found] using ih

/-- Every place the walk looked names up in is a directory, and so is everything above where it
stands. -/
structure Standing (files : FileSystem) (traversal : Traversal) (resolved : Path) : Prop where
  real : resolved.Canonical
  places : ∀ directory ∈ traversal.directories, directory.Canonical
  entered : ∀ directory ∈ traversal.directories, files.isDirectory directory = true
  passed : ∀ upper, upper.Canonical → resolved.startsWith upper = true → upper ≠ resolved →
    upper ∈ traversal.directories
  present : files.entryAt resolved = .directory ∨ files.entryAt resolved = .other
  links : ∀ place ∈ traversal.links, ∃ directory ∈ traversal.directories, ∃ name,
    Plain name ∧ place = directory.join ⟨name⟩

theorem standing_root (files : FileSystem) : Standing files {} Path.root where
  real := Path.canonical_root
  places := by simp
  entered := by simp
  passed := by
    intro upper real below different
    have same := Path.canonical_root.startsWith_antisymm real below real.startsWith_root
    exact absurd same.symm different
  present := .inl files.entryAt_root
  links := by simp

theorem mem_consult (places : ∀ directory ∈ traversal.directories, directory.Canonical)
    (real : resolved.Canonical) :
    place ∈ (consult traversal resolved).directories ↔
      place ∈ traversal.directories ∨ place = resolved := by
  unfold consult
  split
  · rename_i found
    obtain ⟨known, member, same⟩ := List.contains_iff_exists_mem_beq.mp found
    have equal := (real.beq_iff_eq (places known member)).mp same
    subst equal
    constructor
    · exact .inl
    · rintro (old | rfl)
      · exact old
      · exact member
  · simp

theorem consult_links (traversal : Traversal) (place : Path) :
    (consult traversal place).links = traversal.links := by
  unfold consult
  split <;> rfl

namespace Standing

section Onward

variable (standing : Standing files traversal resolved)

include standing

theorem consulted (directory : files.isDirectory resolved = true) :
    Standing files (consult traversal resolved) resolved where
  real := standing.real
  places := by
    intro place member
    rcases (mem_consult standing.places standing.real).mp member with old | rfl
    · exact standing.places place old
    · exact standing.real
  entered := by
    intro place member
    rcases (mem_consult standing.places standing.real).mp member with old | rfl
    · exact standing.entered place old
    · exact directory
  passed := fun upper real below different =>
    (mem_consult standing.places standing.real).mpr (.inl (standing.passed upper real below different))
  present := standing.present
  links := by
    rw [consult_links]
    intro place member
    obtain ⟨parent, found, name, plain, same⟩ := standing.links place member
    exact ⟨parent, (mem_consult standing.places standing.real).mpr (.inl found), name, plain, same⟩

theorem here_mem : resolved ∈ (consult traversal resolved).directories :=
  (mem_consult standing.places standing.real).mpr (.inr rfl)

theorem up : Standing files traversal resolved.pop where
  real := standing.real.pop
  places := standing.places
  entered := standing.entered
  passed := by
    intro upper real below different
    apply standing.passed upper real (Path.startsWith_trans standing.real.startsWith_pop below)
    intro same
    subst same
    exact different (standing.real.startsWith_antisymm standing.real.pop
      standing.real.startsWith_pop below)
  present := by
    rcases standing.real.root_or_join with rfl | ⟨name, plain, joined, different⟩
    · exact standing.present
    · have above := standing.passed resolved.pop standing.real.pop standing.real.startsWith_pop different
      left
      simpa [FileSystem.isDirectory] using standing.entered _ above
  links := standing.links

/-- One more name: the place it was looked up in is now behind the walk. -/
theorem enter (behind : resolved ∈ traversal.directories)
    (found : files.lookup resolved name = .directory ∨ files.lookup resolved name = .other) :
    Standing files traversal (resolved.join ⟨name⟩) := by
  have plain : Plain name := files.plain_of_entered found
  exact {
    real := standing.real.join plain
    places := standing.places
    entered := standing.entered
    passed := by
      intro upper real below different
      rcases (standing.real.startsWith_join plain real).mp below with same | above
      · exact absurd same different
      · by_cases same : upper = resolved
        · exact same ▸ behind
        · exact standing.passed upper real above same
    present := by rwa [files.entryAt_join standing.real plain]
    links := standing.links }

theorem follow (behind : resolved ∈ traversal.directories)
    (found : files.lookup resolved name = .link target) :
    Standing files (followed traversal (resolved.join ⟨name⟩) target)
      (if target.isAbsolute then Path.root else resolved) := by
  have plain : Plain name := files.plain_of_lookup resolved (by simp [found])
  have links : ∀ place ∈ (followed traversal (resolved.join ⟨name⟩) target).links,
      ∃ directory ∈ traversal.directories, ∃ name, Plain name ∧ place = directory.join ⟨name⟩ := by
    intro place member
    rcases mem_concat.mp member with old | new
    · exact standing.links place old
    · exact ⟨resolved, behind, name, plain, new⟩
  split
  · have initial := standing_root files
    exact {
      real := initial.real
      places := standing.places
      entered := standing.entered
      passed := by
        intro upper real below different
        have none := initial.passed upper real below different
        simp at none
      present := initial.present
      links := links }
  · exact { standing with links := links }

end Onward

end Standing

/-- A walk that arrives stands on what it established. -/
theorem WalkTrace.standing (trace : WalkTrace files links remaining traversal resolved final reached)
    (initial : Standing files traversal resolved) :
    ∀ real, reached = some real → Standing files final real := by
  induction trace with
  | done =>
    intro real same
    rwa [← Option.some.inj same]
  | blocked | missing | exhausted =>
    intro real same
    cases same
  | here directory later ih => exact ih (initial.consulted directory)
  | up directory later ih => exact ih (initial.consulted directory).up
  | enter directory named found later ih =>
    exact ih ((initial.consulted directory).enter initial.here_mem found)
  | follow directory named found later ih =>
    exact ih ((initial.consulted directory).follow initial.here_mem found)

end Kakoi.RealPaths
