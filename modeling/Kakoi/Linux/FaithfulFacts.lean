import Kakoi.Linux.CollectedFacts

/-! When the collected facts answer for the exact path asked, though they keep one spelling of
each. -/

namespace Kakoi

open RealPaths

/-- A path as it is walked: against the current directory when relative. -/
def absoluteForm (host : Host) (path : Path) : Option Path :=
  if path.isAbsolute then some path else host.currentDir.map (·.join path)

/-- Whether the spelling of a path asks for a directory at its end. -/
def asksDirectory (host : Host) (path : Path) : Bool :=
  (absoluteForm host path).any requiresDirectory

/-- Where the names of a path lead, whatever its spelling asks for. -/
def arrival (host : Host) (path : Path) : Option Path :=
  (absoluteForm host path).bind fun form =>
    if form.isAbsolute then (walkLinks host.toFileSystem linkLimit (namesOf form) {} Path.root).2
    else none

theorem resolve_eq_filter (files : FileSystem) (path : Path) :
    resolve files path =
      (if path.isAbsolute then (walkLinks files linkLimit (namesOf path) {} Path.root).2
       else none).filter fun real => !requiresDirectory path || files.isDirectory real := by
  cases absolute : path.isAbsolute with
  | true => simp [resolve, walk_absolute files absolute]
  | false => simp [resolve, walk_relative files absolute]

theorem realPath_eq (host : Host) (path : Path) :
    realPath host path =
      (arrival host path).filter fun real => !asksDirectory host path || host.isDirectory real := by
  unfold realPath arrival asksDirectory absoluteForm
  cases absolute : path.isAbsolute with
  | true => simp [resolve_eq_filter, absolute]
  | false =>
    cases host.currentDir with
    | none => simp
    | some directory => simp [resolve_eq_filter]

/-- What is behind a path, from where its names lead and what its spelling asks for. -/
theorem realEntry_eq (host : Host) (path : Path) :
    realEntry host path =
      match arrival host path with
      | none => .missing
      | some real =>
        if host.isDirectory real then .directory real
        else if asksDirectory host path then .missing
        else .notDirectory real := by
  have reached := realPath_eq host path
  unfold realEntry
  cases arrived : arrival host path with
  | none => simp [reached, arrived]
  | some real =>
    by_cases directory : host.isDirectory real = true
    · have found : realPath host path = some real := by
        simp [reached, arrived, Option.filter, directory]
      have entry : host.entryAt real = .directory := by
        simpa [FileSystem.isDirectory] using directory
      simp [found, directory, entry]
    · by_cases asks : asksDirectory host path = true
      · have lost : realPath host path = none := by
          simp [reached, arrived, Option.filter, directory, asks]
        simp [lost, directory, asks]
      · have found : realPath host path = some real := by simp [reached, arrived, asks]
        rcases present_of_realPath found with entry | entry
        · simp [FileSystem.isDirectory, entry] at directory
        · simp [found, entry, directory, asks]

theorem absoluteForm_of_beq {left right : Path} (host : Host) (same : (left == right) = true) :
    (absoluteForm host left = none ∧ absoluteForm host right = none) ∨
      ∃ form other, absoluteForm host left = some form ∧ absoluteForm host right = some other ∧
        (form == other) = true := by
  have absolute := isAbsolute_of_beq same
  unfold absoluteForm
  cases shape : right.isAbsolute with
  | true =>
    rw [shape] at absolute
    exact .inr ⟨left, right, by simp [absolute], by simp, same⟩
  | false =>
    rw [shape] at absolute
    cases host.currentDir with
    | none => exact .inl ⟨by simp [absolute], by simp⟩
    | some directory =>
      exact .inr ⟨directory.join left, directory.join right, by simp [absolute], by simp,
        Path.join_of_beq directory same absolute shape⟩

theorem arrival_of_beq {left right : Path} (host : Host) (same : (left == right) = true) :
    arrival host left = arrival host right := by
  unfold arrival
  rcases absoluteForm_of_beq host same with ⟨none₁, none₂⟩ | ⟨form, other, found₁, found₂, equal⟩
  · rw [none₁, none₂]
  · rw [found₁, found₂]
    simp [isAbsolute_of_beq equal, namesOf_of_beq equal]

/-- Spellings of one path that ask for the same have the same behind them. -/
theorem realEntry_of_beq {left right : Path} (host : Host) (same : (left == right) = true)
    (asks : asksDirectory host left = asksDirectory host right) :
    realEntry host left = realEntry host right := by
  rw [realEntry_eq, realEntry_eq, arrival_of_beq host same, asks]

theorem realEntry_of_asks {left right : Path} (host : Host) (same : (left == right) = true)
    (asks : asksDirectory host left = true)
    (found : ∀ real, realEntry host right ≠ .notDirectory real) :
    realEntry host left = realEntry host right := by
  rw [realEntry_eq] at found
  rw [realEntry_eq, realEntry_eq, arrival_of_beq host same, asks]
  cases arrived : arrival host right with
  | none => rfl
  | some real =>
    by_cases directory : host.isDirectory real = true
    · simp [directory]
    · by_cases other : asksDirectory host right = true
      · simp [directory, other]
      · exact absurd (by simp [arrived, directory, other]) (found real)

/-- The facts answer for the exact bytes of every path gathered unless two spellings of one path,
one of which asks for a directory, are gathered for something that is none. -/
theorem gathered_facts_faithful_iff (host : Host) (expanded : ExpandedPolicy) (looked : List Path)
    (values : Variables) (workspace : Option Path) (more : List (List Path)) :
    (∀ path ∈ gatheredPaths expanded looked values more,
      (collectPathFacts host (gatheredCandidates expanded looked values workspace more)).entry path =
        realEntry host path) ↔
      ∀ path ∈ gatheredPaths expanded looked values more,
        ∀ other ∈ gatheredPaths expanded looked values more, (path == other) = true →
          asksDirectory host path = true → asksDirectory host other = false →
          ∀ real, realEntry host other ≠ .notDirectory real := by
  constructor
  · intro faithful path member other present same asks plain real found
    obtain ⟨kept, -, -, answer⟩ := gathered_entry host workspace present
    have one := (faithful path member).symm.trans (answer path same)
    have two := (faithful other present).symm.trans (answer other (Path.beq_self other))
    have equal : realEntry host path = .notDirectory real := one.trans (two.symm.trans found)
    rw [realEntry_eq, asks] at equal
    cases arrived : arrival host path with
    | none => simp [arrived] at equal
    | some place => by_cases directory : host.isDirectory place = true <;> simp [arrived, directory] at equal
  · intro apart path member
    obtain ⟨kept, present, same, answer⟩ := gathered_entry host workspace member
    rw [answer path (Path.beq_self path)]
    cases keptAsks : asksDirectory host kept with
    | true =>
      cases asks : asksDirectory host path with
      | true => exact realEntry_of_beq host same (keptAsks.trans asks.symm)
      | false => exact realEntry_of_asks host same keptAsks (apart kept present path member same keptAsks asks)
    | false =>
      cases asks : asksDirectory host path with
      | true =>
        have back := Path.beq_symm same
        exact (realEntry_of_asks host back asks (apart path member kept present back asks keptAsks)).symm
      | false => exact realEntry_of_beq host same (keptAsks.trans asks.symm)

def hostnameRows : List FileSystem.Row :=
  [⟨Path.root, utf8 "etc", .directory⟩, ⟨Path.ofString "/etc", utf8 "hostname", .other⟩]

def hostnameHost : Host :=
  { FileSystem.ofTable hostnameRows (by decide +kernel) with
    currentDir := some Path.root
    mountList := none }

/-- One policy shows a file and hides it under a name that asks for a directory. -/
def hostnamePolicy : ExpandedPolicy where
  mounts := [.absolute .ro .builtInDefault "/etc/hostname", .absolute .hide .builtInDefault "/etc/hostname/"]

def hostnameValues : Variables := { workspace := Path.root, worktree := Path.root }

/-- The facts answer `/etc/hostname/` as they answer `/etc/hostname`. -/
theorem hostname_answered_for_other_spelling :
    ¬ ∀ path ∈ gatheredPaths hostnamePolicy [] hostnameValues [],
      (collectPathFacts hostnameHost
        (gatheredCandidates hostnamePolicy [] hostnameValues none [])).entry path =
        realEntry hostnameHost path := by
  intro faithful
  have listed : Path.ofString "/etc/hostname/" ∈ gatheredPaths hostnamePolicy [] hostnameValues [] := by
    simp [gatheredPaths, candidatePaths, ExpandedPolicy.mountPaths, hostnamePolicy, ExpandedItem.absolute,
      Expansion.path?]
  have same := faithful _ listed
  revert same
  decide +kernel

end Kakoi
