import Kakoi.Linux.FaithfulFacts
import Kakoi.Linux.WalkResolution
import Kakoi.Policy.WildcardMeaning

/-! What a scan finds: exactly the wanted entries, reached through directories that are not
pruned. -/

namespace Kakoi

open RealPaths

section Joined

variable {directory : Path}

/-- What `join` puts between a path and a name behind it. -/
def joinGap (bytes : Name) : Name := if bytes.getLast?.all (· == slash) then [] else [slash]

theorem bytes_join (base : Path) {tail : Path} (relative : tail.isAbsolute = false) :
    (base.join tail).bytes = base.bytes ++ (joinGap base.bytes ++ tail.bytes) := by
  simp only [Path.join, relative, joinGap, Bool.false_eq_true, if_false]
  split
  · rfl
  · rfl

theorem joinGap_append (front : Name) (some : bytes ≠ []) : joinGap (front ++ bytes) = joinGap bytes := by
  unfold joinGap
  rw [List.getLast?_append]
  cases ended : bytes.getLast? with
  | none => exact absurd (List.getLast?_eq_none_iff.mp ended) some
  | some byte => rfl

theorem joinGap_eq_nil (none : joinGap bytes = []) : bytes = [] ∨ ∃ front, bytes = front ++ [slash] := by
  rcases List.eq_nil_or_concat' bytes with empty | ⟨front, last, rfl⟩
  · exact .inl empty
  · refine .inr ⟨front, ?_⟩
    simp only [joinGap, List.getLast?_concat, Option.all_some, beq_iff_eq] at none
    by_cases same : last = slash
    · rw [same]
    · simp [same] at none

theorem names_join (directory : Path) (plain : Plain name) :
    (directory.join ⟨name⟩).names = directory.names ++ [name] := by
  have single : (Path.mk name).pieces = [name] := Path.pieces_unsplit plain.unsplit
  have blank : (Path.mk []).pieces = [[]] := Path.pieces_unsplit List.not_mem_nil
  have kept : [name].filter (fun piece => !Path.trivialPiece piece) = [name] := by
    simp [plain.not_trivial]
  have joined : directory.join ⟨name⟩ = ⟨directory.bytes ++ (joinGap directory.bytes ++ name)⟩ :=
    Path.eq_of_bytes (bytes_join directory (Path.Plain.relative plain))
  obtain ⟨bytes⟩ := directory
  by_cases none : joinGap bytes = []
  · rw [joined, none]
    rcases joinGap_eq_nil none with rfl | ⟨front, rfl⟩
    · rw [Path.names, Path.names, blank, List.nil_append, List.nil_append, single, kept]
      rfl
    · rw [List.nil_append, List.append_assoc, List.singleton_append, Path.names, Path.names,
        Path.pieces_append, Path.pieces_append, single, blank, List.filter_append, kept,
        List.filter_append]
      simp [Path.trivialPiece]
  · have slashed : joinGap bytes = [slash] := by
      unfold joinGap at none ⊢
      split
      next ended => exact absurd (if_pos ended) none
      next => rfl
    rw [joined, slashed, List.singleton_append, Path.names, Path.names, Path.pieces_append,
      single, List.filter_append, kept]

theorem isAbsolute_join (some : directory.bytes ≠ []) (plain : Plain name) :
    (directory.join ⟨name⟩).isAbsolute = directory.isAbsolute := by
  unfold Path.isAbsolute
  rw [bytes_join directory (Path.Plain.relative plain), List.head?_append_of_ne_nil _ some]

theorem join_join (base : Path) (some : directory.bytes ≠ [])
    (relative : directory.isAbsolute = false) (plain : Plain name) :
    base.join (directory.join ⟨name⟩) = (base.join directory).join ⟨name⟩ := by
  have inner : (directory.join ⟨name⟩).isAbsolute = false := by
    rw [isAbsolute_join some plain, relative]
  have last : joinGap (base.bytes ++ (joinGap base.bytes ++ directory.bytes)) = joinGap directory.bytes := by
    rw [← List.append_assoc, joinGap_append _ some]
  apply Path.eq_of_bytes
  rw [bytes_join _ inner, bytes_join _ (Path.Plain.relative plain),
    bytes_join _ (Path.Plain.relative plain), bytes_join _ relative, last]
  simp only [List.append_assoc]

theorem length_lt_join (directory : Path) (plain : Plain name) :
    directory.bytes.length < (directory.join ⟨name⟩).bytes.length := by
  have some : 0 < name.length := List.length_pos_iff.mpr plain.nonempty
  rw [bytes_join directory (Path.Plain.relative plain), List.length_append, List.length_append]
  dsimp only
  omega

end Joined

/-- A walk that arrives at a directory goes on into one more directory of it. -/
theorem WalkTrace.into {remaining : List Name} (plain : Plain name)
    (trace : WalkTrace files links remaining traversal resolved final reached)
    (arrived : reached = some real) (entered : files.isDirectory real = true)
    (found : files.lookup real name = .directory) :
    (walkLinks files links (remaining ++ [name]) traversal resolved).2 =
      some (real.join ⟨name⟩) := by
  induction trace with
  | done =>
    cases arrived
    simp [walkLinks_cons, walkLinks_nil, entered, plain.notDot, plain.notDotDot, found]
  | blocked | missing | exhausted => cases arrived
  | here directory later ih => simpa [walkLinks_cons, directory] using ih arrived
  | up directory later ih => simpa [walkLinks_cons, directory] using ih arrived
  | enter directory named kind later ih =>
    rcases kind with kind | kind
    · simpa [walkLinks_cons, directory, named, kind] using ih arrived
    · simpa [walkLinks_cons, directory, named, kind] using ih arrived
  | follow directory named kind later ih =>
    have spliced := ih arrived
    simp only [splice, List.append_assoc] at spliced
    simpa [walkLinks_cons, directory, named, kind, splice] using spliced

/-- The real directory `fs::read_dir` lists: an empty path is none. -/
def openedDirectory (host : Host) (path : Path) : Option Path :=
  if path.bytes = [] then none
  else
    match realEntry host path with
    | .directory real => some real
    | _ => none

theorem openedDirectory_iff : openedDirectory host path = some real ↔
    path.bytes ≠ [] ∧ arrival host path = some real ∧ host.isDirectory real = true := by
  unfold openedDirectory
  rw [realEntry_eq]
  cases arrival host path with
  | none => simp
  | some place =>
    by_cases directory : host.isDirectory place = true
    · simp only [directory, if_true]
      constructor
      · intro opened
        split at opened
        · cases opened
        next some =>
          cases opened
          exact ⟨some, rfl, directory⟩
      · rintro ⟨some, ⟨⟩, -⟩
        simp [some]
    · simp only [directory, Bool.false_eq_true, if_false]
      constructor
      · intro opened
        split at opened
        · cases opened
        · split at opened
          next clash =>
            split at clash
            · cases clash
            · cases clash
          · cases opened
      · rintro ⟨-, ⟨⟩, entered⟩
        exact absurd entered directory

theorem absoluteForm_join (some : path.bytes ≠ []) (plain : Plain name) :
    absoluteForm host (path.join ⟨name⟩) =
      (absoluteForm host path).map (·.join ⟨name⟩) := by
  unfold absoluteForm
  rw [isAbsolute_join some plain]
  by_cases absolute : path.isAbsolute = true
  · simp [absolute]
  · rw [Bool.not_eq_true] at absolute
    simp only [absolute, Bool.false_eq_true, if_false, Option.map_map]
    congr 1
    funext base
    exact join_join base some absolute plain

theorem openedDirectory_canonical (opened : openedDirectory host path = some real) :
    real.Canonical := by
  unfold openedDirectory at opened
  split at opened
  · cases opened
  · split at opened
    next entry =>
      cases opened
      exact realEntry_canonical (by rw [entry]; rfl)
    · cases opened

theorem openedDirectory_join (opened : openedDirectory host path = some real)
    (found : host.lookup real name = .directory) :
    openedDirectory host (path.join ⟨name⟩) = some (real.join ⟨name⟩) := by
  have plain : Plain name := host.plain_of_entered (.inl found)
  have canonical := openedDirectory_canonical opened
  rw [openedDirectory_iff] at opened ⊢
  obtain ⟨written, arrived, entered⟩ := opened
  obtain ⟨form, spelled, reached⟩ := Option.bind_eq_some_iff.mp arrived
  split at reached
  next absolute =>
    have longer : (form.join ⟨name⟩).isAbsolute = true := by
      rw [isAbsolute_join ?_ plain, absolute]
      intro empty
      simp [Path.isAbsolute, empty] at absolute
    have goesOn := WalkTrace.into plain (walkLinks_trace ..) reached entered found
    refine ⟨?_, ?_, ?_⟩
    · exact List.ne_nil_of_length_pos (Nat.zero_lt_of_lt (length_lt_join path plain))
    · unfold arrival
      rw [absoluteForm_join written plain, spelled, Option.map_some, Option.bind_some,
        if_pos longer, namesOf_eq, names_join form plain, ← namesOf_eq, goesOn]
    · simp [FileSystem.isDirectory, host.entryAt_join canonical plain, found]
  · cases reached

section Walk

variable {request : ScanRequest}

/-- Whether an entry is a link, looked at without following it. -/
def Node.isLink : Node → Bool
  | .link _ => true
  | _ => false

def matchesAny (patterns : List String) (name : Name) : Bool :=
  patterns.any fun pattern => wildcardMatches pattern name

def ScanRequest.wants (request : ScanRequest) (name : Name) : Bool :=
  matchesAny request.names name && !matchesAny request.exclude name

/-- Whether the walk goes into an entry of a directory. -/
def ScanRequest.enters (request : ScanRequest) (host : Host) (real : Path) (name : Name) : Bool :=
  host.lookup real name = .directory && !matchesAny request.prune name

/-- The walk of one scan from a directory, which is opened by its path; the tree is not
deeper than `depth`. -/
def walkScan (host : Host) (request : ScanRequest) : Nat → Path → List ScanHit
  | 0, _ => []
  | depth + 1, directory =>
    match openedDirectory host directory with
    | none => []
    | some real =>
      (sortedNames (host.names real)).flatMap fun name =>
        let path := directory.join ⟨name⟩
        (if request.wants name then
          [{ foundAt := path
             target := realEntry host path
             isLink := (host.lookup real name).isLink }]
        else []) ++
        (if request.enters host real name then
          walkScan host request depth path
        else [])

def scanFrom (host : Host) (request : ScanRequest) (root : Path) : List ScanHit :=
  walkScan host request (host.height + 1) root

/-- Some pattern stands for the name. -/
def Matched (patterns : List String) (name : Name) : Prop :=
  ∃ pattern ∈ patterns, Wildcard (utf8 pattern) name

theorem matchesAny_iff : matchesAny patterns name = true ↔ Matched patterns name := by
  simp [matchesAny, Matched, wildcardMatches_eq, matchesBytes_iff]

theorem wants_iff : request.wants name = true ↔
    Matched request.names name ∧ ¬ Matched request.exclude name := by
  simp [ScanRequest.wants, ← matchesAny_iff]

theorem enters_iff : request.enters host real name = true ↔
    host.lookup real name = .directory ∧ ¬ Matched request.prune name := by
  simp [ScanRequest.enters, ← matchesAny_iff]

/-- An entry below a directory: the directories on the way, and its own name. -/
structure BelowEntry where
  between : List Name
  name : Name
  deriving DecidableEq

namespace BelowEntry

def under (name : Name) (entry : BelowEntry) : BelowEntry :=
  { entry with between := name :: entry.between }

/-- The first name on the way to the entry. -/
def first (entry : BelowEntry) : Name := entry.between.headD entry.name

end BelowEntry

/-- The directory some names lead to. -/
def directoryBelow (directory : Path) (names : List Name) : Path :=
  names.foldl (fun directory name => directory.join ⟨name⟩) directory

def BelowEntry.path (directory : Path) (entry : BelowEntry) : Path :=
  (directoryBelow directory entry.between).join ⟨entry.name⟩

/-- Everything the walk looks at below a real directory, in its order. -/
def visits (host : Host) (request : ScanRequest) : Nat → Path → List BelowEntry
  | 0, _ => []
  | depth + 1, real =>
    (sortedNames (host.names real)).flatMap fun name =>
      ⟨[], name⟩ ::
        (if request.enters host real name then
          (visits host request depth (real.join ⟨name⟩)).map (.under name)
        else [])

/-- What is reported of an entry below a root and the real directory the root leads to. -/
def hitAt (host : Host) (root real : Path) (entry : BelowEntry) : ScanHit where
  foundAt := entry.path root
  target := realEntry host (entry.path root)
  isLink := (host.lookup (directoryBelow real entry.between) entry.name).isLink

theorem walkScan_eq (depth : Nat) (opened : openedDirectory host root = some real) :
    walkScan host request depth root =
      ((visits host request depth real).filter fun entry => request.wants entry.name).map
        (hitAt host root real) := by
  induction depth generalizing root real with
  | zero => rfl
  | succ depth ih =>
    simp only [walkScan, opened, visits, List.filter_flatMap, List.map_flatMap]
    congr 1
    funext name
    have inside : (if request.enters host real name then
        walkScan host request depth (root.join ⟨name⟩) else []) =
          ((if request.enters host real name then
            (visits host request depth (real.join ⟨name⟩)).map (.under name)
          else []).filter fun entry => request.wants entry.name).map (hitAt host root real) := by
      split
      next entered =>
        have found := (enters_iff.mp entered).1
        rw [ih (openedDirectory_join opened found), List.filter_map, List.map_map]
        rfl
      next => rfl
    rw [inside]
    by_cases wanted : request.wants name = true
    · simp only [List.filter_cons, wanted, if_true, List.map_cons]
      rfl
    · simp only [List.filter_cons, wanted, Bool.false_eq_true, if_false, List.nil_append]

theorem mem_sortedNames : name ∈ sortedNames names ↔ name ∈ names :=
  (List.perm_insertionSort _ names).mem_iff

/-- Some names lead from one directory to another, each to a real directory that is not
pruned. -/
inductive Leads (host : Host) (request : ScanRequest) : Path → List Name → Path → Prop where
  | here : Leads host request real [] real
  | down : host.lookup real name = .directory → ¬ Matched request.prune name →
      Leads host request (real.join ⟨name⟩) names last → Leads host request real (name :: names) last

/-- The walk gets to an entry that is there. -/
def EntryReached (host : Host) (request : ScanRequest) (real : Path) (entry : BelowEntry) : Prop :=
  ∃ last, Leads host request real entry.between last ∧ host.lookup last entry.name ≠ .absent

theorem entryReached_nil :
    EntryReached host request real ⟨[], name⟩ ↔ host.lookup real name ≠ .absent := by
  constructor
  · rintro ⟨last, ⟨⟩, there⟩
    exact there
  · intro there
    exact ⟨real, .here, there⟩

theorem entryReached_under : EntryReached host request real (.under name entry) ↔
    host.lookup real name = .directory ∧ ¬ Matched request.prune name ∧
      EntryReached host request (real.join ⟨name⟩) entry := by
  constructor
  · rintro ⟨last, path, there⟩
    cases path with
    | down found kept rest => exact ⟨found, kept, last, rest, there⟩
  · rintro ⟨found, kept, last, rest, there⟩
    exact ⟨last, .down found kept rest, there⟩

theorem under_of_between {entry : BelowEntry} (on : entry.between = name :: names) :
    entry = .under name ⟨names, entry.name⟩ := by
  obtain ⟨between, own⟩ := entry
  cases on
  rfl

theorem not_reached_of_empty (empty : host.names real = []) (entry : BelowEntry) :
    ¬ EntryReached host request real entry := by
  have absent (name : Name) : host.lookup real name = .absent := by
    by_contra there
    have listed := (host.listed real name).mpr there
    rw [empty] at listed
    cases listed
  rintro ⟨last, path, there⟩
  generalize entry.between = between at path
  cases path with
  | here => exact there (absent _)
  | down found _ _ =>
    rw [absent] at found
    cases found

theorem mem_visits (deep : host.height < depth + real.bytes.length) {entry : BelowEntry} :
    entry ∈ visits host request depth real ↔ EntryReached host request real entry := by
  induction depth generalizing real entry with
  | zero =>
    rw [Nat.zero_add] at deep
    have none : ¬ EntryReached host request real entry :=
      not_reached_of_empty (host.bounded real (Nat.le_of_lt deep)) entry
    simp [visits, none]
  | succ depth ih =>
    simp only [visits, List.mem_flatMap, mem_sortedNames, List.mem_cons]
    constructor
    · rintro ⟨name, listed, rfl | later⟩
      · exact entryReached_nil.mpr ((host.listed real name).mp listed)
      · split at later
        next entered =>
          obtain ⟨found, kept⟩ := enters_iff.mp entered
          obtain ⟨inner, member, rfl⟩ := List.mem_map.mp later
          have longer := length_lt_join real (host.plain real name listed)
          exact entryReached_under.mpr ⟨found, kept, (ih (by omega)).mp member⟩
        next => cases later
    · intro reached
      cases on : entry.between with
      | nil =>
        obtain ⟨between, own⟩ := entry
        cases on
        exact ⟨own, (host.listed real own).mpr (entryReached_nil.mp reached), .inl rfl⟩
      | cons name names =>
        rw [under_of_between on] at reached ⊢
        obtain ⟨found, kept, inner⟩ := entryReached_under.mp reached
        have listed : name ∈ host.names real := (host.listed real name).mpr (by simp [found])
        have longer := length_lt_join real (host.plain real name listed)
        refine ⟨name, listed, .inr ?_⟩
        rw [if_pos (enters_iff.mpr ⟨found, kept⟩)]
        exact List.mem_map_of_mem ((ih (by omega)).mpr inner)

theorem first_of_visit {name : Name} {entry : BelowEntry}
    (member : entry ∈ (⟨[], name⟩ : BelowEntry) :: (if request.enters host real name then (visits host request depth (real.join ⟨name⟩)).map
    (.under name) else [])) : entry.first = name := by
  rcases List.mem_cons.mp member with rfl | later
  · rfl
  · split at later
    · obtain ⟨inner, -, rfl⟩ := List.mem_map.mp later
      rfl
    · cases later

theorem nodup_visits (host : Host) (request : ScanRequest) (depth : Nat) (real : Path) :
    (visits host request depth real).Nodup := by
  induction depth generalizing real with
  | zero => exact List.nodup_nil
  | succ depth ih =>
    have distinct : (sortedNames (host.names real)).Nodup :=
      (List.perm_insertionSort _ _).nodup_iff.mpr (host.distinct real)
    refine List.nodup_flatMap.mpr ⟨?_, ?_⟩
    · intro name _
      refine List.nodup_cons.mpr ⟨?_, ?_⟩
      · intro member
        split at member
        · obtain ⟨inner, -, same⟩ := List.mem_map.mp member
          cases congrArg BelowEntry.between same
        · cases member
      · split
        · exact (ih _).map fun left right same => by
            cases left
            cases right
            cases same
            rfl
        · exact List.nodup_nil
    · refine distinct.imp fun different => ?_
      intro entry left right
      exact different ((first_of_visit left).symm.trans (first_of_visit right))

/-- A deeper walk finds nothing more: no link leads it round in circles. -/
theorem visits_deeper (deep : host.height < depth + real.bytes.length) :
    visits host request (depth + 1) real = visits host request depth real := by
  induction depth generalizing real with
  | zero =>
    rw [Nat.zero_add] at deep
    simp [visits, host.bounded real (Nat.le_of_lt deep), sortedNames]
  | succ depth ih =>
    rw [visits, visits]
    refine List.flatMap_congr fun name member => ?_
    have longer := length_lt_join real (host.plain real name (mem_sortedNames.mp member))
    rw [ih (by omega)]

theorem visits_enough (deep : host.height < depth) (real : Path) :
    visits host request depth real = visits host request (host.height + 1) real := by
  obtain ⟨more, rfl⟩ := Nat.exists_eq_add_of_le deep
  induction more with
  | zero => rfl
  | succ more ih => rw [Nat.add_succ, visits_deeper (by omega), ih (by omega)]

/-- From a root that leads to a directory, a scan has one hit for each wanted entry below it that is
reached by real directories none of which is pruned. It looks at nothing else, and its depth is
never what ends it. -/
theorem scan_finds_exactly (host : Host) (request : ScanRequest) (root : Path) :
    (openedDirectory host root = none → scanFrom host request root = []) ∧
      ∀ real, openedDirectory host root = some real →
        (∃ entries : List BelowEntry, entries.Nodup ∧
          (∀ entry, entry ∈ entries ↔ EntryReached host request real entry ∧
            Matched request.names entry.name ∧ ¬ Matched request.exclude entry.name) ∧
          scanFrom host request root = entries.map (hitAt host root real)) ∧
        (∀ entry ∈ visits host request (host.height + 1) real, EntryReached host request real entry) ∧
        ∀ depth, host.height < depth →
          walkScan host request depth root = scanFrom host request root := by
  constructor
  · intro none
    simp [scanFrom, walkScan, none]
  · intro real opened
    have inside {entry : BelowEntry} :
        entry ∈ visits host request (host.height + 1) real ↔ EntryReached host request real entry :=
      mem_visits (by omega)
    refine ⟨⟨_, (nodup_visits host request _ real).filter _, ?_, walkScan_eq _ opened⟩,
      fun entry => inside.mp, ?_⟩
    · intro entry
      rw [List.mem_filter, inside, wants_iff]
    · intro depth deep
      rw [scanFrom, walkScan_eq _ opened, walkScan_eq _ opened, visits_enough deep]

/-- A directory with a file and a link back to the directory. -/
def ringHost : Host where
  toFileSystem := FileSystem.ofTable
    [⟨Path.root, utf8 "w", .directory⟩, ⟨Path.ofString "/w", utf8 ".env", .other⟩,
     ⟨Path.ofString "/w", utf8 "up", .link (Path.ofString "/w")⟩] (by decide +kernel)
  currentDir := none
  mountList := none

theorem ring_scanned :
    openedDirectory ringHost (Path.ofString "/w/up") = some (Path.ofString "/w") ∧
      ∃ entries : List BelowEntry, entries.Nodup ∧
        (∀ entry, entry ∈ entries ↔
          EntryReached ringHost ⟨Path.root, ["*"], [], []⟩ (Path.ofString "/w") entry ∧
            Matched ["*"] entry.name ∧ ¬ Matched [] entry.name) ∧
        scanFrom ringHost ⟨Path.root, ["*"], [], []⟩ (Path.ofString "/w/up") =
          entries.map (hitAt ringHost (Path.ofString "/w/up") (Path.ofString "/w")) := by
  have opened : openedDirectory ringHost (Path.ofString "/w/up") = some (Path.ofString "/w") := by
    decide +kernel
  exact ⟨opened, ((scan_finds_exactly _ _ _).2 _ opened).1⟩

/-- A place a walk arrives at is opened by its own path. -/
theorem openedDirectory_real (opened : openedDirectory host path = some real) :
    openedDirectory host real = some real := by
  obtain ⟨names, -, rfl⟩ := openedDirectory_canonical opened
  rw [openedDirectory_iff] at opened ⊢
  obtain ⟨-, arrived, entered⟩ := opened
  obtain ⟨form, -, reached⟩ := Option.bind_eq_some_iff.mp arrived
  split at reached
  · have standing := (walkLinks_trace ..).standing (standing_root _) _ reached
    have again := (walk_standing_again standing).1
    have absolute := Path.isAbsolute_ofNames names
    rw [walk_absolute _ absolute] at again
    refine ⟨List.cons_ne_nil _ _, ?_, entered⟩
    simp only [arrival, absoluteForm, absolute, if_true, Option.bind_some]
    exact (Option.filter_eq_some_iff.mp again).1
  · cases reached

theorem scanBelow_eq (depth : Nat) (opened : openedDirectory host real = some real) :
    scanBelow host request depth real = walkScan host request depth real := by
  induction depth generalizing real with
  | zero => rfl
  | succ depth ih =>
    simp only [scanBelow, walkScan, opened]
    congr 1
    funext name
    congr 1
    by_cases entered : request.enters host real name = true
    · rw [if_pos entered, ← ih (openedDirectory_join opened (enters_iff.mp entered).1)]
      exact if_pos entered
    · rw [if_neg entered]
      exact if_neg entered

/-- The scans of a policy start from real directories, and are this walk there. -/
theorem scan_eq_scanFrom (opened : openedDirectory host path = some real) :
    scan host request real = scanFrom host request real := by
  have entered := (openedDirectory_iff.mp opened).2.2
  rw [scan, if_pos entered, scanFrom, scanBelow_eq _ (openedDirectory_real opened)]

end Walk

end Kakoi
