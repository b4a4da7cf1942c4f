import Mathlib.Data.List.Dedup
import Kakoi.Base.RealPath

/-! The host as the outer layer reads it. Permissions and hard links are not part of it, so every
directory can be listed and every link read. -/

namespace Kakoi

/-- What is at one name of a directory, looked at without following a link. -/
inductive Node where
  | absent
  | directory
  | other
  | link (target : Path)
  deriving DecidableEq

/-- Directory entries by the directory's real path: finitely many, and none where the path is too
long. -/
structure FileSystem where
  lookup : Path → Name → Node
  names : Path → List Name
  height : Nat
  listed : ∀ directory name, name ∈ names directory ↔ lookup directory name ≠ .absent
  distinct : ∀ directory, (names directory).Nodup
  plain : ∀ directory, ∀ name ∈ names directory, Plain name
  bounded : ∀ directory, height ≤ directory.bytes.length → names directory = []

/-- One mount of the host: its mount point and its file system type. -/
structure Mount where
  target : Path
  fstype : String
  deriving DecidableEq

structure Host extends FileSystem where
  /-- What `std::env::current_dir` answers. -/
  currentDir : Option Path
  /-- The parsed `/proc/self/mountinfo`; none when it cannot be read. -/
  mountList : Option (List Mount)

namespace FileSystem

theorem plain_of_lookup (files : FileSystem) (directory : Path)
    (present : files.lookup directory name ≠ .absent) : Plain name :=
  files.plain directory name ((files.listed directory name).mpr present)

theorem plain_of_entered (files : FileSystem) {directory : Path}
    (found : files.lookup directory name = .directory ∨ files.lookup directory name = .other) :
    Plain name := by
  apply files.plain_of_lookup directory
  rcases found with found | found
  · simp [found]
  · simp [found]

/-- `fs::metadata` of a path built from names that are not links: the root, or the
entry its parent has under its last name. -/
def entryAt (files : FileSystem) (path : Path) : Node :=
  match path.parent, path.fileName with
  | some directory, some name => files.lookup directory name
  | _, _ => .directory

def isDirectory (files : FileSystem) (path : Path) : Bool := files.entryAt path == .directory

theorem entryAt_root (files : FileSystem) : files.entryAt Path.root = .directory := rfl

theorem entryAt_join (files : FileSystem) (real : directory.Canonical) (plain : Plain name) :
    files.entryAt (directory.join ⟨name⟩) = files.lookup directory name := by
  obtain ⟨front, frontPlain, rfl⟩ := real
  have joined := Path.plain_concat frontPlain plain
  simp [entryAt, Path.join_ofNames frontPlain plain, Path.parent_ofNames joined,
    Path.fileName_ofNames joined]

/-- A file system from a finite table of entries; the first row of a name counts. -/
structure Row where
  directory : Path
  name : Name
  node : Node

def find (table : List Row) (directory : Path) (name : Name) : Node :=
  ((table.find? fun row => decide (row.directory = directory ∧ row.name = name)).map
    Row.node).getD .absent

def listing (table : List Row) (directory : Path) : List Name :=
  ((table.map Row.name).dedup).filter fun name => find table directory name ≠ .absent

theorem find_present (present : find table directory name ≠ .absent) :
    ∃ row ∈ table, row.directory = directory ∧ row.name = name := by
  unfold find at present
  cases found : table.find? fun row => decide (row.directory = directory ∧ row.name = name) with
  | none =>
    rw [found] at present
    exact absurd rfl present
  | some row =>
    have selected := List.find?_some found
    exact ⟨row, List.mem_of_find?_eq_some found, by simpa using selected⟩

def tableHeight (table : List Row) : Nat :=
  table.foldr (fun row height => row.directory.bytes.length + 1 + height) 0

theorem length_lt_tableHeight (member : row ∈ table) :
    row.directory.bytes.length < tableHeight table := by
  induction table with
  | nil => cases member
  | cons first rest ih =>
    rw [tableHeight, List.foldr_cons]
    rcases List.mem_cons.mp member with rfl | later
    · omega
    · have within := ih later
      unfold tableHeight at within
      omega

def ofTable (table : List Row) (plain : ∀ row ∈ table, Plain row.name) : FileSystem where
  lookup := find table
  names := listing table
  height := tableHeight table
  listed directory name := by
    simp only [listing, List.mem_filter, List.mem_dedup, decide_eq_true_eq]
    constructor
    · exact And.right
    · intro present
      obtain ⟨row, member, -, same⟩ := find_present present
      exact ⟨List.mem_map.mpr ⟨row, member, same⟩, present⟩
  distinct directory := (List.nodup_dedup _).filter _
  plain directory name member := by
    obtain ⟨row, found, rfl⟩ := List.mem_map.mp (List.mem_dedup.mp (List.mem_filter.mp member).1)
    exact plain row found
  bounded directory deep := by
    apply List.filter_eq_nil_iff.mpr
    intro name _ present
    obtain ⟨row, member, rfl, -⟩ := find_present (by simpa using present)
    exact absurd deep (Nat.not_le.mpr (length_lt_tableHeight member))

end FileSystem

end Kakoi
