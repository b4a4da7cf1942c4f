import Mathlib.Data.List.Pairwise
import Kakoi.Base.RealPath

/-! Lists of paths sorted and deduplicated by components, and maps keyed by paths alike. -/

namespace Kakoi

theorem Component.rank_injective : Function.Injective Component.rank := by
  intro left right same
  cases left <;> cases right <;> simp_all [rank, List.map_inj_right, UInt8.toNat_inj]

namespace Path

theorem le_transitive (a b c : Path) (lower : a.le b) (upper : b.le c) : a.le c :=
  le_trans lower upper

instance : IsTrans Path Path.le := ⟨le_transitive⟩

instance : Std.Total Path.le := ⟨fun a b => le_total a.rank b.rank⟩

theorem beq_of_le_of_le (a b : Path) (lower : a.le b) (upper : b.le a) : (a == b) = true := by
  have same : a.rank = b.rank := le_antisymm lower upper
  exact (beq_iff a b).mpr (List.map_injective_iff.mpr Component.rank_injective same)

theorem le_of_beq {a b : Path} (same : (a == b) = true) : a.le b := by
  have equal := (beq_iff a b).mp same
  simp [le, rank, equal]

theorem beq_symm {a b : Path} (same : (a == b) = true) : (b == a) = true :=
  (beq_iff b a).mpr ((beq_iff a b).mp same).symm

theorem beq_trans {a b c : Path} (first : (a == b) = true) (second : (b == c) = true) :
    (a == c) = true :=
  (beq_iff a c).mpr (((beq_iff a b).mp first).trans ((beq_iff b c).mp second))

end Path

namespace Path

theorem pieces_append (front tail : List UInt8) :
    pieces ⟨front ++ slash :: tail⟩ = pieces ⟨front⟩ ++ pieces ⟨tail⟩ :=
  splitOn_append slash front tail

theorem pieces_unsplit {name : Name} (unsplit : slash ∉ name) : pieces ⟨name⟩ = [name] := by
  have split : ([slash].intercalate [name]).splitOn slash = [name] :=
    List.splitOn_intercalate slash (by simpa using unsplit) (by simp)
  simpa [pieces] using split

/-- The bytes up to the last slash and behind it. -/
theorem unsplit_or_last (name : Name) :
    slash ∉ name ∨ ∃ front tail, name = front ++ slash :: tail ∧ slash ∉ tail := by
  by_cases present : slash ∈ name
  · right
    obtain ⟨tail, front, reversed, absent⟩ :=
      List.eq_append_cons_of_mem (List.mem_reverse.mpr present)
    refine ⟨front.reverse, tail.reverse, ?_, by simpa using absent⟩
    rw [← List.reverse_reverse name, reversed]
    simp
  · exact .inl present

/-- The components of a path but the one that tells how it starts. -/
def body (path : Path) : List Component := path.pieces.filterMap Component.ofPiece

theorem curDir_not_mem_body (path : Path) : Component.curDir ∉ path.body := by
  intro member
  obtain ⟨piece, -, same⟩ := List.mem_filterMap.mp member
  revert same
  unfold Component.ofPiece
  split <;> [simp; split <;> [simp; split <;> simp]]

theorem components_relative {path : Path} (relative : path.isAbsolute = false) :
    path.components = if path.startsWithDot then .curDir :: path.body else path.body := by
  simp [components, relative, body]

theorem body_of_beq {left right : Path} (same : (left == right) = true)
    (relative : left.isAbsolute = false) (other : right.isAbsolute = false) :
    left.body = right.body := by
  have equal := (beq_iff left right).mp same
  rw [components_relative relative, components_relative other] at equal
  cases leftDot : left.startsWithDot <;> cases rightDot : right.startsWithDot <;>
    simp only [leftDot, rightDot, Bool.false_eq_true, ↓reduceIte] at equal
  · exact equal
  · exact absurd (equal ▸ List.mem_cons_self) (curDir_not_mem_body left)
  · exact absurd (equal ▸ List.mem_cons_self) (curDir_not_mem_body right)
  · exact (List.cons.inj equal).2

theorem components_behind (front tail : List UInt8) :
    components ⟨front ++ slash :: tail⟩ =
      (if (front ++ [slash]).head? = some slash then [.rootDir]
       else if (pieces ⟨front⟩).head? = some [dot] then [.curDir] else []) ++
        (body ⟨front⟩ ++ body ⟨tail⟩) := by
  have start : (front ++ slash :: tail).head? = (front ++ [slash]).head? := by
    cases front <;> rfl
  have dotted : (pieces ⟨front ++ slash :: tail⟩).head? = (pieces ⟨front⟩).head? := by
    rw [pieces_append]
    exact List.head?_append_of_ne_nil _ (List.splitOn_ne_nil _ _)
  unfold components isAbsolute startsWithDot
  rw [dotted, start, pieces_append, List.filterMap_append]
  simp only [beq_iff_eq, body]
  split
  · rfl
  · split <;> rfl

theorem components_trailing (front : List UInt8) (nonempty : front ≠ []) :
    components ⟨front ++ [slash]⟩ = components ⟨front⟩ := by
  have start : (front ++ [slash]).head? = front.head? := List.head?_append_of_ne_nil _ nonempty
  rw [components_behind, start]
  have empty : body ⟨[]⟩ = [] := rfl
  rw [empty, List.append_nil]
  by_cases absolute : front.head? = some slash
  · simp [components, isAbsolute, absolute, body]
  · by_cases dotted : (pieces ⟨front⟩).head? = some [dot]
    · simp [components, isAbsolute, absolute, startsWithDot, dotted, body]
    · simp [components, isAbsolute, absolute, startsWithDot, dotted, body]

/-- What a base puts in front of every relative path. -/
theorem join_relative (base : Path) (nonempty : base.bytes ≠ []) :
    ∃ front, components ⟨front ++ [slash]⟩ = base.components ∧
      ∀ tail : Path, tail.isAbsolute = false → base.join tail = ⟨front ++ slash :: tail.bytes⟩ := by
  by_cases trailing : base.bytes.getLast?.all (· == slash) = true
  · have last : base.bytes.getLast? = some slash := by
      cases shape : base.bytes.getLast? with
      | none => exact absurd (List.getLast?_eq_none_iff.mp shape) nonempty
      | some byte => simpa [shape] using trailing
    have split := List.dropLast_append_getLast? slash last
    refine ⟨base.bytes.dropLast, by rw [split], fun tail relative => ?_⟩
    rw [join, if_neg (by simp [relative]), if_pos trailing]
    congr 1
    conv_lhs => rw [← split]
    simp
  · refine ⟨base.bytes, components_trailing base.bytes nonempty, fun tail relative => ?_⟩
    rw [join, if_neg (by simp [relative]), if_neg trailing]

/-- Spellings of one relative path stay spellings of one path behind a base. -/
theorem join_of_beq {left right : Path} (base : Path) (same : (left == right) = true)
    (relative : left.isAbsolute = false) (other : right.isAbsolute = false) :
    (base.join left == base.join right) = true := by
  by_cases empty : base.bytes = []
  · simpa [join, relative, other, empty] using same
  · obtain ⟨front, -, joined⟩ := join_relative base empty
    rw [joined left relative, joined right other, beq_iff, components_behind, components_behind]
    have bodies := body_of_beq same relative other
    rw [show body ⟨left.bytes⟩ = body ⟨right.bytes⟩ from bodies]

theorem components_join (base : Path) (nonempty : base.bytes ≠ [])
    (relative : tail.isAbsolute = false) :
    (base.join tail).components = base.components ++ tail.body := by
  obtain ⟨front, same, joined⟩ := join_relative base nonempty
  rw [joined tail relative, ← same, components_behind, components_behind, List.append_assoc]
  simp [body, pieces, Component.ofPiece]

theorem startsWith_join_relative (base : Path) (nonempty : base.bytes ≠ [])
    (relative : tail.isAbsolute = false) : (base.join tail).startsWith base = true := by
  rw [startsWith_iff, components_join base nonempty relative]
  exact List.prefix_append _ _

theorem join_nonempty (base : Path) (nonempty : base.bytes ≠ [])
    (relative : tail.isAbsolute = false) : (base.join tail).bytes ≠ [] := by
  obtain ⟨front, -, joined⟩ := join_relative base nonempty
  simp [joined tail relative]

end Path

theorem mem_of_mem_distinctPaths (member : path ∈ distinctPaths paths) : path ∈ paths := by
  have kept := (dedupAdjacent_sublist (· == ·) (sortPaths paths)).subset member
  exact (List.perm_insertionSort Path.le paths).mem_iff.mp kept

theorem distinctPaths_represents (member : path ∈ paths) :
    ∃ kept ∈ distinctPaths paths, (kept == path) = true := by
  have sorted : path ∈ sortPaths paths :=
    (List.perm_insertionSort Path.le paths).mem_iff.mpr member
  exact dedupAdjacent_represents Path.beq_self sorted

theorem distinctPaths_pairwise (paths : List Path) :
    (distinctPaths paths).Pairwise fun left right => (left == right) = false := by
  have strict : (distinctPaths paths).Pairwise fun left right => left.le right ∧ ¬ right.le left :=
    dedupAdjacent_strict Path.le_transitive Path.beq_of_le_of_le
      (List.pairwise_insertionSort Path.le paths)
  refine strict.imp ?_
  intro left right apart
  apply Bool.eq_false_iff.mpr
  intro same
  exact apart.2 (Path.le_of_beq (Path.beq_symm same))

theorem distinctPaths_unique (left : path ∈ distinctPaths paths) (right : other ∈ distinctPaths paths)
    (same : (path == other) = true) : path = other := by
  have symmetric : Std.Symm fun a b : Path => (a == b) = false := ⟨fun a b apart =>
    Bool.eq_false_iff.mpr fun equal => Bool.eq_false_iff.mp apart (Path.beq_symm equal)⟩
  by_contra different
  have apart := (distinctPaths_pairwise paths).forall left right different
  exact Bool.eq_false_iff.mp apart same

/-- A map keyed by paths, as far as its lookups tell: keys are compared by components. -/
abbrev PathMap (α : Type) := Path → Option α

namespace PathMap

def empty : PathMap α := fun _ => none

def insert (map : PathMap α) (key : Path) (value : α) : PathMap α :=
  fun path => if path == key then some value else map path

def insertAll (map : PathMap α) (value : Path → α) (keys : List Path) : PathMap α :=
  keys.foldl (fun map key => map.insert key (value key)) map

def extend (map : PathMap α) (pairs : List (Path × α)) : PathMap α :=
  pairs.foldl (fun map pair => map.insert pair.1 pair.2) map

variable {map : PathMap α}

theorem insert_same (same : (path == key) = true) : map.insert key new path = some new := by
  simp [insert, same]

theorem insert_other (different : (path == key) = false) : map.insert key new path = map path := by
  simp [insert, different]

/-- What a lookup finds was put there for a key that is the same path. -/
theorem extend_cases (map : PathMap α) (pairs : List (Path × α)) (path : Path) :
    (∃ pair ∈ pairs, (path == pair.1) = true ∧ map.extend pairs path = some pair.2) ∨
      ((∀ pair ∈ pairs, (path == pair.1) = false) ∧ map.extend pairs path = map path) := by
  induction pairs generalizing map with
  | nil => exact .inr ⟨by simp, rfl⟩
  | cons first rest ih =>
    rcases ih (map.insert first.1 first.2) with ⟨pair, member, same, found⟩ | ⟨apart, found⟩
    · exact .inl ⟨pair, List.mem_cons_of_mem first member, same, found⟩
    · by_cases same : (path == first.1) = true
      · exact .inl ⟨first, List.mem_cons_self, same, found.trans (insert_same same)⟩
      · have different := Bool.eq_false_iff.mpr same
        refine .inr ⟨?_, found.trans (insert_other different)⟩
        intro pair member
        rcases List.mem_cons.mp member with rfl | later
        · exact different
        · exact apart pair later

theorem insertAll_cases (map : PathMap α) (value : Path → α) (keys : List Path) (path : Path) :
    (∃ key ∈ keys, (path == key) = true ∧ map.insertAll value keys path = some (value key)) ∨
      ((∀ key ∈ keys, (path == key) = false) ∧ map.insertAll value keys path = map path) := by
  have pairs : map.insertAll value keys = map.extend (keys.map fun key => (key, value key)) := by
    simp [insertAll, extend, List.foldl_map]
  simpa [pairs] using extend_cases map (keys.map fun key => (key, value key)) path

theorem insertAll_other (different : ∀ key ∈ keys, (path == key) = false) :
    map.insertAll value keys path = map path := by
  rcases insertAll_cases map value keys path with ⟨key, member, same, -⟩ | ⟨-, found⟩
  · rw [different key member] at same
    cases same
  · exact found

/-- A value that does not depend on the spelling is found under every spelling. -/
theorem insertAll_congr (congruent : ∀ a b, (a == b) = true → value a = value b)
    (member : key ∈ keys) (same : (path == key) = true) :
    map.insertAll value keys path = some (value path) := by
  rcases insertAll_cases map value keys path with ⟨other, -, equal, found⟩ | ⟨apart, -⟩
  · rw [found, congruent path other equal]
  · rw [apart key member] at same
    cases same

/-- Under keys of different paths, the value found is the one of the spelling given. -/
theorem insertAll_unique
    (unique : ∀ a ∈ keys, ∀ b ∈ keys, (a == b) = true → a = b)
    (member : key ∈ keys) (same : (path == key) = true) :
    map.insertAll value keys path = some (value key) := by
  rcases insertAll_cases map value keys path with ⟨other, present, equal, found⟩ | ⟨apart, -⟩
  · rw [found, unique other present key member (Path.beq_trans (Path.beq_symm equal) same)]
  · rw [apart key member] at same
    cases same

end PathMap

end Kakoi
