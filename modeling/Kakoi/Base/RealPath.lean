import Mathlib.Data.List.Infix
import Kakoi.Base.Collecting
import Kakoi.Base.Path

/-! Real paths, on which the component order, the byte order and nesting agree. -/

namespace Kakoi

/-- A name a directory entry can have. -/
structure Plain (name : Name) : Prop where
  nonempty : name ≠ []
  unsplit : slash ∉ name
  notDot : name ≠ [dot]
  notDotDot : name ≠ [dot, dot]

instance (name : Name) : Decidable (Plain name) :=
  decidable_of_iff (name ≠ [] ∧ slash ∉ name ∧ name ≠ [dot] ∧ name ≠ [dot, dot])
    ⟨fun ⟨nonempty, unsplit, notDot, notDotDot⟩ => ⟨nonempty, unsplit, notDot, notDotDot⟩,
     fun plain => ⟨plain.nonempty, plain.unsplit, plain.notDot, plain.notDotDot⟩⟩

theorem Plain.ofPiece (plain : Plain name) : Component.ofPiece name = some (.normal name) := by
  simp [Component.ofPiece, plain.nonempty, plain.notDot, plain.notDotDot]

theorem Plain.not_trivial (plain : Plain name) : Path.trivialPiece name = false := by
  simp [Path.trivialPiece, plain.nonempty, plain.notDot]

namespace Path

variable {names other : List Name}

def ofNames (names : List Name) : Path := ⟨slash :: [slash].intercalate names⟩

/-- A path spelled as the walk spells real paths. -/
def Canonical (path : Path) : Prop :=
  ∃ names, (∀ name ∈ names, Plain name) ∧ path = ofNames names

theorem ofNames_nil : ofNames [] = root := rfl

theorem canonical_root : Canonical root := ⟨[], by simp, rfl⟩

theorem isAbsolute_ofNames (names : List Name) : (ofNames names).isAbsolute = true := by
  simp [isAbsolute, ofNames]

theorem pieces_cons_slash (bytes : List UInt8) :
    (Path.mk (slash :: bytes)).pieces = [] :: bytes.splitOn slash := by
  simp [pieces, List.splitOn_cons_eq_if_modifyHead]

theorem normal_injective : Function.Injective Component.normal := by
  intro left right same
  exact Component.normal.inj same

section Names

variable (plain : ∀ name ∈ names, Plain name)

include plain

theorem canonical_ofNames : Canonical (ofNames names) :=
  ⟨names, plain, rfl⟩

theorem pieces_ofNames (some : names ≠ []) : (ofNames names).pieces = [] :: names := by
  rw [ofNames, pieces_cons_slash,
    List.splitOn_intercalate slash (fun name member => (plain name member).unsplit) some]

theorem filterMap_ofPiece : names.filterMap Component.ofPiece = names.map Component.normal := by
  induction names with
  | nil => rfl
  | cons name rest ih =>
    have restPlain : ∀ name ∈ rest, Plain name := fun other member => plain other (by simp [member])
    simp [(plain name (by simp)).ofPiece, ih restPlain]

theorem components_ofNames :
    (ofNames names).components = .rootDir :: names.map Component.normal := by
  by_cases empty : names = []
  · subst empty
    decide
  · simp only [components, isAbsolute_ofNames, ↓reduceIte, pieces_ofNames plain empty,
      List.filterMap_cons]
    simp [Component.ofPiece, ← filterMap_ofPiece plain]

theorem ofNames_injective (otherPlain : ∀ name ∈ other, Plain name)
    (same : (ofNames names).components = (ofNames other).components) : names = other := by
  rw [components_ofNames plain, components_ofNames otherPlain] at same
  exact (List.map_injective_iff.mpr normal_injective) (List.cons.inj same).2

end Names

theorem beq_iff (left right : Path) : (left == right) = true ↔ left.components = right.components := by
  change (left.components == right.components) = true ↔ _
  simp

theorem beq_self (path : Path) : (path == path) = true := (beq_iff _ _).mpr rfl

theorem Canonical.beq_iff_eq (left : Canonical a) (right : Canonical b) :
    (a == b) = true ↔ a = b := by
  obtain ⟨names, plain, rfl⟩ := left
  obtain ⟨other, otherPlain, rfl⟩ := right
  rw [beq_iff]
  constructor
  · intro same
    rw [ofNames_injective plain otherPlain same]
  · rintro same
    rw [same]

theorem startsWith_iff (path base : Path) :
    path.startsWith base = true ↔ base.components <+: path.components := by
  simp [startsWith]

theorem startsWith_refl (path : Path) : path.startsWith path = true :=
  (startsWith_iff _ _).mpr (List.prefix_refl _)

theorem startsWith_trans {a b c : Path} (upper : a.startsWith b = true)
    (lower : b.startsWith c = true) : a.startsWith c = true :=
  (startsWith_iff _ _).mpr
    (((startsWith_iff _ _).mp lower).trans ((startsWith_iff _ _).mp upper))

theorem startsWith_chain {path a b : Path} (left : path.startsWith a = true)
    (right : path.startsWith b = true) : a.startsWith b = true ∨ b.startsWith a = true := by
  rw [startsWith_iff] at *
  rw [startsWith_iff]
  exact (List.prefix_or_prefix_of_prefix left right).symm

theorem startsWith_ofNames (plain : ∀ name ∈ names, Plain name)
    (otherPlain : ∀ name ∈ other, Plain name) :
    (ofNames names).startsWith (ofNames other) = true ↔ other <+: names := by
  rw [startsWith_iff, components_ofNames plain, components_ofNames otherPlain,
    List.cons_prefix_cons]
  simp only [true_and]
  exact List.prefix_map_iff_of_injective normal_injective

theorem Canonical.startsWith_root (real : Canonical path) : path.startsWith root = true := by
  obtain ⟨names, plain, rfl⟩ := real
  rw [← ofNames_nil]
  exact (startsWith_ofNames plain (by simp)).mpr List.nil_prefix

theorem Canonical.startsWith_antisymm (left : Canonical a) (right : Canonical b)
    (below : a.startsWith b = true) (above : b.startsWith a = true) : a = b := by
  obtain ⟨names, plain, rfl⟩ := left
  obtain ⟨other, otherPlain, rfl⟩ := right
  have forward := (startsWith_ofNames plain otherPlain).mp below
  have backward := (startsWith_ofNames otherPlain plain).mp above
  rw [forward.eq_of_length (Nat.le_antisymm forward.length_le backward.length_le)]

theorem intercalate_concat (names : List Name) (name : Name) (some : names ≠ []) :
    [slash].intercalate (names ++ [name]) = [slash].intercalate names ++ slash :: name := by
  rw [intercalate_append names [name] some (by simp), List.intercalate_singleton]

theorem ofNames_bytes_concat (names : List Name) (name : Name) :
    (ofNames (names ++ [name])).bytes =
      if names = [] then slash :: name else (ofNames names).bytes ++ slash :: name := by
  split
  · rename_i empty
    simp [empty, ofNames, List.intercalate]
  · rename_i some
    simp [ofNames, intercalate_concat names name some]

theorem Plain.relative (plain : Plain name) : (Path.mk name).isAbsolute = false := by
  cases name with
  | nil => rfl
  | cons byte rest =>
    have different : byte ≠ slash := fun same => plain.unsplit (by simp [same])
    simpa [isAbsolute] using different

/-- The path of some names below a directory. -/
def below (names : List Name) : Path := ⟨[slash].intercalate names⟩

section Joined

variable (plain : ∀ name ∈ names, Plain name)

include plain

theorem getLast_ofNames (some : names ≠ []) :
    ((ofNames names).bytes.getLast?.all (· == slash)) = false := by
  rcases List.eq_nil_or_concat' names with empty | ⟨front, name, rfl⟩
  · exact absurd empty some
  have last := plain name (by simp)
  have ends : ∃ start, (ofNames (front ++ [name])).bytes = start ++ name := by
    rw [ofNames_bytes_concat]
    split
    · exact ⟨[slash], rfl⟩
    · exact ⟨(ofNames front).bytes ++ [slash], by simp⟩
  obtain ⟨start, bytes⟩ := ends
  rw [bytes, List.getLast?_append_of_ne_nil _ last.nonempty,
    List.getLast?_eq_some_getLast last.nonempty]
  have different : name.getLast last.nonempty ≠ slash :=
    fun same => last.unsplit (same ▸ List.getLast_mem last.nonempty)
  simpa using different

theorem join_ofNames (last : Plain name) :
    (ofNames names).join ⟨name⟩ = ofNames (names ++ [name]) := by
  have bytes := ofNames_bytes_concat names name
  by_cases empty : names = []
  · subst empty
    have onRoot : ((ofNames []).bytes.getLast?.all (· == slash)) = true := by decide
    simp only [join, Plain.relative last, onRoot, Bool.false_eq_true, ↓reduceIte]
    simp [ofNames, List.intercalate]
  · simp only [empty, ↓reduceIte] at bytes
    simp only [join, Plain.relative last, getLast_ofNames plain empty, Bool.false_eq_true, ↓reduceIte,
      ← bytes]

theorem isAbsolute_below : (below names).isAbsolute = false := by
  cases names with
  | nil => rfl
  | cons first rest =>
    have own := plain first List.mem_cons_self
    have front : ∃ bytes, (below (first :: rest)).bytes = first ++ bytes := by
      cases rest with
      | nil => exact ⟨[], by simp [below]⟩
      | cons second rest =>
        exact ⟨_, by rw [below, List.intercalate_cons_cons, List.append_assoc]⟩
    obtain ⟨bytes, front⟩ := front
    have start := Plain.relative own
    unfold isAbsolute at start ⊢
    rw [front, List.head?_append_of_ne_nil _ own.nonempty]
    exact start

theorem join_below (last : Plain name) : (below names).join ⟨name⟩ = below (names ++ [name]) := by
  by_cases empty : names = []
  · subst empty
    have nothing : ((below []).bytes.getLast?.all (· == slash)) = true := by decide
    simp only [join, Plain.relative last, nothing, Bool.false_eq_true, ↓reduceIte]
    simp [below]
  · have spelled : (ofNames names).bytes = [slash] ++ (below names).bytes := rfl
    have ends : ((below names).bytes.getLast?.all (· == slash)) = false := by
      have whole := getLast_ofNames plain empty
      have some : (below names).bytes ≠ [] := by
        intro none
        rw [spelled, none] at whole
        cases whole
      rwa [spelled, List.getLast?_append_of_ne_nil _ some] at whole
    simp only [join, Plain.relative last, ends, Bool.false_eq_true, ↓reduceIte]
    exact congrArg Path.mk (intercalate_concat names name empty).symm

theorem components_below : (below names).components = names.map Component.normal := by
  by_cases empty : names = []
  · subst empty
    decide
  · have pieces : (below names).pieces = names :=
      List.splitOn_intercalate slash (fun name member => (plain name member).unsplit) empty
    have undotted : (below names).startsWithDot = false := by
      cases names with
      | nil => exact absurd rfl empty
      | cons first rest =>
        simpa [startsWithDot, pieces] using (plain first List.mem_cons_self).notDot
    simp [components, isAbsolute_below plain, undotted, pieces, filterMap_ofPiece plain]

theorem rdropWhile_plain : names.rdropWhile trivialPiece = names := by
  apply List.rdropWhile_eq_self_iff.mpr
  intro some
  simp [(plain _ (List.getLast_mem some)).not_trivial]

theorem parent_ofNames (some : names ≠ []) :
    (ofNames names).parent = Option.some (ofNames names.dropLast) := by
  have shorter : ∀ name ∈ names.dropLast, Plain name :=
    fun name member => plain name (List.dropLast_subset _ member)
  have dropped : dropComponent names = Option.some names.dropLast := by
    unfold dropComponent
    rw [rdropWhile_plain plain]
    split
    · contradiction
    · rw [rdropWhile_plain shorter]
  simp only [parent, isAbsolute_ofNames, ↓reduceIte, pieces_ofNames plain some, List.tail_cons,
    dropped, Option.map_some]
  rfl

theorem pop_ofNames : (ofNames names).pop = ofNames names.dropLast := by
  by_cases empty : names = []
  · subst empty
    decide
  · simp [pop, parent_ofNames plain empty]

theorem fileName_ofNames : (ofNames names).fileName = names.getLast? := by
  rw [fileName, components_ofNames plain]
  rcases List.eq_nil_or_concat' names with rfl | ⟨front, name, rfl⟩
  · rfl
  · rw [List.map_append, List.map_singleton, ← List.cons_append, List.getLast?_concat]
    simp

theorem plain_concat (last : Plain name) : ∀ other ∈ names ++ [name], Plain other := by
  intro other member
  rcases mem_concat.mp member with front | final
  · exact plain other front
  · rwa [final]

end Joined

theorem ofNames_join_below {base : List Name} (plainBase : ∀ name ∈ base, Plain name)
    (plain : ∀ name ∈ names, Plain name) (some : names ≠ []) :
    (ofNames base).join (below names) = ofNames (base ++ names) := by
  unfold join
  rw [if_neg (by simp [isAbsolute_below plain])]
  by_cases empty : base = []
  · subst empty
    rw [if_pos (by decide)]
    simp [ofNames, below]
  · rw [if_neg (by simp [getLast_ofNames plainBase empty]), ofNames, ofNames, below,
      intercalate_append base names empty some, List.cons_append]

theorem Canonical.join (real : Canonical path) (last : Plain name) : Canonical (path.join ⟨name⟩) := by
  obtain ⟨names, plain, rfl⟩ := real
  exact ⟨names ++ [name], plain_concat plain last, join_ofNames plain last⟩

/-- What is at or above an entry is the entry itself or at or above its directory. -/
theorem Canonical.startsWith_join (real : Canonical path) (last : Plain name)
    (above : Canonical place) :
    (path.join ⟨name⟩).startsWith place = true ↔
      place = path.join ⟨name⟩ ∨ path.startsWith place = true := by
  obtain ⟨names, plain, rfl⟩ := real
  obtain ⟨upper, upperPlain, rfl⟩ := above
  have joined := plain_concat plain last
  rw [join_ofNames plain last, startsWith_ofNames joined upperPlain,
    startsWith_ofNames plain upperPlain, List.prefix_concat_iff]
  constructor
  · rintro (rfl | nested)
    · exact .inl rfl
    · exact .inr nested
  · rintro (same | nested)
    · exact .inl (ofNames_injective upperPlain joined (by rw [same]))
    · exact .inr nested

theorem Canonical.pop (real : Canonical path) : Canonical path.pop := by
  obtain ⟨names, plain, rfl⟩ := real
  exact ⟨names.dropLast, fun name member => plain name (List.dropLast_subset _ member),
    pop_ofNames plain⟩

theorem Canonical.startsWith_pop (real : Canonical path) : path.startsWith path.pop = true := by
  obtain ⟨names, plain, rfl⟩ := real
  rw [pop_ofNames plain, startsWith_ofNames plain
    (fun name member => plain name (List.dropLast_subset _ member))]
  exact List.dropLast_prefix names

/-- A real path is the root, or an entry of the directory above it. -/
theorem Canonical.root_or_join (real : Canonical path) :
    path = root ∨ ∃ name, Plain name ∧ path = path.pop.join ⟨name⟩ ∧ path.pop ≠ path := by
  obtain ⟨names, plain, rfl⟩ := real
  rcases List.eq_nil_or_concat' names with rfl | ⟨front, name, rfl⟩
  · exact .inl rfl
  · right
    have frontPlain : ∀ other ∈ front, Plain other := fun other member => plain other (by simp [member])
    have last := plain name (by simp)
    refine ⟨name, last, ?_, ?_⟩
    · rw [pop_ofNames plain, List.dropLast_concat, join_ofNames frontPlain last]
    · intro same
      rw [pop_ofNames plain, List.dropLast_concat] at same
      have equal := ofNames_injective frontPlain plain (by rw [same])
      simp at equal

theorem ofNames_bytes_nested (nested : other <+: names) :
    (ofNames other).bytes <+: (ofNames names).bytes := by
  obtain ⟨rest, rfl⟩ := nested
  induction rest using List.reverseRecOn with
  | nil => simp
  | append_singleton front name ih =>
    rw [← List.append_assoc, ofNames_bytes_concat]
    split
    · rename_i empty
      obtain ⟨rfl, rfl⟩ := List.append_eq_nil_iff.mp empty
      simp [ofNames]
    · exact ih.trans (List.prefix_append _ _)

/-- The byte order puts a place before everything below it. -/
theorem Canonical.byteLe_of_startsWith (real : Canonical path) (above : Canonical place)
    (below : path.startsWith place = true) : byteLe place path := by
  obtain ⟨names, plain, rfl⟩ := real
  obtain ⟨upper, upperPlain, rfl⟩ := above
  have nested := (startsWith_ofNames plain upperPlain).mp below
  exact not_lt.mp (List.IsPrefix.le ((ofNames_bytes_nested nested).map UInt8.toNat))

theorem byteRank_injective : Function.Injective byteRank := by
  rintro ⟨left⟩ ⟨right⟩ same
  have injective : Function.Injective UInt8.toNat := fun _ _ => UInt8.toNat.inj
  exact congrArg Path.mk (List.map_injective_iff.mpr injective same)

theorem byteLe_antisymm {a b : Path} (left : byteLe a b) (right : byteLe b a) : a = b :=
  byteRank_injective (le_antisymm left right)

end Path

end Kakoi
