import Mathlib.Data.List.Basic
import Mathlib.Data.List.DropRight
import Mathlib.Data.List.Lex
import Kakoi.Base.Sorting

/-! Paths as the standard library compares them: strings of bytes, compared by components, so
repeated slashes, a trailing slash and an inner `.` are invisible. -/

namespace Kakoi

/-- One name of a path, or any other operating system string. -/
abbrev Name := List UInt8

def slash : UInt8 := 47

def dot : UInt8 := 46

/-- The bytes of a text. -/
def utf8 (text : String) : Name := text.toList.flatMap String.utf8EncodeChar

theorem utf8_append (front back : String) : utf8 (front ++ back) = utf8 front ++ utf8 back := by
  simp [utf8]

theorem utf8_injective (same : utf8 left = utf8 right) : left = right := by
  have encoded : (String.ofList left.toList).toByteArray =
      (String.ofList right.toList).toByteArray := by
    rw [String.toByteArray_ofList, String.toByteArray_ofList]
    exact congrArg List.toByteArray same
  simpa using String.toByteArray_inj.mp encoded

theorem splitOn_append [DecidableEq α] (separator : α) (front tail : List α) :
    (front ++ separator :: tail).splitOn separator =
      front.splitOn separator ++ tail.splitOn separator := by
  induction front with
  | nil => simp [List.splitOn_cons_eq_if_modifyHead]
  | cons first rest ih =>
    simp only [List.cons_append, List.splitOn_cons_eq_if_modifyHead] at ih ⊢
    split
    · simp [ih]
    · rw [ih]
      cases shape : List.splitOn separator rest with
      | nil => exact absurd shape (List.splitOn_ne_nil _ _)
      | cons piece more => simp

theorem intercalate_append {separator : α} (front back : List (List α)) (some : front ≠ [])
    (more : back ≠ []) : [separator].intercalate (front ++ back) =
      [separator].intercalate front ++ separator :: [separator].intercalate back := by
  induction front with
  | nil => exact absurd rfl some
  | cons first rest ih =>
    cases rest with
    | nil => simp [List.intercalate_cons_of_ne_nil more]
    | cons second rest =>
      rw [List.cons_append, List.cons_append, List.intercalate_cons_cons,
        List.intercalate_cons_cons, ← List.cons_append, ih (by simp)]
      simp

theorem mem_intercalate {separator element : α} {parts : List (List α)}
    (member : element ∈ [separator].intercalate parts) :
    element = separator ∨ ∃ part ∈ parts, element ∈ part := by
  induction parts with
  | nil => simp at member
  | cons first rest ih =>
    cases rest with
    | nil => exact .inr ⟨first, by simp, by simpa using member⟩
    | cons second rest =>
      rw [List.intercalate_cons_cons] at member
      simp only [List.mem_append, List.mem_singleton] at member
      rcases member with (inside | same) | later
      · exact .inr ⟨first, by simp, inside⟩
      · exact .inl same
      · rcases ih later with same | ⟨part, listed, inside⟩
        · exact .inl same
        · exact .inr ⟨part, List.mem_cons_of_mem _ listed, inside⟩

/-- What is before and what is behind the first separator. -/
def splitOnce (separator : Char) (text : String) : Option (String × String) :=
  match text.toList.dropWhile (· ≠ separator) with
  | [] => none
  | _ :: after => some (String.ofList (text.toList.takeWhile (· ≠ separator)), String.ofList after)

theorem dropWhile_ne_cons {separator : Char} {text : List Char}
    (dropped : text.dropWhile (· ≠ separator) = found :: rest) : found = separator := by
  have stopped := List.head?_dropWhile_not (fun other => decide (other ≠ separator)) text
  rw [dropped] at stopped
  simpa using stopped

theorem splitOnce_eq_none {separator : Char} {text : String} :
    splitOnce separator text = none ↔ separator ∉ text.toList := by
  unfold splitOnce
  cases dropped : text.toList.dropWhile (· ≠ separator) with
  | nil =>
    have all := List.dropWhile_eq_nil_iff.mp dropped
    simp only [true_iff]
    intro member
    simpa using all separator member
  | cons found rest =>
    have same := dropWhile_ne_cons dropped
    have member : found ∈ text.toList :=
      (List.dropWhile_suffix _).subset (dropped ▸ List.mem_cons_self)
    simp [← same, member]

theorem splitOnce_eq_some {separator : Char} {text front back : String} :
    splitOnce separator text = some (front, back) ↔
      text.toList = front.toList ++ separator :: back.toList ∧ separator ∉ front.toList := by
  unfold splitOnce
  constructor
  · intro split
    cases dropped : text.toList.dropWhile (· ≠ separator) with
    | nil =>
      rw [dropped] at split
      cases split
    | cons found rest =>
      simp only [dropped, Option.some.injEq, Prod.mk.injEq] at split
      obtain ⟨rfl, rfl⟩ := split
      have whole : text.toList.takeWhile (· ≠ separator) ++ text.toList.dropWhile (· ≠ separator) =
          text.toList := List.takeWhile_append_dropWhile
      rw [dropped, dropWhile_ne_cons dropped] at whole
      refine ⟨by simpa using whole.symm, ?_⟩
      intro member
      rw [String.toList_ofList] at member
      simpa using List.mem_takeWhile_imp member
  · rintro ⟨whole, absent⟩
    have other : ∀ found ∈ front.toList, decide (found ≠ separator) = true := by
      intro found member
      refine decide_eq_true ?_
      rintro rfl
      exact absent member
    rw [whole, List.dropWhile_append_of_pos other, List.takeWhile_append_of_pos other]
    simp

theorem number_injective {left right : Nat}
    (same : utf8 (toString left) = utf8 (toString right)) : left = right := by
  have digits : Nat.toDigits 10 left = Nat.toDigits 10 right := by
    have texts := congrArg String.toList (utf8_injective same)
    simpa only [Nat.toString_eq_repr, Nat.toList_repr] using texts
  calc left = Nat.ofDigitChars 10 (Nat.toDigits 10 left) 0 :=
        (Nat.ofDigitChars_toDigits (by omega) (by omega)).symm
    _ = Nat.ofDigitChars 10 (Nat.toDigits 10 right) 0 := by rw [digits]
    _ = right := Nat.ofDigitChars_toDigits (by omega) (by omega)

structure Path where
  bytes : List UInt8
  deriving DecidableEq

inductive Component where
  | rootDir
  | curDir
  | parentDir
  | normal (name : Name)
  deriving DecidableEq

/-- The component one piece between slashes stands for; an empty piece and an
inner `.` stand for none. -/
def Component.ofPiece (piece : Name) : Option Component :=
  if piece = [] then none
  else if piece = [dot] then none
  else if piece = [dot, dot] then some .parentDir
  else some (.normal piece)

namespace Path

def ofString (text : String) : Path := ⟨utf8 text⟩

theorem eq_of_bytes {left right : Path} (same : left.bytes = right.bytes) : left = right :=
  congrArg Path.mk same

def root : Path := ⟨[slash]⟩

def pieces (path : Path) : List Name := path.bytes.splitOn slash

def isAbsolute (path : Path) : Bool := path.bytes.head? == some slash

/-- Whether a relative path starts with `.`, the one `.` that is a component. -/
def startsWithDot (path : Path) : Bool := path.pieces.head? == some [dot]

def components (path : Path) : List Component :=
  let body := path.pieces.filterMap Component.ofPiece
  if path.isAbsolute then .rootDir :: body
  else if path.startsWithDot then .curDir :: body
  else body

/-- `==` on paths compares components; `=` is equality of the bytes. -/
instance : BEq Path := ⟨fun left right => left.components == right.components⟩

def startsWith (path base : Path) : Bool :=
  base.components.isPrefixOf path.components

def endsWith (path : Path) (tail : Name) : Bool := tail.isSuffixOf path.bytes

def join (path tail : Path) : Path :=
  if tail.isAbsolute then tail
  else if path.bytes.getLast?.all (· == slash) then ⟨path.bytes ++ tail.bytes⟩
  else ⟨path.bytes ++ slash :: tail.bytes⟩

def trivialPiece (piece : Name) : Bool := piece == [] || piece == [dot]

/-- The pieces left when the last one that is a component is taken away. -/
def dropComponent (pieces : List Name) : Option (List Name) :=
  match pieces.rdropWhile trivialPiece with
  | [] => none
  | kept => some (kept.dropLast.rdropWhile trivialPiece)

def parent (path : Path) : Option Path :=
  if path.isAbsolute then
    (dropComponent path.pieces.tail).map fun kept => ⟨slash :: [slash].intercalate kept⟩
  else if path.startsWithDot then
    match dropComponent path.pieces.tail with
    | none => some ⟨[]⟩
    | some kept => some ⟨[slash].intercalate ([dot] :: kept)⟩
  else (dropComponent path.pieces).map fun kept => ⟨[slash].intercalate kept⟩

def fileName (path : Path) : Option Name :=
  match path.components.getLast? with
  | some (.normal name) => some name
  | _ => none

def pop (path : Path) : Path := path.parent.getD path

def ancestorsWithin : Nat → Path → List Path
  | 0, _ => []
  | fuel + 1, path => path :: (path.parent.elim [] (ancestorsWithin fuel))

/-- The path itself, its parent, and so on up to the root. A parent is shorter
than its child, so the length bounds their number. -/
def ancestors (path : Path) : List Path := ancestorsWithin (path.bytes.length + 1) path

end Path

/-- Components in the order of their kinds, names in byte order. -/
def Component.rank : Component → List Nat
  | .rootDir => [0]
  | .curDir => [1]
  | .parentDir => [2]
  | .normal name => 3 :: name.map UInt8.toNat

namespace Path

def rank (path : Path) : List (List Nat) := path.components.map Component.rank

/-- The order of `Ord for Path`, by components. -/
def le (left right : Path) : Prop := left.rank ≤ right.rank

instance : DecidableRel le := fun left right => inferInstanceAs (Decidable (left.rank ≤ right.rank))

def byteRank (path : Path) : List Nat := path.bytes.map UInt8.toNat

/-- `byte_order`: the order of the bytes, whatever components they make. -/
def byteLe (left right : Path) : Prop := left.byteRank ≤ right.byteRank

instance : DecidableRel byteLe :=
  fun left right => inferInstanceAs (Decidable (left.byteRank ≤ right.byteRank))

end Path

/-- `Vec::sort`, which is stable. -/
def sortPaths (paths : List Path) : List Path := paths.insertionSort Path.le

/-- `Vec::dedup`, by components. -/
def dedupPaths (paths : List Path) : List Path := dedupAdjacent (· == ·) paths

def distinctPaths (paths : List Path) : List Path := dedupPaths (sortPaths paths)

end Kakoi
