import Kakoi.Linux.FileSystem

/-! The mount list of the host, and that reading it inverts what the kernel writes. -/

namespace Kakoi.MountList

def tab : UInt8 := 9

def newline : UInt8 := 10

def space : UInt8 := 32

def hyphen : UInt8 := 45

def backslash : UInt8 := 92

def octalDigit (byte : UInt8) : Option Nat :=
  if 48 ≤ byte ∧ byte ≤ 55 then some (byte.toNat - 48) else none

/-- Three bytes as an octal number, with the sign `u8::from_str_radix` lets stand in front. Bytes
that are not UTF-8 are no digits either. -/
def fromOctal (text : Name) : Option UInt8 :=
  if text.length ≠ 3 then none
  else
    let digits := if text.head? = some 43 then text.tail else text
    ((digits.foldlM (fun value byte => (octalDigit byte).map (8 * value + ·)) 0).filter
      (· < 256)).map UInt8.ofNat

/-- The kernel writes space, tab, newline and backslash as octal escapes; a backslash in front of
anything else stands for itself. -/
def unescape : Name → Name
  | [] => []
  | byte :: tail =>
    if byte ≠ backslash then byte :: unescape tail
    else
      match fromOctal (tail.take 3) with
      | some value => value :: unescape (tail.drop 3)
      | none => backslash :: unescape tail
termination_by field => field.length

def separator : Name := [space, hyphen, space]

/-- What is before and what is behind the first separator. -/
def splitSeparator : Name → Option (Name × Name)
  | [] => none
  | byte :: rest =>
    if separator.isPrefixOf (byte :: rest) then some ([], rest.drop 2)
    else (splitSeparator rest).map fun (before, after) => (byte :: before, after)

def parseLine (line : Name) : Option Mount := do
  let (before, after) ← splitSeparator line
  let target ← (before.splitOn space)[4]?
  let fstype ← (after.splitOn space).head?
  let fstype ← String.fromUTF8? fstype.toByteArray
  return { target := ⟨unescape target⟩, fstype }

/-- The mounts of the lines that are well formed. -/
def parseMountList (bytes : Name) : List Mount := (bytes.splitOn newline).filterMap parseLine

/-- Bytes of a path that are written as escapes. -/
def escaped : List UInt8 := [space, tab, newline, backslash]

def escapeByte (byte : UInt8) : Name :=
  if byte ∈ escaped then [backslash, 48 + byte / 64, 48 + byte / 8 % 8, 48 + byte % 8] else [byte]

def escape (path : Path) : Name := path.bytes.flatMap escapeByte

/-- A field of a line. -/
structure Field where
  bytes : Name
  single : ∀ byte ∈ bytes, byte ≠ space ∧ byte ≠ newline

/-- A mount as the kernel lists it. Only the target's bytes are free; no field in front of the
separator reads like it. -/
structure KernelMount where
  id : Field
  parent : Field
  device : Field
  root : Field
  target : Path
  options : Field
  optional : List Field
  fstype : String
  source : Field
  superOptions : Field
  absolute : target.isAbsolute = true
  unlike : ∀ field ∈ [id, parent, device, root, options] ++ optional, field.bytes ≠ [hyphen]
  typed : ∀ byte ∈ utf8 fstype, byte ≠ space ∧ byte ≠ newline

namespace KernelMount

variable (mount : KernelMount)

def before : List Name :=
  [mount.id.bytes, mount.parent.bytes, mount.device.bytes, mount.root.bytes, escape mount.target,
    mount.options.bytes] ++ mount.optional.map Field.bytes

def after : List Name := [utf8 mount.fstype, mount.source.bytes, mount.superOptions.bytes]

def line : Name :=
  [space].intercalate (mount.before ++ [[hyphen]] ++ mount.after)

def toMount : Mount := { target := mount.target, fstype := mount.fstype }

end KernelMount

/-- The lines as a file. -/
def text (lines : List Name) : Name := lines.flatMap (· ++ [newline])

theorem escaped_cases (special : byte ∈ escaped) :
    byte = space ∨ byte = tab ∨ byte = newline ∨ byte = backslash := by
  simpa [escaped] using special

theorem unescape_escape (path : Path) : unescape (escape path) = path.bytes := by
  unfold escape
  induction path.bytes with
  | nil => rw [List.flatMap_nil, unescape]
  | cons byte rest ih =>
    rw [List.flatMap_cons]
    by_cases special : byte ∈ escaped
    · have back : fromOctal [48 + byte / 64, 48 + byte / 8 % 8, 48 + byte % 8] = some byte := by
        rcases escaped_cases special with rfl | rfl | rfl | rfl <;> decide
      rw [escapeByte, if_pos special, List.cons_append, unescape]
      simp [back, ih]
    · have plain : byte ≠ backslash := fun same => special (by simp [same, escaped])
      rw [escapeByte, if_neg special, List.cons_append, List.nil_append, unescape, if_pos plain, ih]

theorem escapeByte_single (byte : UInt8) : ∀ part ∈ escapeByte byte, part ≠ space ∧ part ≠ newline := by
  by_cases special : byte ∈ escaped
  · rw [escapeByte, if_pos special]
    simp only [List.forall_mem_cons, List.not_mem_nil, false_imp_iff, implies_true]
    rcases escaped_cases special with rfl | rfl | rfl | rfl <;> decide
  · rw [escapeByte, if_neg special]
    intro part member
    rw [List.mem_singleton.mp member]
    constructor
    · rintro rfl
      exact special (by simp [escaped])
    · rintro rfl
      exact special (by simp [escaped])

/-- A field without spaces, other than a hyphen, is not read as the middle of the separator. -/
theorem not_separator (single : space ∉ field) (unlike : field ≠ [hyphen]) (rest : Name) :
    separator.isPrefixOf (space :: (field ++ space :: rest)) = false := by
  match field with
  | [] => rfl
  | [byte] =>
    have other : hyphen ≠ byte := fun same => unlike (by rw [same])
    simp [separator, List.isPrefixOf, other]
  | first :: second :: more =>
    have inner : space ≠ second := fun same => single (by simp [same])
    simp [separator, List.isPrefixOf, inner]

/-- Up to the next space there is no separator. -/
theorem splitSeparator_field (single : space ∉ field) (rest : Name) :
    splitSeparator (field ++ rest) =
      (splitSeparator rest).map fun (before, after) => (field ++ before, after) := by
  induction field with
  | nil => simp
  | cons byte field ih =>
    have outer : space ≠ byte := fun same => single (by simp [same])
    have here : separator.isPrefixOf (byte :: (field ++ rest)) = false := by
      simp [separator, List.isPrefixOf, outer]
    rw [List.cons_append, splitSeparator, here, ih fun inside => single (by simp [inside])]
    simp [Function.comp_def]

theorem splitSeparator_fields (some : fields ≠ []) (single : ∀ field ∈ fields, space ∉ field)
    (unlike : ∀ field ∈ fields, field ≠ [hyphen]) (after : Name) :
    splitSeparator ([space].intercalate fields ++ (separator ++ after)) =
      .some ([space].intercalate fields, after) := by
  induction fields with
  | nil => exact absurd rfl some
  | cons field rest ih =>
    cases rest with
    | nil =>
      rw [List.intercalate_singleton, splitSeparator_field (single field (by simp))]
      have found : splitSeparator (separator ++ after) = .some ([], after) := by
        simp [separator, splitSeparator]
      simp [found]
    | cons second rest =>
      have further := ih (by simp) (fun other member => single other (by simp [member]))
        fun other member => unlike other (by simp [member])
      -- Behind the space comes the next field, and a space behind that.
      obtain ⟨tail, shape⟩ : ∃ tail, [space].intercalate (second :: rest) ++ (separator ++ after) =
          second ++ space :: tail := by
        cases rest with
        | nil => exact ⟨hyphen :: space :: after, by simp [separator]⟩
        | cons third rest =>
          exact ⟨[space].intercalate (third :: rest) ++ (separator ++ after),
            by simp [List.intercalate_cons_cons]⟩
      have here : separator.isPrefixOf
          (space :: ([space].intercalate (second :: rest) ++ (separator ++ after))) = false := by
        rw [shape]
        exact not_separator (single second (by simp)) (unlike second (by simp)) tail
      rw [List.intercalate_cons_cons, List.append_assoc, List.append_assoc,
        splitSeparator_field (single field (by simp)), List.singleton_append, splitSeparator, here,
        further]
      simp

namespace KernelMount

theorem before_single (mount : KernelMount) :
    ∀ field ∈ mount.before, ∀ byte ∈ field, byte ≠ space ∧ byte ≠ newline := by
  intro field member byte inside
  simp only [before, List.cons_append, List.nil_append, List.mem_cons, List.mem_map] at member
  rcases member with rfl | rfl | rfl | rfl | rfl | rfl | ⟨own, -, rfl⟩
  · exact mount.id.single byte inside
  · exact mount.parent.single byte inside
  · exact mount.device.single byte inside
  · exact mount.root.single byte inside
  · obtain ⟨source, -, part⟩ := List.mem_flatMap.mp inside
    exact escapeByte_single source byte part
  · exact mount.options.single byte inside
  · exact own.single byte inside

theorem after_single (mount : KernelMount) :
    ∀ field ∈ mount.after, ∀ byte ∈ field, byte ≠ space ∧ byte ≠ newline := by
  intro field member byte inside
  simp only [after, List.mem_cons, List.not_mem_nil, or_false] at member
  rcases member with rfl | rfl | rfl
  · exact mount.typed byte inside
  · exact mount.source.single byte inside
  · exact mount.superOptions.single byte inside

/-- The escaped target still begins with a slash. -/
theorem target_unlike (mount : KernelMount) : escape mount.target ≠ [hyphen] := by
  have absolute := mount.absolute
  unfold escape
  unfold Path.isAbsolute at absolute
  cases shape : mount.target.bytes with
  | nil => simp
  | cons first rest =>
    rw [shape] at absolute
    have slashed : first = slash := by simpa using absolute
    have kept : escapeByte slash = [slash] := by decide
    rw [slashed, List.flatMap_cons, kept]
    simp [slash, hyphen]

theorem before_unlike (mount : KernelMount) : ∀ field ∈ mount.before, field ≠ [hyphen] := by
  intro field member
  simp only [before, List.cons_append, List.nil_append, List.mem_cons, List.mem_map] at member
  rcases member with rfl | rfl | rfl | rfl | rfl | rfl | ⟨own, listed, rfl⟩
  · exact mount.unlike mount.id (by simp)
  · exact mount.unlike mount.parent (by simp)
  · exact mount.unlike mount.device (by simp)
  · exact mount.unlike mount.root (by simp)
  · exact mount.target_unlike
  · exact mount.unlike mount.options (by simp)
  · exact mount.unlike own (by simp [listed])

theorem line_eq (mount : KernelMount) :
    mount.line = [space].intercalate mount.before ++
      (separator ++ [space].intercalate mount.after) := by
  rw [line, List.append_assoc, intercalate_append mount.before _ (by simp [before]) (by simp),
    List.singleton_append, after, List.intercalate_cons_cons]
  simp [separator]

theorem fromUTF8_utf8 (text : String) : String.fromUTF8? (utf8 text).toByteArray = some text := by
  have bytes : (utf8 text).toByteArray = text.toByteArray := by
    have encoded := String.toByteArray_ofList (l := text.toList)
    rw [String.ofList_toList] at encoded
    exact encoded.symm
  rw [bytes]
  exact dif_pos text.isValidUTF8

theorem parseLine_line (mount : KernelMount) : parseLine mount.line = some mount.toMount := by
  have spaceless : ∀ field ∈ mount.before, space ∉ field := fun field member inside =>
    (mount.before_single field member space inside).1 rfl
  have ahead : ∀ field ∈ mount.after, space ∉ field := fun field member inside =>
    (mount.after_single field member space inside).1 rfl
  have parts := splitSeparator_fields (by simp [before]) spaceless mount.before_unlike
    ([space].intercalate mount.after)
  rw [parseLine, mount.line_eq, parts]
  simp only [Option.bind_eq_bind, Option.bind_some,
    List.splitOn_intercalate space spaceless (by simp [before]),
    List.splitOn_intercalate space ahead (by simp [after])]
  simp [before, after, fromUTF8_utf8, unescape_escape, toMount]

theorem line_single (mount : KernelMount) : newline ∉ mount.line := by
  intro inside
  rcases mem_intercalate inside with same | ⟨field, member, inner⟩
  · exact absurd same (by decide)
  · simp only [List.mem_append, List.mem_singleton] at member
    rcases member with (early | rfl) | late
    · exact (mount.before_single field early newline inner).2 rfl
    · exact absurd inner (by decide)
    · exact (mount.after_single field late newline inner).2 rfl

end KernelMount

/-- Each line of a file is read on its own. -/
theorem parseMountList_text (single : ∀ line ∈ lines, newline ∉ line) :
    parseMountList (text lines) = lines.filterMap parseLine := by
  have parts : (text lines).splitOn newline = lines ++ [[]] := by
    induction lines with
    | nil => rfl
    | cons line lines ih =>
      have alone : line.splitOn newline = [line] := by
        simpa using List.splitOn_intercalate newline
          (fun other member => by rw [List.mem_singleton.mp member]; exact single line (by simp))
          (List.cons_ne_nil line [])
      have rest := ih fun other member => single other (by simp [member])
      rw [text, List.flatMap_cons, List.append_assoc, List.singleton_append, splitOn_append, alone]
      exact congrArg (line :: ·) rest
  have last : parseLine [] = none := rfl
  rw [parseMountList, parts, List.filterMap_append]
  simp [last]

/-- A line of the list: one the kernel writes, or any other. -/
def lineOf (line : KernelMount ⊕ Name) : Name := line.elim KernelMount.line id

/-- Reading the list the kernel writes gives the targets and types of the mounts in order, and
further lines that are rejected change nothing. -/
theorem mount_list_inverts :
    (∀ mounts : List KernelMount,
        parseMountList (text (mounts.map KernelMount.line)) = mounts.map KernelMount.toMount) ∧
      ∀ lines : List (KernelMount ⊕ Name),
        (∀ extra, .inr extra ∈ lines → newline ∉ extra ∧ parseLine extra = none) →
          parseMountList (text (lines.map lineOf)) =
            parseMountList (text ((lines.filterMap Sum.getLeft?).map KernelMount.line)) := by
  have rendered : ∀ mounts : List KernelMount,
      parseMountList (text (mounts.map KernelMount.line)) = mounts.map KernelMount.toMount := by
    intro mounts
    have single : ∀ line ∈ mounts.map KernelMount.line, newline ∉ line := by
      intro line member
      obtain ⟨mount, -, rfl⟩ := List.mem_map.mp member
      exact mount.line_single
    rw [parseMountList_text single, List.filterMap_map]
    simp [KernelMount.parseLine_line]
  refine ⟨rendered, fun lines rejected => ?_⟩
  have single : ∀ line ∈ lines.map lineOf, newline ∉ line := by
    intro line member
    obtain ⟨mount | extra, listed, rfl⟩ := List.mem_map.mp member
    · exact mount.line_single
    · exact (rejected extra listed).1
  rw [rendered, parseMountList_text single, List.filterMap_map, List.map_filterMap]
  refine List.filterMap_congr fun line listed => ?_
  rcases line with mount | extra
  · exact mount.parseLine_line
  · exact (rejected extra listed).2

def spacedMount : KernelMount where
  id := ⟨utf8 "36", by decide +kernel⟩
  parent := ⟨utf8 "35", by decide +kernel⟩
  device := ⟨utf8 "8:1", by decide +kernel⟩
  root := ⟨utf8 "/", by decide +kernel⟩
  target := Path.ofString "/mnt/a b"
  options := ⟨utf8 "rw", by decide +kernel⟩
  optional := [⟨utf8 "shared:7", by decide +kernel⟩]
  fstype := "ext4"
  source := ⟨utf8 "/dev/sda1", by decide +kernel⟩
  superOptions := ⟨utf8 "rw", by decide +kernel⟩
  absolute := by decide +kernel
  unlike := by
    simp only [List.cons_append, List.nil_append, List.forall_mem_cons]
    decide +kernel
  typed := by decide +kernel

theorem spaced_mount_read :
    parseMountList (text [utf8 "36 35", spacedMount.line]) = [⟨Path.ofString "/mnt/a b", "ext4"⟩] := by
  have others := mount_list_inverts.2 [.inr (utf8 "36 35"), .inl spacedMount] fun extra member => by
    have same : extra = utf8 "36 35" := by simpa using member
    rw [same]
    decide +kernel
  exact others.trans (mount_list_inverts.1 [spacedMount])

end Kakoi.MountList
