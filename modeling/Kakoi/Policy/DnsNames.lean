import Kakoi.Policy.Diagnostic
import Kakoi.Policy.Network

/-! DNS patterns as they are written, matched and printed, over any normalization to plain names.
-/

namespace Kakoi

/-- What a label of a normalized name is made of. -/
def labelCharacter (character : Char) : Bool :=
  character.isLower || character.isDigit || character = '-'

def labels (name : String) : List (List Char) := name.toList.splitOn '.'

/-- Normalized names are plain labels joined by dots, and stay as they are. -/
structure Idna.Laws (idna : Idna) : Prop where
  idempotent : ∀ name ascii, idna.domainToAsciiStrict name = some ascii →
    idna.domainToAsciiStrict ascii = some ascii
  plain : ∀ name ascii, idna.domainToAsciiStrict name = some ascii →
    ∃ parts : List (List Char), (∀ part ∈ parts, part ≠ [] ∧ part.all labelCharacter = true) ∧
      ascii.toList = ['.'].intercalate parts

/-- A name without its final dot. -/
def undotted (name : String) : String :=
  ((name.toList.dropSuffix? ['.']).map String.ofList).getD name

def starred (name : String) : Bool :=
  name.toList.any fun character => character = '*' || character = '＊'

theorem normalize_iff : normalize idna name = .ok ascii ↔
    name ≠ "" ∧ starred name = false ∧ idna.domainToAsciiStrict (undotted name) = some ascii ∧
      ascii ≠ "" ∧ ¬ ['.'] <:+ ascii.toList := by
  unfold normalize
  constructor
  · intro accepted
    split at accepted
    · cases accepted
    next good =>
      rw [Bool.not_eq_true, Bool.or_eq_false_iff] at good
      dsimp only at accepted
      split at accepted
      · cases accepted
      next normal =>
        split at accepted
        · cases accepted
        next whole =>
          cases accepted
          rw [Bool.or_eq_true, not_or, String.isEmpty_iff, List.isSuffixOf_iff_suffix] at whole
          refine ⟨?_, good.2, normal, whole⟩
          rintro rfl
          cases good.1
  · rintro ⟨some, plain, normal, whole⟩
    have filled : name.isEmpty = false := by
      rw [Bool.eq_false_iff, ne_eq, String.isEmpty_iff]
      exact some
    unfold starred at plain
    unfold undotted at normal
    rw [if_neg (by rw [filled, plain]; exact Bool.false_ne_true)]
    simp only [normal]
    rw [if_neg]
    rw [Bool.or_eq_true, not_or, String.isEmpty_iff, List.isSuffixOf_iff_suffix]
    exact whole

theorem undotted_plain (plain : ¬ ['.'] <:+ name.toList) : undotted name = name := by
  have kept : name.toList.dropSuffix? ['.'] = none := by
    cases dropped : name.toList.dropSuffix? ['.'] with
    | none => rfl
    | some front =>
      obtain ⟨dot, whole, same⟩ := List.dropSuffix?_eq_some_iff.mp dropped
      cases eq_of_beq same
      exact absurd ⟨front, whole.symm⟩ plain
  rw [undotted, kept]
  rfl

theorem undotted_dotted (name : String) : undotted (name ++ ".") = name := by
  have dropped : (name ++ ".").toList.dropSuffix? ['.'] = some name.toList :=
    List.dropSuffix?_eq_some_iff.mpr ⟨['.'], by simp, beq_self_eq_true _⟩
  rw [undotted, dropped, Option.map_some, Option.getD_some, String.ofList_toList]

theorem not_labelCharacter_dot : labelCharacter '.' = false := by decide

/-- A normal form: labels that are none of them empty. -/
theorem labels_of_normalize (laws : idna.Laws) (normal : normalize idna name = .ok ascii) :
    ∀ part ∈ labels ascii, part ≠ [] ∧ part.all labelCharacter = true := by
  obtain ⟨-, -, found, some, -⟩ := normalize_iff.mp normal
  obtain ⟨parts, plain, whole⟩ := laws.plain _ _ found
  have several : parts ≠ [] := by
    rintro rfl
    exact some (String.toList_eq_nil_iff.mp whole)
  have dotless : ∀ part ∈ parts, '.' ∉ part := by
    intro part member inside
    have allowed := List.all_eq_true.mp (plain part member).2 '.' inside
    rw [not_labelCharacter_dot] at allowed
    cases allowed
  rw [labels, whole, List.splitOn_intercalate '.' dotless several]
  exact plain

theorem characters_of_normalize (laws : idna.Laws) (normal : normalize idna name = .ok ascii)
    (member : character ∈ ascii.toList) : character = '.' ∨ labelCharacter character = true := by
  have whole : ['.'].intercalate (labels ascii) = ascii.toList := List.intercalate_splitOn '.'
  rw [← whole] at member
  rcases mem_intercalate member with dot | ⟨part, listed, inside⟩
  · exact .inl dot
  · exact .inr (List.all_eq_true.mp (labels_of_normalize laws normal part listed).2 _ inside)

theorem normalize_normal (laws : idna.Laws) (normal : normalize idna name = .ok ascii) :
    normalize idna ascii = .ok ascii := by
  obtain ⟨-, -, found, some, plain⟩ := normalize_iff.mp normal
  have starless : starred ascii = false := by
    rw [starred, List.any_eq_false]
    intro character member star
    rcases characters_of_normalize laws normal member with rfl | allowed
    · cases star
    · simp only [Bool.or_eq_true, decide_eq_true_eq] at star
      rcases star with rfl | rfl
      · cases allowed
      · cases allowed
  refine normalize_iff.mpr ⟨some, starless, ?_, some, plain⟩
  rw [undotted_plain plain]
  exact laws.idempotent _ _ found

/-- One dot at the end of a name that has none there makes no difference. -/
theorem normalize_dotted (some : name ≠ "") (plain : ¬ ['.'] <:+ name.toList) :
    normalize idna (name ++ ".") = .ok ascii ↔ normalize idna name = .ok ascii := by
  have filled : name ++ "." ≠ "" := by
    intro empty
    have texts := congrArg String.toList empty
    simp at texts
  have stars : starred (name ++ ".") = starred name := by simp [starred]
  rw [normalize_iff, normalize_iff, undotted_dotted, undotted_plain plain, stars]
  exact and_congr_left fun _ => ⟨fun _ => some, fun _ => filled⟩

section Patterns

/-- A pattern from its text. -/
def DnsPattern.fromStr (idna : Idna) (input : String) : Except String DnsPattern := do
  let (name, descendants) :=
    ((input.toList.dropPrefix? ['*', '.']).map fun name => (String.ofList name, true)).getD
      (input, false)
  let ascii ← normalize idna name
  if !descendants && hostNames.contains ascii then
    .error "use a host-loopback destination for the reserved host name"
  else return ⟨ascii, descendants⟩

def DnsPattern.text (pattern : DnsPattern) : String :=
  (if pattern.descendants then "*." else "") ++ pattern.ascii

variable {name ascii input : String} {pattern : DnsPattern}

/-- What is accepted has a normal form, and one that is not reserved when it stands alone. -/
theorem DnsPattern.fromStr_ok (accepted : DnsPattern.fromStr idna input = .ok pattern) :
    (∃ name, normalize idna name = .ok pattern.ascii) ∧
      (pattern.descendants = false → pattern.ascii ∉ hostNames) := by
  simp only [DnsPattern.fromStr, Except.bind_eq_ok] at accepted
  obtain ⟨ascii, normal, made⟩ := accepted
  split at made
  · cases made
  next free =>
    cases made
    refine ⟨⟨_, normal⟩, fun alone reserved => free ?_⟩
    rw [Bool.and_eq_true, Bool.not_eq_true']
    exact ⟨alone, List.contains_iff_mem.mpr reserved⟩

theorem dotted_front_iff {wider tail : List Char} :
    (∃ front, wider.dropSuffix? tail = some front ∧ ['.'] <:+ front ∧ 1 < front.length) ↔
      ∃ front, front ≠ [] ∧ wider = front ++ '.' :: tail := by
  constructor
  · rintro ⟨front, dropped, ⟨kept, rfl⟩, long⟩
    obtain ⟨same, whole, alike⟩ := List.dropSuffix?_eq_some_iff.mp dropped
    cases eq_of_beq alike
    refine ⟨kept, ?_, by simpa using whole⟩
    rintro rfl
    exact absurd long (Nat.lt_irrefl 1)
  · rintro ⟨front, some, rfl⟩
    refine ⟨front ++ ['.'], ?_, ⟨front, rfl⟩, ?_⟩
    · exact List.dropSuffix?_eq_some_iff.mpr ⟨tail, by simp, beq_self_eq_true _⟩
    · have long := List.length_pos_iff.mpr some
      simpa using long

theorem DnsPattern.matches_iff : pattern.matches idna name = true ↔
    ∃ ascii, normalize idna name = .ok ascii ∧ ascii ∉ hostNames ∧
      if pattern.descendants then
        ∃ front, front ≠ [] ∧ ascii.toList = front ++ '.' :: pattern.ascii.toList
      else ascii = pattern.ascii := by
  unfold DnsPattern.matches
  cases normalize idna name with
  | error failed => simp
  | ok ascii =>
    simp only [Except.ok.injEq, exists_eq_left']
    by_cases reserved : ascii ∈ hostNames
    · simp [reserved]
    · rw [if_neg (mt List.contains_iff_mem.mp reserved), and_iff_right reserved]
      by_cases wild : pattern.descendants = true
      · rw [if_pos wild, if_pos wild, ← dotted_front_iff]
        cases ascii.toList.dropSuffix? pattern.ascii.toList with
        | none => simp
        | some front => simp
      · rw [if_neg wild, if_neg wild, decide_eq_true_eq]

/-- A dot and a text behind a name are labels behind labels. -/
theorem behind_dot_iff (plain : ∀ part ∈ labels wider, part ≠ [] ∧ part.all labelCharacter = true) :
    (∃ front, front ≠ [] ∧ wider.toList = front ++ '.' :: ascii.toList) ↔
      ∃ front, front ≠ [] ∧ labels wider = front ++ labels ascii := by
  constructor
  · rintro ⟨front, -, whole⟩
    refine ⟨front.splitOn '.', List.splitOn_ne_nil _ _, ?_⟩
    rw [labels, whole, splitOn_append]
    rfl
  · rintro ⟨front, some, parts⟩
    have whole : ['.'].intercalate (labels wider) = wider.toList := List.intercalate_splitOn '.'
    have tail : ['.'].intercalate (labels ascii) = ascii.toList := List.intercalate_splitOn '.'
    rw [parts, intercalate_append front (labels ascii) some (List.splitOn_ne_nil _ _), tail] at whole
    refine ⟨['.'].intercalate front, ?_, whole.symm⟩
    cases front with
    | nil => exact absurd rfl some
    | cons first rest =>
      have filled : first ≠ [] := (plain first (by simp [parts])).1
      cases rest with
      | nil => simpa using filled
      | cons second rest => simp [List.intercalate_cons_cons]

theorem DnsPattern.fromStr_text (laws : idna.Laws)
    (accepted : DnsPattern.fromStr idna input = .ok pattern) :
    DnsPattern.fromStr idna pattern.text = .ok pattern := by
  obtain ⟨⟨name, normal⟩, free⟩ := DnsPattern.fromStr_ok accepted
  have again := normalize_normal laws normal
  obtain ⟨ascii, descendants⟩ := pattern
  cases descendants with
  | true =>
    have parts : ("*." ++ ascii).toList.dropPrefix? ['*', '.'] = some ascii.toList :=
      List.dropPrefix?_eq_some_iff.mpr ⟨['*', '.'], by simp, beq_self_eq_true _⟩
    simp only [DnsPattern.fromStr, DnsPattern.text, if_true, parts, Option.map_some,
      Option.getD_some, String.ofList_toList, again]
    rfl
  | false =>
    have whole : ascii.toList.dropPrefix? ['*', '.'] = none := by
      cases parts : ascii.toList.dropPrefix? ['*', '.'] with
      | none => rfl
      | some rest =>
        obtain ⟨star, shape, same⟩ := List.dropPrefix?_eq_some_iff.mp parts
        cases eq_of_beq same
        have member : '*' ∈ ascii.toList := by
          rw [shape]
          simp
        rcases characters_of_normalize laws normal member with clash | clash
        · cases clash
        · cases clash
    have unreserved : hostNames.contains ascii = false := by
      rw [Bool.eq_false_iff, ne_eq, List.contains_iff_mem]
      exact free rfl
    simp only [DnsPattern.fromStr, DnsPattern.text, Bool.false_eq_true, if_false,
      String.empty_append, whole, Option.map_none, Option.getD_none, again]
    rw [Except.bind_eq_ok]
    exact ⟨ascii, rfl, by rw [unreserved]; rfl⟩

/-- A text inside a label is not behind a dot. -/
theorem DnsPattern.not_matches_inside (wild : pattern.descendants = true)
    (normal : normalize idna name = .ok ascii)
    (whole : ascii.toList = front ++ pattern.ascii.toList) (inside : front.getLast? ≠ some '.') :
    pattern.matches idna name = false := by
  rw [Bool.eq_false_iff, ne_eq, DnsPattern.matches_iff]
  rintro ⟨other, same, -, behind⟩
  rw [normal] at same
  cases same
  rw [if_pos wild] at behind
  obtain ⟨labelled, -, parts⟩ := behind
  have shape : labelled ++ '.' :: pattern.ascii.toList =
      labelled ++ ['.'] ++ pattern.ascii.toList := by simp
  rw [whole, shape] at parts
  refine inside ?_
  rw [List.append_cancel_right parts, List.getLast?_concat]

/-- A plain pattern matches the names with its normal form, one for descendants those with more
labels in front; reserved host names are matched by none; a final dot makes no difference; and what
is printed is read as the same pattern. -/
theorem patterns_match_labels (laws : idna.Laws)
    (accepted : DnsPattern.fromStr idna input = .ok pattern) (name : String) :
    (pattern.descendants = false →
        (pattern.matches idna name = true ↔ normalize idna name = .ok pattern.ascii)) ∧
      (pattern.descendants = true →
        (pattern.matches idna name = true ↔
          ∃ ascii, normalize idna name = .ok ascii ∧ ascii ∉ hostNames ∧
            ∃ front, front ≠ [] ∧ labels ascii = front ++ labels pattern.ascii)) ∧
      (pattern.descendants = true → normalize idna name = .ok pattern.ascii →
        pattern.matches idna name = false) ∧
      (pattern.descendants = true → ∀ ascii front, normalize idna name = .ok ascii →
        ascii.toList = front ++ pattern.ascii.toList → front.getLast? ≠ some '.' →
        pattern.matches idna name = false) ∧
      (∀ ascii, normalize idna name = .ok ascii → ascii ∈ hostNames →
        pattern.matches idna name = false) ∧
      (name ≠ "" → ¬ ['.'] <:+ name.toList →
        pattern.matches idna (name ++ ".") = pattern.matches idna name) ∧
      DnsPattern.fromStr idna pattern.text = .ok pattern := by
  obtain ⟨-, free⟩ := DnsPattern.fromStr_ok accepted
  refine ⟨?_, ?_, ?_, ?_, ?_, ?_, DnsPattern.fromStr_text laws accepted⟩
  · intro alone
    rw [DnsPattern.matches_iff]
    simp only [alone, Bool.false_eq_true, if_false]
    constructor
    · rintro ⟨ascii, normal, -, rfl⟩
      exact normal
    · intro normal
      exact ⟨_, normal, free alone, rfl⟩
  · intro wild
    rw [DnsPattern.matches_iff]
    simp only [wild, if_true]
    refine exists_congr fun ascii => and_congr_right fun normal => and_congr_right fun _ => ?_
    exact behind_dot_iff (labels_of_normalize laws normal)
  · intro wild normal
    exact DnsPattern.not_matches_inside wild normal (List.nil_append _).symm (by simp)
  · intro wild ascii front normal whole inside
    exact DnsPattern.not_matches_inside wild normal whole inside
  · intro ascii normal reserved
    rw [Bool.eq_false_iff, ne_eq, DnsPattern.matches_iff]
    rintro ⟨other, same, free, -⟩
    rw [normal] at same
    cases same
    exact free reserved
  · intro some plain
    rw [Bool.eq_iff_iff, DnsPattern.matches_iff, DnsPattern.matches_iff]
    simp only [normalize_dotted some plain]

/-- A normalization that accepts plain lower-case names as they are. -/
def lowerIdna : Idna where
  domainToAsciiStrict name :=
    if (labels name).all fun part => !part.isEmpty && part.all labelCharacter then some name
    else none

theorem lowerIdna_laws : lowerIdna.Laws where
  idempotent name ascii found := by
    unfold lowerIdna at found ⊢
    dsimp only at found ⊢
    split at found
    next plain =>
      cases found
      exact if_pos plain
    · cases found
  plain name ascii found := by
    unfold lowerIdna at found
    dsimp only at found
    split at found
    next plain =>
      cases found
      refine ⟨labels name, ?_, (List.intercalate_splitOn '.').symm⟩
      intro part member
      have kept := List.all_eq_true.mp plain part member
      rw [Bool.and_eq_true, Bool.not_eq_true', List.isEmpty_eq_false_iff] at kept
      exact kept
    · cases found

theorem example_pattern_matches_labels :
    DnsPattern.fromStr lowerIdna "*.example.org" = .ok ⟨"example.org", true⟩ ∧
      (DnsPattern.matches lowerIdna ⟨"example.org", true⟩ "www.example.org" = true ↔
        ∃ ascii, normalize lowerIdna "www.example.org" = .ok ascii ∧ ascii ∉ hostNames ∧
          ∃ front, front ≠ [] ∧ labels ascii = front ++ labels "example.org") := by
  have accepted : DnsPattern.fromStr lowerIdna "*.example.org" = .ok ⟨"example.org", true⟩ := by
    decide +kernel
  exact ⟨accepted, (patterns_match_labels lowerIdna_laws accepted "www.example.org").2.1 rfl⟩

/-- The reserved host names have labels in front of a domain as any other name has, and no
pattern for the descendants of the domain matches them. -/
theorem reserved_names_are_not_descendants :
    ¬ ∀ (idna : Idna), idna.Laws → ∀ (input : String) (pattern : DnsPattern),
      DnsPattern.fromStr idna input = .ok pattern → pattern.descendants = true →
      ∀ name, pattern.matches idna name = true ↔
        ∃ ascii, normalize idna name = .ok ascii ∧
          ∃ front, front ≠ [] ∧ labels ascii = front ++ labels pattern.ascii := by
  intro every
  have accepted : DnsPattern.fromStr lowerIdna "*.kakoi.internal" = .ok ⟨"kakoi.internal", true⟩ := by
    decide +kernel
  have normal : normalize lowerIdna "host-v4.kakoi.internal" = .ok "host-v4.kakoi.internal" := by
    decide +kernel
  have found := (every lowerIdna lowerIdna_laws _ _ accepted rfl "host-v4.kakoi.internal").mpr
    ⟨_, normal, ["host-v4".toList], by simp, by decide +kernel⟩
  have missed : DnsPattern.matches lowerIdna ⟨"kakoi.internal", true⟩ "host-v4.kakoi.internal" =
      false := by decide +kernel
  rw [missed] at found
  cases found

end Patterns

end Kakoi
