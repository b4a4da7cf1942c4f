import Mathlib.Data.List.Basic

/-! Collecting elements that must not clash: one that is there already is passed over. -/

namespace Kakoi

/-- Lists that grow at their end, as histories do. -/
theorem mem_concat {list : List α} :
    element ∈ list ++ [last] ↔ element ∈ list ∨ element = last := by
  rw [List.mem_append, List.mem_singleton]

theorem pairwise_concat {list : List α} :
    (list ++ [last]).Pairwise related ↔
      list.Pairwise related ∧ ∀ element ∈ list, related element last := by
  simp [List.pairwise_append]

variable [DecidableEq α] (clash : α → α → Prop) [DecidableRel clash]
  (refuse : α → ε)

def collectOne (kept : List α) (entry : α) : Except ε (List α) :=
  if entry ∈ kept then .ok kept
  else if kept.any fun other => clash other entry then .error (refuse entry)
  else .ok (kept ++ [entry])

def collect (entries : List α) : Except ε (List α) := entries.foldlM (collectOne clash refuse) []

/-- No two different elements clash. -/
def Clashless (entries : List α) : Prop :=
  ∀ left ∈ entries, ∀ right ∈ entries, left ≠ right → ¬ clash left right

theorem collectOne_cases (kept : List α) (entry : α) :
    (entry ∈ kept ∧ collectOne clash refuse kept entry = .ok kept) ∨
      (entry ∉ kept ∧ (∃ other ∈ kept, clash other entry) ∧
        collectOne clash refuse kept entry = .error (refuse entry)) ∨
      (entry ∉ kept ∧ (∀ other ∈ kept, ¬ clash other entry) ∧
        collectOne clash refuse kept entry = .ok (kept ++ [entry])) := by
  have found : (kept.any fun other => clash other entry) = true ↔
      ∃ other ∈ kept, clash other entry := by simp
  unfold collectOne
  by_cases present : entry ∈ kept
  · exact .inl ⟨present, if_pos present⟩
  · by_cases clashing : ∃ other ∈ kept, clash other entry
    · exact .inr (.inl ⟨present, clashing, by rw [if_neg present, if_pos (found.mpr clashing)]⟩)
    · refine .inr (.inr ⟨present, fun other member clashes => clashing ⟨other, member, clashes⟩, ?_⟩)
      rw [if_neg present, if_neg (mt found.mp clashing)]

variable {clash refuse} {kept entries : List α}

theorem foldlM_cons_ok (taken : collectOne clash refuse kept entry = .ok next) :
    (entry :: entries).foldlM (collectOne clash refuse) kept =
      entries.foldlM (collectOne clash refuse) next := by
  rw [List.foldlM_cons, taken]
  rfl

theorem foldlM_cons_error (refused : collectOne clash refuse kept entry = .error failed) :
    (entry :: entries).foldlM (collectOne clash refuse) kept = .error failed := by
  rw [List.foldlM_cons, refused]
  rfl

/-- Further occurrences of an element that is there change nothing. -/
theorem foldlM_without (present : entry ∈ kept) :
    entries.foldlM (collectOne clash refuse) kept =
      (entries.filter fun other => !other == entry).foldlM (collectOne clash refuse) kept := by
  induction entries generalizing kept with
  | nil => rfl
  | cons first rest ih =>
    by_cases same : first = entry
    · subst same
      obtain ⟨-, taken⟩ | ⟨absent, -⟩ | ⟨absent, -⟩ := collectOne_cases clash refuse kept first
      · rw [foldlM_cons_ok taken, List.filter_cons_of_neg (by simp), ih present]
      · exact absurd present absent
      · exact absurd present absent
    · rw [List.filter_cons_of_pos (by simpa using same)]
      obtain ⟨-, taken⟩ | ⟨-, -, refused⟩ | ⟨-, -, taken⟩ := collectOne_cases clash refuse kept first
      · rw [foldlM_cons_ok taken, foldlM_cons_ok taken, ih present]
      · rw [foldlM_cons_error refused, foldlM_cons_error refused]
      · rw [foldlM_cons_ok taken, foldlM_cons_ok taken, ih (List.mem_append_left _ present)]

theorem foldlM_eraseDups (kept entries : List α) :
    entries.foldlM (collectOne clash refuse) kept =
      entries.eraseDups.foldlM (collectOne clash refuse) kept := by
  induction length : entries.length using Nat.strongRecOn generalizing entries kept with
  | ind count ih =>
    cases entries with
    | nil => rfl
    | cons first rest =>
      have shorter : (rest.filter fun other => !other == first).length < count := by
        have filtered := List.length_filter_le (fun other => !other == first) rest
        rw [List.length_cons] at length
        omega
      rw [List.eraseDups_cons]
      obtain ⟨present, taken⟩ | ⟨-, -, refused⟩ | ⟨-, -, taken⟩ :=
        collectOne_cases clash refuse kept first
      · rw [foldlM_cons_ok taken, foldlM_cons_ok taken, foldlM_without present,
          ih _ shorter _ _ rfl]
      · rw [foldlM_cons_error refused, foldlM_cons_error refused]
      · have present : first ∈ kept ++ [first] := by simp
        rw [foldlM_cons_ok taken, foldlM_cons_ok taken, foldlM_without present,
          ih _ shorter _ _ rfl]

/-- Distinct elements are all taken exactly when none clash. -/
theorem foldlM_distinct (symmetric : ∀ left right, clash left right → clash right left)
    (clashless : Clashless clash kept) (distinct : (kept ++ entries).Nodup) :
    entries.foldlM (collectOne clash refuse) kept = .ok result ↔
      Clashless clash (kept ++ entries) ∧ result = kept ++ entries := by
  induction entries generalizing kept with
  | nil =>
    rw [List.append_nil, List.foldlM_nil]
    constructor
    · rintro ⟨⟩
      exact ⟨clashless, rfl⟩
    · rintro ⟨-, rfl⟩
      rfl
  | cons first rest ih =>
    have absent : first ∉ kept := fun member =>
      (List.nodup_append.mp distinct).2.2 first member first List.mem_cons_self rfl
    obtain ⟨present, -⟩ | ⟨-, ⟨other, member, clashing⟩, refused⟩ | ⟨-, apart, taken⟩ :=
      collectOne_cases clash refuse kept first
    · exact absurd present absent
    · rw [foldlM_cons_error refused]
      constructor
      · rintro ⟨⟩
      · rintro ⟨none, -⟩
        have different : other ≠ first := fun same => absent (same ▸ member)
        exact absurd clashing (none other (List.mem_append_left _ member) first (by simp) different)
    · have longer : Clashless clash (kept ++ [first]) := by
        intro left leftMember right rightMember different
        rcases mem_concat.mp leftMember with leftKept | leftFirst
        · rcases mem_concat.mp rightMember with rightKept | rightFirst
          · exact clashless left leftKept right rightKept different
          · rw [rightFirst]
            exact apart left leftKept
        · rw [leftFirst] at different ⊢
          rcases mem_concat.mp rightMember with rightKept | rightFirst
          · exact fun clashing => apart right rightKept (symmetric _ _ clashing)
          · exact absurd rightFirst.symm different
      have shape : kept ++ first :: rest = kept ++ [first] ++ rest := by simp
      rw [shape] at distinct ⊢
      rw [foldlM_cons_ok taken, ih longer distinct]

theorem nodup_eraseDups (entries : List α) : entries.eraseDups.Nodup := by
  induction length : entries.length using Nat.strongRecOn generalizing entries with
  | ind count ih =>
    cases entries with
    | nil => exact List.nodup_nil
    | cons first rest =>
      have filtered := List.length_filter_le (fun other => !other == first) rest
      rw [List.length_cons] at length
      rw [List.eraseDups_cons, List.nodup_cons]
      exact ⟨by simp, ih _ (by omega) _ rfl⟩

/-- Elements are collected exactly when none clash, each at its first occurrence. -/
theorem collect_eq_ok (symmetric : ∀ left right, clash left right → clash right left) :
    collect clash refuse entries = .ok result ↔
      Clashless clash entries ∧ result = entries.eraseDups := by
  have clashless : Clashless clash ([] : List α) := by
    intro left member
    cases member
  have members : Clashless clash entries.eraseDups ↔ Clashless clash entries := by
    simp only [Clashless, List.mem_eraseDups]
  have distinct : ([] ++ entries.eraseDups).Nodup := nodup_eraseDups entries
  rw [collect, foldlM_eraseDups, foldlM_distinct symmetric clashless distinct, List.nil_append,
    members]

theorem collect_collected (symmetric : ∀ left right, clash left right → clash right left)
    (collected : collect clash refuse entries = .ok kept) :
    collect clash refuse kept = .ok kept := by
  have same := ((collect_eq_ok symmetric).mp collected).2
  rw [collect, foldlM_eraseDups, ← same] at collected
  exact collected

/-- What was collected of each of two lists stands for them, in success and in failure. -/
theorem collect_append (symmetric : ∀ left right, clash left right → clash right left)
    (first : collect clash refuse entries = .ok kept)
    (second : collect clash refuse others = .ok rest) :
    collect clash refuse (entries ++ others) = collect clash refuse (kept ++ rest) := by
  have again := collect_collected symmetric first
  have same := ((collect_eq_ok symmetric).mp second).2
  unfold collect at first again ⊢
  rw [List.foldlM_append, List.foldlM_append, first, again]
  exact (foldlM_eraseDups kept others).trans (by rw [same]; rfl)

end Kakoi
