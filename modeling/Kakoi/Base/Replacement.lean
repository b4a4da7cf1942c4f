import Mathlib.Data.List.Basic
import Mathlib.Data.List.Perm.Basic

/-! Replacing the first element of each key, one key after another, is one pass that uses up the
keys. -/

namespace Kakoi.Replacement

section Keyed

variable {α κ : Type*} [DecidableEq κ] (key : α → Option κ) (edit : α → List α)

/-- Replaces the first element that has a key. -/
def replaceFirst (wanted : κ) : List α → Option (List α)
  | [] => none
  | first :: rest =>
    if key first = some wanted then some (edit first ++ rest)
    else (replaceFirst wanted rest).map (first :: ·)

/-- One pass: an element is replaced while its key is left. -/
def replaceEach : List κ → List α → List α
  | _, [] => []
  | keys, first :: rest =>
    match key first with
    | none => first :: replaceEach keys rest
    | some found =>
      if found ∈ keys then edit first ++ replaceEach (keys.erase found) rest
      else first :: replaceEach keys rest

variable {key edit}

theorem replaceEach_keep (other : ∀ found, key first = some found → found ∉ keys) (rest : List α) :
    replaceEach key edit keys (first :: rest) = first :: replaceEach key edit keys rest := by
  rw [replaceEach]
  split
  · rfl
  · rename_i found same
    rw [if_neg (other found same)]

theorem replaceEach_use (same : key first = some found) (left : found ∈ keys) (rest : List α) :
    replaceEach key edit keys (first :: rest) =
      edit first ++ replaceEach key edit (keys.erase found) rest := by
  simp only [replaceEach, same, if_pos left]

/-- Elements whose keys are not left stay, whatever comes behind them. -/
theorem replaceEach_absent (absent : ∀ element ∈ front, ∀ found, key element = some found → found ∉ keys)
    (rest : List α) :
    replaceEach key edit keys (front ++ rest) = front ++ replaceEach key edit keys rest := by
  induction front with
  | nil => rfl
  | cons first others ih =>
    rw [List.cons_append, replaceEach_keep (absent first List.mem_cons_self),
      ih fun element member => absent element (List.mem_cons_of_mem first member)]
    rfl

theorem replaceEach_unkeyed (none : list.filterMap key = []) (keys : List κ) :
    replaceEach key edit keys list = list := by
  have absent : ∀ element ∈ list, ∀ found, key element = some found → found ∉ keys := by
    intro element member found same
    rw [List.filterMap_eq_nil_iff.mp none element member] at same
    cases same
  simpa [replaceEach] using replaceEach_absent absent []

theorem replaceEach_no_keys (list : List α) : replaceEach key edit [] list = list := by
  induction list with
  | nil => rfl
  | cons first rest ih => rw [replaceEach_keep (by simp), ih]

theorem replaceEach_append (keys : List κ) (front back : List α) :
    replaceEach key edit keys (front ++ back) =
      replaceEach key edit keys front ++ replaceEach key edit (keys.diff (front.filterMap key)) back := by
  induction front generalizing keys with
  | nil => simp [replaceEach]
  | cons first rest ih =>
    rw [List.cons_append]
    cases same : key first with
    | none =>
      have other : ∀ found, key first = some found → found ∉ keys := by simp [same]
      rw [replaceEach_keep other, replaceEach_keep other, ih, List.filterMap_cons_none same]
      rfl
    | some found =>
      rw [List.filterMap_cons_some same, List.diff_cons]
      by_cases left : found ∈ keys
      · rw [replaceEach_use same left, replaceEach_use same left, ih, List.append_assoc]
      · have other : ∀ another, key first = some another → another ∉ keys := by
          intro another equal
          cases same.symm.trans equal
          exact left
        rw [replaceEach_keep other, replaceEach_keep other, ih, List.erase_of_not_mem left]
        rfl

/-- Replacing the first element of a key and then those of the other keys. -/
theorem replaceEach_replaceFirst
    (inert : ∀ element wanted, key element = some wanted → ∀ made ∈ edit element, key made = none)
    (replaced : replaceFirst key edit wanted list = some result) (keys : List κ) :
    replaceEach key edit keys result = replaceEach key edit (wanted :: keys) list := by
  induction list generalizing result keys with
  | nil => cases replaced
  | cons first rest ih =>
    rw [replaceFirst] at replaced
    split at replaced
    · rename_i same
      cases replaced
      rw [replaceEach_use same List.mem_cons_self, List.erase_cons_head]
      apply replaceEach_absent
      intro element member found unkeyed
      rw [inert first wanted same element member] at unkeyed
      cases unkeyed
    · rename_i different
      obtain ⟨later, made, rfl⟩ := Option.map_eq_some_iff.mp replaced
      cases same : key first with
      | none =>
        rw [replaceEach_keep (by simp [same]), replaceEach_keep (by simp [same]), ih made]
      | some found =>
        have apart : found ≠ wanted := by
          rintro rfl
          exact different same
        by_cases left : found ∈ keys
        · rw [replaceEach_use same left, replaceEach_use same (List.mem_cons_of_mem _ left), ih made,
            List.erase_cons_tail (by simpa using apart.symm)]
        · have other : ∀ another, key first = some another → another ∉ keys := by
            intro another equal
            cases same.symm.trans equal
            exact left
          have others : ∀ another, key first = some another → another ∉ wanted :: keys := by
            intro another equal
            cases same.symm.trans equal
            simp [apart, left]
          rw [replaceEach_keep other, replaceEach_keep others, ih made]

/-- Elements whose keys come in the order of the keys left are replaced each in turn; what
comes before each has none of those keys. -/
theorem replaceEach_run {entries : List β} {before : β → List α} {element : β → α} {name : β → κ}
    (keyed : ∀ entry ∈ entries, key (element entry) = some (name entry))
    (between : ∀ entry ∈ entries, ∀ other ∈ before entry, ∀ found, key other = some found →
      found ∉ entries.map name ++ keys) (back : List α) :
    replaceEach key edit (entries.map name ++ keys)
        (entries.flatMap (fun entry => before entry ++ [element entry]) ++ back) =
      entries.flatMap (fun entry => before entry ++ edit (element entry)) ++
        replaceEach key edit keys back := by
  induction entries with
  | nil => rfl
  | cons first rest ih =>
    have later := ih (fun entry member => keyed entry (List.mem_cons_of_mem first member))
      fun entry member other listed found same left =>
        between entry (List.mem_cons_of_mem first member) other listed found same
          (List.mem_cons_of_mem _ left)
    simp only [List.flatMap_cons, List.append_assoc, List.singleton_append]
    rw [replaceEach_absent (between first List.mem_cons_self), List.map_cons, List.cons_append,
      List.cons_append, replaceEach_use (keyed first List.mem_cons_self) List.mem_cons_self,
      List.erase_cons_head, later]

/-- Whatever the pass leaves was there, or replaces an element whose key was given. -/
theorem mem_replaceEach (member : element ∈ replaceEach key edit keys list) :
    element ∈ list ∨ ∃ first found, key first = some found ∧ found ∈ keys ∧ element ∈ edit first := by
  induction list generalizing keys with
  | nil => cases member
  | cons first rest ih =>
    have kept : element ∈ first :: replaceEach key edit keys rest → element ∈ first :: rest ∨
        ∃ first found, key first = some found ∧ found ∈ keys ∧ element ∈ edit first := by
      intro listed
      rcases List.mem_cons.mp listed with rfl | later
      · exact .inl List.mem_cons_self
      · exact (ih later).imp_left (List.mem_cons_of_mem first)
    rw [replaceEach] at member
    split at member
    · exact kept member
    · rename_i found same
      split at member
      · rename_i left
        rcases List.mem_append.mp member with made | later
        · exact .inr ⟨first, found, same, left, made⟩
        · rcases ih later with old | ⟨other, key, keyed, remains, made⟩
          · exact .inl (List.mem_cons_of_mem first old)
          · exact .inr ⟨other, key, keyed, List.mem_of_mem_erase remains, made⟩
      · exact kept member

theorem replaceFirst_absent (absent : ∀ element ∈ list, key element ≠ some wanted) :
    replaceFirst key edit wanted list = none := by
  induction list with
  | nil => rfl
  | cons first rest ih =>
    have later := ih fun other member => absent other (List.mem_cons_of_mem first member)
    simp [replaceFirst, absent first List.mem_cons_self, later]

theorem replaceFirst_eq_some (replaced : replaceFirst key edit wanted list = some result) :
    ∃ front element back, list = front ++ element :: back ∧ key element = some wanted ∧
      result = front ++ (edit element ++ back) := by
  induction list generalizing result with
  | nil => cases replaced
  | cons first rest ih =>
    rw [replaceFirst] at replaced
    split at replaced
    · rename_i same
      cases replaced
      exact ⟨[], first, rest, rfl, same, rfl⟩
    · obtain ⟨later, made, rfl⟩ := Option.map_eq_some_iff.mp replaced
      obtain ⟨front, element, back, rfl, same, rfl⟩ := ih made
      exact ⟨first :: front, element, back, rfl, same, rfl⟩

theorem replaceFirst_split (none : ∀ element ∈ front, key element ≠ some wanted)
    (same : key element = some wanted) (back : List α) :
    replaceFirst key edit wanted (front ++ element :: back) = some (front ++ (edit element ++ back)) := by
  induction front with
  | nil => simp [replaceFirst, same]
  | cons first rest ih =>
    have later := ih fun other member => none other (List.mem_cons_of_mem first member)
    simp [replaceFirst, none first List.mem_cons_self, later]

theorem exists_last {list : List α} (member : found ∈ list.filterMap key) :
    ∃ front element back, list = front ++ element :: back ∧ key element = some found ∧
      ∀ other ∈ back, key other ≠ some found := by
  induction list with
  | nil => cases member
  | cons first rest ih =>
    by_cases later : found ∈ rest.filterMap key
    · obtain ⟨front, element, back, rfl, same, last⟩ := ih later
      exact ⟨first :: front, element, back, rfl, same, last⟩
    · refine ⟨[], first, rest, rfl, ?_, ?_⟩
      · obtain ⟨element, listed, same⟩ := List.mem_filterMap.mp member
        rcases List.mem_cons.mp listed with rfl | behind
        · exact same
        · exact absurd (List.mem_filterMap.mpr ⟨element, behind, same⟩) later
      · intro other behind same
        exact later (List.mem_filterMap.mpr ⟨other, behind, same⟩)

theorem count_diff (keys used : List κ) (found : κ) :
    (keys.diff used).count found = keys.count found - used.count found := by
  induction used generalizing keys with
  | nil => simp
  | cons first rest ih =>
    rw [List.diff_cons, ih, List.count_erase, List.count_cons]
    omega

/-- Where elements of a key are left over, the last of them stays, and the key is used up
before it. -/
theorem replaceEach_last_kept (edit : α → List α)
    (shared : (keys ++ extra).Perm ((front ++ element :: back).filterMap key)) (more : found ∈ extra)
    (same : key element = some found) (last : ∀ other ∈ back, key other ≠ some found)
    (rest : List α) :
    ∃ before left, replaceEach key edit keys (front ++ element :: back ++ rest) =
      before ++ element :: replaceEach key edit left (back ++ rest) ∧ found ∉ left := by
  have none : (back.filterMap key).count found = 0 := by
    rw [List.count_eq_zero]
    simpa using last
  have total := shared.count_eq found
  have surplus : 0 < extra.count found := List.count_pos_iff.mpr more
  rw [List.filterMap_append, List.filterMap_cons_some same, List.count_append, List.count_append,
    List.count_cons_self, none] at total
  have spent : found ∉ keys.diff (front.filterMap key) := by
    rw [← List.count_eq_zero, count_diff]
    omega
  refine ⟨replaceEach key edit keys front, keys.diff (front.filterMap key), ?_, spent⟩
  have stays : ∀ other, key element = some other → other ∉ keys.diff (front.filterMap key) := by
    intro other equal
    cases same.symm.trans equal
    exact spent
  rw [List.append_assoc, replaceEach_append, List.cons_append, replaceEach_keep stays]

end Keyed

end Kakoi.Replacement
