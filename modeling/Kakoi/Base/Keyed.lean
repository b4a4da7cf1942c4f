import Mathlib.Data.List.Basic
import Mathlib.Data.List.Induction
import Mathlib.Data.List.Nodup
import Mathlib.Data.List.Perm.Basic

/-! Lists of elements with a key: an element takes the position of the one with its key. -/

namespace Kakoi

variable [DecidableEq κ] {key : α → κ}

def upsert (key : α → κ) (new : α) : List α → List α
  | [] => [new]
  | first :: rest => if key first = key new then new :: rest else first :: upsert key new rest

/-- The first element that none before it is greater than, as `Iterator::min_by`. -/
def minBy (le : α → α → Prop) [DecidableRel le] : List α → Option α
  | [] => none
  | first :: rest => some (rest.foldl (fun best next => if le best next then best else next) first)

theorem minBy_eq_none {le : α → α → Prop} [DecidableRel le] :
    minBy le elements = none ↔ elements = [] := by
  cases elements <;> simp [minBy]

theorem foldl_least {le : α → α → Prop} [DecidableRel le] (total : ∀ a b, le a b ∨ le b a)
    (transitive : ∀ a b c, le a b → le b c → le a c) (first : α) (rest : List α) :
    rest.foldl (fun best next => if le best next then best else next) first ∈ first :: rest ∧
      ∀ element ∈ first :: rest,
        le (rest.foldl (fun best next => if le best next then best else next) first) element := by
  induction rest generalizing first with
  | nil =>
    refine ⟨List.mem_cons_self, ?_⟩
    intro element member
    rw [List.mem_singleton.mp member]
    exact (total first first).elim id id
  | cons next rest ih =>
    rw [List.foldl_cons]
    by_cases smaller : le first next
    · rw [if_pos smaller]
      obtain ⟨member, least⟩ := ih first
      refine ⟨?_, ?_⟩
      · rcases List.mem_cons.mp member with same | later
        · rw [same]
          exact List.mem_cons_self
        · exact List.mem_cons_of_mem _ (List.mem_cons_of_mem _ later)
      intro element present
      rcases List.mem_cons.mp present with rfl | behind
      · exact least element List.mem_cons_self
      · rcases List.mem_cons.mp behind with rfl | later
        · exact transitive _ _ _ (least first List.mem_cons_self) smaller
        · exact least element (List.mem_cons_of_mem _ later)
    · rw [if_neg smaller]
      obtain ⟨member, least⟩ := ih next
      refine ⟨List.mem_cons_of_mem _ member, ?_⟩
      intro element present
      rcases List.mem_cons.mp present with rfl | behind
      · exact transitive _ _ _ (least next List.mem_cons_self) ((total element next).resolve_left smaller)
      · exact least element behind

theorem minBy_least {le : α → α → Prop} [DecidableRel le] (total : ∀ a b, le a b ∨ le b a)
    (transitive : ∀ a b c, le a b → le b c → le a c) (chosen : minBy le elements = some best) :
    best ∈ elements ∧ ∀ element ∈ elements, le best element := by
  cases elements with
  | nil => cases chosen
  | cons first rest =>
    cases chosen
    exact foldl_least total transitive first rest

theorem mem_of_mem_upsert (member : element ∈ upsert key new elements) :
    element = new ∨ element ∈ elements := by
  induction elements with
  | nil => exact .inl (List.mem_singleton.mp member)
  | cons first rest ih =>
    by_cases same : key first = key new
    · rw [upsert, if_pos same] at member
      exact (List.mem_cons.mp member).imp id (List.mem_cons_of_mem first)
    · rw [upsert, if_neg same] at member
      rcases List.mem_cons.mp member with rfl | later
      · exact .inr List.mem_cons_self
      · exact (ih later).imp id (List.mem_cons_of_mem first)

theorem upsert_length_le (key : α → κ) (new : α) (elements : List α) :
    (upsert key new elements).length ≤ elements.length + 1 := by
  induction elements with
  | nil => exact Nat.le_refl _
  | cons first rest ih =>
    by_cases same : key first = key new
    · rw [upsert, if_pos same]
      exact Nat.le_succ _
    · rw [upsert, if_neg same]
      exact Nat.succ_le_succ ih

/-- With one element a key, the new element replaces exactly the one with its key. -/
theorem mem_upsert (distinct : (elements.map key).Nodup) :
    element ∈ upsert key new elements ↔
      element = new ∨ (element ∈ elements ∧ key element ≠ key new) := by
  induction elements with
  | nil => simp [upsert]
  | cons first rest ih =>
    obtain ⟨fresh, later⟩ := List.nodup_cons.mp distinct
    by_cases same : key first = key new
    · have others : ∀ other ∈ rest, key other ≠ key new := fun other member equal =>
        fresh (List.mem_map.mpr ⟨other, member, equal.trans same.symm⟩)
      rw [upsert, if_pos same, List.mem_cons, List.mem_cons]
      constructor
      · rintro (rfl | member)
        · exact .inl rfl
        · exact .inr ⟨.inr member, others element member⟩
      · rintro (rfl | ⟨rfl | member, different⟩)
        · exact .inl rfl
        · exact absurd same different
        · exact .inr member
    · rw [upsert, if_neg same, List.mem_cons, List.mem_cons, ih later]
      constructor
      · rintro (rfl | rfl | ⟨member, different⟩)
        · exact .inr ⟨.inl rfl, same⟩
        · exact .inl rfl
        · exact .inr ⟨.inr member, different⟩
      · rintro (rfl | ⟨rfl | member, different⟩)
        · exact .inr (.inl rfl)
        · exact .inl rfl
        · exact .inr (.inr ⟨member, different⟩)

theorem upsert_distinct (distinct : (elements.map key).Nodup) :
    ((upsert key new elements).map key).Nodup := by
  induction elements with
  | nil => simp [upsert]
  | cons first rest ih =>
    obtain ⟨fresh, later⟩ := List.nodup_cons.mp distinct
    by_cases same : key first = key new
    · rw [upsert, if_pos same, List.map_cons, ← same]
      exact List.nodup_cons.mpr ⟨fresh, later⟩
    · rw [upsert, if_neg same, List.map_cons]
      refine List.nodup_cons.mpr ⟨?_, ih later⟩
      intro member
      obtain ⟨other, found, equal⟩ := List.mem_map.mp member
      rcases (mem_upsert later).mp found with rfl | ⟨inside, -⟩
      · exact same equal.symm
      · exact fresh (List.mem_map.mpr ⟨other, inside, equal⟩)

/-- `Vec::swap_remove`: the last element takes the place of the one that is removed. -/
def swapRemove (index : Nat) (elements : List α) : List α :=
  match elements.getLast? with
  | none => []
  | some last => (elements.set index last).dropLast

omit [DecidableEq κ] in
theorem perm_swapRemove (elements : List α) (index : Nat) (inside : index < elements.length) :
    elements.Perm (elements[index] :: swapRemove index elements) := by
  induction elements using List.reverseRecOn with
  | nil => simp at inside
  | append_singleton front last =>
    have removed : swapRemove index (front ++ [last]) = ((front ++ [last]).set index last).dropLast := by
      simp [swapRemove]
    rw [removed]
    by_cases early : index < front.length
    · have replaced : (front.set index last).Perm (last :: front.eraseIdx index) := by
        have whole := List.getElem_cons_eraseIdx_perm
          (show index < (front.set index last).length by simpa using early)
        simpa [List.eraseIdx_set_eq] using whole.symm
      rw [List.set_append_left _ _ early, List.dropLast_concat, List.getElem_append_left early]
      calc (front ++ [last]).Perm (last :: front) := List.perm_append_singleton last front
        _ |>.Perm (last :: front[index] :: front.eraseIdx index) :=
          (List.getElem_cons_eraseIdx_perm early).symm.cons last
        _ |>.Perm (front[index] :: last :: front.eraseIdx index) := .swap ..
        _ |>.Perm (front[index] :: front.set index last) := replaced.symm.cons _
    · have final : index = front.length := by
        simp at inside
        omega
      subst final
      simp

omit [DecidableEq κ] in
theorem filterMap_map_sublist {β : Type w} {f : α → Option β} {valueKey : β → κ}
    {elements : List α}
    (same : ∀ element ∈ elements, ∀ value, f element = some value → valueKey value = key element) :
    ((elements.filterMap f).map valueKey).Sublist (elements.map key) := by
  induction elements with
  | nil => exact List.Sublist.refl _
  | cons first rest ih =>
    have later := ih fun element member => same element (List.mem_cons_of_mem first member)
    cases found : f first with
    | none => simpa [found] using later.cons (key first)
    | some value =>
      rw [List.filterMap_cons_some found, List.map_cons, List.map_cons,
        same first List.mem_cons_self value found]
      exact later.cons_cons _

end Kakoi
