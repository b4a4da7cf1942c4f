import Mathlib.Data.List.Sort

/-! Sorting and then dropping neighbours that are the same, over any preorder: one element of each
class stays. -/

namespace Kakoi

/-- What `Vec::dedup` leaves behind an element it kept. -/
def dedupFrom (same : α → α → Bool) (kept : α) : List α → List α
  | [] => []
  | next :: rest =>
    if same kept next then dedupFrom same kept rest else next :: dedupFrom same next rest

def dedupAdjacent (same : α → α → Bool) : List α → List α
  | [] => []
  | first :: rest => first :: dedupFrom same first rest

theorem dedupFrom_sublist (same : α → α → Bool) (kept : α) (elements : List α) :
    (dedupFrom same kept elements).Sublist elements := by
  induction elements generalizing kept with
  | nil => exact List.Sublist.refl _
  | cons next rest ih =>
    rw [dedupFrom]
    split
    · exact (ih kept).cons next
    · exact (ih next).cons_cons next

theorem dedupAdjacent_sublist (same : α → α → Bool) (elements : List α) :
    (dedupAdjacent same elements).Sublist elements := by
  cases elements with
  | nil => exact List.Sublist.refl _
  | cons first rest => exact (dedupFrom_sublist same first rest).cons_cons first

theorem dedupFrom_represents (reflexive : ∀ a, same a a = true)
    (member : element = kept ∨ element ∈ elements) :
    ∃ chosen, (chosen = kept ∨ chosen ∈ dedupFrom same kept elements) ∧
      same chosen element = true := by
  induction elements generalizing kept with
  | nil =>
    rcases member with rfl | inside
    · exact ⟨element, .inl rfl, reflexive element⟩
    · cases inside
  | cons next rest ih =>
    rw [dedupFrom]
    by_cases dropped : same kept next = true
    · rw [if_pos dropped]
      rcases member with rfl | inside
      · exact ⟨element, .inl rfl, reflexive element⟩
      · rcases List.mem_cons.mp inside with rfl | later
        · exact ⟨kept, .inl rfl, dropped⟩
        · exact ih (.inr later)
    · rw [if_neg dropped]
      rcases member with rfl | inside
      · exact ⟨element, .inl rfl, reflexive element⟩
      · obtain ⟨chosen, present, equal⟩ := ih (List.mem_cons.mp inside)
        exact ⟨chosen, .inr (List.mem_cons.mpr present), equal⟩

/-- Every element has one of its class among those kept. -/
theorem dedupAdjacent_represents (reflexive : ∀ a, same a a = true) (member : element ∈ elements) :
    ∃ chosen ∈ dedupAdjacent same elements, same chosen element = true := by
  cases elements with
  | nil => cases member
  | cons first rest =>
    obtain ⟨chosen, present, equal⟩ := dedupFrom_represents reflexive (List.mem_cons.mp member)
    exact ⟨chosen, List.mem_cons.mpr present, equal⟩

theorem dedupFrom_strict (transitive : ∀ a b c, le a b → le b c → le a c)
    (classes : ∀ a b, le a b → le b a → same a b = true)
    (sorted : (kept :: elements).Pairwise le) :
    (kept :: dedupFrom same kept elements).Pairwise fun a b => le a b ∧ ¬ le b a := by
  induction elements generalizing kept with
  | nil => simp [dedupFrom]
  | cons next rest ih =>
    obtain ⟨first, tail⟩ := List.pairwise_cons.mp sorted
    rw [dedupFrom]
    by_cases dropped : same kept next = true
    · rw [if_pos dropped]
      refine ih (List.pairwise_cons.mpr ⟨?_, (List.pairwise_cons.mp tail).2⟩)
      exact fun element member => first element (List.mem_cons_of_mem next member)
    · rw [if_neg dropped]
      refine List.pairwise_cons.mpr ⟨?_, ih tail⟩
      intro element member
      have below : le kept next := first next List.mem_cons_self
      have apart : ¬ le next kept := fun back => dropped (classes kept next below back)
      have onward : element = next ∨ le next element := by
        rcases List.mem_cons.mp member with rfl | later
        · exact .inl rfl
        · have inside := (dedupFrom_sublist same next rest).subset later
          exact .inr ((List.pairwise_cons.mp tail).1 element inside)
      rcases onward with rfl | above
      · exact ⟨below, apart⟩
      · exact ⟨transitive kept next element below above,
          fun back => apart (transitive next element kept above back)⟩

/-- What is kept of a sorted list is strictly increasing. -/
theorem dedupAdjacent_strict (transitive : ∀ a b c, le a b → le b c → le a c)
    (classes : ∀ a b, le a b → le b a → same a b = true) (sorted : elements.Pairwise le) :
    (dedupAdjacent same elements).Pairwise fun a b => le a b ∧ ¬ le b a := by
  cases elements with
  | nil => exact List.Pairwise.nil
  | cons first rest => exact dedupFrom_strict transitive classes sorted

end Kakoi
