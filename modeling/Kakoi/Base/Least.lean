import Mathlib.Order.Bounds.Basic

/-! The least element of a set that may be empty. -/

namespace Kakoi

/-- Nothing for the empty set, otherwise its least element. -/
def LeastOf [LinearOrder α] (values : Set α) : Option α → Prop
  | none => values = ∅
  | some least => IsLeast values least

namespace LeastOf

variable [LinearOrder α] {least other : Option α}

theorem unique (first : LeastOf values least) (second : LeastOf values other) :
    least = other := by
  cases least with
  | none =>
    cases other with
    | none => rfl
    | some other =>
      have empty : values = ∅ := first
      exact absurd second.1 (by simp [empty])
  | some least =>
    cases other with
    | none =>
      have empty : values = ∅ := second
      exact absurd first.1 (by simp [empty])
    | some other => exact congrArg some (IsLeast.unique first second)

theorem exists_of_mem (found : LeastOf values least) (member : value ∈ values) :
    ∃ lowest, least = some lowest := by
  cases least with
  | none =>
    have empty : values = ∅ := found
    exact absurd member (by simp [empty])
  | some lowest => exact ⟨lowest, rfl⟩

/-- The running minimum, with a further set whose least element is known. -/
theorem union (found : LeastOf values least) (further : IsLeast others value) :
    IsLeast (values ∪ others) (least.elim value (min · value)) := by
  cases least with
  | none =>
    have empty : values = ∅ := found
    simpa [empty] using further
  | some lowest => exact IsLeast.union found further

end LeastOf

end Kakoi
