import Mathlib.Algebra.GroupWithZero.Nat
import Mathlib.Algebra.BigOperators.Group.List.Basic

/-! Queues bounded in number and in weight: what is too much leaves at the front. -/

namespace Kakoi

section Trim

variable {α : Type} (weight : α → Nat) (maxItems maxWeight : Nat)

/-- What items weigh together. -/
def weigh (items : List α) : Nat := (items.map weight).sum

/-- Drops items at the front while they are too many or weigh too much. -/
def trim : List α → Nat → List α × Nat
  | [], total => ([], total)
  | first :: rest, total =>
    if maxItems < (first :: rest).length ∨ maxWeight < total then
      trim rest (total - weight first)
    else (first :: rest, total)

variable {weight maxItems maxWeight}

@[simp] theorem weigh_nil : weigh weight [] = 0 := rfl

@[simp] theorem weigh_cons : weigh weight (first :: rest) = weight first + weigh weight rest := by
  simp [weigh]

@[simp] theorem weigh_append : weigh weight (front ++ back) = weigh weight front + weigh weight back := by
  simp [weigh]

theorem weigh_perm (same : front.Perm back) : weigh weight front = weigh weight back :=
  (same.map weight).sum_eq

theorem trim_suffix (items : List α) (total : Nat) :
    (trim weight maxItems maxWeight items total).1 <:+ items := by
  induction items generalizing total with
  | nil => exact List.suffix_rfl
  | cons first rest ih =>
    rw [trim]
    split
    · exact (ih _).trans (List.suffix_cons first rest)
    · exact List.suffix_rfl

theorem trim_total (items : List α) (counted : total = weigh weight items) :
    (trim weight maxItems maxWeight items total).2 =
      weigh weight (trim weight maxItems maxWeight items total).1 := by
  induction items generalizing total with
  | nil => exact counted
  | cons first rest ih =>
    rw [trim]
    split
    · refine ih ?_
      rw [counted, weigh_cons, Nat.add_sub_cancel_left]
    · exact counted

theorem trim_bounded (items : List α) (counted : total = weigh weight items) :
    (trim weight maxItems maxWeight items total).1.length ≤ maxItems ∧
      (trim weight maxItems maxWeight items total).2 ≤ maxWeight := by
  induction items generalizing total with
  | nil =>
    rw [trim, counted]
    exact ⟨Nat.zero_le _, Nat.zero_le _⟩
  | cons first rest ih =>
    rw [trim]
    split
    · refine ih ?_
      rw [counted, weigh_cons, Nat.add_sub_cancel_left]
    · rename_i fits
      rw [not_or, Nat.not_lt, Nat.not_lt] at fits
      exact fits

end Trim

end Kakoi
