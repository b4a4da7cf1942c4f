import Mathlib.Data.List.Basic

/-! Packet filters: chains of rules, tried in order. Accepting and dropping are final; a jump to a
chain without a verdict comes back. -/

namespace Kakoi.Ruleset

inductive Verdict where
  | accept
  | drop
  deriving DecidableEq

inductive Action (Chain : Type) where
  | accept
  | drop
  | jump (chain : Chain)

structure Rule (Test Effect Chain : Type) where
  tests : List Test
  effects : List Effect := []
  action : Action Chain

/-- What tests ask of a state, and what effects make of it. -/
structure Meaning (Test Effect σ : Type) where
  passes : σ → Test → Bool
  perform : σ → Effect → σ

variable (meaning : Meaning Test Effect σ)

def Applies (rule : Rule Test Effect Chain) (state : σ) : Prop :=
  rule.tests.all (meaning.passes state) = true

instance (rule : Rule Test Effect Chain) (state : σ) : Decidable (Applies meaning rule state) :=
  inferInstanceAs (Decidable (_ = true))

/-- The state behind the effects of a rule. -/
def affect (rule : Rule Test Effect Chain) (state : σ) : σ :=
  rule.effects.foldl meaning.perform state

/-- A verdict ends the evaluation; without one it goes on. -/
def orElse (outcome : Option Verdict × σ) (next : σ → Option Verdict × σ) : Option Verdict × σ :=
  if outcome.1.isSome then outcome else next outcome.2

def act (jump : Chain → σ → Option Verdict × σ) (action : Action Chain) (state : σ) :
    Option Verdict × σ :=
  match action with
  | .accept => (some .accept, state)
  | .drop => (some .drop, state)
  | .jump chain => jump chain state

def walk (jump : Chain → σ → Option Verdict × σ) :
    List (Rule Test Effect Chain) → σ → Option Verdict × σ
  | [], state => (none, state)
  | rule :: rules, state =>
    if Applies meaning rule state then
      orElse (act jump rule.action (affect meaning rule state)) (walk jump rules)
    else walk jump rules state

/-- A chain evaluated with jumps nested to some depth. -/
def evaluate (chains : Chain → List (Rule Test Effect Chain)) :
    Nat → Chain → σ → Option Verdict × σ
  | 0, _, state => (none, state)
  | depth + 1, chain, state => walk meaning (evaluate chains depth) (chains chain) state

variable {meaning}
  {rules : List (Rule Test Effect Chain)}

theorem walk_skip (misses : ¬ Applies meaning rule state) :
    walk meaning jump (rule :: rules) state = walk meaning jump rules state := by
  rw [walk, if_neg misses]

/-- The verdict of an action that is final. -/
def Action.verdict? : Action Chain → Option Verdict
  | .accept => some .accept
  | .drop => some .drop
  | .jump _ => none

theorem walk_final (applies : Applies meaning rule state)
    (final : rule.action.verdict?.isSome = true) :
    walk meaning jump (rule :: rules) state =
      (rule.action.verdict?, affect meaning rule state) := by
  rw [walk, if_pos applies]
  cases shape : rule.action with
  | accept => rfl
  | drop => rfl
  | jump chain =>
    rw [shape] at final
    cases final

/-- A jump at the end of a chain, without tests: the other chain's outcome is the whole's. -/
theorem walk_tailJump (chain : Chain) :
    walk meaning jump [⟨[], [], .jump chain⟩] state = jump chain state := by
  have applies : Applies meaning (Rule.mk [] [] (.jump chain)) state := rfl
  rw [walk, if_pos applies]
  show orElse (jump chain state) _ = _
  unfold orElse
  split
  · rfl
  · rename_i undecided
    have none : (jump chain state).1 = none := by simpa using undecided
    exact Prod.ext none.symm rfl

/-- Among rules that are final, the first that applies decides; without one nothing happened. -/
theorem walk_deciding (final : ∀ rule ∈ deciding, rule.action.verdict?.isSome = true) :
    (∃ rule ∈ deciding, Applies meaning rule state ∧
      walk meaning jump (deciding ++ rules) state =
        (rule.action.verdict?, affect meaning rule state)) ∨
    (∀ rule ∈ deciding, ¬ Applies meaning rule state) ∧
      walk meaning jump (deciding ++ rules) state = walk meaning jump rules state := by
  induction deciding with
  | nil => exact .inr ⟨by simp, rfl⟩
  | cons first deciding ih =>
    by_cases applies : Applies meaning first state
    · exact .inl ⟨first, List.mem_cons_self, applies,
        walk_final applies (final first List.mem_cons_self)⟩
    · rw [List.cons_append, walk_skip applies]
      rcases ih fun rule member => final rule (List.mem_cons_of_mem first member) with
        ⟨rule, member, rest⟩ | ⟨misses, rest⟩
      · exact .inl ⟨rule, List.mem_cons_of_mem first member, rest⟩
      · exact .inr ⟨List.forall_mem_cons.mpr ⟨applies, misses⟩, rest⟩

end Kakoi.Ruleset
