import Mathlib.Data.List.Basic

/-! Sequential programs: a program is done, or asks its surroundings one question and goes on. -/

namespace Kakoi

inductive Program (Op : Type) (Answer : Op → Type) (α : Type) where
  | done (result : α)
  | ask (op : Op) (next : Answer op → Program Op Answer α)

namespace Program

variable {Answer : Op → Type}

def bind : Program Op Answer α → (α → Program Op Answer β) → Program Op Answer β
  | .done result, next => next result
  | .ask op rest, next => .ask op fun answer => (rest answer).bind next

instance : Monad (Program Op Answer) where
  pure := .done
  bind := bind

/-- Asks one question. -/
def perform (op : Op) : Program Op Answer (Answer op) := .ask op .done

@[simp] theorem pure_eq (result : α) : (pure result : Program Op Answer α) = .done result := rfl

@[simp] theorem done_bind (result : α) (next : α → Program Op Answer β) :
    (Program.done result >>= next) = next result := rfl

@[simp] theorem ask_bind (op : Op) (rest : Answer op → Program Op Answer α)
    (next : α → Program Op Answer β) :
    (Program.ask op rest >>= next) = .ask op fun answer => rest answer >>= next := rfl

/-- A loop followed for some rounds: its body goes on with a new state or leaves it. There is
no result when the rounds do not reach the end. -/
def rounds (body : σ → Program Op Answer (σ ⊕ α)) : Nat → σ → Program Op Answer (Option α)
  | 0, _ => .done none
  | count + 1, state => body state >>= fun next =>
    match next with
    | .inl state => rounds body count state
    | .inr result => .done (some result)

/-- A loop whose body may fail, followed for some rounds; it fails with `unfinished` when they
do not reach the end. -/
def tryRounds (body : σ → ExceptT ε (Program Op Answer) (σ ⊕ α)) (unfinished : ε) :
    Nat → σ → ExceptT ε (Program Op Answer) α
  | 0, _ => throw unfinished
  | count + 1, state => do
    match ← body state with
    | .inl state => tryRounds body unfinished count state
    | .inr result => return result

/-- A question with the answer it got. -/
abbrev Event (Op : Type) (Answer : Op → Type) := (op : Op) × Answer op

/-- A program goes on to another through the answers it gets. -/
inductive Runs : Program Op Answer α → List (Event Op Answer) → Program Op Answer α → Prop where
  | stay (program : Program Op Answer α) : Runs program [] program
  | ask {op : Op} {next : Answer op → Program Op Answer α} {answer : Answer op}
      {events : List (Event Op Answer)} {last : Program Op Answer α} :
      Runs (next answer) events last → Runs (.ask op next) (⟨op, answer⟩ :: events) last

theorem Runs.of_done (runs : Runs (.done result) events last) :
    events = [] ∧ last = .done result := by
  cases runs
  exact ⟨rfl, rfl⟩

theorem Runs.of_ask (runs : Runs (.ask op next) events last) :
    (events = [] ∧ last = .ask op next) ∨
      ∃ answer later, events = ⟨op, answer⟩ :: later ∧ Runs (next answer) later last := by
  cases runs with
  | stay => exact .inl ⟨rfl, rfl⟩
  | ask later => exact .inr ⟨_, _, rfl, later⟩

/-- The program under fixed answers, with the state they are computed from. -/
def execute (respond : σ → (op : Op) → Answer op × σ) : σ → Program Op Answer α →
    α × List (Event Op Answer)
  | _, .done result => (result, [])
  | state, .ask op next =>
    let (answer, state) := respond state op
    let (result, events) := execute respond state (next answer)
    (result, ⟨op, answer⟩ :: events)

/-- Fixed answers make one of the runs. -/
theorem runs_execute (respond : σ → (op : Op) → Answer op × σ) (program : Program Op Answer α)
    (state : σ) : Runs program (execute respond state program).2
      (.done (execute respond state program).1) := by
  induction program generalizing state with
  | done result => exact .stay _
  | ask op next ih => exact .ask (ih (respond state op).1 (respond state op).2)

end Program

end Kakoi
