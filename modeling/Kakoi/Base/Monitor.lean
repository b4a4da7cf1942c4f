import Kakoi.Base.Program

/-! Conditions on the questions a program asks, whatever the answers: each must be allowed in the
state that follows them. -/

namespace Kakoi

structure Monitor (Op : Type) (Answer : Op → Type) (σ : Type) where
  allowed : σ → Op → Prop
  update : σ → (op : Op) → Answer op → σ

namespace Monitor

/-- Every question is allowed, and the program ends as stated. -/
def Keeps (monitor : Monitor Op Answer σ) (ensures : σ → α → Prop) :
    σ → Program Op Answer α → Prop
  | state, .done result => ensures state result
  | state, .ask op next => monitor.allowed state op ∧
      ∀ answer, Keeps monitor ensures (monitor.update state op answer) (next answer)

variable {monitor : Monitor Op Answer σ} {ensures : σ → α → Prop}

@[simp] theorem keeps_ask {op : Op} {next : Answer op → Program Op Answer α} :
    monitor.Keeps ensures state (.ask op next) ↔ monitor.allowed state op ∧
      ∀ answer, monitor.Keeps ensures (monitor.update state op answer) (next answer) := Iff.rfl

theorem Keeps.mono {program : Program Op Answer α} {others : σ → α → Prop}
    (keeps : monitor.Keeps ensures state program)
    (weaker : ∀ state result, ensures state result → others state result) :
    monitor.Keeps others state program := by
  induction program generalizing state with
  | done result => exact weaker state result keeps
  | ask op next ih => exact ⟨keeps.1, fun answer => ih answer (keeps.2 answer)⟩

/-- A sequence is judged by its first part, with the second as what that must ensure. -/
theorem keeps_bind {program : Program Op Answer α} {next : α → Program Op Answer β}
    {ensures : σ → β → Prop} :
    monitor.Keeps ensures state (program >>= next) ↔
      monitor.Keeps (fun state result => monitor.Keeps ensures state (next result)) state
        program := by
  induction program generalizing state with
  | done result => exact Iff.rfl
  | ask op rest ih =>
    rw [Program.ask_bind, keeps_ask, keeps_ask]
    exact and_congr_right fun _ => forall_congr' fun answer => ih answer

theorem Keeps.bind {program : Program Op Answer α} {next : α → Program Op Answer β}
    {ensures : σ → β → Prop} {middle : σ → α → Prop}
    (first : monitor.Keeps middle state program)
    (second : ∀ state result, middle state result → monitor.Keeps ensures state (next result)) :
    monitor.Keeps ensures state (program >>= next) :=
  keeps_bind.mpr (first.mono second)

/-- A program that leaves the state as it was. -/
abbrev Leaves (monitor : Monitor Op Answer σ) (state : σ) (program : Program Op Answer α) : Prop :=
  monitor.Keeps (fun after _ => after = state) state program

theorem Leaves.look {program : Program Op Answer α} {next : α → Program Op Answer β}
    {ensures : σ → β → Prop} (first : monitor.Leaves state program)
    (second : ∀ result, monitor.Keeps ensures state (next result)) :
    monitor.Keeps ensures state (program >>= next) :=
  first.bind fun _ result same => same ▸ second result

/-- What one round of a loop keeps, the whole loop keeps. -/
theorem Keeps.rounds {ρ : Type} {body : ρ → Program Op Answer (ρ ⊕ α)} {kept : σ → ρ → Prop}
    (step : ∀ state loop, kept state loop →
      monitor.Keeps (fun state => Sum.elim (kept state) (ensures state)) state (body loop))
    (count : Nat) {loop : ρ} (start : kept state loop) :
    monitor.Keeps (fun state result => ∀ value ∈ result, ensures state value) state
      (Program.rounds body count loop) := by
  induction count generalizing state loop with
  | zero => exact fun value impossible => nomatch impossible
  | succ count ih =>
    refine (step state loop start).bind fun state next reached => ?_
    cases next with
    | inl loop => exact ih reached
    | inr result => exact fun value same => Option.some.inj same ▸ reached

/-- A sequence whose first part may fail; its failure is the sequence's. -/
theorem Keeps.bindExcept {ε : Type} {first : ExceptT ε (Program Op Answer) α}
    {next : α → ExceptT ε (Program Op Answer) β} {middle : σ → Except ε α → Prop}
    {ensures : σ → Except ε β → Prop} (start : monitor.Keeps middle state first.run)
    (succeeds : ∀ state result, middle state (.ok result) →
      monitor.Keeps ensures state (next result).run)
    (fails : ∀ state error, middle state (.error error) → ensures state (.error error)) :
    monitor.Keeps ensures state (first >>= next).run := by
  refine start.bind fun state result reached => ?_
  cases result with
  | ok result => exact succeeds state result reached
  | error error => exact fails state error reached

/-- A condition on each way a fallible program ends. -/
def Ends {ε : Type} (fails : ε → Prop) (succeeds : α → Prop) : Except ε α → Prop
  | .ok result => succeeds result
  | .error error => fails error

/-- What one round of a loop that may fail keeps, the whole loop keeps. -/
theorem Keeps.tryRounds {ε ρ : Type} {body : ρ → ExceptT ε (Program Op Answer) (ρ ⊕ α)}
    {ensures : σ → Except ε α → Prop} {unfinished : ε} (kept : σ → ρ → Prop)
    (step : ∀ state loop, kept state loop →
      monitor.Keeps (fun state => Ends (fun error => ensures state (.error error))
        (Sum.elim (kept state) fun result => ensures state (.ok result))) state (body loop).run)
    (stops : ∀ state loop, kept state loop → ensures state (.error unfinished))
    (count : Nat) {loop : ρ} (start : kept state loop) :
    monitor.Keeps ensures state (Program.tryRounds body unfinished count loop).run := by
  induction count generalizing state loop with
  | zero => exact stops state loop start
  | succ count ih =>
    refine (step state loop start).bindExcept ?_ fun _ _ reached => reached
    intro state next reached
    cases next with
    | inl loop => exact ih reached
    | inr result => exact reached

/-- The state after some answers. -/
def after (monitor : Monitor Op Answer σ) (state : σ) (events : List (Program.Event Op Answer)) :
    σ :=
  events.foldl (fun state event => monitor.update state event.1 event.2) state

/-- What holds of a program holds of every run of it, up to where the run stands. -/
theorem Keeps.runs {program last : Program Op Answer α}
    (keeps : monitor.Keeps ensures state program) (runs : program.Runs events last) :
    monitor.Keeps ensures (monitor.after state events) last := by
  induction runs generalizing state with
  | stay program => exact keeps
  | ask _ ih => exact ih (keeps.2 _)

/-- Each question of a run was allowed where it was asked. -/
theorem Keeps.allowed {program last : Program Op Answer α}
    (keeps : monitor.Keeps ensures state program)
    (runs : program.Runs (before ++ event :: later) last) :
    monitor.allowed (monitor.after state before) event.1 := by
  induction before generalizing program state with
  | nil =>
    cases runs
    exact keeps.1
  | cons first before ih =>
    cases runs with
    | ask rest => exact ih (keeps.2 _) rest

/-- Judges each question by all that was asked and answered before it. -/
def recording (allowed : List (Program.Event Op Answer) → Op → Prop) :
    Monitor Op Answer (List (Program.Event Op Answer)) where
  allowed := allowed
  update events op answer := events ++ [⟨op, answer⟩]

theorem recording_after {allowed : List (Program.Event Op Answer) → Op → Prop}
    (before events : List (Program.Event Op Answer)) :
    (recording allowed).after before events = before ++ events := by
  induction events generalizing before with
  | nil => exact (List.append_nil before).symm
  | cons event events ih =>
    exact (ih (before ++ [event])).trans (List.append_assoc before [event] events)

end Monitor

namespace Program

variable {Op Asked : Type}

/-- Answers the questions of a program by programs that ask others. -/
def interpret (handler : (op : Op) → Program Asked Told (Answer op)) :
    Program Op Answer α → Program Asked Told α
  | .done result => .done result
  | .ask op next => handler op >>= fun answer => interpret handler (next answer)

/-- A condition on the inner questions carries over to the outer ones when each handler keeps the
two states related. -/
theorem keeps_interpret {inner : Monitor Op Answer τ} {outer : Monitor Asked Told σ}
    {handler : (op : Op) → Program Asked Told (Answer op)} {related : τ → σ → Prop}
    {ensures : τ → α → Prop} {program : Program Op Answer α}
    (handles : ∀ state other op, related state other → inner.allowed state op →
      outer.Keeps (fun other answer => related (inner.update state op answer) other) other
        (handler op))
    (keeps : inner.Keeps ensures state program) (start : related state other) :
    outer.Keeps (fun other result => ∃ state, related state other ∧ ensures state result) other
      (program.interpret handler) := by
  induction program generalizing state other with
  | done result => exact ⟨state, start, keeps⟩
  | ask op next ih =>
    refine (handles state other op start keeps.1).bind fun other answer kept => ?_
    exact ih answer (keeps.2 answer) kept

end Program

end Kakoi
