import Kakoi.Net.Pool

/-! Retry timing of recovery: one attempt at a time, with growing delays after failures. -/

namespace Kakoi

structure Attempt where
  generation : Nat
  deadline : Instant
  deriving DecidableEq

inductive RecoveryAction where
  | wait
  | start (attempt : Attempt)
  | cancel (attempt : Attempt)
  deriving DecidableEq

inductive RecoveryState where
  | healthy
  | waiting (at_ : Instant)
  | working (attempt : Attempt) (cancelled : Bool)
  deriving DecidableEq

/-- No failure yet. -/
def noFailures : Fin 6 := 0

structure Recovery where
  timeout : Duration
  state : RecoveryState := .healthy
  /-- Failures in a row, which choose the next delay. -/
  failures : Fin 6 := noFailures
  generation : Nat := 0
  deriving DecidableEq

namespace Recovery

def new (timeoutSeconds : Nat) : Except String Recovery :=
  if 1 ≤ timeoutSeconds && timeoutSeconds ≤ maxRecoveryAttemptTimeoutSeconds then
    .ok { timeout := seconds timeoutSeconds }
  else .error "recovery timeout must be 1..=300 seconds"

/-- Only an attempt that is not under way, nor waited for, is asked for. -/
def isolate (recovery : Recovery) (now : Instant) : Recovery :=
  match recovery.state with
  | .healthy => { recovery with state := .waiting now }
  | _ => recovery

/-- The next action; none when the generations are exhausted, where the source panics. -/
def poll (recovery : Recovery) (now : Instant) : Option (RecoveryAction × Recovery) :=
  match recovery.state with
  | .waiting at_ =>
    if at_ ≤ now then
      if recovery.generation + 1 < u64Limit then
        let attempt : Attempt :=
          { generation := recovery.generation + 1, deadline := now + recovery.timeout }
        some (.start attempt,
          { recovery with
            generation := recovery.generation + 1
            state := .working attempt false })
      else none
    else some (.wait, recovery)
  | .working attempt false =>
    if attempt.deadline ≤ now then
      some (.cancel attempt, { recovery with state := .working attempt true })
    else some (.wait, recovery)
  | _ => some (.wait, recovery)

/-- The delays after failures, in seconds. -/
def delays : List Nat := [1, 2, 4, 8, 16, 30]

def delay (failures : Fin 6) : Duration := seconds (delays.get failures)

/-- One more failure, counted up to five. -/
def nextFailures (failures : Fin 6) : Fin 6 := ⟨min (failures + 1) 5, by omega⟩

/-- True only for a current and timely success. -/
def complete (recovery : Recovery) (completed : Attempt) (succeeded : Bool) (now : Instant) :
    Except String Bool × Recovery :=
  match recovery.state with
  | .working attempt cancelled =>
    if attempt ≠ completed then (.error "stale recovery completion", recovery)
    else if succeeded && !cancelled && now < attempt.deadline then
      (.ok true, { recovery with state := .healthy, failures := 0 })
    else
      (.ok false,
        { recovery with
          failures := nextFailures recovery.failures
          state := .waiting (now + delay recovery.failures) })
  | _ => (.error "no recovery attempt is running", recovery)

variable {recovery after : Recovery}

theorem new_healthy (made : new timeoutSeconds = .ok recovery) : recovery.state = .healthy := by
  unfold new at made
  split at made
  · cases made
    rfl
  · cases made

/-- A rebuild is asked for when one is waited for, and is then at work. -/
theorem poll_start (starts : recovery.poll now = some (.start attempt, after)) :
    (∃ at_, recovery.state = .waiting at_) ∧ after.state = .working attempt false := by
  unfold poll at starts
  split at starts
  · rename_i at_ waits
    split at starts
    · split at starts
      · cases starts
        exact ⟨⟨at_, waits⟩, rfl⟩
      · cases starts
    · cases starts
  · split at starts
    · cases starts
    · cases starts
  · cases starts

/-- Other actions neither begin nor end an attempt. -/
theorem poll_other (polled : recovery.poll now = some (action, after))
    (other : ∀ attempt, action ≠ .start attempt) :
    after = recovery ∨
      ∃ attempt, recovery.state = .working attempt false ∧ after.state = .working attempt true := by
  unfold poll at polled
  split at polled
  · split at polled
    · split at polled
      · cases polled
        exact absurd rfl (other _)
      · cases polled
    · cases polled
      exact .inl rfl
  · rename_i attempt working
    split at polled
    · cases polled
      exact .inr ⟨attempt, working, rfl⟩
    · cases polled
      exact .inl rfl
  · cases polled
    exact .inl rfl

/-- The attempt at work is the one that may complete. -/
theorem complete_working (working : recovery.state = .working attempt cancelled)
    (succeeded : Bool) (now : Instant) :
    ∃ recovered, (recovery.complete attempt succeeded now).1 = .ok recovered ∧
      (recovered = true → succeeded = true ∧
        (recovery.complete attempt succeeded now).2.state = .healthy) ∧
      (recovered = false →
        ∃ at_, (recovery.complete attempt succeeded now).2.state = .waiting at_) := by
  unfold complete
  rw [working]
  simp only [ne_eq, not_true_eq_false, ite_false]
  split
  · rename_i success
    refine ⟨true, rfl, fun _ => ⟨?_, rfl⟩, fun impossible => nomatch impossible⟩
    simp only [Bool.and_eq_true] at success
    exact success.1.1
  · exact ⟨false, rfl, fun impossible => (nomatch impossible), fun _ => ⟨_, rfl⟩⟩

end Recovery

end Kakoi
