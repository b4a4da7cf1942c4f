import Kakoi.Base.Collecting
import Kakoi.Net.Recovery

/-! What any calls on one recovery come to: attempts follow each other, each is cancelled at most
once, and delays grow. -/

namespace Kakoi

inductive RecoveryCall where
  | isolate (now : Instant)
  | poll (now : Instant)
  | complete (attempt : Attempt) (succeeded : Bool) (now : Instant)

/-- A call with what it answered. -/
inductive RecoveryEvent where
  | isolated (now : Instant)
  | polled (now : Instant) (action : RecoveryAction)
  | completed (attempt : Attempt) (succeeded : Bool) (now : Instant) (answer : Except String Bool)

def RecoveryEvent.time : RecoveryEvent → Instant
  | .isolated now => now
  | .polled now _ => now
  | .completed _ _ now _ => now

namespace Recovery

/-- One call; none where the source panics. -/
def call (recovery : Recovery) : RecoveryCall → Option (RecoveryEvent × Recovery)
  | .isolate now => some (.isolated now, recovery.isolate now)
  | .poll now => (recovery.poll now).map fun (action, next) => (.polled now action, next)
  | .complete attempt succeeded now =>
    let (answer, next) := recovery.complete attempt succeeded now
    some (.completed attempt succeeded now answer, next)

/-- What one call can do. -/
inductive Outcome (recovery : Recovery) : RecoveryEvent → Recovery → Prop where
  | isolated (healthy : recovery.state = .healthy) :
      Outcome recovery (.isolated now) { recovery with state := .waiting now }
  | isolatedAgain (ill : recovery.state ≠ .healthy) : Outcome recovery (.isolated now) recovery
  | started (waits : recovery.state = .waiting due) (reached : due ≤ now) :
      Outcome recovery (.polled now (.start ⟨recovery.generation + 1, now + recovery.timeout⟩))
        { recovery with
          generation := recovery.generation + 1
          state := .working ⟨recovery.generation + 1, now + recovery.timeout⟩ false }
  | cancelled (works : recovery.state = .working attempt false)
      (late : attempt.deadline ≤ now) :
      Outcome recovery (.polled now (.cancel attempt))
        { recovery with state := .working attempt true }
  | idle : Outcome recovery (.polled now .wait) recovery
  | recovered (works : recovery.state = .working attempt false) (timely : now < attempt.deadline) :
      Outcome recovery (.completed attempt true now (.ok true))
        { recovery with state := .healthy, failures := 0 }
  | failed (works : recovery.state = .working attempt cancelled)
      (short : ¬ (succeeded = true ∧ cancelled = false ∧ now < attempt.deadline)) :
      Outcome recovery (.completed attempt succeeded now (.ok false))
        { recovery with
          failures := nextFailures recovery.failures
          state := .waiting (now + delay recovery.failures) }
  | refused (other : ∀ cancelled, recovery.state ≠ .working attempt cancelled) :
      Outcome recovery (.completed attempt succeeded now (.error text)) recovery

theorem outcome_isolate (recovery : Recovery) (now : Instant) :
    Outcome recovery (.isolated now) (recovery.isolate now) := by
  unfold isolate
  split
  next healthy => exact .isolated healthy
  next ill => exact .isolatedAgain ill

theorem outcome_poll (polled : poll recovery now = some (action, next)) :
    Outcome recovery (.polled now action) next := by
  unfold poll at polled
  split at polled
  next due waits =>
    split at polled
    next reached =>
      split at polled
      · cases polled
        exact .started waits reached
      · cases polled
    · cases polled
      exact .idle
  next attempt works =>
    split at polled
    next late =>
      cases polled
      exact .cancelled works late
    · cases polled
      exact .idle
  · cases polled
    exact .idle

theorem outcome_complete (recovery : Recovery) (attempt : Attempt) (succeeded : Bool)
    (now : Instant) : Outcome recovery
      (.completed attempt succeeded now (recovery.complete attempt succeeded now).1)
      (recovery.complete attempt succeeded now).2 := by
  unfold complete
  split
  next running cancelled works =>
    split
    next different =>
      exact .refused fun other same =>
        different (RecoveryState.working.inj (works.symm.trans same)).1
    next same =>
      rw [ne_eq, Decidable.not_not] at same
      subst same
      split
      next success =>
        simp only [Bool.and_eq_true, Bool.not_eq_true', decide_eq_true_eq] at success
        obtain ⟨⟨rfl, rfl⟩, timely⟩ := success
        exact .recovered works timely
      next short =>
        simp only [Bool.and_eq_true, Bool.not_eq_true', decide_eq_true_eq, and_assoc] at short
        exact .failed works short
  next idle => exact .refused fun cancelled works => idle attempt cancelled works

theorem call_outcome (called : recovery.call request = some (event, next)) :
    Outcome recovery event next := by
  cases request with
  | isolate now =>
    cases called
    exact outcome_isolate recovery now
  | poll now =>
    obtain ⟨⟨action, after⟩, polled, made⟩ := Option.map_eq_some_iff.mp called
    cases made
    exact outcome_poll polled
  | complete attempt succeeded now =>
    cases called
    exact outcome_complete recovery attempt succeeded now

/-- Calls one after the other. -/
inductive Run : Recovery → List RecoveryEvent → Recovery → Prop where
  | nil : Run recovery [] recovery
  | cons : recovery.call request = some (event, next) → Run next events last →
      Run recovery (event :: events) last

theorem Run.split (run : Run recovery (front ++ back) last) :
    ∃ middle, Run recovery front middle ∧ Run middle back last := by
  induction front generalizing recovery with
  | nil => exact ⟨recovery, .nil, run⟩
  | cons event front ih =>
    cases run with
    | cons called later =>
      obtain ⟨middle, first, second⟩ := ih later
      exact ⟨middle, .cons called first, second⟩

theorem Run.head (run : Run recovery (event :: events) last) :
    ∃ next, Outcome recovery event next ∧ Run next events last := by
  cases run with
  | cons called later => exact ⟨_, call_outcome called, later⟩

/-- The attempt that was started and of which no completion was accepted since. -/
def noteRunning (running : Option Attempt) : RecoveryEvent → Option Attempt
  | .polled _ (.start attempt) => some attempt
  | .completed _ _ _ (.ok _) => none
  | _ => running

def runningAttempt (events : List RecoveryEvent) : Option Attempt := events.foldl noteRunning none

/-- Failed completions since the last success. -/
def noteFailure (count : Nat) : RecoveryEvent → Nat
  | .completed _ _ _ (.ok true) => 0
  | .completed _ _ _ (.ok false) => count + 1
  | _ => count

def failuresInRow (events : List RecoveryEvent) : Nat := events.foldl noteFailure 0

theorem runningAttempt_concat (events : List RecoveryEvent) (event : RecoveryEvent) :
    runningAttempt (events ++ [event]) = noteRunning (runningAttempt events) event := by
  simp [runningAttempt]

theorem failuresInRow_concat (events : List RecoveryEvent) (event : RecoveryEvent) :
    failuresInRow (events ++ [event]) = noteFailure (failuresInRow events) event := by
  simp [failuresInRow]

/-- What the state keeps of the history. -/
structure Kept (events : List RecoveryEvent) (recovery : Recovery) : Prop where
  atWork : ∀ attempt, runningAttempt events = some attempt ↔
    ∃ cancelled, recovery.state = .working attempt cancelled
  cancelled : ∀ attempt cancelled, recovery.state = .working attempt cancelled →
    (cancelled = true ↔ ∃ now, .polled now (.cancel attempt) ∈ events)
  known : ∀ now attempt, .polled now (.cancel attempt) ∈ events →
    attempt.generation ≤ recovery.generation
  current : ∀ attempt cancelled, recovery.state = .working attempt cancelled →
    attempt.generation = recovery.generation
  failures : recovery.failures.val = min (failuresInRow events) 5

/-- With no attempt at work there is less to keep. -/
theorem kept_resting (resting : ∀ attempt cancelled, recovery.state ≠ .working attempt cancelled)
    (none : runningAttempt events = none)
    (known : ∀ now attempt, .polled now (.cancel attempt) ∈ events →
      attempt.generation ≤ recovery.generation)
    (failures : recovery.failures.val = min (failuresInRow events) 5) : Kept events recovery where
  atWork attempt := by
    rw [none]
    constructor
    · rintro ⟨⟩
    · rintro ⟨cancelled, works⟩
      exact absurd works (resting attempt cancelled)
  cancelled attempt cancelled works := absurd works (resting attempt cancelled)
  known := known
  current attempt cancelled works := absurd works (resting attempt cancelled)
  failures := failures

theorem kept_new (made : new timeoutSeconds = .ok recovery) : Kept [] recovery := by
  have healthy := new_healthy made
  refine kept_resting ?_ rfl ?_ ?_
  · intro attempt cancelled works
    rw [healthy] at works
    cases works
  · intro now attempt member
    cases member
  · unfold new at made
    split at made
    · cases made
      rfl
    · cases made

/-- An event that is no cancellation adds none. -/
theorem cancel_mem_concat {event : RecoveryEvent} {now : Instant} {attempt : Attempt}
    (other : ∀ now attempt, event ≠ .polled now (.cancel attempt)) :
    .polled now (.cancel attempt) ∈ events ++ [event] ↔ .polled now (.cancel attempt) ∈ events := by
  rw [List.mem_append, List.mem_singleton]
  exact or_iff_left fun same => other now attempt same.symm

/-- An event that starts, cancels and completes nothing. -/
theorem Kept.quiet (kept : Kept events recovery)
    (unnoted : noteRunning (runningAttempt events) event =
      runningAttempt events)
    (uncounted : noteFailure (failuresInRow events) event = failuresInRow events)
    (other : ∀ now attempt, event ≠ .polled now (.cancel attempt)) :
    Kept (events ++ [event]) recovery where
  atWork := by
    rw [runningAttempt_concat, unnoted]
    exact kept.atWork
  cancelled := by
    simp only [cancel_mem_concat other]
    exact kept.cancelled
  known := by
    simp only [cancel_mem_concat other]
    exact kept.known
  current := kept.current
  failures := by
    rw [failuresInRow_concat, uncounted]
    exact kept.failures

theorem Kept.no_attempt (kept : Kept events recovery)
    (resting : ∀ attempt cancelled, recovery.state ≠ .working attempt cancelled) :
    runningAttempt events = none := by
  rw [Option.eq_none_iff_forall_not_mem]
  intro attempt runs
  obtain ⟨cancelled, works⟩ := (kept.atWork attempt).mp runs
  exact resting attempt cancelled works

theorem Kept.step (kept : Kept events recovery) (outcome : Outcome recovery event next) :
    Kept (events ++ [event]) next := by
  cases outcome with
  | @isolated now healthy =>
    have resting : ∀ attempt cancelled, recovery.state ≠ .working attempt cancelled := by
      intro attempt cancelled works
      rw [healthy] at works
      cases works
    refine kept_resting (fun attempt cancelled => nofun) ?_ ?_ ?_
    · rw [runningAttempt_concat]
      exact kept.no_attempt resting
    · intro now attempt member
      replace member := (cancel_mem_concat (by nofun)).mp member
      exact kept.known now attempt member
    · rw [failuresInRow_concat]
      exact kept.failures
  | isolatedAgain ill => exact kept.quiet rfl rfl nofun
  | @started due now waits reached =>
    refine ⟨?_, ?_, ?_, ?_, ?_⟩
    · intro attempt
      rw [runningAttempt_concat]
      constructor
      · rintro ⟨⟩
        exact ⟨false, rfl⟩
      · rintro ⟨cancelled, ⟨⟩⟩
        rfl
    · rintro attempt cancelled ⟨⟩
      refine ⟨nofun, ?_⟩
      rintro ⟨earlier, member⟩
      replace member := (cancel_mem_concat (by nofun)).mp member
      exact absurd (kept.known _ _ member) (Nat.not_succ_le_self _)
    · intro earlier attempt member
      replace member := (cancel_mem_concat (by nofun)).mp member
      exact Nat.le_succ_of_le (kept.known earlier attempt member)
    · rintro attempt cancelled ⟨⟩
      rfl
    · rw [failuresInRow_concat]
      exact kept.failures
  | @cancelled attempt now works late =>
    refine ⟨?_, ?_, ?_, ?_, ?_⟩
    · intro other
      rw [runningAttempt_concat]
      refine (kept.atWork other).trans ?_
      constructor
      · rintro ⟨cancelled, same⟩
        rw [works] at same
        cases same
        exact ⟨true, rfl⟩
      · rintro ⟨cancelled, ⟨⟩⟩
        exact ⟨false, works⟩
    · rintro other cancelled ⟨⟩
      exact ⟨fun _ => ⟨now, by simp⟩, fun _ => rfl⟩
    · intro earlier other member
      rcases mem_concat.mp member with before | last
      · exact kept.known earlier other before
      · cases last
        exact Nat.le_of_eq (kept.current attempt false works)
    · rintro other cancelled ⟨⟩
      exact kept.current attempt false works
    · rw [failuresInRow_concat]
      exact kept.failures
  | idle => exact kept.quiet rfl rfl nofun
  | @recovered attempt now works timely =>
    refine kept_resting (fun attempt cancelled => nofun) ?_ ?_ ?_
    · rw [runningAttempt_concat]
      rfl
    · intro earlier other member
      replace member := (cancel_mem_concat (by nofun)).mp member
      exact kept.known earlier other member
    · rw [failuresInRow_concat]
      rfl
  | @failed attempt cancelled succeeded now works short =>
    refine kept_resting (fun attempt cancelled => nofun) ?_ ?_ ?_
    · rw [runningAttempt_concat]
      rfl
    · intro earlier other member
      replace member := (cancel_mem_concat (by nofun)).mp member
      exact kept.known earlier other member
    · have before := kept.failures
      rw [failuresInRow_concat]
      simp only [nextFailures, noteFailure]
      omega
  | refused other => exact kept.quiet rfl rfl nofun

theorem Run.kept (kept : Kept before recovery) (run : Run recovery events last) :
    Kept (before ++ events) last := by
  induction run generalizing before with
  | nil => rwa [List.append_nil]
  | cons called later ih =>
    have longer := ih (kept.step (call_outcome called))
    rwa [List.append_assoc] at longer

/-- An attempt stays at work until a completion of it is accepted. -/
theorem Run.still_working (run : Run recovery events last)
    (works : recovery.state = .working attempt cancelled)
    (unfinished : ∀ succeeded now answer,
      .completed attempt succeeded now (.ok answer) ∉ events) :
    ∃ cancelled, last.state = .working attempt cancelled := by
  induction run generalizing cancelled with
  | nil => exact ⟨cancelled, works⟩
  | cons called later ih =>
    have rest : ∀ succeeded now answer, _ ∉ _ := fun succeeded now answer member =>
      unfinished succeeded now answer (List.mem_cons_of_mem _ member)
    cases call_outcome called with
    | isolated healthy =>
      rw [works] at healthy
      cases healthy
    | isolatedAgain | idle | refused => exact ih works rest
    | started waits =>
      rw [works] at waits
      cases waits
    | cancelled again late =>
      rw [works] at again
      cases again
      exact ih rfl rest
    | recovered again timely =>
      rw [works] at again
      cases again
      exact absurd List.mem_cons_self (unfinished _ _ _)
    | failed again short =>
      rw [works] at again
      cases again
      exact absurd List.mem_cons_self (unfinished _ _ _)

theorem Run.generation_le (run : Run recovery events last) :
    recovery.generation ≤ last.generation := by
  induction run with
  | nil => exact Nat.le_refl _
  | cons called later ih =>
    refine Nat.le_trans ?_ ih
    cases call_outcome called with
    | started waits reached => exact Nat.le_succ _
    | isolated | isolatedAgain | cancelled | idle | recovered | failed | refused =>
      exact Nat.le_refl _

/-- The times of the calls do not go back. -/
def Timed (events : List RecoveryEvent) : Prop :=
  events.Pairwise fun earlier later => earlier.time ≤ later.time

/-- No attempt starts before the time it was put off to. -/
theorem Run.start_due (run : Run recovery events last) (timed : Timed events)
    (waits : recovery.state = .waiting due) (member : .polled now (.start attempt) ∈ events) :
    due ≤ now := by
  induction run with
  | nil => cases member
  | cons called later ih =>
    obtain ⟨after, ordered⟩ := List.pairwise_cons.mp timed
    cases call_outcome called with
    | isolated healthy =>
      rw [waits] at healthy
      cases healthy
    | isolatedAgain | idle | refused =>
      exact ih ordered waits ((List.mem_cons.mp member).resolve_left nofun)
    | started again reached =>
      rw [waits] at again
      cases again
      rcases List.mem_cons.mp member with same | behind
      · cases same
        exact reached
      · exact Nat.le_trans reached (after _ behind)
    | cancelled works | recovered works | failed works =>
      rw [waits] at works
      cases works

/-- The seconds to wait after so many failures in a row. -/
def backoff (count : Nat) : Nat := if count ≤ 5 then min (Nat.pow 2 (count - 1)) 30 else 30

theorem delay_eq {failures : Fin 6} {count : Nat} (counted : failures.val = min count 5) :
    delay failures = seconds (backoff (count + 1)) := by
  by_cases small : count < 5
  · have same : failures = ⟨count, by omega⟩ :=
      Fin.ext (counted.trans (Nat.min_eq_left (Nat.le_of_lt small)))
    rw [same]
    match count, small with
    | 0, _ | 1, _ | 2, _ | 3, _ | 4, _ => rfl
  · have same : failures = 5 :=
      Fin.ext (counted.trans (Nat.min_eq_right (Nat.le_of_not_lt small)))
    rw [same, backoff, if_neg (by omega)]
    rfl

/-- What was reached before an event, what it did, and what came of it. -/
theorem Run.at_event (run : Run initial (before ++ event :: after) last) :
    ∃ recovery next, Run initial before recovery ∧ Outcome recovery event next ∧
      Run next after last := by
  obtain ⟨recovery, first, second⟩ := run.split
  obtain ⟨next, outcome, later⟩ := second.head
  exact ⟨recovery, next, first, outcome, later⟩

theorem starts_follow_completion
    (run : Run initial
      (before ++ .polled t₁ (.start first) :: (between ++ .polled t₂ (.start second) :: after)) last) :
    (∃ succeeded now answer, .completed first succeeded now (.ok answer) ∈ between) ∧
      first.generation < second.generation := by
  obtain ⟨recovery, next, -, outcome, later⟩ := run.at_event
  obtain ⟨resting, restarted, middle, again, -⟩ := later.at_event
  cases outcome with
  | started =>
    cases again with
    | started waits reached =>
      refine ⟨?_, Nat.lt_succ_of_le middle.generation_le⟩
      by_contra none
      obtain ⟨cancelled, works⟩ := middle.still_working rfl fun succeeded now answer member =>
        none ⟨succeeded, now, answer, member⟩
      rw [waits] at works
      cases works

theorem cancelled_once (made : new timeoutSeconds = .ok initial)
    (run : Run initial (before ++ .polled now (.cancel attempt) :: after) last) :
    attempt.deadline ≤ now ∧ ∀ again, .polled again (.cancel attempt) ∉ after := by
  obtain ⟨recovery, next, first, outcome, later⟩ := run.at_event
  have kept := (first.kept (kept_new made)).step outcome
  rw [List.nil_append] at kept
  cases outcome with
  | cancelled works late =>
    refine ⟨late, fun again member => ?_⟩
    obtain ⟨between, rest, rfl⟩ := List.append_of_mem member
    obtain ⟨second, next, middle, repeated, -⟩ := later.at_event
    cases repeated with
    | cancelled worksAgain =>
      have flagged := ((middle.kept kept).cancelled attempt false worksAgain).mpr ⟨now, by simp⟩
      cases flagged

/-- What a completion answers, from what has happened. -/
theorem complete_answers (made : new timeoutSeconds = .ok initial) (run : Run initial events last)
    (attempt : Attempt) (succeeded : Bool) (now : Instant) :
    (runningAttempt events ≠ some attempt →
        (∃ text, (last.complete attempt succeeded now).1 = .error text) ∧
          (last.complete attempt succeeded now).2 = last) ∧
      ((last.complete attempt succeeded now).1 = .ok true ↔
        runningAttempt events = some attempt ∧ succeeded = true ∧
          (∀ earlier, .polled earlier (.cancel attempt) ∉ events) ∧ now < attempt.deadline) := by
  have kept := run.kept (kept_new made)
  rw [List.nil_append] at kept
  have outcome := outcome_complete last attempt succeeded now
  generalize last.complete attempt succeeded now = result at outcome
  obtain ⟨answer, next⟩ := result
  dsimp only at outcome ⊢
  cases outcome with
  | recovered works timely =>
    have runs := (kept.atWork attempt).mpr ⟨false, works⟩
    refine ⟨fun other => absurd runs other, fun _ => ⟨runs, rfl, fun earlier member => ?_, timely⟩,
      fun _ => rfl⟩
    cases (kept.cancelled attempt false works).mpr ⟨earlier, member⟩
  | @failed _ cancelled _ _ works short =>
    refine ⟨fun other => absurd ((kept.atWork attempt).mpr ⟨cancelled, works⟩) other, nofun, ?_⟩
    rintro ⟨-, success, uncancelled, timely⟩
    have unflagged : cancelled = false := by
      rw [Bool.eq_false_iff]
      intro flagged
      obtain ⟨earlier, member⟩ := (kept.cancelled attempt cancelled works).mp flagged
      exact uncancelled earlier member
    exact absurd ⟨success, unflagged, timely⟩ short
  | @refused _ _ _ text other =>
    refine ⟨fun _ => ⟨⟨text, rfl⟩, rfl⟩, nofun, ?_⟩
    rintro ⟨runs, -⟩
    obtain ⟨cancelled, works⟩ := (kept.atWork attempt).mp runs
    exact absurd works (other cancelled)

theorem start_after_backoff (made : new timeoutSeconds = .ok initial)
    (run : Run initial
      (before ++ .completed attempt succeeded t (.ok false) ::
        (between ++ .polled now (.start next) :: after)) last)
    (timed : Timed (before ++ .completed attempt succeeded t (.ok false) ::
      (between ++ .polled now (.start next) :: after))) :
    t + seconds (backoff (failuresInRow before + 1)) ≤ now := by
  obtain ⟨recovery, waiting, first, outcome, later⟩ := run.at_event
  have counted := (first.kept (kept_new made)).failures
  have ordered : Timed (between ++ .polled now (.start next) :: after) :=
    (List.pairwise_cons.mp (List.pairwise_append.mp timed).2.1).2
  cases outcome with
  | failed works short =>
    rw [List.nil_append] at counted
    rw [← delay_eq counted]
    exact later.start_due ordered rfl (List.mem_append_right _ List.mem_cons_self)

/-- An attempt starts only after a completion of the one before it, with a greater generation; it is
cancelled once at most, and not before its deadline; a completion of any other attempt is an error
and changes nothing, and only a timely success that was not cancelled counts; and after failures in
a row the next start waits as their number asks. -/
theorem recovery_timing (made : new timeoutSeconds = .ok initial) (run : Run initial events last)
    (timed : Timed events) :
    (∀ before between after first second t₁ t₂,
        events = before ++ .polled t₁ (.start first) ::
          (between ++ .polled t₂ (.start second) :: after) →
        (∃ succeeded now answer, .completed first succeeded now (.ok answer) ∈ between) ∧
          first.generation < second.generation) ∧
      (∀ before after attempt now, events = before ++ .polled now (.cancel attempt) :: after →
        attempt.deadline ≤ now ∧ ∀ again, .polled again (.cancel attempt) ∉ after) ∧
      (∀ attempt succeeded now, runningAttempt events ≠ some attempt →
        (∃ text, (last.complete attempt succeeded now).1 = .error text) ∧
          (last.complete attempt succeeded now).2 = last) ∧
      (∀ attempt succeeded now, (last.complete attempt succeeded now).1 = .ok true ↔
        runningAttempt events = some attempt ∧ succeeded = true ∧
          (∀ earlier, .polled earlier (.cancel attempt) ∉ events) ∧ now < attempt.deadline) ∧
      ∀ before between after attempt succeeded t next now,
        events = before ++ .completed attempt succeeded t (.ok false) ::
          (between ++ .polled now (.start next) :: after) →
        t + seconds (backoff (failuresInRow before + 1)) ≤ now := by
  refine ⟨?_, ?_, fun attempt succeeded now => (complete_answers made run attempt succeeded now).1,
    fun attempt succeeded now => (complete_answers made run attempt succeeded now).2, ?_⟩
  · rintro before between after first second t₁ t₂ rfl
    exact starts_follow_completion run
  · rintro before after attempt now rfl
    exact cancelled_once made run
  · rintro before between after attempt succeeded t next now rfl
    exact start_after_backoff made run timed

/-- A start, its failure at once, and another start a second later. -/
def retriedEvents : List RecoveryEvent :=
  [.isolated 0, .polled 0 (.start ⟨1, seconds 5⟩), .completed ⟨1, seconds 5⟩ false 0 (.ok false),
    .polled (seconds 1) (.start ⟨2, seconds 6⟩)]

theorem retried_run : Run { timeout := seconds 5 } retriedEvents
    ⟨seconds 5, .working ⟨2, seconds 6⟩ false, 1, 2⟩ := by
  refine .cons (show call _ (.isolate 0) = some _ from rfl) ?_
  refine .cons (show call _ (.poll 0) = some _ from rfl) ?_
  refine .cons (show call _ (.complete ⟨1, seconds 5⟩ false 0) = some _ from rfl) ?_
  refine .cons (show call _ (.poll (seconds 1)) = some _ from rfl) ?_
  exact .nil

theorem retried_timed : Timed retriedEvents := by
  simp [Timed, retriedEvents, RecoveryEvent.time]

theorem retry_waits :
    Run { timeout := seconds 5 } retriedEvents ⟨seconds 5, .working ⟨2, seconds 6⟩ false, 1, 2⟩ ∧
      0 + seconds (backoff 1) ≤ seconds 1 := by
  have made : new 5 = .ok { timeout := seconds 5 } := rfl
  obtain ⟨-, -, -, -, waits⟩ := recovery_timing made retried_run retried_timed
  have waited := waits [.isolated 0, .polled 0 (.start ⟨1, seconds 5⟩)] [] [] ⟨1, seconds 5⟩ false 0
    ⟨2, seconds 6⟩ (seconds 1) rfl
  have none : failuresInRow [.isolated 0, .polled 0 (.start ⟨1, seconds 5⟩)] = 0 := rfl
  rw [none] at waited
  exact ⟨retried_run, waited⟩

end Recovery

end Kakoi
