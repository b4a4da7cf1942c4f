import Kakoi.Base.Collecting
import Kakoi.Net.Watchdog

/-! The monitor never waits longer than the last heartbeat allows, and is taken for healthy only
while it waits. -/

namespace Kakoi

def MonitorPhase.stamps : MonitorPhase → List Nat
  | .judging stamp => [stamp]
  | _ => []

def WatchdogCall.stamps : WatchdogCall → List Nat
  | .beating stamp => [stamp]
  | _ => []

/-- The watchdog was given out. -/
def WatchdogCall.IsReady : WatchdogCall → Prop
  | .idle | .beating _ | .reading | .collecting .. => True
  | _ => False

/-- The phases in which the loop looks at its deadline. -/
def MonitorPhase.Looks : MonitorPhase → Prop
  | .checking | .woken .. => True
  | _ => False

/-- The monitor is still in its loop. -/
def MonitorPhase.InLoop : MonitorPhase → Prop
  | .starting | .left | .ended _ => False
  | _ => True

namespace TransitMonitor

theorem isFresh_iff {monitor : TransitMonitor} :
    monitor.isFresh stamp now = true ↔ stamp ≤ now ∧ now < saturatingAdd stamp monitor.timeout := by
  simp [isFresh]

end TransitMonitor

namespace WatchdogSystem

/-- The stamps in the order in which they were taken, from the accepted to the last. -/
def stamps (system : WatchdogSystem) : List Nat :=
  system.accepted.map (·.stamp) ++ system.monitor.phase.stamps ++ system.toMonitor ++
    system.call.stamps

/-- The stamp accepted last. -/
def latest (system : WatchdogSystem) : Nat := ((system.accepted.map (·.stamp)).getLast?).getD 0

/-- What every run keeps. -/
structure Kept (timeout : Nat) (system : WatchdogSystem) : Prop where
  timeouts : system.monitor.timeout = timeout ∧ system.watchdog.timeout = timeout
  sorted : system.stamps.Pairwise (· ≤ ·)
  past : ∀ stamp ∈ system.stamps, stamp ≤ system.clock
  bound : system.monitor.deadline ≤ timeout + max system.monitor.start system.latest
  fresh : ∀ found ∈ system.accepted, found.stamp ≤ found.read ∧ found.read < found.stamp + timeout
  extended : ∀ stamp, system.monitor.phase = .answering stamp →
    saturatingAdd stamp timeout ≤ system.monitor.deadline
  waits : ∀ found ∈ system.acknowledged, saturatingAdd found.stamp timeout ≤ found.deadline
  echoes : ∀ stamp ∈ system.toController, ∃ found ∈ system.acknowledged, found.stamp = stamp
  known : system.call.IsReady →
    ∃ found ∈ system.acknowledged, found.stamp = system.watchdog.lastAck
  earlier : system.watchdog.lastAck ≤ system.clock
  reading : ∀ now rounds, system.call = .collecting now rounds →
    system.watchdog.lastAck ≤ now ∧ now ≤ system.clock
  healthy : ∀ poll ∈ system.polls, poll.answer = .ok .healthy → ∃ now, poll.now = some now ∧
    ∃ found ∈ system.acknowledged, found.stamp ≤ now ∧ now < found.stamp + timeout ∧
      now < found.deadline

theorem kept_initial (timeout sent : Nat) : Kept timeout (initial timeout sent) where
  timeouts := ⟨rfl, rfl⟩
  sorted := List.pairwise_singleton _ _
  past _ member := Nat.le_of_eq (List.mem_singleton.mp member)
  bound := Nat.zero_le _
  fresh := nofun
  extended := nofun
  waits := nofun
  echoes := nofun
  known := nofun
  earlier := Nat.le_refl _
  reading := nofun
  healthy := nofun

section Steps

theorem ended_not_healthy (status : Nat) : TransitWatchdog.ended status ≠ .ok .healthy := by
  unfold TransitWatchdog.ended
  split <;> exact nofun

variable (kept : Kept timeout system)

include kept

/-- The monitor goes to a phase without a stamp. -/
theorem Kept.moves (none : phase.stamps = []) (silent : ∀ stamp, phase ≠ .answering stamp) :
    Kept timeout { system with monitor := { system.monitor with phase } } := by
  have sublist : ({ system with monitor := { system.monitor with phase } } : WatchdogSystem).stamps
      |>.Sublist system.stamps := by
    unfold stamps
    refine List.Sublist.append (List.Sublist.append (List.Sublist.append (.refl _) ?_) (.refl _))
      (.refl _)
    simp only [none]
    exact List.nil_sublist _
  exact { kept with
    sorted := kept.sorted.sublist sublist
    past := fun stamp member => kept.past stamp (sublist.subset member)
    bound := kept.bound
    extended := fun stamp answering => absurd answering (silent stamp) }

theorem Kept.begins (starting : system.monitor.phase = .starting) :
    Kept timeout { system with monitor := system.monitor.begins system.clock } := by
  have same : ({ system with monitor := system.monitor.begins system.clock } :
      WatchdogSystem).stamps = system.stamps := by
    simp only [stamps, starting, TransitMonitor.begins, MonitorPhase.stamps]
  refine { kept with
    timeouts := kept.timeouts, sorted := same ▸ kept.sorted, past := same ▸ kept.past
    bound := ?_, extended := nofun }
  have sum := saturatingAdd_le system.clock system.monitor.timeout
  have start := Nat.le_max_left system.clock system.latest
  rw [kept.timeouts.1] at sum
  simp only [TransitMonitor.begins, kept.timeouts.1]
  exact sum.trans (Nat.add_comm _ _ ▸ Nat.add_le_add_left start timeout)

theorem Kept.receive (receiving : system.monitor.phase = .receiving)
    (taken : system.toMonitor = stamp :: rest) :
    Kept timeout { system with
      toMonitor := rest, monitor := { system.monitor with phase := .judging stamp } } := by
  have same : ({ system with
      toMonitor := rest, monitor := { system.monitor with phase := .judging stamp } } :
      WatchdogSystem).stamps = system.stamps := by
    simp [stamps, receiving, taken, MonitorPhase.stamps]
  exact { kept with
    sorted := same ▸ kept.sorted, past := same ▸ kept.past, bound := kept.bound
    extended := nofun }

/-- The stamp that is judged is not older than those accepted. -/
theorem Kept.latest_le (judging : system.monitor.phase = .judging stamp) :
    system.latest ≤ stamp := by
  have sorted := kept.sorted
  unfold stamps at sorted
  rw [judging] at sorted
  have before := (List.pairwise_append.mp (List.pairwise_append.mp
    (List.pairwise_append.mp sorted).1).1).2.2
  unfold latest
  cases last : (system.accepted.map (·.stamp)).getLast? with
  | none => exact Nat.zero_le _
  | some found => exact before found (List.mem_of_getLast? last) stamp List.mem_cons_self

theorem Kept.accept {stamp : Nat} (judging : system.monitor.phase = .judging stamp)
    (fresh : system.monitor.isFresh stamp system.clock = true) :
    Kept timeout { system with
      monitor := system.monitor.judge stamp system.clock
      accepted := system.accepted ++ [⟨stamp, system.clock⟩] } := by
  have judged : system.monitor.judge stamp system.clock = { system.monitor with
      deadline := max system.monitor.deadline (saturatingAdd stamp system.monitor.timeout)
      phase := .answering stamp } := if_pos fresh
  obtain ⟨notFuture, notOld⟩ := TransitMonitor.isFresh_iff.mp fresh
  have later := kept.latest_le judging
  have sum := saturatingAdd_le stamp timeout
  rw [kept.timeouts.1] at judged notOld
  have newest : ({ system with
      monitor := system.monitor.judge stamp system.clock
      accepted := system.accepted ++ [⟨stamp, system.clock⟩] } : WatchdogSystem).latest = stamp := by
    simp [latest]
  have same : ({ system with
      monitor := system.monitor.judge stamp system.clock
      accepted := system.accepted ++ [⟨stamp, system.clock⟩] } : WatchdogSystem).stamps =
      system.stamps := by
    simp [stamps, judging, judged, MonitorPhase.stamps]
  refine { kept with
    timeouts := ?_, sorted := same ▸ kept.sorted, past := same ▸ kept.past, bound := ?_, fresh := ?_
    extended := ?_ }
  · rw [judged]
    exact kept.timeouts
  · rw [newest, judged]
    have last := Nat.le_max_right system.monitor.start stamp
    have greatest : max system.monitor.start system.latest ≤ max system.monitor.start stamp :=
      Nat.max_le.mpr ⟨Nat.le_max_left _ _, later.trans last⟩
    have before : system.monitor.deadline ≤ timeout + max system.monitor.start stamp :=
      kept.bound.trans (Nat.add_le_add_left greatest timeout)
    have added : saturatingAdd stamp timeout ≤ timeout + max system.monitor.start stamp := by
      omega
    exact Nat.max_le.mpr ⟨before, added⟩
  · intro found member
    rcases mem_concat.mp member with before | last
    · exact kept.fresh found before
    · rw [last]
      exact ⟨notFuture, Nat.lt_of_lt_of_le notOld sum⟩
  · intro answered answering
    rw [judged] at answering ⊢
    obtain rfl := MonitorPhase.answering.inj answering
    exact Nat.le_max_right _ _

theorem Kept.answer (answering : system.monitor.phase = .answering stamp) :
    Kept timeout { system with
      toController := system.toController ++ [stamp]
      acknowledged := system.acknowledged ++ [⟨stamp, system.monitor.deadline⟩]
      monitor := { system.monitor with phase := .checking } } := by
  have moved : Kept timeout { system with monitor := { system.monitor with phase := .checking } } :=
    kept.moves rfl nofun
  have grows {P : Acknowledgement → Prop} (before : ∃ found ∈ system.acknowledged, P found) :
      ∃ found ∈ system.acknowledged ++ [⟨stamp, system.monitor.deadline⟩], P found := by
    obtain ⟨found, member, holds⟩ := before
    exact ⟨found, List.mem_append_left _ member, holds⟩
  refine { moved with
    sorted := moved.sorted, past := moved.past, waits := ?_, echoes := ?_
    known := fun ready => grows (kept.known ready), healthy := ?_ }
  · intro found member
    rcases mem_concat.mp member with before | last
    · exact kept.waits found before
    · rw [last]
      exact kept.extended stamp answering
  · intro echoed member
    rcases mem_concat.mp member with before | last
    · exact grows (kept.echoes echoed before)
    · exact ⟨_, List.mem_append_right _ List.mem_cons_self, last.symm⟩
  · intro poll member healthy
    obtain ⟨now, read, found⟩ := kept.healthy poll member healthy
    exact ⟨now, read, grows found⟩

theorem Kept.monitorStep (step : MonitorStep system next) : Kept timeout next := by
  cases step with
  | begins starting => exact kept.begins starting
  | check _ =>
    unfold TransitMonitor.check
    split
    · exact kept.moves rfl nofun
    · exact kept.moves rfl nofun
  | interrupted _ | unpolled _ | polled _ _ | unreceived _ | unanswered _ | close _ _ =>
    exact kept.moves rfl nofun
  | wake _ =>
    unfold TransitMonitor.wake
    split
    · exact kept.moves rfl nofun
    · split
      · exact kept.moves rfl nofun
      · exact kept.moves rfl nofun
  | receive receiving taken => exact kept.receive receiving taken
  | accept judging fresh => exact kept.accept judging fresh
  | reject judging stale =>
    have judged : system.monitor.judge _ system.clock = { system.monitor with phase := .left } :=
      if_neg (Bool.eq_false_iff.mp stale)
    rw [judged]
    exact kept.moves rfl nofun
  | answer answering => exact kept.answer answering

/-- The controller goes on with its call, or on to the next. -/
theorem Kept.calls {call : WatchdogCall} (none : call.stamps = [])
    (ready : call.IsReady → system.call.IsReady)
    (reading : ∀ now rounds, call = .collecting now rounds →
      system.watchdog.lastAck ≤ now ∧ now ≤ system.clock) :
    Kept timeout { system with call } := by
  have sublist : ({ system with call } : WatchdogSystem).stamps.Sublist system.stamps := by
    unfold stamps
    refine List.Sublist.append (.refl _) ?_
    simp only [none]
    exact List.nil_sublist _
  exact { kept with
    sorted := kept.sorted.sublist sublist
    past := fun stamp member => kept.past stamp (sublist.subset member)
    bound := kept.bound, known := fun given => kept.known (ready given), reading }

theorem Kept.notes {poll : WatchdogPoll}
    (healthy : poll.answer = .ok .healthy → ∃ now, poll.now = some now ∧
      ∃ found ∈ system.acknowledged, found.stamp ≤ now ∧ now < found.stamp + timeout ∧
        now < found.deadline) :
    Kept timeout { system with polls := system.polls ++ [poll] } := by
  refine { kept with
    sorted := kept.sorted, past := kept.past, bound := kept.bound, healthy := ?_ }
  intro found member answer
  rcases mem_concat.mp member with before | last
  · exact kept.healthy found before answer
  · rw [last] at answer ⊢
    exact healthy answer

theorem Kept.drains (taken : system.toController = stamp :: rest) :
    Kept timeout { system with toController := rest } where
  __ := kept
  sorted := kept.sorted
  past := kept.past
  bound := kept.bound
  echoes found member := kept.echoes found (taken ▸ List.mem_cons_of_mem _ member)

theorem Kept.reap (status : Nat) :
    Kept timeout { system with
      watchdog := { system.watchdog with status := some status }
      polls := system.polls ++ [⟨none, TransitWatchdog.ended status⟩] } := by
  have noted : Kept timeout
      { system with polls := system.polls ++ [⟨none, TransitWatchdog.ended status⟩] } :=
    kept.notes fun healthy => absurd healthy (ended_not_healthy status)
  exact { noted with
    timeouts := kept.timeouts, sorted := kept.sorted, past := kept.past, bound := kept.bound }

/-- The first acknowledgement is the one of the first heartbeat. -/
theorem Kept.ready (starting : system.call = .starting)
    (first : system.toController = system.watchdog.lastAck :: rest) :
    Kept timeout { system with toController := rest, call := .idle } := by
  have drained := kept.drains first
  have same : ({ system with toController := rest, call := .idle } : WatchdogSystem).stamps =
      system.stamps := by
    simp only [stamps, starting, WatchdogCall.stamps]
  exact { drained with
    sorted := same ▸ kept.sorted, past := same ▸ kept.past, bound := kept.bound
    known := fun _ => kept.echoes _ (first ▸ List.mem_cons_self), reading := nofun }

theorem Kept.beat (idle : system.call = .idle) :
    Kept timeout { system with call := .beating system.clock } := by
  have longer : ({ system with call := .beating system.clock } : WatchdogSystem).stamps =
      system.stamps ++ [system.clock] := by
    simp [stamps, idle, WatchdogCall.stamps]
  refine { kept with
    sorted := ?_, past := ?_, bound := kept.bound, known := fun _ => kept.known (idle ▸ trivial)
    reading := nofun }
  · rw [longer]
    exact pairwise_concat.mpr ⟨kept.sorted, kept.past⟩
  · intro stamp member
    rw [longer] at member
    rcases mem_concat.mp member with before | last
    · exact kept.past stamp before
    · exact Nat.le_of_eq last

theorem Kept.send (beating : system.call = .beating stamp) :
    Kept timeout { system with toMonitor := system.toMonitor ++ [stamp], call := .idle } := by
  have same : ({ system with toMonitor := system.toMonitor ++ [stamp], call := .idle } :
      WatchdogSystem).stamps = system.stamps := by
    simp [stamps, beating, WatchdogCall.stamps]
  exact { kept with
    sorted := same ▸ kept.sorted, past := same ▸ kept.past, bound := kept.bound
    known := fun _ => kept.known (beating ▸ trivial), reading := nofun }

theorem Kept.acknowledge {now rounds stamp : Nat} {watchdog : TransitWatchdog}
    (collecting : system.call = .collecting now (rounds + 1))
    (taken : system.toController = stamp :: rest)
    (valid : system.watchdog.acknowledge stamp now = .ok watchdog) :
    Kept timeout
      { system with toController := rest, watchdog, call := .collecting now rounds } := by
  unfold TransitWatchdog.acknowledge at valid
  split at valid
  · cases valid
  next notFuture =>
    obtain rfl := Except.ok.inj valid
    obtain ⟨before, past⟩ := kept.reading now (rounds + 1) collecting
    have called : Kept timeout { system with toController := rest, call := .collecting now rounds } :=
      (kept.drains taken).calls rfl (fun _ => collecting ▸ trivial) fun _ _ same => by
        obtain ⟨rfl, rfl⟩ := WatchdogCall.collecting.inj same
        exact ⟨before, past⟩
    have limit := Nat.max_le.mpr ⟨before, Nat.le_of_not_lt notFuture⟩
    refine { called with
      timeouts := kept.timeouts, sorted := called.sorted, past := called.past
      bound := kept.bound, known := fun _ => ?_, earlier := limit.trans past, reading := ?_ }
    · rcases Nat.le_total stamp system.watchdog.lastAck with older | newer
      · simp only [Nat.max_eq_left older]
        exact kept.known (collecting ▸ trivial)
      · simp only [Nat.max_eq_right newer]
        exact kept.echoes stamp (taken ▸ List.mem_cons_self)
    · intro _ _ same
      obtain ⟨rfl, rfl⟩ := WatchdogCall.collecting.inj same
      exact ⟨limit, past⟩

/-- What is taken for healthy was acknowledged with a deadline not yet reached. -/
theorem Kept.verdict {now rounds : Nat} (collecting : system.call = .collecting now rounds)
    (healthy : system.watchdog.verdict now = .healthy) :
    ∃ found ∈ system.acknowledged, found.stamp ≤ now ∧ now < found.stamp + timeout ∧
      now < found.deadline := by
  obtain ⟨found, member, same⟩ := kept.known (collecting ▸ trivial)
  have waits := kept.waits found member
  unfold TransitWatchdog.verdict at healthy
  split at healthy
  · cases healthy
  next soon =>
    rw [← same, kept.timeouts.2, Nat.not_le] at soon
    rw [same] at waits
    refine ⟨found, member, ?_, ?_, ?_⟩
    · rw [same]
      exact (kept.reading now rounds collecting).1
    · exact Nat.lt_of_lt_of_le soon (saturatingAdd_le _ _)
    · rw [same] at soon
      exact Nat.lt_of_lt_of_le soon waits

theorem Kept.controllerStep (step : ControllerStep system next) : Kept timeout next := by
  cases step with
  | ready starting first => exact kept.ready starting first
  | unready starting => exact kept.calls rfl nofun nofun
  | beat idle => exact kept.beat idle
  | send beating => exact kept.send beating
  | unsent beating => exact kept.calls rfl (fun _ => beating ▸ trivial) nofun
  | reap _ _ _ => exact kept.reap _
  | known _ _ => exact kept.notes fun healthy => absurd healthy (ended_not_healthy _)
  | unwaited _ _ _ => exact kept.notes nofun
  | poll idle _ => exact kept.calls rfl (fun _ => idle ▸ trivial) nofun
  | read reading =>
    refine kept.calls rfl (fun _ => reading ▸ trivial) fun now rounds same => ?_
    obtain ⟨rfl, rfl⟩ := WatchdogCall.collecting.inj same
    exact ⟨kept.earlier, Nat.le_refl _⟩
  | acknowledge collecting taken valid => exact kept.acknowledge collecting taken valid
  | invalid collecting taken invalid =>
    have called : Kept timeout { system with toController := _, call := .idle } :=
      (kept.drains taken).calls rfl (fun _ => collecting ▸ trivial) nofun
    exact called.notes nofun
  | interrupted collecting =>
    refine kept.calls rfl (fun _ => collecting ▸ trivial) fun now rounds same => ?_
    obtain ⟨rfl, rfl⟩ := WatchdogCall.collecting.inj same
    exact kept.reading _ _ collecting
  | broken collecting _ =>
    have called : Kept timeout { system with call := .idle } :=
      kept.calls rfl (fun _ => collecting ▸ trivial) nofun
    exact called.notes nofun
  | verdict collecting =>
    have called : Kept timeout { system with call := .idle } :=
      kept.calls rfl (fun _ => collecting ▸ trivial) nofun
    exact called.notes fun healthy => ⟨_, rfl, kept.verdict collecting (Except.ok.inj healthy)⟩

theorem Kept.step (step : Step system next) : Kept timeout next := by
  cases step with
  | monitor step => exact kept.monitorStep step
  | controller step => exact kept.controllerStep step
  | tick later =>
    exact { kept with
      sorted := kept.sorted
      past := fun stamp member => (kept.past stamp member).trans later
      bound := kept.bound, earlier := kept.earlier.trans later
      reading := fun now rounds collecting =>
        ⟨(kept.reading now rounds collecting).1, (kept.reading now rounds collecting).2.trans later⟩ }
  | die _ => exact kept.moves rfl nofun
  | vanish => exact kept.calls rfl nofun nofun

end Steps

theorem Reaches.kept (reached : Reaches (initial timeout sent) system) : Kept timeout system := by
  induction reached with
  | refl => exact kept_initial timeout sent
  | tail _ step ih => exact ih.step step

/-- At its deadline, or once it knows that the controller is gone, the loop is left. -/
theorem MonitorStep.leaves (step : MonitorStep system next)
    (looks : system.monitor.phase.Looks)
    (due : system.monitor.deadline ≤ system.clock ∨
      ∃ readable, system.monitor.phase = .woken readable true) :
    next.monitor.phase = .left := by
  cases step with
  | check checking =>
    rcases due with late | ⟨readable, woken⟩
    · exact if_pos late
    · rw [checking] at woken
      cases woken
  | wake woken =>
    refine if_pos (Bool.or_eq_true_iff.mpr ?_)
    rcases due with late | ⟨readable, gone⟩
    · exact .inr (decide_eq_true late)
    · rw [woken] at gone
      exact .inl (MonitorPhase.woken.inj gone).2
  | begins phase | interrupted phase | unpolled phase | polled phase _ | receive phase _
  | unreceived phase | accept phase _ | reject phase _ | answer phase | unanswered phase
  | close phase _ => simp only [phase, MonitorPhase.Looks] at looks

/-- A poll of the monitor that returns after the controller is gone tells so. -/
theorem MonitorStep.polled_gone (step : MonitorStep system next)
    (woken : next.monitor.phase = .woken readable hangup) : hangup = system.call.isGone := by
  cases step with
  | polled _ found => exact (MonitorPhase.woken.inj woken).2.symm
  | check _ =>
    unfold TransitMonitor.check at woken
    dsimp only at woken
    split at woken <;> cases woken
  | wake _ =>
    unfold TransitMonitor.wake at woken
    dsimp only at woken
    split at woken
    · cases woken
    · split at woken <;> cases woken
  | accept _ _ | reject _ _ =>
    unfold TransitMonitor.judge at woken
    split at woken <;> cases woken
  | begins | interrupted | unpolled | receive | unreceived | answer | unanswered | close =>
    cases woken

/-- When the monitor has read the clock and is still in its loop, its deadline is ahead. -/
theorem MonitorStep.ahead (step : MonitorStep system next)
    (reads : system.monitor.phase.Looks ∨ ∃ stamp, system.monitor.phase = .judging stamp)
    (stays : next.monitor.phase.InLoop) : system.clock < next.monitor.deadline := by
  cases step with
  | check _ =>
    unfold TransitMonitor.check at stays ⊢
    dsimp only at stays ⊢
    split at stays
    · exact stays.elim
    next early => exact Nat.lt_of_not_le early
  | wake _ =>
    unfold TransitMonitor.wake at stays ⊢
    dsimp only at stays ⊢
    split at stays
    · exact stays.elim
    next early =>
      rw [Bool.or_eq_true, decide_eq_true_eq, not_or] at early
      exact Nat.lt_of_not_le early.2
  | accept _ fresh =>
    rw [TransitMonitor.judge, if_pos fresh]
    exact Nat.lt_of_lt_of_le (TransitMonitor.isFresh_iff.mp fresh).2 (Nat.le_max_right _ _)
  | reject _ stale =>
    rw [TransitMonitor.judge, if_neg (Bool.eq_false_iff.mp stale)] at stays
    exact stays.elim
  | begins phase | interrupted phase | unpolled phase | polled phase _ | receive phase _
  | unreceived phase | answer phase | unanswered phase | close phase _ =>
    rw [phase] at reads
    rcases reads with looks | ⟨stamp, judging⟩
    · exact looks.elim
    · cases judging

/-- The monitor waits at most the timeout from its start or from the last stamp it accepted, which
was fresh when it was read; it leaves its loop once it sees that the deadline has come or the
controller is gone; and a poll that finds it healthy read a time within the timeout of an
acknowledged stamp, before the deadline then set. -/
theorem watchdog_lease (reached : Reaches (initial timeout sent) system) :
    system.monitor.deadline ≤ timeout + max system.monitor.start system.latest ∧
    (∀ found ∈ system.accepted,
      found.stamp ≤ found.read ∧ found.read < found.stamp + timeout) ∧
    (∀ next, MonitorStep system next → system.monitor.phase.Looks →
      (system.monitor.deadline ≤ system.clock ∨
        ∃ readable, system.monitor.phase = .woken readable true) →
      next.monitor.phase = .left) ∧
    (∀ next readable hangup, MonitorStep system next →
      next.monitor.phase = .woken readable hangup → hangup = system.call.isGone) ∧
    (∀ next, MonitorStep system next →
      (system.monitor.phase.Looks ∨ ∃ stamp, system.monitor.phase = .judging stamp) →
      next.monitor.phase.InLoop → system.clock < next.monitor.deadline) ∧
    (∀ poll ∈ system.polls, poll.answer = .ok .healthy → ∃ now, poll.now = some now ∧
      ∃ found ∈ system.acknowledged, found.stamp ≤ now ∧ now < found.stamp + timeout ∧
        now < found.deadline) := by
  have kept := reached.kept
  exact ⟨kept.bound, kept.fresh, fun _ step => step.leaves, fun _ _ _ step => step.polled_gone,
    fun _ step => step.ahead, kept.healthy⟩

theorem first_heartbeat_leased :
    ∃ system, Reaches (initial 100 5) system ∧ system.polls = [⟨some 7, .ok .healthy⟩] ∧
      ∃ found ∈ system.acknowledged, found.stamp ≤ 7 ∧ 7 < found.stamp + 100 ∧
        7 < found.deadline := by
  have started : Reaches (initial 100 5) _ := .tail .refl (.monitor (.begins rfl))
  have checked := started.tail (.monitor (.check rfl))
  have polled := checked.tail (.monitor (.polled rfl true))
  have woken := polled.tail (.monitor (.wake rfl))
  have received := woken.tail (.monitor (.receive rfl rfl))
  have accepted := received.tail (.monitor (.accept rfl (by decide)))
  have answered := accepted.tail (.monitor (.answer rfl))
  have ready := answered.tail (.controller (.ready rfl rfl))
  have later := ready.tail (.tick (by decide : 5 ≤ 7))
  have read := (later.tail (.controller (.poll rfl rfl))).tail (.controller (.read rfl))
  have judged := read.tail (.controller (.verdict rfl))
  obtain ⟨_, _, _, _, _, healthy⟩ := watchdog_lease judged
  obtain ⟨now, same, found⟩ := healthy _ List.mem_cons_self rfl
  obtain rfl := Option.some.inj same
  exact ⟨_, judged, rfl, found⟩

/-- A stamp that was taken before the deadline and is judged at it extends the lease. -/
theorem judged_at_deadline :
    ∃ system next, Reaches (initial 100 5) system ∧ MonitorStep system next ∧
      system.monitor.deadline = system.clock ∧ next.monitor.phase.InLoop ∧
      next.monitor.deadline = 150 := by
  have started : Reaches (initial 100 5) _ := .tail .refl (.monitor (.begins rfl))
  have checked := started.tail (.monitor (.check rfl))
  have woken := (checked.tail (.monitor (.polled rfl true))).tail (.monitor (.wake rfl))
  have received := woken.tail (.monitor (.receive rfl rfl))
  have accepted := received.tail (.monitor (.accept rfl (by decide)))
  have ready := (accepted.tail (.monitor (.answer rfl))).tail (.controller (.ready rfl rfl))
  have sent := ((ready.tail (.tick (by decide : 5 ≤ 50))).tail (.controller (.beat rfl))).tail
    (.controller (.send rfl))
  have later := (sent.tail (.tick (by decide : 50 ≤ 104))).tail (.monitor (.check rfl))
  have again := (later.tail (.monitor (.polled rfl true))).tail (.monitor (.wake rfl))
  have judging := (again.tail (.monitor (.receive rfl rfl))).tail (.tick (by decide : 104 ≤ 105))
  exact ⟨_, _, judging, .accept rfl (by decide), rfl, trivial, rfl⟩

end WatchdogSystem

end Kakoi
