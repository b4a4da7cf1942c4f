import Kakoi.Runtime.Init

/-! How init accounts for its main command: the last end reported is the result it finishes with.
-/

namespace Kakoi

/-- What init was told of its main command and said about it. -/
structure MainWatch where
  main : Option Nat := none
  /-- A process with the command's number was reaped. -/
  gone : Bool := false
  /-- The ends of such processes that init takes for the command's. -/
  seen : List Nat := []
  reports : List MainOutcome := []
  supervising : Bool := false
  childless : Bool := false
  finished : Option MainOutcome := none

/-- An end the wait takes for the command's: one that died before its execution was confirmed
is a failed start. -/
def WaitCall.counts (call : WaitCall) (status : Nat) : Bool :=
  match call with
  | .child _ => wifexited status
  | .any => true
  | .release => false

namespace MainWatch

def reaped (watch : MainWatch) (call : WaitCall) (pid status : Nat) : MainWatch :=
  if watch.main = some pid then
    { watch with
      gone := true
      seen := if call.counts status then watch.seen ++ [status] else watch.seen }
  else watch

def waited (watch : MainWatch) (call : WaitCall) (answer : Waited) : MainWatch :=
  let watch := { watch with supervising := watch.supervising || call = .any }
  match answer with
  | .child pid status => watch.reaped call pid status
  | .noChildren => { watch with childless := watch.childless || call = .any }
  | _ => watch

def spawned (watch : MainWatch) : Except String Nat → MainWatch
  | .ok pid => { watch with main := some pid }
  | .error _ => watch

def said (watch : MainWatch) : InitReply → MainWatch
  | .main outcome => { watch with reports := watch.reports ++ [outcome] }
  | .finished outcome => { watch with finished := some outcome.main }
  | _ => watch

/-- Everything seen was reported. -/
def Reported (watch : MainWatch) : Prop := watch.reports = watch.seen.map mainStatus

def lastSeen (watch : MainWatch) : MainOutcome := (watch.seen.getLast?.map mainStatus).getD .unknown

/-- What may be asked next. -/
def Allows (watch : MainWatch) : InitOp → Prop
  | .spawn => watch.main = none
  | .wait (.child pid) => watch.main = some pid ∧ watch.gone = false
  | .wait .any => watch.main.isSome ∧ (watch.gone = true → watch.seen ≠ []) ∧ watch.Reported
  | .send (.main outcome) => watch.reports ++ [outcome] = watch.seen.map mainStatus
  | .send (.finished outcome) =>
    watch.childless = true ∧ watch.Reported ∧ outcome.main = watch.lastSeen
  | _ => True

end MainWatch

/-- The command is started once and waited for until it ends; init asks nothing more once it
sent how the run finished. -/
def initUse : Monitor InitOp InitOp.Answer MainWatch where
  allowed watch op := watch.finished = none ∧ watch.Allows op
  update watch
    | .spawn, answer => watch.spawned answer
    | .wait call, answer => watch.waited call answer
    | .send reply, _ => watch.said reply
    | _, _ => watch

/-- How init may end. -/
def MainWatch.Settled (watch : MainWatch) : Prop := watch.supervising = true → watch.Reported

section Functions

variable {watch : MainWatch} {loop : Supervised}

/-- What a release may do to what is known of the command. -/
def Released (watch after : MainWatch) : Prop :=
  after = watch ∨ watch.main.isSome = true ∧ after = { watch with gone := true }

theorem Released.refl (watch : MainWatch) : Released watch watch := .inl rfl

theorem Released.trans (first : Released watch middle) (second : Released middle after) :
    Released watch after := by
  rcases first with rfl | ⟨started, rfl⟩
  · exact second
  · rcases second with rfl | ⟨-, rfl⟩
    · exact .inr ⟨started, rfl⟩
    · exact .inr ⟨started, rfl⟩

theorem released_waited (answer : Waited) : Released watch (watch.waited .release answer) := by
  cases answer with
  | child pid status =>
    simp only [MainWatch.waited, MainWatch.reaped, WaitCall.counts]
    split
    · rename_i same
      have started : watch.main = some pid := same
      exact .inr ⟨by rw [started]; rfl, by simp⟩
    · exact .inl (by simp)
  | none | noChildren | interrupted | failed error =>
    exact .inl (by simp [MainWatch.waited])

theorem Released.unfinished (released : Released watch after) (running : watch.finished = none) :
    after.finished = none := by
  rcases released with rfl | ⟨-, rfl⟩ <;> exact running

theorem reapBeforeRelease_released (count : Nat) (running : watch.finished = none) :
    initUse.Keeps (fun after _ => Released watch after) watch (reapBeforeRelease count).run := by
  refine ⟨⟨running, trivial⟩, fun _ => ?_⟩
  refine Monitor.Keeps.tryRounds (fun after _ => Released watch after) ?_ ?_ count (.refl watch)
  · intro state loop released
    refine ⟨⟨released.unfinished running, trivial⟩, fun answer => ?_⟩
    have next := released.trans (released_waited answer)
    cases (answer : Waited) with
    | child pid status | none | noChildren | interrupted | failed error => exact next
  · exact fun state loop released => released

/-- What is known once the command was started. -/
def startedWatch (pid : Nat) : MainWatch := { main := some pid }

/-- What is known once it ended while its execution was confirmed. -/
def endedEarly (pid status : Nat) : MainWatch :=
  { main := some pid, gone := true, seen := [status] }

/-- How the confirmation leaves what is known of the command. -/
def Confirmed (pid : Nat) (after : MainWatch) : Except StartError (Option Nat) → Prop
  | .error _ => after.finished = none ∧ after.supervising = false
  | .ok none => after = startedWatch pid
  | .ok (some status) => after = endedEarly pid status

theorem confirmPoll_confirmed :
    initUse.Keeps (fun after => Monitor.Ends (fun _ => after.supervising = false)
        (Sum.elim (fun _ => after = startedWatch pid) (Confirmed pid after)))
      (startedWatch pid) confirmRound.confirmPoll.run := by
  refine ⟨⟨rfl, trivial⟩, fun answer => ?_⟩
  cases (answer : Except String Bool) with
  | error error => exact ⟨rfl, rfl⟩
  | ok lost =>
    cases lost with
    | true => exact ⟨rfl, rfl⟩
    | false => exact ⟨⟨rfl, trivial⟩, fun _ => rfl⟩

theorem startedWatch_waited (waited status : Nat) :
    (startedWatch pid).waited (.child pid) (.child waited status) =
      if waited = pid then
        if wifexited status then endedEarly pid status else { startedWatch pid with gone := true }
      else startedWatch pid := by
  by_cases same : waited = pid
  · subst same
    cases exited : wifexited status <;>
      simp [MainWatch.waited, MainWatch.reaped, WaitCall.counts, startedWatch, endedEarly, exited]
  · have other : ¬ some pid = some waited := fun equal => same (Option.some.inj equal).symm
    simp [MainWatch.waited, MainWatch.reaped, startedWatch, same, other]

theorem confirmWait_confirmed :
    initUse.Keeps (fun after => Monitor.Ends (fun _ => after.supervising = false)
        (Sum.elim (fun _ => after = startedWatch pid) (Confirmed pid after)))
      (startedWatch pid) (confirmRound.confirmWait pid).run := by
  refine ⟨⟨rfl, rfl, rfl⟩, fun answer => ?_⟩
  cases (answer : Waited) with
  | child waited status =>
    change initUse.Keeps _ ((startedWatch pid).waited (.child pid) (.child waited status))
      (if waited = pid then (if wifexited status then _ else _) else _)
    rw [startedWatch_waited]
    split
    · split
      · exact rfl
      · exact ⟨rfl, rfl⟩
    · exact confirmPoll_confirmed
  | noChildren => exact ⟨rfl, rfl⟩
  | failed error => exact ⟨rfl, rfl⟩
  | interrupted | none => exact confirmPoll_confirmed

theorem confirmExec_confirmed (count : Nat) :
    initUse.Keeps (fun after => Monitor.Ends (fun _ => after.supervising = false)
      (Confirmed pid after)) (startedWatch pid) (confirmExec count pid).run := by
  refine ⟨⟨rfl, trivial⟩, fun answer => ?_⟩
  cases (answer : Except String Nat) with
  | error error => exact ⟨rfl, rfl⟩
  | ok identity =>
    refine Monitor.Keeps.tryRounds (fun after _ => after = startedWatch pid) ?_ ?_ count rfl
    · rintro _ loop rfl
      refine ⟨⟨rfl, trivial⟩, fun answer => ?_⟩
      cases (answer : Except String Nat) with
      | error error => exact confirmWait_confirmed
      | ok other =>
        change initUse.Keeps _ _ (if other ≠ identity then _ else _)
        split
        · exact rfl
        · exact confirmWait_confirmed
    · rintro _ loop rfl
      exact rfl

/-- A report, with the wait for its acknowledgement. -/
theorem retainMain_reported (running : watch.finished = none)
    (next : watch.reports ++ [main] = watch.seen.map mainStatus) :
    initUse.Keeps (fun after _ => after = { watch with reports := watch.reports ++ [main] })
      watch (retainMain count main).run := by
  refine ⟨⟨running, next⟩, fun answer => ?_⟩
  cases (answer : Except String Unit) with
  | error error => exact rfl
  | ok _ =>
    refine Monitor.Keeps.tryRounds
      (fun after _ => after = { watch with reports := watch.reports ++ [main] }) ?_ ?_ count rfl
    · rintro _ stopped rfl
      refine ⟨⟨running, trivial⟩, fun answer => ?_⟩
      cases (answer : Except String (InitControl × Bool)) with
      | error error => exact rfl
      | ok message =>
        obtain ⟨reply, descriptors⟩ := message
        cases descriptors with
        | true => exact rfl
        | false => cases reply <;> exact rfl
    · exact fun _ _ same => same

/-- What the loop's variables say while init waits for any child. -/
structure Supervising (pid : Nat) (watch : MainWatch) (loop : Supervised) : Prop where
  started : watch.main = some pid
  running : watch.finished = none
  gone : watch.gone = true → watch.seen ≠ []
  reported : watch.Reported
  main : loop.main = watch.lastSeen

theorem beginStopping_same (running : watch.finished = none) (same : loop.main = main) :
    initUse.Keeps (fun after => Monitor.Ends (fun _ => after.Settled) fun next : Supervised =>
        after = watch ∧ next.main = main) watch loop.beginStopping.run := by
  unfold Supervised.beginStopping
  split
  · exact ⟨rfl, same⟩
  · exact ⟨⟨running, trivial⟩, fun _ => ⟨⟨running, trivial⟩, fun _ => ⟨rfl, same⟩⟩⟩

theorem watchControl_same (running : watch.finished = none) (reported : watch.Reported) :
    initUse.Keeps (fun after => Monitor.Ends (fun _ => after.Settled) fun next : Supervised =>
        after = watch ∧ next.main = loop.main) watch loop.watchControl.run := by
  unfold Supervised.watchControl
  split
  · exact ⟨rfl, rfl⟩
  · refine ⟨⟨running, trivial⟩, fun answer => ?_⟩
    cases (answer : Except String Bool) with
    | error error => exact fun _ => reported
    | ok readable =>
      cases readable with
      | false => exact ⟨rfl, rfl⟩
      | true =>
        refine ⟨⟨running, trivial⟩, fun answer => ?_⟩
        cases (answer : Except String (InitControl × Bool)) with
        | error error => exact beginStopping_same running rfl
        | ok message =>
          obtain ⟨control, descriptors⟩ := message
          cases control <;> cases descriptors <;> exact beginStopping_same running rfl

theorem now_same (running : watch.finished = none) :
    initUse.Keeps (fun after => Monitor.Ends (fun _ => after.Settled) fun _ : Instant =>
      after = watch) watch InitWork.now.run :=
  ⟨⟨running, trivial⟩, fun _ => rfl⟩

theorem watchGrace_same (running : watch.finished = none) (reported : watch.Reported)
    (graceMs : Nat) :
    initUse.Keeps (fun after => Monitor.Ends (fun _ => after.Settled) fun next : Supervised =>
        after = watch ∧ next.main = loop.main) watch (loop.watchGrace graceMs).run := by
  unfold Supervised.watchGrace
  split
  · exact ⟨rfl, rfl⟩
  · rename_i start stopping
    have killing : initUse.Keeps (fun after => Monitor.Ends (fun _ => after.Settled)
        fun next : Supervised => after = watch ∧ next.main = loop.main) watch
        (Supervised.watchGrace.killAfter graceMs start loop).run := by
      unfold Supervised.watchGrace.killAfter
      split
      · exact ⟨rfl, rfl⟩
      · refine (now_same running).bindExcept ?_ fun _ _ settled => settled
        rintro _ now rfl
        split
        · exact ⟨⟨running, trivial⟩, fun _ => ⟨rfl, rfl⟩⟩
        · exact ⟨rfl, rfl⟩
    refine killing.bindExcept ?_ fun _ _ settled => settled
    rintro _ next ⟨rfl, same⟩
    exact ⟨⟨running, trivial⟩, fun _ => ⟨rfl, same⟩⟩

/-- A wait that reaps another process, or none, keeps what is known. -/
theorem Supervising.other {answer : Waited} (supervising : Supervising pid watch loop)
    (other : ∀ status, answer ≠ .child pid status) :
    Supervising pid (watch.waited .any answer) loop := by
  obtain ⟨started, running, gone, reported, main⟩ := supervising
  cases answer with
  | child waited status =>
    have different : ¬ some pid = some waited :=
      fun same => other status (by rw [Option.some.inj same])
    have same : watch.waited .any (.child waited status) = { watch with supervising := true } := by
      simp [MainWatch.waited, MainWatch.reaped, started, different]
    rw [same]
    exact ⟨started, running, gone, reported, main⟩
  | none | noChildren | interrupted | failed error => exact ⟨started, running, gone, reported, main⟩

/-- The main command's number was reaped: its end is seen and not yet reported. -/
theorem waited_main (started : watch.main = some pid) (status : Nat) :
    watch.waited .any (.child pid status) =
      { watch with supervising := true, gone := true, seen := watch.seen ++ [status] } := by
  simp [MainWatch.waited, MainWatch.reaped, started, WaitCall.counts]

theorem mainEnded_supervising (supervising : Supervising pid watch loop) (status : Nat) :
    initUse.Keeps (fun after => Monitor.Ends (fun _ => after.Settled) (Supervising pid after))
      (watch.waited .any (.child pid status)) (loop.mainEnded count status).run := by
  obtain ⟨started, running, gone, reported, main⟩ := supervising
  have next : watch.reports ++ [mainStatus status] =
      (watch.seen ++ [status]).map mainStatus := by
    rw [List.map_append, ← show watch.reports = _ from reported]
    rfl
  rw [waited_main started]
  have told : initUse.Keeps _ { watch with
      supervising := true, gone := true, seen := watch.seen ++ [status] }
      (retainMain count (mainStatus status)).run := retainMain_reported running next
  refine told.bindExcept ?_ ?_
  · rintro _ stopped rfl
    refine (beginStopping_same (by exact running) rfl).mono ?_
    intro after result reached
    cases result with
    | error error => exact reached
    | ok ended =>
      obtain ⟨rfl, same⟩ := reached
      refine ⟨started, running, fun _ => ?_, next, ?_⟩
      · simp
      · rw [same]
        simp [MainWatch.lastSeen]
  · rintro _ error rfl
    exact fun _ => next

theorem round_supervising (supervising : Supervising pid watch loop) (graceMs : Nat) :
    initUse.Keeps (fun after => Monitor.Ends (fun _ => after.Settled)
        (Sum.elim (Supervising pid after) fun _ => after.Settled)) watch
      (loop.round count pid graceMs).run := by
  refine ⟨⟨supervising.running, by rw [supervising.started]; rfl, supervising.gone,
    supervising.reported⟩, fun answer => ?_⟩
  cases shape : (answer : Waited) with
  | child waited status =>
    change initUse.Keeps _ (watch.waited .any (.child waited status))
      (if waited = pid then _ else _)
    split
    · rename_i same
      subst same
      refine (mainEnded_supervising supervising status).bindExcept ?_ fun _ _ settled => settled
      exact fun _ _ reached => reached
    · rename_i different
      exact supervising.other fun status same => different (Waited.child.inj same).1
  | noChildren =>
    have known : Supervising pid (watch.waited .any .noChildren) loop := supervising.other nofun
    refine ⟨⟨known.running, Bool.or_true _, known.reported, known.main⟩, fun answer => ?_⟩
    cases (answer : Except String Unit) with
    | error error => exact fun _ => known.reported
    | ok _ => exact fun _ => known.reported
  | failed error =>
    have known : Supervising pid (watch.waited .any (.failed error)) loop :=
      supervising.other nofun
    exact fun _ => known.reported
  | interrupted | none =>
    have known : Supervising pid { watch with supervising := watch.supervising || true } loop :=
      ⟨supervising.started, supervising.running, supervising.gone, supervising.reported,
        supervising.main⟩
    refine (watchControl_same known.running known.reported).bindExcept ?_ fun _ _ settled => settled
    rintro _ next ⟨rfl, same⟩
    refine (watchGrace_same known.running known.reported graceMs).bindExcept ?_
      fun _ _ settled => settled
    rintro _ last ⟨rfl, same'⟩
    exact { known with main := same'.trans (same.trans known.main) }

/-- The early end is reported before the loop starts. -/
theorem startSupervised_supervising (confirmed : Confirmed pid watch (.ok early)) :
    initUse.Keeps (fun after => Monitor.Ends (fun _ => after.Settled) (Supervising pid after))
      watch (startSupervised count early).run := by
  cases early with
  | none =>
    have same : watch = startedWatch pid := confirmed
    rw [same]
    exact ⟨rfl, rfl, nofun, rfl, rfl⟩
  | some status =>
    have same : watch = endedEarly pid status := confirmed
    have told : initUse.Keeps _ (endedEarly pid status)
        (retainMain count (mainStatus status)).run := retainMain_reported rfl rfl
    rw [same]
    refine told.bindExcept ?_ ?_
    · rintro _ stopped rfl
      refine (beginStopping_same rfl rfl).mono ?_
      intro after result reached
      cases result with
      | error error => exact reached
      | ok loop =>
        obtain ⟨rfl, same⟩ := reached
        exact ⟨rfl, rfl, fun _ => List.cons_ne_nil _ _, rfl, same⟩
    · rintro _ error rfl
      exact nofun

theorem MainWatch.settled_of_idle (idle : watch.supervising = false) : watch.Settled :=
  fun supervising => nomatch idle.symm.trans supervising

theorem Released.idle (released : Released watch after) (idle : watch.supervising = false) :
    after.supervising = false := by
  rcases released with rfl | ⟨-, rfl⟩ <;> exact idle

theorem Confirmed.idle (confirmed : Confirmed pid watch (.ok early)) :
    watch.finished = none ∧ watch.supervising = false := by
  cases early with
  | none =>
    have same : watch = startedWatch pid := confirmed
    rw [same]
    exact ⟨rfl, rfl⟩
  | some status =>
    have same : watch = endedEarly pid status := confirmed
    rw [same]
    exact ⟨rfl, rfl⟩

/-- Saying that the start failed says nothing of a result. -/
theorem failed_settled (running : watch.finished = none) (idle : watch.supervising = false) :
    initUse.Keeps (fun after _ => after.Settled) watch (InitWork.send (.failed error)).run := by
  refine ⟨⟨running, trivial⟩, fun answer => ?_⟩
  cases (answer : Except String Unit) <;> exact MainWatch.settled_of_idle idle

theorem superviseMain_settled (count graceMs : Nat) :
    initUse.Keeps (fun after _ => after.Settled) (startedWatch pid)
      (superviseMain count pid graceMs).run := by
  refine (confirmExec_confirmed count).bindExcept ?_ ?_
  · intro watch result confirmed
    cases result with
    | error error =>
      obtain ⟨running, idle⟩ : watch.finished = none ∧ watch.supervising = false := confirmed
      refine (reapBeforeRelease_released count running).bindExcept ?_ ?_
      · exact fun after _ released =>
          failed_settled (released.unfinished running) (released.idle idle)
      · exact fun after _ released => MainWatch.settled_of_idle (released.idle idle)
    | ok early =>
      obtain ⟨running, idle⟩ := Confirmed.idle confirmed
      refine ⟨⟨running, trivial⟩, fun answer => ?_⟩
      cases (answer : Except String Unit) with
      | error error => exact MainWatch.settled_of_idle idle
      | ok _ =>
        refine (startSupervised_supervising confirmed).bindExcept ?_ fun _ _ settled => settled
        intro after loop supervising
        refine Monitor.Keeps.tryRounds (Supervising pid) ?_ ?_ count supervising
        · exact fun _ _ supervising => round_supervising supervising graceMs
        · exact fun _ _ supervising _ => supervising.reported
  · exact fun watch error idle => MainWatch.settled_of_idle idle

/-- Nothing is known of a command that was not started. -/
theorem Released.unstarted (released : Released {} after) : after = {} := by
  rcases released with rfl | ⟨started, -⟩
  · rfl
  · cases started

theorem probeGuards_unstarted (guards : List Path) :
    initUse.Keeps (fun after _ => after = {}) {} (probeGuards count guards).run := by
  induction guards with
  | nil => exact rfl
  | cons guard guards ih =>
    refine ⟨⟨rfl, trivial⟩, fun confirmed => ?_⟩
    have reaping : initUse.Keeps (fun after _ => after = {}) {} (probeGuards.reapGuard count).run := by
      refine (reapBeforeRelease_released count rfl).bind ?_
      intro after result released
      cases result with
      | ok _ => exact released.unstarted
      | error stopped => cases stopped <;> exact released.unstarted
    refine reaping.bindExcept ?_ fun _ _ same => same
    rintro _ reaped rfl
    cases reaped with
    | error error => exact rfl
    | ok _ =>
      cases (confirmed : Except String Unit) with
      | error error => exact rfl
      | ok _ => exact ih

theorem readiness_unstarted (request : InitRequest) :
    initUse.Keeps (fun after _ => after = {}) {} (readiness count request).run := by
  unfold readiness
  split
  · refine ⟨⟨rfl, trivial⟩, fun answer => ?_⟩
    cases (answer : Except String Unit) with
    | error error => exact rfl
    | ok _ => exact probeGuards_unstarted request.guards
  · exact probeGuards_unstarted request.guards

/-- What init asks, whatever it is answered. -/
theorem init_settled (count : Nat) :
    initUse.Keeps (fun after _ => after.Settled) {} (init count).run := by
  refine ⟨⟨rfl, trivial⟩, fun answer => ?_⟩
  cases (answer : Except String (InitRequest × Bool)) with
  | error error => exact nofun
  | ok received =>
    obtain ⟨request, descriptors⟩ := received
    cases descriptors with
    | true => exact nofun
    | false =>
      refine ⟨⟨rfl, trivial⟩, fun answer => ?_⟩
      cases (answer : Except String Unit) with
      | error error => exact nofun
      | ok _ =>
        refine (reapBeforeRelease_released count rfl).bindExcept ?_ ?_
        · intro after _ released
          rw [released.unstarted]
          refine ⟨⟨rfl, trivial⟩, fun answer => ?_⟩
          cases (answer : Except String Unit) with
          | error cause => exact failed_settled rfl rfl
          | ok _ =>
            refine (readiness_unstarted request).bindExcept ?_ ?_
            · rintro _ ready rfl
              cases ready with
              | error cause => exact failed_settled rfl rfl
              | ok _ =>
                refine ⟨⟨rfl, rfl⟩, fun answer => ?_⟩
                cases (answer : Except String Nat) with
                | error cause => exact failed_settled rfl rfl
                | ok pid => exact superviseMain_settled count request.graceMs
            · rintro _ error rfl
              exact nofun
        · intro after error released
          rw [released.unstarted]
          exact nofun

end Functions

end Kakoi
