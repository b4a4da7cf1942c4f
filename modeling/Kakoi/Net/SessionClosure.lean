import Kakoi.Base.Collecting
import Kakoi.Net.SessionUse
import Mathlib.Logic.Relation

/-! The session with its rebuild thread, one operation at a time: isolated means behind a
confirmed closure, and shutdown is final. -/

namespace Kakoi

/-- Who started an operation on the gate. -/
inductive Actor where
  | session
  | rebuild
  deriving DecidableEq

structure GateEntry where
  actor : Actor
  op : GateOp
  confirmed : Bool

def GateOp.closes : GateOp → Bool
  | .closeUntil _ => true
  | _ => false

/-- A rebuild's thread; its work is gone when it panicked. -/
structure RebuildThread where
  handle : Nat
  work : Option (RebuildWork Rebuilt)
  cancelled : Bool := false

/-- A call that its owner makes on the session. -/
inductive SessionCall where
  | activate
  | poll
  | closeUntil (deadline : Instant)

def SessionCall.program (session : Session) : SessionCall → SessionWork Called
  | .activate => session.activate
  | .poll => session.poll
  | .closeUntil deadline => do
    let (result, closed) ← session.closeUntil deadline
    return .returned result closed

/-- The session between calls or in one, the rebuild threads, the transport that one of them
owns, and the operations started on the gate. -/
structure SessionSystem where
  session : Session
  call : Option (SessionWork Called) := none
  transport : Transport := {}
  threads : List RebuildThread := []
  log : List GateEntry := []
  rebuildsStarted : Nat := 0

/-- What is asked without any effect here. -/
def SessionOp.looks : SessionOp → Bool
  | .transport _ | .rebuildStart .. | .rebuildCancel _ | .rebuildFinished _ | .rebuildJoin _ =>
    false
  | _ => true

def RebuildThread.isFinished (thread : RebuildThread) : Bool :=
  match thread.work with
  | some (.ask ..) => false
  | _ => true

namespace SessionSystem

/-- A call of the transport, when the gate gives `answer`. -/
def gate (system : SessionSystem) (actor : Actor) (op : GateOp) (answer : Except String Unit) :
    SessionSystem :=
  let call := system.transport.call op answer
  { system with
    transport := call.transport
    log := system.log ++ call.started.toList.map fun op =>
      { actor, op, confirmed := call.answer.isOk } }

/-- The answers that the session may get, and what they come with. -/
inductive Answers (script : String) (system : SessionSystem) :
    (op : SessionOp) → op.Answer → SessionSystem → Prop where
  | look (op : SessionOp) (looks : op.looks = true) (answer : op.Answer) :
      Answers script system op answer system
  | gate (op : GateOp) (answer : Except String Unit) :
      Answers script system (.transport op) (system.transport.call op answer).answer
        (system.gate .session op answer)
  | started (attempt : Attempt) (retiredGuards : List String) (handle : Nat)
      (fresh : ∀ thread ∈ system.threads, thread.handle ≠ handle) :
      Answers script system (.rebuildStart attempt retiredGuards) (Except.ok handle : Except String Nat)
        { system with
          threads := system.threads ++
            [{ handle, work := some (Rebuild.work script attempt retiredGuards) }]
          rebuildsStarted := system.rebuildsStarted + 1 }
  | notStarted (attempt : Attempt) (retiredGuards : List String) (error : String) :
      Answers script system (.rebuildStart attempt retiredGuards)
        (Except.error error : Except String Nat) system
  | cancelled (handle : Nat) :
      Answers script system (.rebuildCancel handle) ()
        { system with threads := system.threads.map fun thread =>
            if thread.handle = handle then { thread with cancelled := true } else thread }
  | finished (thread : RebuildThread) (member : thread ∈ system.threads) :
      Answers script system (.rebuildFinished thread.handle) thread.isFinished system
  | joined (thread : RebuildThread) (member : thread ∈ system.threads) (rebuilt : Rebuilt)
      (done : thread.work = some (.done rebuilt)) :
      Answers script system (.rebuildJoin thread.handle)
        (Except.ok rebuilt : Except String Rebuilt)
        { system with threads := system.threads.eraseP (·.handle = thread.handle) }
  | lost (thread : RebuildThread) (member : thread ∈ system.threads)
      (panicked : thread.work = none) :
      Answers script system (.rebuildJoin thread.handle)
        (Except.error "network recovery worker panicked" : Except String Rebuilt)
        { system with threads := system.threads.eraseP (·.handle = thread.handle) }

/-- The answers that a rebuild's thread may get. -/
inductive RebuildAnswers (thread : RebuildThread) (system : SessionSystem) :
    (op : RebuildOp) → op.Answer → SessionSystem → Prop where
  | gate (op : GateOp) (answer : Except String Unit) :
      RebuildAnswers thread system (.transport op) (system.transport.call op answer).answer
        (system.gate .rebuild op answer)
  | isCancelled : RebuildAnswers thread system .isCancelled thread.cancelled system
  | now (time : Instant) : RebuildAnswers thread system .now time system
  | apply (script : String) (deadline : Instant) (answer : Except String Unit) :
      RebuildAnswers thread system (.apply script deadline) answer system
  | pastaStart (stage : PastaStage) (time : Duration) (answer : Except String Unit) :
      RebuildAnswers thread system (.pastaStart stage time) answer system
  | dnsStart (answer : Except String Unit) :
      RebuildAnswers thread system .dnsStart answer system

/-- The thread at `index` goes on with `work`. -/
def setWork (system : SessionSystem) (index : Nat) (thread : RebuildThread)
    (work : Option (RebuildWork Rebuilt)) : SessionSystem :=
  { system with threads := system.threads.set index { thread with work } }

/-- One step of the session's owner, of a call, or of a rebuild's thread. -/
inductive Step (script : String) (system : SessionSystem) : SessionSystem → Prop where
  | begin (call : SessionCall) (idle : system.call = none) :
      Step script system { system with call := some (call.program system.session) }
  | ask {op : SessionOp} {next : op.Answer → SessionWork Called} {answer : op.Answer}
      {after : SessionSystem} (asking : system.call = some (.ask op next))
      (answers : Answers script system op answer after) :
      Step script system { after with call := some (next answer) }
  | finish {result : Except String Unit} {session : Session}
      (done : system.call = some (.done (.returned result session))) :
      Step script system { system with call := none, session }
  | refuse {error : String} {session : Session}
      (done : system.call = some (.done (.uncompleted error session))) :
      Step script system { system with call := none, session }
  | work {index : Nat} {thread : RebuildThread} {op : RebuildOp}
      {next : op.Answer → RebuildWork Rebuilt} {answer : op.Answer} {after : SessionSystem}
      (member : system.threads[index]? = some thread)
      (asking : thread.work = some (.ask op next))
      (answers : RebuildAnswers thread system op answer after) :
      Step script system (after.setWork index thread (some (next answer)))
  -- A thread that panics drops its transport, which closes the gate.
  | panic {index : Nat} {thread : RebuildThread} {work : RebuildWork Rebuilt}
      (member : system.threads[index]? = some thread) (working : thread.work = some work)
      (deadline : Instant) (answer : Except String Unit) :
      Step script system ((system.gate .rebuild (.closeUntil deadline) answer).setWork index thread
        none)

def Reaches (script : String) : SessionSystem → SessionSystem → Prop :=
  Relation.ReflTransGen (Step script)

/-- The system before its first call, as `prepare` leaves it. -/
def initial (recovery : Recovery) (guard : String) (now : Instant) : SessionSystem :=
  { session := Session.initial recovery guard now }

/-- What the session's calls are judged by. -/
def watch (system : SessionSystem) : Watch :=
  { closed := system.transport.closedConfirmed, rebuilds := system.threads.length }

/-- A rebuild only ever closes the gate. -/
def rebuildUse : Monitor RebuildOp RebuildOp.Answer Unit where
  allowed _
    | .transport op => op.closes = true
    | _ => True
  update _ _ _ := ()

/-- Work of a rebuild that only closes the gate. -/
abbrev OnlyCloses (work : Program RebuildOp RebuildOp.Answer α) : Prop :=
  rebuildUse.Keeps (fun _ _ => True) () work

/-- The last operation that was started is a closure, and it was confirmed. -/
def Closed (log : List GateEntry) : Prop :=
  ∃ entry, log.getLast? = some entry ∧ entry.op.closes = true ∧ entry.confirmed = true

/-- A rebuild is alone and behind the closed gate, which it only ever closes. -/
structure Guarded (system : SessionSystem) : Prop where
  behind : system.threads ≠ [] → system.transport.closedConfirmed = true
  alone : system.threads.length ≤ 1
  logged : system.transport.closedConfirmed = true → Closed system.log
  rebuilds : ∀ entry ∈ system.log, entry.actor = .rebuild → entry.op.closes = true
  working : ∀ thread ∈ system.threads, ∀ work, thread.work = some work →
    rebuildUse.Keeps (fun _ _ => True) () work

/-- The invariant of every run; `shut` once the owner closed the session. -/
structure Kept (shut : Bool) (system : SessionSystem) : Prop extends Guarded system where
  resting : system.call = none → Sound shut system.session system.watch
  calling : ∀ program, system.call = some program →
    (sessionUse shut).Keeps (fun after called => Ended shut after called) system.watch program

end SessionSystem

namespace Rebuild

open SessionSystem

theorem remainingTime_closes (deadline : Instant) : OnlyCloses (remainingTime deadline) := by
  refine ⟨trivial, fun cancelled => ?_⟩
  cases (cancelled : Bool) with
  | true => trivial
  | false => exact ⟨trivial, fun _ => trivial⟩

theorem startPasta_closes (deadline : Instant) (stage : PastaStage) :
    OnlyCloses (startPasta deadline stage) := by
  refine (remainingTime_closes deadline).bind fun _ result _ => ?_
  cases result with
  | error error => trivial
  | ok time => exact ⟨trivial, fun _ => trivial⟩

theorem apply_closes (attempt : Attempt) (script : String) : OnlyCloses (apply attempt script) :=
  ⟨trivial, fun _ => ⟨trivial, fun _ => trivial⟩⟩

theorem restartControlled_closes (deadline : Instant) :
    OnlyCloses (restartControlled deadline) := by
  refine ⟨rfl, fun closed => ?_⟩
  cases (closed : Except String Unit) with
  | error error => trivial
  | ok _ =>
    refine (startPasta_closes deadline .outer).bind fun _ result _ => ?_
    cases result with
    | error error => trivial
    | ok _ =>
      refine (startPasta_closes deadline .inner).bind fun _ result _ => ?_
      cases result with
      | error error => trivial
      | ok _ =>
        refine (remainingTime_closes deadline).bind fun _ result _ => ?_
        cases result with
        | error error => trivial
        | ok _ => trivial

theorem isOver_closes (deadline : Instant) : OnlyCloses (isOver deadline) := by
  refine ⟨trivial, fun cancelled => ?_⟩
  cases (cancelled : Bool) with
  | true => trivial
  | false => exact ⟨trivial, fun _ => trivial⟩

theorem rebuildBehind_closes (script : String) (attempt : Attempt) :
    OnlyCloses (rebuildBehind script attempt) := by
  refine (restartControlled_closes attempt.deadline).bind fun _ result _ => ?_
  cases result with
  | error error => trivial
  | ok _ =>
    refine (apply_closes attempt _).bind fun _ result _ => ?_
    cases result with
    | error error => trivial
    | ok _ =>
      refine (isOver_closes attempt.deadline).bind fun _ late _ => ?_
      cases late with
      | true => trivial
      | false => exact ⟨trivial, fun _ => trivial⟩

theorem work_closes (script : String) (attempt : Attempt) (retiredGuards : List String) :
    OnlyCloses (work script attempt retiredGuards) := by
  unfold work
  split
  · exact (rebuildBehind_closes script attempt).bind fun _ _ _ => trivial
  · refine (apply_closes attempt _).bind fun _ result _ => ?_
    cases result with
    | error error => trivial
    | ok _ => exact (rebuildBehind_closes script attempt).bind fun _ _ _ => trivial

end Rebuild

namespace SessionSystem

variable {system after : SessionSystem}

theorem gate_watch (actor : Actor) (op : GateOp) (answer : Except String Unit) :
    (system.gate actor op answer).watch =
      system.watch.call op (system.transport.call op answer).answer := by
  cases op with
  | renewFor | reopenUntil => rfl
  | closeUntil deadline =>
    dsimp only [gate, watch, Watch.call, Transport.call]
    split
    · rfl
    · rfl

/-- What a call of the transport adds to the log. -/
theorem gate_log (actor : Actor) (op : GateOp) (answer : Except String Unit) :
    ((system.gate actor op answer).log = system.log ∧
        (system.gate actor op answer).transport = system.transport ∧ op.closes = true) ∨
      ∃ entry, (system.gate actor op answer).log = system.log ++ [entry] ∧
        entry.actor = actor ∧ entry.op = op ∧
        ((system.gate actor op answer).transport.closedConfirmed = true →
          op.closes = true ∧ entry.confirmed = true) := by
  cases op with
  | renewFor | reopenUntil =>
    exact .inr ⟨_, rfl, rfl, rfl, fun impossible => by cases impossible⟩
  | closeUntil deadline =>
    dsimp only [gate, Transport.call]
    split
    · exact .inl ⟨by simp, rfl, rfl⟩
    · exact .inr ⟨_, rfl, rfl, rfl, fun confirmed => ⟨rfl, confirmed⟩⟩

/-- The log after a call of the transport, by the session or a rebuild. -/
theorem Guarded.gate_logged (kept : Guarded system) (op : GateOp) (answer : Except String Unit)
    (closes : actor = .rebuild → op.closes = true) :
    ((system.gate actor op answer).transport.closedConfirmed = true →
        Closed (system.gate actor op answer).log) ∧
      ∀ entry ∈ (system.gate actor op answer).log, entry.actor = .rebuild →
        entry.op.closes = true := by
  obtain ⟨log, transport, -⟩ | ⟨entry, log, rfl, rfl, confirmed⟩ :=
    system.gate_log actor op answer
  · rw [log, transport]
    exact ⟨kept.logged, kept.rebuilds⟩
  · rw [log]
    constructor
    · intro closed
      exact ⟨entry, List.getLast?_concat .., confirmed closed⟩
    · intro other member rebuild
      rcases mem_concat.mp member with old | rfl
      · exact kept.rebuilds other old rebuild
      · exact closes rebuild

/-- Without a rebuild, or when it closes, a call of the transport leaves the rest guarded. -/
theorem Guarded.gate (kept : Guarded system) (op : GateOp) (answer : Except String Unit)
    (closes : actor = .rebuild → op.closes = true)
    (behind : system.threads ≠ [] → op.closes = true) :
    Guarded (system.gate actor op answer) := by
  obtain ⟨logged, rebuilds⟩ := kept.gate_logged op answer closes
  refine ⟨fun rebuilding => ?_, kept.alone, logged, rebuilds, kept.working⟩
  have confirmed := kept.behind rebuilding
  cases op with
  | closeUntil deadline => simp [SessionSystem.gate, Transport.call, confirmed]
  | renewFor | reopenUntil => cases behind rebuilding

/-- The session's questions change what it is judged by as they are meant to. -/
theorem Answers.watch {answer : op.Answer} (answers : Answers script system op answer after) :
    after.watch = (sessionUse shut).update system.watch op answer := by
  cases answers with
  | look op looks answer =>
    cases op with
    | transport | rebuildStart | rebuildCancel | rebuildFinished | rebuildJoin => cases looks
    | now | isRunning | dnsFaulted | dnsPoll | dnsFinished | dnsStop | watchdogStart
    | watchdogPoll | heartbeat => rfl
  | gate op answer => exact gate_watch .session op answer
  | started attempt retiredGuards handle fresh =>
    simp [SessionSystem.watch, sessionUse, Except.isOk, Except.toBool]
  | notStarted attempt retiredGuards error => rfl
  | cancelled handle => simp [SessionSystem.watch, sessionUse]
  | finished thread member => rfl
  | joined thread member rebuilt done =>
    simp [SessionSystem.watch, sessionUse, List.length_eraseP_of_mem member]
  | lost thread member panicked =>
    simp [SessionSystem.watch, sessionUse, List.length_eraseP_of_mem member]

theorem Guarded.eraseThread (kept : Guarded system) (handle : Nat) :
    Guarded { system with threads := system.threads.eraseP (·.handle = handle) } := by
  refine ⟨fun rebuilding => kept.behind fun none => rebuilding (by simp [none]), ?_, kept.logged,
    kept.rebuilds, fun thread member => kept.working thread (List.mem_of_mem_eraseP member)⟩
  exact Nat.le_trans (List.length_eraseP_le) kept.alone

/-- A question that is allowed leaves the rebuilds guarded. -/
theorem Guarded.answered {answer : op.Answer} (kept : Guarded system)
    (allowed : (sessionUse shut).allowed system.watch op)
    (answers : Answers script system op answer after) : Guarded after := by
  cases answers with
  | look | finished | notStarted => exact kept
  | gate op answer =>
    refine kept.gate op answer (fun impossible => by cases impossible) fun rebuilding => ?_
    cases op with
    | closeUntil deadline => rfl
    | renewFor | reopenUntil =>
      exact absurd (List.eq_nil_of_length_eq_zero allowed.1) rebuilding
  | started attempt retiredGuards handle fresh =>
    obtain ⟨closed, alone, -⟩ := allowed
    have none := List.eq_nil_of_length_eq_zero alone
    refine ⟨fun _ => closed, by simp [none], kept.logged, kept.rebuilds, ?_⟩
    intro thread member work present
    simp only [none, List.nil_append, List.mem_singleton] at member
    subst member
    cases present
    exact Rebuild.work_closes script attempt retiredGuards
  | cancelled handle =>
    refine ⟨fun rebuilding => kept.behind fun none => rebuilding (by simp [none]),
      by simpa using kept.alone, kept.logged, kept.rebuilds, ?_⟩
    intro thread member work present
    obtain ⟨old, inside, rfl⟩ := List.mem_map.mp member
    refine kept.working old inside work ?_
    split at present
    · exact present
    · exact present
  | joined thread member rebuilt done => exact kept.eraseThread thread.handle
  | lost thread member panicked => exact kept.eraseThread thread.handle

theorem Guarded.setWork (kept : Guarded system) (member : thread ∈ system.threads)
    (keeps : ∀ next, work = some next → OnlyCloses next) :
    Guarded (system.setWork index thread work) := by
  refine ⟨fun _ => kept.behind (List.ne_nil_of_mem member),
    by simpa [SessionSystem.setWork] using kept.alone, kept.logged, kept.rebuilds, ?_⟩
  intro other inside next present
  rcases List.mem_or_eq_of_mem_set inside with old | rfl
  · exact kept.working other old next present
  · exact keeps next present

/-- Behind the closed gate, a rebuild starts nothing on it. -/
theorem Guarded.rebuild_gate (kept : Guarded system) (rebuilding : system.threads ≠ [])
    (closes : op.closes = true) (answer : Except String Unit) :
    system.gate .rebuild op answer = system := by
  cases op with
  | closeUntil deadline =>
    simp [SessionSystem.gate, Transport.call, kept.behind rebuilding]
  | renewFor | reopenUntil => cases closes

theorem Guarded.rebuild_answers {answer : op.Answer} (kept : Guarded system)
    (rebuilding : system.threads ≠ []) (allowed : rebuildUse.allowed () op)
    (answers : RebuildAnswers thread system op answer after) : after = system := by
  cases answers with
  | gate op answer => exact kept.rebuild_gate rebuilding allowed answer
  | isCancelled | now | apply | pastaStart | dnsStart => rfl

theorem setWork_watch : (system.setWork index thread work).watch = system.watch := by
  simp [SessionSystem.setWork, SessionSystem.watch]

theorem Kept.setWork (kept : Kept shut system) (member : thread ∈ system.threads)
    (keeps : ∀ next, work = some next → OnlyCloses next) :
    Kept shut (system.setWork index thread work) where
  toGuarded := kept.toGuarded.setWork member keeps
  resting idle := by
    rw [setWork_watch]
    exact kept.resting idle
  calling program running := by
    rw [setWork_watch]
    exact kept.calling program running

/-- Where the session stands does not matter to the rebuilds. -/
theorem Guarded.recall (kept : Guarded system) (call : Option (SessionWork Called))
    (session : Session) : Guarded { system with call, session } :=
  ⟨kept.behind, kept.alone, kept.logged, kept.rebuilds, kept.working⟩

/-- The programs of the calls end as they may. -/
theorem program_watched {session : Session} {watch : Watch} (sound : Sound shut session watch)
    (call : SessionCall) : Judged shut watch (call.program session) := by
  cases call with
  | activate => exact activate_watched sound
  | poll => exact poll_watched sound
  | closeUntil deadline =>
    exact (closeUntil_watched sound.toOwned deadline).bind fun _ _ closed => closed.sound

theorem Kept.step (kept : Kept shut system) (step : Step script system after) :
    Kept shut after := by
  cases step with
  | begin call idle =>
    refine ⟨kept.recall _ _, (by simp), fun program running => ?_⟩
    cases running
    exact program_watched (kept.resting idle) call
  | @ask op next answer middle asking answers =>
    obtain ⟨allowed, goes⟩ := kept.calling _ asking
    refine ⟨(kept.toGuarded.answered allowed answers).recall _ _, (by simp),
      fun program running => ?_⟩
    cases running
    have judged := goes answer
    rw [← answers.watch] at judged
    exact judged
  | finish done =>
    exact ⟨kept.recall _ _, fun _ => kept.calling _ done, by simp⟩
  | refuse done => exact (kept.calling _ done).elim
  | work member asking answers =>
    have inside := List.mem_of_getElem? member
    obtain ⟨allowed, goes⟩ := kept.working _ inside _ asking
    obtain rfl := kept.rebuild_answers (List.ne_nil_of_mem inside) allowed answers
    refine kept.setWork inside fun next present => ?_
    cases present
    exact goes _
  | panic member working deadline answer =>
    have inside := List.mem_of_getElem? member
    rw [kept.rebuild_gate (List.ne_nil_of_mem inside) rfl answer]
    exact kept.setWork inside (by simp)

theorem Kept.initial {guard : String} {now : Instant} (fresh : recovery.state = .healthy) :
    Kept false (initial recovery guard now) where
  behind rebuilding := absurd rfl rebuilding
  alone := Nat.zero_le _
  logged impossible := by cases impossible
  rebuilds _ member := by cases member
  working _ member := by cases member
  resting _ := by
    refine ⟨⟨fun _ => ⟨rfl, rfl, fresh, rfl⟩, fun _ impossible => ?_, fun _ => rfl,
      fun _ => rfl, fun impossible => ?_⟩, fun impossible => ?_⟩
    · cases impossible
    · cases impossible
    · cases impossible
  calling _ impossible := by cases impossible

theorem Kept.reaches (kept : Kept shut system) (reaches : Reaches script system after) :
    Kept shut after := by
  induction reaches with
  | refl => exact kept
  | tail _ step ih => exact ih.step step

/-- Nothing was opened and no rebuild started in between. -/
structure Quiet (system after : SessionSystem) : Prop where
  closes : ∃ more, after.log = system.log ++ more ∧ ∀ entry ∈ more, entry.op.closes = true
  rebuilds : after.rebuildsStarted = system.rebuildsStarted

theorem Quiet.of_same (log : after.log = system.log)
    (rebuilds : after.rebuildsStarted = system.rebuildsStarted) : Quiet system after :=
  ⟨⟨[], by simp [log], by simp⟩, rebuilds⟩

theorem Quiet.trans {later : SessionSystem} (first : Quiet system after)
    (second : Quiet after later) : Quiet system later := by
  obtain ⟨more, log, closes⟩ := first.closes
  obtain ⟨rest, others, closing⟩ := second.closes
  refine ⟨⟨more ++ rest, by rw [others, log, List.append_assoc], fun entry member => ?_⟩,
    second.rebuilds.trans first.rebuilds⟩
  rcases List.mem_append.mp member with early | late
  · exact closes entry early
  · exact closing entry late

theorem Quiet.gate (closes : op.closes = true) (answer : Except String Unit) :
    Quiet system (system.gate actor op answer) := by
  obtain ⟨log, -, -⟩ | ⟨entry, log, -, rfl, -⟩ := system.gate_log actor op answer
  · exact .of_same log rfl
  · refine ⟨⟨[entry], log, fun other member => ?_⟩, rfl⟩
    obtain rfl := List.mem_singleton.mp member
    exact closes

/-- After the owner's shutdown a question neither opens the gate nor starts a rebuild. -/
theorem Answers.quiet {answer : op.Answer} (allowed : (sessionUse true).allowed system.watch op)
    (answers : Answers script system op answer after) : Quiet system after := by
  cases answers with
  | look | finished | notStarted | cancelled | joined | lost => exact .of_same rfl rfl
  | gate op answer =>
    refine .gate ?_ answer
    cases op with
    | closeUntil deadline => rfl
    | renewFor | reopenUntil => cases allowed.2
  | started attempt retiredGuards handle fresh => cases allowed.2.2

theorem Kept.quiet_step (kept : Kept true system) (step : Step script system after) :
    Quiet system after := by
  cases step with
  | begin | finish | refuse => exact .of_same rfl rfl
  | ask asking answers =>
    have quiet := answers.quiet (kept.calling _ asking).1
    exact ⟨quiet.closes, quiet.rebuilds⟩
  | work member asking answers =>
    have inside := List.mem_of_getElem? member
    have allowed := (kept.working _ inside _ asking).1
    obtain rfl := kept.rebuild_answers (List.ne_nil_of_mem inside) allowed answers
    exact .of_same rfl rfl
  | panic member working deadline answer =>
    rw [kept.rebuild_gate (List.ne_nil_of_mem (List.mem_of_getElem? member)) rfl answer]
    exact .of_same rfl rfl

theorem Kept.quiet (kept : Kept true system) (reaches : Reaches script system after) :
    Quiet system after := by
  induction reaches with
  | refl => exact .of_same rfl rfl
  | tail earlier step ih => exact ih.trans ((kept.reaches earlier).quiet_step step)

/-- The owner's shutdown from any state between calls. -/
theorem Kept.shutDown (kept : Kept shut system) (idle : system.call = none) (deadline : Instant) :
    Kept true { system with
      call := some ((SessionCall.closeUntil deadline).program system.session) } := by
  refine ⟨kept.recall _ _, (by simp), fun program running => ?_⟩
  cases running
  exact (closeUntil_watched (kept.resting idle).toOwned deadline).bind
    fun _ _ closed => closed.sound

/-- A session that returns isolated is behind a confirmed closure, the last operation started on its
gate; a rebuild starts no other, and is alone; and a call ends by returning, unless the generations
are exhausted. -/
theorem isolated_behind_closure {timeoutSeconds : Nat} {recovery : Recovery} {guard : String}
    {now : Instant} (made : Recovery.new timeoutSeconds = .ok recovery)
    (reaches : Reaches script (SessionSystem.initial recovery guard now) system) :
    (system.call = none → system.session.state = .isolated → Closed system.log) ∧
    (∀ entry ∈ system.log, entry.actor = .rebuild → entry.op.closes = true) ∧
    system.threads.length ≤ 1 ∧
    ∀ called, system.call = some (.done called) →
      called = .panicked .recoveryGeneration ∨ ∃ result session, called = .returned result session := by
  have kept := (Kept.initial (Recovery.new_healthy made)).reaches reaches
  refine ⟨?_, kept.rebuilds, kept.alone, ?_⟩
  · intro idle isolated
    exact kept.logged ((kept.resting idle).closed isolated)
  · intro called done
    have ended := kept.calling _ done
    cases called with
    | returned result session => exact .inr ⟨result, session, rfl⟩
    | uncompleted error session => exact ended.elim
    | panicked expectation =>
      cases ended
      exact .inl rfl

def freshRecovery : Recovery := { timeout := seconds 10 }

theorem freshRecovery_made : Recovery.new 10 = .ok freshRecovery := rfl

def freshSystem : SessionSystem := initial freshRecovery "guard" 0

/-- An activation whose renewal of the gate fails. -/
theorem failed_activation_closed :
    ∃ system, Reaches "" freshSystem system ∧ system.call = none ∧
      system.session.state = .isolated ∧ system.log.length = 2 ∧ Closed system.log := by
  have reaches := (Relation.ReflTransGen.refl : Reaches "" freshSystem freshSystem)
    |>.tail (.begin .activate rfl)
    |>.tail (.ask rfl (.look .isRunning rfl (Except.ok true)))
    |>.tail (.ask rfl (.look .dnsFaulted rfl false))
    |>.tail (.ask rfl (.look .watchdogPoll rfl (Except.ok WatchdogState.healthy)))
    |>.tail (.ask rfl (.look .heartbeat rfl (Except.ok ())))
    |>.tail (.ask rfl (.gate (.renewFor healthWindowMs) (.error "nft failed")))
    |>.tail (.ask rfl (.look .now rfl (0 : Nat)))
    |>.tail (.ask rfl (.gate (.closeUntil (0 + commandBudget)) (.ok ())))
    |>.tail (.ask rfl (.look .dnsStop rfl ()))
    |>.tail (.finish rfl)
  have closed := isolated_behind_closure freshRecovery_made reaches
  exact ⟨_, reaches, rfl, rfl, rfl, closed.1 rfl rfl⟩

/-- Whatever is called and answered after the owner's shutdown, the gate is only ever closed, no
rebuild is started, and no call returns with a running session. -/
theorem shutdown_is_final {timeoutSeconds : Nat} {recovery : Recovery} {guard : String}
    {now : Instant} (made : Recovery.new timeoutSeconds = .ok recovery)
    (reaches : Reaches script (SessionSystem.initial recovery guard now) system)
    (idle : system.call = none) (deadline : Instant)
    (later : Reaches script { system with
      call := some ((SessionCall.closeUntil deadline).program system.session) } after) :
    (∃ more, after.log = system.log ++ more ∧ ∀ entry ∈ more, entry.op.closes = true) ∧
    after.rebuildsStarted = system.rebuildsStarted ∧
    (after.call = none → after.session.state ≠ .running) := by
  have kept := (Kept.initial (Recovery.new_healthy made)).reaches reaches
  have shut := kept.shutDown idle deadline
  have quiet := shut.quiet later
  refine ⟨quiet.closes, quiet.rebuilds, fun returned running => ?_⟩
  have live := ((shut.reaches later).resting returned).live (.inr running)
  cases live.2.2.2

def firstAttempt : Attempt := { generation := 1, deadline := seconds 10 }

/-- A session that ran, failed and started a rebuild. -/
def rebuildingSystem : SessionSystem :=
  { session :=
      { dns := false
        watchdog := none
        transport := false
        recovery := { freshRecovery with generation := 1, state := .working firstAttempt false }
        rebuilding := some { attempt := firstAttempt, handle := 7 }
        automatic := true
        state := .isolated
        nextHealth := healthInterval
        notifications := [(.running, "ready"), (.isolated, "network controller stopped")] }
    transport := { closedConfirmed := true }
    threads := [{ handle := 7, work := some (Rebuild.work "" firstAttempt ["guard"]) }]
    log :=
      [{ actor := .session, op := .renewFor healthWindowMs, confirmed := true },
        { actor := .session, op := .closeUntil commandBudget, confirmed := true }]
    rebuildsStarted := 1 }

theorem rebuildingSystem_reached : Reaches "" freshSystem rebuildingSystem :=
  Relation.ReflTransGen.refl
    |>.tail (.begin .activate rfl)
    |>.tail (.ask rfl (.look .isRunning rfl (Except.ok true)))
    |>.tail (.ask rfl (.look .dnsFaulted rfl false))
    |>.tail (.ask rfl (.look .watchdogPoll rfl (Except.ok WatchdogState.healthy)))
    |>.tail (.ask rfl (.look .heartbeat rfl (Except.ok ())))
    |>.tail (.ask rfl (.gate (.renewFor healthWindowMs) (.ok ())))
    |>.tail (.ask rfl (.look .isRunning rfl (Except.ok true)))
    |>.tail (.ask rfl (.look .dnsFaulted rfl false))
    |>.tail (.ask rfl (.look .watchdogPoll rfl (Except.ok WatchdogState.healthy)))
    |>.tail (.ask rfl (.look .now rfl (0 : Nat)))
    |>.tail (.finish rfl)
    |>.tail (.begin .poll rfl)
    |>.tail (.ask rfl (.look .isRunning rfl (Except.ok false)))
    |>.tail (.ask rfl (.look .now rfl (0 : Nat)))
    |>.tail (.ask rfl (.gate (.closeUntil commandBudget) (.ok ())))
    |>.tail (.ask rfl (.look .dnsStop rfl ()))
    |>.tail (.ask rfl (.look .now rfl (0 : Nat)))
    |>.tail (.finish rfl)
    |>.tail (.begin .poll rfl)
    |>.tail (.ask rfl (.look .now rfl (0 : Nat)))
    |>.tail (.ask rfl (.look (.dnsPoll 0) rfl (Except.ok ())))
    |>.tail (.ask rfl (.look .dnsFinished rfl true))
    |>.tail (.ask rfl (.look .now rfl (0 : Nat)))
    |>.tail (.ask rfl (.started firstAttempt ["guard"] 7 (fun _ member => nomatch member)))
    |>.tail (.finish rfl)

/-- The rebuild, once it saw that it was cancelled. -/
def cancelledThread : RebuildThread :=
  { handle := 7
    work := some (.done
      { dns := .error "transport recovery cancelled", retiredGuards := [] })
    cancelled := true }

/-- The owner's shutdown while a rebuild is at work, which is collected afterwards. -/
theorem shutdown_during_rebuild :
    ∃ after, Reaches "" { rebuildingSystem with
        call := some ((SessionCall.closeUntil 0).program rebuildingSystem.session) } after ∧
      after.call = none ∧ after.threads = [] ∧ after.session.state ≠ .running := by
  have later := (Relation.ReflTransGen.refl : Reaches "" { rebuildingSystem with
      call := some ((SessionCall.closeUntil 0).program rebuildingSystem.session) } _)
    |>.tail (.ask rfl (.cancelled 7))
    |>.tail (.finish rfl)
    |>.tail (.work (show _[0]? = _ from rfl) rfl (.now (0 : Nat)))
    |>.tail (.work (show _[0]? = _ from rfl) rfl (.apply _ _ (.ok ())))
    |>.tail (.work (show _[0]? = _ from rfl) rfl (.gate (.closeUntil (seconds 10)) (.ok ())))
    |>.tail (.work (show _[0]? = _ from rfl) rfl .isCancelled)
    |>.tail (.begin .poll rfl)
    |>.tail (.ask rfl (.finished cancelledThread (List.mem_singleton.mpr rfl)))
    |>.tail (.ask rfl (.joined cancelledThread (List.mem_singleton.mpr rfl)
      { dns := .error "transport recovery cancelled", retiredGuards := [] } rfl))
    |>.tail (.ask rfl (.look .now rfl (0 : Nat)))
    |>.tail (.ask rfl (.look .now rfl (0 : Nat)))
    |>.tail (.ask rfl (.gate (.closeUntil commandBudget) (.ok ())))
    |>.tail (.finish rfl)
  have final := shutdown_is_final freshRecovery_made rebuildingSystem_reached rfl 0 later
  exact ⟨_, later, rfl, rfl, final.2.2 rfl⟩

end SessionSystem

end Kakoi
