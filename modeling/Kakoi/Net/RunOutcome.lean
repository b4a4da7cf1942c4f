import Kakoi.Net.Run

/-! What a filtered run does and returns, whatever the session, the application and the
termination flag give. -/

namespace Kakoi

namespace RunEvent

abbrev Event := Program.Event RunOp RunOp.Answer

/-- A request to the processes to end. -/
def isRequest (event : Event) : Bool :=
  match event.1 with
  | .terminate | .beginGrace => true
  | _ => false

def isClosing (event : Event) : Bool :=
  match event.1 with
  | .closeUntil _ => true
  | _ => false

def isKill (event : Event) : Bool :=
  match event.1 with
  | .kill => true
  | _ => false

def isUnsafe : SessionState → Bool
  | .unsafeState => true
  | _ => false

/-- The session is seen unsafe, a closure fails, or the supervisor's channel does. -/
def isFault : Event → Bool
  | ⟨.sessionState, state⟩ => isUnsafe state
  | ⟨.closeUntil _, answer⟩ => !(answer : Except String Unit).isOk
  | ⟨.applicationPoll, answer⟩ => !(answer : Except String (Option ApplicationEvent)).isOk
  | _ => false

/-- The termination flag is seen set. -/
def isTermination : Event → Bool
  | ⟨.terminateLoad, seen⟩ => (seen : Bool)
  | _ => false

def reported : Event → Option ApplicationEvent
  | ⟨.applicationPoll, answer⟩ => (answer : Except String (Option ApplicationEvent)).toOption.join
  | _ => none

def mainExit (event : Event) : Option UInt8 :=
  match reported event with
  | some (.mainExited code) => some code
  | _ => none

def finishedWith (event : Event) : Option ExitStatus :=
  match reported event with
  | some (.finished status) => some status
  | _ => none

/-- The application is asked what it reports, once a round. -/
def isReport (event : Event) : Bool :=
  match event.1 with
  | .applicationPoll => true
  | _ => false

/-- The session is seen unsafe, or the network is closed. -/
def isEnding : Event → Bool
  | ⟨.sessionState, state⟩ => isUnsafe state
  | ⟨.closeUntil _, _⟩ => true
  | _ => false

/-- The session was polled and looked at since the application reported last, and so was the flag
unless there is a main result or the end has begun. -/
def Looked (events : RunEvents) : Prop :=
  ∃ earlier state rest, events = earlier ++ ⟨.sessionPoll, ()⟩ :: ⟨.sessionState, state⟩ :: rest ∧
    rest.any isReport = false ∧
    (events.any isEnding = false → events.filterMap mainExit = [] →
      rest = [⟨.terminateLoad, false⟩])

/-- The flag is seen set before any result of the main command and before any closure. -/
def TerminatedWhileRunning (events : RunEvents) : Prop :=
  ∃ before later, events = before ++ ⟨.terminateLoad, true⟩ :: later ∧
    before.filterMap mainExit = [] ∧ before.any isClosing = false

end RunEvent

open RunEvent

/-- Processes are asked to end once and right behind a confirmed closure; the flag is looked at only
before any main result and closure, and both it and the session in every round. -/
def supervised : Monitor RunOp RunOp.Answer RunEvents :=
  .recording fun before op =>
    match op with
    | .terminate | .beginGrace => before.any isRequest = false ∧
        ∃ deadline, before.getLast? = some ⟨.closeUntil deadline, .ok ()⟩
    | .terminateLoad => before.filterMap mainExit = [] ∧ before.any isClosing = false
    | .applicationPoll => Looked before
    | _ => True

/-- The variables of the loop say what was seen. -/
structure Counted (events : RunEvents) (loop : Supervision) : Prop where
  main : loop.main = (events.filterMap mainExit).head?
  fault : loop.fault = events.any isFault
  terminated : loop.terminated = events.any isTermination

/-- Until the loop closes the network nothing was closed and nobody asked to end. -/
structure Traced (events : RunEvents) (loop : Supervision) : Prop
    extends Counted events loop where
  untouched : loop.closed = false →
    events.any isClosing = false ∧ events.any isRequest = false
  touched : loop.closed = true → events.any isEnding = true
  unfinished : events.filterMap finishedWith = []

/-- What holds around the parts of a round: a fault was followed by a kill, too. -/
structure Followed (events : RunEvents) (loop : Supervision) : Prop
    extends Traced events loop where
  killed : loop.fault = true → events.any isKill = true

section Rounds

variable {events : RunEvents}

/-- An event the variables do not follow. -/
def Quiet (event : Event) : Prop :=
  mainExit event = none ∧ isFault event = false ∧ isTermination event = false

/-- An event that closes nothing, asks nobody to end and reports no end. -/
def Passing (event : Event) : Prop :=
  isClosing event = false ∧ isRequest event = false ∧ finishedWith event = none

theorem seen_append (seen : events.any test = true) (more : RunEvents) :
    (events ++ more).any test = true := by
  rw [List.any_append, seen]
  rfl

section Counting

variable (counted : Counted events loop)

include counted

theorem Counted.add (quiet : Quiet event) : Counted (events ++ [event]) loop := by
  obtain ⟨main, fault, termination⟩ := quiet
  constructor
  · simpa [main] using counted.main
  · simpa [fault] using counted.fault
  · simpa [termination] using counted.terminated

theorem Counted.faulted (main : mainExit event = none) (fault : isFault event = true)
    (termination : isTermination event = false) :
    Counted (events ++ [event]) { loop with fault := true } where
  main := by simpa [main] using counted.main
  fault := by simp [fault]
  terminated := by simpa [termination] using counted.terminated

theorem Counted.flagged (main : mainExit event = none) (fault : isFault event = false)
    (termination : isTermination event = true) :
    Counted (events ++ [event]) { loop with terminated := true } where
  main := by simpa [main] using counted.main
  fault := by simpa [fault] using counted.fault
  terminated := by simp [termination]

theorem Counted.exited (main : mainExit event = some code) (fault : isFault event = false)
    (termination : isTermination event = false) :
    Counted (events ++ [event]) { loop with main := loop.main.orElse fun _ => some code } where
  main := by
    rw [List.filterMap_append, List.head?_append, ← counted.main]
    cases loop.main <;> simp [main]
  fault := by simpa [fault] using counted.fault
  terminated := by simpa [termination] using counted.terminated

theorem Counted.close : Counted events { loop with closed := true } :=
  ⟨counted.main, counted.fault, counted.terminated⟩

end Counting

theorem Counted.traced (counted : Counted (events ++ [event]) next) (traced : Traced events loop)
    (passing : Passing event) (same : next.closed = loop.closed) :
    Traced (events ++ [event]) next where
  toCounted := counted
  untouched := by
    intro closed
    simpa [passing.1, passing.2.1] using traced.untouched (same.symm.trans closed)
  touched := fun closed => seen_append (traced.touched (same.symm.trans closed)) _
  unfinished := by simpa [passing.2.2] using traced.unfinished

theorem Traced.add (traced : Traced events loop) (quiet : Quiet event) (passing : Passing event) :
    Traced (events ++ [event]) loop :=
  (traced.toCounted.add quiet).traced traced passing rfl

theorem Traced.faulted (traced : Traced events loop) (main : mainExit event = none)
    (fault : isFault event = true) (termination : isTermination event = false)
    (passing : Passing event) : Traced (events ++ [event]) { loop with fault := true } :=
  (traced.toCounted.faulted main fault termination).traced traced passing rfl

theorem Traced.killing (traced : Traced events loop) :
    Followed (events ++ [⟨.kill, ()⟩]) loop where
  toTraced := traced.add ⟨rfl, rfl, rfl⟩ ⟨rfl, rfl, rfl⟩
  killed := fun _ => by simp [isKill]

theorem Followed.add (followed : Followed events loop) (quiet : Quiet event)
    (passing : Passing event) : Followed (events ++ [event]) loop where
  toTraced := followed.toTraced.add quiet passing
  killed := fun faulted => seen_append (followed.killed faulted) _

theorem finishedWith_of_report (other : isReport event = false) : finishedWith event = none := by
  obtain ⟨op, answer⟩ := event
  cases op with
  | applicationPoll => cases other
  | _ => rfl

theorem ending_of_closing (closing : events.any isClosing = true) : events.any isEnding = true := by
  obtain ⟨⟨op, answer⟩, member, closes⟩ := List.any_eq_true.mp closing
  refine List.any_eq_true.mpr ⟨⟨op, answer⟩, member, ?_⟩
  cases op with
  | closeUntil deadline => rfl
  | _ => cases closes

/-- What a part of a round that only closes, asks and kills does to the loop. -/
structure Settling (events : RunEvents) (loop : Supervision) (after : RunEvents)
    (next : Supervision) : Prop where
  counted : Counted after next
  killed : (loop.fault = true → events.any isKill = true) →
    next.fault = true → after.any isKill = true
  grown : ∃ more, after = events ++ more ∧ more.any isReport = false
  closing : after.any isClosing = true
  closed : next.closed = loop.closed

theorem Settling.finished (settling : Settling events loop after next) :
    after.filterMap finishedWith = events.filterMap finishedWith := by
  obtain ⟨more, rfl, silent⟩ := settling.grown
  have none : more.filterMap finishedWith = [] := by
    refine List.filterMap_eq_nil_iff.mpr fun event member => finishedWith_of_report ?_
    simpa using List.any_eq_false.mp silent event member
  rw [List.filterMap_append, none, List.append_nil]

theorem Settling.add (settling : Settling events loop after next) (quiet : Quiet event)
    (silent : isReport event = false) : Settling events loop (after ++ [event]) next where
  counted := settling.counted.add quiet
  killed := fun killed faulted => seen_append (settling.killed killed faulted) _
  grown := by
    obtain ⟨more, rfl, others⟩ := settling.grown
    exact ⟨more ++ [event], List.append_assoc .., by simp [others, silent]⟩
  closing := seen_append settling.closing _
  closed := settling.closed

/-- A part of a round that closes the network leaves the loop closed. -/
theorem Settling.followed (settling : Settling events loop after next)
    (closed : loop.closed = true) (killed : loop.fault = true → events.any isKill = true)
    (unfinished : events.filterMap finishedWith = []) : Followed after next where
  toCounted := settling.counted
  untouched := fun opened => nomatch (settling.closed.trans closed).symm.trans opened
  touched := fun _ => ending_of_closing settling.closing
  unfinished := settling.finished.trans unfinished
  killed := settling.killed killed

/-- A closure that is confirmed is the last thing done; one that is not ends in a kill. -/
theorem block_settling (counted : Counted events loop) :
    supervised.Keeps (fun after result => Settling events loop after result.2 ∧
        after.any isRequest = events.any isRequest ∧
        (result.1 = true → ∃ deadline, after.getLast? = some ⟨.closeUntil deadline, .ok ()⟩))
      events loop.block := by
  refine ⟨trivial, fun now => ⟨trivial, fun answer => ?_⟩⟩
  have asked : Counted (events ++ [⟨.now, now⟩]) loop := counted.add ⟨rfl, rfl, rfl⟩
  cases (answer : Except String Unit) with
  | ok _ =>
    refine ⟨⟨asked.add ⟨rfl, rfl, rfl⟩, ?_, ⟨_, List.append_assoc .., rfl⟩, ?_, rfl⟩, ?_,
      fun _ => ⟨_, List.getLast?_concat⟩⟩
    · exact fun killed faulted => seen_append (seen_append (killed faulted) _) _
    · simp [supervised, Monitor.recording, isClosing]
    · simp [supervised, Monitor.recording, isRequest]
  | error error =>
    refine ⟨trivial, fun told => ⟨trivial, fun done => ⟨⟨?_, ?_, ?_, ?_, rfl⟩, ?_, nofun⟩⟩⟩
    · refine ((asked.faulted ?_ ?_ ?_).add ⟨rfl, rfl, rfl⟩).add ⟨rfl, rfl, rfl⟩
      all_goals rfl
    · intro killed faulted
      simp [supervised, Monitor.recording, isKill]
    · exact ⟨[⟨.now, now⟩, ⟨.closeUntil ((show Instant from now) + closure), .error error⟩,
        ⟨.reportFailure ("transit closure unconfirmed: " ++ error), told⟩, ⟨.kill, done⟩],
        by simp [supervised, Monitor.recording], rfl⟩
    · simp [supervised, Monitor.recording, isClosing]
    · simp [supervised, Monitor.recording, isRequest]

/-- The processes are asked to end only behind a confirmed closure. -/
theorem blockThen_settling (counted : Counted events loop) (unasked : events.any isRequest = false)
    (shape : asks = RunWork.terminate ∨ asks = RunWork.beginGrace) :
    supervised.Keeps (fun after next => Settling events loop after next) events
      (loop.blockThen asks) := by
  refine (block_settling counted).bind fun after result reached => ?_
  obtain ⟨confirmed, next⟩ := result
  obtain ⟨settling, requests, last⟩ := reached
  cases confirmed with
  | false => exact settling
  | true =>
    have behind := And.intro (requests.trans unasked) (last rfl)
    rcases shape with rfl | rfl <;>
    · refine ⟨behind, fun answer => ?_⟩
      cases (answer : Except String Unit) with
      | ok _ => exact settling.add ⟨rfl, rfl, rfl⟩ rfl
      | error _ =>
        exact ⟨trivial, fun _ => (settling.add ⟨rfl, rfl, rfl⟩ rfl).add ⟨rfl, rfl, rfl⟩ rfl⟩

/-- The session is looked at first, and nothing is reported in the meantime. -/
theorem watchSession_followed (followed : Followed events loop) :
    supervised.Keeps (fun after next => Followed after next ∧ ∃ state rest,
        after = events ++ ⟨.sessionState, state⟩ :: rest ∧ rest.any isReport = false ∧
        (after.any isEnding = false → rest = []))
      events loop.watchSession := by
  refine ⟨trivial, fun state => ?_⟩
  cases (state : SessionState) with
  | prepared | running | isolated =>
    exact ⟨followed.add ⟨rfl, rfl, rfl⟩ ⟨rfl, rfl, rfl⟩, _, [], rfl, rfl, fun _ => rfl⟩
  | unsafeState =>
    have seen : Traced (events ++ [⟨.sessionState, .unsafeState⟩]) { loop with fault := true } :=
      followed.toTraced.faulted rfl rfl rfl ⟨rfl, rfl, rfl⟩
    have ending : (events ++ [⟨.sessionState, .unsafeState⟩] : RunEvents).any isEnding = true := by
      simp [isEnding, isUnsafe]
    cases before : loop.fault with
    | false =>
      have killed := seen.killing
      refine ⟨trivial, fun _ => ⟨{ killed with
        touched := fun _ => ?_, untouched := fun opened => nomatch opened },
        _, [⟨.kill, ()⟩], List.append_assoc .., rfl, fun quiet => ?_⟩⟩
      · exact seen_append ending _
      · exact nomatch (seen_append ending _).symm.trans quiet
    | true =>
      rw [← before] at seen
      exact ⟨{ seen with killed := fun faulted => seen_append (followed.killed faulted) _ },
        _, [], rfl, rfl, fun _ => rfl⟩

/-- The flag is looked at while the main command runs and nothing has begun to end. -/
theorem watchTermination_followed (followed : Followed events loop) :
    supervised.Keeps (fun after next => Followed after next ∧ ∃ more, after = events ++ more ∧
        more.any isReport = false ∧ (after.any isEnding = false → after.filterMap mainExit = [] →
          more = [⟨.terminateLoad, false⟩]))
      events loop.watchTermination := by
  unfold Supervision.watchTermination
  split
  · rename_i waiting
    obtain ⟨opened, running⟩ := waiting
    obtain ⟨unclosed, unasked⟩ := followed.untouched opened
    refine ⟨⟨List.head?_eq_none_iff.mp (followed.main.symm.trans running), unclosed⟩, fun seen => ?_⟩
    cases (seen : Bool) with
    | false =>
      exact ⟨followed.add ⟨rfl, rfl, rfl⟩ ⟨rfl, rfl, rfl⟩, _, rfl, rfl, fun _ _ => rfl⟩
    | true =>
      have counted : Counted (events ++ [⟨.terminateLoad, true⟩]) { loop with terminated := true } :=
        followed.toCounted.flagged rfl rfl rfl
      have traced := counted.traced followed.toTraced ⟨rfl, rfl, rfl⟩ rfl
      refine (blockThen_settling counted.close (traced.untouched opened).2 (.inl rfl)).mono ?_
      intro after next settling
      obtain ⟨more, grown, silent⟩ := settling.grown
      refine ⟨settling.followed rfl ?_ traced.unfinished, ⟨.terminateLoad, true⟩ :: more, ?_, silent,
        fun quiet => nomatch (ending_of_closing settling.closing).symm.trans quiet⟩
      · exact fun faulted => seen_append (followed.killed faulted) _
      · rw [grown, List.append_assoc]
        rfl
  · rename_i past
    refine ⟨followed, [], (List.append_nil _).symm, rfl, fun quiet none => absurd ⟨?_, ?_⟩ past⟩
    · exact Bool.eq_false_iff.mpr fun closed => nomatch (followed.touched closed).symm.trans quiet
    · rw [followed.main, none]
      rfl

theorem mainExited_followed (followed : Followed events loop) (code : UInt8) :
    supervised.Keeps Followed (events ++ [⟨.applicationPoll, .ok (some (.mainExited code))⟩])
      (loop.mainExited code) := by
  have counted : Counted (events ++ [⟨.applicationPoll, .ok (some (.mainExited code))⟩])
      { loop with main := loop.main.orElse fun _ => some code } :=
    followed.toCounted.exited rfl rfl rfl
  have traced := counted.traced followed.toTraced ⟨rfl, rfl, rfl⟩ rfl
  have killed := fun faulted => seen_append (followed.killed faulted)
    [⟨.applicationPoll, .ok (some (.mainExited code))⟩]
  unfold Supervision.mainExited
  dsimp only
  split
  · rename_i opened
    refine (blockThen_settling counted.close (traced.untouched opened).2 (.inr rfl)).mono ?_
    intro after next settling
    exact settling.followed rfl killed traced.unfinished
  · exact { traced with killed }

/-- The application has no status yet, or it is the one it finished with. -/
def Reported (events : RunEvents) (result : Supervision × Option ExitStatus) : Prop :=
  match result.2 with
  | none => Followed events result.1
  | some status => Counted events result.1 ∧
      (result.1.fault = true → events.any isKill = true) ∧
      events.filterMap finishedWith = [status]

theorem watchApplication_reported (followed : Followed events loop) (looked : Looked events) :
    supervised.Keeps Reported events loop.watchApplication := by
  refine ⟨looked, fun answer => ?_⟩
  cases (answer : Except String (Option ApplicationEvent)) with
  | error error =>
    have seen : Traced (events ++ [⟨.applicationPoll, .error error⟩]) { loop with fault := true } :=
      followed.toTraced.faulted rfl rfl rfl ⟨rfl, rfl, rfl⟩
    exact ⟨trivial, fun _ => ⟨trivial, fun _ =>
      (seen.add ⟨rfl, rfl, rfl⟩ ⟨rfl, rfl, rfl⟩).killing⟩⟩
  | ok report =>
    cases report with
    | none => exact followed.add ⟨rfl, rfl, rfl⟩ ⟨rfl, rfl, rfl⟩
    | some report =>
      cases report with
      | mainExited code =>
        exact (mainExited_followed followed code).bind fun after next reached => reached
      | graceInterrupted =>
        refine ⟨trivial, fun _ => ?_⟩
        exact (followed.add ⟨rfl, rfl, rfl⟩ ⟨rfl, rfl, rfl⟩).add ⟨rfl, rfl, rfl⟩ ⟨rfl, rfl, rfl⟩
      | finished status =>
        refine ⟨followed.toCounted.add ⟨rfl, rfl, rfl⟩, ?_, ?_⟩
        · exact fun faulted => seen_append (followed.killed faulted) _
        · simp [supervised, Monitor.recording, followed.unfinished, finishedWith, reported,
            Except.toOption]

theorem round_followed (followed : Followed events loop) :
    supervised.Keeps (fun after => Sum.elim (Followed after) fun ended =>
      Reported after (ended.2, some ended.1)) events loop.round := by
  refine ⟨trivial, fun _ => ?_⟩
  have polled : Followed (events ++ [⟨.sessionPoll, ()⟩]) loop :=
    followed.add ⟨rfl, rfl, rfl⟩ ⟨rfl, rfl, rfl⟩
  refine (watchSession_followed polled).bind fun middle loop first => ?_
  obtain ⟨followed, state, rest, rfl, silent, only⟩ := first
  refine (watchTermination_followed followed).bind fun after loop second => ?_
  obtain ⟨followed, more, rfl, quiet, flag⟩ := second
  have looked : Looked (events ++ [⟨.sessionPoll, ()⟩] ++ ⟨.sessionState, state⟩ :: rest ++ more) := by
    refine ⟨events, state, rest ++ more, by simp, by simp [silent, quiet], fun calm none => ?_⟩
    have before := (Bool.or_eq_false_iff.mp (List.any_append.symm.trans calm)).1
    rw [only before, flag calm none]
    rfl
  refine (watchApplication_reported followed looked).bind fun events result reported => ?_
  obtain ⟨loop, status⟩ := result
  cases status with
  | some status => exact reported
  | none =>
    have flushed : Followed (events ++ [⟨.flushNotifications, ()⟩]) loop :=
      reported.add ⟨rfl, rfl, rfl⟩ ⟨rfl, rfl, rfl⟩
    exact ⟨trivial, fun _ => ⟨trivial, fun _ => flushed.add ⟨rfl, rfl, rfl⟩ ⟨rfl, rfl, rfl⟩⟩⟩

section Ending

variable (reported : Reported events (loop, some status))

include reported

theorem Reported.add (quiet : Quiet event) (running : finishedWith event = none) :
    Reported (events ++ [event]) (loop, some status) := by
  obtain ⟨counted, killed, finished⟩ := reported
  refine ⟨counted.add quiet, fun faulted => seen_append (killed faulted) _, ?_⟩
  simpa [running] using finished

theorem blockAtEnd_reported :
    supervised.Keeps (fun after next => Reported after (next, some status)) events
      loop.blockAtEnd := by
  obtain ⟨counted, killed, finished⟩ := reported
  unfold Supervision.blockAtEnd
  split
  · exact ⟨counted, killed, finished⟩
  · refine (block_settling counted).bind fun after result reached => ?_
    obtain ⟨settling, -, -⟩ := reached
    exact ⟨settling.counted, settling.killed killed, settling.finished.trans finished⟩

theorem settled_reported :
    supervised.Keeps (fun after _ => Reported after (loop, some status)) events settled := by
  refine ⟨trivial, fun drained => ?_⟩
  have looked : Reported (events ++ [⟨.isDrained, drained⟩]) (loop, some status) :=
    reported.add ⟨rfl, rfl, rfl⟩ rfl
  cases (drained : Bool) with
  | false => exact looked
  | true => exact ⟨trivial, fun _ => looked.add ⟨rfl, rfl, rfl⟩ rfl⟩

theorem settleRound_reported (deadline : Instant) :
    supervised.Keeps (fun after => Sum.elim
        (fun _ => Reported after (loop, some status)) fun _ => Reported after (loop, some status))
      events (settleRound deadline ()) := by
  refine ⟨trivial, fun now => ?_⟩
  have looked : Reported (events ++ [⟨.now, now⟩]) (loop, some status) :=
    reported.add ⟨rfl, rfl, rfl⟩ rfl
  change supervised.Keeps _ _ (if (show Instant from now) < deadline then _ else _)
  split
  · refine (settled_reported looked).bind fun after done reached => ?_
    cases done with
    | true => exact reached
    | false =>
      have polled : Reported (after ++ [⟨.sessionPoll, ()⟩]) (loop, some status) :=
        reached.add ⟨rfl, rfl, rfl⟩ rfl
      have flushed : Reported (after ++ [⟨.sessionPoll, ()⟩] ++ [⟨.flushNotifications, ()⟩])
          (loop, some status) := polled.add ⟨rfl, rfl, rfl⟩ rfl
      exact ⟨trivial, fun _ => ⟨trivial, fun _ => ⟨trivial, fun _ =>
        flushed.add ⟨rfl, rfl, rfl⟩ rfl⟩⟩⟩
  · exact looked

end Ending

/-- The code of a run by what was seen in it. -/
def CodeOf (events : RunEvents) (code : UInt8) : Prop :=
  (events.any isFault = true → events.any isKill = true) ∧
    ∃ status, events.filterMap finishedWith = [status] ∧
      code = exitCode (events.any isFault) (events.any isTermination)
        ((events.filterMap mainExit).head?.getD (finishedCode status))

theorem finishRun_code (count : Nat) (reported : Reported events (loop, some status)) :
    supervised.Keeps (fun after result => ∀ code ∈ result, CodeOf after code) events
      (finishRun count status loop) := by
  refine (blockAtEnd_reported reported).bind fun events loop reported => ?_
  refine ⟨trivial, fun now => ?_⟩
  have looked : Reported (events ++ [⟨.now, now⟩]) (loop, some status) :=
    reported.add ⟨rfl, rfl, rfl⟩ rfl
  refine (Monitor.Keeps.rounds (fun _ _ reported => settleRound_reported reported _)
    count looked).bind fun after result reached => ?_
  cases result with
  | none => exact nofun
  | some _ =>
    obtain ⟨counted, killed, finished⟩ := reached () rfl
    intro code same
    rw [← Option.some.inj same]
    refine ⟨fun faulted => killed (counted.fault.trans faulted), status, finished, ?_⟩
    rw [← counted.fault, ← counted.terminated, ← counted.main]

theorem run_code (count : Nat) :
    supervised.Keeps (fun after result => ∀ code ∈ result, CodeOf after code) [] (run count) := by
  have start : Followed [] {} :=
    { main := rfl, fault := rfl, terminated := rfl, killed := nofun,
      untouched := fun _ => ⟨rfl, rfl⟩, touched := nofun, unfinished := rfl }
  refine (Monitor.Keeps.rounds (fun _ _ followed => round_followed followed)
    count start).bind fun after result reached => ?_
  cases result with
  | none => exact nofun
  | some ended => exact finishRun_code count (reached ended rfl)

end Rounds

/-- Each question of a run was allowed after what came before it. -/
theorem allowed_of_runs {before later : RunEvents}
    (runs : (run count).Runs (before ++ event :: later) last) :
    supervised.allowed before event.1 := by
  have allowed := (run_code count).allowed runs
  rwa [supervised, Monitor.recording_after, List.nil_append] at allowed

theorem eq_termination (termination : isTermination event = true) :
    event = ⟨.terminateLoad, true⟩ := by
  obtain ⟨op, answer⟩ := event
  cases op with
  | terminateLoad =>
    have seen : answer = true := termination
    rw [seen]
  | _ => cases termination

/-- The flag is only looked at before any result and any closure. -/
theorem terminatedWhileRunning_iff (runs : (run count).Runs events last) :
    TerminatedWhileRunning events ↔ events.any isTermination = true := by
  constructor
  · rintro ⟨before, later, rfl, -, -⟩
    exact List.any_eq_true.mpr ⟨_, List.mem_append_right _ List.mem_cons_self, rfl⟩
  · intro seen
    obtain ⟨event, member, termination⟩ := List.any_eq_true.mp seen
    cases eq_termination termination
    obtain ⟨before, later, rfl⟩ := List.append_of_mem member
    exact ⟨before, later, rfl, allowed_of_runs runs⟩

theorem request_allowed {before later : RunEvents}
    (runs : (run count).Runs (before ++ event :: later) last) (request : isRequest event = true) :
    before.any isRequest = false ∧
      ∃ deadline, before.getLast? = some ⟨.closeUntil deadline, .ok ()⟩ := by
  have allowed := allowed_of_runs runs
  obtain ⟨op, answer⟩ := event
  cases op with
  | terminate | beginGrace => exact allowed
  | _ => cases request

theorem code_of_runs (runs : (run count).Runs events (.done (some code))) : CodeOf events code := by
  have ended := (run_code count).runs runs
  rw [supervised, Monitor.recording_after, List.nil_append] at ended
  exact ended code rfl

/-- Processes are asked to end at most once, right behind a confirmed closure, the session and the
flag are looked at in every round, and the exit code says what was seen. -/
theorem run_supervised (runs : (run count).Runs events last) :
    (∀ before request later, events = before ++ request :: later → isRequest request = true →
      before.any isRequest = false ∧
        ∃ deadline, before.getLast? = some ⟨.closeUntil deadline, .ok ()⟩) ∧
    (∀ before answer later, events = before ++ ⟨.applicationPoll, answer⟩ :: later →
      Looked before) ∧
    ∀ code, last = .done (some code) →
      (events.any isFault = true → code = 125 ∧ events.any isKill = true) ∧
      (events.any isFault = false →
        (TerminatedWhileRunning events → code = 143) ∧
        (¬ TerminatedWhileRunning events → ∃ status, events.filterMap finishedWith = [status] ∧
          code = (events.filterMap mainExit).head?.getD (finishedCode status))) := by
  refine ⟨?_, ?_, ?_⟩
  · rintro before request later rfl asked
    exact request_allowed runs asked
  · rintro before answer later rfl
    exact allowed_of_runs runs
  · rintro code rfl
    obtain ⟨killed, status, finished, same⟩ := code_of_runs runs
    refine ⟨?_, ?_⟩
    · intro faulted
      rw [faulted] at same
      exact ⟨same, killed faulted⟩
    · intro faultless
      rw [faultless] at same
      rw [terminatedWhileRunning_iff runs]
      refine ⟨?_, ?_⟩
      · intro seen
        rwa [seen] at same
      · intro unseen
        rw [Bool.not_eq_true] at unseen
        rw [unseen] at same
        exact ⟨status, finished, same⟩

/-- The main command exits with 7, and the isolation ends in the round after it. -/
def ordinaryAnswer (polls : Nat) : (op : RunOp) → RunOp.Answer op × Nat
  | .sessionState => (.running, polls)
  | .terminateLoad => (false, polls)
  | .isDrained => (true, polls)
  | .closeUntil _ | .terminate | .beginGrace => (.ok (), polls)
  | .applicationPoll =>
    (.ok (some (if polls = 0 then .mainExited 7 else .finished ⟨some 9⟩)), polls + 1)
  | .now | .pendingNotifications => ((0 : Nat), polls)
  | .sessionPoll | .reportFailure _ | .kill | .notice _ | .flushNotifications | .sleep _ =>
    ((), polls)

def ordinaryEvents : RunEvents := (Program.execute ordinaryAnswer 0 (run 3)).2

/-- One request, behind the closure, and the code of the main command. -/
theorem ordinary_run : (run 3).Runs ordinaryEvents (.done (some 7)) ∧
    ordinaryEvents.any isRequest = true ∧ ordinaryEvents.any isFault = false ∧
    ∃ status, ordinaryEvents.filterMap finishedWith = [status] ∧
      7 = (ordinaryEvents.filterMap mainExit).head?.getD (finishedCode status) := by
  have runs : (run 3).Runs ordinaryEvents (.done (some 7)) :=
    Program.runs_execute ordinaryAnswer (run 3) 0
  have running : ¬ TerminatedWhileRunning ordinaryEvents := by
    rw [terminatedWhileRunning_iff runs]
    exact nofun
  refine ⟨runs, rfl, rfl, ?_⟩
  exact (((run_supervised runs).2.2 7 rfl).2 rfl).2 running

end Kakoi
