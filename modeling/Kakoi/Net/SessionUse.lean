import Kakoi.Base.Monitor
import Kakoi.Net.Session

/-! How the session uses its transport: the operations each call may start in it. -/

namespace Kakoi

/-- What the session's calls are judged by: whether the last operation on the gate is a
confirmed closure, and the rebuilds that exist. -/
structure Watch where
  closed : Bool
  rebuilds : Nat

def Watch.call (watch : Watch) (op : GateOp) (answer : Except String Unit) : Watch :=
  match op with
  | .closeUntil _ => if watch.closed then watch else { watch with closed := answer.isOk }
  | _ => { watch with closed := false }

/-- The gate is opened only without a rebuild, a rebuild started only behind the closed gate and
alone, and neither after the owner's shutdown. -/
def sessionUse (shut : Bool) : Monitor SessionOp SessionOp.Answer Watch where
  allowed watch
    | .transport (.closeUntil _) => True
    | .transport _ => watch.rebuilds = 0 ∧ shut = false
    | .rebuildStart .. => watch.closed = true ∧ watch.rebuilds = 0 ∧ shut = false
    | _ => True
  update watch
    | .transport op, answer => watch.call op answer
    | .rebuildStart .., (answer : Except String Nat) =>
      if answer.isOk then { watch with rebuilds := watch.rebuilds + 1 } else watch
    | .rebuildJoin _, _ => { watch with rebuilds := watch.rebuilds - 1 }
    | _, _ => watch

/-- The session's owned parts fit its state; `shut` once the owner closed it. -/
structure Owned (shut : Bool) (session : Session) (watch : Watch) : Prop where
  live : session.state = .prepared ∨ session.state = .running →
    session.dns = true ∧ session.watchdog.isSome = true ∧ session.recovery.state = .healthy ∧
      shut = false
  rebuilding : ∀ rebuild, session.rebuilding = some rebuild →
    session.transport = false ∧ session.state = .isolated ∧ watch.closed = true ∧
      watch.rebuilds = 1 ∧ ∃ cancelled, session.recovery.state = .working rebuild.attempt cancelled
  alone : session.rebuilding = none → watch.rebuilds = 0
  resting : (∀ attempt cancelled, session.recovery.state ≠ .working attempt cancelled) →
    session.transport = true
  shutDown : shut = true → session.automatic = false

/-- An isolated session is closed, too. -/
structure Sound (shut : Bool) (session : Session) (watch : Watch) : Prop
    extends Owned shut session watch where
  closed : session.state = .isolated → watch.closed = true

/-- How a call may end. -/
def Ended (shut : Bool) (watch : Watch) : Called → Prop
  | .returned _ session => Sound shut session watch
  | .uncompleted .. => False
  | .panicked expectation => expectation = .recoveryGeneration

/-- A call that may be made, and how it ends. -/
abbrev Judged (shut : Bool) (watch : Watch) (work : SessionWork Called) : Prop :=
  (sessionUse shut).Keeps (fun after called => Ended shut after called) watch work

section Calls

variable {session : Session}

/-- Questions that only look change nothing. -/
theorem now_watched : (sessionUse shut).Leaves watch SessionWork.now :=
  ⟨trivial, fun _ => rfl⟩

/-- What the session owns when it is verified. -/
def Verified (session : Session) : Prop :=
  session.dns = true ∧ session.watchdog.isSome = true ∧ session.transport = true

theorem verifyWatchdog_watched :
    (sessionUse shut).Keeps
      (fun after result => after = watch ∧ (result = .ok () → session.watchdog.isSome = true))
      watch session.verifyWatchdog := by
  unfold Session.verifyWatchdog
  split
  · exact ⟨rfl, fun impossible => nomatch impossible⟩
  · rename_i guard present
    refine ⟨trivial, fun answer => ?_⟩
    cases (answer : Except String WatchdogState) with
    | error error => exact ⟨rfl, fun impossible => nomatch impossible⟩
    | ok state =>
      cases state with
      | healthy => exact ⟨rfl, fun _ => by rw [present]; rfl⟩
      | unresponsive | closed => exact ⟨rfl, fun impossible => nomatch impossible⟩

theorem dnsDown_watched :
    (sessionUse shut).Keeps
      (fun after down => after = watch ∧ (down = false → session.dns = true)) watch
      session.dnsDown := by
  unfold Session.dnsDown
  split
  · rename_i present
    exact ⟨trivial, fun _ => ⟨rfl, fun _ => present⟩⟩
  · exact ⟨rfl, fun impossible => nomatch impossible⟩

theorem verify_watched :
    (sessionUse shut).Keeps
      (fun after result => after = watch ∧ (result = .ok () → Verified session)) watch
      session.verify := by
  unfold Session.verify
  split
  · exact ⟨rfl, fun impossible => nomatch impossible⟩
  · rename_i present
    refine ⟨trivial, fun answer => ?_⟩
    cases (answer : Except String Bool) with
    | error error => exact ⟨rfl, fun impossible => nomatch impossible⟩
    | ok running =>
      cases running with
      | false => exact ⟨rfl, fun impossible => nomatch impossible⟩
      | true =>
        refine dnsDown_watched.bind fun after down kept => ?_
        obtain ⟨rfl, up⟩ := kept
        split
        · exact ⟨rfl, fun impossible => nomatch impossible⟩
        · rename_i notDown
          refine verifyWatchdog_watched.mono fun after result kept => ⟨kept.1, fun ok => ?_⟩
          exact ⟨up (by simpa using notDown), kept.2 ok, by simpa using present⟩

/-- A step of a live session: it may only fail, and leaves the parts as they were. -/
def Stepped (session : Session) (after : Watch) : Except Fault Session → Prop
  | .error (.panicked _) => False
  | .error (.failed _) => after.rebuilds = 0
  | .ok next => after.rebuilds = 0 ∧ ∃ time, next = { session with nextHealth := time }

theorem refresh_watched (verified : Verified session) (alone : watch.rebuilds = 0) :
    (sessionUse false).Keeps (fun after result => Stepped session after result) watch
      session.refresh := by
  unfold Session.refresh
  split
  · rename_i absent
    have present := verified.2.1
    rw [absent] at present
    cases present
  · refine ⟨trivial, fun answer => ?_⟩
    cases (answer : Except String Unit) with
    | error error => exact alone
    | ok _ =>
      have present : ¬ (!session.transport) = true := by simp [verified.2.2]
      dsimp only
      rw [if_neg present]
      refine ⟨⟨alone, rfl⟩, fun answer => ?_⟩
      cases (answer : Except String Unit) with
      | error error => exact alone
      | ok _ =>
        refine verify_watched.bind fun after result kept => ?_
        obtain ⟨rfl, -⟩ := kept
        cases result with
        | error error => exact alone
        | ok _ => exact ⟨trivial, fun now => ⟨alone, _, rfl⟩⟩

theorem beat_watched (verified : Verified session) (alone : watch.rebuilds = 0) :
    (sessionUse false).Keeps (fun after result => Stepped session after result) watch
      session.beat := by
  unfold Session.beat
  split
  · rename_i absent
    have present := verified.2.1
    rw [absent] at present
    cases present
  · refine ⟨trivial, fun answer => ?_⟩
    cases (answer : Except String Unit) with
    | error error => exact alone
    | ok _ => exact ⟨alone, session.nextHealth, rfl⟩

theorem beatOrRefresh_watched (verified : Verified session) (alone : watch.rebuilds = 0) :
    (sessionUse false).Keeps (fun after result => Stepped session after result) watch
      session.beatOrRefresh := by
  unfold Session.beatOrRefresh
  split
  · refine now_watched.look fun now => ?_
    split
    · exact refresh_watched verified alone
    · exact beat_watched verified alone
  · exact beat_watched verified alone

/-- Without a rebuild, the gate may be open or closed. -/
theorem Owned.regate (owned : Owned shut session watch) (idle : session.rebuilding = none)
    (same : after.rebuilds = watch.rebuilds) : Owned shut session after where
  live := owned.live
  rebuilding rebuild present := by
    rw [idle] at present
    cases present
  alone none := same.trans (owned.alone none)
  resting := owned.resting
  shutDown := owned.shutDown

theorem Owned.idle (owned : Owned shut session watch)
    (live : session.state = .prepared ∨ session.state = .running) : session.rebuilding = none := by
  cases present : session.rebuilding with
  | none => rfl
  | some rebuild =>
    have isolated := (owned.rebuilding rebuild present).2.1
    rcases live with state | state <;> rw [state] at isolated <;> cases isolated

theorem Owned.transport (owned : Owned shut session watch)
    (live : session.state = .prepared ∨ session.state = .running) : session.transport = true := by
  refine owned.resting fun attempt cancelled working => ?_
  rw [(owned.live live).2.2.1] at working
  cases working

theorem cancelRebuild_watched : (sessionUse shut).Leaves watch session.cancelRebuild := by
  unfold Session.cancelRebuild
  split
  · exact ⟨trivial, fun _ => rfl⟩
  · exact rfl

theorem stopDns_watched : (sessionUse shut).Leaves watch session.stopDns := by
  unfold Session.stopDns
  split
  · exact ⟨trivial, fun _ => rfl⟩
  · exact rfl

/-- A closure that is confirmed leaves the gate closed; one that fails was the session's. -/
def ClosedBy (session : Session) (after : Watch) : Except String Unit → Prop
  | .ok _ => after.closed = true
  | .error _ => session.rebuilding = none

theorem closeTransit_watched (owned : Owned owner session watch) (deadline : Instant) :
    (sessionUse shut).Keeps
      (fun after result => after.rebuilds = watch.rebuilds ∧ ClosedBy session after result)
      watch (session.closeTransit deadline) := by
  unfold Session.closeTransit
  split
  · rename_i present
    have idle : session.rebuilding = none := by
      cases rebuilding : session.rebuilding with
      | none => rfl
      | some rebuild =>
        rw [(owned.rebuilding rebuild rebuilding).1] at present
        cases present
    refine ⟨trivial, fun answer => ?_⟩
    dsimp only [sessionUse, Watch.call]
    cases (answer : Except String Unit) with
    | error error => split <;> exact ⟨rfl, idle⟩
    | ok _ =>
      split
      · rename_i closed
        exact ⟨rfl, closed⟩
      · exact ⟨rfl, rfl⟩
  · split
    · rename_i elsewhere
      simp only [Bool.and_eq_true, decide_eq_true_eq] at elsewhere
      obtain ⟨rebuild, rebuilding⟩ := Option.isSome_iff_exists.mp elsewhere.1
      exact ⟨rfl, (owned.rebuilding rebuild rebuilding).2.2.1⟩
    · rename_i nowhere
      refine ⟨rfl, ?_⟩
      cases rebuilding : session.rebuilding with
      | none => exact rebuilding
      | some rebuild =>
        have isolated := (owned.rebuilding rebuild rebuilding).2.1
        simp [rebuilding, isolated] at nowhere

/-- The parts that a closure leaves as they were. -/
structure SameParts (closed session : Session) : Prop where
  recovery : closed.recovery = session.recovery
  rebuilding : closed.rebuilding = session.rebuilding
  transport : closed.transport = session.transport
  quiet : closed.automatic = false

/-- A closed session that does not recover is sound, also once the owner shut it down. -/
theorem sound_of_closed {closed : Session} (owned : Owned owner session watch)
    (rebuilds : after.rebuilds = watch.rebuilds) (parts : SameParts closed session)
    (state : closed.state = .isolated ∧ after.closed = true ∨
      closed.state = .unsafeState ∧ session.rebuilding = none) : Sound shut closed after where
  live live := by
    rcases state with ⟨state, -⟩ | ⟨state, -⟩ <;> rw [state] at live <;>
      rcases live with impossible | impossible <;> cases impossible
  rebuilding rebuild present := by
    rw [parts.rebuilding] at present
    obtain ⟨gone, -, -, one, working⟩ := owned.rebuilding rebuild present
    rcases state with ⟨state, shut⟩ | ⟨-, idle⟩
    · exact ⟨parts.transport.trans gone, state, shut, rebuilds.trans one,
        by rw [parts.recovery]; exact working⟩
    · rw [idle] at present
      cases present
  alone none := rebuilds.trans (owned.alone (parts.rebuilding ▸ none))
  resting idle := by
    rw [parts.transport]
    exact owned.resting (parts.recovery ▸ idle)
  shutDown _ := parts.quiet
  closed isolated := by
    rcases state with ⟨-, shut⟩ | ⟨state, -⟩
    · exact shut
    · rw [state] at isolated
      cases isolated

theorem retireWatchdog_parts (session : Session) :
    session.retireWatchdog.recovery = session.recovery ∧
      session.retireWatchdog.rebuilding = session.rebuilding ∧
      session.retireWatchdog.transport = session.transport ∧
      session.retireWatchdog.automatic = session.automatic ∧
      session.retireWatchdog.state = session.state := by
  unfold Session.retireWatchdog
  split
  · exact ⟨rfl, rfl, rfl, rfl, rfl⟩
  · exact ⟨rfl, rfl, rfl, rfl, rfl⟩

/-- What a closure leaves, whatever its result. -/
structure Shut (shut : Bool) (session : Session) (after : Watch)
    (result : Except String Unit × Session) : Prop where
  sound : Sound shut result.2 after
  parts : SameParts result.2 session
  isolated : result.1 = .ok () → result.2.state = .isolated

theorem closeUntil_watched (owned : Owned owner session watch) (deadline : Instant) :
    (sessionUse shut).Keeps (fun after result => Shut shut session after result) watch
      (session.closeUntil deadline) := by
  refine cancelRebuild_watched.look fun _ => ?_
  have quiet : Owned owner { session with automatic := false } watch :=
    ⟨owned.live, owned.rebuilding, owned.alone, owned.resting, fun _ => rfl⟩
  refine (closeTransit_watched quiet deadline).bind fun after closed kept => ?_
  obtain ⟨rebuilds, closing⟩ := kept
  refine stopDns_watched.look fun _ => ?_
  cases closed with
  | ok _ =>
    obtain ⟨recovery, rebuilding, transport, automatic, state⟩ :=
      retireWatchdog_parts { session with automatic := false, state := .isolated }
    have parts : SameParts (Session.retireWatchdog
        { session with automatic := false, state := .isolated }) session :=
      ⟨recovery, rebuilding, transport, automatic⟩
    exact ⟨sound_of_closed owned rebuilds parts (.inl ⟨state, closing⟩), parts, fun _ => state⟩
  | error error =>
    have parts : SameParts { session with automatic := false, state := .unsafeState } session :=
      ⟨rfl, rfl, rfl, rfl⟩
    exact ⟨sound_of_closed owned rebuilds parts (.inr ⟨rfl, closing⟩), parts,
      fun impossible => nomatch impossible⟩

theorem Sound.notify (sound : Sound shut session watch) (state : NetworkState) (text : String) :
    Sound shut (session.notify state text) watch :=
  ⟨⟨sound.live, sound.rebuilding, sound.alone, sound.resting, sound.shutDown⟩, sound.closed⟩

theorem Sound.reportFailure (sound : Sound shut session watch) (error : String) :
    Sound shut (session.reportFailure error) watch :=
  sound.notify _ _

/-- Recovery is only up to the session while its owner did not shut it down. -/
theorem Sound.setAutomatic (sound : Sound shut session watch)
    (allowed : shut = true → automatic = false) :
    Sound shut { session with automatic } watch :=
  ⟨⟨sound.live, sound.rebuilding, sound.alone, sound.resting, allowed⟩, sound.closed⟩

/-- The recovery timer of a session that owns its transport and is not live. -/
theorem Sound.setRecovery (sound : Sound shut session watch) (idle : session.rebuilding = none)
    (owned : session.transport = true) (isolated : session.state = .isolated)
    (recovery : Recovery) : Sound shut { session with recovery } watch where
  live live := by
    rcases live with state | state <;> cases isolated.symm.trans state
  rebuilding rebuild present := by cases idle.symm.trans present
  alone := sound.alone
  resting _ := owned
  shutDown := sound.shutDown
  closed := sound.closed

theorem fail_watched (owned : Owned false session watch)
    (live : session.state = .prepared ∨ session.state = .running) (cause : String) :
    Judged false watch (session.fail cause) := by
  refine now_watched.look fun now => ?_
  refine (closeUntil_watched owned _).bind fun after result shut => ?_
  obtain ⟨result, closed⟩ := result
  cases result with
  | error error => exact shut.sound.reportFailure _
  | ok _ =>
    have automatic : Sound false { closed with automatic := session.state = .running } after :=
      shut.sound.setAutomatic fun impossible => nomatch impossible
    dsimp only
    unfold Session.isolateRecovery
    split
    · refine now_watched.look fun now => ?_
      have idle := shut.parts.rebuilding.trans (owned.idle live)
      have present := shut.parts.transport.trans (owned.transport live)
      exact (automatic.setRecovery idle present (shut.isolated rfl) _).reportFailure _
    · exact automatic.reportFailure _

/-- A live session goes on after a step, or closes after its failure. -/
theorem proceed_watched (owned : Owned false session watch)
    (live : session.state = .prepared ∨ session.state = .running) {outcome : Except Fault Session}
    (stepped : Stepped session watch outcome)
    (goes : ∀ time, Judged false watch (next { session with nextHealth := time })) :
    Judged false watch (session.proceed outcome next) := by
  match outcome, stepped with
  | .error (.failed error), _ => exact fail_watched owned live error
  | .ok _, stepped =>
    obtain ⟨-, time, rfl⟩ := stepped
    exact goes time

theorem Stepped.alone (stepped : Stepped session after outcome) : after.rebuilds = 0 := by
  match outcome, stepped with
  | .error (.failed _), stepped => exact stepped
  | .ok _, stepped => exact stepped.1

/-- A live session is sound whatever the gate's state. -/
theorem Owned.running (owned : Owned false session watch)
    (live : session.state = .prepared ∨ session.state = .running)
    (state : next = .prepared ∨ next = .running) (time : Instant) :
    Sound false { session with nextHealth := time, state := next } watch where
  live _ := owned.live live
  rebuilding rebuild present := by cases (owned.idle live).symm.trans present
  alone := owned.alone
  resting := owned.resting
  shutDown impossible := nomatch impossible
  closed isolated := by
    rcases state with state | state <;> cases state.symm.trans isolated

theorem activate_watched (sound : Sound shut session watch) :
    Judged shut watch session.activate := by
  unfold Session.activate
  split
  · exact sound
  · rename_i state
    have live : session.state = .prepared ∨ session.state = .running := .inl (by simpa using state)
    obtain ⟨-, -, -, rfl⟩ := sound.live live
    refine verify_watched.bind fun after result kept => ?_
    obtain ⟨rfl, verifies⟩ := kept
    have idle := sound.idle live
    cases result with
    | error error => exact fail_watched sound.toOwned live error
    | ok _ =>
      refine (refresh_watched (verifies rfl) (sound.alone idle)).bind
        fun after outcome stepped => ?_
      have owned := sound.toOwned.regate idle (stepped.alone.trans (sound.alone idle).symm)
      refine proceed_watched owned live stepped fun time => ?_
      exact (owned.running live (.inr rfl) time).notify _ _

theorem pollLive_watched (sound : Sound shut session watch)
    (live : session.state = .prepared ∨ session.state = .running) :
    Judged shut watch session.pollLive := by
  obtain ⟨dns, -, -, rfl⟩ := sound.live live
  refine verify_watched.bind fun after result kept => ?_
  obtain ⟨rfl, verifies⟩ := kept
  have idle := sound.idle live
  cases result with
  | error error => exact fail_watched sound.toOwned live error
  | ok _ =>
    have present : ¬ (!session.dns) = true := by simp [dns]
    dsimp only
    rw [if_neg present]
    refine now_watched.look fun now => ?_
    refine ⟨trivial, fun answer => ?_⟩
    cases (answer : Except String Unit) with
    | error error => exact fail_watched sound.toOwned live error
    | ok _ =>
      refine (beatOrRefresh_watched (verifies rfl) (sound.alone idle)).bind
        fun after outcome stepped => ?_
      have owned := sound.toOwned.regate idle (stepped.alone.trans (sound.alone idle).symm)
      exact proceed_watched owned live stepped fun time => owned.running live live time

theorem lose_ended (session : Session) (alone : after.rebuilds = 0)
    (idle : session.rebuilding = none)
    (working : session.recovery.state = .working attempt cancelled) (error : String) :
    Ended shut after (session.lose error) := by
  refine Sound.reportFailure ⟨⟨?_, ?_, fun _ => alone, ?_, fun _ => rfl⟩, ?_⟩ error
  · rintro (impossible | impossible) <;> cases impossible
  · intro rebuild present
    cases idle.symm.trans present
  · intro resting
    exact absurd working (resting _ _)
  · intro impossible
    cases impossible

theorem Watch.call_rebuilds (watch : Watch) (op : GateOp) (answer : Except String Unit) :
    (watch.call op answer).rebuilds = watch.rebuilds := by
  cases op with
  | closeUntil deadline =>
    dsimp only [Watch.call]
    split
    · rfl
    · rfl
  | renewFor | reopenUntil => rfl

theorem dropTransport_watched :
    (sessionUse shut).Keeps (fun after _ => after.rebuilds = watch.rebuilds) watch
      Session.dropTransport := by
  refine now_watched.look fun now => ?_
  exact ⟨trivial, fun answer => Watch.call_rebuilds ..⟩

/-- A rebuild is started behind the closed gate, and takes the transport. -/
theorem startRebuild_watched (closed : watch.closed = true) (alone : watch.rebuilds = 0)
    (isolated : session.state = .isolated) (idle : session.rebuilding = none)
    (present : session.transport = true) (open_ : shut = false)
    (working : session.recovery.state = .working attempt false) :
    Judged shut watch (session.startRebuild attempt) := by
  have owned : ¬ (!session.transport) = true := by simp [present]
  unfold Session.startRebuild
  dsimp only
  rw [if_neg owned]
  refine ⟨⟨closed, alone, open_⟩, fun answer => ?_⟩
  cases (answer : Except String Nat) with
  | ok handle =>
    refine ⟨⟨?_, ?_, ?_, ?_, ?_⟩, fun _ => closed⟩
    · rintro (state | state) <;> cases isolated.symm.trans state
    · intro rebuild started
      cases started
      exact ⟨rfl, isolated, closed, by simp [sessionUse, Except.isOk, Except.toBool, alone],
        false, working⟩
    · intro impossible
      cases impossible
    · intro resting
      exact absurd working (resting _ _)
    · intro closed
      rw [open_] at closed
      cases closed
  | error error =>
    refine dropTransport_watched.bind fun after _ rebuilds => ?_
    exact lose_ended { session with dns := false, transport := false, retiredGuards := [] }
      (rebuilds.trans alone) idle working error

/-- What polls of recovery leave when they start nothing. -/
theorem Sound.repolled (sound : Sound shut session watch)
    (polled : session.recovery.poll now = some (action, recovery))
    (other : ∀ attempt, action ≠ .start attempt) : Sound shut { session with recovery } watch := by
  obtain rfl | ⟨attempt, before, after⟩ := Recovery.poll_other polled other
  · exact sound
  · refine ⟨⟨fun live => ?_, fun rebuild present => ?_, sound.alone, fun resting => ?_,
      sound.shutDown⟩, sound.closed⟩
    · cases before.symm.trans (sound.live live).2.2.1
    · obtain ⟨gone, isolated, closed, one, cancelled, working⟩ := sound.rebuilding rebuild present
      cases before.symm.trans working
      exact ⟨gone, isolated, closed, one, true, after⟩
    · exact absurd after (resting _ _)

/-- Recovery is polled for an isolated session that recovers by itself. -/
theorem pollRecovery_watched (sound : Sound shut session watch)
    (state : session.state = .isolated ∨ session.state = .unsafeState) :
    Judged shut watch session.pollRecovery := by
  unfold Session.pollRecovery
  split
  · exact sound
  · rename_i recovers
    simp only [Bool.or_eq_true, Bool.not_eq_eq_eq_not, Bool.not_true, decide_eq_true_eq,
      not_or, Bool.not_eq_false] at recovers
    obtain ⟨automatic, safe⟩ := recovers
    have isolated := state.resolve_right safe
    have open_ : shut = false := by
      cases shut with
      | false => rfl
      | true => cases automatic.symm.trans (sound.shutDown rfl)
    refine now_watched.look fun now => ?_
    split
    · exact rfl
    · rename_i attempt recovery polled
      obtain ⟨⟨time, waits⟩, working⟩ := Recovery.poll_start polled
      have present : session.transport = true :=
        sound.resting fun attempt cancelled impossible => by
          rw [waits] at impossible
          cases impossible
      have idle : session.rebuilding = none := by
        cases rebuilding : session.rebuilding with
        | none => rfl
        | some rebuild =>
          rw [(sound.rebuilding rebuild rebuilding).1] at present
          cases present
      exact startRebuild_watched (sound.closed isolated) (sound.alone idle) isolated idle present
        open_ working
    · rename_i attempt recovery polled
      refine cancelRebuild_watched.look fun _ => ?_
      exact sound.repolled polled fun _ => by simp
    · rename_i recovery polled
      exact sound.repolled polled fun _ => by simp

/-- The session while it takes a rebuild's result. -/
structure Returned (shut : Bool) (session : Session) (attempt : Attempt) (watch : Watch) :
    Prop where
  idle : session.rebuilding = none
  transport : session.transport = true
  isolated : session.state = .isolated
  alone : watch.rebuilds = 0
  working : ∃ cancelled, session.recovery.state = .working attempt cancelled
  shutDown : shut = true → session.automatic = false

/-- The session goes on to complete the attempt; only a verified one did succeed. -/
def TakenBack (shut : Bool) (attempt : Attempt) (after : Watch)
    (result : Except Fault Unit × Session) : Prop :=
  match result.1 with
  | .error (.panicked _) => False
  | .error (.failed _) => Returned shut result.2 attempt after
  | .ok _ => Returned shut result.2 attempt after ∧ Verified result.2 ∧ shut = false

theorem reopen_watched (returned : Returned false session attempt watch) :
    (sessionUse false).Keeps (fun after result => TakenBack false attempt after result) watch
      (session.reopen attempt) := by
  have present : ¬ (!session.transport) = true := by simp [returned.transport]
  unfold Session.reopen
  rw [if_neg present]
  refine ⟨trivial, fun answer => ?_⟩
  cases (answer : Except String String) with
  | error error => exact returned
  | ok guard =>
    have guarded : Returned false { session with watchdog := some guard } attempt watch :=
      ⟨returned.idle, returned.transport, returned.isolated, returned.alone, returned.working,
        returned.shutDown⟩
    refine verify_watched.bind fun after result kept => ?_
    obtain ⟨rfl, -⟩ := kept
    cases result with
    | error error => exact guarded
    | ok _ =>
      refine now_watched.look fun now => ?_
      refine ⟨⟨guarded.alone, rfl⟩, fun answer => ?_⟩
      have opened : Returned false { session with watchdog := some guard } attempt
          { after with closed := false } :=
        ⟨returned.idle, returned.transport, returned.isolated, returned.alone, returned.working,
          returned.shutDown⟩
      cases (answer : Except String Unit) with
      | error error => exact opened
      | ok _ =>
        refine verify_watched.bind fun after result kept => ?_
        obtain ⟨rfl, verifies⟩ := kept
        cases result with
        | error error => exact opened
        | ok _ => exact ⟨opened, verifies rfl, rfl⟩

theorem takeRebuilt_watched (returned : Returned shut session attempt watch)
    (dns : Except String Unit) :
    (sessionUse shut).Keeps (fun after result => TakenBack shut attempt after result) watch
      (session.takeRebuilt attempt dns) := by
  unfold Session.takeRebuilt
  split
  · exact returned
  · unfold Session.admissible
    split
    · rename_i automatic
      have open_ : shut = false := by
        cases shut with
        | false => rfl
        | true => cases automatic.symm.trans (returned.shutDown rfl)
      subst open_
      refine now_watched.look fun now => ?_
      dsimp only [Program.pure_eq, Program.done_bind]
      split
      · exact reopen_watched returned
      · exact returned
    · exact returned

/-- A session whose rebuild did not recover is closed again and waits for the next. -/
theorem closeAgain_watched (owned : Owned shut session watch) (error : String) :
    Judged shut watch (session.closeAgain error) := by
  refine now_watched.look fun now => ?_
  refine (closeUntil_watched owned _).bind fun after result closed => ?_
  obtain ⟨result, next⟩ := result
  cases result with
  | error error => exact closed.sound.reportFailure error
  | ok _ =>
    have automatic : Sound shut { next with automatic := session.automatic } after :=
      closed.sound.setAutomatic owned.shutDown
    dsimp only
    split
    · exact automatic.reportFailure error
    · exact automatic

theorem completeRebuild_watched (returned : Returned shut session attempt watch)
    (verified : succeeded = true → Verified session ∧ shut = false) (error : String) :
    Judged shut watch (session.completeRebuild attempt succeeded error) := by
  refine now_watched.look fun now => ?_
  obtain ⟨cancelled, working⟩ := returned.working
  obtain ⟨recovered, completes, recovers, waits⟩ :=
    Recovery.complete_working working succeeded now
  generalize session.recovery.complete attempt succeeded now = completed at completes recovers waits
  obtain ⟨completion, recovery⟩ := completed
  dsimp only at completes recovers waits
  subst completes
  cases recovered with
  | true =>
    refine now_watched.look fun now => ?_
    obtain ⟨success, healthy⟩ := recovers rfl
    obtain ⟨⟨dns, watchdog, -⟩, open_⟩ := verified success
    have sound : Sound shut { session with
        recovery, state := .running, nextHealth := now + healthInterval } watch := by
      refine ⟨⟨fun _ => ⟨dns, watchdog, healthy, open_⟩, fun rebuild present => ?_,
        fun _ => returned.alone, fun _ => returned.transport, returned.shutDown⟩,
        fun impossible => by cases impossible⟩
      cases returned.idle.symm.trans present
    exact sound.notify _ _
  | false =>
    have owned : Owned shut { session with recovery } watch := by
      refine ⟨fun live => ?_, fun rebuild present => ?_, fun _ => returned.alone,
        fun _ => returned.transport, returned.shutDown⟩
      · rcases live with state | state <;> cases returned.isolated.symm.trans state
      · cases returned.idle.symm.trans present
    exact closeAgain_watched owned error

theorem finishRebuild_watched (sound : Sound shut session watch)
    (finished : session.rebuilding = some rebuild) :
    Judged shut watch session.finishRebuild := by
  obtain ⟨-, isolated, -, one, cancelled, working⟩ := sound.rebuilding rebuild finished
  unfold Session.finishRebuild
  rw [finished]
  refine ⟨trivial, fun answer => ?_⟩
  have alone : ((sessionUse shut).update watch (.rebuildJoin rebuild.handle) answer).rebuilds =
      0 := by
    simp [sessionUse, one]
  cases (answer : Except String Rebuilt) with
  | error error =>
    exact lose_ended { session with rebuilding := none } alone rfl working error
  | ok rebuilt =>
    have returned : Returned shut { session with
        rebuilding := none
        transport := true
        retiredGuards := rebuilt.retiredGuards
        dns := session.dns || rebuilt.dns.isOk } rebuild.attempt _ :=
      ⟨rfl, rfl, isolated, alone, ⟨cancelled, working⟩, sound.shutDown⟩
    refine (takeRebuilt_watched returned rebuilt.dns).bind fun after result taken => ?_
    obtain ⟨outcome, next⟩ := result
    match outcome, taken with
    | .error (.failed error), taken =>
      have failed : false = true → Verified next ∧ shut = false := fun impossible => by
        cases impossible
      exact completeRebuild_watched taken failed error
    | .ok _, ⟨returned, verified, open_⟩ =>
      have succeeded : true = true → Verified next ∧ shut = false := fun _ => ⟨verified, open_⟩
      exact completeRebuild_watched returned succeeded _

theorem pollDrained_watched (sound : Sound shut session watch)
    (state : session.state = .isolated ∨ session.state = .unsafeState) :
    Judged shut watch session.pollDrained := by
  unfold Session.pollDrained
  split
  · exact pollRecovery_watched sound state
  · rename_i rebuild present
    refine ⟨trivial, fun answer => ?_⟩
    cases (answer : Bool) with
    | true => exact finishRebuild_watched sound present
    | false => exact pollRecovery_watched sound state

theorem pollIsolated_watched (sound : Sound shut session watch)
    (state : session.state = .isolated ∨ session.state = .unsafeState) :
    Judged shut watch session.pollIsolated := by
  unfold Session.pollIsolated
  split
  · refine now_watched.look fun now => ?_
    refine ⟨trivial, fun result => ⟨trivial, fun answer => ?_⟩⟩
    cases (answer : Bool) with
    | true => exact pollDrained_watched sound state
    | false => exact sound
  · exact pollDrained_watched sound state

theorem poll_watched (sound : Sound shut session watch) : Judged shut watch session.poll := by
  unfold Session.poll
  split
  · rename_i state
    exact pollIsolated_watched sound (by simpa using state)
  · rename_i state
    refine pollLive_watched sound ?_
    cases reached : session.state with
    | prepared => exact .inl rfl
    | running => exact .inr rfl
    | isolated | unsafeState => simp [reached] at state

end Calls

end Kakoi
