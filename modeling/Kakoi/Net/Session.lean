import Kakoi.Base.Program
import Kakoi.Net.Recovery
import Kakoi.Net.Notification

/-! The session, which owns the network controllers: activation, polling, closure and rebuild. -/

namespace Kakoi

inductive SessionState where
  | prepared
  | running
  | isolated
  | unsafeState
  deriving DecidableEq

inductive WatchdogState where
  | healthy
  | unresponsive
  | closed
  deriving DecidableEq

def WatchdogState.debug : WatchdogState → String
  | .healthy => "Healthy"
  | .unresponsive => "Unresponsive"
  | .closed => "Closed"

/-- The longest time of one nft command. -/
def commandBudget : Duration := seconds 2

def healthInterval : Duration := seconds 1

def healthWindowMs : Nat := 5000

/-- An operation on the health gate. -/
inductive GateOp where
  | renewFor (milliseconds : Nat)
  | reopenUntil (milliseconds : Nat) (deadline : Instant)
  | closeUntil (deadline : Instant)
  deriving DecidableEq

/-- The transport moves between the session and a rebuild; it knows whether the gate's
closure was confirmed. -/
structure Transport where
  closedConfirmed : Bool := false
  deriving DecidableEq

/-- What a call of the transport gives, and the operation it started on the gate. -/
structure TransportCall where
  answer : Except String Unit
  transport : Transport
  started : Option GateOp

/-- The transport's calls `renew_for`, `reopen_until` and `close_until`, given what the gate
answers. -/
def Transport.call (transport : Transport) (op : GateOp) (gate : Except String Unit) :
    TransportCall :=
  match op with
  | .closeUntil _ =>
    if transport.closedConfirmed then { answer := .ok (), transport, started := none }
    else { answer := gate, transport := { closedConfirmed := gate.isOk }, started := some op }
  | _ => { answer := gate, transport := { closedConfirmed := false }, started := some op }

/-- What a rebuild returns with the transport. -/
structure Rebuilt where
  dns : Except String Unit
  retiredGuards : List String

inductive SessionOp where
  | now
  | transport (op : GateOp)
  | isRunning
  | dnsFaulted
  | dnsPoll (now : Instant)
  | dnsFinished
  | dnsStop
  | watchdogStart
  | watchdogPoll
  | heartbeat
  | rebuildStart (attempt : Attempt) (retiredGuards : List String)
  | rebuildCancel (handle : Nat)
  | rebuildFinished (handle : Nat)
  | rebuildJoin (handle : Nat)

def SessionOp.Answer : SessionOp → Type
  | .now => Instant
  | .transport _ => Except String Unit
  | .isRunning => Except String Bool
  | .dnsFaulted => Bool
  | .dnsPoll _ => Except String Unit
  | .dnsFinished => Bool
  | .dnsStop => Unit
  | .watchdogStart => Except String String
  | .watchdogPoll => Except String WatchdogState
  | .heartbeat => Except String Unit
  | .rebuildStart .. => Except String Nat
  | .rebuildCancel _ => Unit
  | .rebuildFinished _ => Bool
  | .rebuildJoin _ => Except String Rebuilt

abbrev SessionWork := Program SessionOp SessionOp.Answer

namespace SessionWork

def now : SessionWork Instant := .ask .now .done

def transport (op : GateOp) : SessionWork (Except String Unit) := .ask (.transport op) .done

def isRunning : SessionWork (Except String Bool) := .ask .isRunning .done

def dnsFaulted : SessionWork Bool := .ask .dnsFaulted .done

def dnsPoll (now : Instant) : SessionWork (Except String Unit) := .ask (.dnsPoll now) .done

def dnsFinished : SessionWork Bool := .ask .dnsFinished .done

def dnsStop : SessionWork Unit := .ask .dnsStop .done

def watchdogStart : SessionWork (Except String String) := .ask .watchdogStart .done

def watchdogPoll : SessionWork (Except String WatchdogState) := .ask .watchdogPoll .done

def heartbeat : SessionWork (Except String Unit) := .ask .heartbeat .done

def rebuildStart (attempt : Attempt) (retiredGuards : List String) :
    SessionWork (Except String Nat) :=
  .ask (.rebuildStart attempt retiredGuards) .done

def rebuildCancel (handle : Nat) : SessionWork Unit := .ask (.rebuildCancel handle) .done

def rebuildFinished (handle : Nat) : SessionWork Bool := .ask (.rebuildFinished handle) .done

def rebuildJoin (handle : Nat) : SessionWork (Except String Rebuilt) :=
  .ask (.rebuildJoin handle) .done

end SessionWork

structure Rebuild where
  attempt : Attempt
  handle : Nat

/-- The owned parts are present or not; a watchdog has the name of its guard table. -/
structure Session where
  dns : Bool
  watchdog : Option String
  transport : Bool
  recovery : Recovery
  rebuilding : Option Rebuild := none
  retiredGuards : List String := []
  automatic : Bool := false
  state : SessionState := .prepared
  nextHealth : Instant
  notifications : List (NetworkState × String) := []

/-- What the source expects, and panics without. -/
inductive Expectation where
  | liveDns
  | liveWatchdog
  | liveTransport
  | noOverlappingRecovery
  | finishedRecovery
  | returnedTransport
  | recoveryGeneration
  deriving DecidableEq

inductive Fault where
  | failed (error : String)
  | panicked (expectation : Expectation)

/-- How a call ends. A refused completion also returns its error; it is told apart since
the session expects none. -/
inductive Called where
  | returned (result : Except String Unit) (session : Session)
  | uncompleted (error : String) (session : Session)
  | panicked (expectation : Expectation)

namespace Session

/-- The session that `prepare` returns once its commands succeeded. -/
def initial (recovery : Recovery) (guard : String) (now : Instant) : Session :=
  { dns := true, watchdog := some guard, transport := true, recovery, nextHealth := now }

def notify (session : Session) (state : NetworkState) (text : String) : Session :=
  { session with notifications := session.notifications ++ [(state, text)] }

def reportFailure (session : Session) (error : String) : Session :=
  session.notify (if session.state = .unsafeState then .unsafeState else .isolated) error

/-- `dns.is_none_or(is_faulted)`. -/
def dnsDown (session : Session) : SessionWork Bool :=
  if session.dns then SessionWork.dnsFaulted else return true

def verifyWatchdog (session : Session) : SessionWork (Except String Unit) :=
  match session.watchdog with
  | none => return .error "watchdog unavailable"
  | some _ => do
    match ← SessionWork.watchdogPoll with
    | .error error => return .error error
    | .ok .healthy => return .ok ()
    | .ok state => return .error ("transit watchdog is " ++ state.debug)

def verify (session : Session) : SessionWork (Except String Unit) :=
  if !session.transport then return .error "transport unavailable"
  else do
    match ← SessionWork.isRunning with
    | .error error => return .error error
    | .ok false => return .error "network controller stopped"
    | .ok true =>
      if ← session.dnsDown then return .error "network controller stopped"
      else session.verifyWatchdog

def refresh (session : Session) : SessionWork (Except Fault Session) :=
  match session.watchdog with
  | none => return .error (.panicked .liveWatchdog)
  | some _ => do
    match ← SessionWork.heartbeat with
    | .error error => return .error (.failed error)
    | .ok () =>
      if !session.transport then return .error (.panicked .liveTransport)
      else
        match ← SessionWork.transport (.renewFor healthWindowMs) with
        | .error error => return .error (.failed error)
        | .ok () =>
          match ← session.verify with
          | .error error => return .error (.failed error)
          | .ok () =>
            let now ← SessionWork.now
            return .ok { session with nextHealth := now + healthInterval }

def cancelRebuild (session : Session) : SessionWork Unit :=
  match session.rebuilding with
  | some rebuild => SessionWork.rebuildCancel rebuild.handle
  | none => return ()

/-- Closes what the session owns; a rebuild owns a transport that is already closed. -/
def closeTransit (session : Session) (deadline : Instant) : SessionWork (Except String Unit) :=
  if session.transport then SessionWork.transport (.closeUntil deadline)
  else if session.rebuilding.isSome && session.state = .isolated then return .ok ()
  else return .error "transit owner unavailable"

def stopDns (session : Session) : SessionWork Unit :=
  if session.dns then SessionWork.dnsStop else return ()

def retireWatchdog (session : Session) : Session :=
  match session.watchdog with
  | some guard =>
    { session with watchdog := none, retiredGuards := session.retiredGuards ++ [guard] }
  | none => session

/-- Explicit shutdown disables automatic recovery. -/
def closeUntil (session : Session) (deadline : Instant) :
    SessionWork (Except String Unit × Session) := do
  let session := { session with automatic := false }
  session.cancelRebuild
  let closed ← session.closeTransit deadline
  session.stopDns
  match closed with
  | .ok () => return (.ok (), { session with state := .isolated }.retireWatchdog)
  | .error error => return (.error error, { session with state := .unsafeState })

/-- Has recovery wait for its next attempt, where the session recovers by itself. -/
def isolateRecovery (session : Session) : SessionWork Session :=
  if session.automatic then do
    let now ← SessionWork.now
    return { session with recovery := session.recovery.isolate now }
  else return session

/-- Closes after a failure; only a running session recovers. -/
def fail (session : Session) (cause : String) : SessionWork Called := do
  let recover : Bool := session.state = .running
  let now ← SessionWork.now
  match ← session.closeUntil (now + commandBudget) with
  | (.ok (), closed) =>
    let closed ← isolateRecovery { closed with automatic := recover }
    return .returned (.error cause) (closed.reportFailure cause)
  | (.error closure, closed) =>
    let error := cause ++ "; transit closure unconfirmed: " ++ closure
    return .returned (.error error) (closed.reportFailure error)

/-- What follows a step that may fail or panic. -/
def proceed (session : Session) (outcome : Except Fault Session)
    (next : Session → SessionWork Called) : SessionWork Called :=
  match outcome with
  | .error (.panicked expectation) => return .panicked expectation
  | .error (.failed error) => session.fail error
  | .ok session => next session

def activate (session : Session) : SessionWork Called :=
  if session.state ≠ .prepared then
    return .returned (.error "session is not prepared for initial activation") session
  else do
    match ← session.verify with
    | .error error => session.fail error
    | .ok () =>
      session.proceed (← session.refresh) fun session =>
        return .returned (.ok ()) ({ session with state := .running }.notify .running "ready")

def beat (session : Session) : SessionWork (Except Fault Session) :=
  match session.watchdog with
  | none => return .error (.panicked .liveWatchdog)
  | some _ => do
    match ← SessionWork.heartbeat with
    | .error error => return .error (.failed error)
    | .ok () => return .ok session

/-- A running session renews the gate's lease when it is due. -/
def beatOrRefresh (session : Session) : SessionWork (Except Fault Session) :=
  if session.state = .running then do
    let now ← SessionWork.now
    if session.nextHealth ≤ now then session.refresh else session.beat
  else session.beat

def pollLive (session : Session) : SessionWork Called := do
  match ← session.verify with
  | .error error => session.fail error
  | .ok () =>
    if !session.dns then return .panicked .liveDns
    else
      let now ← SessionWork.now
      match ← SessionWork.dnsPoll now with
      | .error error => session.fail error
      | .ok () =>
        session.proceed (← session.beatOrRefresh) fun session =>
          return .returned (.ok ()) session

/-- The transport is dropped with the thread that was not started. -/
def dropTransport : SessionWork (Except String Unit) := do
  let now ← SessionWork.now
  SessionWork.transport (.closeUntil (now + commandBudget))

/-- The session lost its transport. -/
def lose (session : Session) (error : String) : Called :=
  .returned (.error error)
    ({ session with state := .unsafeState, automatic := false }.reportFailure error)

def startRebuild (session : Session) (attempt : Attempt) : SessionWork Called :=
  let session := { session with dns := false }
  if !session.transport then return .panicked .noOverlappingRecovery
  else do
    match ← SessionWork.rebuildStart attempt session.retiredGuards with
    | .ok handle =>
      return .returned (.ok ()) { session with
        transport := false
        retiredGuards := []
        rebuilding := some { attempt, handle } }
    | .error error =>
      let _ ← dropTransport
      return { session with transport := false, retiredGuards := [] }.lose error

def pollRecovery (session : Session) : SessionWork Called :=
  if !session.automatic || session.state = .unsafeState then return .returned (.ok ()) session
  else do
    let now ← SessionWork.now
    match session.recovery.poll now with
    | none => return .panicked .recoveryGeneration
    | some (.start attempt, recovery) => startRebuild { session with recovery } attempt
    | some (.cancel _, recovery) =>
      session.cancelRebuild
      return .returned (.ok ()) { session with recovery }
    | some (.wait, recovery) => return .returned (.ok ()) { session with recovery }

/-- A result is admissible while recovery is automatic and the attempt's time lasts. -/
def admissible (session : Session) (attempt : Attempt) : SessionWork Bool :=
  if session.automatic then do
    let now ← SessionWork.now
    return now < attempt.deadline
  else return false

/-- Opens the gate again once the rebuilt controllers are verified. -/
def reopen (session : Session) (attempt : Attempt) : SessionWork (Except Fault Unit × Session) :=
  if !session.transport then return (.error (.panicked .returnedTransport), session)
  else do
    match ← SessionWork.watchdogStart with
    | .error error => return (.error (.failed error), session)
    | .ok guard =>
      let session := { session with watchdog := some guard }
      match ← session.verify with
      | .error error => return (.error (.failed error), session)
      | .ok () =>
        let now ← SessionWork.now
        match ← SessionWork.transport
            (.reopenUntil healthWindowMs (min attempt.deadline (now + commandBudget))) with
        | .error error => return (.error (.failed error), session)
        | .ok () =>
          match ← session.verify with
          | .error error => return (.error (.failed error), session)
          | .ok () => return (.ok (), session)

def takeRebuilt (session : Session) (attempt : Attempt) (dns : Except String Unit) :
    SessionWork (Except Fault Unit × Session) :=
  match dns with
  | .error error => return (.error (.failed error), session)
  | .ok () => do
    if ← session.admissible attempt then session.reopen attempt
    else return (.error (.failed "recovery result is no longer admissible"), session)

/-- After a rebuild that did not recover, the gate is closed again. -/
def closeAgain (session : Session) (error : String) : SessionWork Called := do
  let now ← SessionWork.now
  match ← session.closeUntil (now + commandBudget) with
  | (.error error, closed) => return .returned (.error error) (closed.reportFailure error)
  | (.ok (), closed) =>
    let closed := { closed with automatic := session.automatic }
    return .returned (.error error) (if session.automatic then closed.reportFailure error else closed)

def completeRebuild (session : Session) (attempt : Attempt) (succeeded : Bool)
    (error : String) : SessionWork Called := do
  let now ← SessionWork.now
  match session.recovery.complete attempt succeeded now with
  | (.error refused, recovery) => return .uncompleted refused { session with recovery }
  | (.ok true, recovery) =>
    let now ← SessionWork.now
    return .returned (.ok ())
      ({ session with recovery, state := .running, nextHealth := now + healthInterval }.notify
        .running "restored")
  | (.ok false, recovery) => closeAgain { session with recovery } error

def finishRebuild (session : Session) : SessionWork Called :=
  match session.rebuilding with
  | none => return .panicked .finishedRecovery
  | some rebuild => do
    let session := { session with rebuilding := none }
    match ← SessionWork.rebuildJoin rebuild.handle with
    | .error error => return session.lose error
    | .ok rebuilt =>
      let session := { session with
        transport := true
        retiredGuards := rebuilt.retiredGuards
        dns := session.dns || rebuilt.dns.isOk }
      match ← session.takeRebuilt rebuild.attempt rebuilt.dns with
      | (.error (.panicked expectation), _) => return .panicked expectation
      | (.error (.failed error), session) => session.completeRebuild rebuild.attempt false error
      | (.ok (), session) =>
        session.completeRebuild rebuild.attempt true "recovery deadline expired"

def pollDrained (session : Session) : SessionWork Called :=
  match session.rebuilding with
  | none => session.pollRecovery
  | some rebuild => do
    if ← SessionWork.rebuildFinished rebuild.handle then session.finishRebuild
    else session.pollRecovery

/-- A stopped DNS runtime is drained before anything else. -/
def pollIsolated (session : Session) : SessionWork Called :=
  if session.dns then do
    let now ← SessionWork.now
    let result ← SessionWork.dnsPoll now
    if ← SessionWork.dnsFinished then session.pollDrained
    else return .returned result session
  else session.pollDrained

def poll (session : Session) : SessionWork Called :=
  if session.state = .isolated || session.state = .unsafeState then session.pollIsolated
  else session.pollLive

end Session

inductive PastaStage where
  | outer
  | inner
  deriving DecidableEq

inductive RebuildOp where
  | now
  | isCancelled
  | transport (op : GateOp)
  | apply (script : String) (deadline : Instant)
  | pastaStart (stage : PastaStage) (time : Duration)
  | dnsStart

def RebuildOp.Answer : RebuildOp → Type
  | .now => Instant
  | .isCancelled => Bool
  | .transport _ => Except String Unit
  | .apply .. => Except String Unit
  | .pastaStart .. => Except String Unit
  | .dnsStart => Except String Unit

abbrev RebuildWork := Program RebuildOp RebuildOp.Answer

namespace Rebuild

def now : RebuildWork Instant := .ask .now .done

def isCancelled : RebuildWork Bool := .ask .isCancelled .done

def transport (op : GateOp) : RebuildWork (Except String Unit) := .ask (.transport op) .done

def pastaStart (stage : PastaStage) (time : Duration) : RebuildWork (Except String Unit) :=
  .ask (.pastaStart stage time) .done

def dnsStart : RebuildWork (Except String Unit) := .ask .dnsStart .done

/-- A command gets what is left of the attempt, and at most its own budget. -/
def apply (attempt : Attempt) (script : String) : RebuildWork (Except String Unit) := do
  let now ← now
  .ask (.apply script (min attempt.deadline (now + commandBudget))) .done

/-- The time that is left of an attempt. -/
def remainingTime (deadline : Instant) : RebuildWork (Except String Duration) := do
  if ← isCancelled then return .error "transport recovery cancelled"
  else
    let now ← now
    return if now < deadline then .ok (deadline - now)
      else .error "transport recovery deadline expired"

def startPasta (deadline : Instant) (stage : PastaStage) : RebuildWork (Except String Unit) := do
  match ← remainingTime deadline with
  | .error error => return .error error
  | .ok time => pastaStart stage time

/-- Replaces the forwarders behind the closed gate. -/
def restartControlled (deadline : Instant) : RebuildWork (Except String Unit) := do
  match ← transport (.closeUntil deadline) with
  | .error error => return .error error
  | .ok () =>
    match ← startPasta deadline .outer with
    | .error error => return .error error
    | .ok () =>
      match ← startPasta deadline .inner with
      | .error error => return .error error
      | .ok () =>
        match ← remainingTime deadline with
        | .error error => return .error error
        | .ok _ => return .ok ()

def isOver (deadline : Instant) : RebuildWork Bool := do
  if ← isCancelled then return true
  else
    let now ← now
    return deadline ≤ now

def rebuildBehind (script : String) (attempt : Attempt) : RebuildWork (Except String Unit) := do
  match ← restartControlled attempt.deadline with
  | .error error => return .error error
  | .ok () =>
    match ← apply attempt ("delete table inet kakoi_policy\n" ++ script) with
    | .error error => return .error error
    | .ok () =>
      if ← isOver attempt.deadline then return .error "recovery deadline expired"
      else dnsStart

def cleanup (retiredGuards : List String) : String :=
  String.join (retiredGuards.map fun name =>
    "add table inet " ++ name ++ "\ndelete table inet " ++ name ++ "\n")

/-- The work of the rebuild's thread. -/
def work (script : String) (attempt : Attempt) (retiredGuards : List String) :
    RebuildWork Rebuilt :=
  if retiredGuards.isEmpty then
    return { dns := ← rebuildBehind script attempt, retiredGuards }
  else do
    match ← apply attempt (cleanup retiredGuards) with
    | .error error => return { dns := .error error, retiredGuards }
    | .ok () => return { dns := ← rebuildBehind script attempt, retiredGuards := [] }

end Rebuild

end Kakoi
