import Kakoi.Base.Monitor
import Kakoi.Net.Session

/-! The supervision loop of a filtered run: it blocks the network before any process is asked to
end. -/

namespace Kakoi

/-- An environment ended because neither enforcement nor blocking held. -/
def safetyFault : UInt8 := 125

/-- An external termination request while the main command ran. -/
def terminatedCode : UInt8 := 143

def exitCode (fault terminatedWhileRunning : Bool) (main : UInt8) : UInt8 :=
  if fault then safetyFault else if terminatedWhileRunning then terminatedCode else main

def runInterval : Duration := milliseconds 20

def closure : Duration := seconds 2

def settle : Duration := seconds 2

/-- How bwrap ended: with a code, or by a signal. -/
structure ExitStatus where
  code : Option Int
  deriving DecidableEq

inductive ApplicationEvent where
  | mainExited (code : UInt8)
  | graceInterrupted
  | finished (status : ExitStatus)
  deriving DecidableEq

inductive RunOp where
  | sessionPoll
  | sessionState
  | terminateLoad
  | closeUntil (deadline : Instant)
  | reportFailure (text : String)
  | terminate
  | beginGrace
  | kill
  | applicationPoll
  | notice (text : String)
  | flushNotifications
  | sleep (duration : Duration)
  | now
  | isDrained
  | pendingNotifications

/-- What the session, the application and the termination flag give; the result of the
session's poll is not looked at. -/
def RunOp.Answer : RunOp → Type
  | .sessionState => SessionState
  | .terminateLoad | .isDrained => Bool
  | .closeUntil _ | .terminate | .beginGrace => Except String Unit
  | .applicationPoll => Except String (Option ApplicationEvent)
  | .now => Instant
  | .pendingNotifications => Nat
  | _ => Unit

abbrev RunWork := Program RunOp RunOp.Answer

abbrev RunEvents := List (Program.Event RunOp RunOp.Answer)

namespace RunWork

def now : RunWork Instant := .perform RunOp.now

def sessionPoll : RunWork Unit := .perform RunOp.sessionPoll

def sessionState : RunWork SessionState := .perform RunOp.sessionState

def terminateLoad : RunWork Bool := .perform RunOp.terminateLoad

def closeUntil (deadline : Instant) : RunWork (Except String Unit) :=
  .perform (RunOp.closeUntil deadline)

def reportFailure (text : String) : RunWork Unit := .perform (RunOp.reportFailure text)

def terminate : RunWork (Except String Unit) := .perform RunOp.terminate

def beginGrace : RunWork (Except String Unit) := .perform RunOp.beginGrace

def kill : RunWork Unit := .perform RunOp.kill

def applicationPoll : RunWork (Except String (Option ApplicationEvent)) :=
  .perform RunOp.applicationPoll

def notice (text : String) : RunWork Unit := .perform (RunOp.notice text)

def flushNotifications : RunWork Unit := .perform RunOp.flushNotifications

def sleep (duration : Duration) : RunWork Unit := .perform (RunOp.sleep duration)

def isDrained : RunWork Bool := .perform RunOp.isDrained

def pendingNotifications : RunWork Nat := .perform RunOp.pendingNotifications

end RunWork

/-- The variables of the loop. -/
structure Supervision where
  main : Option UInt8 := none
  terminated : Bool := false
  fault : Bool := false
  closed : Bool := false

namespace Supervision

/-- Blocks the network; the application is killed when that is not confirmed. -/
def block (loop : Supervision) : RunWork (Bool × Supervision) := do
  let now ← RunWork.now
  match ← RunWork.closeUntil (now + closure) with
  | .error error =>
    RunWork.reportFailure ("transit closure unconfirmed: " ++ error)
    RunWork.kill
    return (false, { loop with fault := true })
  | .ok () => return (true, loop)

/-- Blocks the network, and only then asks the processes to end. -/
def blockThen (loop : Supervision) (request : RunWork (Except String Unit)) :
    RunWork Supervision := do
  let (confirmed, loop) ← loop.block
  if confirmed then
    match ← request with
    | .error _ => RunWork.kill
    | .ok () => pure ()
    return loop
  else return loop

/-- Neither enforcement nor blocking holds: no process may continue. -/
def watchSession (loop : Supervision) : RunWork Supervision := do
  let state ← RunWork.sessionState
  if state = .unsafeState ∧ loop.fault = false then
    RunWork.kill
    return { loop with fault := true, closed := true }
  else return loop

def watchTermination (loop : Supervision) : RunWork Supervision := do
  if loop.closed = false ∧ loop.main = none then
    if ← RunWork.terminateLoad then
      blockThen { loop with terminated := true, closed := true } RunWork.terminate
    else return loop
  else return loop

/-- The first result of the main command is kept. -/
def mainExited (loop : Supervision) (code : UInt8) : RunWork Supervision :=
  let loop := { loop with main := loop.main.orElse fun _ => some code }
  if loop.closed = false then blockThen { loop with closed := true } RunWork.beginGrace
  else return loop

/-- What the application reports, with its status once it finished. -/
def watchApplication (loop : Supervision) : RunWork (Supervision × Option ExitStatus) := do
  match ← RunWork.applicationPoll with
  | .ok (some (.mainExited code)) => return (← loop.mainExited code, none)
  | .ok (some .graceInterrupted) =>
    RunWork.notice "grace interrupted; remaining processes were killed"
    return (loop, none)
  | .ok (some (.finished status)) => return (loop, some status)
  | .ok none => return (loop, none)
  | .error error =>
    RunWork.notice ("supervisor channel failed: " ++ error)
    RunWork.kill
    return ({ loop with fault := true }, none)

def round (loop : Supervision) : RunWork (Supervision ⊕ ExitStatus × Supervision) := do
  RunWork.sessionPoll
  let loop ← loop.watchSession
  let loop ← loop.watchTermination
  let (loop, finished) ← loop.watchApplication
  match finished with
  | some status => return .inr (status, loop)
  | none =>
    RunWork.flushNotifications
    RunWork.sleep runInterval
    return .inl loop

def blockAtEnd (loop : Supervision) : RunWork Supervision :=
  if loop.closed then return loop
  else do
    let (_, loop) ← loop.block
    return loop

end Supervision

/-- The requests are drained and no notification is left. -/
def settled : RunWork Bool := do
  if ← RunWork.isDrained then return (← RunWork.pendingNotifications) = 0
  else return false

/-- One round of draining and of the last notifications, until they are done or the time is
over. -/
def settleRound (deadline : Instant) (_ : Unit) : RunWork (Unit ⊕ Unit) := do
  let now ← RunWork.now
  if now < deadline then
    if ← settled then return .inr ()
    else
      RunWork.sessionPoll
      RunWork.flushNotifications
      RunWork.sleep runInterval
      return .inl ()
  else return .inr ()

/-- The code of a run without a result of its main command. -/
def finishedCode (status : ExitStatus) : UInt8 :=
  match status.code with
  | some code => if 0 ≤ code ∧ code ≤ 255 then UInt8.ofNat code.toNat else safetyFault
  | none => safetyFault

/-- What is left once every process of the isolation has ended. -/
def finishRun (count : Nat) (status : ExitStatus) (loop : Supervision) :
    RunWork (Option UInt8) := do
  let loop ← loop.blockAtEnd
  let now ← RunWork.now
  match ← Program.rounds (settleRound (now + settle)) count () with
  | none => return none
  | some () =>
    return some (exitCode loop.fault loop.terminated (loop.main.getD (finishedCode status)))

/-- Runs until every process of the isolation has ended, each loop for at most `count`
rounds. -/
def run (count : Nat) : RunWork (Option UInt8) := do
  match ← Program.rounds Supervision.round count {} with
  | none => return none
  | some (status, loop) => finishRun count status loop

end Kakoi
