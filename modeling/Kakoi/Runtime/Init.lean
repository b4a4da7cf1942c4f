import Kakoi.Base.Monitor
import Kakoi.Base.Path
import Kakoi.Net.Message

/-! The isolation's process 1: it starts the command, reports its result, and reaps every
descendant. -/

namespace Kakoi

inductive MainOutcome where
  | exited (code : Nat)
  | signaled (signal : Nat) (core : Bool)
  | notStarted
  | unknown
  deriving DecidableEq

inductive ExitReason where
  | completed
  | stopRequested
  | ownerLost
  | infrastructureFailure
  deriving DecidableEq

def ExitReason.priority : ExitReason → Nat
  | .completed => 0
  | .stopRequested => 1
  | .ownerLost => 2
  | .infrastructureFailure => 3

def strongestReason (current observed : ExitReason) : ExitReason :=
  if current.priority < observed.priority then observed else current

inductive ErrorKind where
  | invalidInput
  | unsupportedEnvironment
  | planChanged
  | resourceConflict
  | helperFailure
  | io
  | protocol
  deriving DecidableEq

inductive Cleanup where
  | notNeeded
  | confirmed
  | unconfirmed
  deriving DecidableEq

structure StartError where
  kind : ErrorKind
  diagnostics : List String
  cleanup : Cleanup
  main : MainOutcome

def launchFailure (kind : ErrorKind) (cause : String) (main : MainOutcome) : StartError :=
  { kind, diagnostics := [cause], cleanup := .unconfirmed, main }

inductive NetworkCleanup where
  | notApplicable
  | confirmedBlocked
  | unconfirmed
  deriving DecidableEq

inductive ProcessCleanup where
  | confirmedReaped
  | unconfirmed
  deriving DecidableEq

structure RunOutcome where
  main : MainOutcome
  reason : ExitReason
  network : NetworkCleanup
  processes : ProcessCleanup
  diagnostics : List String

inductive InitReply where
  | ready
  | failed (error : StartError)
  | main (outcome : MainOutcome)
  | finished (outcome : RunOutcome)

/-- What the worker sends while the command runs. -/
inductive InitControl where
  | start
  | stop
  | mainRetained
  deriving DecidableEq

/-- The parts of the request that decide how init goes on; the checks and the command itself
are behind `validate`, `restrictExecution` and `spawn`. -/
structure InitRequest where
  graceMs : Nat
  guards : List Path
  limited : Bool

inductive Signal where
  | term
  | kill
  deriving DecidableEq

/-- The waits of init: for the command alone, for any child, and for any child until it ends. -/
inductive WaitCall where
  | child (pid : Nat)
  | any
  | release
  deriving DecidableEq

inductive Waited where
  | child (pid status : Nat)
  | none
  | noChildren
  | interrupted
  | failed (error : String)
  deriving DecidableEq

inductive InitOp where
  | recvRequest
  | restore
  | validate
  | restrictExecution
  | probe (guard : Path)
  | spawn
  | initIdentity
  | executableIdentity (pid : Nat)
  | wait (call : WaitCall)
  | poll (milliseconds : Nat)
  | recvControl
  | send (reply : InitReply)
  | kill (signal : Signal)
  | now
  | sleep (milliseconds : Nat)

/-- What the surroundings answer: with a message, whether descriptors came along. -/
def InitOp.Answer : InitOp → Type
  | .recvRequest => Except String (InitRequest × Bool)
  | .restore | .validate | .restrictExecution | .probe _ | .send _ => Except String Unit
  | .spawn => Except String Nat
  | .initIdentity | .executableIdentity _ => Except String Nat
  | .wait _ => Waited
  | .poll _ => Except String Bool
  | .recvControl => Except String (InitControl × Bool)
  | .now => Instant
  | .kill _ | .sleep _ => Unit

/-- Init stops with an error of its own, or without a word when it is followed no further. -/
inductive Stopped where
  | failed (error : String)
  | unfinished
  deriving DecidableEq

abbrev InitWork := ExceptT Stopped (Program InitOp InitOp.Answer)

namespace InitWork

def ask (op : InitOp) : InitWork (InitOp.Answer op) := ExceptT.lift (Program.perform op)

/-- The `?` of the source. -/
def orFail : Except String α → InitWork α
  | .ok result => pure result
  | .error error => throw (.failed error)

def now : InitWork Instant := ask .now

def kill (signal : Signal) : InitWork Unit := ask (.kill signal)

def sleep (milliseconds : Nat) : InitWork Unit := ask (.sleep milliseconds)

def wait (call : WaitCall) : InitWork Waited := ask (.wait call)

def send (reply : InitReply) : InitWork Unit := do
  orFail (← (ask (.send reply) : InitWork (Except String Unit)))

def tryPoll (milliseconds : Nat) : InitWork (Except String Bool) := ask (.poll milliseconds)

def tryRecvControl : InitWork (Except String (InitControl × Bool)) := ask .recvControl

def recvRequest : InitWork InitRequest := do
  let (request, descriptors) ← orFail (← (ask .recvRequest : InitWork (Except String _)))
  if descriptors then throw (.failed "unexpected init request descriptors")
  else return request

def restore : InitWork Unit := do orFail (← (ask .restore : InitWork (Except String Unit)))

def validate : InitWork (Except String Unit) := ask .validate

def restrictExecution : InitWork (Except String Unit) := ask .restrictExecution

def probe (guard : Path) : InitWork (Except String Unit) := ask (.probe guard)

def spawn : InitWork (Except String Nat) := ask .spawn

def initIdentity : InitWork (Except String Nat) := ask .initIdentity

def executableIdentity (pid : Nat) : InitWork (Except String Nat) := ask (.executableIdentity pid)

end InitWork

section Status

variable (status : Nat)

def wifexited : Bool := status % 128 = 0

def wexitstatus : Nat := status / 256 % 256

def wtermsig : Nat := status % 128

def wcoredump : Bool := status / 128 % 2 = 1

def mainStatus : MainOutcome :=
  if wifexited status then .exited (wexitstatus status)
  else .signaled (wtermsig status) (wcoredump status)

end Status

open InitWork

/-- One wait of `reap_before_release`, which blocks. -/
def releaseRound (_ : Unit) : InitWork (Unit ⊕ Unit) := do
  match ← wait .release with
  | .noChildren => return .inr ()
  | .failed error => throw (.failed error)
  | .child .. | .interrupted | .none => return .inl ()

def reapBeforeRelease (count : Nat) : InitWork Unit := do
  kill .kill
  Program.tryRounds releaseRound .unfinished count ()

/-- One look whether the command was executed: another file runs, it ended, or the worker
went away. -/
def confirmRound (pid identity : Nat) (_ : Unit) :
    InitWork (Unit ⊕ Except StartError (Option Nat)) := do
  match ← executableIdentity pid with
  | .ok other =>
    if other ≠ identity then return .inr (.ok none) else confirmWait
  | .error _ => confirmWait
where
  confirmWait : InitWork (Unit ⊕ Except StartError (Option Nat)) := do
    match ← wait (.child pid) with
    | .child waited status =>
      if waited = pid then
        if wifexited status then return .inr (.ok (some status))
        else return .inr (.error { launchFailure .helperFailure
          ("command died before exec confirmation: signal " ++ toString (wtermsig status) ++
            ", core=" ++ toString (wcoredump status)) .unknown with cleanup := .confirmed })
      else confirmPoll
    | .noChildren => return .inr (.error (launchFailure .io "No child processes (os error 10)" .unknown))
    | .failed error => return .inr (.error (launchFailure .io error .unknown))
    | .interrupted | .none => confirmPoll
  confirmPoll : InitWork (Unit ⊕ Except StartError (Option Nat)) := do
    match ← tryPoll 0 with
    | .error error => return .inr (.error (launchFailure .io error .unknown))
    | .ok true => return .inr (.error (launchFailure .protocol "startup control lost" .unknown))
    | .ok false =>
      sleep 1
      return .inl ()

def confirmExec (count pid : Nat) : InitWork (Except StartError (Option Nat)) := do
  match ← initIdentity with
  | .error error => return .error (launchFailure .io error .unknown)
  | .ok identity => Program.tryRounds (confirmRound pid identity) .unfinished count ()

/-- One message while init waits for the acknowledgement, with whether a stop was asked. -/
def retainRound (stopped : Bool) : InitWork (Bool ⊕ Bool) := do
  let (reply, descriptors) ← orFail (← tryRecvControl)
  if descriptors then throw (.failed "unexpected main acknowledgement descriptors")
  else
    match reply with
    | .mainRetained => return .inr stopped
    | .stop => return .inl true
    | .start => throw (.failed "unexpected start during execution")

/-- Reports the main command's result and waits until it is retained. -/
def retainMain (count : Nat) (main : MainOutcome) : InitWork Bool := do
  send (.main main)
  Program.tryRounds retainRound .unfinished count false

/-- The variables of init's loop. -/
structure Supervised where
  main : MainOutcome
  reason : ExitReason := .completed
  stopping : Option Instant := none
  killed : Bool := false
  controlLost : Bool := false

namespace Supervised

/-- The first reason to stop starts the grace. -/
def beginStopping (loop : Supervised) : InitWork Supervised := do
  match loop.stopping with
  | some _ => return loop
  | none =>
    let now ← now
    kill .term
    return { loop with stopping := some now }

/-- Reports the end of the process with the main command's number. -/
def mainEnded (count : Nat) (loop : Supervised) (status : Nat) : InitWork Supervised := do
  let stopped ← retainMain count (mainStatus status)
  beginStopping { loop with
    main := mainStatus status
    reason := if stopped then .stopRequested else loop.reason }

def watchControl (loop : Supervised) : InitWork Supervised := do
  if loop.controlLost then return loop
  else if ← orFail (← tryPoll 20) then
    match ← tryRecvControl with
    | .ok (.stop, false) =>
      beginStopping { loop with reason := strongestReason loop.reason .stopRequested }
    | _ =>
      beginStopping { loop with
        controlLost := true
        reason := strongestReason loop.reason .ownerLost }
  else return loop

/-- The grace that began at `start` is over. -/
def graceOver (graceMs : Nat) (start now : Instant) : Bool :=
  start + milliseconds graceMs ≤ now

def watchGrace (graceMs : Nat) (loop : Supervised) : InitWork Supervised := do
  match loop.stopping with
  | none => return loop
  | some start =>
    let loop ← killAfter start loop
    sleep 10
    return loop
where
  killAfter (start : Instant) (loop : Supervised) : InitWork Supervised := do
    if loop.killed then return loop
    else if graceOver graceMs start (← now) then
      kill .kill
      return { loop with killed := true }
    else return loop

/-- One wait of the loop; between two ends the control connection and the grace are
watched. -/
def round (count mainPid graceMs : Nat) (loop : Supervised) : InitWork (Supervised ⊕ Unit) := do
  match ← wait .any with
  | .child pid status =>
    if pid = mainPid then return .inl (← loop.mainEnded count status) else return .inl loop
  | .noChildren =>
    send (.finished
      { main := loop.main
        reason := loop.reason
        network := .notApplicable
        processes := .confirmedReaped
        diagnostics := [] })
    return .inr ()
  | .failed error => throw (.failed error)
  | .interrupted | .none =>
    let loop ← loop.watchControl
    return .inl (← loop.watchGrace graceMs)

end Supervised

/-- What `early_status` makes of the loop's variables. -/
def startSupervised (count : Nat) : Option Nat → InitWork Supervised
  | none => return { main := .unknown }
  | some status => do
    let stopped ← retainMain count (mainStatus status)
    Supervised.beginStopping
      { main := mainStatus status
        reason := if stopped then .stopRequested else .completed }

/-- From the start of the command on. -/
def superviseMain (count mainPid graceMs : Nat) : InitWork Unit := do
  match ← confirmExec count mainPid with
  | .error error =>
    reapBeforeRelease count
    send (.failed error)
  | .ok early =>
    send .ready
    let loop ← startSupervised count early
    Program.tryRounds (Supervised.round count mainPid graceMs) .unfinished count loop

/-- Every guard is started once before the command may be. -/
def probeGuards (count : Nat) : List Path → InitWork (Except String Unit)
  | [] => return .ok ()
  | guard :: guards => do
    let confirmed ← probe guard
    match ← reapGuard with
    | .error error => return .error error
    | .ok () =>
      match confirmed with
      | .error error => return .error error
      | .ok () => probeGuards count guards
where
  /-- Its error is the readiness check's. -/
  reapGuard : InitWork (Except String Unit) :=
    ExceptT.mk do
      match ← (reapBeforeRelease count).run with
      | .ok () => return .ok (.ok ())
      | .error (.failed error) => return .ok (.error error)
      | .error .unfinished => return .error .unfinished

def readiness (count : Nat) (request : InitRequest) : InitWork (Except String Unit) := do
  if request.limited then
    match ← restrictExecution with
    | .error error => return .error error
    | .ok () => probeGuards count request.guards
  else probeGuards count request.guards

/-- Process 1 of the isolation, each of its loops for at most `count` rounds. -/
def init (count : Nat) : InitWork Unit := do
  let request ← recvRequest
  restore
  reapBeforeRelease count
  match ← validate with
  | .error cause => send (.failed (launchFailure .planChanged cause .notStarted))
  | .ok () =>
    match ← readiness count request with
    | .error cause => send (.failed (launchFailure .helperFailure cause .notStarted))
    | .ok () =>
      match ← spawn with
      | .error cause => send (.failed (launchFailure .io cause .notStarted))
      | .ok mainPid => superviseMain count mainPid request.graceMs

end Kakoi
