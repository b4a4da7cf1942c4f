import Mathlib.Logic.Relation
import Kakoi.Net.Session

/-! The watchdog of transit: a monitor closes it unless heartbeats reach it in time. Times are
milliseconds of one clock. -/

namespace Kakoi

/-- Where the monitor is in its loop. -/
inductive MonitorPhase where
  | starting
  | checking
  | polling
  | woken (readable hangup : Bool)
  | receiving
  | judging (stamp : Nat)
  | answering (stamp : Nat)
  /-- The loop is left: all that remains is the command that closes transit. -/
  | left
  | ended (status : Nat)

structure TransitMonitor where
  timeout : Nat
  start : Nat := 0
  deadline : Nat := 0
  phase : MonitorPhase := .starting

namespace TransitMonitor

def begins (monitor : TransitMonitor) (now : Nat) : TransitMonitor :=
  { monitor with start := now, deadline := saturatingAdd now monitor.timeout, phase := .checking }

/-- The head of the loop. -/
def check (monitor : TransitMonitor) (now : Nat) : TransitMonitor :=
  { monitor with phase := if monitor.deadline ≤ now then .left else .polling }

/-- After the poll. -/
def wake (monitor : TransitMonitor) (readable hangup : Bool) (now : Nat) : TransitMonitor :=
  { monitor with
    phase :=
      if hangup || monitor.deadline ≤ now then .left
      else if readable then .receiving
      else .checking }

/-- Whether a stamp is neither of the future nor too old. -/
def isFresh (monitor : TransitMonitor) (stamp now : Nat) : Bool :=
  !(now < stamp || saturatingAdd stamp monitor.timeout ≤ now)

def judge (monitor : TransitMonitor) (stamp now : Nat) : TransitMonitor :=
  if monitor.isFresh stamp now then
    { monitor with
      deadline := max monitor.deadline (saturatingAdd stamp monitor.timeout)
      phase := .answering stamp }
  else { monitor with phase := .left }

end TransitMonitor

structure TransitWatchdog where
  timeout : Nat
  lastAck : Nat
  /-- The wait status of the monitor once it was reaped. -/
  status : Option Nat := none

namespace TransitWatchdog

/-- What a poll answers once the monitor has ended. -/
def ended (status : Nat) : Except String WatchdogState :=
  if status % 128 = 0 ∧ status / 256 % 256 = 0 then .ok .closed
  else .error s!"transit watchdog failed (wait status {status})"

def acknowledge (watchdog : TransitWatchdog) (stamp now : Nat) : Except String TransitWatchdog :=
  if now < stamp then .error "invalid watchdog timestamp"
  else .ok { watchdog with lastAck := max watchdog.lastAck stamp }

/-- The end of a poll that read the clock. -/
def verdict (watchdog : TransitWatchdog) (now : Nat) : WatchdogState :=
  if saturatingAdd watchdog.lastAck watchdog.timeout ≤ now then .unresponsive else .healthy

end TransitWatchdog

/-- How many acknowledgements one poll reads at most. -/
def watchdogRounds : Nat := 64

/-- Where the controller is in its call. -/
inductive WatchdogCall where
  /-- The first heartbeat is sent and its acknowledgement awaited. -/
  | starting
  | idle
  | beating (stamp : Nat)
  | reading
  | collecting (now rounds : Nat)
  /-- The start failed: no watchdog is given out. -/
  | failed
  | gone

def WatchdogCall.isGone : WatchdogCall → Bool
  | .gone => true
  | _ => false

/-- A stamp with the time at which the monitor judged it. -/
structure Acceptance where
  stamp : Nat
  read : Nat

/-- A stamp with the deadline that the monitor had when it acknowledged it. -/
structure Acknowledgement where
  stamp : Nat
  deadline : Nat

/-- A poll with the time it read, if it did, and what it answered. -/
structure WatchdogPoll where
  now : Option Nat
  answer : Except String WatchdogState

/-- Both processes with the messages between them, and what is noted of the run. -/
structure WatchdogSystem where
  clock : Nat
  monitor : TransitMonitor
  watchdog : TransitWatchdog
  call : WatchdogCall := .starting
  toMonitor : List Nat
  toController : List Nat := []
  accepted : List Acceptance := []
  acknowledged : List Acknowledgement := []
  polls : List WatchdogPoll := []

namespace WatchdogSystem

/-- The first heartbeat is sent before the monitor is started. -/
def initial (timeout sent : Nat) : WatchdogSystem where
  clock := sent
  monitor := { timeout }
  watchdog := { timeout, lastAck := sent }
  toMonitor := [sent]

inductive MonitorStep : WatchdogSystem → WatchdogSystem → Prop where
  | begins {system : WatchdogSystem} (starting : system.monitor.phase = .starting) :
      MonitorStep system { system with monitor := system.monitor.begins system.clock }
  | check {system : WatchdogSystem} (checking : system.monitor.phase = .checking) :
      MonitorStep system { system with monitor := system.monitor.check system.clock }
  | interrupted {system : WatchdogSystem} (polling : system.monitor.phase = .polling) :
      MonitorStep system { system with monitor := { system.monitor with phase := .checking } }
  | unpolled {system : WatchdogSystem} (polling : system.monitor.phase = .polling) :
      MonitorStep system { system with monitor := { system.monitor with phase := .left } }
  | polled {system : WatchdogSystem} (polling : system.monitor.phase = .polling) (readable : Bool) :
      MonitorStep system
        { system with
          monitor := { system.monitor with phase := .woken readable system.call.isGone } }
  | wake {system : WatchdogSystem} (woken : system.monitor.phase = .woken readable hangup) :
      MonitorStep system
        { system with monitor := system.monitor.wake readable hangup system.clock }
  | receive {system : WatchdogSystem} (receiving : system.monitor.phase = .receiving)
      (taken : system.toMonitor = stamp :: rest) :
      MonitorStep system
        { system with
          toMonitor := rest
          monitor := { system.monitor with phase := .judging stamp } }
  | unreceived {system : WatchdogSystem} (receiving : system.monitor.phase = .receiving) :
      MonitorStep system { system with monitor := { system.monitor with phase := .left } }
  | accept {system : WatchdogSystem} {stamp : Nat} (judging : system.monitor.phase = .judging stamp)
      (fresh : system.monitor.isFresh stamp system.clock = true) :
      MonitorStep system
        { system with
          monitor := system.monitor.judge stamp system.clock
          accepted := system.accepted ++ [⟨stamp, system.clock⟩] }
  | reject {system : WatchdogSystem} {stamp : Nat} (judging : system.monitor.phase = .judging stamp)
      (stale : system.monitor.isFresh stamp system.clock = false) :
      MonitorStep system { system with monitor := system.monitor.judge stamp system.clock }
  | answer {system : WatchdogSystem} {stamp : Nat}
      (answering : system.monitor.phase = .answering stamp) :
      MonitorStep system
        { system with
          toController := system.toController ++ [stamp]
          acknowledged := system.acknowledged ++ [⟨stamp, system.monitor.deadline⟩]
          monitor := { system.monitor with phase := .checking } }
  | unanswered {system : WatchdogSystem} {stamp : Nat}
      (answering : system.monitor.phase = .answering stamp) :
      MonitorStep system { system with monitor := { system.monitor with phase := .left } }
  /-- The command that closes transit ends. -/
  | close {system : WatchdogSystem} (left : system.monitor.phase = .left) (status : Nat) :
      MonitorStep system { system with monitor := { system.monitor with phase := .ended status } }

inductive ControllerStep : WatchdogSystem → WatchdogSystem → Prop where
  | ready {system : WatchdogSystem} (starting : system.call = .starting)
      (first : system.toController = system.watchdog.lastAck :: rest) :
      ControllerStep system { system with toController := rest, call := .idle }
  /-- Another acknowledgement, or none in time. -/
  | unready {system : WatchdogSystem} (starting : system.call = .starting) :
      ControllerStep system { system with call := .failed }
  | beat {system : WatchdogSystem} (idle : system.call = .idle) :
      ControllerStep system { system with call := .beating system.clock }
  | send {system : WatchdogSystem} {stamp : Nat} (beating : system.call = .beating stamp) :
      ControllerStep system
        { system with toMonitor := system.toMonitor ++ [stamp], call := .idle }
  | unsent {system : WatchdogSystem} {stamp : Nat} (beating : system.call = .beating stamp) :
      ControllerStep system { system with call := .idle }
  /-- A poll reaps the monitor and answers how it ended. -/
  | reap {system : WatchdogSystem} {status : Nat} (idle : system.call = .idle)
      (unknown : system.watchdog.status = none) (died : system.monitor.phase = .ended status) :
      ControllerStep system
        { system with
          watchdog := { system.watchdog with status := some status }
          polls := system.polls ++ [⟨none, TransitWatchdog.ended status⟩] }
  | known {system : WatchdogSystem} {status : Nat} (idle : system.call = .idle)
      (known : system.watchdog.status = some status) :
      ControllerStep system
        { system with polls := system.polls ++ [⟨none, TransitWatchdog.ended status⟩] }
  | unwaited {system : WatchdogSystem} (idle : system.call = .idle)
      (unknown : system.watchdog.status = none) (error : String) :
      ControllerStep system { system with polls := system.polls ++ [⟨none, .error error⟩] }
  /-- A poll finds the monitor running. -/
  | poll {system : WatchdogSystem} (idle : system.call = .idle)
      (unknown : system.watchdog.status = none) :
      ControllerStep system { system with call := .reading }
  | read {system : WatchdogSystem} (reading : system.call = .reading) :
      ControllerStep system { system with call := .collecting system.clock watchdogRounds }
  | acknowledge {system : WatchdogSystem} {now rounds stamp : Nat} {watchdog : TransitWatchdog}
      (collecting : system.call = .collecting now (rounds + 1))
      (taken : system.toController = stamp :: rest)
      (valid : system.watchdog.acknowledge stamp now = .ok watchdog) :
      ControllerStep system
        { system with toController := rest, watchdog, call := .collecting now rounds }
  | invalid {system : WatchdogSystem} {now rounds stamp : Nat}
      (collecting : system.call = .collecting now (rounds + 1))
      (taken : system.toController = stamp :: rest)
      (invalid : system.watchdog.acknowledge stamp now = .error error) :
      ControllerStep system
        { system with
          toController := rest
          call := .idle
          polls := system.polls ++ [⟨some now, .error error⟩] }
  | interrupted {system : WatchdogSystem} {now rounds : Nat}
      (collecting : system.call = .collecting now (rounds + 1)) :
      ControllerStep system { system with call := .collecting now rounds }
  | broken {system : WatchdogSystem} {now rounds : Nat}
      (collecting : system.call = .collecting now (rounds + 1)) (error : String) :
      ControllerStep system
        { system with call := .idle, polls := system.polls ++ [⟨some now, .error error⟩] }
  /-- Nothing more is read. -/
  | verdict {system : WatchdogSystem} {now rounds : Nat}
      (collecting : system.call = .collecting now rounds) :
      ControllerStep system
        { system with
          call := .idle
          polls := system.polls ++ [⟨some now, .ok (system.watchdog.verdict now)⟩] }

/-- One of the processes goes on or ends, or time passes. -/
inductive Step : WatchdogSystem → WatchdogSystem → Prop where
  | monitor (step : MonitorStep system next) : Step system next
  | controller (step : ControllerStep system next) : Step system next
  | tick {system : WatchdogSystem} {now : Nat} (later : system.clock ≤ now) :
      Step system { system with clock := now }
  | die (system : WatchdogSystem) (status : Nat) :
      Step system { system with monitor := { system.monitor with phase := .ended status } }
  | vanish (system : WatchdogSystem) : Step system { system with call := .gone }

abbrev Reaches := Relation.ReflTransGen Step

end WatchdogSystem

end Kakoi
