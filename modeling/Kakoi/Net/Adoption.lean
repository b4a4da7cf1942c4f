import Mathlib.Logic.Relation
import Kakoi.Base.BoundedChannel
import Kakoi.Net.Engine

/-! One owner of the kernel's permissions, in a thread of its own, between two channels. -/

namespace Kakoi

inductive EnforcedDnsError where
  | query (error : DnsError)
  /-- The kernel's state is uncertain, or the policies do not fit together. -/
  | enforcement (error : String)
  deriving DecidableEq

inductive AdoptOp where
  | requiresReconciliation
  | matchesPolicy
  | now
  /-- The flag that the controller sets. -/
  | cancelled
  /-- The flag that came with the answer. -/
  | withdrawn
  | stage (grants : List ActiveGrant)
  | lock
  | activate
  /-- The staged grants are dropped before they are activated. -/
  | discard

def AdoptOp.Answer : AdoptOp → Type
  | .requiresReconciliation | .matchesPolicy | .cancelled | .withdrawn => Bool
  | .now => Instant
  | .stage _ | .lock | .activate => Except String Unit
  | .discard => Unit

abbrev Adopting := Program AdoptOp AdoptOp.Answer

namespace Adopting

def requiresReconciliation : Adopting Bool := Program.perform AdoptOp.requiresReconciliation

def matchesPolicy : Adopting Bool := Program.perform AdoptOp.matchesPolicy

def now : Adopting Instant := Program.perform AdoptOp.now

def cancelled : Adopting Bool := Program.perform AdoptOp.cancelled

def withdrawn : Adopting Bool := Program.perform AdoptOp.withdrawn

def stage (grants : List ActiveGrant) : Adopting (Except String Unit) :=
  Program.perform (AdoptOp.stage grants)

def lock : Adopting (Except String Unit) := Program.perform AdoptOp.lock

def activate : Adopting (Except String Unit) := Program.perform AdoptOp.activate

def discard : Adopting Unit := Program.perform AdoptOp.discard

end Adopting

/-- A failure of the kernel, in its own words unless there are others. -/
def enforced (work : Adopting (Except String Unit)) (text : Option String) :
    ExceptT EnforcedDnsError Adopting Unit := do
  match ← work with
  | .ok () => return
  | .error error => throw (.enforcement (text.getD error))

namespace PreparedAnswer

def ensureLive (prepared : PreparedAnswer) (cancellation : Bool) :
    ExceptT EnforcedDnsError Adopting Unit := do
  let now ← Adopting.now
  let cancelled ← if cancellation then Adopting.cancelled
    else pure false
  if cancelled || prepared.deadline ≤ now || prepared.grants.any (·.deadline ≤ now) then
    throw (.query .incompleteResponse)
  if ← Adopting.withdrawn then throw (.query .incompleteResponse)

/-- The grants are staged, checked again under the lock and activated. -/
def adoptGrants (prepared : PreparedAnswer) (cancellation activation : Bool) :
    ExceptT EnforcedDnsError Adopting Unit := do
  unless prepared.grants.isEmpty do
    enforced (Adopting.stage prepared.grants) none
    try
      if activation then enforced Adopting.lock (some "DNS activation synchronization failed")
      prepared.ensureLive cancellation
    catch error =>
      Adopting.discard
      throw error
    enforced Adopting.activate none
  prepared.ensureLive cancellation

def adoptControlled (prepared : PreparedAnswer) (cancellation activation : Bool) :
    Adopting (Except EnforcedDnsError Wire) := do
  let unsettled ← Adopting.requiresReconciliation
  let fits ← if unsettled then pure false else Adopting.matchesPolicy
  if !fits then
    return .error (.enforcement
      "DNS candidate and kernel owner are inconsistent or need reconciliation")
  match ← (prepared.ensureLive cancellation).run with
  | .error error => return .error error
  | .ok () =>
    let result ← (prepared.adoptGrants cancellation activation).run
    -- staged grants that were dropped may have left the kernel uncertain
    if ← Adopting.requiresReconciliation then
      match result with
      | .error (.enforcement error) => return .error (.enforcement error)
      | _ => return .error (.enforcement "DNS staging cleanup needs reconciliation")
    match result with
    | .ok () => return .ok prepared.wire
    | .error (.enforcement _) => return .error (.query .incompleteResponse)
    | .error error => return .error error

end PreparedAnswer

structure AdoptionCompletion where
  id : Nat
  answer : Except EnforcedDnsError Wire

/-- The controller's side, with the flags it shares with the thread. -/
structure DnsAdoption where
  limit : Nat
  requests : BoundedChannel (Nat × PreparedAnswer)
  results : BoundedChannel AdoptionCompletion
  /-- Whether the thread is still to be joined. -/
  handle : Bool := true
  cancelled : Bool := false
  faulted : Bool := false
  outstanding : Nat := 0

namespace DnsAdoption

def new (limit : Nat) : Except IoError DnsAdoption :=
  if 1 ≤ limit ∧ limit ≤ maxDnsConcurrentResolutions then
    .ok { limit, requests := { capacity := limit }, results := { capacity := limit } }
  else .error ⟨.invalidInput, "invalid DNS adoption capacity"⟩

/-- What `submit` looks at before it sends. -/
def accepts (adoption : DnsAdoption) : Except IoError Unit :=
  if adoption.cancelled || adoption.faulted || !adoption.requests.sender then
    .error ⟨.brokenPipe, "DNS adoption is stopped or faulted"⟩
  else if adoption.outstanding = adoption.limit then
    .error ⟨.wouldBlock, "DNS adoption is at capacity"⟩
  else .ok ()

/-- The end of `submit`. -/
def send (adoption : DnsAdoption) (candidate : Nat × PreparedAnswer) :
    Except IoError Unit × DnsAdoption :=
  match adoption.requests.trySend candidate with
  | .sent requests =>
    (.ok (), { adoption with requests, outstanding := adoption.outstanding + 1 })
  | .full => (.error ⟨.wouldBlock, "DNS adoption queue is full"⟩, adoption)
  | .disconnected =>
    (.error ⟨.brokenPipe, "DNS adoption worker disconnected"⟩, { adoption with faulted := true })

/-- One round of the loop of `poll`, which ends without a result. -/
def collect (adoption : DnsAdoption) : Option AdoptionCompletion × DnsAdoption :=
  match adoption.results.tryReceive with
  | .received result results =>
    let result :=
      if adoption.cancelled && result.answer.isOk then
        { result with answer := .error (.query .incompleteResponse) }
      else result
    (some result, { adoption with results, outstanding := adoption.outstanding - 1 })
  | .empty => (none, adoption)
  | .disconnected => (none, { adoption with faulted := adoption.faulted || !adoption.cancelled })

/-- The end of `poll`: a thread that has finished is joined. -/
def join (adoption : DnsAdoption) (finished : Bool) : Except IoError Unit × DnsAdoption :=
  if adoption.handle && finished then
    if adoption.cancelled then (.ok (), { adoption with handle := false })
    else
      (.error ⟨.other, "DNS adoption worker exited unexpectedly"⟩,
        { adoption with handle := false, outstanding := 0, faulted := true })
  else (.ok (), adoption)

def stop (adoption : DnsAdoption) : DnsAdoption :=
  { adoption with cancelled := true, requests := adoption.requests.dropSender }

end DnsAdoption

/-- Where the controller is in its call. -/
inductive AdoptionCall where
  | idle
  | submitting (candidate : Nat × PreparedAnswer)
  | collecting (completed : List AdoptionCompletion)
  | joining (completed : List AdoptionCompletion)

/-- Where the thread is in its loop. -/
inductive AdoptionWorker where
  | receiving
  | received (candidate : Nat × PreparedAnswer)
  | adopting (id : Nat) (work : Adopting (Except EnforcedDnsError Wire))
  /-- Before a failure is noted in the shared flag. -/
  | answered (completion : AdoptionCompletion)
  | reporting (completion : AdoptionCompletion)
  /-- The loop is left and the thread's ends are dropped. -/
  | returned
  | finished

def AdoptionWorker.isFinished : AdoptionWorker → Bool
  | .finished => true
  | _ => false

def AdoptionCompletion.isEnforcement (completion : AdoptionCompletion) : Bool :=
  match completion.answer with
  | .error (.enforcement _) => true
  | _ => false

/-- What is noted of a run. -/
inductive AdoptionAct where
  | accepted (id : Nat)
  | staged
  | activated
  | ended (completion : AdoptionCompletion)
  | collected (completion : AdoptionCompletion)
  | stopped

def AdoptOp.acts : AdoptOp → List AdoptionAct
  | .stage _ => [.staged]
  | .activate => [.activated]
  | _ => []

structure AdoptionSystem where
  adoption : DnsAdoption
  call : AdoptionCall := .idle
  worker : AdoptionWorker := .receiving

namespace AdoptionSystem

/-- Only the controller's flag has one answer. -/
def Answers (adoption : DnsAdoption) : (op : AdoptOp) → op.Answer → Prop
  | .cancelled, answer => answer = adoption.cancelled
  | _, _ => True

/-- A step of the controller or of the thread, and what is noted of it. -/
inductive Step : AdoptionSystem → List AdoptionAct → AdoptionSystem → Prop where
  | refuse {system : AdoptionSystem} (idle : system.call = .idle)
      (refused : system.adoption.accepts = .error error) : Step system [] system
  | submit {system : AdoptionSystem} (idle : system.call = .idle)
      (accepted : system.adoption.accepts = .ok ()) (candidate : Nat × PreparedAnswer) :
      Step system [] { system with call := .submitting candidate }
  | send {system : AdoptionSystem} {adoption : DnsAdoption} {candidate : Nat × PreparedAnswer}
      (submitting : system.call = .submitting candidate)
      (sent : system.adoption.send candidate = (.ok (), adoption)) :
      Step system [.accepted candidate.1] { system with adoption, call := .idle }
  | unsent {system : AdoptionSystem} {adoption : DnsAdoption} {candidate : Nat × PreparedAnswer}
      (submitting : system.call = .submitting candidate)
      (unsent : system.adoption.send candidate = (.error error, adoption)) :
      Step system [] { system with adoption, call := .idle }
  | poll {system : AdoptionSystem} (idle : system.call = .idle) :
      Step system [] { system with call := .collecting [] }
  | collect {system : AdoptionSystem} {adoption : DnsAdoption}
      (collecting : system.call = .collecting completed)
      (result : system.adoption.collect = (some completion, adoption)) :
      Step system [.collected completion]
        { system with adoption, call := .collecting (completed ++ [completion]) }
  | collected {system : AdoptionSystem} {adoption : DnsAdoption}
      (collecting : system.call = .collecting completed)
      (last : system.adoption.collect = (none, adoption)) :
      Step system [] { system with adoption, call := .joining completed }
  | join {system : AdoptionSystem} {adoption : DnsAdoption}
      (joining : system.call = .joining completed)
      (joined : system.adoption.join system.worker.isFinished = (answer, adoption)) :
      Step system [] { system with adoption, call := .idle }
  | stop {system : AdoptionSystem} (idle : system.call = .idle) :
      Step system [.stopped] { system with adoption := system.adoption.stop }
  | receive {system : AdoptionSystem} (receiving : system.worker = .receiving)
      (some : system.adoption.requests.tryReceive = .received candidate requests) :
      Step system []
        { system with
          adoption := { system.adoption with requests }
          worker := .received candidate }
  | leave {system : AdoptionSystem} (receiving : system.worker = .receiving)
      (none : system.adoption.requests.tryReceive = .disconnected) :
      Step system []
        { system with
          adoption := { system.adoption with
            requests := system.adoption.requests.dropReceiver
            results := system.adoption.results.dropSender }
          worker := .returned }
  | fail {system : AdoptionSystem} {candidate : Nat × PreparedAnswer}
      (received : system.worker = .received candidate)
      (faulted : system.adoption.faulted = true)
      (same : completion = ⟨candidate.1, .error (.enforcement "DNS permission executor faulted")⟩) :
      Step system [.ended completion] { system with worker := .answered completion }
  | adopt {system : AdoptionSystem} {candidate : Nat × PreparedAnswer}
      (received : system.worker = .received candidate)
      (sound : system.adoption.faulted = false) :
      Step system []
        { system with worker := .adopting candidate.1 (candidate.2.adoptControlled true true) }
  | ask {system : AdoptionSystem} {op : AdoptOp} {answer : op.Answer}
      {next : op.Answer → Adopting (Except EnforcedDnsError Wire)}
      (adopting : system.worker = .adopting number (.ask op next))
      (answers : Answers system.adoption op answer) :
      Step system op.acts { system with worker := .adopting number (next answer) }
  | answer {system : AdoptionSystem} {result : Except EnforcedDnsError Wire}
      (adopting : system.worker = .adopting number (.done result)) :
      Step system [.ended ⟨number, result⟩] { system with worker := .answered ⟨number, result⟩ }
  | store {system : AdoptionSystem} (answered : system.worker = .answered completion) :
      Step system []
        { system with
          adoption := { system.adoption with
            faulted := system.adoption.faulted || completion.isEnforcement }
          worker := .reporting completion }
  | report {system : AdoptionSystem} (reporting : system.worker = .reporting completion)
      (room : system.adoption.results.trySend completion = .sent results) :
      Step system []
        { system with adoption := { system.adoption with results }, worker := .receiving }
  | abandon {system : AdoptionSystem} (reporting : system.worker = .reporting completion)
      (gone : system.adoption.results.trySend completion = .disconnected) :
      Step system []
        { system with
          adoption := { system.adoption with
            requests := system.adoption.requests.dropReceiver
            results := system.adoption.results.dropSender }
          worker := .returned }
  | finish {system : AdoptionSystem} (returned : system.worker = .returned) :
      Step system [] { system with worker := .finished }

/-- Steps in any order, with everything noted. -/
inductive Run (first : AdoptionSystem) : AdoptionSystem → List AdoptionAct → Prop where
  | start : Run first first []
  | step : Run first system log → Step system acts next → Run first next (log ++ acts)

end AdoptionSystem

end Kakoi
