import Kakoi.Net.Gate
import Kakoi.Net.Pool

/-! The requests of one environment: each is answered at once, joins a running resolution or
starts one. -/

namespace Kakoi

/-- Held failures kept at most. -/
def maxHeldFailures : Nat := 4096

/-- Cached answers kept at most. -/
def maxCachedAnswers : Nat := 4096

/-- An answer kept for its time to live, counted from when its resolution started. -/
structure Cached where
  message : Message
  received : Instant
  ttl : Nat

structure DnsReply (ω : Type) where
  recipient : ω
  wire : Wire

structure ResolutionTask where
  id : Nat
  wire : Wire
  deadline : Instant

inductive AcceptedRequest (ω : Type) where
  | start (task : ResolutionTask)
  | waiting
  | answer (reply : DnsReply ω)

structure Waiter (hickory : Hickory) (ω : Type) where
  recipient : ω
  id : UInt16
  asked : Asked hickory

structure Running (hickory : Hickory) where
  id : Nat
  key : ResolutionKey
  question : Question hickory
  started : Instant
  deadline : Instant

structure DnsRequests (hickory : Hickory) (ω : Type) where
  gate : DnsGate
  generation : Nat
  pool : ResolutionPool ResolutionKey (Waiter hickory ω)
  running : List (Running hickory) := []
  timeout : Duration
  failureHold : Duration := 0
  held : List (ResolutionKey × Instant) := []
  cache : List (ResolutionKey × Cached) := []

/-- The value under a key. -/
def valueAt (key : ResolutionKey) (table : List (ResolutionKey × ν)) : Option ν :=
  (table.find? (·.1 = key)).map (·.2)

namespace DnsRequests

def new (policy : List Allow) (generation maxResolutions maxWaiters : Nat) (timeout : Duration) :
    Except String (DnsRequests hickory ω) := do
  if timeout = 0 || seconds maxDnsResolutionTimeoutSeconds < timeout then
    throw "DNS resolution timeout outside supported range"
  let pool ← ResolutionPool.new maxResolutions maxWaiters
  return { gate := { policy }, generation, pool, timeout }

def withFailureHold (requests : DnsRequests hickory ω) (hold : Duration) : DnsRequests hickory ω :=
  { requests with failureHold := hold }

/-- Questions accepted from now on belong to a new settings generation. -/
def advanceGeneration (requests : DnsRequests hickory ω) : DnsRequests hickory ω :=
  { requests with
    generation := (requests.generation + 1) % u64Limit
    cache := []
    held := [] }

/-- Begun seconds, as a count of 32 bits. -/
def begunSeconds (elapsed : Duration) : Option Nat :=
  let begun := elapsed / seconds 1 + (if elapsed % seconds 1 = 0 then 0 else 1)
  if begun < 4294967296 then some begun else none

def agedRecord (begun : Nat) (record : Record) : Record :=
  { record with ttl := record.ttl - begun }

/-- The cached answer to `question`, its times to live counted down. -/
def cached (requests : DnsRequests hickory ω) (key : ResolutionKey) (question : Question hickory)
    (now : Instant) : Option Wire := do
  let cached ← valueAt key requests.cache
  let elapsed ← if cached.received ≤ now then some (now - cached.received) else none
  let begun ← begunSeconds elapsed
  if cached.ttl ≤ begun then none
  else
    hickory.toVec { cached.message with
      metadata := { cached.message.metadata with id := question.metadata.id }
      queries := cached.message.queries.set 0 question.query
      answers := cached.message.answers.map (agedRecord begun)
      authorities := cached.message.authorities.map (agedRecord begun)
      additionals := cached.message.additionals.map (agedRecord begun) }

/-- Answers `question` with an error. -/
def reply (question : Question hickory) (recipient : ω) (code : ResponseCode) :
    Except (DnsError × ω) (AcceptedRequest ω) :=
  match question.errorResponse code with
  | .ok wire => .ok (.answer { recipient, wire })
  | .error error => .error (error, recipient)

/-- Admits an authorized question that neither a held failure nor the cache answers. -/
def admitQuestion (requests : DnsRequests hickory ω) (wire : Wire) (question : Question hickory)
    (key : ResolutionKey) (recipient : ω) (now : Instant) :
    Except (DnsError × ω) (AcceptedRequest ω) × DnsRequests hickory ω :=
  let waiter : Waiter hickory ω :=
    { recipient, id := question.metadata.id, asked := question.asked }
  match requests.pool.admitWaiter key waiter with
  | (.ok (.start id), pool) =>
    let deadline := now + requests.timeout
    (.ok (.start { id, wire, deadline }),
      { requests with
        pool
        running := requests.running ++ [{ id, key, question, started := now, deadline }] })
  | (.ok (.join _), pool) => (.ok .waiting, { requests with pool })
  | (.error (_, waiter), pool) =>
    (reply question waiter.recipient .servFail, { requests with pool })

def accept (idna : Idna) (requests : DnsRequests hickory ω) (wire : Wire) (recipient : ω)
    (now : Instant) : Except (DnsError × ω) (AcceptedRequest ω) × DnsRequests hickory ω :=
  match Question.parse hickory wire with
  | .error error => (.error (error, recipient), requests)
  | .ok question =>
    match question.reservedHostResponse idna with
    | some (.ok wire) => (.ok (.answer { recipient, wire }), requests)
    | some (.error error) => (.error (error, recipient), requests)
    | none =>
      match question.resolutionKey requests.generation with
      | .error error => (.error (error, recipient), requests)
      | .ok key =>
        -- Every requester is checked before it shares a slot, even with an identical key.
        if (requests.gate.authorizedRules idna question).isEmpty then
          (reply question recipient .refused, requests)
        else if (valueAt key requests.held).any (now < ·) then
          (reply question recipient .servFail, requests)
        else
          match requests.cached key question now with
          | some wire => (.ok (.answer { recipient, wire }), requests)
          | none => requests.admitQuestion wire question key recipient now

/-- The running resolution `id` is asked again under the current settings. -/
def rekey (requests : DnsRequests hickory ω) (id : Nat) : DnsRequests hickory ω :=
  match requests.running.findIdx? (·.id = id) with
  | none => requests
  | some index =>
    match requests.running[index]? with
    | none => requests
    | some entry =>
      match entry.question.resolutionKey requests.generation with
      | .error _ => requests
      | .ok key =>
        if requests.running.any fun entry => entry.id ≠ id && entry.key = key then requests
        else
          { requests with
            pool := requests.pool.rekey id key
            running := requests.running.set index { entry with key } }

def hold (requests : DnsRequests hickory ω) (key : ResolutionKey) (now : Instant) :
    DnsRequests hickory ω :=
  if requests.failureHold = 0 then requests
  else
    let held := requests.held.filter fun (_, until_) => now < until_
    if held.length < maxHeldFailures then
      { requests with held := upsert Prod.fst (key, now + requests.failureHold) held }
    else { requests with held }

/-- Keeps a positive answer with a time to live. -/
def keep (requests : DnsRequests hickory ω) (key : ResolutionKey) (message : Message)
    (received now : Instant) : DnsRequests hickory ω :=
  if message.metadata.responseCode ≠ .noError || message.metadata.truncation ||
      message.signature.isSome then requests
  else
    match (message.answers.map Record.ttl).min? with
    | none => requests
    | some 0 => requests
    | some ttl =>
      let cache := requests.cache.filter fun (_, cached) =>
        now < cached.received + seconds cached.ttl
      if cache.length < maxCachedAnswers then
        { requests with cache := upsert Prod.fst (key, { message, received, ttl }) cache }
      else { requests with cache }

/-- What a resolution found, as long as its deadline has not passed. -/
def outcome (running : Running hickory) (answer : Except DnsError Wire) (now : Instant) :
    Except DnsError ValidatedResponse :=
  if running.deadline ≤ now then .error .incompleteResponse
  else answer >>= running.question.validateResponse

def outcomeCode (result : Except DnsError ValidatedResponse) : ResponseCode :=
  match result with
  | .error .policyDenied => .refused
  | _ => .servFail

/-- A resolution failed when it ended in SERVFAIL, not when it was refused or negative. -/
def failed (result : Except DnsError ValidatedResponse) : Bool :=
  match result with
  | .ok answer => (answer.wire[3]?).any (· &&& 15 = 2)
  | .error .overloaded => false
  | .error _ => outcomeCode result = .servFail

/-- Whether a resolution still runs under the current settings. -/
def isCurrent (requests : DnsRequests hickory ω) (running : Running hickory) : Bool :=
  match running.question.resolutionKey requests.generation with
  | .ok key => key = running.key
  | .error _ => false

/-- What the outcome teaches about the key; work of replaced settings teaches nothing. -/
def learn (requests : DnsRequests hickory ω) (running : Running hickory)
    (result : Except DnsError ValidatedResponse) (now : Instant) : DnsRequests hickory ω :=
  if requests.isCurrent running && failed result then requests.hold running.key now
  else
    match requests.isCurrent running, result with
    | true, .ok answer => requests.keep running.key answer.message running.started now
    | _, _ => requests

/-- The answer for one that waits, with its own message id and question. -/
def sharedWire (answer : ValidatedResponse) (waiter : Waiter hickory ω) : Option Wire :=
  let original := answer.message
  let same := original.metadata.id = waiter.id &&
    (original.queries.head?).any fun query =>
      hickory.toAscii query.name = hickory.toAscii waiter.asked.query.name
  if same then some answer.wire
  else if original.signature.isSome then none
  else
    hickory.toVec { original with
      metadata := { original.metadata with id := waiter.id }
      queries := original.queries.set 0 waiter.asked.query }

def replyTo (running : Running hickory) (result : Except DnsError ValidatedResponse)
    (waiter : Waiter hickory ω) : DnsReply ω :=
  let question : Question hickory :=
    { running.question with
      metadata := { running.question.metadata with id := waiter.id }
      asked := waiter.asked }
  let shared :=
    match result with
    | .ok answer => sharedWire answer waiter
    | .error _ => none
  { recipient := waiter.recipient
    wire := shared.getD (question.expectErrorResponse (outcomeCode result)) }

/-- Distributes the answer of a running resolution; any other `id` has no recipients. -/
def complete (requests : DnsRequests hickory ω) (id : Nat) (answer : Except DnsError Wire)
    (now : Instant) : List (DnsReply ω) × DnsRequests hickory ω :=
  match requests.running.findIdx? (·.id = id) with
  | none => ([], requests)
  | some index =>
    match requests.running[index]? with
    | none => ([], requests)
    | some running =>
      let requests := { requests with running := swapRemove index requests.running }
      let result := outcome running answer now
      let requests := requests.learn running result now
      let (waiters, pool) := requests.pool.complete id
      (waiters.map (replyTo running result), { requests with pool })

/-- One expired resolution after the other. -/
def completeAll (requests : DnsRequests hickory ω) (now : Instant) :
    List Nat → List (DnsReply ω) × DnsRequests hickory ω
  | [] => ([], requests)
  | id :: ids =>
    let (replies, requests) := requests.complete id (.error .incompleteResponse) now
    let (later, requests) := requests.completeAll now ids
    (replies ++ later, requests)

def expire (requests : DnsRequests hickory ω) (now : Instant) :
    List (DnsReply ω) × DnsRequests hickory ω :=
  requests.completeAll now
    ((requests.running.filter fun entry => entry.deadline ≤ now).map Running.id)

end DnsRequests

end Kakoi
