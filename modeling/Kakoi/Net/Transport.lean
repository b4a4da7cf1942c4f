import Kakoi.Base.Program
import Kakoi.Net.Resolution

/-! Upstream exchanges for one question: candidates in order, each query reserved from the shared
allowance, and a fallback to TCP. The socket is the surroundings'. -/

namespace Kakoi

structure Peer where
  address : IpAddr
  port : UInt16
  deriving DecidableEq

inductive Channel where
  | udp
  | tcp
  | tls (name : String)
  deriving DecidableEq

inductive UpstreamOp where
  | now
  | isCancelled
  | take
  | randomId
  | exchange (channel : Channel) (peer : Peer) (request : Wire) (deadline : Instant)
  | route (address : IpAddr)

def UpstreamOp.Answer : UpstreamOp → Type
  | .now => Instant
  | .isCancelled => Bool
  | .take => Bool
  | .randomId => Option (UInt8 × UInt8)
  | .exchange .. => Option (Wire × Instant)
  | .route _ => Option String

/-- Work of one resolution worker. Where it is an I/O result, nothing stands for the error,
of which the callers only use that there is one. -/
abbrev Upstream := Program UpstreamOp UpstreamOp.Answer

namespace Upstream

def now : Upstream Instant := .ask .now .done

def isCancelled : Upstream Bool := .ask .isCancelled .done

def takeQuery : Upstream Bool := .ask .take .done

def randomId : Upstream (Option (UInt8 × UInt8)) := .ask .randomId .done

def send (channel : Channel) (peer : Peer) (request : Wire) (deadline : Instant) :
    Upstream (Option (Wire × Instant)) :=
  .ask (.exchange channel peer request deadline) .done

def route (address : IpAddr) : Upstream (Option String) := .ask (.route address) .done

end Upstream

structure ReceivedResponse where
  response : ValidatedResponse
  receivedAt : Instant

/-- `ExchangeDeadline::remaining`: whether the exchange may go on. -/
def remaining (deadline : Instant) : Upstream Bool := do
  if ← Upstream.isCancelled then return false
  let now ← Upstream.now
  return now < deadline

def reserveQuery (budget : ResolutionBudget) (wait : UpstreamWait) : Upstream (Option Instant) := do
  let now ← Upstream.now
  match budget.ensureLive now with
  | .error _ => return none
  | .ok () =>
    return if ← Upstream.takeQuery then some (budget.exchangeDeadline now wait) else none

section Exchange

variable {hickory : Hickory}

/-- The request under an identifier of its own, unless a signature covers the identifier. -/
def upstreamRequest (wire : Wire) (original : Question hickory) (deadline : Instant) :
    Upstream (Option Wire) := do
  if original.signature.isSome then return some wire
  if ← remaining deadline then
    return (← Upstream.randomId).map fun (high, low) => high :: low :: wire.drop 2
  else return none

def restoreClientId (answer wire : Wire) (original : Question hickory) : Wire :=
  if original.signature.isSome then answer else wire.take 2 ++ answer.drop 2

variable (hickory)

/-- The reply under the client's identifier, checked against the client's question. -/
def receivedReply (wire answer : Wire) (receivedAt : Instant) (original : Question hickory) :
    Option ReceivedResponse :=
  match original.validateResponse (restoreClientId answer wire original) with
  | .error _ => none
  | .ok response => some { response, receivedAt }

/-- One query over UDP or TCP. -/
def plain (wire : Wire) (peer : Peer) (channel : Channel) (deadline : Instant) :
    Upstream (Option ReceivedResponse) := do
  match Question.parse hickory wire with
  | .error _ => return none
  | .ok original =>
    if ← remaining deadline then
      match ← upstreamRequest wire original deadline with
      | none => return none
      | some request =>
        match Question.parse hickory request with
        | .error _ => return none
        | .ok question =>
          match ← Upstream.send channel peer request deadline with
          | none => return none
          | some (answer, receivedAt) =>
            match question.validateResponse answer with
            | .error _ => return none
            | .ok _ =>
              if ← remaining deadline then
                return receivedReply hickory wire answer receivedAt original
              else return none
    else return none

/-- One query over TLS, whose handshake is part of the exchange. -/
def exchangeTls (wire : Wire) (peer : Peer) (name : String) (deadline : Instant) :
    Upstream (Option ReceivedResponse) := do
  match Question.parse hickory wire with
  | .error _ => return none
  | .ok original =>
    match ← upstreamRequest wire original deadline with
    | none => return none
    | some request =>
      match Question.parse hickory request with
      | .error _ => return none
      | .ok question =>
        match ← Upstream.send (.tls name) peer request deadline with
        | none => return none
        | some (answer, receivedAt) =>
          if ← remaining deadline then
            match question.validateResponse answer with
            | .error _ => return none
            | .ok _ => return receivedReply hickory wire answer receivedAt original
          else return none

/-- An answer that ends the search; another candidate is tried otherwise. -/
def answered (result : Option ReceivedResponse) : Option ReceivedResponse :=
  result.filter fun received => received.response.disposition = .answer

/-- The loop over plain candidates. -/
def plainCandidates (wire : Wire) (budget : ResolutionBudget) (wait : UpstreamWait) :
    List Peer → List Peer → Upstream (Option ReceivedResponse)
  | [], _ => return none
  | peer :: peers, attempted =>
    if attempted.contains peer then plainCandidates wire budget wait peers attempted
    else do
      match ← reserveQuery budget wait with
      | none => return none
      | some candidateDeadline =>
        let first ← plain hickory wire peer .udp candidateDeadline
        if first.any fun received => received.response.disposition = .retryTcp then
          -- Changing transport neither renews this candidate's wait nor the query count.
          let now ← Upstream.now
          if candidateDeadline ≤ now then
            plainCandidates wire budget wait peers (peer :: attempted)
          else
            match ← reserveQuery budget wait with
            | none => return none
            | some deadline =>
              let second ← plain hickory wire peer .tcp (min deadline candidateDeadline)
              match answered second with
              | some received => return some received
              | none => plainCandidates wire budget wait peers (peer :: attempted)
        else
          match answered first with
          | some received => return some received
          | none => plainCandidates wire budget wait peers (peer :: attempted)

/-- The loop over TLS candidates. -/
def tlsCandidates (wire : Wire) (budget : ResolutionBudget) (wait : UpstreamWait) :
    List DnsUpstream → List (Peer × String) → Upstream (Option ReceivedResponse)
  | [], _ => return none
  | upstream :: upstreams, attempted =>
    let peer : Peer := { address := upstream.address, port := upstream.port }
    -- The upstreams are all plain or all TLS.
    match upstream.tlsName with
    | none => return none
    | some name =>
      if attempted.contains (peer, name) then
        tlsCandidates wire budget wait upstreams attempted
      else do
        match ← reserveQuery budget wait with
        | none => return none
        | some deadline =>
          let result ← exchangeTls hickory wire peer name deadline
          match answered result with
          | some received => return some received
          | none => tlsCandidates wire budget wait upstreams ((peer, name) :: attempted)

def exchangeUpstreams (wire : Wire) (upstreams : List DnsUpstream) (trust : Bool)
    (budget : ResolutionBudget) (wait : UpstreamWait) : Upstream (Option ReceivedResponse) :=
  match validateUpstreams upstreams, upstreams with
  | .error _, _ => return none
  | .ok (), [] => return none
  | .ok (), first :: _ =>
    if first.tlsName.isNone then
      match Question.parse hickory wire with
      | .error _ => return none
      | .ok _ =>
        plainCandidates hickory wire budget wait
          (upstreams.map fun upstream => { address := upstream.address, port := upstream.port })
          []
    else if !trust then return none
    else
      match Question.parse hickory wire with
      | .error _ => return none
      | .ok _ => tlsCandidates hickory wire budget wait upstreams []

end Exchange

end Kakoi
