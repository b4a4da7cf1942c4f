import Kakoi.Base.Program
import Kakoi.Net.Chain

/-! The resolution of an address question: aliases are followed by further lookups, and the
replies put together. -/

namespace Kakoi

inductive ResolveOp where
  | now
  | lookup (request : Wire)

def ResolveOp.Answer : ResolveOp → Type
  | .now => Instant
  | .lookup _ => Except DnsError (Wire × Instant)

abbrev Resolving := Program ResolveOp ResolveOp.Answer

structure ResolvedAddresses where
  response : ValidatedResponse
  candidates : List AddressCandidate
  deriving DecidableEq

/-- A validated reply with its reception time. -/
abbrev Received := ValidatedResponse × Instant

/-- The longest time to live. -/
def maxTtl : Nat := 4294967295

def age (received now : Instant) (record : Record) : Except DnsError Record :=
  (checkedAdd received (seconds record.ttl)).elim (.error .lifetimeOverflow) fun expiry =>
    .ok { record with ttl := min ((expiry - now) / seconds 1) maxTtl }

section Replies

variable {hickory : Hickory}

/-- The message put together from the replies, with the earlier answers aged to `now`. -/
def combined (original : Question hickory) (previous : List Received) (last : Message)
    (earlier : List Record) : Message :=
  { last with
    metadata := { last.metadata with
      id := original.metadata.id
      authoritative := false
      recursionDesired := original.metadata.recursionDesired
      checkingDisabled := original.metadata.checkingDisabled
      authenticData := previous.foldl (fun authentic reply =>
        authentic && reply.1.message.metadata.authenticData) last.metadata.authenticData }
    queries := [original.query]
    answers := earlier ++ last.answers }

def assemble (original : Question hickory) (previous : List Received) (last : ValidatedResponse)
    (now : Instant) : Except DnsError ValidatedResponse := do
  if last.message.signature.isSome then throw .incompleteResponse
  let earlier ← previous.mapM fun (response, received) =>
    response.message.answers.mapM (age received now)
  match hickory.toVec (combined original previous last.message earlier.flatten) with
  | none => throw .malformed
  | some wire => original.validateResponse wire

/-- The request for the name an alias leads to. -/
def followUp (original : Question hickory) (target : String) : Except DnsError Wire :=
  match hickory.fromAscii target with
  | none => .error .malformed
  | some name =>
    match hickory.toVec
        { original.message with queries := [{ original.query with name }] } with
    | none => .error .malformed
    | some request => .ok request

/-- Where the loop stands before a lookup. -/
structure Resolution where
  chain : AddressChain
  request : Wire
  previous : List Received

/-- A reply either ends the loop or leads to another lookup. -/
inductive Round where
  | again (next : Resolution)
  | over (resolved : ResolvedAddresses)

def zeroGrace (limits : NetworkLimits) : Duration :=
  milliseconds limits.dnsZeroTtlGraceMilliseconds

/-- The response at the end: the only reply, or all of them put together. -/
def ending (original : Question hickory) (previous : List Received)
    (response : ValidatedResponse) (received : Instant) : Except DnsError ValidatedResponse :=
  if previous.isEmpty then .ok response else assemble original previous response received

def nextRound (original : Question hickory) (previous : List Received)
    (response : ValidatedResponse) (received : Instant) (chain : AddressChain) :
    AddressProgress → Except DnsError Round
  | .follow target => do
    -- A signature binds the whole message, so it cannot cover a follow-up.
    if original.signature.isSome || response.message.signature.isSome then
      throw .incompleteResponse
    let request ← followUp original target
    return .again { chain, request, previous := previous ++ [(response, received)] }
  | .complete candidates => do
    return .over { response := ← ending original previous response received, candidates }
  | .noData => do
    return .over { response := ← ending original previous response received, candidates := [] }

def takeReply (original : Question hickory) (limits : NetworkLimits) (budget : ResolutionBudget)
    (state : Resolution) (reply : Wire) (received : Instant) : Except DnsError Round := do
  (budget.ensureLive received).mapError fun _ => DnsError.incompleteResponse
  if state.previous.getLast?.any fun (_, last) => received < last then throw .malformed
  let question ← Question.parse hickory state.request
  let response ← question.validateResponse reply
  match state.chain.consume hickory response received (zeroGrace limits) with
  | (.error error, _) => throw error
  | (.ok progress, chain) => nextRound original state.previous response received chain progress

/-- At most `rounds` turns of the loop; nothing is returned when it goes on after them. -/
def resolveRounds (original : Question hickory) (limits : NetworkLimits)
    (budget : ResolutionBudget) :
    Nat → Resolution → Resolving (Option (Except DnsError ResolvedAddresses))
  | 0, _ => .done none
  | rounds + 1, state =>
    .ask .now fun now =>
      match budget.ensureLive now with
      | .error _ => .done (some (.error .incompleteResponse))
      | .ok () =>
        .ask (.lookup state.request) fun answer =>
          match (answer : Except DnsError (Wire × Instant)) with
          | .error error => .done (some (.error error))
          | .ok (reply, received) =>
            match takeReply original limits budget state reply received with
            | .error error => .done (some (.error error))
            | .ok (.over resolved) => .done (some (.ok resolved))
            | .ok (.again next) => resolveRounds original limits budget rounds next

end Replies

variable (hickory : Hickory)

def resolveWithin (rounds : Nat) (wire : Wire) (limits : NetworkLimits)
    (budget : ResolutionBudget) : Resolving (Option (Except DnsError ResolvedAddresses)) :=
  match Question.parse hickory wire with
  | .error error => .done (some (.error error))
  | .ok original =>
    match AddressChain.new hickory original.query limits.dnsMaxCnameHops with
    | .error error => .done (some (.error error))
    | .ok chain =>
      resolveRounds original limits budget rounds { chain, request := wire, previous := [] }

end Kakoi
