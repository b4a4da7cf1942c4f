import Kakoi.Base.Monitor
import Kakoi.Net.Gate
import Kakoi.Net.Resolve
import Kakoi.Net.Screen
import Kakoi.Net.Transport

/-! The resolution worker: a question is authorized, resolved and screened, and its permissions
prepared. -/

namespace Kakoi

structure UpstreamResolver where
  gate : DnsGate
  upstreams : List DnsUpstream
  limits : NetworkLimits
  trust : Bool
  wait : UpstreamWait := .perCandidate

/-- A screened answer whose bytes become available only after permission adoption. -/
structure PreparedAnswer where
  wire : Wire
  grants : List ActiveGrant
  deadline : Instant

section Resolving

variable (idna : Idna) (hickory : Hickory)

/-- The resolution loop, which ends within the aliases that may be followed. -/
def resolveAddresses (wire : Wire) (limits : NetworkLimits) (budget : ResolutionBudget) :
    Resolving (Except DnsError ResolvedAddresses) := do
  return (← resolveWithin hickory (limits.dnsMaxCnameHops + 1) wire limits budget).getD
    (.error .aliasLimit)

/-- A failure is answered by an error response. -/
def Question.closing {hickory : Hickory} (question : Question hickory) :
    Except DnsError Wire → Except DnsError Wire
  | .ok answer => .ok answer
  | .error error =>
    question.errorResponse (if error = .policyDenied then .refused else .servFail)

/-- The gate around a resolution, which also gives the grants it offered. -/
def DnsGate.dispatch (gate : DnsGate) (wire : Wire)
    (resolve : Wire → List Nat → Upstream (Except DnsError Wire × List ActiveGrant)) :
    Upstream (Except DnsError Wire × List ActiveGrant) :=
  match Question.parse hickory wire with
  | .error error => return (.error error, [])
  | .ok question =>
    let matched := gate.authorizedRules idna question
    if matched.isEmpty then return (question.closing (.error .policyDenied), [])
    else do
      let (answer, offered) ← resolve wire matched
      let checked : Except DnsError Wire := do
        let answer ← answer
        let _ ← question.validateResponse answer
        return answer
      return (question.closing checked, offered)

/-- Whether work may go on with its grants. -/
def ensureLive (budget : ResolutionBudget) (grants : List ActiveGrant) : Upstream Bool := do
  let now ← Upstream.now
  match budget.ensureLive now with
  | .error _ => return false
  | .ok () => return !grants.any fun grant => grant.deadline ≤ now

def checkCancel : Upstream Bool := do
  return !(← Upstream.isCancelled)

/-- The host route of each candidate address, observed once. -/
def observeRoutes : List AddressCandidate → List (IpAddr × Option String) →
    Upstream (List (IpAddr × Option String))
  | [], routes => return routes
  | candidate :: candidates, routes =>
    if routes.any (·.1 = candidate.address) then observeRoutes candidates routes
    else do
      let route ← Upstream.route candidate.address
      observeRoutes candidates (routes ++ [(candidate.address, route)])

end Resolving

namespace UpstreamResolver

variable (idna : Idna) (hickory : Hickory)

/-- Admission of an address by one rule. -/
def admitsBy (resolver : UpstreamResolver) (scope : AddressContext)
    (routes : List (IpAddr × Option String)) (rule : Nat) (address : IpAddr) : DnsAdmission :=
  match resolver.gate.policy[rule]? with
  | none => .denied
  | some origin =>
    scope.admitDns origin address ((routes.find? (·.1 = address)).bind Prod.snd)
      resolver.gate.policy

/-- Admission of an address by all the rules that authorize the question. -/
def admission (resolver : UpstreamResolver) (scope : AddressContext)
    (routes : List (IpAddr × Option String)) (rules : List Nat) (address : IpAddr) :
    DnsAdmission :=
  if rules.any fun rule => resolver.admitsBy scope routes rule address = .dynamic then .dynamic
  else if rules.any fun rule => resolver.admitsBy scope routes rule address = .existingOnly then
    .existingOnly
  else .denied

def grantsFor (resolver : UpstreamResolver) (scope : AddressContext)
    (routes : List (IpAddr × Option String)) (rules : List Nat)
    (candidates : List AddressCandidate) : List ActiveGrant :=
  candidates.flatMap fun candidate =>
    (rules.filter fun rule =>
      resolver.admitsBy scope routes rule candidate.address = .dynamic).map fun rule =>
        { rule, address := candidate.address, deadline := candidate.deadline }

def exchange (resolver : UpstreamResolver) (budget : ResolutionBudget) (request : Wire) :
    Upstream (Option ReceivedResponse) :=
  exchangeUpstreams hickory request resolver.upstreams resolver.trust budget resolver.wait

/-- One question of the resolution loop. -/
def lookup (resolver : UpstreamResolver) (budget : ResolutionBudget) :
    (op : ResolveOp) → Upstream op.Answer
  | .now => Upstream.now
  | .lookup request => do
    match ← resolver.exchange hickory budget request with
    | none => return .error .incompleteResponse
    | some received => return .ok (received.response.wire, received.receivedAt)

/-- The last checks, once the grants were installed. -/
def conclude (budget : ResolutionBudget) (wire : Wire) (grants : List ActiveGrant) :
    Except DnsError Unit → Upstream (Except DnsError Wire × List ActiveGrant)
  | .error error => return (.error error, grants)
  | .ok () => do
    if ← ensureLive budget grants then
      if ← checkCancel then return (.ok wire, grants)
      else return (.error .incompleteResponse, grants)
    else return (.error .incompleteResponse, grants)

/-- Screens the addresses, prepares the grants and has them installed. -/
def adoptResolved (resolver : UpstreamResolver) (scope : AddressContext) (rules : List Nat)
    (budget : ResolutionBudget) (install : List ActiveGrant → Upstream (Except DnsError Unit))
    (resolved : ResolvedAddresses) : Upstream (Except DnsError Wire × List ActiveGrant) := do
  let routes ← observeRoutes resolved.candidates []
  match resolved.response.screenAddresses hickory resolved.candidates
      (resolver.admission scope routes rules) with
  | .error error => return (.error error, [])
  | .ok screened =>
    let grants := resolver.grantsFor scope routes rules screened.dynamicGrants
    if ← ensureLive budget grants then
      if ← checkCancel then
        if grants.isEmpty then conclude budget screened.wire grants (.ok ())
        else conclude budget screened.wire grants (← install grants)
      else return (.error .incompleteResponse, [])
    else return (.error .incompleteResponse, [])

/-- The resolution of an authorized question. -/
def resolveAuthorized (resolver : UpstreamResolver) (deadline : Instant) (scope : AddressContext)
    (install : List ActiveGrant → Upstream (Except DnsError Unit)) (request : Wire)
    (rules : List Nat) : Upstream (Except DnsError Wire × List ActiveGrant) := do
  if ← checkCancel then
    let now ← Upstream.now
    match ResolutionBudget.sharing now resolver.limits with
    | .error _ => return (.error .incompleteResponse, [])
    | .ok budget =>
      let budget := budget.constrainDeadline deadline
      if ← ensureLive budget [] then
        match Question.parse hickory request with
        | .error error => return (.error error, [])
        | .ok question =>
          if question.query.queryClass ≠ .internet ||
              !(question.query.queryType = .a || question.query.queryType = .aaaa) then
            -- Ordinary non-address data never creates permissions.
            match ← resolver.exchange hickory budget request with
            | none => return (.error .incompleteResponse, [])
            | some received => return (.ok received.response.wire, [])
          else
            match ← (resolveAddresses hickory request resolver.limits budget).interpret
                (resolver.lookup hickory budget) with
            | .error error => return (.error error, [])
            | .ok resolved =>
              if resolved.candidates.isEmpty then return (.ok resolved.response.wire, [])
              else resolver.adoptResolved hickory scope rules budget install resolved
      else return (.error .incompleteResponse, [])
  else return (.error .incompleteResponse, [])

def resolveControlled (resolver : UpstreamResolver) (wire : Wire) (deadline : Instant)
    (scope : AddressContext) (install : List ActiveGrant → Upstream (Except DnsError Unit)) :
    Upstream (Except DnsError Wire × List ActiveGrant) :=
  resolver.gate.dispatch idna hickory wire
    (resolver.resolveAuthorized hickory deadline scope install)

/-- The work of the runtime: grants are collected and adopted later. -/
def prepareSharing (resolver : UpstreamResolver) (wire : Wire) (deadline : Instant)
    (scope : AddressContext) : Upstream (Except DnsError PreparedAnswer) := do
  let now ← Upstream.now
  let deadline := min deadline (now + seconds resolver.limits.dnsResolutionTimeoutSeconds)
  match Question.parse hickory wire with
  | .error error => return .error error
  | .ok question =>
    let (answer, grants) ← resolver.resolveControlled idna hickory wire deadline scope
      fun _ => return .ok ()
    return do
      let answer ← answer
      let validated ← question.validateResponse answer
      -- A last check may have turned a candidate into a failure, which adopts nothing.
      return {
        wire := answer
        grants := if validated.message.metadata.responseCode ≠ .noError then [] else grants
        deadline }

end UpstreamResolver

end Kakoi
