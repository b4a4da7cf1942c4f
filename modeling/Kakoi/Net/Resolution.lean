import Kakoi.Net.Message

/-! Work limits owned by one DNS resolution, across upstream and settings changes. -/

namespace Kakoi

inductive CnameError where
  | invalidName
  | cycle
  | hops
  deriving DecidableEq

/-- The names an alias walk went through, with the earliest deadline of the aliases. -/
structure CnameChain where
  names : List DomainName
  maxHops : Nat
  deadline : Option Instant := none
  deriving DecidableEq

section Aliases

variable (hickory : Hickory)

def CnameChain.new (original : String) (maxHops : Nat) : Except CnameError CnameChain :=
  match hickory.fromAscii original with
  | some name => .ok { names := [name], maxHops }
  | none => .error .invalidName

def CnameChain.follow (chain : CnameChain) (target : String) (deadline : Instant) :
    Except CnameError CnameChain :=
  match hickory.fromAscii target with
  | none => .error .invalidName
  | some name =>
    if chain.names.any (·.eqIgnoreRoot name) then .error .cycle
    else if chain.maxHops < chain.names.length then .error .hops
    else
      .ok { chain with
        names := chain.names ++ [name]
        deadline := some (chain.deadline.elim deadline (min · deadline)) }

end Aliases

def CnameChain.permissionDeadline (chain : CnameChain) (addressDeadline : Instant) : Instant :=
  chain.deadline.elim addressDeadline (min · addressDeadline)

inductive ResolutionLimit where
  | deadline
  | queries
  deriving DecidableEq

/-- How long one upstream is waited for. -/
inductive UpstreamWait where
  | perCandidate
  | wholeResolution
  deriving DecidableEq

/-- The limits of one attempt; the queries that are left are counted outside. -/
structure ResolutionBudget where
  deadline : Instant
  serverTimeout : Duration
  deriving DecidableEq

namespace ResolutionBudget

def sharing (start : Instant) (limits : NetworkLimits) :
    Except ResolutionLimit ResolutionBudget :=
  match checkedAdd start (seconds limits.dnsResolutionTimeoutSeconds) with
  | some deadline =>
    .ok { deadline, serverTimeout := seconds limits.dnsServerTimeoutSeconds }
  | none => .error .deadline

def constrainDeadline (budget : ResolutionBudget) (deadline : Instant) : ResolutionBudget :=
  { budget with deadline := min budget.deadline deadline }

def ensureLive (budget : ResolutionBudget) (now : Instant) : Except ResolutionLimit Unit :=
  if budget.deadline ≤ now then .error .deadline else .ok ()

/-- The deadline of one exchange, for a query that was reserved. -/
def exchangeDeadline (budget : ResolutionBudget) (now : Instant) : UpstreamWait → Instant
  | .wholeResolution => budget.deadline
  | .perCandidate =>
    (checkedAdd now budget.serverTimeout).elim budget.deadline (min · budget.deadline)

end ResolutionBudget

end Kakoi
