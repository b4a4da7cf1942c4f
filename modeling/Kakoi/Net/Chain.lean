import Kakoi.Net.Leases
import Kakoi.Net.Resolution

/-! The walk from a question's name along aliases to the records that hold its addresses. -/

namespace Kakoi

structure AddressCandidate where
  address : IpAddr
  deadline : Instant
  deriving DecidableEq

inductive AddressProgress where
  | complete (candidates : List AddressCandidate)
  | follow (target : String)
  | noData
  deriving DecidableEq

structure AddressChain where
  current : DomainName
  kind : RecordType
  aliases : CnameChain
  deriving DecidableEq

def aliasError : CnameError → DnsError
  | .cycle => .aliasCycle
  | .hops => .aliasLimit
  | .invalidName => .malformed

/-- One more deadline among those of records received together. -/
def earlier (received : Instant) (grace : Duration) (earliest : Option Instant) (ttl : Nat) :
    Except DnsError (Option Instant) :=
  match recordDeadline received ttl grace with
  | none => .error .lifetimeOverflow
  | some next => .ok (some (earliest.elim next (min · next)))

def earliestDeadline (ttls : List Nat) (received : Instant) (grace : Duration) :
    Except DnsError (Option Instant) :=
  ttls.foldlM (earlier received grace) none

/-- The records of a name. -/
def recordsOf (answers : List Record) (name : DomainName) : List Record :=
  answers.filter fun record => record.dnsClass = .internet && record.name.eqIgnoreRoot name

/-- The alias a record holds, with its time to live. -/
def aliasOf (record : Record) : Option (DomainName × Nat) :=
  match record.data with
  | .cname target => some (target, record.ttl)
  | _ => none

/-- The address of a record of the type asked for, with its time to live. -/
def addressOf (kind : RecordType) (record : Record) : Option (IpAddr × Nat) :=
  match record.data with
  | .a address => if kind = .a then some (.v4 address, record.ttl) else none
  | .aaaa address =>
    if kind = .aaaa then some ((IpAddr.v6 address).toCanonical, record.ttl) else none
  | _ => none

/-- A record that may stand beside an alias. -/
def besideAlias (record : Record) : Bool :=
  record.recordType = .cname || record.recordType = .rrsig || record.recordType = .nsec

namespace AddressChain

variable (hickory : Hickory)

def new (query : Query) (maxHops : Nat) : Except DnsError AddressChain :=
  if query.queryClass ≠ .internet || !(query.queryType = .a || query.queryType = .aaaa) then
    .error .unsupportedQuery
  else
    match CnameChain.new hickory (hickory.toAscii query.name) maxHops with
    | .error error => .error (aliasError error)
    | .ok aliases => .ok { current := query.name, kind := query.queryType, aliases }

/-- The end of the walk in one response: the addresses of the name reached. -/
def finish (answers : List Record) (received : Instant) (grace : Duration) (followed : Bool)
    (chain : AddressChain) : Except DnsError AddressProgress :=
  let addresses := (recordsOf answers chain.current).filterMap (addressOf chain.kind)
  match earliestDeadline (addresses.map Prod.snd) received grace with
  | .error error => .error error
  | .ok (some earliest) =>
    let deadline := chain.aliases.permissionDeadline earliest
    .ok (.complete (addresses.map fun (address, _) => { address, deadline }))
  | .ok none => .ok (if followed then .follow (hickory.toAscii chain.current) else .noData)

/-- One alias of the name reached, which all its alias records must agree on. -/
def followAlias (answers : List Record) (received : Instant) (grace : Duration)
    (target : DomainName) (chain : AddressChain) : Except DnsError AddressChain :=
  let records := recordsOf answers chain.current
  let aliases := records.filterMap aliasOf
  if aliases.any (fun other => !other.1.eqIgnoreRoot target) || records.any (!besideAlias ·) then
    .error .conflictingAlias
  else
    match earliestDeadline (aliases.map Prod.snd) received grace with
    | .error error => .error error
    | .ok earliest =>
      -- There is at least one alias, so there is an earliest deadline.
      match chain.aliases.follow hickory (hickory.toAscii target) (earliest.getD received) with
      | .error error => .error (aliasError error)
      | .ok aliases => .ok { chain with aliases, current := target }

/-- The loop inside one response; `hops` bounds the aliases it can follow. -/
def walk (answers : List Record) (received : Instant) (grace : Duration) :
    Nat → Bool → AddressChain → Except DnsError AddressProgress × AddressChain
  | hops, followed, chain =>
    match (recordsOf answers chain.current).filterMap aliasOf with
    | [] => (chain.finish hickory answers received grace followed, chain)
    | (target, _) :: _ =>
      match chain.followAlias hickory answers received grace target with
      | .error error => (.error error, chain)
      | .ok next =>
        match hops with
        | 0 => (.error .aliasLimit, next)
        | hops + 1 => walk answers received grace hops true next

/-- The aliases that can still be followed. -/
def hopsLeft (chain : AddressChain) : Nat := chain.aliases.maxHops + 1 - chain.aliases.names.length

def consumeInner (chain : AddressChain) (response : ValidatedResponse) (received : Instant)
    (zeroGrace : Duration) : Except DnsError AddressProgress × AddressChain :=
  match response.message.queries with
  -- The source indexes: a validated response repeats its one question.
  | [] => (.error .mismatchedResponse, chain)
  | question :: _ =>
    if !question.name.eqIgnoreRoot chain.current || question.queryType ≠ chain.kind ||
        question.queryClass ≠ .internet then
      (.error .mismatchedResponse, chain)
    else if response.disposition ≠ .answer then (.error .incompleteResponse, chain)
    else if response.message.metadata.responseCode ≠ .noError then (.ok .noData, chain)
    else walk hickory response.message.answers received zeroGrace chain.hopsLeft false chain

/-- A response that is not accepted leaves the chain as it was. -/
def consume (chain : AddressChain) (response : ValidatedResponse) (received : Instant)
    (zeroGrace : Duration) : Except DnsError AddressProgress × AddressChain :=
  match chain.consumeInner hickory response received zeroGrace with
  | (.error error, _) => (.error error, chain)
  | (.ok progress, next) => (.ok progress, next)

end AddressChain

end Kakoi
