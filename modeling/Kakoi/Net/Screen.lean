import Kakoi.Net.Chain
import Kakoi.Net.Scope

/-! The answer an application gets: addresses that were not admitted are taken out, and its times
to live made equal. -/

namespace Kakoi

structure ScreenedAnswer where
  wire : Wire
  dynamicGrants : List AddressCandidate
  deriving DecidableEq

/-- The target of a record that is an alias of the name. -/
def aliasFor (name : DomainName) (record : Record) : Option DomainName :=
  if record.dnsClass = .internet && record.name.eqIgnoreRoot name then
    (aliasOf record).map Prod.fst
  else none

def firstAlias (answers : List Record) (name : DomainName) : Option DomainName :=
  answers.findSome? (aliasFor name)

/-- The name reached by at most `steps` aliases. -/
def terminalName (answers : List Record) : Nat → DomainName → DomainName
  | 0, name => name
  | steps + 1, name =>
    match firstAlias answers name with
    | none => name
    | some next => terminalName answers steps next

/-- An answer that may be returned: no address, or one retained for the name reached. -/
def screenedRecord (kind : RecordType) (terminal : DomainName) (retained : List IpAddr)
    (record : Record) : Bool :=
  if record.dnsClass ≠ .internet then true
  else
    match record.data.address with
    | none => true
    | some address =>
      record.recordType = kind && record.name.eqIgnoreRoot terminal && retained.contains address

def permittedAddress (retained : List IpAddr) (record : Record) : Bool :=
  match record.data.address with
  | none => true
  | some address => retained.contains address

namespace Message

def isSigned (message : Message) : Bool :=
  message.signature.isSome ||
    (message.answers ++ message.authorities ++ message.additionals).any (·.recordType = .rrsig)

def shortestTtl (message : Message) : Option Nat := (message.answers.map Record.ttl).min?

def needsAligning (message : Message) : Bool :=
  message.signature.isNone &&
    message.answers.any fun record => message.shortestTtl.all (· < record.ttl)

/-- Whether a record does not pass; signed data is never rewritten. -/
def needsFiltering (message : Message) (answers others : Record → Bool) : Bool :=
  !message.isSigned && (!message.answers.all answers || !message.authorities.all others ||
    !message.additionals.all others)

/-- The message with the records that pass, which no upstream authenticated as such. -/
def keeping (message : Message) (answers others : Record → Bool) : Message :=
  { message with
    metadata := { message.metadata with authenticData := false }
    answers := message.answers.filter answers
    authorities := message.authorities.filter others
    additionals := message.additionals.filter others }

def withTtl (message : Message) (ttl : Nat) : Message :=
  { message with answers := message.answers.map fun record => { record with ttl } }

/-- The message as it is returned. -/
def rewritten (message : Message) (answers others : Record → Bool) : Message :=
  let kept := if message.needsFiltering answers others then message.keeping answers others
    else message
  match message.shortestTtl with
  | some ttl => if message.needsAligning then kept.withTtl ttl else kept
  | none => kept

end Message

def retainedAddresses (candidates : List AddressCandidate) (admission : IpAddr → DnsAdmission) :
    List IpAddr :=
  (candidates.filter fun candidate => admission candidate.address ≠ .denied).map
    AddressCandidate.address

def ValidatedResponse.screenAddresses (hickory : Hickory) (response : ValidatedResponse)
    (candidates : List AddressCandidate) (admission : IpAddr → DnsAdmission) :
    Except DnsError ScreenedAnswer :=
  let message := response.message
  if response.disposition ≠ .answer || message.metadata.responseCode ≠ .noError then
    .error .incompleteResponse
  else
    let retained := retainedAddresses candidates admission
    let dynamicGrants := candidates.filter fun candidate =>
      admission candidate.address = .dynamic
    if !candidates.isEmpty && retained.isEmpty then .error .policyDenied
    else
      match message.queries with
      -- The source indexes: a validated response repeats its one question.
      | [] => .error .mismatchedResponse
      | query :: _ =>
        let terminal := terminalName message.answers message.answers.length query.name
        let screened := screenedRecord query.queryType terminal retained
        let permitted := permittedAddress retained
        if !message.needsAligning && !message.needsFiltering screened permitted then
          .ok { wire := response.wire, dynamicGrants }
        else
          match hickory.toVec (message.rewritten screened permitted) with
          | some wire => .ok { wire, dynamicGrants }
          | none => .error .malformed

end Kakoi
