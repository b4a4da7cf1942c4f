import Kakoi.Policy.Network

/-! DNS messages, and the checks on a question and on a response. Wire bytes are left to the DNS
library, of which only what the checks rely on is assumed. -/

namespace Kakoi

/-- Nanoseconds of the monotonic clock. -/
abbrev Instant := Nat

/-- A length of time in nanoseconds. -/
abbrev Duration := Nat

def seconds (count : Nat) : Duration := count * 1000000000

def milliseconds (count : Nat) : Duration := count * 1000000

/-- The first instant that is too late to be represented. -/
def instantLimit : Instant := seconds 9223372036854775808

/-- `Instant::checked_add`. -/
def checkedAdd (instant : Instant) (duration : Duration) : Option Instant :=
  if instant + duration < instantLimit then some (instant + duration) else none

theorem checkedAdd_some : checkedAdd instant duration = some sum ↔
    instant + duration = sum ∧ sum < instantLimit := by
  unfold checkedAdd
  split
  · rename_i fits
    constructor
    · rintro ⟨rfl⟩
      exact ⟨rfl, fits⟩
    · rintro ⟨rfl, -⟩
      rfl
  · rename_i late
    constructor
    · rintro ⟨⟩
    · rintro ⟨rfl, fits⟩
      exact absurd fits late

/-- The kinds of `io::Error` that something depends on. -/
inductive IoErrorKind where
  | invalidInput
  | invalidData
  | brokenPipe
  | wouldBlock
  | timedOut
  | other
  deriving DecidableEq

structure IoError where
  kind : IoErrorKind
  text : String
  deriving DecidableEq

abbrev Wire := List UInt8

/-- A name as its labels; names compare without regard to the case of letters. -/
structure DomainName where
  labels : List (List UInt8)
  isFqdn : Bool := true
  deriving DecidableEq

def lowerByte (byte : UInt8) : UInt8 := if 65 ≤ byte && byte ≤ 90 then byte + 32 else byte

namespace DomainName

def toLowercase (name : DomainName) : DomainName :=
  { name with labels := name.labels.map (·.map lowerByte) }

def eqIgnoreRoot (left right : DomainName) : Bool :=
  left.toLowercase.labels == right.toLowercase.labels

/-- `==` of names, which also compares whether they are absolute. -/
def same (left right : DomainName) : Bool :=
  left.isFqdn == right.isFqdn && left.eqIgnoreRoot right

theorem lowerByte_twice (byte : UInt8) : lowerByte (lowerByte byte) = lowerByte byte := by
  have all : ∀ value : Fin 256,
      lowerByte (lowerByte (UInt8.ofFin value)) = lowerByte (UInt8.ofFin value) := by
    decide +kernel
  exact all byte.toFin

theorem toLowercase_twice (name : DomainName) : name.toLowercase.toLowercase = name.toLowercase := by
  simp [toLowercase, Function.comp_def, lowerByte_twice]

theorem eqIgnoreRoot_iff : eqIgnoreRoot left right = true ↔
    left.toLowercase.labels = right.toLowercase.labels := by
  simp [eqIgnoreRoot]

end DomainName

structure RecordType where
  code : UInt16
  deriving DecidableEq

namespace RecordType

def a : RecordType := ⟨1⟩

def cname : RecordType := ⟨5⟩

def aaaa : RecordType := ⟨28⟩

def rrsig : RecordType := ⟨46⟩

def nsec : RecordType := ⟨47⟩

end RecordType

inductive DnsClass where
  | internet
  | other (code : UInt16)
  deriving DecidableEq

inductive ResponseCode where
  | noError
  | servFail
  | refused
  | other (code : UInt16)
  deriving DecidableEq

inductive MessageType where
  | query
  | response
  deriving DecidableEq

inductive OpCode where
  | query
  | other (code : UInt8)
  deriving DecidableEq

inductive RData where
  | a (address : BitVec 32)
  | aaaa (address : BitVec 128)
  | cname (target : DomainName)
  | other (kind : RecordType) (data : List UInt8)
  deriving DecidableEq

def RData.recordType : RData → RecordType
  | .a _ => .a
  | .aaaa _ => .aaaa
  | .cname _ => .cname
  | .other kind _ => kind

/-- The address a record holds, in canonical form. -/
def RData.address : RData → Option IpAddr
  | .a address => some (.v4 address)
  | .aaaa address => some (IpAddr.v6 address).toCanonical
  | _ => none

structure Record where
  name : DomainName
  dnsClass : DnsClass
  ttl : Nat
  data : RData
  deriving DecidableEq

def Record.recordType (record : Record) : RecordType := record.data.recordType

structure Query where
  name : DomainName
  queryType : RecordType
  queryClass : DnsClass
  deriving DecidableEq

/-- `==` of questions. -/
def Query.same (left right : Query) : Bool :=
  left.name.same right.name && left.queryType == right.queryType &&
    left.queryClass == right.queryClass

structure Metadata where
  id : UInt16
  messageType : MessageType
  opCode : OpCode
  authoritative : Bool := false
  truncation : Bool := false
  recursionDesired : Bool := false
  recursionAvailable : Bool := false
  authenticData : Bool := false
  checkingDisabled : Bool := false
  responseCode : ResponseCode := .noError
  deriving DecidableEq

/-- A message; its EDNS options and its signature are kept as they came. -/
structure Message where
  metadata : Metadata
  queries : List Query := []
  answers : List Record := []
  authorities : List Record := []
  additionals : List Record := []
  edns : Option (List UInt8) := none
  signature : Option (List UInt8) := none
  deriving DecidableEq

/-- `Message::error_msg`. -/
def errorMessage (id : UInt16) (opCode : OpCode) (responseCode : ResponseCode) : Message :=
  { metadata := { id, messageType := .response, opCode, responseCode } }

/-- The DNS library. A decoded header with one question can be written; a name written and read
again is the same, and whether it can be read does not depend on the case of its letters. -/
structure Hickory where
  read : Wire → Option (Message × Wire)
  toVec : Message → Option Wire
  toAscii : DomainName → String
  fromAscii : String → Option DomainName
  writes : read wire = some (message, rest) → query ∈ message.queries → ∀ metadata : Metadata,
    (toVec { metadata, queries := [query] }).isSome
  presents : fromAscii (toAscii name) = some parsed → parsed.eqIgnoreRoot name
  caseless : DomainName.eqIgnoreRoot left right →
    (fromAscii (toAscii left)).isSome = (fromAscii (toAscii right)).isSome

/-- What is written is read back. -/
def Hickory.Faithful (hickory : Hickory) : Prop :=
  ∀ message wire, hickory.toVec message = some wire → hickory.read wire = some (message, [])

inductive DnsError where
  | malformed
  | unsupportedQuery
  | mismatchedResponse
  | aliasCycle
  | aliasLimit
  | conflictingAlias
  | incompleteResponse
  | lifetimeOverflow
  | policyDenied
  | overloaded
  deriving DecidableEq

/-- A question that was decoded, so that a response to it can be written. -/
structure Asked (hickory : Hickory) where
  query : Query
  decoded : ∃ wire message rest, hickory.read wire = some (message, rest) ∧ query ∈ message.queries

theorem Asked.writes (asked : Asked hickory) (metadata : Metadata) :
    (hickory.toVec { metadata, queries := [asked.query] }).isSome := by
  obtain ⟨wire, message, rest, decoded, member⟩ := asked.decoded
  exact hickory.writes decoded member metadata

/-- A query message: one question, no answers and no authorities. -/
structure Question (hickory : Hickory) where
  metadata : Metadata
  asked : Asked hickory
  additionals : List Record := []
  edns : Option (List UInt8) := none
  signature : Option (List UInt8) := none

structure ValidatedResponse where
  message : Message
  wire : Wire
  deriving DecidableEq

inductive ResponseDisposition where
  | answer
  | nextUpstream
  | retryTcp
  deriving DecidableEq

section Decoding

variable (hickory : Hickory)

/-- The longest DNS message. -/
def wireLimit : Nat := 65535

def decode (wire : Wire) : Except DnsError Message :=
  if wireLimit < wire.length then .error .malformed
  else
    match hickory.read wire with
    | some (message, []) => .ok message
    | _ => .error .malformed

/-- Types that are not those of an ordinary record. -/
def RecordType.isMeta (kind : RecordType) : Bool :=
  kind.code = 0 || kind.code = 41 || (249 ≤ kind.code && kind.code ≤ 255) || kind.code = 65535

variable {hickory}

def Question.query (question : Question hickory) : Query := question.asked.query

def Question.message (question : Question hickory) : Message :=
  { metadata := question.metadata
    queries := [question.query]
    additionals := question.additionals
    edns := question.edns
    signature := question.signature }

variable (hickory)

def Question.parse (wire : Wire) : Except DnsError (Question hickory) :=
  if wireLimit < wire.length then .error .malformed
  else
    match decoded : hickory.read wire with
    | some (message, []) =>
      match asked : message.queries with
      | [query] =>
        if message.metadata.messageType ≠ .query || message.metadata.opCode ≠ .query ||
            !message.answers.isEmpty || !message.authorities.isEmpty then
          .error .unsupportedQuery
        else if query.queryType.isMeta then .error .unsupportedQuery
        else
          .ok {
            metadata := message.metadata
            asked := ⟨query, wire, message, [], decoded, by simp [asked]⟩
            additionals := message.additionals
            edns := message.edns
            signature := message.signature }
      | _ => .error .unsupportedQuery
    | _ => .error .malformed

/-- `!=` of the questions of two messages. -/
def sameQueries : List Query → List Query → Bool
  | [], [] => true
  | left :: lefts, right :: rights => left.same right && sameQueries lefts rights
  | _, _ => false

variable {hickory}

def Question.validateResponse (question : Question hickory) (wire : Wire) :
    Except DnsError ValidatedResponse := do
  let message ← decode hickory wire
  if message.metadata.messageType ≠ .response ||
      message.metadata.opCode ≠ question.metadata.opCode ||
      message.metadata.id ≠ question.metadata.id ||
      !sameQueries message.queries [question.query] then
    throw .mismatchedResponse
  return { message, wire }

theorem decode_ok (ok : decode hickory wire = .ok message) :
    hickory.read wire = some (message, []) := by
  unfold decode at ok
  split at ok
  · cases ok
  · split at ok
    · rename_i read
      cases ok
      exact read
    · cases ok

theorem sameQueries_singleton (same : sameQueries queries [query] = true) :
    ∃ repeated, queries = [repeated] ∧ repeated.same query = true := by
  match queries with
  | [] => cases same
  | [repeated] => exact ⟨repeated, rfl, by simpa [sameQueries] using same⟩
  | first :: second :: rest => simp [sameQueries] at same

/-- A response that passes is read from its bytes, and repeats the question. -/
theorem Question.validateResponse_ok {question : Question hickory}
    (ok : question.validateResponse wire = .ok response) :
    response.wire = wire ∧ hickory.read wire = some (response.message, []) ∧
      ∃ repeated, response.message.queries = [repeated] ∧
        repeated.same question.query = true := by
  unfold Question.validateResponse at ok
  cases read : decode hickory wire with
  | error error => simp [read, bind, Except.bind] at ok
  | ok message =>
    simp only [read, bind, Except.bind] at ok
    split at ok
    · cases ok
    · rename_i passed
      cases ok
      simp only [Bool.or_eq_true, not_or, Bool.not_eq_true, Bool.not_eq_false'] at passed
      exact ⟨rfl, decode_ok read, sameQueries_singleton passed.2⟩

/-- The header of a response of the environment itself. -/
def Question.responseMetadata (question : Question hickory) (code : ResponseCode) : Metadata :=
  { (errorMessage question.metadata.id question.metadata.opCode code).metadata with
    recursionDesired := question.metadata.recursionDesired
    checkingDisabled := question.metadata.checkingDisabled
    recursionAvailable := true }

def Question.errorMessage (question : Question hickory) (code : ResponseCode) : Message :=
  { metadata := question.responseMetadata code, queries := [question.query] }

def Question.errorResponse (question : Question hickory) (code : ResponseCode) :
    Except DnsError Wire :=
  match hickory.toVec (question.errorMessage code) with
  | some wire => .ok wire
  | none => .error .malformed

/-- The error response where it is expected to be written. -/
def Question.expectErrorResponse (question : Question hickory) (code : ResponseCode) : Wire :=
  (hickory.toVec (question.errorMessage code)).get (question.asked.writes _)

theorem Question.errorResponse_expected (question : Question hickory) (code : ResponseCode) :
    question.errorResponse code = .ok (question.expectErrorResponse code) := by
  obtain ⟨wire, written⟩ := Option.isSome_iff_exists.mp
    (question.asked.writes (question.responseMetadata code))
  have written : hickory.toVec (question.errorMessage code) = some wire := written
  simp [errorResponse, expectErrorResponse, written]

end Decoding

namespace ValidatedResponse

def disposition (response : ValidatedResponse) : ResponseDisposition :=
  if response.message.metadata.truncation then .retryTcp
  else if response.message.metadata.responseCode = .servFail ||
      response.message.metadata.responseCode = .refused then .nextUpstream
  else .answer

end ValidatedResponse

end Kakoi
