import Kakoi.Net.Message

/-! The authorization boundary: the rules that name a question, and the names answered here. -/

namespace Kakoi

structure DnsGate where
  policy : List Allow

/-- Answered for `host-v4.kakoi.internal`. -/
def hostLoopbackV4 : BitVec 32 := 0xa9fe0102

/-- Answered for `host-v6.kakoi.internal`. -/
def hostLoopbackV6 : BitVec 128 := 0xfd6b616b6f6900000000000000000002

def reservedHostTtl : Nat := 300

section Authorization

variable (idna : Idna) {hickory : Hickory}

/-- Whether a rule's destination is a DNS pattern that matches `name`. -/
def Allow.names (rule : Allow) (name : String) : Bool :=
  match rule.destination with
  | .dns pattern => pattern.matches idna name
  | _ => false

/-- The indices of the allow rules that authorize the question. -/
def DnsGate.authorizedRules (gate : DnsGate) (question : Question hickory) : List Nat :=
  gate.policy.zipIdx.filterMap fun (rule, index) =>
    if rule.names idna (hickory.toAscii question.query.name) then some index else none

/-- The environment's own answer for a reserved host name, if this is one. -/
def Question.reservedHostResponse (question : Question hickory) : Option (Except DnsError Wire) :=
  match reservedHost idna (hickory.toAscii question.query.name) with
  | none => none
  | some family =>
    let data : Option RData :=
      match question.query.queryClass, family with
      | .internet, .ipv4 => if question.query.queryType = .a then some (.a hostLoopbackV4) else none
      | .internet, .ipv6 =>
        if question.query.queryType = .aaaa then some (.aaaa hostLoopbackV6) else none
      | .other _, _ => none
    let response : Message :=
      { metadata := { question.responseMetadata .noError with authoritative := true }
        queries := [question.query]
        answers := data.toList.map fun data =>
          { name := question.query.name, dnsClass := .internet, ttl := reservedHostTtl, data } }
    match hickory.toVec response with
    | some wire => some (.ok wire)
    | none => some (.error .malformed)

end Authorization

end Kakoi
