import Kakoi.Base.Codec
import Kakoi.Net.Message

/-! A DNS library that keeps the laws asked of one: messages written field by field, and names
with every odd byte escaped. It reads no escapes. -/

namespace Kakoi.PlainLibrary

open Codec

def u16 : Codec UInt16 := nat.through UInt16.toNat UInt16.ofNat fun value => by simp

def messageType : Codec MessageType :=
  bool.through (fun value => value = .response) (fun value => if value then .response else .query)
    fun value => by cases value <;> rfl

def opCode : Codec OpCode :=
  (option byte).through
    (fun value => match value with | .query => none | .other code => some code)
    (fun value => match value with | none => .query | some code => .other code)
    fun value => by cases value <;> rfl

def responseCode : Codec ResponseCode :=
  (pair nat u16).through
    (fun value => match value with
      | .noError => (0, 0)
      | .servFail => (1, 0)
      | .refused => (2, 0)
      | .other code => (3, code))
    (fun value => match value with
      | (0, _) => .noError
      | (1, _) => .servFail
      | (2, _) => .refused
      | (_, code) => .other code)
    fun value => by cases value <;> rfl

def dnsClass : Codec DnsClass :=
  (option u16).through
    (fun value => match value with | .internet => none | .other code => some code)
    (fun value => match value with | none => .internet | some code => .other code)
    fun value => by cases value <;> rfl

def name : Codec DomainName :=
  (pair (list (list byte)) bool).through (fun value => (value.labels, value.isFqdn))
    (fun value => ⟨value.1, value.2⟩) fun _ => rfl

def recordType : Codec RecordType := u16.through RecordType.code RecordType.mk fun _ => rfl

def bits (width : Nat) : Codec (BitVec width) :=
  nat.through BitVec.toNat (BitVec.ofNat width) fun value => by simp

def data : Codec RData :=
  (sum (sum (bits 32) (bits 128)) (sum name (pair recordType (list byte)))).through
    (fun value => match value with
      | .a address => .inl (.inl address)
      | .aaaa address => .inl (.inr address)
      | .cname target => .inr (.inl target)
      | .other kind bytes => .inr (.inr (kind, bytes)))
    (fun value => match value with
      | .inl (.inl address) => .a address
      | .inl (.inr address) => .aaaa address
      | .inr (.inl target) => .cname target
      | .inr (.inr (kind, bytes)) => .other kind bytes)
    fun value => by cases value <;> rfl

def record : Codec Record :=
  (pair name (pair dnsClass (pair nat data))).through
    (fun value => (value.name, value.dnsClass, value.ttl, value.data))
    (fun value => ⟨value.1, value.2.1, value.2.2.1, value.2.2.2⟩) fun _ => rfl

def query : Codec Query :=
  (pair name (pair recordType dnsClass)).through
    (fun value => (value.name, value.queryType, value.queryClass))
    (fun value => ⟨value.1, value.2.1, value.2.2⟩) fun _ => rfl

def metadata : Codec Metadata :=
  (pair u16 (pair messageType (pair opCode (pair (pair (pair bool bool) (pair bool bool))
    (pair (pair bool bool) responseCode))))).through
    (fun value => (value.id, value.messageType, value.opCode,
      ((value.authoritative, value.truncation), value.recursionDesired, value.recursionAvailable),
      (value.authenticData, value.checkingDisabled), value.responseCode))
    (fun value => {
      id := value.1
      messageType := value.2.1
      opCode := value.2.2.1
      authoritative := value.2.2.2.1.1.1
      truncation := value.2.2.2.1.1.2
      recursionDesired := value.2.2.2.1.2.1
      recursionAvailable := value.2.2.2.1.2.2
      authenticData := value.2.2.2.2.1.1
      checkingDisabled := value.2.2.2.2.1.2
      responseCode := value.2.2.2.2.2 })
    fun _ => rfl

def message : Codec Message :=
  (pair metadata (pair (list query) (pair (list record) (pair (list record) (pair (list record)
    (pair (option (list byte)) (option (list byte)))))))).through
    (fun value => (value.metadata, value.queries, value.answers, value.authorities,
      value.additionals, value.edns, value.signature))
    (fun value => {
      metadata := value.1
      queries := value.2.1
      answers := value.2.2.1
      authorities := value.2.2.2.1
      additionals := value.2.2.2.2.1
      edns := value.2.2.2.2.2.1
      signature := value.2.2.2.2.2.2 })
    fun _ => rfl

/-- Letters, digits and hyphens. -/
def plain (byte : UInt8) : Bool :=
  (97 ≤ byte && byte ≤ 122) || (65 ≤ byte && byte ≤ 90) || (48 ≤ byte && byte ≤ 57) || byte = 45

def plainLabel (label : List UInt8) : Bool := label ≠ [] && label.all plain

def character (byte : UInt8) : Char := Char.ofNat byte.toNat

def writeLabel (label : List UInt8) : List Char :=
  if plainLabel label then label.map character ++ ['.'] else ['\\', '.']

def toAscii (name : DomainName) : String := String.ofList (name.labels.flatMap writeLabel)

/-- Reads labels that end in a dot; `label` is what was read of the current one. -/
def readLabels (label : List UInt8) : List Char → Option (List (List UInt8))
  | [] => if label = [] then some [] else none
  | first :: rest =>
    if first = '.' then (readLabels [] rest).map (label :: ·)
    else if plain (UInt8.ofNat first.toNat) then
      readLabels (label ++ [UInt8.ofNat first.toNat]) rest
    else none

def fromAscii (text : String) : Option DomainName :=
  (readLabels [] text.toList).map fun labels => { labels }

theorem character_plain (byte : UInt8) (safe : plain byte = true) :
    character byte ≠ '.' ∧ UInt8.ofNat (character byte).toNat = byte := by
  have all : ∀ value : Fin 256, plain (UInt8.ofFin value) = true →
      character (UInt8.ofFin value) ≠ '.' ∧
        UInt8.ofNat (character (UInt8.ofFin value)).toNat = UInt8.ofFin value := by
    decide +kernel
  exact all byte.toFin safe

theorem plain_lower (byte : UInt8) : plain (lowerByte byte) = plain byte := by
  have all : ∀ value : Fin 256, plain (lowerByte (UInt8.ofFin value)) = plain (UInt8.ofFin value) := by
    decide +kernel
  exact all byte.toFin

theorem readLabels_plain (label : List UInt8) (rest : List Char) (safe : label.all plain = true) :
    ∀ before, readLabels before (label.map character ++ '.' :: rest) =
      (readLabels [] rest).map ((before ++ label) :: ·) := by
  induction label with
  | nil => intro before; simp [readLabels]
  | cons first others ih =>
    intro before
    obtain ⟨safeFirst, safeOthers⟩ := Bool.and_eq_true_iff.mp safe
    obtain ⟨different, same⟩ := character_plain first safeFirst
    simp only [List.map_cons, List.cons_append, readLabels, if_neg different, same, safeFirst,
      if_true, ih safeOthers, List.append_assoc, List.nil_append]

theorem readLabels_written (labels : List (List UInt8)) :
    readLabels [] (labels.flatMap writeLabel) =
      if labels.all plainLabel then some labels else none := by
  induction labels with
  | nil => rfl
  | cons label labels ih =>
    by_cases safe : plainLabel label
    · have bytes : label.all plain = true := (Bool.and_eq_true_iff.mp safe).2
      rw [List.flatMap_cons, writeLabel, if_pos safe, List.append_assoc]
      have read := readLabels_plain label (labels.flatMap writeLabel) bytes []
      rw [List.singleton_append, read, ih, List.all_cons, safe, Bool.true_and, List.nil_append]
      split <;> rfl
    · have escaped : plain 92 = false := by decide
      simp [List.flatMap_cons, writeLabel, safe, readLabels, escaped]

theorem fromAscii_toAscii (name : DomainName) :
    fromAscii (toAscii name) =
      if name.labels.all plainLabel then some { labels := name.labels } else none := by
  rw [fromAscii, toAscii, String.toList_ofList, readLabels_written]
  split <;> rfl

theorem plainLabel_lower (label : List UInt8) :
    plainLabel (label.map lowerByte) = plainLabel label := by
  simp [plainLabel, List.all_map, Function.comp_def, plain_lower]

end Kakoi.PlainLibrary

namespace Kakoi

open PlainLibrary in
def plainHickory : Hickory where
  read wire := message.decode wire
  toVec value := some (message.encode value)
  toAscii := toAscii
  fromAscii := fromAscii
  writes _ _ _ := rfl
  presents {name parsed} read := by
    rw [fromAscii_toAscii] at read
    split at read
    · cases read
      exact DomainName.eqIgnoreRoot_iff.mpr rfl
    · cases read
  caseless {left right} same := by
    have labels := DomainName.eqIgnoreRoot_iff.mp same
    have safe (name : DomainName) :
        name.labels.all plainLabel = name.toLowercase.labels.all plainLabel := by
      simp [DomainName.toLowercase, List.all_map, Function.comp_def, plainLabel_lower]
    rw [fromAscii_toAscii, fromAscii_toAscii, safe left, safe right, labels]
    split <;> rfl

theorem plainHickory_faithful : plainHickory.Faithful := by
  rintro message wire ⟨⟩
  have read := PlainLibrary.message.roundTrip message []
  rwa [List.append_nil] at read

/-- Names that are normal already. -/
def plainIdna : Idna := ⟨some⟩

end Kakoi
