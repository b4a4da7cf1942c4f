import Kakoi.Net.Filter
import Kakoi.Policy.AddressSets

/-! What the installed table lets through: new flows to permitted destinations, and answers to
them. -/

namespace Kakoi

open Ruleset

def Packet.IsTransport (packet : Packet) : Prop := packet.l4proto = .tcp ∨ packet.l4proto = .udp

/-- Destinations that no rule can permit: multicast, the limited broadcast and IPv6
link-local. -/
def Unrouted (destination : IpAddr) : Prop :=
  destination.isMulticast = true ∨ destination = .v4 0xffffffff ∨
    destination.isUnicastLinkLocal = true

/-- The flow a rule is for. -/
structure FlowMatches (protocol : Protocol) (ports : Ports) (packet : Packet) : Prop where
  protocol : packet.l4proto = protocol.l4
  port : ports.contains packet.dport = true

def FilterRule.Permits (rule : FilterRule) (packet : Packet) : Prop :=
  rule.network.holds packet.destination = true ∧ FlowMatches rule.protocol rule.ports packet

def DnsPermit.Permits (dns : DnsPermit) (sets : String → List IpAddr) (packet : Packet) : Prop :=
  (packet.destination.isIpv4 = dns.ipv4 ∧ packet.destination ∈ sets dns.set) ∧
    FlowMatches dns.protocol dns.ports packet

def Permitted (rules : List FilterRule) (dns : DnsChain) (packet : Packet) : Prop :=
  (∃ rule ∈ rules, rule.Permits packet) ∨ ∃ permit ∈ dns.permits, permit.Permits dns.sets packet

structure DnsChain.Valid (dns : DnsChain) : Prop where
  ports : ∀ permit ∈ dns.permits, permit.ports.Valid

theorem dport_passes (valid : ports.Valid) :
    FilterTest.passes sets packet connection (.dport protocol ports.text) = true ↔
      FlowMatches protocol ports packet := by
  simp only [FilterTest.passes, readPorts_text valid.some, Option.getD_some, Bool.and_eq_true,
    decide_eq_true_eq, List.any_eq_true, List.mem_map]
  constructor
  · rintro ⟨protocol, -, ⟨range, member, rfl⟩, inside⟩
    exact ⟨protocol, Ports.contains_iff.mpr ⟨range, member, by simpa using inside⟩⟩
  · rintro ⟨protocol, port⟩
    obtain ⟨range, member, inside⟩ := Ports.contains_iff.mp port
    exact ⟨protocol, _, ⟨range, member, rfl⟩, by simpa using inside⟩

theorem writePermit_applies (valid : ports.Valid) :
    Applies (filterMeaning sets packet) (writePermit target protocol ports ipv4) connection ↔
      target.passes sets packet connection = true ∧ FlowMatches protocol ports packet := by
  simp only [Applies, writePermit, filterMeaning, List.all_cons, List.all_nil, Bool.and_true,
    Bool.and_eq_true, dport_passes valid]

theorem writePermit_marks : (affect (filterMeaning sets packet)
    (writePermit target protocol ports ipv4) connection).mark = 1 := by
  unfold writePermit affect
  split <;> rfl

theorem network_matches (valid : network.Valid) :
    AddressElement.matches destination (.network network) = network.holds destination := by
  rw [AddressElement.matches, IpNetwork.holds, valid.canonical]

theorem FilterRule.permit_applies {rule : FilterRule} (valid : rule.Valid) :
    Applies (filterMeaning sets packet) rule.permit connection ↔ rule.Permits packet := by
  rw [FilterRule.permit, writePermit_applies valid.ports, FilterRule.Permits]
  refine and_congr_left fun _ => ?_
  simp only [FilterTest.passes, List.any_cons, List.any_nil, Bool.or_false, Bool.and_eq_true,
    decide_eq_true_eq, network_matches valid.network]
  exact ⟨And.right, fun holds => ⟨by
    simp only [IpNetwork.holds, Bool.and_eq_true, decide_eq_true_eq] at holds
    exact holds.1, holds⟩⟩

theorem DnsPermit.permit_applies {dns : DnsPermit} (valid : dns.ports.Valid) :
    Applies (filterMeaning sets packet) dns.permit connection ↔ dns.Permits sets packet := by
  rw [DnsPermit.permit, writePermit_applies valid, DnsPermit.Permits]
  simp [FilterTest.passes]

section Chains

variable {dns : DnsChain}

/-- One of the permitting rules lets the packet through and marks its connection, or none of
them is for it. -/
def Decided (permitted : Prop) (connection : Connection)
    (outcome : Option Verdict × Connection) : Prop :=
  (permitted ∧ outcome.1 = some .accept ∧ outcome.2.mark = 1) ∨
    (¬ permitted ∧ outcome = (none, connection))

theorem dnsPermitted_decided (valid : dns.Valid) :
    Decided (∃ permit ∈ dns.permits, permit.Permits dns.sets packet) connection
      (evaluate (filterMeaning dns.sets packet) (staticChains rules dns.permits) (depth + 1)
        .dnsPermitted connection) := by
  rw [evaluate, staticChains, ← List.append_nil (List.map _ _)]
  have final : ∀ rule ∈ dns.permits.map DnsPermit.permit, rule.action.verdict?.isSome = true := by
    intro rule member
    obtain ⟨permit, -, rfl⟩ := List.mem_map.mp member
    rfl
  rcases walk_deciding final with ⟨rule, member, applies, outcome⟩ | ⟨misses, outcome⟩
  · obtain ⟨permit, present, rfl⟩ := List.mem_map.mp member
    rw [outcome]
    exact .inl ⟨⟨permit, present, (DnsPermit.permit_applies (valid.ports permit present)).mp
      applies⟩, rfl, writePermit_marks⟩
  · rw [outcome]
    refine .inr ⟨?_, rfl⟩
    rintro ⟨permit, present, permits⟩
    exact misses permit.permit (List.mem_map_of_mem present)
      ((DnsPermit.permit_applies (valid.ports permit present)).mpr permits)

theorem permitted_decided (depth : Nat) (validRules : ∀ rule ∈ rules, rule.Valid) (valid : dns.Valid) :
    Decided (Permitted rules dns packet) connection
      (evaluate (filterMeaning dns.sets packet) (staticChains rules dns.permits) (depth + 2)
        .permitted connection) := by
  rw [evaluate, staticChains]
  have final : ∀ rule ∈ rules.map FilterRule.permit, rule.action.verdict?.isSome = true := by
    intro rule member
    obtain ⟨permit, -, rfl⟩ := List.mem_map.mp member
    rfl
  rcases walk_deciding final with ⟨rule, member, applies, outcome⟩ | ⟨misses, outcome⟩
  · obtain ⟨permit, present, rfl⟩ := List.mem_map.mp member
    rw [outcome]
    exact .inl ⟨.inl ⟨permit, present, (FilterRule.permit_applies (validRules permit present)).mp
      applies⟩, rfl, writePermit_marks⟩
  · have unpermitted : ¬ ∃ rule ∈ rules, rule.Permits packet := by
      rintro ⟨rule, present, permits⟩
      exact misses rule.permit (List.mem_map_of_mem present)
        ((FilterRule.permit_applies (validRules rule present)).mpr permits)
    rw [outcome, walk_tailJump]
    rcases dnsPermitted_decided valid with ⟨permitted, decided⟩ | ⟨others, unchanged⟩
    · exact .inl ⟨.inr permitted, decided⟩
    · exact .inr ⟨not_or.mpr ⟨unpermitted, others⟩, unchanged⟩

/-- The rules of the output chain in front of the permissions. -/
def outputChecks : List NftRule := outputRules.take 9

theorem outputRules_eq : outputRules = outputChecks ++ [⟨[], [], .jump .permitted⟩] := rfl

/-- A packet on its way out: an early rule decides it and leaves its connection as it was, or
the permissions do. -/
theorem output_cases (validRules : ∀ rule ∈ rules, rule.Valid) (valid : dns.Valid) :
    (∃ rule ∈ outputChecks, Applies (filterMeaning dns.sets packet) rule connection ∧
      filterHook rules dns .output packet connection = (rule.action.verdict?.getD .drop, connection)) ∨
    (∀ rule ∈ outputChecks, ¬ Applies (filterMeaning dns.sets packet) rule connection) ∧
      ∃ outcome, Decided (Permitted rules dns packet) connection outcome ∧
        filterHook rules dns .output packet connection = (outcome.1.getD .drop, outcome.2) := by
  have final : ∀ rule ∈ outputChecks, rule.action.verdict?.isSome = true := by decide
  have unaffected : ∀ rule ∈ outputChecks, rule.effects = [] := by decide
  unfold filterHook
  rw [jumpStackSize, evaluate, staticChains, outputRules_eq]
  rcases walk_deciding final with ⟨rule, member, applies, outcome⟩ | ⟨misses, outcome⟩
  · refine .inl ⟨rule, member, applies, ?_⟩
    rw [outcome, affect, unaffected rule member]
    rfl
  · refine .inr ⟨misses, _, permitted_decided 13 validRules valid, ?_⟩
    rw [outcome, walk_tailJump]

theorem matches_single {address : IpAddr} :
    AddressElement.matches destination (.single address) = decide (destination = address) := rfl

theorem matches_ipv4 {bits others : BitVec 32} :
    AddressElement.matches (.v4 bits) (.network ⟨.v4 others, length⟩) = true ↔
      bits >>> (32 - length) = others >>> (32 - length) := by
  simp [AddressElement.matches, IpAddr.isIpv4, masked, leading_eq_iff, -BitVec.reduceAllOnes]

theorem matches_ipv6 {bits others : BitVec 128} :
    AddressElement.matches (.v6 bits) (.network ⟨.v6 others, length⟩) = true ↔
      bits >>> (128 - length) = others >>> (128 - length) := by
  simp [AddressElement.matches, IpAddr.isIpv4, masked, leading_eq_iff, -BitVec.reduceAllOnes]

theorem unrouted_iff (sets : String → List IpAddr) (connection : Connection) :
    Unrouted packet.destination ↔
      FilterTest.passes sets packet connection (.daddr true unroutedIpv4) = true ∨
      FilterTest.passes sets packet connection (.daddr false [.network multicastIpv6]) = true ∨
      FilterTest.passes sets packet connection (.daddr false [.network linkLocalIpv6]) =
        true := by
  cases shape : packet.destination with
  | v4 bits =>
    simp [Unrouted, FilterTest.passes, unroutedIpv4, shape, IpAddr.isIpv4, IpAddr.isMulticast,
      IpAddr.isUnicastLinkLocal, matches_ipv4, matches_single]
  | v6 bits =>
    simp [Unrouted, FilterTest.passes, multicastIpv6, linkLocalIpv6, shape, IpAddr.isIpv4,
      IpAddr.isMulticast, IpAddr.isUnicastLinkLocal, matches_ipv6]

/-- An early rule that decides a new flow drops it for its destination. -/
theorem unrouted_of_check (transport : packet.IsTransport) (tracked : packet.state ≠ .invalid)
    (leaves : packet.oifname ≠ "lo") (unmarked : connection.mark ≠ 1)
    (member : rule ∈ outputChecks)
    (applies : Applies (filterMeaning dns.sets packet) rule connection) :
    rule.action = .drop ∧ Unrouted packet.destination := by
  have notIcmp : packet.l4proto ≠ .icmp ∧ packet.l4proto ≠ .icmpv6 := by
    rcases transport with tcp | udp
    · simp [tcp]
    · simp [udp]
  rw [unrouted_iff dns.sets connection]
  simp only [outputChecks, outputRules, List.take_succ_cons, List.take_zero, List.mem_cons,
    List.not_mem_nil, or_false] at member
  rcases member with rfl | rfl | rfl | rfl | rfl | rfl | rfl | rfl | rfl <;>
    simp_all [Applies, filterMeaning, FilterTest.passes]

theorem of_checks_miss
    (misses : ∀ rule ∈ outputChecks, ¬ Applies (filterMeaning dns.sets packet) rule connection) :
    packet.state ≠ .invalid ∧ (packet.IsTransport → packet.oifname ≠ "lo") ∧
      ¬ Unrouted packet.destination := by
  rw [unrouted_iff dns.sets connection]
  simp only [outputChecks, outputRules, List.take_succ_cons, List.take_zero,
    List.forall_mem_cons, Applies, filterMeaning, List.all_cons, List.all_nil, Bool.and_true,
    Bool.and_eq_true] at misses
  obtain ⟨invalid, loopback, -, -, ipv4, multicast, linkLocal, -⟩ := misses
  refine ⟨fun same => invalid (by simpa [FilterTest.passes] using same),
    fun transport same => loopback ?_, not_or.mpr ⟨ipv4, not_or.mpr ⟨multicast, linkLocal⟩⟩⟩
  rcases transport with tcp | udp
  · simp [FilterTest.passes, same, tcp]
  · simp [FilterTest.passes, same, udp]

theorem Permitted.transport (permitted : Permitted rules dns packet) : packet.IsTransport := by
  have matches_transport : ∀ {protocol ports}, FlowMatches protocol ports packet →
      packet.IsTransport := by
    rintro (_ | _) _ ⟨protocol, -⟩
    · exact .inl protocol
    · exact .inr protocol
  rcases permitted with ⟨rule, -, -, matched⟩ | ⟨permit, -, -, matched⟩
  · exact matches_transport matched
  · exact matches_transport matched

theorem output_accepts_iff (validRules : ∀ rule ∈ rules, rule.Valid) (valid : dns.Valid)
    (transport : packet.IsTransport) (tracked : packet.state ≠ .invalid)
    (leaves : packet.oifname ≠ "lo") (unmarked : connection.mark ≠ 1) :
    (filterHook rules dns .output packet connection).1 = .accept ↔
      ¬ Unrouted packet.destination ∧ Permitted rules dns packet := by
  rcases output_cases validRules valid with
    ⟨rule, member, applies, outcome⟩ | ⟨misses, outcome, decided, passed⟩
  · obtain ⟨drops, unrouted⟩ := unrouted_of_check transport tracked leaves unmarked member applies
    rw [outcome, drops]
    exact ⟨fun accepted => (nomatch accepted), fun routed => absurd unrouted routed.1⟩
  · obtain ⟨-, -, routed⟩ := of_checks_miss misses
    rw [passed]
    rcases decided with ⟨permitted, accepted, -⟩ | ⟨unpermitted, unchanged⟩
    · rw [accepted]
      exact ⟨fun _ => ⟨routed, permitted⟩, fun _ => rfl⟩
    · rw [unchanged]
      exact ⟨fun accepted => (nomatch accepted), fun both => absurd both.2 unpermitted⟩

/-- What a packet was that marked its connection on its way out. -/
structure MarkingPacket (rules : List FilterRule) (dns : DnsChain) (packet : Packet) : Prop where
  transport : packet.IsTransport
  tracked : packet.state ≠ .invalid
  leaves : packet.oifname ≠ "lo"
  routed : ¬ Unrouted packet.destination
  permitted : Permitted rules dns packet

theorem output_marks (validRules : ∀ rule ∈ rules, rule.Valid) (valid : dns.Valid)
    (marked : (filterHook rules dns .output packet connection).2.mark = 1) :
    connection.mark = 1 ∨ MarkingPacket rules dns packet ∧
      (filterHook rules dns .output packet connection).1 = .accept := by
  rcases output_cases validRules valid with
    ⟨rule, -, -, outcome⟩ | ⟨misses, outcome, decided, passed⟩
  · rw [outcome] at marked
    exact .inl marked
  · obtain ⟨tracked, leaves, routed⟩ := of_checks_miss misses
    rw [passed] at marked ⊢
    rcases decided with ⟨permitted, accepted, -⟩ | ⟨-, unchanged⟩
    · rw [accepted]
      exact .inr ⟨⟨permitted.transport, tracked, leaves permitted.transport, routed, permitted⟩,
        rfl⟩
    · rw [unchanged] at marked
      exact .inl marked

/-- A packet on its way in leaves its connection as it was, and is let in for its mark or for
what it is. -/
theorem input_cases :
    (∃ rule ∈ inputRules, Applies (filterMeaning dns.sets packet) rule connection ∧
      filterHook rules dns .input packet connection = (rule.action.verdict?.getD .drop, connection)) ∨
    filterHook rules dns .input packet connection = (.drop, connection) := by
  have final : ∀ rule ∈ inputRules, rule.action.verdict?.isSome = true := by decide
  have unaffected : ∀ rule ∈ inputRules, rule.effects = [] := by decide
  unfold filterHook
  rw [jumpStackSize, evaluate, staticChains, ← List.append_nil inputRules]
  rcases walk_deciding final with ⟨rule, member, applies, outcome⟩ | ⟨-, outcome⟩
  · refine .inl ⟨rule, List.mem_append_left _ member, applies, ?_⟩
    rw [outcome, affect, unaffected rule member]
    rfl
  · exact .inr (by rw [outcome]; rfl)

theorem input_accepts (transport : packet.IsTransport) (enters : packet.iifname ≠ "lo")
    (accepted : (filterHook rules dns .input packet connection).1 = .accept) : connection.mark = 1 := by
  have notIcmp : packet.l4proto ≠ .icmp ∧ packet.l4proto ≠ .icmpv6 := by
    rcases transport with tcp | udp
    · simp [tcp]
    · simp [udp]
  rcases input_cases with ⟨rule, member, applies, outcome⟩ | outcome
  · rw [outcome] at accepted
    simp only [inputRules, List.mem_cons, List.not_mem_nil, or_false] at member
    rcases member with rfl | rfl | rfl | rfl | rfl <;>
      simp_all [Applies, filterMeaning, FilterTest.passes, Action.verdict?]
  · rw [outcome] at accepted
    cases accepted

end Chains

/-- Where a packet meets the table. -/
inductive Direction where
  | incoming
  | forwarded
  | outgoing
  deriving DecidableEq

def Direction.base : Direction → FilterChain
  | .incoming => .input
  | .forwarded => .forward
  | .outgoing => .output

/-- One packet of a connection, and what DNS answers permit at the time. -/
structure Passage where
  direction : Direction
  connection : Nat
  packet : Packet
  dns : DnsChain

/-- Every connection behind one more packet. -/
def passPacket (rules : List FilterRule) (connections : Nat → Connection) (passage : Passage) :
    Nat → Connection :=
  Function.update connections passage.connection
    (filterHook rules passage.dns passage.direction.base passage.packet
      (connections passage.connection)).2

def traffic (rules : List FilterRule) (connections : Nat → Connection)
    (passages : List Passage) : Nat → Connection :=
  passages.foldl (passPacket rules) connections

/-- The verdict on a packet, with the connections as they stand. -/
def packetVerdict (rules : List FilterRule) (connections : Nat → Connection) (passage : Passage) :
    Verdict :=
  (filterHook rules passage.dns passage.direction.base passage.packet
    (connections passage.connection)).1

theorem passPacket_marks (validRules : ∀ rule ∈ rules, rule.Valid) (valid : passage.dns.Valid)
    (marked : (passPacket rules connections passage flow).mark = 1) (before : (connections flow).mark ≠ 1) :
    passage.connection = flow ∧ passage.direction = .outgoing ∧
      MarkingPacket rules passage.dns passage.packet ∧
      packetVerdict rules connections passage = .accept := by
  unfold passPacket at marked
  by_cases same : flow = passage.connection
  · subst same
    rw [Function.update_self] at marked
    unfold packetVerdict
    cases direction : passage.direction with
    | incoming =>
      rw [direction] at marked
      have unchanged : (filterHook rules passage.dns .input passage.packet
          (connections passage.connection)).2 = connections passage.connection := by
        rcases input_cases with ⟨rule, -, -, outcome⟩ | outcome <;> rw [outcome]
      exact absurd ((congrArg Connection.mark unchanged).symm.trans marked) before
    | forwarded =>
      rw [direction] at marked
      exact absurd marked before
    | outgoing =>
      rw [direction] at marked
      obtain ⟨packet, accepted⟩ := (output_marks validRules valid marked).resolve_left before
      exact ⟨rfl, rfl, packet, accepted⟩
  · rw [Function.update_of_ne same] at marked
    exact absurd marked before

/-- A connection that is marked after some traffic was marked by one of its own packets, let
through on its way out. -/
theorem traffic_marks (validRules : ∀ rule ∈ rules, rule.Valid)
    (valid : ∀ passage ∈ passages, passage.dns.Valid) (unmarked : (connections flow).mark ≠ 1)
    (marked : (traffic rules connections passages flow).mark = 1) :
    ∃ before passage after, passages = before ++ passage :: after ∧ passage.connection = flow ∧
      passage.direction = .outgoing ∧ (traffic rules connections before flow).mark ≠ 1 ∧
      MarkingPacket rules passage.dns passage.packet ∧
      packetVerdict rules (traffic rules connections before) passage = .accept := by
  induction passages using List.reverseRecOn with
  | nil => exact absurd marked unmarked
  | append_singleton passages last ih =>
    by_cases earlier : (traffic rules connections passages flow).mark = 1
    · obtain ⟨before, passage, after, split, found⟩ :=
        ih (fun passage member => valid passage (List.mem_append_left _ member)) earlier
      exact ⟨before, passage, after ++ [last], by simp [split], found⟩
    · rw [traffic, List.foldl_append] at marked
      obtain ⟨own, outgoing, packet, accepted⟩ :=
        passPacket_marks validRules (valid last (by simp)) marked earlier
      exact ⟨passages, last, [], rfl, own, outgoing, earlier, packet, accepted⟩

/-- The permissions, with the destination compared as the policy compares addresses. -/
def PermittedByPolicy (rules : List FilterRule) (dns : DnsChain) (packet : Packet) : Prop :=
  (∃ rule ∈ rules, rule.network.contains packet.destination = true ∧
    FlowMatches rule.protocol rule.ports packet) ∨
  ∃ permit ∈ dns.permits, permit.Permits dns.sets packet

theorem permittedByPolicy_iff (unmapped : packet.destination.toCanonical = packet.destination) :
    PermittedByPolicy rules dns packet ↔ Permitted rules dns packet := by
  simp only [PermittedByPolicy, Permitted, FilterRule.Permits, IpNetwork.contains_eq, unmapped]

/-- A new flow is let out exactly to a permitted destination, connections are marked by such
packets alone, and only marked connections are let in. -/
theorem table_decides_policy (validRules : ∀ rule ∈ rules, rule.Valid) :
    (∀ dns packet connection, dns.Valid → packet.IsTransport → packet.state ≠ .invalid →
      packet.oifname ≠ "lo" → connection.mark ≠ 1 →
      ((filterHook rules dns .output packet connection).1 = .accept ↔
        ¬ Unrouted packet.destination ∧ Permitted rules dns packet) ∧
      (packet.destination.toCanonical = packet.destination →
        ((filterHook rules dns .output packet connection).1 = .accept ↔
          ¬ Unrouted packet.destination ∧ PermittedByPolicy rules dns packet))) ∧
    (∀ connections passages flow, (∀ passage ∈ passages, passage.dns.Valid) →
      (connections flow).mark ≠ 1 → (traffic rules connections passages flow).mark = 1 →
      ∃ before passage after, passages = before ++ passage :: after ∧
        passage.connection = flow ∧ passage.direction = .outgoing ∧
        (traffic rules connections before flow).mark ≠ 1 ∧
        MarkingPacket rules passage.dns passage.packet ∧
        packetVerdict rules (traffic rules connections before) passage = .accept) ∧
    ∀ dns packet connection, packet.IsTransport → packet.iifname ≠ "lo" →
      (filterHook rules dns .input packet connection).1 = .accept → connection.mark = 1 := by
  refine ⟨fun dns packet connection valid transport tracked leaves unmarked => ?_,
    fun connections passages flow valid unmarked marked =>
      traffic_marks validRules valid unmarked marked,
    fun dns packet connection transport enters accepted => input_accepts transport enters accepted⟩
  have decided := output_accepts_iff validRules valid transport tracked leaves unmarked
  exact ⟨decided, fun unmapped => by rw [permittedByPolicy_iff unmapped, decided]⟩

section Script

variable {format : AddressFormat}

def ScriptHas (script line : String) : Prop := ∃ before after, script = before ++ line ++ after

theorem ScriptHas.left (has : ScriptHas script line) (more : String) : ScriptHas (script ++ more) line := by
  obtain ⟨before, after, rfl⟩ := has
  exact ⟨before, after ++ more, String.append_assoc⟩

theorem ScriptHas.right (has : ScriptHas script line) (more : String) : ScriptHas (more ++ script) line := by
  obtain ⟨before, after, rfl⟩ := has
  exact ⟨more ++ before, after, by simp only [String.append_assoc]⟩

theorem ruleLines_has (member : rule ∈ lines) :
    ScriptHas (ruleLines format lines) ("  " ++ ruleText format rule ++ "\n") := by
  induction lines with
  | nil => cases member
  | cons first rest ih =>
    rcases List.mem_cons.mp member with rfl | later
    · exact ⟨"", ruleLines format rest, by rw [String.empty_append]; rfl⟩
    · exact (ih later).right _

/-- `compileStatic` writes a line for each rule, and in those of the permissions the networks and
the ports as they are read back. -/
theorem compileStatic_lines (laws : format.Laws) (validRules : ∀ rule ∈ rules, rule.Valid)
    (compiled : compileStatic format rules idle = .ok script) :
    (1 ≤ idle ∧ idle ≤ 86400) ∧
    (∀ chain, ∀ rule ∈ staticChains rules [] chain,
      ScriptHas script ("  " ++ ruleText format rule ++ "\n")) ∧
    ∀ rule ∈ rules, (∀ bits, rule.network.address = .v6 bits → toIpv4Mapped bits = none) →
      rule.permit.tests.map (FilterTest.text format) =
        [addressFamily rule.network.address.isIpv4 ++ " daddr " ++ rule.network.text format,
          rule.protocol.text ++ " dport \x7b " ++ rule.ports.text ++ " \x7d"] ∧
      IpNetwork.fromStr format (rule.network.text format) = .ok rule.network ∧
      readPorts rule.ports.text =
        some (rule.ports.ranges.map fun range => (range.1.toNat, range.2.toNat)) := by
  unfold compileStatic at compiled
  split at compiled
  · cases compiled
  · rename_i within
    simp only [Bool.or_eq_true, decide_eq_true_eq, not_or, Nat.not_lt] at within
    refine ⟨within, ?_, ?_⟩
    · cases compiled
      intro chain rule member
      -- The chains stand one behind the other, each behind its own header.
      cases chain with
      | input =>
        iterate 9 apply ScriptHas.left
        exact (ruleLines_has member).right _
      | output =>
        iterate 5 apply ScriptHas.left
        exact (ruleLines_has member).right _
      | permitted =>
        iterate 2 apply ScriptHas.left
        exact (ruleLines_has member).right _
      | forward | dnsPermitted => cases member
    · intro rule member unmapped
      have valid := validRules rule member
      refine ⟨rfl, ?_, readPorts_text valid.ports.some⟩
      rw [IpNetwork.text, IpNetwork.fromStr_spelled (laws.slashless _) (laws.parse_display _)]
      exact ⟨valid.network.fits, valid.network.canonical, (IpNetwork.stored_self unmapped).symm⟩

end Script

/-- HTTP to one address. -/
def oneAddress : List FilterRule := [⟨⟨.v4 0x01020304, 32⟩, .tcp, ⟨[(80, 80)]⟩⟩]

theorem oneAddress_valid : ∀ rule ∈ oneAddress, rule.Valid := by
  intro rule member
  rw [List.mem_singleton.mp member]
  exact ⟨⟨by decide, by decide⟩, Ports.valid_single (by decide) (by decide)⟩

/-- The first packet of a flow to port 80 through an interface. -/
def openingPacket (destination : IpAddr) : Packet :=
  ⟨destination, .tcp, 80, 64, .other 0, "", "eth0", .new⟩

theorem one_address_decides_policy :
    (filterHook oneAddress ⟨[], fun _ => []⟩ .output (openingPacket (.v4 0x01020304))
      ⟨0, none⟩).1 = .accept ↔
    ¬ Unrouted (.v4 0x01020304) ∧
      Permitted oneAddress ⟨[], fun _ => []⟩ (openingPacket (.v4 0x01020304)) :=
  ((table_decides_policy oneAddress_valid).1 ⟨[], fun _ => []⟩ (openingPacket (.v4 0x01020304))
    ⟨0, none⟩ ⟨by simp⟩ (.inl rfl) (by decide) (by decide) (by decide)).1

/-- The policy takes a mapped address for the IPv4 address; a rule of the table does not. -/
theorem mapped_destination_dropped :
    (∀ rule ∈ oneAddress, rule.Valid) ∧
    (openingPacket (.v6 0xffff01020304)).IsTransport ∧
    (openingPacket (.v6 0xffff01020304)).state = .new ∧
    (openingPacket (.v6 0xffff01020304)).oifname ≠ "lo" ∧
    ¬ Unrouted (openingPacket (.v6 0xffff01020304)).destination ∧
    PermittedByPolicy oneAddress ⟨[], fun _ => []⟩ (openingPacket (.v6 0xffff01020304)) ∧
    (filterHook oneAddress ⟨[], fun _ => []⟩ .output (openingPacket (.v6 0xffff01020304))
      ⟨0, none⟩).1 = .drop := by
  refine ⟨oneAddress_valid, .inl rfl, rfl, by decide, ?_, .inl ⟨_, List.mem_singleton_self _, by decide, rfl,
    by decide⟩, by decide +kernel⟩
  unfold Unrouted
  decide

end Kakoi
