import Kakoi.Net.FilterMeaning
import Kakoi.Net.Gate
import Kakoi.Net.Scope

/-! The static rules of filtered mode, and that the admission of answered addresses agrees with
them. -/

namespace Kakoi

/-- The single address that stands for the host's loopback of a family. -/
def hostLoopback : IpFamily → IpNetwork
  | .ipv4 => ⟨.v4 hostLoopbackV4, 32⟩
  | .ipv6 => ⟨.v6 hostLoopbackV6, 128⟩

def unsupported (what : String) : Diagnostic :=
  .bwrap (format ["filtered network mode does not support ", what, " yet"])

/-- The static rules of the allow list: addresses and the host's loopback. DNS names become
permissions only as they are answered. -/
def filterRules : List Allow → Except Diagnostic (List FilterRule)
  | [] => .ok []
  | allow :: allows =>
    match allow.destination with
    | .address network none => do
      return ⟨network, allow.protocol, allow.ports⟩ :: (← filterRules allows)
    | .dns _ => filterRules allows
    | .hostLoopback family => do
      return ⟨hostLoopback family, allow.protocol, allow.ports⟩ :: (← filterRules allows)
    | .address _ (some _) => .error (unsupported "`host-interface` destinations")

/-- What a session knows of addresses: the host's own, and the fixed aliases of its
loopback. -/
def sessionScope (hostAddresses : List IpAddr) (directedBroadcasts : List (BitVec 32)) :
    AddressContext where
  hostAddresses
  hostLoopbackV4 := some hostLoopbackV4
  hostLoopbackV6 := some hostLoopbackV6
  directedBroadcasts

/-- What one permission contributes to the rules; a destination through an interface of the
host has no contribution. -/
def Allow.StaticRule (allow : Allow) (rules : List FilterRule) : Prop :=
  match allow.destination with
  | .dns _ => True
  | .address network required =>
    required = none ∧ ⟨network, allow.protocol, allow.ports⟩ ∈ rules
  | .hostLoopback family => ⟨hostLoopback family, allow.protocol, allow.ports⟩ ∈ rules

theorem Allow.StaticRule.cons {allow : Allow} (stated : allow.StaticRule rules) :
    allow.StaticRule (rule :: rules) := by
  unfold Allow.StaticRule at stated ⊢
  split at stated
  · trivial
  · exact ⟨stated.1, List.mem_cons_of_mem _ stated.2⟩
  · exact List.mem_cons_of_mem _ stated

theorem filterRules_static (accepted : filterRules allows = .ok rules) :
    ∀ allow ∈ allows, allow.StaticRule rules := by
  induction allows generalizing rules with
  | nil => simp
  | cons first allows ih =>
    rw [filterRules] at accepted
    refine List.forall_mem_cons.mpr ?_
    split at accepted
    · rename_i network destination
      obtain ⟨others, ok, made⟩ := Except.bind_eq_ok.mp accepted
      cases made
      refine ⟨?_, fun allow member => (ih ok allow member).cons⟩
      simp [Allow.StaticRule, destination]
    · rename_i pattern destination
      exact ⟨by simp [Allow.StaticRule, destination], ih accepted⟩
    · rename_i family destination
      obtain ⟨others, ok, made⟩ := Except.bind_eq_ok.mp accepted
      cases made
      refine ⟨?_, fun allow member => (ih ok allow member).cons⟩
      simp [Allow.StaticRule, destination]
    · cases accepted

section Scopes

variable {context : AddressContext}

theorem linkLocal_special (linkLocal : address.isUnicastLinkLocal = true)
    (canonical : address.toCanonical = address) :
    specialNetworks.any (·.contains address) = true := by
  refine List.any_eq_true.mpr ⟨linkLocalIpv6, by decide, ?_⟩
  rw [IpNetwork.contains_eq, canonical, ← network_matches ⟨by decide, by decide⟩]
  cases address with
  | v4 bits => cases linkLocal
  | v6 bits =>
    have leading : bits >>> 118 = 0x3fa := by simpa [IpAddr.isUnicastLinkLocal] using linkLocal
    exact matches_ipv6.mpr (leading.trans (by decide))

theorem classify_canonical : context.classify address.toCanonical = context.classify address := by
  rw [AddressContext.classify, AddressContext.classify, IpAddr.toCanonical_idempotent]

/-- What is not unsupported is neither multicast nor the limited broadcast. -/
theorem classify_routed (supported : context.classify address ≠ .unsupported)
    (notLinkLocal : address.toCanonical.isUnicastLinkLocal = false) :
    ¬ Unrouted address.toCanonical := by
  rintro (multicast | broadcast | linkLocal)
  · exact supported (by simp [AddressContext.classify, multicast])
  · exact supported (by simp [AddressContext.classify, broadcast, AddressContext.isBroadcast])
  · rw [notLinkLocal] at linkLocal
    cases linkLocal

theorem classify_global (global : context.classify address = .global) :
    ¬ Unrouted address.toCanonical := by
  refine classify_routed (by rw [global]; decide) ?_
  by_contra linkLocal
  rw [Bool.not_eq_false] at linkLocal
  have special := linkLocal_special linkLocal (IpAddr.toCanonical_idempotent address)
  unfold AddressContext.classify at global
  dsimp only at global
  rw [special, Bool.or_true, if_pos rfl] at global
  split_ifs at global

theorem classify_loopback (scope : context.classify address = .loopback) :
    address.toCanonical.isLoopback = true := by
  unfold AddressContext.classify at scope
  dsimp only at scope
  split_ifs at scope with _ _ _ loopback
  exact loopback

/-- An address classified as an alias is the one of the static rule. -/
theorem classify_hostLoopback
    (named : (sessionScope hosts broadcasts).classify address = .hostLoopback family) :
    address.toCanonical = (hostLoopback family).address := by
  unfold AddressContext.classify at named
  dsimp only at named
  split_ifs at named with _ ipv4 ipv6
  · cases named
    exact (Option.some.inj ipv4).symm
  · cases named
    exact (Option.some.inj ipv6).symm

end Scopes

section Admission

variable {context : AddressContext}
 

theorem admitDns_cases (dns : origin.destination = .dns pattern) :
    (context.classify address = .global ∧
      context.admitDns origin address route policy = .dynamic) ∨
    (context.classify address = .loopback ∧
      context.admitDns origin address route policy = .existingOnly) ∨
    (∃ rule ∈ policy, AddressContext.isExplicit origin (context.classify address)
        address.toCanonical route rule = true ∧ context.classify address ≠ .unsupported ∧
      context.classify address ≠ .global ∧
      context.admitDns origin address route policy = .existingOnly) ∨
    (context.classify address ≠ .global ∧
      context.admitDns origin address route policy = .denied) := by
  unfold AddressContext.admitDns
  rw [dns]
  dsimp only
  rw [classify_canonical]
  cases scope : context.classify address with
  | global => exact .inl ⟨rfl, rfl⟩
  | loopback => exact .inr (.inl ⟨rfl, rfl⟩)
  | unsupported => exact .inr (.inr (.inr ⟨by simp, rfl⟩))
  | explicit =>
    by_cases listed : policy.any
        (AddressContext.isExplicit origin .explicit address.toCanonical route) = true
    · obtain ⟨rule, member, states⟩ := List.any_eq_true.mp listed
      exact .inr (.inr (.inl ⟨rule, member, states, by simp, by simp, by simp [listed]⟩))
    · exact .inr (.inr (.inr ⟨by simp, by simp [listed]⟩))
  | hostLoopback family =>
    by_cases listed : policy.any
        (AddressContext.isExplicit origin (.hostLoopback family) address.toCanonical route) = true
    · obtain ⟨rule, member, states⟩ := List.any_eq_true.mp listed
      exact .inr (.inr (.inl ⟨rule, member, states, by simp, by simp, by simp [listed]⟩))
    · exact .inr (.inr (.inr ⟨by simp, by simp [listed]⟩))

/-- A static rule that states an address: it is one of the table's, and the address can be
reached. -/
theorem isExplicit_static (accepted : filterRules policy = .ok rules)
    (valid : ∀ allow ∈ policy, allow.ports.Valid) (known : origin ∈ policy)
    (member : rule ∈ policy)
    (states : AddressContext.isExplicit origin
      ((sessionScope hosts broadcasts).classify address) address.toCanonical route rule = true) :
    address.toCanonical.isUnicastLinkLocal = false ∧ ∃ permitting ∈ rules,
      permitting.network.contains address = true ∧ permitting.protocol = origin.protocol ∧
      ∃ port, permitting.ports.contains port = true ∧ origin.ports.contains port = true := by
  have static := filterRules_static accepted rule member
  unfold AddressContext.isExplicit at states
  split at states
  · cases states
  · rename_i shared
    simp only [Bool.or_eq_true, decide_eq_true_eq, Bool.not_eq_true', not_or, Decidable.not_not,
      Bool.not_eq_false] at shared
    obtain ⟨protocol, overlaps⟩ := shared
    have port := (Ports.overlaps_iff (valid rule member) (valid origin known)).mp overlaps
    unfold Allow.StaticRule at static
    split at states
    · rename_i family expected destination scope
      rw [destination] at static
      cases of_decide_eq_true states
      have named := classify_hostLoopback scope
      refine ⟨?_, _, static, ?_, protocol, port⟩
      · rw [named]
        cases family <;> decide
      · rw [IpNetwork.contains_eq, named]
        show (hostLoopback family).holds (hostLoopback family).address = true
        cases family <;> decide
    · rename_i network required destination scope
      rw [destination] at static
      obtain ⟨rfl, static⟩ := static
      split at states
      · cases states
      · rename_i notLinkLocal
        refine ⟨by simpa using notLinkLocal, _, static, ?_, protocol, port⟩
        rw [IpNetwork.contains_eq, ← IpAddr.toCanonical_idempotent, ← IpNetwork.contains_eq]
        exact (Bool.and_eq_true_iff.mp states).1
    · cases states

/-- Answers are admitted on their own exactly when they are global, and what is admitted can be
reached: on its own permission, or on that of a static rule. -/
theorem admission_agrees_with_rules (accepted : filterRules policy = .ok rules)
    (valid : ∀ allow ∈ policy, allow.ports.Valid) (known : origin ∈ policy)
    (dns : origin.destination = .dns pattern) (hosts : List IpAddr)
    (broadcasts : List (BitVec 32)) (address : IpAddr) (route : Option String) :
    ((sessionScope hosts broadcasts).admitDns origin address route policy = .dynamic ↔
      (sessionScope hosts broadcasts).classify address.toCanonical = .global) ∧
    ((sessionScope hosts broadcasts).admitDns origin address route policy = .dynamic →
      ¬ Unrouted address.toCanonical) ∧
    ((sessionScope hosts broadcasts).admitDns origin address route policy = .existingOnly →
      address.toCanonical.isLoopback = false →
      ¬ Unrouted address.toCanonical ∧ ∃ rule ∈ rules, rule.network.contains address = true ∧
        rule.protocol = origin.protocol ∧
        ∃ port, rule.ports.contains port = true ∧ origin.ports.contains port = true) := by
  rw [classify_canonical]
  rcases admitDns_cases dns with ⟨scope, admitted⟩ | ⟨scope, admitted⟩ |
    ⟨rule, member, states, supported, special, admitted⟩ | ⟨scope, admitted⟩
  · rw [admitted, scope]
    exact ⟨by simp, fun _ => classify_global scope, fun impossible => (nomatch impossible)⟩
  · rw [admitted, scope]
    refine ⟨by simp, fun impossible => (nomatch impossible), fun _ other => ?_⟩
    rw [classify_loopback scope] at other
    cases other
  · obtain ⟨notLinkLocal, static⟩ := isExplicit_static accepted valid known member states
    rw [admitted]
    exact ⟨by simp [special], fun impossible => (nomatch impossible),
      fun _ _ => ⟨classify_routed supported notLinkLocal, static⟩⟩
  · rw [admitted]
    exact ⟨by simp [scope], fun impossible => (nomatch impossible),
      fun impossible => (nomatch impossible)⟩

/-- Web access by name, and to a private network without one. -/
def webPolicy : List Allow :=
  [⟨.dns ⟨"example.com", false⟩, .tcp, ⟨[(443, 443)]⟩⟩,
    ⟨.address ⟨.v4 0x0a000000, 8⟩ none, .tcp, ⟨[(1, 65535)]⟩⟩]

theorem web_admission_agrees : ∃ rules, filterRules webPolicy = .ok rules ∧
    (sessionScope [] []).admitDns ⟨.dns ⟨"example.com", false⟩, .tcp, ⟨[(443, 443)]⟩⟩
      (.v4 0x0a000001) none webPolicy = .existingOnly ∧
    ∃ rule ∈ rules, rule.network.contains (.v4 0x0a000001) = true := by
  have ports : ∀ allow ∈ webPolicy, allow.ports.Valid := by
    simp only [webPolicy, List.forall_mem_cons]
    exact ⟨Ports.valid_single (by decide) (by decide), Ports.valid_single (by decide) (by decide),
      by simp⟩
  have admitted : (sessionScope [] []).admitDns
      ⟨.dns ⟨"example.com", false⟩, .tcp, ⟨[(443, 443)]⟩⟩ (.v4 0x0a000001) none webPolicy =
        .existingOnly := by
    decide +kernel
  obtain ⟨-, rule, member, contains, -⟩ := (admission_agrees_with_rules rfl ports
    (List.mem_cons_self) rfl [] [] (.v4 0x0a000001) none).2.2 admitted rfl
  exact ⟨_, rfl, admitted, rule, member, contains⟩

end Admission

end Kakoi
