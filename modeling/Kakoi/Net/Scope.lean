import Kakoi.Policy.Network

/-! DNS address admission from the immutable policy and addresses the controller observed. -/

namespace Kakoi

inductive AddressScope where
  | global
  | explicit
  | loopback
  | hostLoopback (family : IpFamily)
  | unsupported
  deriving DecidableEq

inductive DnsAdmission where
  | dynamic
  | existingOnly
  | denied
  deriving DecidableEq

structure AddressContext where
  hostAddresses : List IpAddr := []
  hostLoopbackV4 : Option (BitVec 32) := none
  hostLoopbackV6 : Option (BitVec 128) := none
  directedBroadcasts : List (BitVec 32) := []

/-- The registries of special addresses. The prefix of mapped addresses is left out: those
are IPv4 before they are looked up. -/
def specialNetworks : List IpNetwork :=
  [⟨.v4 0x0, 8⟩, ⟨.v4 0x0, 32⟩, ⟨.v4 0xa000000, 8⟩, ⟨.v4 0x64400000, 10⟩, ⟨.v4 0x7f000000, 8⟩,
    ⟨.v4 0xa9fe0000, 16⟩, ⟨.v4 0xac100000, 12⟩, ⟨.v4 0xc0000000, 24⟩, ⟨.v4 0xc0000000, 29⟩,
    ⟨.v4 0xc0000008, 32⟩, ⟨.v4 0xc0000009, 32⟩, ⟨.v4 0xc000000a, 32⟩, ⟨.v4 0xc00000aa, 32⟩,
    ⟨.v4 0xc00000ab, 32⟩, ⟨.v4 0xc0000200, 24⟩, ⟨.v4 0xc01fc400, 24⟩, ⟨.v4 0xc034c100, 24⟩,
    ⟨.v4 0xc0586300, 24⟩, ⟨.v4 0xc0586302, 32⟩, ⟨.v4 0xc0a80000, 16⟩, ⟨.v4 0xc0af3000, 24⟩,
    ⟨.v4 0xc6120000, 15⟩, ⟨.v4 0xc6336400, 24⟩, ⟨.v4 0xcb007100, 24⟩, ⟨.v4 0xf0000000, 4⟩,
    ⟨.v4 0xffffffff, 32⟩, ⟨.v6 0x1, 128⟩, ⟨.v6 0x0, 128⟩,
    ⟨.v6 0x64ff9b000000000000000000000000, 96⟩, ⟨.v6 0x64ff9b000100000000000000000000, 48⟩,
    ⟨.v6 0x1000000000000000000000000000000, 64⟩, ⟨.v6 0x1000000000000010000000000000000, 64⟩,
    ⟨.v6 0x20010000000000000000000000000000, 23⟩, ⟨.v6 0x20010000000000000000000000000000, 32⟩,
    ⟨.v6 0x20010001000000000000000000000001, 128⟩, ⟨.v6 0x20010001000000000000000000000002, 128⟩,
    ⟨.v6 0x20010001000000000000000000000003, 128⟩, ⟨.v6 0x20010002000000000000000000000000, 48⟩,
    ⟨.v6 0x20010003000000000000000000000000, 32⟩, ⟨.v6 0x20010004011200000000000000000000, 48⟩,
    ⟨.v6 0x20010010000000000000000000000000, 28⟩, ⟨.v6 0x20010020000000000000000000000000, 28⟩,
    ⟨.v6 0x20010030000000000000000000000000, 28⟩, ⟨.v6 0x20010db8000000000000000000000000, 32⟩,
    ⟨.v6 0x20020000000000000000000000000000, 16⟩, ⟨.v6 0x2620004f800000000000000000000000, 48⟩,
    ⟨.v6 0x3fff0000000000000000000000000000, 20⟩, ⟨.v6 0x5f000000000000000000000000000000, 16⟩,
    ⟨.v6 0xfc000000000000000000000000000000, 7⟩, ⟨.v6 0xfe800000000000000000000000000000, 10⟩]

namespace AddressContext

/-- An address that reaches a whole network. -/
def isBroadcast (context : AddressContext) : IpAddr → Bool
  | .v4 address => address = BitVec.allOnes 32 || context.directedBroadcasts.contains address
  | .v6 _ => false

def classify (context : AddressContext) (address : IpAddr) : AddressScope :=
  let address := address.toCanonical
  if address.isMulticast || context.isBroadcast address then .unsupported
  else if context.hostLoopbackV4.map .v4 = some address then .hostLoopback .ipv4
  else if context.hostLoopbackV6.map .v6 = some address then .hostLoopback .ipv6
  else if address.isLoopback then .loopback
  else if context.hostAddresses.any (·.toCanonical = address) ||
      specialNetworks.any (·.contains address) then .explicit
  else .global

/-- A static rule that already permits the address in its scope. -/
def isExplicit (origin : Allow) (scope : AddressScope) (address : IpAddr)
    (hostInterface : Option String) (rule : Allow) : Bool :=
  if rule.protocol ≠ origin.protocol || !rule.ports.overlaps origin.ports then false
  else
    match rule.destination, scope with
    | .hostLoopback family, .hostLoopback expected => family = expected
    | .address network required, .explicit =>
      if address.isUnicastLinkLocal && required.isNone then false
      else network.contains address && required.all fun required => some required = hostInterface
    | _, _ => false

def admitDns (context : AddressContext) (origin : Allow) (address : IpAddr)
    (hostInterface : Option String) (policy : List Allow) : DnsAdmission :=
  match origin.destination with
  | .dns _ =>
    let address := address.toCanonical
    match context.classify address with
    | .global => .dynamic
    | .loopback => .existingOnly
    | .unsupported => .denied
    | scope =>
      if policy.any (isExplicit origin scope address hostInterface) then .existingOnly
      else .denied
  | _ => .denied

end AddressContext

end Kakoi
