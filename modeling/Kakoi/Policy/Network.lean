import Mathlib.Data.List.Basic

/-! Validated network policy values, independent of the host. -/

namespace Kakoi

inductive Protocol where
  | tcp
  | udp
  deriving DecidableEq

inductive IpFamily where
  | ipv4
  | ipv6
  deriving DecidableEq

inductive IpAddr where
  | v4 (address : BitVec 32)
  | v6 (address : BitVec 128)
  deriving DecidableEq

namespace IpAddr

/-- An IPv4-mapped IPv6 address as the IPv4 address. -/
def toCanonical : IpAddr → IpAddr
  | .v4 address => .v4 address
  | .v6 address => if address >>> 32 = 0xffff then .v4 (address.setWidth 32) else .v6 address

def isIpv4 : IpAddr → Bool
  | .v4 _ => true
  | .v6 _ => false

def isMulticast : IpAddr → Bool
  | .v4 address => address >>> 28 = 0xe
  | .v6 address => address >>> 120 = 0xff

def isLoopback : IpAddr → Bool
  | .v4 address => address >>> 24 = 127
  | .v6 address => address = 1

def isUnicastLinkLocal : IpAddr → Bool
  | .v4 _ => false
  | .v6 address => address >>> 118 = 0x3fa

theorem toCanonical_idempotent (address : IpAddr) :
    address.toCanonical.toCanonical = address.toCanonical := by
  cases address with
  | v4 address => rfl
  | v6 address =>
    by_cases mapped : address >>> 32 = 0xffff
    · have value : (v6 address).toCanonical = .v4 (address.setWidth 32) := if_pos mapped
      rw [value]
      rfl
    · have value : (v6 address).toCanonical = .v6 address := if_neg mapped
      rw [value, value]

end IpAddr

/-- A network: the bits of the address beyond the length are zero. -/
structure IpNetwork where
  address : IpAddr
  length : Nat
  deriving DecidableEq

def masked (address : IpAddr) (length : Nat) : IpAddr :=
  match address with
  | .v4 address => .v4 (address &&& BitVec.allOnes 32 <<< (32 - length))
  | .v6 address => .v6 (address &&& BitVec.allOnes 128 <<< (128 - length))

def IpNetwork.contains (network : IpNetwork) (address : IpAddr) : Bool :=
  let address := address.toCanonical
  if address.isIpv4 ≠ network.address.isIpv4 then false
  else masked address network.length = network.address

/-- Port ranges in increasing order, both ends included. -/
structure Ports where
  ranges : List (UInt16 × UInt16)
  deriving DecidableEq

/-- Two pointers, each moved past a range that ends before the other's starts. -/
def overlappingRanges : List (UInt16 × UInt16) → List (UInt16 × UInt16) → Bool
  | left :: lefts, right :: rights =>
    if left.2 < right.1 then overlappingRanges lefts (right :: rights)
    else if right.2 < left.1 then overlappingRanges (left :: lefts) rights
    else true
  | _, _ => false
  termination_by left right => left.length + right.length

def Ports.overlaps (left right : Ports) : Bool := overlappingRanges left.ranges right.ranges

/-- Strict normalization of names to ASCII. -/
structure Idna where
  domainToAsciiStrict : String → Option String

def hostNames : List String := ["host-v4.kakoi.internal", "host-v6.kakoi.internal"]

section Names

variable (idna : Idna)

/-- A name without its final dot, in ASCII. -/
def normalize (name : String) : Except String String :=
  if name.isEmpty || name.toList.any (fun character => character = '*' || character = '＊') then
    .error ("invalid DNS name " ++ name.quote)
  else
    let name := ((name.toList.dropSuffix? ['.']).map String.ofList).getD name
    match idna.domainToAsciiStrict name with
    | none => .error ("invalid DNS name " ++ name.quote)
    | some ascii =>
      if ascii.isEmpty || ['.'].isSuffixOf ascii.toList then
        .error ("invalid DNS name " ++ name.quote)
      else .ok ascii

/-- The host loopback family a reserved host name stands for. -/
def reservedHost (name : String) : Option IpFamily :=
  match normalize idna name with
  | .error _ => none
  | .ok name =>
    if name = "host-v4.kakoi.internal" then some .ipv4
    else if name = "host-v6.kakoi.internal" then some .ipv6
    else none

/-- A DNS name or its descendants, normalized once. -/
structure DnsPattern where
  ascii : String
  descendants : Bool
  deriving DecidableEq

def DnsPattern.matches (pattern : DnsPattern) (name : String) : Bool :=
  match normalize idna name with
  | .error _ => false
  | .ok name =>
    if hostNames.contains name then false
    else if pattern.descendants then
      match name.toList.dropSuffix? pattern.ascii.toList with
      | some front => ['.'].isSuffixOf front && 1 < front.length
      | none => false
    else name = pattern.ascii

end Names

inductive Destination where
  | dns (pattern : DnsPattern)
  | address (network : IpNetwork) (hostInterface : Option String)
  | hostLoopback (family : IpFamily)
  deriving DecidableEq

structure Allow where
  destination : Destination
  protocol : Protocol
  ports : Ports
  deriving DecidableEq

structure DnsUpstream where
  address : IpAddr
  port : UInt16
  tlsName : Option String
  deriving DecidableEq

def validateUpstreams (upstreams : List DnsUpstream) : Except String Unit :=
  match upstreams with
  | [] => .ok ()
  | first :: _ =>
    if upstreams.any fun item => item.tlsName.isSome ≠ first.tlsName.isSome then
      .error "dns-upstream must not mix plain DNS and TLS"
    else .ok ()

def maxDnsResolutionTimeoutSeconds : Nat := 3600

def maxDnsConcurrentResolutions : Nat := 4096

def maxDnsWaitersPerResolution : Nat := 1024

def maxRecoveryAttemptTimeoutSeconds : Nat := 300

structure NetworkLimits where
  udpIdleTimeoutSeconds : Nat := 120
  dnsZeroTtlGraceMilliseconds : Nat := 1000
  dnsServerTimeoutSeconds : Nat := 2
  dnsResolutionTimeoutSeconds : Nat := 10
  dnsMaxCnameHops : Nat := 16
  dnsMaxUpstreamQueries : Nat := 64
  dnsMaxConcurrentResolutions : Nat := 256
  dnsMaxWaitersPerResolution : Nat := 64
  dnsFailureCacheSeconds : Nat := 5
  recoveryAttemptTimeoutSeconds : Nat := 10
  deriving DecidableEq

end Kakoi
