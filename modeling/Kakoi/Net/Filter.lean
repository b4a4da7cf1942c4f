import Kakoi.Base.Ruleset
import Kakoi.Policy.AddressRanges
import Kakoi.Policy.PortRanges

/-! The table of static IP permissions: its nft rules, their text, and how the kernel evaluates
them on a packet. -/

namespace Kakoi

open Ruleset

structure FilterRule where
  network : IpNetwork
  protocol : Protocol
  ports : Ports

structure FilterRule.Valid (rule : FilterRule) : Prop where
  network : rule.network.Valid
  ports : rule.ports.Valid

inductive L4Protocol where
  | tcp
  | udp
  | icmp
  | icmpv6
  | other (number : Nat)
  deriving DecidableEq

/-- What connection tracking says of a packet. -/
inductive CtState where
  | new
  | established
  | related
  | invalid
  | untracked
  deriving DecidableEq

inductive Icmpv6Type where
  | ndRouterSolicit
  | ndRouterAdvert
  | ndNeighborSolicit
  | ndNeighborAdvert
  | other (number : Nat)
  deriving DecidableEq

/-- The parts of a packet that rules look at. -/
structure Packet where
  destination : IpAddr
  l4proto : L4Protocol
  dport : UInt16
  hoplimit : Nat
  icmpv6Type : Icmpv6Type
  iifname : String
  oifname : String
  state : CtState

/-- What the kernel keeps of a connection. -/
structure Connection where
  mark : Nat
  timeout : Option String

/-- An element of an anonymous set of addresses. -/
inductive AddressElement where
  | single (address : IpAddr)
  | network (range : IpNetwork)

inductive FilterTest where
  | ctState (state : CtState)
  | ctMark (mark : Nat)
  | iifname (name : String)
  | oifname (name : String)
  | l4proto (protocols : List L4Protocol)
  | hoplimit (limit : Nat)
  | icmpv6Type (types : List Icmpv6Type)
  | daddr (ipv4 : Bool) (elements : List AddressElement)
  | daddrSet (ipv4 : Bool) (set : String)
  | dport (protocol : Protocol) (ports : String)

inductive FilterEffect where
  | ctTimeout (name : String)
  | ctMark (mark : Nat)

inductive FilterChain where
  | input
  | forward
  | output
  | permitted
  | dnsPermitted
  deriving DecidableEq

abbrev NftRule := Rule FilterTest FilterEffect FilterChain

section Text

variable (format : AddressFormat)

/-- The nft address family of a rule for IPv4 or IPv6 destinations. -/
def addressFamily (ipv4 : Bool) : String := if ipv4 then "ip" else "ip6"

def Protocol.text : Protocol → String
  | .tcp => "tcp"
  | .udp => "udp"

def L4Protocol.text : L4Protocol → String
  | .tcp => "tcp"
  | .udp => "udp"
  | .icmp => "icmp"
  | .icmpv6 => "ipv6-icmp"
  | .other number => toString number

def CtState.text : CtState → String
  | .new => "new"
  | .established => "established"
  | .related => "related"
  | .invalid => "invalid"
  | .untracked => "untracked"

def Icmpv6Type.text : Icmpv6Type → String
  | .ndRouterSolicit => "nd-router-solicit"
  | .ndRouterAdvert => "nd-router-advert"
  | .ndNeighborSolicit => "nd-neighbor-solicit"
  | .ndNeighborAdvert => "nd-neighbor-advert"
  | .other number => toString number

def AddressElement.text : AddressElement → String
  | .single address => format.display address
  | .network range => range.text format

/-- One element stands alone, several in braces. -/
def alternatives : List String → String
  | [single] => single
  | several => "\x7b " ++ ", ".intercalate several ++ " \x7d"

def FilterTest.text : FilterTest → String
  | .ctState state => "ct state " ++ state.text
  | .ctMark mark => "ct mark " ++ toString mark
  | .iifname name => "iifname \"" ++ name ++ "\""
  | .oifname name => "oifname \"" ++ name ++ "\""
  | .l4proto protocols => "meta l4proto " ++ alternatives (protocols.map L4Protocol.text)
  | .hoplimit limit => "ip6 hoplimit " ++ toString limit
  | .icmpv6Type types => "icmpv6 type " ++ alternatives (types.map Icmpv6Type.text)
  | .daddr ipv4 elements =>
    addressFamily ipv4 ++ " daddr " ++ alternatives (elements.map (AddressElement.text format))
  | .daddrSet ipv4 set => addressFamily ipv4 ++ " daddr @" ++ set
  | .dport protocol ports => protocol.text ++ " dport \x7b " ++ ports ++ " \x7d"

def FilterEffect.text : FilterEffect → String
  | .ctTimeout name => "ct timeout set \"" ++ name ++ "\""
  | .ctMark mark => "ct mark set " ++ toString mark

def FilterChain.text : FilterChain → String
  | .input => "input"
  | .forward => "forward"
  | .output => "output"
  | .permitted => "permitted"
  | .dnsPermitted => "dns_permitted"

def actionText : Action FilterChain → String
  | .accept => "accept"
  | .drop => "drop"
  | .jump chain => "jump " ++ chain.text

def ruleText (rule : NftRule) : String :=
  " ".intercalate (rule.tests.map (FilterTest.text format) ++
    rule.effects.map FilterEffect.text ++ [actionText rule.action])

def ruleLines (rules : List NftRule) : String :=
  rules.foldr (fun rule lines => "  " ++ ruleText format rule ++ "\n" ++ lines) ""

end Text

def inputRules : List NftRule :=
  [⟨[.ctState .invalid], [], .drop⟩,
    ⟨[.iifname "lo", .l4proto [.tcp, .udp]], [], .accept⟩,
    ⟨[.hoplimit 255, .icmpv6Type [.ndRouterAdvert, .ndNeighborSolicit, .ndNeighborAdvert]], [],
      .accept⟩,
    ⟨[.ctState .related, .l4proto [.icmp, .icmpv6]], [], .accept⟩,
    ⟨[.ctMark 1, .l4proto [.tcp, .udp]], [], .accept⟩]

/-- 224.0.0.0/4 and 255.255.255.255. -/
def unroutedIpv4 : List AddressElement :=
  [.network ⟨.v4 0xe0000000, 4⟩, .single (.v4 0xffffffff)]

/-- ff00::/8. -/
def multicastIpv6 : IpNetwork := ⟨.v6 0xff000000000000000000000000000000, 8⟩

/-- fe80::/10. -/
def linkLocalIpv6 : IpNetwork := ⟨.v6 0xfe800000000000000000000000000000, 10⟩

def outputRules : List NftRule :=
  [⟨[.ctState .invalid], [], .drop⟩,
    ⟨[.oifname "lo", .l4proto [.tcp, .udp]], [], .accept⟩,
    ⟨[.hoplimit 255, .icmpv6Type [.ndRouterSolicit, .ndNeighborSolicit, .ndNeighborAdvert]], [],
      .accept⟩,
    ⟨[.ctState .related, .l4proto [.icmp, .icmpv6]], [], .accept⟩,
    ⟨[.daddr true unroutedIpv4], [], .drop⟩,
    ⟨[.daddr false [.network multicastIpv6]], [], .drop⟩,
    ⟨[.daddr false [.network linkLocalIpv6]], [], .drop⟩,
    ⟨[.ctMark 1, .l4proto [.tcp], .ctState .established], [], .accept⟩,
    ⟨[.ctMark 1, .l4proto [.udp]], [], .accept⟩,
    ⟨[], [], .jump .permitted⟩]

/-- A permitting rule: its target, its protocol and ports, the idle timeout of a UDP flow,
and the mark that lets the flow's replies back. -/
def writePermit (target : FilterTest) (protocol : Protocol) (ports : Ports) (ipv4 : Bool) :
    NftRule where
  tests := [target, .dport protocol ports.text]
  effects :=
    (if protocol = .udp then [.ctTimeout (if ipv4 then "udp4" else "udp6")] else []) ++ [.ctMark 1]
  action := .accept

/-- The rule of one static permission. -/
def FilterRule.permit (rule : FilterRule) : NftRule :=
  let ipv4 := rule.network.address.isIpv4
  writePermit (.daddr ipv4 [.network rule.network]) rule.protocol rule.ports ipv4

/-- The rule of the addresses one DNS rule permits at present, which are in a set. -/
structure DnsPermit where
  set : String
  ipv4 : Bool
  protocol : Protocol
  ports : Ports

def DnsPermit.permit (dns : DnsPermit) : NftRule :=
  writePermit (.daddrSet dns.ipv4 dns.set) dns.protocol dns.ports dns.ipv4

/-- The table's chains, with what has been put into `dns_permitted` since. -/
def staticChains (rules : List FilterRule) (dns : List DnsPermit) : FilterChain → List NftRule
  | .input => inputRules
  | .forward => []
  | .output => outputRules
  | .permitted => rules.map FilterRule.permit ++ [⟨[], [], .jump .dnsPermitted⟩]
  | .dnsPermitted => dns.map DnsPermit.permit

def maxUdpIdleTimeoutSeconds : Nat := 86400

def ctTimeoutLine (name l3proto : String) (seconds : Nat) : String :=
  " ct timeout " ++ name ++ " \x7b protocol udp; l3proto " ++ l3proto ++
    "; policy = \x7b unreplied: " ++ toString seconds ++ ", replied: " ++ toString seconds ++
    " \x7d; \x7d\n"

def compileStatic (format : AddressFormat) (rules : List FilterRule) (udpIdleSeconds : Nat) :
    Except String String :=
  if udpIdleSeconds < 1 || maxUdpIdleTimeoutSeconds < udpIdleSeconds then
    .error "UDP idle timeout must be in 1..=86400 seconds"
  else
    let chains := staticChains rules []
    .ok ("table inet kakoi_policy \x7b\n" ++
      ctTimeoutLine "udp4" "ip" udpIdleSeconds ++ ctTimeoutLine "udp6" "ip6" udpIdleSeconds ++
      " chain input \x7b type filter hook input priority 0; policy drop;\n" ++
      ruleLines format (chains .input) ++ " \x7d\n" ++
      " chain forward \x7b type filter hook forward priority 0; policy drop; \x7d\n" ++
      " chain output \x7b type filter hook output priority 0; policy drop;\n" ++
      ruleLines format (chains .output) ++ " \x7d\n" ++
      " chain permitted \x7b\n" ++ ruleLines format (chains .permitted) ++ " \x7d\n" ++
      " chain dns_permitted \x7b \x7d\n\x7d\n")

/-- A range includes its whole length, whatever the address it is written with. -/
def AddressElement.matches (destination : IpAddr) : AddressElement → Bool
  | .single address => destination = address
  | .network range => destination.isIpv4 = range.address.isIpv4 &&
      masked destination range.length = masked range.address range.length

def Protocol.l4 : Protocol → L4Protocol
  | .tcp => .tcp
  | .udp => .udp

/-- The test on a packet of a connection; the named sets have the given elements. -/
def FilterTest.passes (sets : String → List IpAddr) (packet : Packet) (connection : Connection) :
    FilterTest → Bool
  | .ctState state => packet.state = state
  | .ctMark mark => connection.mark = mark
  | .iifname name => packet.iifname = name
  | .oifname name => packet.oifname = name
  | .l4proto protocols => protocols.contains packet.l4proto
  | .hoplimit limit => !packet.destination.isIpv4 && packet.hoplimit = limit
  | .icmpv6Type types => packet.l4proto = .icmpv6 && types.contains packet.icmpv6Type
  | .daddr ipv4 elements => packet.destination.isIpv4 = ipv4 &&
      elements.any (AddressElement.matches packet.destination)
  | .daddrSet ipv4 set => packet.destination.isIpv4 = ipv4 &&
      (sets set).contains packet.destination
  | .dport protocol ports => packet.l4proto = protocol.l4 &&
      ((readPorts ports).getD []).any fun (first, last) =>
        first ≤ packet.dport.toNat && packet.dport.toNat ≤ last

def FilterEffect.perform (connection : Connection) : FilterEffect → Connection
  | .ctTimeout name => { connection with timeout := some name }
  | .ctMark mark => { connection with mark }

def filterMeaning (sets : String → List IpAddr) (packet : Packet) :
    Meaning FilterTest FilterEffect Connection where
  passes := FilterTest.passes sets packet
  perform := FilterEffect.perform

/-- How deep the kernel lets chains jump. -/
def jumpStackSize : Nat := 16

/-- The permissions of DNS answers in the kernel: the rules of the chain and the elements of
the sets at the time. -/
structure DnsChain where
  permits : List DnsPermit
  sets : String → List IpAddr

/-- A packet at the hook of a base chain: its verdict, by default a drop, and the connection
behind it. -/
def filterHook (rules : List FilterRule) (dns : DnsChain) (base : FilterChain) (packet : Packet)
    (connection : Connection) : Verdict × Connection :=
  let (verdict, connection) := evaluate (filterMeaning dns.sets packet)
    (staticChains rules dns.permits) jumpStackSize base connection
  (verdict.getD .drop, connection)

end Kakoi
