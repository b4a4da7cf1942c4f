import Kakoi.Base.Path
import Kakoi.Policy.Network

/-! Networks as they are written and what they hold: a range of mapped addresses is kept as its
IPv4 range. -/

namespace Kakoi

def IpAddr.width : IpAddr → Nat
  | .v4 _ => 32
  | .v6 _ => 128

/-- How the standard library writes an address and reads one. -/
structure AddressFormat where
  display : IpAddr → String
  parse : String → Option IpAddr

/-- What the parser ensures. -/
structure IpNetwork.Valid (network : IpNetwork) : Prop where
  fits : network.length ≤ network.address.width
  canonical : masked network.address network.length = network.address

/-- The address is of the network's family and in its range, as it stands. -/
def IpNetwork.holds (network : IpNetwork) (address : IpAddr) : Bool :=
  address.isIpv4 = network.address.isIpv4 && masked address network.length = network.address

theorem IpNetwork.contains_eq (network : IpNetwork) (address : IpAddr) :
    network.contains address = network.holds address.toCanonical := by
  unfold contains holds
  by_cases family : address.toCanonical.isIpv4 = network.address.isIpv4
  · simp [family]
  · simp [family]

/-- The IPv4 address an IPv6 address is the mapped form of. -/
def toIpv4Mapped (address : BitVec 128) : Option (BitVec 32) :=
  if address >>> 32 = 0xffff then some (address.setWidth 32) else none

def IpNetwork.fromStr (format : AddressFormat) (input : String) : Except String IpNetwork :=
  match splitOnce '/' input with
  | none => .error ("CIDR " ++ input.quote ++ " requires a prefix length")
  | some (address, length) =>
    match format.parse address with
    | none => .error ("invalid CIDR address " ++ address.quote)
    | some address =>
      if length.isEmpty || !length.toList.all Char.isDigit ||
          1 < length.toList.length && length.toList.head? = some '0' then
        .error ("invalid CIDR prefix " ++ length.quote)
      else
        let length := Nat.ofDigitChars 10 length.toList 0
        if 256 ≤ length then .error "CIDR prefix too large"
        else if address.width < length then
          .error "CIDR prefix too large for its address family"
        else if masked address length ≠ address then
          .error ("CIDR has nonzero host bits; use " ++ format.display (masked address length) ++
            "/" ++ toString length)
        else
          match address with
          | .v4 bits => .ok ⟨.v4 bits, length⟩
          | .v6 bits =>
            match toIpv4Mapped bits with
            | some mapped =>
              if 96 ≤ length then .ok ⟨.v4 mapped, length - 96⟩ else .ok ⟨.v6 bits, length⟩
            | none => .ok ⟨.v6 bits, length⟩

/-- A network as it is printed. -/
def IpNetwork.text (format : AddressFormat) (network : IpNetwork) : String :=
  format.display network.address ++ "/" ++ toString network.length

/-- A mask of leading bits keeps just the values whose other bits are zero. -/
theorem leading_eq_self {width : Nat} {bits : BitVec width} :
    bits &&& BitVec.allOnes width <<< low = bits ↔ ∀ i, i < low → bits.getLsbD i = false := by
  constructor
  · intro same i below
    rw [← same]
    simp [below]
  · intro zero
    refine BitVec.eq_of_getLsbD_eq fun i bound => ?_
    by_cases below : i < low
    · simp [below, zero i below]
    · simp [below, bound]

/-- Values agree on their leading bits exactly when they agree without the others. -/
theorem leading_eq_iff {width : Nat} {bits others : BitVec width} {low : Nat} :
    bits &&& BitVec.allOnes width <<< low = others &&& BitVec.allOnes width <<< low ↔
      bits >>> low = others >>> low := by
  constructor
  · intro same
    refine BitVec.eq_of_getLsbD_eq fun i bound => ?_
    have bit := congrArg (·.getLsbD (low + i)) same
    simp only [BitVec.getLsbD_and, BitVec.getLsbD_shiftLeft, BitVec.getLsbD_allOnes] at bit
    rw [BitVec.getLsbD_ushiftRight, BitVec.getLsbD_ushiftRight]
    by_cases inside : low + i < width
    · have above : ¬ low + i < low := by omega
      simpa [inside, bound, above] using bit
    · rw [BitVec.getLsbD_of_ge _ _ (by omega), BitVec.getLsbD_of_ge _ _ (by omega)]
  · intro same
    refine BitVec.eq_of_getLsbD_eq fun i bound => ?_
    by_cases below : i < low
    · simp [below]
    · have bit := congrArg (·.getLsbD (i - low)) same
      simp only [BitVec.getLsbD_ushiftRight] at bit
      rw [Nat.add_sub_cancel' (Nat.not_lt.mp below)] at bit
      rw [BitVec.getLsbD_and, BitVec.getLsbD_and, bit]

/-- A mapped range, with its length counted in the embedded bits. -/
theorem valid_mapped {bits : BitVec 128} (mapped : toIpv4Mapped bits = some embedded)
    (long : 96 ≤ length) (fits : length ≤ 128) (canonical : masked (.v6 bits) length = .v6 bits) :
    IpNetwork.Valid ⟨.v4 embedded, length - 96⟩ := by
  unfold toIpv4Mapped at mapped
  split at mapped
  · cases mapped
    refine ⟨by simp only [IpAddr.width]; omega, congrArg IpAddr.v4 (leading_eq_self.mpr ?_)⟩
    intro i low
    have zero := leading_eq_self.mp (IpAddr.v6.inj canonical) i (by dsimp only at low; omega)
    simp [zero]
  · cases mapped

/-- Networks that are accepted have a length that fits and no bits behind it. -/
theorem IpNetwork.fromStr_valid {format : AddressFormat}
    (accepted : fromStr format input = .ok network) :
    network.Valid := by
  unfold fromStr at accepted
  split at accepted
  · cases accepted
  · split at accepted
    · cases accepted
    · rename_i address _
      split at accepted
      · cases accepted
      · dsimp only at accepted
        split at accepted
        · cases accepted
        · split at accepted
          · cases accepted
          · rename_i fits
            split at accepted
            · cases accepted
            · rename_i canonical
              rw [Decidable.not_not] at canonical
              have fits := Nat.not_lt.mp fits
              split at accepted
              · cases accepted
                exact ⟨fits, canonical⟩
              · split at accepted
                · rename_i mapped
                  split at accepted
                  · rename_i long
                    cases accepted
                    exact valid_mapped mapped long fits canonical
                  · cases accepted
                    exact ⟨fits, canonical⟩
                · cases accepted
                  exact ⟨fits, canonical⟩

end Kakoi
