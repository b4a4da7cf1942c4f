import Kakoi.Net.Message

/-! Lifetimes of the permissions that DNS answers give. -/

namespace Kakoi

open Std (ExtTreeMap TransCmp LawfulEqCmp)

/-- How long a record permits its address; a record that may not be kept has its grace. -/
def lifetime (zeroTtlGrace : Duration) (ttlSeconds : Nat) : Duration :=
  if ttlSeconds = 0 then zeroTtlGrace else seconds ttlSeconds

def recordDeadline (received : Instant) (ttlSeconds : Nat) (zeroTtlGrace : Duration) :
    Option Instant :=
  checkedAdd received (lifetime zeroTtlGrace ttlSeconds)

structure ActiveGrant where
  rule : Nat
  address : IpAddr
  deadline : Instant
  deriving DecidableEq

/-- The bits of an address as a number. -/
def IpAddr.number : IpAddr → Nat
  | .v4 address => address.toNat
  | .v6 address => address.toNat

/-- The order of the keys of the book: rules, families, then the bits of the addresses. -/
def leaseOrder : Nat × IpAddr → Nat × IpAddr → Ordering :=
  compareLex (compareOn (·.1)) (compareLex (compareOn (!·.2.isIpv4)) (compareOn (·.2.number)))

instance : TransCmp leaseOrder := inferInstanceAs (TransCmp (compareLex _ (compareLex _ _)))

instance : LawfulEqCmp leaseOrder where
  eq_of_compare := by
    intro (rule, address) (other, right) same
    simp only [leaseOrder, compareLex_eq_eq, compareOn, Std.compare_eq_iff_eq] at same
    obtain ⟨rfl, family, number⟩ := same
    cases address <;> cases right <;>
      simp_all [IpAddr.isIpv4, IpAddr.number, BitVec.toNat_inj]

/-- The deadlines of what was permitted, by rule and address. -/
structure LeaseBook where
  deadlines : ExtTreeMap (Nat × IpAddr) Instant leaseOrder := ∅

namespace LeaseBook

/-- The later one of the deadline known, if there is one, and another. -/
def later (deadline : Instant) : Option Instant → Instant
  | some old => if old < deadline then deadline else old
  | none => deadline

/-- The book with one more grant, and without those that ended. -/
def record (book : LeaseBook) (rule : Nat) (address : IpAddr) (deadline now : Instant) :
    LeaseBook :=
  let kept := book.deadlines.filter fun _ expiry => now < expiry
  if now < deadline then
    { deadlines := kept.alter (rule, address.toCanonical) fun known => later deadline known }
  else { deadlines := kept }

def permits (book : LeaseBook) (rule : Nat) (address : IpAddr) (now : Instant) : Bool :=
  book.deadlines[(rule, address.toCanonical)]?.any (now < ·)

/-- The grants still alive. -/
def active (book : LeaseBook) (now : Instant) : List ActiveGrant :=
  (book.deadlines.filter fun _ expiry => now < expiry).toList.map
    fun ((rule, address), deadline) => { rule, address, deadline }

end LeaseBook

end Kakoi
