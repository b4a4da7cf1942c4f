import Kakoi.Policy.AddressRanges
import Kakoi.Policy.PortSets
import Mathlib.Algebra.Group.Nat.Defs

/-! Networks as the addresses they hold, read, printed and read again alike. -/

namespace Kakoi

/-- An address that is printed is read back, and is written without a slash. -/
structure AddressFormat.Laws (format : AddressFormat) : Prop where
  parse_display : ∀ address, format.parse (format.display address) = some address
  slashless : ∀ address, '/' ∉ (format.display address).toList

/-- The bits of an address, the leading one first. -/
def IpAddr.bit : IpAddr → Nat → Bool
  | .v4 bits, index => bits.getMsbD index
  | .v6 bits, index => bits.getMsbD index

theorem getMsbD_leading {width length : Nat} (bits : BitVec width) (fits : length ≤ width)
    (i : Nat) : (bits &&& BitVec.allOnes width <<< (width - length)).getMsbD i =
      (decide (i < length) && bits.getMsbD i) := by
  have place : i + (width - length) < width ↔ i < length := by omega
  simp [BitVec.getMsbD_and, BitVec.getMsbD_shiftLeft, place, Bool.and_comm]

theorem bit_masked {address : IpAddr} (fits : length ≤ address.width) (i : Nat) :
    (masked address length).bit i = (decide (i < length) && address.bit i) := by
  cases address with
  | v4 bits => exact getMsbD_leading bits fits i
  | v6 bits => exact getMsbD_leading bits fits i

theorem isIpv4_masked (address : IpAddr) : (masked address length).isIpv4 = address.isIpv4 := by
  cases address with
  | v4 bits => rfl
  | v6 bits => rfl

theorem IpAddr.eq_of_bits {left right : IpAddr} (family : left.isIpv4 = right.isIpv4)
    (bits : ∀ i, left.bit i = right.bit i) : left = right := by
  cases left with
  | v4 left =>
    cases right with
    | v4 right => exact congrArg v4 (BitVec.eq_of_getMsbD_eq fun i _ => bits i)
    | v6 right => cases family
  | v6 left =>
    cases right with
    | v4 right => cases family
    | v6 right => exact congrArg v6 (BitVec.eq_of_getMsbD_eq fun i _ => bits i)

theorem IpNetwork.Valid.bit_beyond {network : IpNetwork} (valid : network.Valid)
    (beyond : network.length ≤ i) : network.address.bit i = false := by
  rw [← valid.canonical, bit_masked valid.fits, decide_eq_false (Nat.not_lt.mpr beyond),
    Bool.false_and]

theorem width_eq {left right : IpAddr} (family : left.isIpv4 = right.isIpv4) :
    left.width = right.width := by
  cases left with
  | v4 left =>
    cases right with
    | v4 right => rfl
    | v6 right => cases family
  | v6 left =>
    cases right with
    | v4 right => cases family
    | v6 right => rfl

/-- A network holds the addresses that agree with it on its leading bits. -/
theorem IpNetwork.Valid.contains_iff {network : IpNetwork} (valid : network.Valid)
    (address : IpAddr) : network.contains address = true ↔
      address.toCanonical.isIpv4 = network.address.isIpv4 ∧
        ∀ i < network.length, address.toCanonical.bit i = network.address.bit i := by
  rw [IpNetwork.contains_eq, IpNetwork.holds, Bool.and_eq_true, decide_eq_true_eq,
    decide_eq_true_eq]
  refine and_congr_right fun family => ?_
  have fits : network.length ≤ address.toCanonical.width := width_eq family ▸ valid.fits
  constructor
  · intro same i inside
    rw [← same, bit_masked fits, decide_eq_true inside, Bool.true_and]
  · intro same
    refine IpAddr.eq_of_bits ((isIpv4_masked _).trans family) fun i => ?_
    rw [bit_masked fits]
    by_cases inside : i < network.length
    · rw [decide_eq_true inside, Bool.true_and, same i inside]
    · rw [decide_eq_false inside, Bool.false_and, valid.bit_beyond (Nat.not_lt.mp inside)]

/-- A subtraction of unsigned numbers; none where it would go below zero. -/
def checkedSub (left right : Nat) : Option Nat :=
  if right ≤ left then some (left - right) else none

def checkedShl {width : Nat} (bits : BitVec width) (count : Nat) : Option (BitVec width) :=
  if count < width then some (bits <<< count) else none

/-- `masked` with its subtraction as it may fail. -/
def maskedChecked (address : IpAddr) (length : Nat) : Option IpAddr :=
  match address with
  | .v4 bits => (checkedSub 32 length).map fun low =>
      .v4 (bits &&& (checkedShl (BitVec.allOnes 32) low).getD 0)
  | .v6 bits => (checkedSub 128 length).map fun low =>
      .v6 (bits &&& (checkedShl (BitVec.allOnes 128) low).getD 0)

def IpNetwork.containsChecked (network : IpNetwork) (address : IpAddr) : Option Bool :=
  let address := address.toCanonical
  if address.isIpv4 ≠ network.address.isIpv4 then some false
  else (maskedChecked address network.length).map fun found => found = network.address

/-- `from_str` with its subtractions as they may fail. -/
def IpNetwork.fromStrChecked (format : AddressFormat) (input : String) :
    Option (Except String IpNetwork) :=
  match splitOnce '/' input with
  | none => some (.error ("CIDR " ++ input.quote ++ " requires a prefix length"))
  | some (address, length) =>
    match format.parse address with
    | none => some (.error ("invalid CIDR address " ++ address.quote))
    | some address =>
      if length.isEmpty || !length.toList.all Char.isDigit ||
          1 < length.toList.length && length.toList.head? = some '0' then
        some (.error ("invalid CIDR prefix " ++ length.quote))
      else
        let length := Nat.ofDigitChars 10 length.toList 0
        if 256 ≤ length then some (.error "CIDR prefix too large")
        else if address.width < length then
          some (.error "CIDR prefix too large for its address family")
        else do
          let network ← maskedChecked address length
          if network ≠ address then
            some (.error ("CIDR has nonzero host bits; use " ++ format.display network ++ "/" ++
              toString length))
          else
            match address with
            | .v4 bits => some (.ok ⟨.v4 bits, length⟩)
            | .v6 bits =>
              match toIpv4Mapped bits with
              | some mapped =>
                if 96 ≤ length then
                  (checkedSub length 96).map fun length => .ok ⟨.v4 mapped, length⟩
                else some (.ok ⟨.v6 bits, length⟩)
              | none => some (.ok ⟨.v6 bits, length⟩)

theorem checkedShl_getD {width : Nat} (bits : BitVec width) (count : Nat) :
    (checkedShl bits count).getD 0 = bits <<< count := by
  unfold checkedShl
  split
  · rfl
  next far =>
    refine BitVec.eq_of_getLsbD_eq fun i inside => ?_
    have below : i < count := by omega
    simp [below]

theorem maskedChecked_eq {address : IpAddr} (fits : length ≤ address.width) :
    maskedChecked address length = some (masked address length) := by
  cases address with
  | v4 bits =>
    have within : length ≤ 32 := fits
    simp only [maskedChecked, masked, checkedSub, within, if_true, Option.map_some,
      checkedShl_getD]
  | v6 bits =>
    have within : length ≤ 128 := fits
    simp only [maskedChecked, masked, checkedSub, within, if_true, Option.map_some,
      checkedShl_getD]

theorem IpNetwork.Valid.containsChecked_eq {network : IpNetwork} (valid : network.Valid)
    (address : IpAddr) : network.containsChecked address = some (network.contains address) := by
  unfold IpNetwork.containsChecked IpNetwork.contains
  dsimp only
  split
  · rfl
  next family =>
    rw [Decidable.not_not] at family
    rw [maskedChecked_eq (width_eq family ▸ valid.fits), Option.map_some]

/-- Whatever is written, reading it subtracts nothing below zero. -/
theorem IpNetwork.fromStrChecked_eq (format : AddressFormat) (input : String) :
    fromStrChecked format input = some (fromStr format input) := by
  unfold fromStrChecked fromStr
  cases splitOnce '/' input with
  | none => rfl
  | some parts =>
    obtain ⟨written, digits⟩ := parts
    dsimp only
    cases format.parse written with
    | none => rfl
    | some address =>
      dsimp only
      split
      · rfl
      · split
        · rfl
        · split
          · rfl
          next fits =>
            rw [maskedChecked_eq (Nat.not_lt.mp fits), Option.bind_eq_bind, Option.bind_some]
            split
            · rfl
            · cases address with
              | v4 bits => rfl
              | v6 bits =>
                dsimp only
                cases toIpv4Mapped bits with
                | none => rfl
                | some mapped =>
                  dsimp only
                  split
                  next long => rw [checkedSub, if_pos long, Option.map_some]
                  · rfl

section Reading

variable {address : IpAddr} {format : AddressFormat}

/-- What is kept of a range: a mapped one as the IPv4 range. -/
def IpNetwork.stored (address : IpAddr) (length : Nat) : IpNetwork :=
  match address with
  | .v4 bits => ⟨.v4 bits, length⟩
  | .v6 bits =>
    match toIpv4Mapped bits with
    | some mapped => if 96 ≤ length then ⟨.v4 mapped, length - 96⟩ else ⟨.v6 bits, length⟩
    | none => ⟨.v6 bits, length⟩

theorem IpNetwork.stored_unmapped (plain : toIpv4Mapped bits = none) (length : Nat) :
    stored (.v6 bits) length = ⟨.v6 bits, length⟩ := by
  simp [stored, plain]

theorem IpNetwork.stored_mapped (mapped : toIpv4Mapped bits = some embedded) (length : Nat) :
    stored (.v6 bits) length =
      if 96 ≤ length then ⟨.v4 embedded, length - 96⟩ else ⟨.v6 bits, length⟩ := by
  simp [stored, mapped]

/-- The digits of a length are refused unless they are written as a number is. -/
def badLength (digits : String) : Bool :=
  digits.isEmpty || !digits.toList.all Char.isDigit ||
    1 < digits.toList.length && digits.toList.head? = some '0'

theorem number_of_not_bad (good : badLength digits = false) :
    digits = toString (Nat.ofDigitChars 10 digits.toList 0) := by
  simp only [badLength, Bool.or_eq_false_iff, Bool.not_eq_false', Bool.and_eq_false_iff,
    decide_eq_false_iff_not] at good
  obtain ⟨⟨nonempty, numeric⟩, unpadded⟩ := good
  apply String.toList_injective
  rw [toList_number]
  have some : digits.toList ≠ [] := by
    intro none
    simp [String.toList_eq_nil_iff.mp none] at nonempty
  by_cases zero : digits.toList.head? = .some '0'
  · -- a leading zero stands alone
    have short := unpadded.resolve_right (not_not_intro zero)
    cases shape : digits.toList with
    | nil => exact absurd shape some
    | cons first rest =>
      rw [shape] at zero short
      cases rest with
      | nil =>
        cases zero
        rfl
      | cons second rest => simp at short
  · rw [toDigits_unpadded numeric some zero]

theorem not_bad_number (value : Nat) : badLength (toString value) = false := by
  have numeric : (Nat.toDigits 10 value).all Char.isDigit = true :=
    List.all_eq_true.mpr fun _ member => Nat.isDigit_of_mem_toDigits (by omega) (by omega) member
  have nonempty : (toString value).isEmpty = false := by
    rw [Bool.eq_false_iff, ne_eq, String.isEmpty_iff, ← String.toList_eq_nil_iff, toList_number]
    exact Nat.toDigits_ne_nil
  rw [badLength, nonempty, toList_number, numeric]
  by_cases zero : value = 0
  · subst zero
    rfl
  · simp [toDigits_head value (Nat.pos_of_ne_zero zero)]

/-- What is accepted: an address, a slash, and a length that fits it and has no bits behind. -/
theorem IpNetwork.fromStr_iff :
    fromStr format input = .ok network ↔
      ∃ written address length,
        input.toList = written.toList ++ '/' :: (toString length).toList ∧
        '/' ∉ written.toList ∧ format.parse written = some address ∧
        length ≤ address.width ∧ masked address length = address ∧
        network = stored address length := by
  constructor
  · intro accepted
    unfold fromStr at accepted
    cases parts : splitOnce '/' input with
    | none => simp [parts] at accepted
    | some pair =>
      obtain ⟨written, digits⟩ := pair
      obtain ⟨whole, slashless⟩ := splitOnce_eq_some.mp parts
      simp only [parts] at accepted
      cases read : format.parse written with
      | none => simp [read] at accepted
      | some address =>
        simp only [read] at accepted
        split at accepted
        · cases accepted
        next good =>
          have number := number_of_not_bad (Bool.not_eq_true _ ▸ good)
          split at accepted
          · cases accepted
          · split at accepted
            · cases accepted
            next fits =>
              split at accepted
              · cases accepted
              next canonical =>
                rw [Decidable.not_not] at canonical
                refine ⟨written, address, _, whole.trans (by rw [← number]), slashless, read,
                  Nat.not_lt.mp fits, canonical, ?_⟩
                cases address with
                | v4 bits => exact (Except.ok.inj accepted).symm
                | v6 bits =>
                  cases mapped : toIpv4Mapped bits with
                  | none =>
                    simp only [mapped] at accepted
                    rw [stored_unmapped mapped, Except.ok.inj accepted]
                  | some embedded =>
                    simp only [mapped] at accepted
                    rw [stored_mapped mapped]
                    split at accepted
                    next long => rw [if_pos long, Except.ok.inj accepted]
                    next short => rw [if_neg short, Except.ok.inj accepted]
  · rintro ⟨written, address, length, whole, slashless, read, fits, canonical, rfl⟩
    have parts : splitOnce '/' input = some (written, toString length) :=
      splitOnce_eq_some.mpr ⟨whole, slashless⟩
    have value : Nat.ofDigitChars 10 (toString length).toList 0 = length := by
      rw [toList_number, Nat.ofDigitChars_toDigits (by omega) (by omega)]
    have small : address.width ≤ 128 := by cases address <;> simp [IpAddr.width]
    unfold fromStr
    simp only [parts, read]
    have good := not_bad_number length
    unfold badLength at good
    rw [if_neg (by rw [good]; exact Bool.false_ne_true), value, if_neg (by omega),
      if_neg (by omega), if_neg (not_not_intro canonical)]
    cases address with
    | v4 bits => rfl
    | v6 bits =>
      cases mapped : toIpv4Mapped bits with
      | none => simp [mapped, stored_unmapped mapped]
      | some embedded =>
        by_cases long : 96 ≤ length
        · simp [mapped, stored_mapped mapped, long]
        · simp [mapped, stored_mapped mapped, long]

theorem IpNetwork.fromStr_spelled (slashless : '/' ∉ written.toList)
    (read : format.parse written = some address) (length : Nat) :
    fromStr format (written ++ "/" ++ toString length) = .ok network ↔
      length ≤ address.width ∧ masked address length = address ∧
        network = stored address length := by
  rw [fromStr_iff]
  constructor
  · rintro ⟨other, found, size, whole, plain, parsed, fits, canonical, rfl⟩
    have parts := splitOnce_eq_some.mpr ⟨whole, plain⟩
    have same : splitOnce '/' (written ++ "/" ++ toString length) =
        some (written, toString length) := splitOnce_eq_some.mpr ⟨by simp, slashless⟩
    rw [same, Option.some.injEq, Prod.mk.injEq] at parts
    obtain ⟨rfl, digits⟩ := parts
    cases number_injective (congrArg utf8 digits)
    rw [read] at parsed
    cases parsed
    exact ⟨fits, canonical, rfl⟩
  · rintro ⟨fits, canonical, rfl⟩
    exact ⟨written, address, length, by simp, slashless, read, fits, canonical, rfl⟩

end Reading

/-- The mapped form of an IPv4 address. -/
def mappedForm (embedded : BitVec 32) : BitVec 128 :=
  BitVec.ofNat 128 (0xffff00000000 + embedded.toNat)

theorem toNat_mappedForm (embedded : BitVec 32) :
    (mappedForm embedded).toNat = 0xffff00000000 + embedded.toNat := by
  have bound := embedded.isLt
  rw [mappedForm, BitVec.toNat_ofNat, Nat.mod_eq_of_lt (by omega)]

theorem mappedForm_high (embedded : BitVec 32) : mappedForm embedded >>> 32 = 0xffff := by
  apply BitVec.eq_of_toNat_eq
  have bound := embedded.isLt
  have high : (0xffff : BitVec 128).toNat = 0xffff := rfl
  rw [BitVec.toNat_ushiftRight, toNat_mappedForm, Nat.shiftRight_eq_div_pow, high]
  omega

theorem mappedForm_low (embedded : BitVec 32) : (mappedForm embedded).setWidth 32 = embedded := by
  apply BitVec.eq_of_toNat_eq
  have bound := embedded.isLt
  rw [BitVec.toNat_setWidth, toNat_mappedForm]
  omega

theorem toIpv4Mapped_mappedForm (embedded : BitVec 32) :
    toIpv4Mapped (mappedForm embedded) = some embedded := by
  rw [toIpv4Mapped, if_pos (mappedForm_high embedded), mappedForm_low]

theorem toCanonical_mappedForm (embedded : BitVec 32) :
    (IpAddr.v6 (mappedForm embedded)).toCanonical = .v4 embedded := by
  rw [IpAddr.toCanonical, if_pos (mappedForm_high embedded), mappedForm_low]

/-- Mapped and IPv4 addresses have the same last bits, so they lose the same ones. -/
theorem masked_mappedForm (embedded : BitVec 32) (length : Nat) :
    masked (.v6 (mappedForm embedded)) (96 + length) = .v6 (mappedForm embedded) ↔
      masked (.v4 embedded) length = .v4 embedded := by
  have low (i : Nat) (inside : i < 32) :
      (mappedForm embedded).getLsbD i = embedded.getLsbD i := by
    have bit := congrArg (·.getLsbD i) (mappedForm_low embedded)
    simpa [BitVec.getLsbD_setWidth, inside] using bit
  simp only [masked, IpAddr.v6.injEq, IpAddr.v4.injEq, leading_eq_self]
  constructor
  · intro zero i below
    rw [← low i (by omega)]
    exact zero i (by omega)
  · intro zero i below
    rw [low i (by omega)]
    exact zero i (by omega)

/-- A mapped address has a bit set that no prefix shorter than its mapping keeps. -/
theorem long_of_mapped {bits : BitVec 128} (mapped : toIpv4Mapped bits = some embedded)
    (canonical : masked (.v6 bits) length = .v6 bits) : 96 ≤ length := by
  unfold toIpv4Mapped at mapped
  split at mapped
  next high =>
    by_contra short
    have zero := leading_eq_self.mp (IpAddr.v6.inj canonical) 32 (by omega)
    have bit := congrArg (·.getLsbD 0) high
    rw [BitVec.getLsbD_ushiftRight, zero] at bit
    exact absurd bit (by decide)
  · cases mapped

theorem IpNetwork.stored_unmapped_only {address : IpAddr} {length : Nat} {bits : BitVec 128}
    (canonical : masked address length = address)
    (kept : (stored address length).address = .v6 bits) : toIpv4Mapped bits = none := by
  cases address with
  | v4 address => cases kept
  | v6 address =>
    cases mapped : toIpv4Mapped address with
    | none =>
      rw [stored_unmapped mapped] at kept
      cases kept
      exact mapped
    | some embedded =>
      rw [stored_mapped mapped, if_pos (long_of_mapped mapped canonical)] at kept
      cases kept

theorem IpNetwork.stored_self
    (unmapped : ∀ bits, network.address = .v6 bits → toIpv4Mapped bits = none) :
    stored network.address network.length = network := by
  obtain ⟨address, length⟩ := network
  cases address with
  | v4 bits => rfl
  | v6 bits => exact stored_unmapped (unmapped bits rfl) length

/-- A mapped range and the IPv4 range are accepted alike, as one network. -/
theorem mapped_range_alike {format : AddressFormat} (wideSlashless : '/' ∉ wide.toList)
    (narrowSlashless : '/' ∉ narrow.toList)
    (readWide : format.parse wide = some (.v6 (mappedForm embedded)))
    (readNarrow : format.parse narrow = some (.v4 embedded)) (length : Nat) :
    IpNetwork.fromStr format (wide ++ "/" ++ toString (96 + length)) = .ok network ↔
      IpNetwork.fromStr format (narrow ++ "/" ++ toString length) = .ok network := by
  rw [IpNetwork.fromStr_spelled wideSlashless readWide,
    IpNetwork.fromStr_spelled narrowSlashless readNarrow, masked_mappedForm,
    IpNetwork.stored_mapped (toIpv4Mapped_mappedForm embedded), if_pos (Nat.le_add_right _ _),
    Nat.add_sub_cancel_left]
  refine and_congr_left fun _ => ?_
  simp only [IpAddr.width]
  omega

/-- Accepted networks: the length fits, no bit is behind it, no mapped address is kept, no
arithmetic leaves its range, the printed form is read as the same network, the addresses held are
those that agree on the leading bits, and mapped ranges are IPv4 ranges. -/
theorem networks_are_ranges {format : AddressFormat} (laws : format.Laws)
    (accepted : IpNetwork.fromStr format input = .ok network) :
    network.length ≤ network.address.width ∧
      (∀ i, network.length ≤ i → network.address.bit i = false) ∧
      (∀ bits, network.address = .v6 bits → toIpv4Mapped bits = none) ∧
      IpNetwork.fromStrChecked format input = some (.ok network) ∧
      (∀ address, network.containsChecked address = some (network.contains address)) ∧
      IpNetwork.fromStr format (network.text format) = .ok network ∧
      (∀ address, network.contains address = true ↔
        address.toCanonical.isIpv4 = network.address.isIpv4 ∧
          ∀ i < network.length, address.toCanonical.bit i = network.address.bit i) ∧
      (∀ wide narrow embedded length, '/' ∉ wide.toList → '/' ∉ narrow.toList →
        format.parse wide = some (.v6 (mappedForm embedded)) →
        format.parse narrow = some (.v4 embedded) → ∀ mapped,
          (IpNetwork.fromStr format (wide ++ "/" ++ toString (96 + length)) = .ok mapped ↔
            IpNetwork.fromStr format (narrow ++ "/" ++ toString length) = .ok mapped)) ∧
      ∀ embedded, network.contains (.v6 (mappedForm embedded)) =
        network.contains (.v4 embedded) := by
  have valid := IpNetwork.fromStr_valid accepted
  obtain ⟨-, address, length, -, -, -, -, canonical, rfl⟩ := IpNetwork.fromStr_iff.mp accepted
  have unmapped : ∀ bits, (IpNetwork.stored address length).address = .v6 bits →
      toIpv4Mapped bits = none := fun bits => IpNetwork.stored_unmapped_only canonical
  refine ⟨valid.fits, fun i => valid.bit_beyond, unmapped,
    (IpNetwork.fromStrChecked_eq format input).trans (congrArg some accepted),
    valid.containsChecked_eq, ?_, valid.contains_iff, ?_, ?_⟩
  · rw [IpNetwork.text, IpNetwork.fromStr_spelled (laws.slashless _) (laws.parse_display _)]
    exact ⟨valid.fits, valid.canonical, (IpNetwork.stored_self unmapped).symm⟩
  · intro wide narrow embedded length wideSlashless narrowSlashless readWide readNarrow mapped
    exact mapped_range_alike wideSlashless narrowSlashless readWide readNarrow length
  · intro embedded
    rw [IpNetwork.contains_eq, IpNetwork.contains_eq, toCanonical_mappedForm]
    rfl

/-- The last digits of a number. -/
def digitsOf (base : Nat) : Nat → Nat → List Nat
  | 0, _ => []
  | count + 1, number => digitsOf base count (number / base) ++ [number % base]

def numberOf (base : Nat) (digits : List Nat) : Nat :=
  digits.foldl (fun number digit => number * base + digit) 0

theorem numberOf_digitsOf {number base count : Nat} (fits : number < base ^ count) :
    numberOf base (digitsOf base count number) = number := by
  induction count generalizing number with
  | zero => exact (Nat.lt_one_iff.mp fits).symm
  | succ count ih =>
    have front := ih (Nat.div_lt_of_lt_mul (Nat.pow_succ' ▸ fits))
    unfold numberOf at front ⊢
    rw [digitsOf, List.foldl_append, front, List.foldl_cons, List.foldl_nil, Nat.div_add_mod']

theorem digitsOf_lt (digit : Nat) (member : digit ∈ digitsOf 16 count number) : digit < 16 := by
  induction count generalizing number with
  | zero => cases member
  | succ count ih =>
    rcases List.mem_append.mp member with front | last
    · exact ih front
    · rw [List.mem_singleton.mp last]
      exact Nat.mod_lt _ (by decide)

/-- A colon behind every four digits but the last. -/
def grouped : List Char → List Char
  | a :: b :: c :: d :: e :: rest => a :: b :: c :: d :: ':' :: grouped (e :: rest)
  | short => short

theorem mem_grouped (member : character ∈ grouped digits) :
    character ∈ digits ∨ character = ':' := by
  fun_induction grouped digits with
  | case1 => grind
  | case2 => exact .inl member

theorem filter_grouped (digits : List Char) :
    (grouped digits).filter (· ≠ ':') = digits.filter (· ≠ ':') := by
  fun_induction grouped digits with
  | case1 => grind
  | case2 => rfl

def hexDigits (bits : BitVec 128) : List Char := (digitsOf 16 32 bits.toNat).map Nat.digitChar

def readDigit (digit : Char) : Nat :=
  if digit.isDigit then digit.toNat - 48 else digit.toNat - 87

theorem digitChar_digit : ∀ digit < 16, readDigit (Nat.digitChar digit) = digit ∧
    Nat.digitChar digit ≠ ':' ∧ Nat.digitChar digit ≠ '/' := by decide

theorem hexDigits_plain (member : character ∈ hexDigits bits) :
    character ≠ ':' ∧ character ≠ '/' := by
  obtain ⟨digit, inside, rfl⟩ := List.mem_map.mp member
  exact (digitChar_digit digit (digitsOf_lt digit inside)).2

/-- IPv4 addresses in dotted decimal, IPv6 addresses in eight groups of four digits. -/
def writtenAddress : IpAddr → String
  | .v4 bits => String.ofList (['.'].intercalate ((digitsOf 256 4 bits.toNat).map (Nat.toDigits 10)))
  | .v6 bits => String.ofList (grouped (hexDigits bits))

def readAddress (text : String) : IpAddr :=
  if ':' ∈ text.toList then
    .v6 (.ofNat 128 (numberOf 16 ((text.toList.filter (· ≠ ':')).map readDigit)))
  else .v4 (.ofNat 32 (numberOf 256 ((text.toList.splitOn '.').map (Nat.ofDigitChars 10 · 0))))

theorem readAddress_written (address : IpAddr) : readAddress (writtenAddress address) = address := by
  cases address with
  | v4 bits =>
    have digits (value : Nat) : '.' ∉ Nat.toDigits 10 value ∧ ':' ∉ Nat.toDigits 10 value :=
      ⟨not_mem_digits value '.' (by decide), not_mem_digits value ':' (by decide)⟩
    have decimal : ':' ∉ (writtenAddress (.v4 bits)).toList := by
      simp [writtenAddress, digitsOf, List.intercalate, digits]
    rw [readAddress, if_neg decimal, writtenAddress, String.toList_ofList,
      List.splitOn_intercalate '.' (by simp [digits]) (by simp [digitsOf]), List.map_map]
    have read : (Nat.ofDigitChars 10 · 0) ∘ Nat.toDigits 10 = id :=
      funext fun value => Nat.ofDigitChars_toDigits (by decide) (by decide)
    have fits : bits.toNat < 256 ^ 4 := bits.isLt
    rw [read, List.map_id, numberOf_digitsOf fits, BitVec.ofNat_toNat, BitVec.setWidth_eq]
  | v6 bits =>
    have grouping : ':' ∈ (writtenAddress (.v6 bits)).toList := by
      simp [writtenAddress, hexDigits, digitsOf, grouped]
    have digits : (hexDigits bits).map readDigit = digitsOf 16 32 bits.toNat := by
      rw [hexDigits, List.map_map]
      conv_rhs => rw [← List.map_id (digitsOf 16 32 bits.toNat)]
      exact List.map_congr_left fun digit member =>
        (digitChar_digit digit (digitsOf_lt digit member)).1
    have plain : (hexDigits bits).filter (· ≠ ':') = hexDigits bits :=
      List.filter_eq_self.mpr fun digit member => by simpa using (hexDigits_plain member).1
    have fits : bits.toNat < 16 ^ 32 := bits.isLt
    rw [readAddress, if_pos grouping, writtenAddress, String.toList_ofList, filter_grouped, plain,
      digits, numberOf_digitsOf fits, BitVec.ofNat_toNat, BitVec.setWidth_eq]

def writtenFormat : AddressFormat where
  display := writtenAddress
  parse text := if writtenAddress (readAddress text) = text then some (readAddress text) else none

theorem writtenFormat_laws : writtenFormat.Laws where
  parse_display address := by simp [writtenFormat, readAddress_written]
  slashless address := by
    cases address with
    | v4 bits =>
      have digits (value : Nat) : '/' ∉ Nat.toDigits 10 value := not_mem_digits value '/' (by decide)
      simp [writtenFormat, writtenAddress, digitsOf, List.intercalate, digits]
    | v6 bits =>
      intro member
      rcases mem_grouped (by simpa [writtenFormat, writtenAddress] using member) with digit | colon
      · exact (hexDigits_plain digit).2 rfl
      · cases colon

theorem loopback_network_is_range :
    IpNetwork.fromStr writtenFormat "127.0.0.0/8" = .ok ⟨.v4 2130706432, 8⟩ ∧
      IpNetwork.fromStr writtenFormat (IpNetwork.text writtenFormat ⟨.v4 2130706432, 8⟩) =
        .ok ⟨.v4 2130706432, 8⟩ := by
  have accepted : IpNetwork.fromStr writtenFormat "127.0.0.0/8" = .ok ⟨.v4 2130706432, 8⟩ := by
    decide +kernel
  obtain ⟨-, -, -, -, -, printed, -⟩ := networks_are_ranges writtenFormat_laws accepted
  exact ⟨accepted, printed⟩

end Kakoi
