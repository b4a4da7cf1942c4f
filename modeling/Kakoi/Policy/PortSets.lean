import Kakoi.Policy.PortRanges

/-! Ports as the set they denote: one value for each set, and printing loses nothing. -/

namespace Kakoi

theorem digit_value {character : Char} (digit : character.isDigit = true) :
    '0'.toNat ≤ character.toNat ∧ character.toNat - '0'.toNat < 10 := by
  have bounds := Char.isDigit_iff_toNat.mp digit
  have nine : '9'.toNat = '0'.toNat + 9 := rfl
  omega

/-- A digit is the character of its value. -/
theorem digitChar_of_digit {character : Char} (digit : character.isDigit = true) :
    Nat.digitChar (character.toNat - '0'.toNat) = character := by
  obtain ⟨above, small⟩ := digit_value digit
  have zero : '0'.toNat = 48 := rfl
  apply Char.toNat_inj.mp
  rw [Nat.toNat_digitChar_of_lt_ten small]
  omega

/-- Digits behind a number that is not zero are the digits of the number they make. -/
theorem toDigits_ofDigitChars {value : Nat} (positive : 0 < value)
    (digits : text.all Char.isDigit = true) :
    Nat.toDigits 10 (Nat.ofDigitChars 10 text value) = Nat.toDigits 10 value ++ text := by
  induction text generalizing value with
  | nil => simp
  | cons character rest ih =>
    rw [List.all_cons, Bool.and_eq_true] at digits
    have small := (digit_value digits.1).2
    rw [Nat.ofDigitChars_cons, ih (by omega) digits.2,
      ← Nat.toDigits_append_toDigits (by omega) positive small, Nat.toDigits_of_lt_base small,
      digitChar_of_digit digits.1, List.append_assoc, List.singleton_append]

theorem toDigits_unpadded (digits : text.all Char.isDigit = true) (nonempty : text ≠ [])
    (unpadded : text.head? ≠ some '0') :
    Nat.toDigits 10 (Nat.ofDigitChars 10 text 0) = text := by
  cases text with
  | nil => exact absurd rfl nonempty
  | cons character rest =>
    rw [List.all_cons, Bool.and_eq_true] at digits
    obtain ⟨above, small⟩ := digit_value digits.1
    have other : character.toNat ≠ '0'.toNat := fun same =>
      unpadded (congrArg some (Char.toNat_inj.mp same))
    rw [Nat.ofDigitChars_cons, Nat.mul_zero, Nat.zero_add,
      toDigits_ofDigitChars (by omega) digits.2, Nat.toDigits_of_lt_base small,
      digitChar_of_digit digits.1, List.singleton_append]

theorem toDigits_head (value : Nat) (positive : 0 < value) :
    (Nat.toDigits 10 value).head? ≠ some '0' := by
  induction value using Nat.strongRecOn with
  | ind value ih =>
    by_cases small : value < 10
    · rw [Nat.toDigits_of_lt_base small, List.head?_cons, ne_eq, Option.some.injEq]
      intro zero
      have same := congrArg Char.toNat zero
      rw [Nat.toNat_digitChar_of_lt_ten small] at same
      have code : '0'.toNat = 48 := rfl
      omega
    · rw [Nat.toDigits_of_base_le (by omega) (by omega),
        List.head?_append_of_ne_nil _ Nat.toDigits_ne_nil]
      exact ih (value / 10) (by omega) (by omega)

/-- A number is read exactly where it is written as a port other than zero is. -/
theorem portNumber_iff : portNumber text = .ok port ↔
    0 < port.toNat ∧ text = toString port.toNat := by
  constructor
  · intro accepted
    refine ⟨portNumber_pos accepted, ?_⟩
    unfold portNumber at accepted
    split at accepted
    · cases accepted
    next plain =>
      simp only [Bool.or_eq_true, not_or, decide_eq_true_eq, Bool.not_eq_true,
        Bool.not_eq_false'] at plain
      obtain ⟨⟨unpadded, nonempty⟩, digits⟩ := plain
      dsimp only at accepted
      split at accepted
      next small =>
        cases accepted
        rw [UInt16.toNat_ofNat', Nat.mod_eq_of_lt small, Nat.toString_eq_repr]
        apply String.toList_injective
        rw [Nat.toList_repr, toDigits_unpadded digits ?_ unpadded]
        intro none
        simp [String.toList_eq_nil_iff.mp none] at nonempty
      next => cases accepted
  · rintro ⟨positive, rfl⟩
    have characters : (toString port.toNat).toList = Nat.toDigits 10 port.toNat := by
      rw [Nat.toString_eq_repr, Nat.toList_repr]
    have digits : (Nat.toDigits 10 port.toNat).all Char.isDigit = true :=
      List.all_eq_true.mpr fun _ member => Nat.isDigit_of_mem_toDigits (by omega) (by omega) member
    rw [portNumber, characters, if_neg (by simp [digits, toDigits_head _ positive]),
      Nat.ofDigitChars_toDigits (by omega) (by omega), if_pos port.toNat_lt, UInt16.ofNat_toNat]

/-- How an item writes a range: one port, or two with a hyphen between them. -/
inductive Writes : String → PortRange → Prop where
  | one : 0 < port.toNat → Writes (toString port.toNat) (port, port)
  | two : 0 < first.toNat → first.toNat ≤ last.toNat →
      Writes (toString first.toNat ++ "-" ++ toString last.toNat) (first, last)

theorem toList_number (value : Nat) : (toString value).toList = Nat.toDigits 10 value := by
  rw [Nat.toString_eq_repr, Nat.toList_repr]

theorem hyphenless (value : Nat) : '-' ∉ (toString value).toList := by
  rw [toList_number]
  exact not_mem_digits value '-' (by decide)

theorem portRange_of_parts (parts : (splitOnce '-' item).getD (item, item) = (front, back)) :
    portRange item = .ok (first, last) ↔
      portNumber front = .ok first ∧ portNumber back = .ok last ∧ first.toNat ≤ last.toNat := by
  simp only [portRange, parts, Except.bind_eq_ok]
  constructor
  · rintro ⟨start, readStart, finish, readFinish, made⟩
    split at made
    · cases made
    next ordered =>
      cases made
      exact ⟨readStart, readFinish, by
        simpa only [UInt16.lt_iff_toNat_lt, Nat.not_lt] using ordered⟩
  · rintro ⟨readStart, readFinish, ordered⟩
    refine ⟨first, readStart, last, readFinish, if_neg ?_⟩
    simpa only [UInt16.lt_iff_toNat_lt, Nat.not_lt] using ordered

theorem portRange_iff : portRange item = .ok range ↔ Writes item range := by
  obtain ⟨first, last⟩ := range
  constructor
  · intro accepted
    cases parts : splitOnce '-' item with
    | none =>
      have both : (splitOnce '-' item).getD (item, item) = (item, item) := by rw [parts]; rfl
      rw [portRange_of_parts both, portNumber_iff, portNumber_iff] at accepted
      obtain ⟨⟨positive, startText⟩, ⟨-, finishText⟩, -⟩ := accepted
      have same : first = last :=
        UInt16.toNat_inj.mp (number_injective (congrArg utf8 (startText.symm.trans finishText)))
      subst same
      rw [startText]
      exact .one positive
    | some pair =>
      obtain ⟨front, back⟩ := pair
      have both : (splitOnce '-' item).getD (item, item) = (front, back) := by rw [parts]; rfl
      rw [portRange_of_parts both, portNumber_iff, portNumber_iff] at accepted
      obtain ⟨⟨positive, startText⟩, ⟨-, finishText⟩, ordered⟩ := accepted
      have whole : item = toString first.toNat ++ "-" ++ toString last.toNat := by
        apply String.toList_injective
        rw [(splitOnce_eq_some.mp parts).1, startText, finishText]
        simp
      rw [whole]
      exact .two positive ordered
  · intro written
    cases written with
    | one positive =>
      have single := splitOnce_eq_none.mpr (hyphenless first.toNat)
      have both : (splitOnce '-' (toString first.toNat)).getD
          (toString first.toNat, toString first.toNat) =
            (toString first.toNat, toString first.toNat) := by rw [single]; rfl
      rw [portRange_of_parts both, portNumber_iff]
      exact ⟨⟨positive, rfl⟩, ⟨positive, rfl⟩, Nat.le_refl _⟩
    | two positive ordered =>
      have parts : splitOnce '-' (toString first.toNat ++ "-" ++ toString last.toNat) =
          some (toString first.toNat, toString last.toNat) :=
        splitOnce_eq_some.mpr ⟨by simp, hyphenless first.toNat⟩
      have both : (splitOnce '-' (toString first.toNat ++ "-" ++ toString last.toNat)).getD
          (toString first.toNat ++ "-" ++ toString last.toNat,
            toString first.toNat ++ "-" ++ toString last.toNat) =
            (toString first.toNat, toString last.toNat) := by rw [parts]; rfl
      rw [portRange_of_parts both, portNumber_iff, portNumber_iff]
      exact ⟨⟨positive, rfl⟩, ⟨Nat.lt_of_lt_of_le positive ordered, rfl⟩, ordered⟩

/-- The ports some items stand for; `*` alone stands for all. -/
def Denoted (items : List String) (port : UInt16) : Prop :=
  if items = ["*"] then 1 ≤ port.toNat
  else ∃ item ∈ items, ∃ range, Writes item range ∧
    range.1.toNat ≤ port.toNat ∧ port.toNat ≤ range.2.toNat

/-- Some range has the port in it. -/
def Holds (ranges : List PortRange) (port : UInt16) : Prop :=
  ∃ range ∈ ranges, range.1.toNat ≤ port.toNat ∧ port.toNat ≤ range.2.toNat

theorem holds_cons : Holds (last :: ranges) port ↔
    last.1.toNat ≤ port.toNat ∧ port.toNat ≤ last.2.toNat ∨ Holds ranges port :=
  List.exists_mem_cons_iff ..

/-- Joining ranges keeps the ports they hold. -/
theorem mergeRanges_holds (starts : StartsFrom last.1 ranges) :
    Holds (mergeRanges last ranges) port ↔ Holds (last :: ranges) port := by
  induction ranges generalizing last with
  | nil => rfl
  | cons next rest ih =>
    obtain ⟨above, ordered⟩ := List.pairwise_cons.mp starts
    have first : last.1.toNat ≤ next.1.toNat := above next.1 List.mem_cons_self
    rw [mergeRanges]
    split
    next near =>
      have joined := @ih (last.1, if next.2 ≤ last.2 then last.2 else next.2)
        (StartsFrom.weaken ordered first)
      rw [joined, holds_cons, holds_cons, holds_cons, ← or_assoc]
      refine or_congr_left ?_
      dsimp only
      split
      next within =>
        rw [UInt16.le_iff_toNat_le] at within
        omega
      next beyond =>
        rw [UInt16.le_iff_toNat_le] at beyond
        omega
    next => rw [holds_cons, ih ordered, ← holds_cons]

/-- Ranges that are apart stay as they are. -/
theorem mergeRanges_apart
    (apart : (last :: ranges).Pairwise fun left right => left.2.toNat + 1 < right.1.toNat) :
    mergeRanges last ranges = last :: ranges := by
  induction ranges generalizing last with
  | nil => rfl
  | cons next rest ih =>
    have space := List.rel_of_pairwise_cons apart List.mem_cons_self
    rw [mergeRanges, if_neg (by omega), ih apart.of_cons]

/-- Ranges in normal form. -/
structure Apart (ranges : List PortRange) : Prop where
  proper : ∀ range ∈ ranges, range.1.toNat ≤ range.2.toNat
  apart : ranges.Pairwise fun left right => left.2.toNat + 1 < right.1.toNat

section Separate

variable (normal : Apart (last :: ranges))

include normal

theorem Apart.tail : Apart ranges :=
  ⟨(List.forall_mem_cons.mp normal.proper).2, normal.apart.of_cons⟩

/-- What the later ranges hold is beyond the first, and not next to it. -/
theorem Apart.beyond (held : Holds ranges port) : last.2.toNat + 1 < port.toNat := by
  obtain ⟨range, member, above, -⟩ := held
  have space := List.rel_of_pairwise_cons normal.apart member
  omega

theorem Apart.first_le (held : Holds (last :: ranges) port) : last.1.toNat ≤ port.toNat := by
  have proper := normal.proper last List.mem_cons_self
  rcases holds_cons.mp held with ⟨above, -⟩ | later
  · exact above
  · have beyond := normal.beyond later
    omega

theorem Apart.holds_first : Holds (last :: ranges) last.1 :=
  holds_cons.mpr (.inl ⟨Nat.le_refl _, normal.proper last List.mem_cons_self⟩)

/-- The first of two ranges with one start does not end before the other: the port behind its
end would be held on one side only. -/
theorem Apart.end_le {other : PortRange} (start : last.1 = other.1)
    (same : ∀ port, Holds (other :: others) port → Holds (last :: ranges) port) :
    other.2.toNat ≤ last.2.toNat := by
  by_contra longer
  have proper := normal.proper last List.mem_cons_self
  have starts := congrArg UInt16.toNat start
  have bound := other.2.toNat_lt
  have next : (UInt16.ofNat (last.2.toNat + 1)).toNat = last.2.toNat + 1 := by
    rw [UInt16.toNat_ofNat', Nat.mod_eq_of_lt (by omega)]
  have held := same (UInt16.ofNat (last.2.toNat + 1))
    (holds_cons.mpr (.inl (by rw [next]; omega)))
  rcases holds_cons.mp held with ⟨-, below⟩ | later
  · omega
  · have beyond := normal.beyond later
    omega

end Separate

/-- There is one normal form for a set of ports. -/
theorem Apart.unique (left : Apart lefts) (right : Apart rights)
    (same : ∀ port, Holds lefts port ↔ Holds rights port) : lefts = rights := by
  induction lefts generalizing rights with
  | nil =>
    cases rights with
    | nil => rfl
    | cons range rest =>
      obtain ⟨held, member, -⟩ := (same range.1).mpr right.holds_first
      cases member
  | cons first rest ih =>
    cases rights with
    | nil =>
      obtain ⟨held, member, -⟩ := (same first.1).mp left.holds_first
      cases member
    | cons other others =>
      have start : first.1 = other.1 := by
        apply UInt16.toNat_inj.mp
        have below := left.first_le ((same other.1).mpr right.holds_first)
        have above := right.first_le ((same first.1).mp left.holds_first)
        omega
      have finish : first.2 = other.2 := by
        apply UInt16.toNat_inj.mp
        have below := left.end_le start fun port => (same port).mpr
        have above := right.end_le start.symm fun port => (same port).mp
        omega
      have alike : first = other := Prod.ext start finish
      subst alike
      congr 1
      refine ih left.tail right.tail fun port => ?_
      constructor
      · intro held
        have beyond := left.beyond held
        rcases holds_cons.mp ((same port).mp (holds_cons.mpr (.inr held))) with ⟨-, below⟩ | later
        · omega
        · exact later
      · intro held
        have beyond := right.beyond held
        rcases holds_cons.mp ((same port).mpr (holds_cons.mpr (.inr held))) with ⟨-, below⟩ | later
        · omega
        · exact later

section Sets

variable {ports : Ports}

theorem Ports.contains_iff_holds : ports.contains port = true ↔ Holds ports.ranges port :=
  contains_iff

theorem Ports.Valid.normal (valid : ports.Valid) : Apart ports.ranges :=
  ⟨fun range member => (valid.proper range member).2, valid.apart⟩

/-- Ports that are accepted hold what the items stand for. -/
theorem Ports.tryFrom_denoted (accepted : tryFrom items = .ok ports) (port : UInt16) :
    ports.contains port = true ↔ Denoted items port := by
  rw [contains_iff_holds, Denoted]
  obtain ⟨all, rfl⟩ | ⟨other, ranges, first, rest, read, sorted, rfl⟩ :=
    tryFrom_cases accepted
  · have bound := port.toNat_lt
    rw [if_pos all, holds_cons]
    constructor
    · rintro (⟨above, -⟩ | ⟨range, member, -⟩)
      · exact above
      · cases member
    · intro positive
      exact .inl ⟨positive, Nat.le_of_lt_succ bound⟩
  · have members := List.perm_insertionSort PortRange.le ranges
    rw [sorted] at members
    rw [if_neg other, mergeRanges_holds (sorted_starts sorted)]
    constructor
    · rintro ⟨range, member, held⟩
      obtain ⟨item, listed, written⟩ :=
        (Except.mapM_ok read).2 range (members.mem_iff.mp member)
      exact ⟨item, listed, range, portRange_iff.mp written, held⟩
    · rintro ⟨item, listed, range, written, held⟩
      obtain ⟨found, member, same⟩ := (Except.mapM_ok read).1 item listed
      rw [portRange_iff.mpr written] at same
      cases same
      exact ⟨range, members.mem_iff.mpr member, held⟩

/-- The items printed ports are split into at their commas. -/
def Ports.printed (ports : Ports) : List String :=
  (ports.text.toList.splitOn ',').map String.ofList

theorem writes_text (positive : 0 < range.1.toNat) (ordered : range.1.toNat ≤ range.2.toNat) :
    Writes (PortRange.text range) range := by
  obtain ⟨first, last⟩ := range
  unfold PortRange.text
  split
  next single =>
    cases single
    simpa using Writes.one positive
  next => simpa [String.append_assoc] using Writes.two positive ordered

theorem Ports.printed_eq (some : ports.ranges ≠ []) :
    ports.printed = ports.ranges.map PortRange.text := by
  rw [printed, split_text some, List.map_map]
  simp only [Function.comp_def, String.ofList_toList]

theorem mapM_portRange {ranges : List PortRange}
    (proper : ∀ range ∈ ranges, 0 < range.1.toNat ∧ range.1.toNat ≤ range.2.toNat) :
    (ranges.map PortRange.text).mapM portRange = .ok ranges := by
  induction ranges with
  | nil => rfl
  | cons range rest ih =>
    obtain ⟨⟨positive, ordered⟩, properRest⟩ := List.forall_mem_cons.mp proper
    rw [List.map_cons, List.mapM_cons, portRange_iff.mpr (writes_text positive ordered),
      ih properRest]
    rfl

/-- What ports are printed as is accepted again, as the same ports. -/
theorem Ports.tryFrom_printed (valid : ports.Valid) : tryFrom ports.printed = .ok ports := by
  obtain ⟨ranges⟩ := ports
  have read : (ranges.map PortRange.text).mapM portRange = .ok ranges := mapM_portRange valid.proper
  have ordered : ranges.Pairwise PortRange.le := valid.apart.imp_of_mem fun left _ space =>
    .inl (by have proper := (valid.proper _ left).2; omega)
  rw [printed_eq valid.some]
  cases ranges with
  | nil => exact absurd rfl valid.some
  | cons first rest =>
    have written : (first :: rest).map PortRange.text ≠ ["*"] := by
      intro all
      rw [all] at read
      cases read
    rw [tryFrom, if_neg (by simp), if_neg written, read, Except.bind_eq_ok]
    refine ⟨first :: rest, rfl, ?_⟩
    rw [ordered.insertionSort_eq]
    exact congrArg (fun ranges => Except.ok (mk ranges)) (mergeRanges_apart valid.apart)

/-- Accepted ports are in normal form and hold what the items stand for; there is one value for each
set; overlapping is having a port in common; and what is printed is accepted as the same value. -/
theorem ports_stand_for_sets (accepted : Ports.tryFrom items = .ok ports)
    (alsoAccepted : Ports.tryFrom others = .ok other) :
    ports.Valid ∧ (∀ port, ports.contains port = true ↔ Denoted items port) ∧
      ((∀ port, Denoted items port ↔ Denoted others port) ↔ ports = other) ∧
      (ports.overlaps other = true ↔
        ∃ port, ports.contains port = true ∧ other.contains port = true) ∧
      Ports.tryFrom ports.printed = .ok ports := by
  have valid := Ports.tryFrom_valid accepted
  have alsoValid := Ports.tryFrom_valid alsoAccepted
  refine ⟨valid, Ports.tryFrom_denoted accepted, ⟨fun same => ?_, ?_⟩,
    Ports.overlaps_iff valid alsoValid, Ports.tryFrom_printed valid⟩
  · have ranges : ports.ranges = other.ranges := by
      refine valid.normal.unique alsoValid.normal fun port => ?_
      rw [← Ports.contains_iff_holds, ← Ports.contains_iff_holds, Ports.tryFrom_denoted accepted,
        Ports.tryFrom_denoted alsoAccepted, same]
    cases ports
    cases other
    cases ranges
    rfl
  · rintro rfl port
    rw [← Ports.tryFrom_denoted accepted, Ports.tryFrom_denoted alsoAccepted]

theorem web_ports_stand_for_sets :
    Ports.tryFrom ["443", "80-81", "82"] = .ok ⟨[(80, 82), (443, 443)]⟩ ∧
      (∀ port, Ports.contains ⟨[(80, 82), (443, 443)]⟩ port = true ↔
        Denoted ["443", "80-81", "82"] port) ∧
      Ports.tryFrom (Ports.printed ⟨[(80, 82), (443, 443)]⟩) = .ok ⟨[(80, 82), (443, 443)]⟩ := by
  have accepted : Ports.tryFrom ["443", "80-81", "82"] = .ok ⟨[(80, 82), (443, 443)]⟩ := by
    decide +kernel
  obtain ⟨-, denoted, -, -, printed⟩ := ports_stand_for_sets accepted accepted
  exact ⟨accepted, denoted, printed⟩

end Sets

end Kakoi
