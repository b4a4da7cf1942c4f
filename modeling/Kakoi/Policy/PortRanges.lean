import Kakoi.Policy.Diagnostic
import Kakoi.Policy.Network

/-! Ports as they are written, normalized and printed: ranges sorted, apart and without port zero.
-/

namespace Kakoi

abbrev PortRange := UInt16 × UInt16

/-- What normalization ensures. -/
structure Ports.Valid (ports : Ports) : Prop where
  some : ports.ranges ≠ []
  proper : ∀ range ∈ ports.ranges, 0 < range.1.toNat ∧ range.1.toNat ≤ range.2.toNat
  apart : ports.ranges.Pairwise fun left right => left.2.toNat + 1 < right.1.toNat

def PortRange.contains (range : PortRange) (port : UInt16) : Bool :=
  range.1 ≤ port && port ≤ range.2

def Ports.contains (ports : Ports) (port : UInt16) : Bool :=
  ports.ranges.any fun range => PortRange.contains range port

theorem Ports.valid_single {first last : UInt16} (positive : 0 < first.toNat)
    (ordered : first.toNat ≤ last.toNat) : Ports.Valid ⟨[(first, last)]⟩ :=
  ⟨List.cons_ne_nil _ _, List.forall_mem_singleton.mpr ⟨positive, ordered⟩,
    List.pairwise_singleton _ _⟩

theorem PortRange.contains_iff {range : PortRange} : range.contains port = true ↔
    range.1.toNat ≤ port.toNat ∧ port.toNat ≤ range.2.toNat := by
  simp [contains, UInt16.le_iff_toNat_le]

theorem Ports.contains_iff {ports : Ports} : ports.contains port = true ↔
    ∃ range ∈ ports.ranges, range.1.toNat ≤ port.toNat ∧ port.toNat ≤ range.2.toNat := by
  simp only [contains, List.any_eq_true, PortRange.contains_iff]

section Normalization

/-- A port number without leading zeros. -/
def portNumber (text : String) : Except String UInt16 :=
  if text.toList.head? = some '0' || text.isEmpty || !text.toList.all Char.isDigit then
    .error ("invalid port number " ++ text.quote ++ ": expected 1..65535 without leading zeros")
  else
    let value := Nat.ofDigitChars 10 text.toList 0
    if value < UInt16.size then .ok (UInt16.ofNat value)
    else .error ("port " ++ text.quote ++ " is outside 1..65535")

def portRange (item : String) : Except String PortRange := do
  let (first, last) := (splitOnce '-' item).getD (item, item)
  let first ← portNumber first
  let last ← portNumber last
  if last < first then .error ("port range " ++ item.quote ++ " is reversed")
  else return (first, last)

def PortRange.le (left right : PortRange) : Prop :=
  left.1.toNat < right.1.toNat ∨ left.1 = right.1 ∧ left.2.toNat ≤ right.2.toNat

instance : DecidableRel PortRange.le := fun left right =>
  inferInstanceAs (Decidable (left.1.toNat < right.1.toNat ∨ _))

/-- Joins each range to the one before it, unless there is a port between them. -/
def mergeRanges (last : PortRange) : List PortRange → List PortRange
  | [] => [last]
  | next :: rest =>
    if next.1.toNat ≤ min (last.2.toNat + 1) 65535 then
      mergeRanges (last.1, if next.2 ≤ last.2 then last.2 else next.2) rest
    else last :: mergeRanges next rest

def Ports.tryFrom (items : List String) : Except String Ports :=
  if items.isEmpty then .error "ports must not be empty"
  else if items = ["*"] then .ok ⟨[(1, 65535)]⟩
  else do
    let ranges ← items.mapM portRange
    match ranges.insertionSort PortRange.le with
    | [] => return ⟨[]⟩
    | first :: rest => return ⟨mergeRanges first rest⟩

theorem portNumber_pos (read : portNumber text = .ok port) : 0 < port.toNat := by
  unfold portNumber at read
  split at read
  · cases read
  · rename_i plain
    simp only [Bool.or_eq_true, not_or, decide_eq_true_eq, Bool.not_eq_true,
      Bool.not_eq_false'] at plain
    obtain ⟨⟨unpadded, nonempty⟩, digits⟩ := plain
    dsimp only at read
    split at read
    · rename_i small
      cases read
      cases shape : text.toList with
      | nil => simp [String.toList_eq_nil_iff.mp shape] at nonempty
      | cons first rest =>
        rw [shape] at unpadded digits small
        have digit : first.isDigit = true := by
          have all := List.all_eq_true.mp digits
          exact all first List.mem_cons_self
        have above : '0'.toNat < first.toNat := by
          have bounds := Char.isDigit_iff_toNat.mp digit
          have other : first.toNat ≠ '0'.toNat := fun same =>
            unpadded (congrArg some (Char.toNat_inj.mp same))
          omega
        have grown : Nat.ofDigitChars 10 (first :: rest) 0 =
            10 ^ rest.length * (first.toNat - '0'.toNat) + Nat.ofDigitChars 10 rest 0 := by
          rw [Nat.ofDigitChars_cons, Nat.ofDigitChars_eq_ofDigitChars_zero, Nat.mul_zero,
            Nat.zero_add]
        have positive : 0 < 10 ^ rest.length * (first.toNat - '0'.toNat) :=
          Nat.mul_pos (Nat.pow_pos (by omega)) (by omega)
        rw [UInt16.toNat_ofNat', Nat.mod_eq_of_lt small]
        omega
    · cases read

theorem portRange_proper (read : portRange item = .ok range) :
    0 < range.1.toNat ∧ range.1.toNat ≤ range.2.toNat := by
  simp only [portRange, Except.bind_eq_ok] at read
  obtain ⟨first, readFirst, last, -, made⟩ := read
  split at made
  · cases made
  · rename_i ordered
    cases made
    exact ⟨portNumber_pos readFirst, by
      simpa only [UInt16.lt_iff_toNat_lt, Nat.not_lt] using ordered⟩

variable {ranges : List PortRange}

/-- The ranges in order of their starts, none before `least`. -/
def StartsFrom (least : UInt16) (ranges : List PortRange) : Prop :=
  (least :: ranges.map Prod.fst).Pairwise fun left right => left.toNat ≤ right.toNat

theorem StartsFrom.weaken (starts : StartsFrom least ranges)
    (earlier : sooner.toNat ≤ least.toNat) : StartsFrom sooner ranges := by
  obtain ⟨above, ordered⟩ := List.pairwise_cons.mp starts
  exact List.pairwise_cons.mpr ⟨fun start member => earlier.trans (above start member), ordered⟩

theorem mergeRanges_start (starts : StartsFrom last.1 ranges)
    (member : range ∈ mergeRanges last ranges) : last.1.toNat ≤ range.1.toNat := by
  induction ranges generalizing last with
  | nil => simp [List.mem_singleton.mp member]
  | cons next rest ih =>
    obtain ⟨above, ordered⟩ := List.pairwise_cons.mp starts
    have first : last.1.toNat ≤ next.1.toNat := above next.1 List.mem_cons_self
    rw [mergeRanges] at member
    split at member
    · exact @ih (last.1, if next.2 ≤ last.2 then last.2 else next.2)
        (StartsFrom.weaken ordered first) member
    · rcases List.mem_cons.mp member with rfl | later
      · exact Nat.le_refl _
      · exact first.trans (ih ordered later)

theorem mergeRanges_valid (starts : StartsFrom last.1 ranges)
    (proper : ∀ range ∈ last :: ranges, 0 < range.1.toNat ∧ range.1.toNat ≤ range.2.toNat) :
    Ports.Valid ⟨mergeRanges last ranges⟩ := by
  induction ranges generalizing last with
  | nil => exact ⟨by simp [mergeRanges], proper, List.pairwise_singleton _ _⟩
  | cons next rest ih =>
    obtain ⟨above, ordered⟩ := List.pairwise_cons.mp starts
    have first : last.1.toNat ≤ next.1.toNat := above next.1 List.mem_cons_self
    have properLast := proper last List.mem_cons_self
    have properNext := proper next (List.mem_cons_of_mem _ List.mem_cons_self)
    have properRest : ∀ range ∈ rest, 0 < range.1.toNat ∧ range.1.toNat ≤ range.2.toNat :=
      fun range member => proper range (List.mem_cons_of_mem _ (List.mem_cons_of_mem _ member))
    rw [mergeRanges]
    split
    · refine ih (StartsFrom.weaken ordered first) ?_
      rintro range (_ | ⟨_, member⟩)
      · refine ⟨properLast.1, properLast.2.trans ?_⟩
        dsimp only
        split
        · exact Nat.le_refl _
        · rename_i longer
          exact (Nat.le_total _ _).resolve_right fun below =>
            longer (UInt16.le_iff_toNat_le.mpr below)
      · exact properRest range member
    · rename_i gap
      have after : last.2.toNat + 1 < next.1.toNat := by
        have bound := next.1.toNat_lt
        omega
      obtain ⟨some, properMerged, apart⟩ := ih ordered (List.forall_mem_cons.mpr
        ⟨properNext, properRest⟩)
      refine ⟨List.cons_ne_nil _ _, List.forall_mem_cons.mpr ⟨properLast, properMerged⟩,
        List.pairwise_cons.mpr ⟨fun range member => ?_, apart⟩⟩
      exact after.trans_le (mergeRanges_start ordered member)

instance : Std.Total PortRange.le where
  total left right := by
    rcases Nat.lt_trichotomy left.1.toNat right.1.toNat with less | same | more
    · exact .inl (.inl less)
    · have starts := UInt16.toNat_inj.mp same
      rcases Nat.le_total left.2.toNat right.2.toNat with below | above
      · exact .inl (.inr ⟨starts, below⟩)
      · exact .inr (.inr ⟨starts.symm, above⟩)
    · exact .inr (.inl more)

instance : IsTrans PortRange PortRange.le where
  trans left middle right := by
    rintro (less | ⟨same, below⟩) (later | ⟨alike, above⟩)
    · exact .inl (less.trans later)
    · exact .inl (alike ▸ less)
    · exact .inl (same ▸ later)
    · exact .inr ⟨same.trans alike, below.trans above⟩

theorem PortRange.le.starts {left right : PortRange} (ordered : PortRange.le left right) :
    left.1.toNat ≤ right.1.toNat := by
  rcases ordered with less | ⟨same, -⟩
  · exact less.le
  · exact (congrArg UInt16.toNat same).le

theorem sorted_starts (sorted : ranges.insertionSort PortRange.le = first :: rest) :
    StartsFrom first.1 rest := by
  have ordered := List.pairwise_insertionSort PortRange.le ranges
  rw [sorted] at ordered
  exact List.pairwise_map.mpr (ordered.imp fun before => before.starts)

/-- What is accepted is all ports, or the items joined in their order. -/
theorem Ports.tryFrom_cases (accepted : tryFrom items = .ok ports) :
    items = ["*"] ∧ ports = ⟨[(1, 65535)]⟩ ∨
      items ≠ ["*"] ∧ ∃ ranges first rest, items.mapM portRange = .ok ranges ∧
        ranges.insertionSort PortRange.le = first :: rest ∧ ports = ⟨mergeRanges first rest⟩ := by
  unfold tryFrom at accepted
  split at accepted
  · cases accepted
  · rename_i nonempty
    split at accepted
    next all =>
      cases accepted
      exact .inl ⟨all, rfl⟩
    next other =>
      obtain ⟨ranges, read, made⟩ := Except.bind_eq_ok.mp accepted
      have members := List.perm_insertionSort PortRange.le ranges
      refine .inr ⟨other, ?_⟩
      split at made
      next none =>
        rw [none, List.nil_perm] at members
        cases items with
        | nil => exact absurd rfl nonempty
        | cons item rest =>
          obtain ⟨range, member, -⟩ := (Except.mapM_ok read).1 item List.mem_cons_self
          simp [members] at member
      next first rest shape =>
        cases made
        exact ⟨ranges, first, rest, read, shape, rfl⟩

/-- Whatever is written, ports that are accepted are normalized. -/
theorem Ports.tryFrom_valid (accepted : tryFrom items = .ok ports) : ports.Valid := by
  obtain ⟨-, rfl⟩ | ⟨-, ranges, first, rest, read, sorted, rfl⟩ := tryFrom_cases accepted
  · exact valid_single (by decide) (by decide)
  · have members := List.perm_insertionSort PortRange.le ranges
    rw [sorted] at members
    refine mergeRanges_valid (sorted_starts sorted) fun range member => ?_
    obtain ⟨item, -, written⟩ := (Except.mapM_ok read).2 range (members.mem_iff.mp member)
    exact portRange_proper written

end Normalization

/-- Two sorted lists of ranges, walked side by side, meet exactly when some port is in both. -/
theorem overlappingRanges_iff
    (properLeft : ∀ range ∈ lefts, range.1.toNat ≤ range.2.toNat)
    (properRight : ∀ range ∈ rights, range.1.toNat ≤ range.2.toNat)
    (sortedLeft : lefts.Pairwise fun left right => left.2.toNat < right.1.toNat)
    (sortedRight : rights.Pairwise fun left right => left.2.toNat < right.1.toNat) :
    overlappingRanges lefts rights = true ↔ ∃ port : UInt16,
      (∃ range ∈ lefts, range.1.toNat ≤ port.toNat ∧ port.toNat ≤ range.2.toNat) ∧
      ∃ range ∈ rights, range.1.toNat ≤ port.toNat ∧ port.toNat ≤ range.2.toNat := by
  induction lefts, rights using overlappingRanges.induct with
  | case1 left lefts right rights before ih =>
    -- nothing on the right reaches back to the first range on the left
    rw [overlappingRanges, if_pos before, ih (List.forall_mem_cons.mp properLeft).2 properRight
      sortedLeft.of_cons sortedRight]
    refine exists_congr fun port => and_congr_left fun ⟨range, member, above, _⟩ => ?_
    have beyond : left.2.toNat < port.toNat := by
      have gap := UInt16.lt_iff_toNat_lt.mp before
      rcases List.mem_cons.mp member with rfl | later
      · omega
      · have further := List.rel_of_pairwise_cons sortedRight later
        have proper := properRight right List.mem_cons_self
        omega
    rw [List.exists_mem_cons_iff]
    exact ⟨.inr, fun inside => inside.resolve_left fun within => by omega⟩
  | case2 left lefts right rights apart before ih =>
    rw [overlappingRanges, if_neg apart, if_pos before, ih properLeft
      (List.forall_mem_cons.mp properRight).2 sortedLeft sortedRight.of_cons]
    refine exists_congr fun port => and_congr_right fun ⟨range, member, above, _⟩ => ?_
    have beyond : right.2.toNat < port.toNat := by
      have gap := UInt16.lt_iff_toNat_lt.mp before
      rcases List.mem_cons.mp member with rfl | later
      · omega
      · have further := List.rel_of_pairwise_cons sortedLeft later
        have proper := properLeft left List.mem_cons_self
        omega
    rw [List.exists_mem_cons_iff]
    exact ⟨.inr, fun inside => inside.resolve_left fun within => by omega⟩
  | case3 left lefts right rights notBefore notAfter =>
    rw [overlappingRanges, if_neg notBefore, if_neg notAfter]
    rw [UInt16.lt_iff_toNat_lt] at notBefore notAfter
    have properL := properLeft left List.mem_cons_self
    have properR := properRight right List.mem_cons_self
    refine ⟨fun _ => ?_, fun _ => rfl⟩
    rcases Nat.le_total left.1.toNat right.1.toNat with earlier | later
    · exact ⟨right.1, ⟨left, List.mem_cons_self, earlier, by omega⟩, right, List.mem_cons_self,
        Nat.le_refl _, properR⟩
    · exact ⟨left.1, ⟨left, List.mem_cons_self, Nat.le_refl _, properL⟩, right,
        List.mem_cons_self, later, by omega⟩
  | case4 lefts rights short =>
    have empty : lefts = [] ∨ rights = [] := by
      cases lefts with
      | nil => exact .inl rfl
      | cons left lefts =>
        cases rights with
        | nil => exact .inr rfl
        | cons right rights => exact (short left lefts right rights rfl rfl).elim
    rcases empty with rfl | rfl <;> simp [overlappingRanges]

theorem Ports.Valid.sorted {ports : Ports} (valid : ports.Valid) :
    ports.ranges.Pairwise fun left right => left.2.toNat < right.1.toNat :=
  valid.apart.imp fun gap => by omega

theorem Ports.overlaps_iff {left right : Ports} (validLeft : left.Valid) (validRight : right.Valid) :
    left.overlaps right = true ↔ ∃ port, left.contains port = true ∧ right.contains port = true := by
  simp only [overlaps, contains_iff]
  exact overlappingRanges_iff (fun range member => (validLeft.proper range member).2)
    (fun range member => (validRight.proper range member).2) validLeft.sorted validRight.sorted

/-- One range as it is printed. -/
def PortRange.text (range : PortRange) : String :=
  toString range.1.toNat ++ if range.1 = range.2 then "" else "-" ++ toString range.2.toNat

def Ports.text (ports : Ports) : String := ",".intercalate (ports.ranges.map PortRange.text)

/-- A decimal number, as any reader of digits takes it. -/
def readNumber (text : List Char) : Option Nat :=
  if text.isEmpty || !text.all Char.isDigit then none else some (Nat.ofDigitChars 10 text 0)

/-- A port, or two with a hyphen between them. -/
def readRange (text : List Char) : Option (Nat × Nat) :=
  match text.splitOn '-' with
  | [single] => (readNumber single).map fun port => (port, port)
  | [first, last] => do return (← readNumber first, ← readNumber last)
  | _ => none

/-- The elements of a set of ports, separated by commas. -/
def readPorts (text : String) : Option (List (Nat × Nat)) := (text.toList.splitOn ',').mapM readRange

theorem not_mem_digits (value : Nat) (character : Char) (other : character.isDigit = false) :
    character ∉ Nat.toDigits 10 value := by
  intro member
  have digit := Nat.isDigit_of_mem_toDigits (by omega) (by omega) member
  rw [other] at digit
  cases digit

theorem readNumber_digits (value : Nat) : readNumber (Nat.toDigits 10 value) = some value := by
  have digits : (Nat.toDigits 10 value).all Char.isDigit = true :=
    List.all_eq_true.mpr fun _ member => Nat.isDigit_of_mem_toDigits (by omega) (by omega) member
  have nonempty : (Nat.toDigits 10 value).isEmpty = false :=
    List.isEmpty_eq_false_iff.mpr Nat.toDigits_ne_nil
  rw [readNumber, if_neg (by simp [digits, nonempty]),
    Nat.ofDigitChars_toDigits (by omega) (by omega)]

theorem PortRange.toList_text (range : PortRange) : range.text.toList =
    ['-'].intercalate (if range.1 = range.2 then [Nat.toDigits 10 range.1.toNat]
      else [Nat.toDigits 10 range.1.toNat, Nat.toDigits 10 range.2.toNat]) := by
  unfold text
  split
  · simp
  · simp [List.intercalate]

theorem readRange_text (range : PortRange) :
    readRange (PortRange.text range).toList = some (range.1.toNat, range.2.toNat) := by
  have plain : ∀ value : Nat, '-' ∉ Nat.toDigits 10 value :=
    fun value => not_mem_digits value '-' (by decide)
  rw [PortRange.toList_text, readRange]
  by_cases single : range.1 = range.2
  · rw [if_pos single, List.splitOn_intercalate '-' (by simpa using plain _) (by simp)]
    simp [readNumber_digits, single]
  · rw [if_neg single, List.splitOn_intercalate '-' (by simp [plain]) (by simp)]
    simp [readNumber_digits]

/-- Printed ports are split at their commas into the ranges they are. -/
theorem Ports.split_text {ports : Ports} (some : ports.ranges ≠ []) :
    ports.text.toList.splitOn ',' = ports.ranges.map fun range => (PortRange.text range).toList := by
  have plain : ∀ part ∈ (ports.ranges.map PortRange.text).map String.toList, ',' ∉ part := by
    intro part member
    obtain ⟨text, inside, rfl⟩ := List.mem_map.mp member
    obtain ⟨range, -, rfl⟩ := List.mem_map.mp inside
    have digits : ∀ value : Nat, ',' ∉ Nat.toDigits 10 value :=
      fun value => not_mem_digits value ',' (by decide)
    rw [PortRange.toList_text]
    split <;> simp [List.intercalate, digits]
  have comma : ",".toList = [','] := rfl
  rw [text, String.toList_intercalate, comma,
    List.splitOn_intercalate ',' plain (by simpa using some), List.map_map]
  rfl

/-- Printed ports are read back as the ranges they are. -/
theorem readPorts_text {ports : Ports} (some : ports.ranges ≠ []) : readPorts ports.text =
    .some (ports.ranges.map fun range => (range.1.toNat, range.2.toNat)) := by
  rw [readPorts, Ports.split_text some, List.mapM_map]
  simp only [Function.comp_def, readRange_text]
  exact List.mapM_pure

end Kakoi
