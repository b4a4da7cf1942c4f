import Kakoi.Base.Collecting
import Kakoi.Net.Leases
import Mathlib.Data.List.Induction
import Mathlib.Order.Bounds.Basic

/-! What the lease book holds: for each rule and address the latest deadline recorded. -/

namespace Kakoi

open Std (ExtTreeMap)

/-- One call of `record`. -/
structure RecordCall where
  rule : Nat
  address : IpAddr
  deadline : Instant
  now : Instant

def RecordCall.key (call : RecordCall) : Nat × IpAddr := (call.rule, call.address.toCanonical)

/-- The deadlines that were recorded for a rule and an address. -/
def recordedDeadlines (calls : List RecordCall) (key : Nat × IpAddr) : Set Instant :=
  {deadline | ∃ call ∈ calls, call.key = key ∧ call.deadline = deadline}

def InTimeOrder (calls : List RecordCall) : Prop := calls.Pairwise (·.now ≤ ·.now)

namespace LeaseBook

variable {book : LeaseBook} {key : Nat × IpAddr}

def recordCall (book : LeaseBook) (call : RecordCall) : LeaseBook :=
  book.record call.rule call.address call.deadline call.now

def ofCalls (calls : List RecordCall) : LeaseBook := calls.foldl recordCall {}

theorem recordCall_lookup (book : LeaseBook) (call : RecordCall) (key : Nat × IpAddr) :
    (book.recordCall call).deadlines[key]? =
      if call.key = key ∧ call.now < call.deadline then
        some (later call.deadline (book.deadlines[key]?.filter (call.now < ·)))
      else book.deadlines[key]?.filter (call.now < ·) := by
  unfold recordCall record
  by_cases ahead : call.now < call.deadline
  · by_cases same : call.key = key
    · subst same
      simp [ahead, RecordCall.key]
    · have different : ¬ (call.rule, call.address.toCanonical) = key := same
      simp [ahead, same, different, ExtTreeMap.getElem?_alter]
  · simp [ahead]

theorem later_cases (deadline : Instant) (known : Option Instant) :
    (later deadline known = deadline ∨ known = some (later deadline known)) ∧
      deadline ≤ later deadline known ∧ ∀ old, known = some old → old ≤ later deadline known := by
  cases known with
  | none => simp [later]
  | some old =>
    by_cases small : old < deadline
    · simp [later, small, Nat.le_of_lt small]
    · simp [later, small, Nat.le_of_not_lt small]

/-- What is in the book was recorded by the call, or was there, and has not ended. -/
theorem recordCall_found (found : (book.recordCall call).deadlines[key]? = some deadline) :
    (call.key = key ∧ call.deadline = deadline ∨ book.deadlines[key]? = some deadline) ∧
      call.now < deadline := by
  rw [recordCall_lookup] at found
  by_cases recorded : call.key = key ∧ call.now < call.deadline
  · rw [if_pos recorded] at found
    obtain ⟨origin, least, -⟩ :=
      later_cases call.deadline (book.deadlines[key]?.filter (call.now < ·))
    rw [Option.some.inj found] at origin least
    refine ⟨?_, Nat.lt_of_lt_of_le recorded.2 least⟩
    rcases origin with same | known
    · exact .inl ⟨recorded.1, same.symm⟩
    · exact .inr (Option.filter_eq_some_iff.mp known).1
  · rw [if_neg recorded] at found
    obtain ⟨known, ahead⟩ := Option.filter_eq_some_iff.mp found
    exact ⟨.inr known, of_decide_eq_true ahead⟩

/-- What was there stays until it ends, with its deadline or a later one. -/
theorem recordCall_keeps (found : book.deadlines[key]? = some deadline)
    (ahead : call.now < deadline) :
    ∃ known, (book.recordCall call).deadlines[key]? = some known ∧ deadline ≤ known := by
  have kept : book.deadlines[key]?.filter (call.now < ·) = some deadline := by
    simp [found, ahead]
  rw [recordCall_lookup, kept]
  by_cases recorded : call.key = key ∧ call.now < call.deadline
  · rw [if_pos recorded]
    exact ⟨_, rfl, (later_cases call.deadline (some deadline)).2.2 deadline rfl⟩
  · rw [if_neg recorded]
    exact ⟨deadline, rfl, Nat.le_refl deadline⟩

theorem recordCall_records (book : LeaseBook) (ahead : call.now < call.deadline) :
    ∃ known, (book.recordCall call).deadlines[call.key]? = some known ∧ call.deadline ≤ known := by
  rw [recordCall_lookup, if_pos ⟨rfl, ahead⟩]
  exact ⟨_, rfl, (later_cases call.deadline _).2.1⟩

/-- The book after some calls: all it holds was recorded and is ahead of the calls, and it
holds what was recorded and is ahead. -/
structure Keeps (calls : List RecordCall) (book : LeaseBook) : Prop where
  recorded : ∀ (key : Nat × IpAddr) (deadline : Instant), book.deadlines[key]? = some deadline →
    deadline ∈ recordedDeadlines calls key
  ahead : ∀ (key : Nat × IpAddr) (deadline : Instant), book.deadlines[key]? = some deadline →
    ∀ call ∈ calls, call.now < deadline
  held : ∀ call ∈ calls, (∀ other ∈ calls, other.now < call.deadline) →
    ∃ known, book.deadlines[call.key]? = some known ∧ call.deadline ≤ known

theorem Keeps.recordCall (keeps : Keeps calls book)
    (ordered : ∀ earlier ∈ calls, earlier.now ≤ call.now) :
    Keeps (calls ++ [call]) (book.recordCall call) := by
  constructor
  · intro key deadline found
    rcases (recordCall_found found).1 with ⟨same, rfl⟩ | known
    · exact ⟨call, by simp, same, rfl⟩
    · obtain ⟨earlier, member, own⟩ := keeps.recorded key deadline known
      exact ⟨earlier, List.mem_append_left _ member, own⟩
  · intro key deadline found other member
    have later := (recordCall_found found).2
    rcases mem_concat.mp member with earlier | last
    · exact Nat.lt_of_le_of_lt (ordered other earlier) later
    · rwa [last]
  · intro other member ends
    have later : call.now < other.deadline := ends call (by simp)
    rcases mem_concat.mp member with earlier | last
    · obtain ⟨known, found, least⟩ := keeps.held other earlier fun before inside =>
        ends before (List.mem_append_left _ inside)
      obtain ⟨next, after, more⟩ := recordCall_keeps found (Nat.lt_of_lt_of_le later least)
      exact ⟨next, after, Nat.le_trans least more⟩
    · rw [last] at later ⊢
      exact recordCall_records book later

theorem keeps_ofCalls (ordered : InTimeOrder calls) : Keeps calls (ofCalls calls) := by
  induction calls using List.reverseRecOn with
  | nil => constructor <;> simp [ofCalls]
  | append_singleton calls call ih =>
    obtain ⟨before, -, last⟩ := List.pairwise_append.mp ordered
    rw [ofCalls, List.foldl_concat]
    exact (ih before).recordCall fun earlier member => last earlier member call (by simp)

/-- The book holds the latest deadlines recorded, those that are ahead of every call. -/
theorem Keeps.lookup_iff (keeps : Keeps calls book) :
    book.deadlines[key]? = some deadline ↔
      IsGreatest (recordedDeadlines calls key) deadline ∧ ∀ call ∈ calls, call.now < deadline := by
  constructor
  · intro found
    have ahead := keeps.ahead key deadline found
    refine ⟨⟨keeps.recorded key deadline found, ?_⟩, ahead⟩
    rintro other ⟨call, member, rfl, rfl⟩
    by_cases lasting : ∀ later ∈ calls, later.now < call.deadline
    · obtain ⟨known, held, least⟩ := keeps.held call member lasting
      cases held.symm.trans found
      exact least
    · simp only [not_forall, not_lt] at lasting
      obtain ⟨later, inside, ended⟩ := lasting
      exact Nat.le_trans ended (Nat.le_of_lt (ahead later inside))
  · rintro ⟨⟨⟨call, member, rfl, rfl⟩, greatest⟩, ahead⟩
    obtain ⟨known, held, least⟩ := keeps.held call member ahead
    have most := greatest (keeps.recorded call.key known held)
    rw [held, Nat.le_antisymm most least]

theorem mem_active_iff (book : LeaseBook) (now : Instant) (grant : ActiveGrant) :
    grant ∈ book.active now ↔
      book.deadlines[(grant.rule, grant.address)]? = some grant.deadline ∧ now < grant.deadline := by
  unfold active
  constructor
  · intro member
    obtain ⟨⟨⟨rule, address⟩, deadline⟩, listed, rfl⟩ := List.mem_map.mp member
    simpa [ExtTreeMap.mem_toList_iff_getElem?_eq_some] using listed
  · rintro ⟨found, ahead⟩
    refine List.mem_map.mpr ⟨((grant.rule, grant.address), grant.deadline), ?_, rfl⟩
    simp [ExtTreeMap.mem_toList_iff_getElem?_eq_some, found, ahead]

theorem active_distinct (book : LeaseBook) (now : Instant) :
    ((book.active now).map fun grant => (grant.rule, grant.address)).Nodup := by
  rw [active, List.map_map, List.Nodup, List.pairwise_map]
  refine ExtTreeMap.distinct_keys_toList.imp fun {left right} different same => ?_
  have equal : left.1 = right.1 := same
  rw [equal] at different
  exact different Std.ReflCmp.compare_self

/-- An address is permitted exactly while a deadline recorded for it is ahead; the active grants are
these, each once with its latest deadline; and the order of calls made at one time does not show. -/
theorem lease_book_meaning (ordered : InTimeOrder calls) (now : Instant)
    (after : ∀ call ∈ calls, call.now ≤ now) :
    (∀ rule address, (ofCalls calls).permits rule address now = true ↔
        ∃ call ∈ calls, call.rule = rule ∧
          call.address.toCanonical = address.toCanonical ∧ now < call.deadline) ∧
      ((((ofCalls calls).active now).map fun grant => (grant.rule, grant.address)).Nodup ∧
        ∀ grant, grant ∈ (ofCalls calls).active now ↔
          IsGreatest (recordedDeadlines calls (grant.rule, grant.address)) grant.deadline ∧
            now < grant.deadline) ∧
      ∀ others, others.Perm calls → InTimeOrder others → ofCalls others = ofCalls calls := by
  have keeps := keeps_ofCalls ordered
  refine ⟨fun rule address => ?_, ⟨active_distinct _ now, fun grant => ?_⟩, ?_⟩
  · rw [permits, Option.any_eq_true]
    constructor
    · rintro ⟨deadline, found, ahead⟩
      obtain ⟨call, member, same, rfl⟩ := keeps.recorded _ _ found
      exact ⟨call, member, congrArg Prod.fst same, congrArg Prod.snd same,
        of_decide_eq_true ahead⟩
    · rintro ⟨call, member, rfl, canonical, ahead⟩
      obtain ⟨known, held, least⟩ := keeps.held call member fun other inside =>
        Nat.lt_of_le_of_lt (after other inside) ahead
      rw [← canonical]
      exact ⟨known, held, decide_eq_true (Nat.lt_of_lt_of_le ahead least)⟩
  · rw [mem_active_iff, keeps.lookup_iff]
    constructor
    · rintro ⟨⟨greatest, -⟩, ahead⟩
      exact ⟨greatest, ahead⟩
    · rintro ⟨greatest, ahead⟩
      exact ⟨⟨greatest, fun call member => Nat.lt_of_le_of_lt (after call member) ahead⟩, ahead⟩
  · intro others same sorted
    have reordered := keeps_ofCalls sorted
    have alike : (ofCalls others).deadlines = (ofCalls calls).deadlines := by
      refine ExtTreeMap.ext_getElem? fun key => Option.ext fun deadline => ?_
      rw [reordered.lookup_iff, keeps.lookup_iff]
      simp only [recordedDeadlines, same.mem_iff]
    exact congrArg LeaseBook.mk alike

/-- An address permitted by two rules, recorded again with a shorter time as it is mapped. -/
def renewedCalls : List RecordCall :=
  [⟨0, .v4 0xc0000201, 30, 0⟩, ⟨1, .v4 0xc0000201, 60, 0⟩, ⟨0, .v6 0xffffc0000201, 20, 10⟩]

theorem renewed_lease_meaning :
    (ofCalls renewedCalls).permits 0 (.v6 0xffffc0000201) 29 = true ∧
      ¬ (ofCalls renewedCalls).permits 0 (.v4 0xc0000201) 30 = true := by
  have ordered : InTimeOrder renewedCalls := by simp [InTimeOrder, renewedCalls]
  constructor
  · refine ((lease_book_meaning ordered 29 (by simp [renewedCalls])).1 0 _).mpr ?_
    exact ⟨⟨0, .v4 0xc0000201, 30, 0⟩, by simp [renewedCalls], rfl, by decide, by decide⟩
  · rw [(lease_book_meaning ordered 30 (by simp [renewedCalls])).1 0]
    simp [renewedCalls]

end LeaseBook

end Kakoi
