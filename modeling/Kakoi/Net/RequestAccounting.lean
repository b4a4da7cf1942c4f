import Kakoi.Base.Collecting
import Kakoi.Net.PlainLibrary
import Kakoi.Net.Requests
import Kakoi.Policy.Diagnostic
import Mathlib.Algebra.Order.Group.Multiset

/-! Every recipient is in exactly one place: handed back, replied to, or waiting. -/

namespace Kakoi

namespace ResolutionPool

variable [DecidableEq κ] {pool : ResolutionPool κ ω}

/-- The resolutions of the pool, by id and key. -/
def slots (pool : ResolutionPool κ ω) : List (Nat × κ) :=
  pool.pending.map fun entry => (entry.2.id, entry.1)

/-- Everyone who waits. -/
def waiting (pool : ResolutionPool κ ω) : List ω := pool.pending.flatMap (·.2.waiters)

/-- One entry a key and an id, ids used up, and as many waiters as are allowed. -/
structure WellFormed (pool : ResolutionPool κ ω) : Prop where
  keys : (pool.pending.map Prod.fst).Nodup
  ids : (pool.pending.map (·.2.id)).Nodup
  used : ∀ entry ∈ pool.pending, entry.2.id < pool.nextId
  room : pool.pending.length ≤ pool.maxResolutions
  waiters : ∀ entry ∈ pool.pending,
    1 ≤ entry.2.waiters.length ∧ entry.2.waiters.length ≤ pool.maxWaiters

/-- The pool after one more waits for a resolution that runs. -/
def joined (pool : ResolutionPool κ ω) (key : κ) (waiter : ω) : ResolutionPool κ ω :=
  { pool with pending := pool.pending.map (addWaiter key waiter) }

/-- The pool after a resolution was started. -/
def started (pool : ResolutionPool κ ω) (key : κ) (waiter : ω) : ResolutionPool κ ω :=
  { pool with
    pending := pool.pending ++ [(key, { id := pool.nextId, waiters := [waiter] })]
    nextId := pool.nextId + 1 }

theorem admit_cases (pool : ResolutionPool κ ω) (key : κ) (waiter : ω) :
    (∃ error, pool.admitWaiter key waiter = (.error (error, waiter), pool)) ∨
      (∃ entry ∈ pool.pending, entry.1 = key ∧ entry.2.waiters.length ≠ pool.maxWaiters ∧
        pool.admitWaiter key waiter = (.ok (.join entry.2.id), pool.joined key waiter)) ∨
      ((∀ entry ∈ pool.pending, entry.1 ≠ key) ∧ pool.pending.length ≠ pool.maxResolutions ∧
        pool.admitWaiter key waiter = (.ok (.start pool.nextId), pool.started key waiter)) := by
  unfold admitWaiter
  split
  · rename_i other resolution found
    have same : other = key := by simpa using List.find?_some found
    by_cases full : resolution.waiters.length = pool.maxWaiters
    · exact .inl ⟨.waiters, if_pos full⟩
    · exact .inr (.inl ⟨(other, resolution), List.mem_of_find?_eq_some found, same, full,
        if_neg full⟩)
  · rename_i absent
    by_cases full : pool.pending.length = pool.maxResolutions
    · exact .inl ⟨.resolutions, if_pos full⟩
    · rw [if_neg full]
      by_cases numbered : pool.nextId + 1 < u64Limit
      · refine .inr (.inr ⟨fun entry member => ?_, full, if_pos numbered⟩)
        simpa using List.find?_eq_none.mp absent entry member
      · exact .inl ⟨.idsExhausted, if_neg numbered⟩

theorem addWaiter_key (entry : κ × Pending ω) : (addWaiter key waiter entry).1 = entry.1 := by
  unfold addWaiter
  split <;> rfl

theorem addWaiter_id (entry : κ × Pending ω) : (addWaiter key waiter entry).2.id = entry.2.id := by
  unfold addWaiter
  split <;> rfl

theorem slots_joined : (pool.joined key waiter).slots = pool.slots := by
  simp [slots, joined, addWaiter_key, addWaiter_id, Function.comp_def]

omit [DecidableEq κ] in
/-- An entry is alone under its key and with its id. -/
theorem WellFormed.split (formed : pool.WellFormed) (member : entry ∈ pool.pending) :
    ∃ front back, pool.pending = front ++ entry :: back ∧
      ∀ other ∈ front ++ back, other.1 ≠ entry.1 ∧ other.2.id ≠ entry.2.id := by
  obtain ⟨front, back, split⟩ := List.append_of_mem member
  have keys := formed.keys
  have ids := formed.ids
  rw [split] at keys ids
  rw [List.map_append, List.map_cons, List.nodup_middle, List.nodup_cons, ← List.map_append]
    at keys ids
  exact ⟨front, back, split, fun other inside =>
    ⟨fun same => keys.1 (List.mem_map.mpr ⟨other, inside, same⟩),
      fun same => ids.1 (List.mem_map.mpr ⟨other, inside, same⟩)⟩⟩

theorem map_addWaiter_others {entries : List (κ × Pending ω)}
    (others : ∀ other ∈ entries, other.1 ≠ key) : entries.map (addWaiter key waiter) = entries := by
  refine (List.map_congr_left fun other inside => ?_).trans (List.map_id entries)
  exact if_neg (others other inside)

theorem WellFormed.joined (formed : pool.WellFormed) (member : entry ∈ pool.pending)
    (free : entry.2.waiters.length ≠ pool.maxWaiters) :
    (pool.joined entry.1 waiter).WellFormed := by
  refine ⟨?_, ?_, ?_, ?_, ?_⟩
  · simpa [ResolutionPool.joined, Function.comp_def, addWaiter_key] using formed.keys
  · simpa [ResolutionPool.joined, Function.comp_def, addWaiter_id] using formed.ids
  · intro after found
    obtain ⟨before, inside, rfl⟩ := List.mem_map.mp found
    rw [addWaiter_id]
    exact formed.used before inside
  · simpa [ResolutionPool.joined] using formed.room
  · intro after found
    obtain ⟨before, inside, rfl⟩ := List.mem_map.mp found
    obtain ⟨least, most⟩ := formed.waiters before inside
    by_cases same : before.1 = entry.1
    · cases List.inj_on_of_nodup_map formed.keys inside member same
      have room : entry.2.waiters.length + 1 ≤ pool.maxWaiters := by omega
      simpa [addWaiter, ResolutionPool.joined] using room
    · simpa [addWaiter, same, ResolutionPool.joined] using And.intro least most

theorem waiting_joined (formed : pool.WellFormed) (member : entry ∈ pool.pending) :
    (pool.joined entry.1 waiter).waiting.Perm (waiter :: pool.waiting) := by
  obtain ⟨front, back, split, others⟩ := formed.split member
  have early : front.map (addWaiter entry.1 waiter) = front :=
    map_addWaiter_others fun other inside => (others other (by simp [inside])).1
  have late : back.map (addWaiter entry.1 waiter) = back :=
    map_addWaiter_others fun other inside => (others other (by simp [inside])).1
  have after : (pool.joined entry.1 waiter).waiting =
      front.flatMap (·.2.waiters) ++ entry.2.waiters ++ waiter :: back.flatMap (·.2.waiters) := by
    simp [waiting, ResolutionPool.joined, split, early, late, addWaiter]
  have before : pool.waiting =
      front.flatMap (·.2.waiters) ++ entry.2.waiters ++ back.flatMap (·.2.waiters) := by
    simp [waiting, split]
  rw [after, before]
  exact List.perm_middle

omit [DecidableEq κ] in
theorem slots_started : (pool.started key waiter).slots = pool.slots ++ [(pool.nextId, key)] := by
  simp [slots, started]

omit [DecidableEq κ] in
theorem waiting_started : (pool.started key waiter).waiting = pool.waiting ++ [waiter] := by
  simp [waiting, started]

omit [DecidableEq κ] in
theorem WellFormed.started (formed : pool.WellFormed) (limit : 1 ≤ pool.maxWaiters)
    (absent : ∀ entry ∈ pool.pending, entry.1 ≠ key)
    (free : pool.pending.length ≠ pool.maxResolutions) :
    (pool.started key waiter).WellFormed := by
  refine ⟨?_, ?_, ?_, ?_, ?_⟩
  · simp only [ResolutionPool.started, List.map_append, List.map_singleton]
    refine formed.keys.append (List.nodup_singleton _) ?_
    rw [List.disjoint_singleton]
    intro member
    obtain ⟨entry, inside, same⟩ := List.mem_map.mp member
    exact absent entry inside same
  · simp only [ResolutionPool.started, List.map_append, List.map_singleton]
    refine formed.ids.append (List.nodup_singleton _) ?_
    rw [List.disjoint_singleton]
    intro member
    obtain ⟨entry, inside, same⟩ := List.mem_map.mp member
    exact absurd same (Nat.ne_of_lt (formed.used entry inside))
  · intro entry member
    rcases mem_concat.mp member with earlier | rfl
    · exact Nat.lt_succ_of_lt (formed.used entry earlier)
    · exact Nat.lt_succ_self _
  · have room := formed.room
    simp only [ResolutionPool.started, List.length_append, List.length_singleton]
    omega
  · intro entry member
    rcases mem_concat.mp member with earlier | rfl
    · exact formed.waiters entry earlier
    · exact ⟨Nat.le_refl _, limit⟩

/-- Either nothing moves, or the one entry with the id moves to a key that is not taken. -/
theorem rekey_cases (pool : ResolutionPool κ ω) (number : Nat) (key : κ) :
    (pool.rekey number key = pool ∧
        ((∃ entry ∈ pool.pending, entry.1 = key) ∨ ∀ entry ∈ pool.pending, entry.2.id ≠ number)) ∨
      ∃ moved ∈ pool.pending, moved.2.id = number ∧ (∀ entry ∈ pool.pending, entry.1 ≠ key) ∧
        pool.rekey number key =
          { pool with
            pending := pool.pending.map fun entry =>
              if entry.1 = moved.1 then (key, entry.2) else entry } := by
  unfold rekey
  by_cases taken : pool.pending.any (·.1 = key)
  · obtain ⟨entry, member, same⟩ := List.any_eq_true.mp taken
    exact .inl ⟨if_pos taken, .inl ⟨entry, member, by simpa using same⟩⟩
  · rw [if_neg taken]
    have free : ∀ entry ∈ pool.pending, entry.1 ≠ key := fun entry member same =>
      taken (List.any_eq_true.mpr ⟨entry, member, by simp [same]⟩)
    split
    · rename_i absent
      exact .inl ⟨rfl, .inr fun entry member => by
        simpa using List.find?_eq_none.mp absent entry member⟩
    · rename_i old resolution found
      exact .inr ⟨(old, resolution), List.mem_of_find?_eq_some found,
        by simpa using List.find?_some found, free, rfl⟩

theorem slots_rekey (formed : pool.WellFormed)
    (own : ∀ entry ∈ pool.pending, entry.1 = key → entry.2.id = number) :
    (pool.rekey number key).slots =
      pool.slots.map fun slot => if slot.1 = number then (number, key) else slot := by
  obtain ⟨same, kept⟩ | ⟨moved, member, rfl, free, after⟩ := rekey_cases pool number key
  · rw [same, slots, List.map_map]
    refine List.map_congr_left fun entry inside => ?_
    by_cases found : entry.2.id = number
    · rcases kept with ⟨other, listed, rfl⟩ | absent
      · have equal := List.inj_on_of_nodup_map formed.ids inside listed
          (found.trans (own other listed rfl).symm)
        subst equal
        simp [found]
      · exact absurd found (absent entry inside)
    · simp [found]
  · rw [after, slots, slots, List.map_map, List.map_map]
    refine List.map_congr_left fun entry inside => ?_
    by_cases same : entry.1 = moved.1
    · cases List.inj_on_of_nodup_map formed.keys inside member same
      simp
    · have different : entry.2.id ≠ moved.2.id := fun equal =>
        same (congrArg Prod.fst (List.inj_on_of_nodup_map formed.ids inside member equal))
      simp [same, different]

theorem WellFormed.rekey (formed : pool.WellFormed) : (pool.rekey number key).WellFormed := by
  obtain ⟨same, -⟩ | ⟨moved, member, rfl, free, after⟩ := rekey_cases pool number key
  · rwa [same]
  · rw [after]
    have kept : ∀ entry : κ × Pending ω,
        (if entry.1 = moved.1 then (key, entry.2) else entry).2 = entry.2 := by
      intro entry
      split <;> rfl
    refine ⟨?_, ?_, ?_, ?_, ?_⟩
    · rw [List.map_map]
      refine List.Nodup.map_on (fun left first right second equal => ?_) formed.keys.of_map
      by_cases old : left.1 = moved.1
      · by_cases other : right.1 = moved.1
        · exact List.inj_on_of_nodup_map formed.keys first second (old.trans other.symm)
        · simp [old, other] at equal
          exact absurd equal.symm (free right second)
      · by_cases other : right.1 = moved.1
        · simp [old, other] at equal
          exact absurd equal (free left first)
        · simp only [Function.comp_apply, old, other, if_false] at equal
          exact List.inj_on_of_nodup_map formed.keys first second equal
    · simpa [Function.comp_def, kept] using formed.ids
    · intro entry inside
      obtain ⟨before, listed, rfl⟩ := List.mem_map.mp inside
      rw [kept]
      exact formed.used before listed
    · simpa using formed.room
    · intro entry inside
      obtain ⟨before, listed, rfl⟩ := List.mem_map.mp inside
      rw [kept]
      exact formed.waiters before listed

theorem waiting_rekey : (pool.rekey number key).waiting = pool.waiting := by
  obtain ⟨same, -⟩ | ⟨moved, -, -, -, after⟩ := rekey_cases pool number key
  · rw [same]
  · rw [after, waiting, waiting, List.flatMap_map]
    refine List.flatMap_congr fun entry _ => ?_
    split <;> rfl

theorem rekey_limits (pool : ResolutionPool κ ω) (number : Nat) (key : κ) :
    (pool.rekey number key).nextId = pool.nextId ∧
    (pool.rekey number key).maxWaiters = pool.maxWaiters ∧
    (pool.rekey number key).maxResolutions = pool.maxResolutions := by
  obtain ⟨same, -⟩ | ⟨moved, -, -, -, after⟩ := rekey_cases pool number key
  · rw [same]
    exact ⟨rfl, rfl, rfl⟩
  · rw [after]
    exact ⟨rfl, rfl, rfl⟩

omit [DecidableEq κ] in
theorem WellFormed.complete (formed : pool.WellFormed) : (pool.complete number).2.WellFormed := by
  have sublist : (pool.complete number).2.pending.Sublist pool.pending := List.filter_sublist
  exact ⟨formed.keys.sublist (sublist.map _), formed.ids.sublist (sublist.map _),
    fun entry member => formed.used entry (sublist.subset member),
    sublist.length_le.trans formed.room,
    fun entry member => formed.waiters entry (sublist.subset member)⟩

omit [DecidableEq κ] in
theorem slots_complete :
    (pool.complete number).2.slots = pool.slots.filter (·.1 ≠ number) := by
  simp [slots, complete, List.filter_map, Function.comp_def]

omit [DecidableEq κ] in
/-- Those who waited for the resolution are given back, the others still wait. -/
theorem waiting_complete (formed : pool.WellFormed) (member : entry ∈ pool.pending) :
    pool.waiting.Perm ((pool.complete entry.2.id).1 ++ (pool.complete entry.2.id).2.waiting) := by
  obtain ⟨front, back, split, others⟩ := formed.split member
  have keeps : ∀ side : List (κ × Pending ω), (∀ other ∈ side, other ∈ front ++ back) →
      side.filter (·.2.id = entry.2.id) = [] ∧ side.filter (·.2.id ≠ entry.2.id) = side := by
    intro side included
    constructor
    · exact List.filter_eq_nil_iff.mpr fun other inside => by
        simpa using (others other (included other inside)).2
    · exact List.filter_eq_self.mpr fun other inside => by
        simpa using (others other (included other inside)).2
  obtain ⟨early, early'⟩ := keeps front fun other inside => by simp [inside]
  obtain ⟨late, late'⟩ := keeps back fun other inside => by simp [inside]
  have taken : (pool.complete entry.2.id).1 = entry.2.waiters := by
    simp [complete, split, early, late]
  have left : (pool.complete entry.2.id).2.waiting =
      front.flatMap (·.2.waiters) ++ back.flatMap (·.2.waiters) := by
    simp only [complete, waiting, split, List.filter_append, List.filter_cons, early', late']
    simp
  rw [taken, left, waiting, split, List.flatMap_append, List.flatMap_cons]
  exact List.perm_append_comm_assoc ..

end ResolutionPool

/-- What the owner of the requests was given and gave out so far. -/
structure Ledger (ω : Type) where
  given : List ω := []
  handedBack : List ω := []
  replied : List ω := []
  started : List (Nat × Instant) := []

inductive RequestOp (ω : Type) where
  | accept (wire : Wire) (recipient : ω) (now : Instant)
  | complete (id : Nat) (answer : Except DnsError Wire) (now : Instant)
  | expire (now : Instant)
  | rekey (id : Nat)
  | advanceGeneration

/-- The recipient an accepted or refused request gives back at once. -/
def handedBack : Except (DnsError × ω) (AcceptedRequest ω) → List ω
  | .error (_, recipient) => [recipient]
  | .ok (.answer reply) => [reply.recipient]
  | .ok _ => []

/-- The resolution an accepted request starts, with its deadline. -/
def startedBy : Except (DnsError × ω) (AcceptedRequest ω) → List (Nat × Instant)
  | .ok (.start task) => [(task.id, task.deadline)]
  | _ => []

namespace DnsRequests

attribute [local simp] withFailureHold

variable {requests : DnsRequests hickory ω}

def perform (idna : Idna) (state : DnsRequests hickory ω × Ledger ω) :
    RequestOp ω → DnsRequests hickory ω × Ledger ω
  | .accept wire recipient now =>
    let (result, requests) := state.1.accept idna wire recipient now
    (requests,
      { state.2 with
        given := state.2.given ++ [recipient]
        handedBack := state.2.handedBack ++ handedBack result
        started := state.2.started ++ startedBy result })
  | .complete id answer now =>
    let (replies, requests) := state.1.complete id answer now
    (requests, { state.2 with replied := state.2.replied ++ replies.map DnsReply.recipient })
  | .expire now =>
    let (replies, requests) := state.1.expire now
    (requests, { state.2 with replied := state.2.replied ++ replies.map DnsReply.recipient })
  | .rekey id => (state.1.rekey id, state.2)
  | .advanceGeneration => (state.1.advanceGeneration, state.2)

def run (idna : Idna) (requests : DnsRequests hickory ω) (ops : List (RequestOp ω)) :
    DnsRequests hickory ω × Ledger ω :=
  ops.foldl (perform idna) (requests, {})

/-- Those who wait for a running resolution. -/
def waiting (requests : DnsRequests hickory ω) : List ω :=
  requests.pool.waiting.map Waiter.recipient

/-- The running resolutions, by id and key. -/
def slots (requests : DnsRequests hickory ω) : List (Nat × ResolutionKey) :=
  requests.running.map fun entry => (entry.id, entry.key)

structure Accounted (requests : DnsRequests hickory ω) (ledger : Ledger ω) : Prop where
  pool : requests.pool.WellFormed
  someWait : 1 ≤ requests.pool.maxWaiters
  slots : requests.slots.Perm requests.pool.slots
  recipients : (ledger.given : Multiset ω) =
    ledger.handedBack + ledger.replied + requests.waiting
  deadlines : ∀ entry ∈ requests.running, (entry.id, entry.deadline) ∈ ledger.started
  numbered : ∀ start ∈ ledger.started, start.1 < requests.pool.nextId
  once : (ledger.started.map Prod.fst).Nodup

theorem handedBack_reply (question : Question hickory) (recipient : ω) (code : ResponseCode) :
    handedBack (reply question recipient code) = [recipient] ∧
      startedBy (reply question recipient code) = [] := by
  unfold reply
  split
  · exact ⟨rfl, rfl⟩
  · exact ⟨rfl, rfl⟩

/-- What a request whose query is read gives: an answer at once, from the environment itself, an
error or the cache, or its admission. -/
inductive Answered (idna : Idna) (requests : DnsRequests hickory ω) (wire : Wire) (recipient : ω)
    (now : Instant) (question : Question hickory) :
    Except (DnsError × ω) (AcceptedRequest ω) × DnsRequests hickory ω → Prop where
  | reserved (reserved : question.reservedHostResponse idna = some (.ok own)) :
      Answered idna requests wire recipient now question
        (.ok (.answer { recipient, wire := own }), requests)
  | failed (code : ResponseCode) :
      Answered idna requests wire recipient now question (reply question recipient code, requests)
  | cached (keyed : question.resolutionKey requests.generation = .ok key)
      (found : requests.cached key question now = some served) :
      Answered idna requests wire recipient now question
        (.ok (.answer { recipient, wire := served }), requests)
  | admitted (keyed : question.resolutionKey requests.generation = .ok key) :
      Answered idna requests wire recipient now question
        (requests.admitQuestion wire question key recipient now)

theorem accept_answered (idna : Idna) (requests : DnsRequests hickory ω) (wire : Wire)
    (recipient : ω) (now : Instant) :
    (∃ error, requests.accept idna wire recipient now = (.error (error, recipient), requests)) ∨
      ∃ question, Question.parse hickory wire = .ok question ∧
        Answered idna requests wire recipient now question
          (requests.accept idna wire recipient now) := by
  unfold accept
  split
  · exact .inl ⟨_, rfl⟩
  · rename_i question parsed
    split
    · rename_i reserved
      exact .inr ⟨question, parsed, .reserved reserved⟩
    · exact .inl ⟨_, rfl⟩
    · split
      · exact .inl ⟨_, rfl⟩
      · rename_i key keyed
        split
        · exact .inr ⟨question, parsed, .failed .refused⟩
        · split
          · exact .inr ⟨question, parsed, .failed .servFail⟩
          · split
            · rename_i found
              exact .inr ⟨question, parsed, .cached keyed found⟩
            · exact .inr ⟨question, parsed, .admitted keyed⟩

/-- A request is answered at once and nothing changes, or it is admitted. -/
theorem accept_cases (idna : Idna) (requests : DnsRequests hickory ω) (wire : Wire) (recipient : ω)
    (now : Instant) :
    ((requests.accept idna wire recipient now).2 = requests ∧
        handedBack (requests.accept idna wire recipient now).1 = [recipient] ∧
        startedBy (requests.accept idna wire recipient now).1 = []) ∨
      ∃ question key, requests.accept idna wire recipient now =
        requests.admitQuestion wire question key recipient now := by
  obtain ⟨error, refused⟩ | ⟨question, -, answered⟩ :=
    accept_answered idna requests wire recipient now
  · rw [refused]
    exact .inl ⟨rfl, rfl, rfl⟩
  · generalize requests.accept idna wire recipient now = given at answered
    cases answered with
    | reserved => exact .inl ⟨rfl, rfl, rfl⟩
    | failed code => exact .inl ⟨rfl, handedBack_reply ..⟩
    | cached => exact .inl ⟨rfl, rfl, rfl⟩
    | admitted => exact .inr ⟨_, _, rfl⟩

theorem hold_running (requests : DnsRequests hickory ω) (key : ResolutionKey) (now : Instant) :
    (requests.hold key now).running = requests.running ∧
      (requests.hold key now).pool = requests.pool := by
  unfold hold
  split
  · exact ⟨rfl, rfl⟩
  · dsimp only
    split
    · exact ⟨rfl, rfl⟩
    · exact ⟨rfl, rfl⟩

theorem keep_running (requests : DnsRequests hickory ω) (key : ResolutionKey) (message : Message)
    (received now : Instant) :
    (requests.keep key message received now).running = requests.running ∧
      (requests.keep key message received now).pool = requests.pool := by
  unfold keep
  split
  · exact ⟨rfl, rfl⟩
  · split
    · exact ⟨rfl, rfl⟩
    · exact ⟨rfl, rfl⟩
    · dsimp only
      split
      · exact ⟨rfl, rfl⟩
      · exact ⟨rfl, rfl⟩

/-- What an outcome teaches is kept apart from the running resolutions. -/
theorem learn_running (requests : DnsRequests hickory ω) (resolution : Running hickory)
    (result : Except DnsError ValidatedResponse) (now : Instant) :
    (requests.learn resolution result now).running = requests.running ∧
      (requests.learn resolution result now).pool = requests.pool := by
  unfold learn
  split
  · exact hold_running ..
  · split
    · exact keep_running ..
    · exact ⟨rfl, rfl⟩

/-- What completing a running resolution gives, or nothing where none has the id. -/
theorem complete_eq (requests : DnsRequests hickory ω) (number : Nat)
    (answer : Except DnsError Wire) (now : Instant) :
    ((∀ entry ∈ requests.running, entry.id ≠ number) ∧
        requests.complete number answer now = ([], requests)) ∨
      ∃ index, ∃ inside : index < requests.running.length,
        requests.running[index].id = number ∧ requests.complete number answer now =
          ((requests.pool.complete number).1.map
              (replyTo requests.running[index] (outcome requests.running[index] answer now)),
            { DnsRequests.learn { requests with running := swapRemove index requests.running }
                requests.running[index] (outcome requests.running[index] answer now) now with
              pool := (requests.pool.complete number).2 }) := by
  unfold complete
  cases found : requests.running.findIdx? (·.id = number) with
  | none =>
    refine .inl ⟨fun entry member => ?_, rfl⟩
    simpa using List.findIdx?_eq_none_iff.mp found entry member
  | some index =>
    obtain ⟨inside, same, -⟩ := List.findIdx?_eq_some_iff_getElem.mp found
    refine .inr ⟨index, inside, by simpa using same, ?_⟩
    simp only [List.getElem?_eq_getElem inside, learn_running]

/-- Completing takes one running resolution and its entry in the pool out, or does nothing. -/
theorem complete_cases (requests : DnsRequests hickory ω) (number : Nat)
    (answer : Except DnsError Wire) (now : Instant) :
    ((∀ entry ∈ requests.running, entry.id ≠ number) ∧
        requests.complete number answer now = ([], requests)) ∨
      ∃ resolution ∈ requests.running, resolution.id = number ∧
        requests.running.Perm (resolution :: (requests.complete number answer now).2.running) ∧
        (requests.complete number answer now).2.pool = (requests.pool.complete number).2 ∧
        (requests.complete number answer now).1.map DnsReply.recipient =
          (requests.pool.complete number).1.map Waiter.recipient := by
  obtain nothing | ⟨index, inside, same, after⟩ := requests.complete_eq number answer now
  · exact .inl nothing
  · refine .inr ⟨requests.running[index], List.getElem_mem inside, same, ?_⟩
    simp only [after, learn_running]
    refine ⟨perm_swapRemove requests.running index inside, trivial, ?_⟩
    rw [List.map_map]
    rfl

/-- The entry is replaced by one that differs in the key alone. -/
theorem slots_set (distinct : (requests.running.map Running.id).Nodup)
    (inside : index < requests.running.length) :
    (requests.running.set index { requests.running[index] with key }).map
        (fun entry => (entry.id, entry.key)) =
      requests.slots.map fun slot =>
        if slot.1 = requests.running[index].id then (requests.running[index].id, key) else slot := by
  refine List.ext_getElem (by simp [slots]) fun position first second => ?_
  have range : position < requests.running.length := by simpa using first
  by_cases same : index = position
  · subst same
    simp [slots]
  · have different : requests.running[position].id ≠ requests.running[index].id := by
      intro equal
      have early : position < (requests.running.map Running.id).length := by simpa using range
      have late : index < (requests.running.map Running.id).length := by simpa using inside
      have numbers : (requests.running.map Running.id)[position] =
          (requests.running.map Running.id)[index] := by simpa using equal
      exact same (distinct.getElem_inj_iff.mp numbers).symm
    simp [slots, List.getElem_set_ne same, different]

/-- Nothing moves, or the running resolution with the id moves to a key that no other has. -/
theorem rekey_cases (requests : DnsRequests hickory ω) (number : Nat) :
    requests.rekey number = requests ∨
      ∃ (index : Nat) (inside : index < requests.running.length) (key : ResolutionKey),
        requests.running[index].id = number ∧
        requests.running[index].question.resolutionKey requests.generation = .ok key ∧
        (∀ other ∈ requests.running, other.id ≠ number → other.key ≠ key) ∧
        requests.rekey number =
          { requests with
            pool := requests.pool.rekey number key
            running := requests.running.set index { requests.running[index] with key } } := by
  unfold rekey
  cases found : requests.running.findIdx? (·.id = number) with
  | none => exact .inl rfl
  | some index =>
    obtain ⟨inside, same, -⟩ := List.findIdx?_eq_some_iff_getElem.mp found
    simp only [List.getElem?_eq_getElem inside]
    split
    · exact .inl rfl
    · rename_i key keyed
      split
      · exact .inl rfl
      · rename_i free
        refine .inr ⟨index, inside, key, by simpa using same, keyed, ?_, rfl⟩
        intro other listed apart taken
        exact free (List.any_eq_true.mpr ⟨other, listed, by simp [apart, taken]⟩)

section Steps

variable (accounted : requests.Accounted ledger)

include accounted

theorem Accounted.ids : (requests.running.map Running.id).Nodup := by
  have perm := accounted.slots.map Prod.fst
  have distinct : (requests.pool.slots.map Prod.fst).Nodup := by
    simpa [ResolutionPool.slots, Function.comp_def] using accounted.pool.ids
  simpa [DnsRequests.slots, Function.comp_def] using perm.nodup_iff.mpr distinct

theorem Accounted.keys : (requests.running.map Running.key).Nodup := by
  have perm := accounted.slots.map Prod.snd
  have distinct : (requests.pool.slots.map Prod.snd).Nodup := by
    simpa [ResolutionPool.slots, Function.comp_def] using accounted.pool.keys
  simpa [DnsRequests.slots, Function.comp_def] using perm.nodup_iff.mpr distinct

/-- A running resolution has its entry in the pool. -/
theorem Accounted.entry (member : resolution ∈ requests.running) :
    ∃ entry ∈ requests.pool.pending, entry.2.id = resolution.id ∧ entry.1 = resolution.key := by
  have slot : (resolution.id, resolution.key) ∈ requests.slots :=
    List.mem_map.mpr ⟨resolution, member, rfl⟩
  obtain ⟨entry, inside, equal⟩ := List.mem_map.mp (accounted.slots.mem_iff.mp slot)
  exact ⟨entry, inside, congrArg Prod.fst equal, congrArg Prod.snd equal⟩

/-- An entry of the pool is under the key of the resolution with its id. -/
theorem Accounted.entry_key (inside : slot ∈ requests.pool.pending)
    (member : resolution ∈ requests.running) (same : slot.2.id = resolution.id) :
    slot.1 = resolution.key := by
  obtain ⟨other, listed, number, key⟩ := accounted.entry member
  cases List.inj_on_of_nodup_map accounted.pool.ids inside listed (same.trans number.symm)
  exact key

/-- One more recipient is given, and given back at once. -/
theorem Accounted.handBack (recipient : ω) :
    requests.Accounted
      { ledger with
        given := ledger.given ++ [recipient]
        handedBack := ledger.handedBack ++ [recipient] } := by
  refine { accounted with recipients := ?_ }
  simp only [← Multiset.coe_add, accounted.recipients, add_right_comm]

/-- One more recipient is given, and waits. -/
theorem Accounted.newWaiter {after : List ω} (waits : after.Perm (recipient :: requests.waiting)) :
    ((ledger.given ++ [recipient] : List ω) : Multiset ω) =
      ledger.handedBack + ledger.replied + after := by
  rw [Multiset.coe_eq_coe.mpr (waits.trans (List.perm_append_singleton ..).symm),
    ← Multiset.coe_add, ← Multiset.coe_add, accounted.recipients, add_assoc]

theorem Accounted.admitQuestion :
    (requests.admitQuestion wire question key recipient now).2.Accounted
      { ledger with
        given := ledger.given ++ [recipient]
        handedBack :=
          ledger.handedBack ++ handedBack (requests.admitQuestion wire question key recipient now).1
        started :=
          ledger.started ++
            startedBy (requests.admitQuestion wire question key recipient now).1 } := by
  have given := accounted.recipients
  obtain ⟨error, refused⟩ | ⟨entry, member, rfl, free, joins⟩ | ⟨absent, free, starts⟩ :=
    requests.pool.admit_cases key { recipient, id := question.metadata.id, asked := question.asked }
  · simp only [DnsRequests.admitQuestion, refused]
    obtain ⟨back, none⟩ := handedBack_reply question recipient .servFail
    rw [back, none, List.append_nil]
    exact accounted.handBack recipient
  · simp only [DnsRequests.admitQuestion, joins, handedBack, startedBy, List.append_nil]
    refine {
      accounted with
      pool := accounted.pool.joined member free
      slots := ?_
      recipients := ?_ }
    · rw [ResolutionPool.slots_joined]
      exact accounted.slots
    · refine accounted.newWaiter ?_
      exact (ResolutionPool.waiting_joined accounted.pool member).map Waiter.recipient
  · simp only [DnsRequests.admitQuestion, starts, handedBack, startedBy, List.append_nil]
    have fresh : requests.pool.nextId ∉ ledger.started.map Prod.fst := by
      intro inside
      obtain ⟨start, listed, same⟩ := List.mem_map.mp inside
      exact absurd same (Nat.ne_of_lt (accounted.numbered start listed))
    refine ⟨accounted.pool.started accounted.someWait absent free, accounted.someWait, ?_, ?_, ?_,
      ?_, ?_⟩
    · rw [ResolutionPool.slots_started]
      simpa [DnsRequests.slots] using accounted.slots.append_right [(requests.pool.nextId, key)]
    · refine accounted.newWaiter ?_
      rw [waiting, ResolutionPool.waiting_started, List.map_append]
      exact List.perm_append_singleton ..
    · intro resolution inside
      rcases mem_concat.mp inside with earlier | rfl
      · exact List.mem_append_left _ (accounted.deadlines resolution earlier)
      · exact List.mem_append_right _ List.mem_cons_self
    · intro start inside
      rcases mem_concat.mp inside with earlier | rfl
      · exact Nat.lt_succ_of_lt (accounted.numbered start earlier)
      · exact Nat.lt_succ_self _
    · rw [List.map_append]
      exact accounted.once.append (List.nodup_singleton _) (List.disjoint_singleton.mpr fresh)

theorem Accounted.accept :
    (requests.accept idna wire recipient now).2.Accounted
      { ledger with
        given := ledger.given ++ [recipient]
        handedBack := ledger.handedBack ++ handedBack (requests.accept idna wire recipient now).1
        started := ledger.started ++ startedBy (requests.accept idna wire recipient now).1 } := by
  obtain ⟨same, back, none⟩ | ⟨question, key, admitted⟩ :=
    accept_cases idna requests wire recipient now
  · rw [same, back, none, List.append_nil]
    exact accounted.handBack recipient
  · rw [admitted]
    exact accounted.admitQuestion

theorem Accounted.complete (number : Nat) (answer : Except DnsError Wire) (now : Instant) :
    (requests.complete number answer now).2.Accounted
      { ledger with
        replied := ledger.replied ++
          (requests.complete number answer now).1.map DnsReply.recipient } := by
  obtain ⟨-, nothing⟩ | ⟨resolution, member, rfl, running, pool, replies⟩ :=
    requests.complete_cases number answer now
  · rw [nothing, List.map_nil, List.append_nil]
    exact accounted
  · obtain ⟨entry, inside, same, -⟩ := accounted.entry member
    have others : ∀ other ∈ (requests.complete resolution.id answer now).2.running,
        other.id ≠ resolution.id := by
      have distinct := (running.map Running.id).nodup_iff.mp accounted.ids
      intro other listed equal
      exact (List.nodup_cons.mp distinct).1 (List.mem_map.mpr ⟨other, listed, equal⟩)
    refine ⟨?_, ?_, ?_, ?_, ?_, ?_, accounted.once⟩
    · rw [pool]
      exact accounted.pool.complete
    · rw [pool]
      exact accounted.someWait
    · rw [pool, ResolutionPool.slots_complete]
      have kept := (accounted.slots.symm.trans (running.map _)).filter (·.1 ≠ resolution.id)
      rw [List.map_cons, List.filter_cons_of_neg (by simp)] at kept
      refine (kept.trans (List.Perm.of_eq ?_)).symm
      exact List.filter_eq_self.mpr fun slot listed => by
        obtain ⟨other, found, rfl⟩ := List.mem_map.mp listed
        simpa using others other found
    · have waits := (ResolutionPool.waiting_complete accounted.pool inside).map Waiter.recipient
      rw [same, List.map_append, ← replies] at waits
      rw [accounted.recipients, waiting, Multiset.coe_eq_coe.mpr waits, waiting, pool,
        ← Multiset.coe_add, ← Multiset.coe_add]
      simp only [add_assoc]
    · intro other listed
      exact accounted.deadlines other (running.mem_iff.mpr (List.mem_cons_of_mem _ listed))
    · rw [pool]
      exact accounted.numbered

theorem Accounted.completeAll (now : Instant) (numbers : List Nat) :
    (requests.completeAll now numbers).2.Accounted
      { ledger with
        replied := ledger.replied ++
          (requests.completeAll now numbers).1.map DnsReply.recipient } := by
  induction numbers generalizing requests ledger with
  | nil =>
    rw [DnsRequests.completeAll, List.map_nil, List.append_nil]
    exact accounted
  | cons number numbers ih =>
    have later := ih (accounted.complete number (.error .incompleteResponse) now)
    simpa [DnsRequests.completeAll] using later

theorem Accounted.rekey : (requests.rekey number).Accounted ledger := by
  obtain same | ⟨index, inside, key, numbered, -, free, after⟩ := requests.rekey_cases number
  · rw [same]
    exact accounted
  · have own : ∀ entry ∈ requests.pool.pending, entry.1 = key → entry.2.id = number := by
      rintro entry member rfl
      have slot : (entry.2.id, entry.1) ∈ requests.slots :=
        accounted.slots.mem_iff.mpr (List.mem_map.mpr ⟨entry, member, rfl⟩)
      obtain ⟨resolution, listed, equal⟩ := List.mem_map.mp slot
      obtain ⟨sameId, sameKey⟩ := Prod.mk.inj equal
      by_contra different
      exact free resolution listed (sameId ▸ different) sameKey
    obtain ⟨next, limit, -⟩ := requests.pool.rekey_limits number key
    rw [after]
    refine ⟨accounted.pool.rekey, ?_, ?_, ?_, ?_, ?_, accounted.once⟩
    · rw [limit]
      exact accounted.someWait
    · rw [DnsRequests.slots, slots_set accounted.ids inside,
        ResolutionPool.slots_rekey accounted.pool own, numbered]
      exact accounted.slots.map _
    · rw [waiting, ResolutionPool.waiting_rekey]
      exact accounted.recipients
    · intro resolution listed
      rcases List.mem_or_eq_of_mem_set listed with before | rfl
      · exact accounted.deadlines resolution before
      · exact accounted.deadlines requests.running[index] (List.getElem_mem inside)
    · rw [next]
      exact accounted.numbered

end Steps

theorem Accounted.perform (idna : Idna) (accounted : state.1.Accounted state.2) (op : RequestOp ω) :
    (DnsRequests.perform idna state op).1.Accounted (DnsRequests.perform idna state op).2 := by
  cases op with
  | accept wire recipient now => exact accounted.accept
  | complete number answer now => exact accounted.complete number answer now
  | expire now => exact accounted.completeAll now _
  | rekey number => exact accounted.rekey
  | advanceGeneration => exact { accounted with }

theorem Accounted.run (idna : Idna) (ops : List (RequestOp ω))
    (accounted : state.1.Accounted state.2) :
    (ops.foldl (DnsRequests.perform idna) state).1.Accounted
      (ops.foldl (DnsRequests.perform idna) state).2 := by
  induction ops generalizing state with
  | nil => exact accounted
  | cons op ops ih => exact ih (accounted.perform idna op)

/-- The pool keeps its limits. -/
def SameLimits (left right : DnsRequests hickory ω) : Prop :=
  left.pool.maxResolutions = right.pool.maxResolutions ∧
    left.pool.maxWaiters = right.pool.maxWaiters

theorem SameLimits.trans (first : SameLimits left middle) (second : SameLimits middle right) :
    SameLimits left right :=
  ⟨first.1.trans second.1, first.2.trans second.2⟩

theorem complete_limits (requests : DnsRequests hickory ω) (number : Nat)
    (answer : Except DnsError Wire) (now : Instant) :
    SameLimits (requests.complete number answer now).2 requests := by
  obtain ⟨-, nothing⟩ | ⟨resolution, -, -, -, pool, -⟩ :=
    requests.complete_cases number answer now
  · rw [nothing]
    exact ⟨rfl, rfl⟩
  · exact ⟨congrArg (·.maxResolutions) pool, congrArg (·.maxWaiters) pool⟩

theorem completeAll_limits (now : Instant) (numbers : List Nat) :
    ∀ requests : DnsRequests hickory ω, SameLimits (requests.completeAll now numbers).2 requests := by
  induction numbers with
  | nil => exact fun _ => ⟨rfl, rfl⟩
  | cons number numbers ih => exact fun requests => (ih _).trans (requests.complete_limits ..)

theorem rekey_limits (requests : DnsRequests hickory ω) (number : Nat) :
    SameLimits (requests.rekey number) requests := by
  obtain same | ⟨index, inside, key, -, -, -, after⟩ := requests.rekey_cases number
  · rw [same]
    exact ⟨rfl, rfl⟩
  · rw [after]
    obtain ⟨-, waiters, resolutions⟩ := requests.pool.rekey_limits number key
    exact ⟨resolutions, waiters⟩

theorem accept_limits (idna : Idna) (requests : DnsRequests hickory ω) (wire : Wire)
    (recipient : ω) (now : Instant) :
    SameLimits (requests.accept idna wire recipient now).2 requests := by
  obtain ⟨same, -⟩ | ⟨question, key, admitted⟩ := accept_cases idna requests wire recipient now
  · rw [same]
    exact ⟨rfl, rfl⟩
  · rw [admitted]
    obtain ⟨error, after⟩ | ⟨entry, -, -, -, after⟩ | ⟨-, -, after⟩ :=
      requests.pool.admit_cases key
        { recipient, id := question.metadata.id, asked := question.asked }
    all_goals
      simp only [admitQuestion, after]
      exact ⟨rfl, rfl⟩

theorem perform_limits (idna : Idna) (state : DnsRequests hickory ω × Ledger ω)
    (op : RequestOp ω) : SameLimits (perform idna state op).1 state.1 := by
  cases op with
  | accept wire recipient now => exact state.1.accept_limits idna wire recipient now
  | complete number answer now => exact state.1.complete_limits number answer now
  | expire now => exact completeAll_limits now _ state.1
  | rekey number => exact state.1.rekey_limits number
  | advanceGeneration => exact ⟨rfl, rfl⟩

theorem run_limits (idna : Idna) (ops : List (RequestOp ω)) :
    ∀ state : DnsRequests hickory ω × Ledger ω,
      SameLimits (ops.foldl (perform idna) state).1 state.1 := by
  induction ops with
  | nil => exact fun _ => ⟨rfl, rfl⟩
  | cons op ops ih => exact fun state => (ih _).trans (perform_limits idna state op)

/-- The recipients passed to `accept`. -/
def recipients (ops : List (RequestOp ω)) : List ω :=
  ops.filterMap fun op =>
    match op with
    | .accept _ recipient _ => some recipient
    | _ => none

theorem run_given (idna : Idna) (ops : List (RequestOp ω)) :
    ∀ state : DnsRequests hickory ω × Ledger ω,
      (ops.foldl (perform idna) state).2.given = state.2.given ++ recipients ops := by
  induction ops with
  | nil => exact fun state => (List.append_nil _).symm
  | cons op ops ih =>
    intro state
    rw [List.foldl_cons, ih]
    cases op <;> simp [perform, recipients]

theorem run_started (idna : Idna) (ops : List (RequestOp ω)) :
    ∀ state : DnsRequests hickory ω × Ledger ω,
      state.2.started <+: (ops.foldl (perform idna) state).2.started := by
  induction ops with
  | nil => exact fun state => List.prefix_rfl
  | cons op ops ih =>
    intro state
    refine List.IsPrefix.trans ?_ (ih _)
    cases op with
    | accept wire recipient now => exact List.prefix_append ..
    | complete | expire | rekey | advanceGeneration => exact List.prefix_rfl

theorem new_accounted {initial : DnsRequests hickory ω}
    (made : DnsRequests.new policy number maxResolutions maxWaiters limit = .ok initial)
    (hold : Duration) :
    (initial.withFailureHold hold).Accounted {} ∧ initial.pool.maxResolutions = maxResolutions ∧
      initial.pool.maxWaiters = maxWaiters := by
  have allowed : ∃ pool : ResolutionPool ResolutionKey (Waiter hickory ω),
      ResolutionPool.new maxResolutions maxWaiters = .ok pool ∧ initial.pool = pool ∧
        initial.running = [] := by
    unfold DnsRequests.new at made
    split at made
    · cases made
    · obtain ⟨pool, new, same⟩ := Except.bind_eq_ok.mp made
      cases same
      exact ⟨pool, new, rfl, rfl⟩
  obtain ⟨pool, new, same, idle⟩ := allowed
  unfold ResolutionPool.new at new
  split at new
  · cases new
  · rename_i range
    cases new
    have least : 1 ≤ maxWaiters := by
      by_contra small
      exact range (by simp [small])
    have empty : initial.pool.pending = [] := congrArg (·.pending) same
    refine ⟨⟨⟨?_, ?_, ?_, ?_, ?_⟩, ?_, ?_, ?_, ?_, ?_, ?_⟩, congrArg (·.maxResolutions) same,
      congrArg (·.maxWaiters) same⟩
    · simp [empty]
    · simp [empty]
    · simp [empty]
    · simp [empty]
    · simp [empty]
    · exact least.trans_eq (congrArg (·.maxWaiters) same).symm
    · simp [DnsRequests.slots, ResolutionPool.slots, empty, idle]
    · simp [waiting, ResolutionPool.waiting, empty]
    · simp [idle]
    · simp
    · simp

theorem deadline_kept {after : DnsRequests hickory ω} {record : Ledger ω}
    {entry later : Running hickory} (accounted : requests.Accounted ledger)
    (accounted' : after.Accounted record) (extended : ledger.started <+: record.started)
    (member : entry ∈ requests.running) (inside : later ∈ after.running)
    (same : later.id = entry.id) : later.deadline = entry.deadline := by
  have before := extended.subset (accounted.deadlines entry member)
  have now := accounted'.deadlines later inside
  exact congrArg Prod.snd (List.inj_on_of_nodup_map accounted'.once now before same)

/-- Every recipient is handed back, replied to or waiting, and no more than once; the running
resolutions are those of the pool; each is started once and keeps its deadline. -/
theorem clients_answered_once {initial : DnsRequests hickory ω} (idna : Idna) (hold : Duration)
    (made : DnsRequests.new policy number maxResolutions maxWaiters limit = .ok initial)
    (ops : List (RequestOp ω)) :
    let final := (initial.withFailureHold hold).run idna ops
    (recipients ops : Multiset ω) = final.2.handedBack + final.2.replied + final.1.waiting ∧
      (final.1.slots.Perm final.1.pool.slots ∧ (final.1.running.map Running.id).Nodup ∧
        (final.1.running.map Running.key).Nodup) ∧
      (final.2.started.map Prod.fst).Nodup ∧
      (final.1.running.length ≤ maxResolutions ∧
        ∀ entry ∈ final.1.pool.pending,
          1 ≤ entry.2.waiters.length ∧ entry.2.waiters.length ≤ maxWaiters) ∧
      (∀ stale answer now, (∀ entry ∈ final.1.running, entry.id ≠ stale) →
        final.1.complete stale answer now = ([], final.1)) ∧
      ∀ more, ∀ entry ∈ final.1.running,
        ∀ later ∈ ((initial.withFailureHold hold).run idna (ops ++ more)).1.running,
          later.id = entry.id → later.deadline = entry.deadline := by
  intro final
  obtain ⟨start, resolutions, waiters⟩ := new_accounted made hold
  have accounted : final.1.Accounted final.2 := start.run idna ops
  obtain ⟨sameResolutions, sameWaiters⟩ : SameLimits final.1 (initial.withFailureHold hold) :=
    run_limits idna ops _
  refine ⟨?_, ⟨accounted.slots, accounted.ids, accounted.keys⟩, accounted.once, ⟨?_, ?_⟩, ?_, ?_⟩
  · have given : final.2.given = recipients ops := run_given idna ops _
    rw [← accounted.recipients, given]
  · have length := accounted.slots.length_eq
    have room := accounted.pool.room
    simp only [DnsRequests.slots, ResolutionPool.slots, List.length_map] at length
    rw [length]
    exact room.trans_eq (sameResolutions.trans resolutions)
  · intro entry member
    obtain ⟨least, most⟩ := accounted.pool.waiters entry member
    exact ⟨least, most.trans_eq (sameWaiters.trans waiters)⟩
  · intro stale answer now absent
    obtain ⟨-, nothing⟩ | ⟨entry, member, same, -⟩ := final.1.complete_cases stale answer now
    · exact nothing
    · exact absurd same (absent entry member)
  · intro more entry member later inside same
    have after : ((initial.withFailureHold hold).run idna (ops ++ more)) =
        more.foldl (perform idna) final := List.foldl_append ..
    rw [after] at inside
    exact deadline_kept accounted (accounted.run idna more) (run_started idna more final) member
      inside same

def slotQuery : Message :=
  { metadata := { id := 7, messageType := .query, opCode := .query }
    queries := [{ name := ⟨[[97]], true⟩, queryType := .a, queryClass := .internet }] }

/-- Four clients ask for one name, with room for one waiter: the first is answered, the second
refused, the third expires under a new key, and the fourth waits. -/
def slotOps : List (RequestOp Nat) :=
  let wire := PlainLibrary.message.encode slotQuery
  [.accept wire 1 0, .accept wire 2 1, .complete 0 (.error .incompleteResponse) 2,
    .accept wire 3 3, .advanceGeneration, .rekey 1, .expire (seconds 6), .accept wire 4 (seconds 7)]

def slotRequests : DnsRequests plainHickory Nat :=
  { gate := { policy := [⟨.dns ⟨"a", false⟩, .tcp, ⟨[(1, 65535)]⟩⟩] }
    generation := 0
    pool := { maxResolutions := 1, maxWaiters := 1 }
    timeout := seconds 5 }

theorem single_slot_answered_once :
    let final := (slotRequests.withFailureHold 0).run plainIdna slotOps
    (final.2.handedBack = [2] ∧ final.2.replied = [1, 3] ∧ final.1.waiting = [4]) ∧
      (recipients slotOps : Multiset Nat) =
        final.2.handedBack + final.2.replied + final.1.waiting := by
  refine ⟨by decide +kernel, ?_⟩
  have made : DnsRequests.new slotRequests.gate.policy 0 1 1 (seconds 5) = .ok slotRequests := rfl
  exact (clients_answered_once plainIdna 0 made slotOps).1

end DnsRequests

end Kakoi
