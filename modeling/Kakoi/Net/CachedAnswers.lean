import Kakoi.Net.RequestAccounting

/-! Where a cached answer comes from, and that none is served for longer than its records
allow. -/

namespace Kakoi.DnsRequests

variable {initial requests : DnsRequests hickory ω}

theorem seconds_le_begun {elapsed : Nat} (begun : begunSeconds elapsed = some count) :
    elapsed ≤ count * 1000000000 := by
  have parts := Nat.div_add_mod elapsed 1000000000
  have short := Nat.mod_lt elapsed (show 0 < 1000000000 by decide)
  simp only [begunSeconds, seconds, Nat.one_mul, Option.ite_none_right_eq_some, Option.some.injEq]
    at begun
  obtain ⟨-, rfl⟩ := begun
  by_cases whole : elapsed % 1000000000 = 0
  · rw [if_pos whole]
    omega
  · rw [if_neg whole]
    omega

/-- Begun seconds count down at least as much as the time that passed. -/
theorem counted_down {now started ttl count : Nat} (passed : now - started ≤ count * 1000000000)
    (left : count < ttl) :
    now + (ttl - count) * 1000000000 ≤ started + ttl * 1000000000 ∧
      now < started + ttl * 1000000000 := by
  omega

/-- A record is served as it was but for its time to live, which ends no later. -/
structure Record.Aged (now started : Instant) (original served : Record) : Prop where
  same : served = { original with ttl := served.ttl }
  ends : served.ttl = 0 ∨ now + seconds served.ttl ≤ started + seconds original.ttl

theorem agedRecord_aged (begun : begunSeconds (now - started) = some count)
    (record : Record) : Record.Aged now started record (agedRecord count record) := by
  refine ⟨rfl, ?_⟩
  by_cases expired : record.ttl ≤ count
  · exact .inl (Nat.sub_eq_zero_of_le expired)
  · exact .inr (counted_down (seconds_le_begun begun) (Nat.lt_of_not_le expired)).1

/-- No record of the message that is served outlives the same record of the original. -/
structure Unstretched (now started : Instant) (original served : Message) : Prop where
  positive : ∀ record ∈ served.answers, 1 ≤ record.ttl
  answers : List.Forall₂ (Record.Aged now started) original.answers served.answers
  authorities : List.Forall₂ (Record.Aged now started) original.authorities served.authorities
  additionals : List.Forall₂ (Record.Aged now started) original.additionals served.additionals
  alive : ∀ record ∈ original.answers, now < started + seconds record.ttl

theorem forall₂_aged (begun : begunSeconds (now - started) = some count)
    (records : List Record) :
    List.Forall₂ (Record.Aged now started) records (records.map (agedRecord count)) := by
  rw [List.forall₂_map_right_iff]
  exact List.forall₂_same.mpr fun record _ => agedRecord_aged begun record

/-- A positive answer, neither truncated nor signed, whose records live. -/
structure Cached.Sound (kept : Cached) : Prop where
  noError : kept.message.metadata.responseCode = .noError
  untruncated : kept.message.metadata.truncation = false
  unsigned : kept.message.signature = none
  least : (kept.message.answers.map Record.ttl).min? = some kept.ttl
  lives : kept.ttl ≠ 0

theorem Cached.Sound.answered (sound : Cached.Sound kept) : kept.message.answers ≠ [] := by
  intro empty
  have least := sound.least
  simp [empty] at least

/-- A kept answer as it is served to a question when so many seconds have begun. -/
def servedMessage (kept : Cached) (question : Question hickory) (count : Nat) : Message :=
  { kept.message with
    metadata := { kept.message.metadata with id := question.metadata.id }
    queries := kept.message.queries.set 0 question.query
    answers := kept.message.answers.map (agedRecord count)
    authorities := kept.message.authorities.map (agedRecord count)
    additionals := kept.message.additionals.map (agedRecord count) }

theorem cached_eq_some (found : requests.cached key question now = some served) :
    ∃ kept count, (key, kept) ∈ requests.cache ∧
      begunSeconds (now - kept.received) = some count ∧ count < kept.ttl ∧
      hickory.toVec (servedMessage kept question count) = some served := by
  unfold cached at found
  obtain ⟨kept, valued, aged⟩ := Option.bind_eq_some_iff.mp found
  obtain ⟨⟨other, value⟩, first, rfl⟩ := Option.map_eq_some_iff.mp valued
  have same : other = key := by simpa using List.find?_some first
  subst same
  dsimp only at aged
  split at aged
  · obtain ⟨elapsed, passed, rest⟩ := Option.bind_eq_some_iff.mp aged
    cases passed
    obtain ⟨count, begun, written⟩ := Option.bind_eq_some_iff.mp rest
    split at written
    · cases written
    · rename_i young
      exact ⟨value, count, List.mem_of_find?_eq_some first, begun, Nat.lt_of_not_le young, written⟩
  · cases aged

theorem servedMessage_unstretched (sound : Cached.Sound kept) (question : Question hickory)
    (begun : begunSeconds (now - kept.received) = some count) (young : count < kept.ttl) :
    Unstretched now kept.received kept.message (servedMessage kept question count) := by
  have least := List.min?_eq_some_iff.mp sound.least
  have bound : ∀ record ∈ kept.message.answers, count < record.ttl := fun record inside =>
    young.trans_le (least.2 _ (List.mem_map_of_mem inside))
  refine ⟨?_, forall₂_aged begun _, forall₂_aged begun _, forall₂_aged begun _, ?_⟩
  · intro record inside
    obtain ⟨original, listed, rfl⟩ := List.mem_map.mp inside
    exact Nat.sub_pos_of_lt (bound original listed)
  · intro record inside
    exact (counted_down (seconds_le_begun begun) (bound record inside)).2

theorem hold_cache (requests : DnsRequests hickory ω) (key : ResolutionKey) (now : Instant) :
    (requests.hold key now).cache = requests.cache ∧
      (requests.hold key now).generation = requests.generation ∧
      (requests.held.length ≤ maxHeldFailures →
        (requests.hold key now).held.length ≤ maxHeldFailures) := by
  unfold hold
  split
  · exact ⟨rfl, rfl, id⟩
  · dsimp only
    split
    · rename_i room
      refine ⟨rfl, rfl, fun _ => ?_⟩
      exact (upsert_length_le Prod.fst _ _).trans room
    · exact ⟨rfl, rfl, fun bounded => (List.length_filter_le _ _).trans bounded⟩

theorem keep_cache (requests : DnsRequests hickory ω) (key : ResolutionKey) (message : Message)
    (received now : Instant) :
    (∀ entry ∈ (requests.keep key message received now).cache, entry ∈ requests.cache ∨
        entry.1 = key ∧ entry.2.message = message ∧ entry.2.received = received ∧
          Cached.Sound entry.2) ∧
      (requests.keep key message received now).held = requests.held ∧
      (requests.keep key message received now).generation = requests.generation ∧
      (requests.cache.length ≤ maxCachedAnswers →
        (requests.keep key message received now).cache.length ≤ maxCachedAnswers) := by
  unfold keep
  split
  · exact ⟨fun _ member => .inl member, rfl, rfl, id⟩
  · rename_i positive
    simp only [Bool.or_eq_true, not_or, decide_eq_true_eq, Bool.not_eq_true, not_not] at positive
    obtain ⟨⟨noError, untruncated⟩, unsigned⟩ := positive
    split
    · exact ⟨fun _ member => .inl member, rfl, rfl, id⟩
    · exact ⟨fun _ member => .inl member, rfl, rfl, id⟩
    · rename_i ttl lives least
      dsimp only
      split
      · rename_i room
        refine ⟨fun entry member => ?_, rfl, rfl,
          fun _ => (upsert_length_le Prod.fst _ _).trans room⟩
        rcases mem_of_mem_upsert member with rfl | before
        · refine .inr ⟨rfl, rfl, rfl, noError, untruncated, ?_, least, lives⟩
          simpa using unsigned
        · exact .inl (List.mem_of_mem_filter before)
      · refine ⟨fun entry member => .inl (List.mem_of_mem_filter member), rfl, rfl, fun bounded => ?_⟩
        exact (List.length_filter_le _ _).trans bounded

/-- What an outcome leaves in the memory of answers and failures. -/
structure Learned (before after : DnsRequests hickory ω) (resolution : Running hickory)
    (result : Except DnsError ValidatedResponse) : Prop where
  cache : ∀ entry ∈ after.cache, entry ∈ before.cache ∨
    ∃ response, result = .ok response ∧ entry.1 = resolution.key ∧
      entry.1.generation = before.generation ∧ entry.2.message = response.message ∧
      entry.2.received = resolution.started ∧ Cached.Sound entry.2
  generation : after.generation = before.generation
  cacheRoom : before.cache.length ≤ maxCachedAnswers → after.cache.length ≤ maxCachedAnswers
  heldRoom : before.held.length ≤ maxHeldFailures → after.held.length ≤ maxHeldFailures

theorem isCurrent_generation (current : requests.isCurrent resolution = true) :
    resolution.key.generation = requests.generation := by
  unfold isCurrent at current
  split at current
  · rename_i key found
    have same : key = resolution.key := by simpa using current
    rw [← same]
    unfold Question.resolutionKey at found
    dsimp only at found
    split at found
    · cases found
      rfl
    · cases found
  · cases current

theorem learn_learned (requests : DnsRequests hickory ω) (resolution : Running hickory)
    (result : Except DnsError ValidatedResponse) (now : Instant) :
    Learned requests (requests.learn resolution result now) resolution result := by
  unfold learn
  split
  · obtain ⟨cache, generation, held⟩ := hold_cache requests resolution.key now
    exact ⟨fun entry member => .inl (cache ▸ member), generation, fun bounded => cache ▸ bounded, held⟩
  · split
    · rename_i response current succeeded
      obtain ⟨cache, held, generation, room⟩ :=
        keep_cache requests resolution.key response.message resolution.started now
      refine ⟨fun entry member => ?_, generation, room, fun bounded => held ▸ bounded⟩
      rcases cache entry member with before | ⟨key, message, received, sound⟩
      · exact .inl before
      · exact .inr ⟨response, rfl, key, key ▸ isCurrent_generation current, message, received, sound⟩
    · exact ⟨fun _ member => .inl member, rfl, id, id⟩

theorem run_append (idna : Idna) (requests : DnsRequests hickory ω) (ops : List (RequestOp ω))
    (op : RequestOp ω) :
    requests.run idna (ops ++ [op]) = perform idna (requests.run idna ops) op := by
  simp [run]

/-- In the history, a request started the resolution. -/
def Started (idna : Idna) (initial : DnsRequests hickory ω) (ops : List (RequestOp ω))
    (resolution : Running hickory) : Prop :=
  ∃ before after wire recipient task,
    ops = before ++ .accept wire recipient resolution.started :: after ∧
      ((initial.run idna before).1.accept idna wire recipient resolution.started).1 =
        .ok (.start task) ∧
      task.id = resolution.id

/-- In the history, the resolution was completed with the response, under settings that are
still those of now. -/
def Completed (idna : Idna) (initial : DnsRequests hickory ω) (ops : List (RequestOp ω))
    (resolution : Running hickory) (response : ValidatedResponse) : Prop :=
  ∃ before after answer now,
    ops = before ++ .complete resolution.id answer now :: after ∧ .advanceGeneration ∉ after ∧
      resolution ∈ (initial.run idna before).1.running ∧
      Started idna initial before resolution ∧
      outcome resolution answer now = .ok response

theorem Started.later (started : Started idna initial ops resolution) (op : RequestOp ω) :
    Started idna initial (ops ++ [op]) resolution := by
  obtain ⟨before, after, wire, recipient, task, rfl, answered, same⟩ := started
  exact ⟨before, after ++ [op], wire, recipient, task, by simp, answered, same⟩

theorem Completed.later (completed : Completed idna initial ops resolution response)
    (kept : op ≠ .advanceGeneration) :
    Completed idna initial (ops ++ [op]) resolution response := by
  obtain ⟨before, after, answer, now, rfl, current, running, started, found⟩ := completed
  refine ⟨before, after ++ [op], answer, now, by simp, ?_, running, started, found⟩
  intro member
  rcases mem_concat.mp member with earlier | last
  · exact current earlier
  · exact kept last.symm

/-- Every running resolution was started and every cached answer completed, and the memory is
bounded. -/
structure Founded (idna : Idna) (initial : DnsRequests hickory ω) (ops : List (RequestOp ω))
    (requests : DnsRequests hickory ω) : Prop where
  started : ∀ resolution ∈ requests.running, Started idna initial ops resolution
  cache : ∀ entry ∈ requests.cache, Cached.Sound entry.2 ∧
    entry.1.generation = requests.generation ∧
    ∃ resolution response, Completed idna initial ops resolution response ∧
      entry.1 = resolution.key ∧ entry.2.message = response.message ∧
      entry.2.received = resolution.started
  cacheRoom : requests.cache.length ≤ maxCachedAnswers
  heldRoom : requests.held.length ≤ maxHeldFailures

theorem Founded.later (founded : Founded idna initial ops requests) (op : RequestOp ω)
    (kept : op ≠ .advanceGeneration) : Founded idna initial (ops ++ [op]) requests := by
  refine { founded with started := ?_, cache := ?_ }
  · intro resolution member
    exact (founded.started resolution member).later op
  · intro entry member
    obtain ⟨sound, generation, resolution, response, completed, same⟩ := founded.cache entry member
    exact ⟨sound, generation, resolution, response, completed.later kept, same⟩

/-- What a request leaves: the memory as it was, and the resolution it may have started. -/
theorem accept_memory (idna : Idna) (requests : DnsRequests hickory ω) (wire : Wire) (recipient : ω)
    (now : Instant) :
    (requests.accept idna wire recipient now).2.cache = requests.cache ∧
      (requests.accept idna wire recipient now).2.held = requests.held ∧
      (requests.accept idna wire recipient now).2.generation = requests.generation ∧
      ∀ resolution ∈ (requests.accept idna wire recipient now).2.running,
        resolution ∈ requests.running ∨ resolution.started = now ∧ ∃ task,
          (requests.accept idna wire recipient now).1 = .ok (.start task) ∧
          task.id = resolution.id := by
  obtain ⟨same, -⟩ | ⟨question, key, admitted⟩ := accept_cases idna requests wire recipient now
  · rw [same]
    exact ⟨rfl, rfl, rfl, fun _ member => .inl member⟩
  · rw [admitted]
    obtain ⟨error, after⟩ | ⟨entry, -, -, -, after⟩ | ⟨-, -, after⟩ :=
      requests.pool.admit_cases key
        { recipient, id := question.metadata.id, asked := question.asked }
    · simp only [admitQuestion, after]
      exact ⟨trivial, trivial, trivial, fun _ member => .inl member⟩
    · simp only [admitQuestion, after]
      exact ⟨trivial, trivial, trivial, fun _ member => .inl member⟩
    · simp only [admitQuestion, after]
      refine ⟨trivial, trivial, trivial, fun resolution member => ?_⟩
      rcases mem_concat.mp member with earlier | rfl
      · exact .inl earlier
      · exact .inr ⟨rfl, _, rfl, rfl⟩

theorem Founded.accept (founded : Founded idna initial ops (initial.run idna ops).1) (wire : Wire)
    (recipient : ω) (now : Instant) :
    Founded idna initial (ops ++ [.accept wire recipient now])
      ((initial.run idna ops).1.accept idna wire recipient now).2 := by
  obtain ⟨cache, held, generation, running⟩ :=
    (initial.run idna ops).1.accept_memory idna wire recipient now
  have later := founded.later (.accept wire recipient now) (by simp)
  refine ⟨?_, ?_, ?_, ?_⟩
  · intro resolution member
    rcases running resolution member with before | ⟨rfl, task, answered, same⟩
    · exact later.started resolution before
    · exact ⟨ops, [], wire, recipient, task, rfl, answered, same⟩
  · rw [cache, generation]
    exact later.cache
  · rw [cache]
    exact later.cacheRoom
  · rw [held]
    exact later.heldRoom

/-- What completing leaves: fewer running resolutions, and what the outcome teaches. -/
theorem complete_memory (requests : DnsRequests hickory ω) (number : Nat)
    (answer : Except DnsError Wire) (now : Instant) :
    (requests.complete number answer now).2 = requests ∨
      ∃ resolution ∈ requests.running, resolution.id = number ∧
        (∀ other ∈ (requests.complete number answer now).2.running, other ∈ requests.running) ∧
        Learned requests (requests.complete number answer now).2 resolution
          (outcome resolution answer now) := by
  obtain ⟨-, nothing⟩ | ⟨index, inside, same, after⟩ := requests.complete_eq number answer now
  · rw [nothing]
    exact .inl rfl
  · rw [after]
    refine .inr ⟨requests.running[index], List.getElem_mem inside, same, ?_, ?_⟩
    · intro other member
      rw [(learn_running ..).1] at member
      exact (perm_swapRemove requests.running index inside).mem_iff.mpr (List.mem_cons_of_mem _ member)
    · have learned := learn_learned { requests with running := swapRemove index requests.running }
        requests.running[index] (outcome requests.running[index] answer now) now
      exact ⟨learned.cache, learned.generation, learned.cacheRoom, learned.heldRoom⟩

theorem Founded.complete (founded : Founded idna initial ops (initial.run idna ops).1) (number : Nat)
    (answer : Except DnsError Wire) (now : Instant) :
    Founded idna initial (ops ++ [.complete number answer now])
      ((initial.run idna ops).1.complete number answer now).2 := by
  have later := founded.later (.complete number answer now) (by simp)
  obtain nothing | ⟨resolution, member, rfl, fewer, learned⟩ :=
    (initial.run idna ops).1.complete_memory number answer now
  · rw [nothing]
    exact later
  · refine ⟨fun other left => later.started other (fewer other left), ?_,
      learned.cacheRoom later.cacheRoom, learned.heldRoom later.heldRoom⟩
    intro entry inside
    rw [learned.generation]
    rcases learned.cache entry inside with before | ⟨response, found, key, current, message, received, sound⟩
    · exact later.cache entry before
    · exact ⟨sound, current, resolution, response, ⟨ops, [], answer, now, rfl, by simp, member,
        founded.started resolution member, found⟩, key, message, received⟩

theorem Founded.fail (founded : Founded idna initial ops requests) (number : Nat) (error : DnsError)
    (now : Instant) : Founded idna initial ops (requests.complete number (.error error) now).2 := by
  obtain nothing | ⟨resolution, -, -, fewer, learned⟩ :=
    requests.complete_memory number (.error error) now
  · rw [nothing]
    exact founded
  · refine ⟨fun other left => founded.started other (fewer other left), ?_,
      learned.cacheRoom founded.cacheRoom, learned.heldRoom founded.heldRoom⟩
    intro entry inside
    rw [learned.generation]
    rcases learned.cache entry inside with before | ⟨response, found, -⟩
    · exact founded.cache entry before
    · unfold outcome at found
      split at found <;> cases found

theorem Founded.completeAll (founded : Founded idna initial ops requests) (now : Instant)
    (numbers : List Nat) : Founded idna initial ops (requests.completeAll now numbers).2 := by
  induction numbers generalizing requests with
  | nil => exact founded
  | cons number numbers ih => exact ih (founded.fail number .incompleteResponse now)

/-- A resolution that is asked again keeps its id and its start. -/
theorem rekey_memory (requests : DnsRequests hickory ω) (number : Nat) :
    (requests.rekey number).cache = requests.cache ∧ (requests.rekey number).held = requests.held ∧
      (requests.rekey number).generation = requests.generation ∧
      ∀ resolution ∈ (requests.rekey number).running, ∃ before ∈ requests.running,
        resolution.id = before.id ∧ resolution.started = before.started := by
  obtain same | ⟨index, inside, key, -, -, -, after⟩ := requests.rekey_cases number
  · rw [same]
    exact ⟨rfl, rfl, rfl, fun resolution member => ⟨resolution, member, rfl, rfl⟩⟩
  · rw [after]
    refine ⟨rfl, rfl, rfl, fun resolution member => ?_⟩
    rcases List.mem_or_eq_of_mem_set member with before | rfl
    · exact ⟨resolution, before, rfl, rfl⟩
    · exact ⟨_, List.getElem_mem inside, rfl, rfl⟩

theorem Founded.rekey (founded : Founded idna initial ops requests) (number : Nat) :
    Founded idna initial ops (requests.rekey number) := by
  obtain ⟨cache, held, generation, running⟩ := requests.rekey_memory number
  refine ⟨?_, ?_, ?_, ?_⟩
  · intro resolution member
    obtain ⟨before, listed, same, start⟩ := running resolution member
    obtain ⟨front, after, wire, recipient, task, split, answered, task_id⟩ :=
      founded.started before listed
    exact ⟨front, after, wire, recipient, task, start ▸ split, start ▸ answered, same ▸ task_id⟩
  · rw [cache, generation]
    exact founded.cache
  · rw [cache]
    exact founded.cacheRoom
  · rw [held]
    exact founded.heldRoom

theorem Founded.advance (founded : Founded idna initial ops requests) :
    Founded idna initial (ops ++ [.advanceGeneration]) requests.advanceGeneration := by
  refine ⟨?_, ?_, Nat.zero_le _, Nat.zero_le _⟩
  · intro resolution member
    exact (founded.started resolution member).later .advanceGeneration
  · intro entry member
    cases member

theorem Founded.run (idna : Idna) (initial : DnsRequests hickory ω)
    (start : Founded idna initial [] initial) (ops : List (RequestOp ω)) :
    Founded idna initial ops (initial.run idna ops).1 := by
  induction ops using List.reverseRecOn with
  | nil => exact start
  | append_singleton ops op ih =>
    rw [run_append]
    cases op with
    | accept wire recipient now => exact ih.accept wire recipient now
    | complete number answer now => exact ih.complete number answer now
    | expire now => exact (ih.completeAll now _).later _ (by simp)
    | rekey number => exact (ih.rekey number).later _ (by simp)
    | advanceGeneration => exact ih.advance

theorem new_empty {initial : DnsRequests hickory ω}
    (made : DnsRequests.new policy number maxResolutions maxWaiters limit = .ok initial)
    (hold : Duration) :
    (initial.withFailureHold hold).running = [] ∧ (initial.withFailureHold hold).cache = [] ∧
      (initial.withFailureHold hold).held = [] ∧
      (initial.withFailureHold hold).pool.pending = [] := by
  unfold DnsRequests.new at made
  split at made
  · cases made
  · obtain ⟨pool, fresh, same⟩ := Except.bind_eq_ok.mp made
    cases same
    refine ⟨rfl, rfl, rfl, ?_⟩
    unfold ResolutionPool.new at fresh
    split at fresh
    · cases fresh
    · cases fresh
      rfl

/-- An answer from the cache is one found under the same key since the settings last changed, with
no record made to live longer, and the memory of answers and failures is bounded. -/
theorem cached_answers_expire {initial : DnsRequests hickory ω} (idna : Idna) (hold : Duration)
    (made : DnsRequests.new policy number maxResolutions maxWaiters limit = .ok initial)
    (ops : List (RequestOp ω)) :
    let owner := initial.withFailureHold hold
    let final := (owner.run idna ops).1
    (∀ key question now served, final.cached key question now = some served →
      ∃ resolution response, Completed idna owner ops resolution response ∧
        resolution.key = key ∧ key.generation = final.generation ∧
        response.message.metadata.responseCode = .noError ∧ response.message.answers ≠ [] ∧
        response.message.metadata.truncation = false ∧ response.message.signature = none ∧
        ∃ message, hickory.toVec message = some served ∧
          Unstretched now resolution.started response.message message) ∧
      final.cache.length ≤ maxCachedAnswers ∧ final.held.length ≤ maxHeldFailures := by
  intro owner final
  have idle : owner.running = [] ∧ owner.cache = [] ∧ owner.held = [] ∧ _ := new_empty made hold
  have start : Founded idna owner [] owner := by
    refine ⟨?_, ?_, ?_, ?_⟩
    · simp [idle]
    · simp [idle]
    · simp [idle]
    · simp [idle]
  have founded : Founded idna owner ops final := Founded.run idna owner start ops
  refine ⟨?_, founded.cacheRoom, founded.heldRoom⟩
  intro key question now served found
  obtain ⟨kept, count, member, begun, young, written⟩ := cached_eq_some found
  obtain ⟨sound, generation, resolution, response, completed, same, message, received⟩ :=
    founded.cache _ member
  have unstretched := servedMessage_unstretched sound question begun young
  have answered := sound.answered
  have noError := sound.noError
  have untruncated := sound.untruncated
  have unsigned := sound.unsigned
  simp only at message received
  rw [message] at answered noError untruncated unsigned
  rw [message, received] at unstretched
  exact ⟨resolution, response, completed, same.symm, generation, noError, answered, untruncated,
    unsigned, _, written, unstretched⟩

def answeredMessage : Message :=
  { metadata := { id := 7, messageType := .response, opCode := .query }
    queries := slotQuery.queries
    answers := [{ name := ⟨[[97]], true⟩, dnsClass := .internet, ttl := 10, data := .a 1 }] }

/-- A name is asked for and answered with a record that lives for ten seconds. -/
def answeredOps : List (RequestOp Nat) :=
  [.accept (PlainLibrary.message.encode slotQuery) 1 0,
    .complete 0 (.ok (PlainLibrary.message.encode answeredMessage)) (seconds 1)]

/-- What the cache serves for the name after that. -/
def servedAt (now : Instant) : Option Wire := do
  let question ← (Question.parse plainHickory (PlainLibrary.message.encode slotQuery)).toOption
  let key ← (question.resolutionKey 0).toOption
  ((slotRequests.withFailureHold 0).run plainIdna answeredOps).1.cached key question now

theorem one_answer_expires :
    (servedAt (seconds 3)).isSome ∧ servedAt (seconds 10) = none ∧
      ∃ served message response, servedAt (seconds 3) = some served ∧
        plainHickory.toVec message = some served ∧ Unstretched (seconds 3) 0 response message := by
  have live : (servedAt (seconds 3)).isSome := by decide +kernel
  refine ⟨live, by decide +kernel, ?_⟩
  obtain ⟨served, found⟩ := Option.isSome_iff_exists.mp live
  have made : DnsRequests.new slotRequests.gate.policy 0 1 1 (seconds 5) = .ok slotRequests := rfl
  have served_by := found
  unfold servedAt at served_by
  obtain ⟨question, -, keyed⟩ := Option.bind_eq_some_iff.mp served_by
  obtain ⟨key, -, cached⟩ := Option.bind_eq_some_iff.mp keyed
  obtain ⟨resolution, response, completed, -, -, -, -, -, -, message, written, unstretched⟩ :=
    (cached_answers_expire plainIdna 0 made answeredOps).1 key question (seconds 3) served cached
  have started : resolution.started = 0 := by
    obtain ⟨before, after, answer, now, split, -, -, ⟨front, back, wire, recipient, task, start, -⟩, -⟩ :=
      completed
    have listed : .accept wire recipient resolution.started ∈ answeredOps := by simp [split, start]
    simp only [answeredOps, List.mem_cons, RequestOp.accept.injEq, reduceCtorEq, List.not_mem_nil,
      or_false] at listed
    exact listed.2.2
  rw [started] at unstretched
  exact ⟨served, message, response.message, found, written, unstretched⟩

end Kakoi.DnsRequests
