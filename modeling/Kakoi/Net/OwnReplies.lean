import Kakoi.Net.CachedAnswers

/-! Every reply is for the one who gets it, whoever else shared the resolution. -/

namespace Kakoi

/-- Names that differ in the case of their letters alone are presented differently. -/
def Hickory.KeepsCase (hickory : Hickory) : Prop :=
  ∀ left right : DomainName, left.eqIgnoreRoot right = true →
    hickory.toAscii left = hickory.toAscii right → left.labels = right.labels

namespace DnsRequests

variable {initial requests : DnsRequests hickory ω}
  {question : Question hickory}

/-- The bytes are a message with the id and the question of a query. -/
def Addressed (hickory : Hickory) (wire : Wire) (id : UInt16) (query : Query) : Prop :=
  ∃ message, hickory.read wire = some (message, []) ∧ message.metadata.id = id ∧
    message.queries = [query]

/-- The bytes are an error of the environment's own, with nothing but a question. -/
def ErrorReply (hickory : Hickory) (wire : Wire) : Prop :=
  ∃ message, hickory.read wire = some (message, []) ∧
    (message.metadata.responseCode = .servFail ∨ message.metadata.responseCode = .refused) ∧
    message.answers = [] ∧ message.authorities = [] ∧ message.additionals = []

section Replies

theorem expectErrorResponse_written (question : Question hickory) (code : ResponseCode) :
    hickory.toVec (question.errorMessage code) = some (question.expectErrorResponse code) := by
  have expected := question.errorResponse_expected code
  unfold Question.errorResponse at expected
  split at expected
  · rename_i wire written
    cases expected
    exact written
  · cases expected

variable (faithful : hickory.Faithful)

include faithful

theorem addressed_of_toVec (written : hickory.toVec message = some wire)
    (same : message.metadata.id = own) (asked : message.queries = [query]) :
    Addressed hickory wire own query :=
  ⟨message, faithful message wire written, same, asked⟩

theorem expectErrorResponse_addressed (question : Question hickory) (code : ResponseCode) :
    Addressed hickory (question.expectErrorResponse code) question.metadata.id question.query :=
  addressed_of_toVec faithful (expectErrorResponse_written question code) rfl rfl

theorem reply_addressed (replied : reply question recipient code = .ok (.answer given)) :
    given.recipient = recipient ∧
      Addressed hickory given.wire question.metadata.id question.query := by
  unfold reply at replied
  rw [Question.errorResponse_expected] at replied
  cases replied
  exact ⟨rfl, expectErrorResponse_addressed faithful question code⟩

theorem reservedHost_addressed (reserved : question.reservedHostResponse idna = some (.ok wire)) :
    Addressed hickory wire question.metadata.id question.query := by
  unfold Question.reservedHostResponse at reserved
  split at reserved
  · cases reserved
  · dsimp only at reserved
    split at reserved
    · rename_i written
      cases reserved
      exact addressed_of_toVec faithful written rfl rfl
    · cases reserved

end Replies

/-- What of a question its key is written from. -/
def keyMessage (question : Question hickory) : Message :=
  if question.signature.isNone then
    { question.message with
      metadata := { question.metadata with id := 0 }
      queries := [{ question.query with name := question.query.name.toLowercase }] }
  else question.message

theorem resolutionKey_written (keyed : question.resolutionKey number = .ok key) :
    hickory.toVec (keyMessage question) = some key.wire ∧ key.generation = number := by
  unfold Question.resolutionKey at keyed
  dsimp only at keyed
  split at keyed
  · rename_i wire written
    cases keyed
    exact ⟨written, rfl⟩
  · cases keyed

/-- A key is a key of the same question under any settings. -/
theorem resolutionKey_moved (keyed : question.resolutionKey number = .ok key) (other : Nat) :
    question.resolutionKey other = .ok { key with generation := other } := by
  have written := (resolutionKey_written keyed).1
  unfold Question.resolutionKey
  dsimp only
  split
  · rename_i wire found
    cases Option.some.inj (Eq.trans found.symm written)
    rfl
  · rename_i failed
    cases Eq.trans failed.symm written

theorem keyMessage_query (question : Question hickory) :
    ∃ query, (keyMessage question).queries = [query] ∧
      query.name.toLowercase = question.query.name.toLowercase ∧
      query.queryType = question.query.queryType ∧ query.queryClass = question.query.queryClass := by
  unfold keyMessage
  split
  · refine ⟨_, rfl, ?_, rfl, rfl⟩
    exact DomainName.toLowercase_twice question.query.name
  · exact ⟨_, rfl, rfl, rfl, rfl⟩

/-- Questions under one key differ in nothing but their message id and the case of the name. -/
theorem resolutionKey_shared (faithful : hickory.Faithful) {left right : Question hickory}
    (first : left.resolutionKey number = .ok key) (second : right.resolutionKey number = .ok key) :
    left.query.name.toLowercase = right.query.name.toLowercase ∧
      left.query.queryType = right.query.queryType ∧
      left.query.queryClass = right.query.queryClass := by
  have readLeft := faithful _ _ (resolutionKey_written first).1
  have readRight := faithful _ _ (resolutionKey_written second).1
  have same : keyMessage left = keyMessage right := by
    rw [readLeft] at readRight
    exact congrArg Prod.fst (Option.some.inj readRight)
  obtain ⟨query, queries, name, kind, dnsClass⟩ := keyMessage_query left
  obtain ⟨other, others, otherName, otherKind, otherClass⟩ := keyMessage_query right
  rw [same, others] at queries
  cases queries
  exact ⟨name.symm.trans otherName, kind.symm.trans otherKind, dnsClass.symm.trans otherClass⟩

/-- What a response repeats is the question of one that waits, where it is presented the same. -/
theorem repeated_eq (cased : hickory.KeepsCase) {repeated asked own : Query}
    (same : repeated.same asked = true)
    (shared : own.name.toLowercase = asked.name.toLowercase ∧ own.queryType = asked.queryType ∧
      own.queryClass = asked.queryClass)
    (presented : hickory.toAscii repeated.name = hickory.toAscii own.name) : repeated = own := by
  obtain ⟨name, kind, dnsClass⟩ := shared
  unfold Query.same DomainName.same at same
  simp only [Bool.and_eq_true, beq_iff_eq] at same
  obtain ⟨⟨⟨fqdn, lower⟩, sameKind⟩, sameClass⟩ := same
  have ownLabels : own.name.toLowercase.labels = asked.name.toLowercase.labels := by rw [name]
  have ownFqdn : own.name.isFqdn = asked.name.isFqdn := by
    change own.name.toLowercase.isFqdn = asked.name.toLowercase.isFqdn
    rw [name]
  have caseless : repeated.name.eqIgnoreRoot own.name = true := by
    rw [DomainName.eqIgnoreRoot_iff] at lower ⊢
    exact lower.trans ownLabels.symm
  have labels := cased _ _ caseless presented
  obtain ⟨⟨repeatedLabels, repeatedFqdn⟩, repeatedKind, repeatedClass⟩ := repeated
  obtain ⟨⟨ownLabels, ownFqdn⟩, ownKind, ownClass⟩ := own
  simp_all

theorem outcome_validated {resolution : Running hickory}
    (found : outcome resolution answer now = .ok response) :
    answer = .ok response.wire ∧ hickory.read response.wire = some (response.message, []) ∧
      ∃ repeated, response.message.queries = [repeated] ∧
        repeated.same resolution.question.query = true := by
  unfold outcome at found
  split at found
  · cases found
  · obtain ⟨wire, rfl, validated⟩ := Except.bind_eq_ok.mp found
    obtain ⟨rfl, read, repeats⟩ := Question.validateResponse_ok validated
    exact ⟨rfl, read, repeats⟩

/-- The reply to one that waits is its own, where its question is under the key of the
resolution. -/
theorem replyTo_addressed (faithful : hickory.Faithful) (cased : hickory.KeepsCase)
    {resolution : Running hickory}
    (shared : waiter.asked.query.name.toLowercase = resolution.question.query.name.toLowercase ∧ waiter.asked.query.queryType = resolution.question.query.queryType ∧ waiter.asked.query.queryClass = resolution.question.query.queryClass)
    (answer : Except DnsError Wire) (now : Instant) :
    Addressed hickory (replyTo resolution (outcome resolution answer now) waiter).wire waiter.id
      waiter.asked.query := by
  have failure : ∀ code, Addressed hickory (Question.expectErrorResponse
      { resolution.question with
        metadata := { resolution.question.metadata with id := waiter.id }
        asked := waiter.asked } code) waiter.id waiter.asked.query := fun code =>
    expectErrorResponse_addressed faithful _ code
  cases result : outcome resolution answer now with
  | error error => exact failure _
  | ok response =>
    unfold replyTo
    dsimp only
    cases given : sharedWire response waiter with
    | none => exact failure _
    | some wire =>
      rw [Option.getD_some]
      obtain ⟨same, read, repeated, queries, repeats⟩ := outcome_validated result
      unfold sharedWire at given
      dsimp only at given
      split at given
      · rename_i presented
        cases given
        rw [queries] at presented
        simp only [Bool.and_eq_true, decide_eq_true_eq, List.head?_cons, Option.any_some] at presented
        refine ⟨response.message, read, presented.1, ?_⟩
        rw [queries, repeated_eq cased repeats shared presented.2]
      · split at given
        · cases given
        · refine addressed_of_toVec faithful given rfl ?_
          simp [queries]

section Waiting

/-- One that waits has the id and the question of a query it was accepted with, and waits under
a key of that question. -/
def OwnWaiter (ops : List (RequestOp ω)) (key : ResolutionKey) (waiter : Waiter hickory ω) : Prop :=
  ∃ wire now question, .accept wire waiter.recipient now ∈ ops ∧
    Question.parse hickory wire = .ok question ∧ waiter.id = question.metadata.id ∧
    waiter.asked = question.asked ∧ question.resolutionKey key.generation = .ok key

structure OwnWaiters (ops : List (RequestOp ω)) (requests : DnsRequests hickory ω) : Prop where
  keyed : ∀ resolution ∈ requests.running,
    resolution.question.resolutionKey resolution.key.generation = .ok resolution.key
  waiting : ∀ entry ∈ requests.pool.pending, ∀ waiter ∈ entry.2.waiters,
    OwnWaiter ops entry.1 waiter

variable (own : OwnWaiters ops requests)

include own

theorem OwnWaiters.later (op : RequestOp ω) : OwnWaiters (ops ++ [op]) requests := by
  refine ⟨own.keyed, fun entry inside waiter waits => ?_⟩
  obtain ⟨wire, now, question, listed, rest⟩ := own.waiting entry inside waiter waits
  exact ⟨wire, now, question, List.mem_append_left _ listed, rest⟩

theorem OwnWaiters.admitQuestion (listed : .accept wire recipient now ∈ ops)
    (parsed : Question.parse hickory wire = .ok question)
    (keyed : question.resolutionKey requests.generation = .ok key) :
    OwnWaiters ops (requests.admitQuestion wire question key recipient now).2 := by
  have current : question.resolutionKey key.generation = .ok key := by
    rw [(resolutionKey_written keyed).2]
    exact keyed
  have fresh : OwnWaiter ops key
      { recipient, id := question.metadata.id, asked := question.asked : Waiter hickory ω } :=
    ⟨wire, now, question, listed, parsed, rfl, rfl, current⟩
  obtain ⟨error, refused⟩ | ⟨entry, member, rfl, free, joins⟩ | ⟨absent, free, starts⟩ :=
    requests.pool.admit_cases key { recipient, id := question.metadata.id, asked := question.asked }
  · simp only [DnsRequests.admitQuestion, refused]
    exact own
  · simp only [DnsRequests.admitQuestion, joins]
    refine ⟨own.keyed, fun after found waiter waits => ?_⟩
    obtain ⟨before, inside, rfl⟩ := List.mem_map.mp found
    rw [ResolutionPool.addWaiter_key]
    unfold ResolutionPool.addWaiter at waits
    split at waits
    · rename_i same
      rcases mem_concat.mp waits with earlier | last
      · exact own.waiting before inside waiter earlier
      · rw [last, same]
        exact fresh
    · exact own.waiting before inside waiter waits
  · simp only [DnsRequests.admitQuestion, starts]
    constructor
    · intro resolution member
      rcases mem_concat.mp member with earlier | rfl
      · exact own.keyed resolution earlier
      · exact current
    · intro entry member waiter waits
      rcases mem_concat.mp member with earlier | rfl
      · exact own.waiting entry earlier waiter waits
      · cases List.mem_singleton.mp waits
        exact fresh

theorem OwnWaiters.accept (idna : Idna) (wire : Wire) (recipient : ω) (now : Instant) :
    OwnWaiters (ops ++ [.accept wire recipient now])
      (requests.accept idna wire recipient now).2 := by
  have later := own.later (.accept wire recipient now)
  obtain ⟨error, refused⟩ | ⟨question, parsed, answered⟩ :=
    accept_answered idna requests wire recipient now
  · rw [refused]
    exact later
  · generalize requests.accept idna wire recipient now = given at answered
    cases answered with
    | reserved => exact later
    | failed => exact later
    | cached => exact later
    | admitted keyed => exact later.admitQuestion (by simp) parsed keyed

theorem OwnWaiters.complete (number : Nat) (answer : Except DnsError Wire) (now : Instant) :
    OwnWaiters ops (requests.complete number answer now).2 := by
  obtain ⟨-, nothing⟩ | ⟨resolution, -, -, running, pool, -⟩ :=
    requests.complete_cases number answer now
  · rw [nothing]
    exact own
  · constructor
    · intro other left
      exact own.keyed other (running.mem_iff.mpr (List.mem_cons_of_mem _ left))
    · rw [pool]
      intro entry member
      exact own.waiting entry (List.mem_of_mem_filter member)

theorem OwnWaiters.completeAll (now : Instant) (numbers : List Nat) :
    OwnWaiters ops (requests.completeAll now numbers).2 := by
  induction numbers generalizing requests with
  | nil => exact own
  | cons number numbers ih => exact ih (own.complete number _ now)

theorem OwnWaiters.rekey (accounted : requests.Accounted ledger) (number : Nat) :
    OwnWaiters ops (requests.rekey number) := by
  obtain same | ⟨index, inside, key, numbered, keyed, -, after⟩ := requests.rekey_cases number
  · rw [same]
    exact own
  · have listed := List.getElem_mem inside
    have moved : key = { requests.running[index].key with generation := requests.generation } := by
      have again := resolutionKey_moved (own.keyed _ listed) requests.generation
      rw [keyed] at again
      exact Except.ok.inj again
    rw [after]
    constructor
    · intro resolution member
      rcases List.mem_or_eq_of_mem_set member with before | rfl
      · exact own.keyed resolution before
      · rw [(resolutionKey_written keyed).2]
        exact keyed
    · intro entry member waiter waits
      obtain ⟨kept, -⟩ | ⟨old, oldInside, oldNumber, -, after⟩ :=
        requests.pool.rekey_cases number key
      · rw [kept] at member
        exact own.waiting entry member waiter waits
      · rw [after] at member
        obtain ⟨before, earlier, rfl⟩ := List.mem_map.mp member
        split at waits
        · rename_i here
          obtain ⟨wire, now, question, given, parsed, sameId, asked, shared⟩ :=
            own.waiting before earlier waiter waits
          have oldKey := accounted.entry_key oldInside listed (oldNumber.trans numbered.symm)
          refine ⟨wire, now, question, given, parsed, sameId, asked, ?_⟩
          rw [if_pos here, moved]
          rw [here, oldKey] at shared
          exact resolutionKey_moved shared requests.generation
        · rename_i apart
          rw [if_neg apart]
          exact own.waiting before earlier waiter waits

end Waiting

/-- The replies one operation hands out. -/
def repliesOf (idna : Idna) (requests : DnsRequests hickory ω) : RequestOp ω → List (DnsReply ω)
  | .accept wire recipient now =>
    match (requests.accept idna wire recipient now).1 with
    | .ok (.answer reply) => [reply]
    | _ => []
  | .complete id answer now => (requests.complete id answer now).1
  | .expire now => (requests.expire now).1
  | .rekey _ => []
  | .advanceGeneration => []

/-- The recipient gave a query that is read, and the reply has its id and its question. -/
def OwnReply (hickory : Hickory) (ops : List (RequestOp ω)) (reply : DnsReply ω) : Prop :=
  ∃ wire now question, .accept wire reply.recipient now ∈ ops ∧
    Question.parse hickory wire = .ok question ∧
    Addressed hickory reply.wire question.metadata.id question.query

theorem OwnReply.later (own : OwnReply hickory ops given) (op : RequestOp ω) :
    OwnReply hickory (ops ++ [op]) given := by
  obtain ⟨wire, now, question, listed, rest⟩ := own
  exact ⟨wire, now, question, List.mem_append_left _ listed, rest⟩

/-- Those that wait for a resolution wait in the entry with its id. -/
theorem waiter_entry (pool : ResolutionPool κ ω) (waits : waiter ∈ (pool.complete number).1) :
    ∃ entry ∈ pool.pending, entry.2.id = number ∧ waiter ∈ entry.2.waiters := by
  unfold ResolutionPool.complete at waits
  dsimp only at waits
  cases last : (pool.pending.filter (·.2.id = number)).getLast? with
  | none => simp [last] at waits
  | some entry =>
    rw [last] at waits
    have member := List.mem_filter.mp (List.mem_of_getLast? last)
    exact ⟨entry, member.1, by simpa using member.2, waits⟩

/-- What every state of a run keeps of those that wait and of what is remembered. -/
structure RunKept (idna : Idna) (initial : DnsRequests hickory ω) (ops : List (RequestOp ω)) : Prop where
  accounted : (initial.run idna ops).1.Accounted (initial.run idna ops).2
  founded : Founded idna initial ops (initial.run idna ops).1
  own : OwnWaiters ops (initial.run idna ops).1

theorem RunKept.run (start : RunKept idna initial []) (ops : List (RequestOp ω)) :
    RunKept idna initial ops := by
  induction ops using List.reverseRecOn with
  | nil => exact start
  | append_singleton ops op ih =>
    refine ⟨?_, Founded.run idna initial start.founded _, ?_⟩
    · rw [run_append]
      exact ih.accounted.perform idna op
    · rw [run_append]
      cases op with
      | accept wire recipient now => exact ih.own.accept idna wire recipient now
      | complete number answer now => exact (ih.own.complete number answer now).later _
      | expire now => exact (ih.own.completeAll now _).later _
      | rekey number => exact (ih.own.rekey ih.accounted number).later _
      | advanceGeneration =>
        have later := ih.own.later .advanceGeneration
        exact ⟨later.keyed, later.waiting⟩

/-- A recipient that was given once was given with one query. -/
theorem accepted_once (distinct : (recipients ops).Nodup) (first : .accept wire recipient now ∈ ops)
    (second : .accept other recipient later ∈ ops) : wire = other := by
  induction ops with
  | nil => cases first
  | cons op ops ih =>
    have given : ∀ wire now, .accept wire recipient now ∈ ops → recipient ∈ recipients ops :=
      fun wire now member => List.mem_filterMap.mpr ⟨_, member, rfl⟩
    rcases List.mem_cons.mp first with rfl | firstLater
    · rcases List.mem_cons.mp second with same | secondLater
      · cases same
        rfl
      · exact absurd (given _ _ secondLater) (List.nodup_cons.mp distinct).1
    · rcases List.mem_cons.mp second with rfl | secondLater
      · exact absurd (given _ _ firstLater) (List.nodup_cons.mp distinct).1
      · refine ih ?_ firstLater secondLater
        cases op with
        | accept => exact (List.nodup_cons.mp distinct).2
        | complete | expire | rekey | advanceGeneration => exact distinct

section Libraries

variable (faithful : hickory.Faithful)

include faithful

theorem admitQuestion_reply
    (replied : (requests.admitQuestion wire question key recipient now).1 = .ok (.answer given)) :
    given.recipient = recipient ∧
      Addressed hickory given.wire question.metadata.id question.query := by
  obtain ⟨error, refused⟩ | ⟨entry, member, rfl, free, joins⟩ | ⟨absent, free, starts⟩ :=
    requests.pool.admit_cases key { recipient, id := question.metadata.id, asked := question.asked }
  · simp only [admitQuestion, refused] at replied
    exact reply_addressed faithful replied
  · simp [admitQuestion, joins] at replied
  · simp [admitQuestion, starts] at replied

/-- An answer from the cache is written for the question it is served to. -/
theorem cached_addressed (founded : Founded idna initial ops requests)
    (found : requests.cached key question now = some served) :
    ∃ message, hickory.read served = some (message, []) ∧ message.metadata.id = question.metadata.id ∧
      message.queries = [question.query] ∧ message.signature = none := by
  obtain ⟨kept, count, member, -, -, written⟩ := cached_eq_some found
  obtain ⟨sound, -, resolution, response, completed, -, message, -⟩ := founded.cache _ member
  obtain ⟨before, after, answer, at_, -, -, -, -, result⟩ := completed
  obtain ⟨-, -, repeated, queries, -⟩ := outcome_validated result
  refine ⟨servedMessage kept question count, faithful _ _ written, rfl, ?_, sound.unsigned⟩
  simp only at message
  simp [servedMessage, message, queries]

theorem accept_own (founded : Founded idna initial ops requests) (wire : Wire) (recipient : ω)
    (now : Instant) (replied : given ∈ repliesOf idna requests (.accept wire recipient now)) :
    OwnReply hickory [.accept wire recipient now] given := by
  have answer : (requests.accept idna wire recipient now).1 = .ok (.answer given) := by
    simp only [repliesOf] at replied
    split at replied
    · rename_i same
      rw [List.mem_singleton.mp replied]
      exact same
    · cases replied
  suffices own : ∃ question, Question.parse hickory wire = .ok question ∧ given.recipient = recipient ∧
      Addressed hickory given.wire question.metadata.id question.query by
    obtain ⟨question, parsed, rfl, addressed⟩ := own
    exact ⟨wire, now, question, List.mem_singleton.mpr rfl, parsed, addressed⟩
  obtain ⟨error, refused⟩ | ⟨question, parsed, answered⟩ :=
    accept_answered idna requests wire recipient now
  · rw [refused] at answer
    cases answer
  · refine ⟨question, parsed, ?_⟩
    generalize requests.accept idna wire recipient now = result at answered answer
    cases answered with
    | reserved reserved =>
      cases answer
      exact ⟨rfl, reservedHost_addressed faithful reserved⟩
    | failed code => exact reply_addressed faithful answer
    | cached keyed found =>
      cases answer
      obtain ⟨message, read, same, asked, -⟩ := cached_addressed faithful founded found
      exact ⟨rfl, message, read, same, asked⟩
    | admitted keyed => exact admitQuestion_reply faithful answer

/-- A signed answer is handed on as it came, or not at all. -/
theorem signed_unchanged (read : hickory.read upstream = some (message, []))
    (signed : message.signature.isSome = true) (number : Nat) (now : Instant) :
    ∀ given ∈ (requests.complete number (.ok upstream) now).1,
      given.wire = upstream ∨ ErrorReply hickory given.wire := by
  intro given member
  obtain ⟨-, nothing⟩ | ⟨index, inside, numbered, after⟩ :=
    requests.complete_eq number (.ok upstream) now
  · rw [nothing] at member
    cases member
  · rw [after] at member
    obtain ⟨waiter, waits, rfl⟩ := List.mem_map.mp member
    have failure : ∀ (question : Question hickory) result,
        ErrorReply hickory (question.expectErrorResponse (outcomeCode result)) := by
      intro question result
      refine ⟨_, faithful _ _ (expectErrorResponse_written question _), ?_, rfl, rfl, rfl⟩
      unfold outcomeCode
      split
      · exact .inr rfl
      · exact .inl rfl
    cases result : outcome requests.running[index] (.ok upstream) now with
    | error error => exact .inr (failure _ _)
    | ok response =>
      obtain ⟨same, readResponse, -⟩ := outcome_validated result
      cases same
      rw [readResponse] at read
      cases read
      unfold replyTo
      dsimp only
      have handed : sharedWire response waiter = some response.wire ∨
          sharedWire response waiter = none := by
        unfold sharedWire
        dsimp only
        split
        · exact .inl rfl
        · exact .inr rfl
      rcases handed with whole | none
      · rw [whole]
        exact .inl rfl
      · rw [none]
        exact .inr (failure _ _)

variable (cased : hickory.KeepsCase)

include cased

theorem complete_own (accounted : requests.Accounted ledger) (own : OwnWaiters ops requests)
    (number : Nat) (answer : Except DnsError Wire) (now : Instant) :
    ∀ given ∈ (requests.complete number answer now).1, OwnReply hickory ops given := by
  intro given member
  obtain ⟨-, nothing⟩ | ⟨index, inside, numbered, after⟩ := requests.complete_eq number answer now
  · rw [nothing] at member
    cases member
  · rw [after] at member
    obtain ⟨waiter, waits, rfl⟩ := List.mem_map.mp member
    obtain ⟨entry, listed, same, here⟩ := waiter_entry requests.pool waits
    have running := List.getElem_mem inside
    have key := accounted.entry_key listed running (same.trans numbered.symm)
    obtain ⟨wire, time, question, accepted, parsed, sameId, asked, keyed⟩ :=
      own.waiting entry listed waiter here
    rw [key] at keyed
    have shared := resolutionKey_shared faithful keyed (own.keyed _ running)
    have query : waiter.asked.query = question.query := by rw [asked]; rfl
    have addressed := replyTo_addressed faithful cased (query ▸ shared) answer now
    rw [sameId, query] at addressed
    exact ⟨wire, time, question, accepted, parsed, addressed⟩

theorem completeAll_own (accounted : requests.Accounted ledger) (own : OwnWaiters ops requests)
    (now : Instant) (numbers : List Nat) :
    ∀ given ∈ (requests.completeAll now numbers).1, OwnReply hickory ops given := by
  induction numbers generalizing requests ledger with
  | nil =>
    intro given member
    cases member
  | cons number numbers ih =>
    intro given member
    rcases List.mem_append.mp member with here | later
    · exact complete_own faithful cased accounted own number _ now given here
    · exact ih (accounted.complete number _ now) (own.complete number _ now) given later

theorem repliesOf_own (kept : RunKept idna initial ops) (op : RequestOp ω) :
    ∀ given ∈ repliesOf idna (initial.run idna ops).1 op, OwnReply hickory (ops ++ [op]) given := by
  intro given member
  cases op with
  | accept wire recipient now =>
    obtain ⟨own, time, question, listed, rest⟩ :=
      accept_own faithful kept.founded wire recipient now member
    exact ⟨own, time, question, List.mem_append_right _ listed, rest⟩
  | complete number answer now =>
    exact (complete_own faithful cased kept.accounted kept.own number answer now given member).later _
  | expire now =>
    exact (completeAll_own faithful cased kept.accounted kept.own now _ given member).later _
  | rekey number => cases member
  | advanceGeneration => cases member

end Libraries

/-- Every reply has the id and the question of its recipient's own query; a signed answer is handed
on as it came or not at all, and never from the cache. -/
theorem replies_own {initial : DnsRequests hickory ω} (faithful : hickory.Faithful)
    (cased : hickory.KeepsCase) (idna : Idna) (hold : Duration)
    (made : DnsRequests.new policy number maxResolutions maxWaiters limit = .ok initial)
    (ops : List (RequestOp ω)) (op : RequestOp ω) :
    let before := ((initial.withFailureHold hold).run idna ops).1
    (∀ given ∈ repliesOf idna before op, OwnReply hickory (ops ++ [op]) given) ∧
      ((recipients (ops ++ [op])).Nodup → ∀ given ∈ repliesOf idna before op, ∀ wire now question,
        .accept wire given.recipient now ∈ ops ++ [op] →
          Question.parse hickory wire = .ok question →
          Addressed hickory given.wire question.metadata.id question.query) ∧
      (∀ id upstream message now, op = .complete id (.ok upstream) now →
        hickory.read upstream = some (message, []) → message.signature.isSome = true →
        ∀ given ∈ repliesOf idna before op,
          given.wire = upstream ∨ ErrorReply hickory given.wire) ∧
      ∀ key question now served, before.cached key question now = some served →
        ∃ message, hickory.read served = some (message, []) ∧ message.signature = none := by
  intro before
  obtain ⟨accounted, -, -⟩ := new_accounted made hold
  obtain ⟨running, cache, held, pending⟩ := new_empty made hold
  have start : RunKept idna (initial.withFailureHold hold) [] := by
    refine ⟨accounted, ⟨?_, ?_, ?_, ?_⟩, ⟨?_, ?_⟩⟩
    · simp [run, running]
    · simp [run, cache]
    · simp [run, cache]
    · simp [run, held]
    · simp [run, running]
    · simp [run, pending]
  have kept := start.run ops
  have own := repliesOf_own faithful cased kept op
  refine ⟨own, ?_, ?_, ?_⟩
  · intro distinct given member wire now question listed parsed
    obtain ⟨other, time, asked, accepted, read, addressed⟩ := own given member
    cases accepted_once distinct listed accepted
    cases parsed.symm.trans read
    exact addressed
  · rintro id upstream message now rfl read signed given member
    exact signed_unchanged faithful read signed id now given member
  · intro key question now served found
    obtain ⟨message, read, -, -, unsigned⟩ := cached_addressed faithful kept.founded found
    exact ⟨message, read, unsigned⟩

section TwoCases

open PlainLibrary

theorem character_read (byte : UInt8) : UInt8.ofNat (character byte).toNat = byte := by
  have all : ∀ value : Fin 256,
      UInt8.ofNat (character (UInt8.ofFin value)).toNat = UInt8.ofFin value := by
    decide +kernel
  exact all byte.toFin

theorem character_injective : Function.Injective character := by
  intro left right same
  rw [← character_read left, same, character_read]

/-- Every byte of a label as a character, and then a dot. -/
def casedLabel (label : List UInt8) : List Char := label.map character ++ ['.']

theorem casedLabels_injective {left right : List (List UInt8)}
    (caseless : left.map (·.map lowerByte) = right.map (·.map lowerByte))
    (written : left.flatMap casedLabel = right.flatMap casedLabel) : left = right := by
  induction left generalizing right with
  | nil => exact (List.map_eq_nil_iff.mp caseless.symm).symm
  | cons label labels ih =>
    cases right with
    | nil => cases caseless
    | cons other others =>
      obtain ⟨here, later⟩ := List.cons.inj caseless
      have length : label.length = other.length := by simpa using congrArg List.length here
      rw [List.flatMap_cons, List.flatMap_cons] at written
      obtain ⟨same, rest⟩ := List.append_inj written (by simp [casedLabel, length])
      have bytes := (List.append_left_inj _).mp same
      rw [List.map_injective_iff.mpr character_injective bytes, ih later rest]

/-- A library that presents every letter as it is, and reads no names. -/
def casedHickory : Hickory :=
  { plainHickory with
    toAscii := fun name => String.ofList (name.labels.flatMap casedLabel)
    fromAscii := fun _ => none
    presents := by simp
    caseless := by simp }

theorem casedHickory_keepsCase : casedHickory.KeepsCase := by
  intro left right caseless presented
  refine casedLabels_injective (DomainName.eqIgnoreRoot_iff.mp caseless) ?_
  have written : String.ofList (left.labels.flatMap casedLabel) =
      String.ofList (right.labels.flatMap casedLabel) := presented
  simpa using congrArg String.toList written

theorem casedHickory_faithful : casedHickory.Faithful := plainHickory_faithful

/-- The query of another client, in capital letters. -/
def capitalQuery : Message :=
  { metadata := { id := 9, messageType := .query, opCode := .query }
    queries := [{ name := ⟨[[65]], true⟩, queryType := .a, queryClass := .internet }] }

/-- Names in small letters. -/
def lowerIdna : Idna := ⟨fun name => some name.toLower⟩

def casesRequests : DnsRequests casedHickory Nat :=
  { gate := { policy := [⟨.dns ⟨"a", false⟩, .tcp, ⟨[(1, 65535)]⟩⟩] }
    generation := 0
    pool := { maxResolutions := 1, maxWaiters := 2 }
    timeout := seconds 5 }

def casesOps : List (RequestOp Nat) :=
  [.accept (PlainLibrary.message.encode slotQuery) 1 0,
    .accept (PlainLibrary.message.encode capitalQuery) 2 0]

def casesAnswer : RequestOp Nat :=
  .complete 0 (.ok (PlainLibrary.message.encode answeredMessage)) (seconds 1)

def casesReplies : List (DnsReply Nat) :=
  repliesOf lowerIdna ((casesRequests.withFailureHold 0).run lowerIdna casesOps).1 casesAnswer

theorem two_cases_own :
    casesReplies.map DnsReply.recipient = [1, 2] ∧
      ∀ given ∈ casesReplies, OwnReply casedHickory (casesOps ++ [casesAnswer]) given := by
  refine ⟨by decide +kernel, ?_⟩
  have made : DnsRequests.new casesRequests.gate.policy 0 1 2 (seconds 5) = .ok casesRequests := rfl
  exact (replies_own casedHickory_faithful casedHickory_keepsCase lowerIdna 0 made casesOps
    casesAnswer).1

end TwoCases

end DnsRequests

end Kakoi
