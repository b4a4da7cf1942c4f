import Kakoi.Base.Collecting
import Kakoi.Base.Least
import Kakoi.Net.Resolve

/-! What the candidates of a resolution rest on: a chain of aliases in the replies, and the
earliest end of what was used. -/

namespace Kakoi

variable {candidates : List AddressCandidate}

/-- What names that differ in case only have in common. -/
def DomainName.folded (name : DomainName) : List (List UInt8) := name.toLowercase.labels

theorem DomainName.eqIgnoreRoot_folded (left right : DomainName) :
    left.eqIgnoreRoot right = decide (left.folded = right.folded) := by
  rw [Bool.eq_iff_iff, eqIgnoreRoot_iff]
  exact decide_eq_true_iff.symm

def Record.ownedBy (record : Record) (name : DomainName) : Prop :=
  record.dnsClass = .internet ∧ record.name.eqIgnoreRoot name = true

instance (record : Record) (name : DomainName) : Decidable (record.ownedBy name) :=
  inferInstanceAs (Decidable (_ ∧ _))

theorem mem_recordsOf : record ∈ recordsOf answers name ↔
    record ∈ answers ∧ record.ownedBy name := by
  simp [recordsOf, Record.ownedBy]

theorem aliasOf_eq_some : aliasOf record = some (target, ttl) ↔
    record.data = .cname target ∧ record.ttl = ttl := by
  unfold aliasOf
  cases record.data <;> simp

theorem addressOf_eq_some : addressOf kind record = some (address, ttl) ↔
    record.recordType = kind ∧ record.data.address = some address ∧ record.ttl = ttl := by
  unfold addressOf Record.recordType
  cases record.data with
  | a bits => by_cases same : kind = .a <;> simp [RData.recordType, RData.address, same, eq_comm]
  | aaaa bits =>
    by_cases same : kind = .aaaa <;> simp [RData.recordType, RData.address, same, eq_comm]
  | cname target => simp [RData.address]
  | other kind data => simp [RData.address]

/-- An alias that was followed, in the reply that holds it. -/
structure Hop where
  owner : DomainName
  target : DomainName
  reply : ValidatedResponse
  received : Instant

def Hop.IsAlias (hop : Hop) : Prop :=
  ∃ record ∈ hop.reply.message.answers, record.ownedBy hop.owner ∧ record.data = .cname hop.target

/-- When the alias records of the followed name end. -/
def Hop.ends (grace : Duration) (hop : Hop) : Set Instant :=
  { instant | ∃ record ∈ hop.reply.message.answers, record.ownedBy hop.owner ∧
    (∃ target, record.data = .cname target) ∧ instant = hop.received + lifetime grace record.ttl }

def aliasEnds (grace : Duration) (hops : List Hop) : Set Instant :=
  { instant | ∃ hop ∈ hops, instant ∈ hop.ends grace }

/-- When the address records of a name end. -/
def addressEnds (grace : Duration) (kind : RecordType) (name : DomainName) (reply : Received) :
    Set Instant :=
  { instant | ∃ record ∈ reply.1.message.answers, record.ownedBy name ∧
    record.recordType = kind ∧ record.data.address.isSome ∧
    instant = reply.2 + lifetime grace record.ttl }

/-- The aliases lead from one name to another. -/
def Linked : DomainName → List Hop → DomainName → Prop
  | start, [], last => start = last
  | start, hop :: hops, last => hop.owner = start ∧ hop.IsAlias ∧ Linked hop.target hops last

theorem linked_append : Linked start (hops ++ more) last ↔
    ∃ middle, Linked start hops middle ∧ Linked middle more last := by
  induction hops generalizing start with
  | nil => simp [Linked]
  | cons hop hops ih => simp [Linked, ih, and_assoc]

theorem aliasEnds_append : aliasEnds grace (hops ++ more) =
    aliasEnds grace hops ∪ aliasEnds grace more := by
  ext instant
  simp [aliasEnds, or_and_right, exists_or]

theorem aliasEnds_singleton : aliasEnds grace [hop] = hop.ends grace := by
  ext instant
  simp [aliasEnds]

/-- The ends of records received together. -/
def endsOf (received : Instant) (grace : Duration) (ttls : List Nat) : Set Instant :=
  { instant | ∃ ttl ∈ ttls, instant = received + lifetime grace ttl }

theorem earlier_ok : earlier received grace earliest ttl = .ok next ↔
    received + lifetime grace ttl < instantLimit ∧
      next = some (earliest.elim (received + lifetime grace ttl)
        (min · (received + lifetime grace ttl))) := by
  unfold earlier recordDeadline checkedAdd
  by_cases fits : received + lifetime grace ttl < instantLimit <;> simp [fits, eq_comm]

theorem endsOf_cons : endsOf received grace (ttl :: ttls) =
    {received + lifetime grace ttl} ∪ endsOf received grace ttls := by
  ext instant
  simp [endsOf]

/-- The running minimum over times to live, from one reached before. -/
theorem foldlM_earlier (before : LeastOf values earliest) :
    ttls.foldlM (earlier received grace) earliest = .ok next ↔
      (∀ ttl ∈ ttls, received + lifetime grace ttl < instantLimit) ∧
        LeastOf (values ∪ endsOf received grace ttls) next := by
  induction ttls generalizing earliest values with
  | nil =>
    have none_added : values ∪ endsOf received grace [] = values := by simp [endsOf]
    rw [none_added]
    simp only [List.foldlM_nil, pure, Except.pure, Except.ok.injEq]
    constructor
    · rintro rfl
      exact ⟨by simp, before⟩
    · rintro ⟨-, found⟩
      exact before.unique found
  | cons ttl ttls ih =>
    have added : LeastOf (values ∪ {received + lifetime grace ttl})
        (some (earliest.elim (received + lifetime grace ttl)
          (min · (received + lifetime grace ttl)))) := before.union isLeast_singleton
    rw [endsOf_cons, ← Set.union_assoc, List.foldlM_cons]
    by_cases fits : received + lifetime grace ttl < instantLimit
    · rw [earlier_ok.mpr ⟨fits, rfl⟩]
      refine (ih added).trans ?_
      simp [fits]
    · have refused : earlier received grace earliest ttl = .error .lifetimeOverflow := by
        simp [earlier, recordDeadline, checkedAdd, fits]
      rw [refused]
      simp [bind, Except.bind, fits]

theorem earliestDeadline_ok : earliestDeadline ttls received grace = .ok earliest ↔
    (∀ ttl ∈ ttls, received + lifetime grace ttl < instantLimit) ∧
      LeastOf (endsOf received grace ttls) earliest := by
  have empty : LeastOf (∅ : Set Instant) none := rfl
  simpa [earliestDeadline] using foldlM_earlier empty

theorem CnameChain.follow_ok {chain next : CnameChain} :
    chain.follow hickory target expiry = .ok next ↔
      ∃ name, hickory.fromAscii target = some name ∧
        (∀ seen ∈ chain.names, seen.eqIgnoreRoot name = false) ∧
        chain.names.length ≤ chain.maxHops ∧
        next = { chain with
          names := chain.names ++ [name]
          deadline := some (chain.deadline.elim expiry (min · expiry)) } := by
  unfold follow
  cases read : hickory.fromAscii target with
  | none => simp
  | some name =>
    by_cases cycle : chain.names.any (·.eqIgnoreRoot name)
    · obtain ⟨seen, member, same⟩ := List.any_eq_true.mp cycle
      simp only [cycle, if_true, reduceCtorEq, Option.some.injEq, false_iff]
      rintro ⟨_, rfl, fresh, -⟩
      simp [fresh seen member] at same
    · have fresh : ∀ seen ∈ chain.names, seen.eqIgnoreRoot name = false := by
        simpa using cycle
      by_cases long : chain.maxHops < chain.names.length
      · have short : ¬ chain.names.length ≤ chain.maxHops := Nat.not_le.mpr long
        simp [cycle, long, short]
      · have short : chain.names.length ≤ chain.maxHops := Nat.not_lt.mp long
        simp only [cycle, long, if_false, Except.ok.injEq, Option.some.injEq, Bool.false_eq_true]
        constructor
        · rintro rfl
          exact ⟨name, rfl, fresh, short, rfl⟩
        · rintro ⟨-, rfl, -, -, rfl⟩
          rfl

/-- The aliases of the name reached, in one reply. -/
def AddressChain.aliasesIn (chain : AddressChain) (answers : List Record) :
    List (DomainName × Nat) :=
  (recordsOf answers chain.current).filterMap aliasOf

theorem AddressChain.followAlias_ok {chain next : AddressChain} :
    chain.followAlias hickory answers received grace target = .ok next ↔
      (∀ other ∈ chain.aliasesIn answers, other.1.eqIgnoreRoot target = true) ∧
      (∀ record ∈ recordsOf answers chain.current, besideAlias record = true) ∧
      ∃ earliest, earliestDeadline ((chain.aliasesIn answers).map Prod.snd) received grace =
          .ok earliest ∧
        ∃ aliases, chain.aliases.follow hickory (hickory.toAscii target)
            (earliest.getD received) = .ok aliases ∧
          next = { chain with aliases, current := target } := by
  unfold followAlias
  simp only
  rw [← aliasesIn]
  split
  · rename_i conflict
    simp only [reduceCtorEq, false_iff]
    rintro ⟨agree, beside, -⟩
    simp only [Bool.or_eq_true, List.any_eq_true, Bool.not_eq_true'] at conflict
    rcases conflict with ⟨other, member, differs⟩ | ⟨record, member, conflicts⟩
    · simp [agree other member] at differs
    · simp [beside record member] at conflicts
  · rename_i clear
    simp only [Bool.or_eq_true, List.any_eq_true, Bool.not_eq_true', not_or, not_exists,
      not_and, Bool.not_eq_false] at clear
    have ⟨agree, beside⟩ := clear
    rw [and_iff_right agree, and_iff_right beside]
    cases earliestDeadline ((chain.aliasesIn answers).map Prod.snd) received grace with
    | error error => simp
    | ok earliest =>
      cases followed : chain.aliases.follow hickory (hickory.toAscii target)
        (earliest.getD received) with
      | error error => simp [followed]
      | ok aliases => simp [followed, eq_comm]

/-- The aliases followed so far, as the chain keeps them. -/
structure Walked (start : DomainName) (grace : Duration) (hops : List Hop)
    (chain : AddressChain) : Prop where
  linked : Linked start hops chain.current
  names : chain.aliases.names.map DomainName.folded =
    (start :: hops.map Hop.target).map DomainName.folded
  distinct : (start :: hops.map Hop.target).Pairwise fun left right =>
    left.eqIgnoreRoot right = false
  bounded : hops.length ≤ chain.aliases.maxHops
  deadline : LeastOf (aliasEnds grace hops) chain.aliases.deadline

namespace Walked

variable {chain next : AddressChain}

theorem length_names (walked : Walked start grace hops chain) :
    chain.aliases.names.length = hops.length + 1 := by
  simpa using congrArg List.length walked.names

/-- A name that the chain has not seen is none of those walked through. -/
theorem fresh (walked : Walked start grace hops chain)
    (unseen : ∀ seen ∈ chain.aliases.names, seen.eqIgnoreRoot name = false)
    (member : known ∈ start :: hops.map Hop.target) : known.eqIgnoreRoot name = false := by
  have kept : known.folded ∈ chain.aliases.names.map DomainName.folded := by
    rw [walked.names]
    exact List.mem_map_of_mem member
  obtain ⟨seen, old, same⟩ := List.mem_map.mp kept
  have differs := unseen seen old
  rwa [DomainName.eqIgnoreRoot_folded, same, ← DomainName.eqIgnoreRoot_folded] at differs

theorem ends_eq (target : DomainName) (reply : ValidatedResponse) :
    endsOf received grace ((chain.aliasesIn reply.message.answers).map Prod.snd) =
      Hop.ends grace ⟨chain.current, target, reply, received⟩ := by
  ext instant
  simp only [endsOf, Hop.ends, AddressChain.aliasesIn, List.mem_map, List.mem_filterMap,
    mem_recordsOf, Set.mem_ofPred_eq, Prod.exists, aliasOf_eq_some]
  constructor
  · rintro ⟨ttl, ⟨other, -, ⟨record, ⟨member, owned⟩, holds, rfl⟩, rfl⟩, rfl⟩
    exact ⟨record, member, owned, ⟨other, holds⟩, rfl⟩
  · rintro ⟨record, member, owned, ⟨other, holds⟩, rfl⟩
    exact ⟨record.ttl, ⟨other, record.ttl, ⟨record, ⟨member, owned⟩, holds, rfl⟩, rfl⟩, rfl⟩

theorem followAlias (walked : Walked start grace hops chain) (reply : ValidatedResponse)
    (received : Instant) (first : (target, ttl) ∈ chain.aliasesIn reply.message.answers)
    (ok : chain.followAlias hickory reply.message.answers received grace target = .ok next) :
    Walked start grace (hops ++ [⟨chain.current, target, reply, received⟩]) next := by
  obtain ⟨-, -, earliest, found, aliases, followed, rfl⟩ := AddressChain.followAlias_ok.mp ok
  obtain ⟨-, least⟩ := earliestDeadline_ok.mp found
  rw [ends_eq target] at least
  obtain ⟨record, member, held⟩ := List.mem_filterMap.mp first
  obtain ⟨present, owned⟩ := mem_recordsOf.mp member
  obtain ⟨holds, rfl⟩ := aliasOf_eq_some.mp held
  obtain ⟨lowest, rfl⟩ := least.exists_of_mem ⟨record, present, owned, ⟨target, holds⟩, rfl⟩
  obtain ⟨name, read, unseen, short, rfl⟩ := CnameChain.follow_ok.mp followed
  have same := hickory.presents read
  rw [DomainName.eqIgnoreRoot_folded, decide_eq_true_eq] at same
  have unseen : ∀ seen ∈ chain.aliases.names, seen.eqIgnoreRoot target = false := by
    intro seen old
    have differs := unseen seen old
    rwa [DomainName.eqIgnoreRoot_folded, same, ← DomainName.eqIgnoreRoot_folded] at differs
  refine ⟨?_, ?_, ?_, ?_, ?_⟩
  · exact linked_append.mpr ⟨chain.current, walked.linked, rfl, ⟨record, present, owned, holds⟩, rfl⟩
  · simp [walked.names, same]
  · rw [List.map_append, ← List.cons_append]
    exact pairwise_concat.mpr ⟨walked.distinct, fun known member => walked.fresh unseen member⟩
  · have length := walked.length_names
    simp only [List.length_append, List.length_singleton]
    omega
  · rw [aliasEnds_append, aliasEnds_singleton]
    exact walked.deadline.union least

end Walked

section Walk

variable {chain next : AddressChain}

theorem AddressChain.followAlias_kept
    (ok : chain.followAlias hickory answers received grace target = .ok next) :
    next.kind = chain.kind ∧ next.aliases.maxHops = chain.aliases.maxHops ∧
      next.hopsLeft < chain.hopsLeft := by
  obtain ⟨-, -, earliest, -, aliases, followed, rfl⟩ := followAlias_ok.mp ok
  obtain ⟨name, -, -, short, rfl⟩ := CnameChain.follow_ok.mp followed
  refine ⟨rfl, rfl, ?_⟩
  simp only [hopsLeft, List.length_append, List.length_singleton]
  omega

theorem AddressChain.walk_cases
    (ok : walk hickory answers received grace hops followed chain = (.ok progress, next)) :
    (chain.aliasesIn answers = [] ∧ next = chain ∧
        chain.finish hickory answers received grace followed = .ok progress) ∨
      ∃ target ttl rest middle fewer, chain.aliasesIn answers = (target, ttl) :: rest ∧
        chain.followAlias hickory answers received grace target = .ok middle ∧
        hops = fewer + 1 ∧
        walk hickory answers received grace fewer true middle = (.ok progress, next) := by
  rw [walk.eq_def] at ok
  cases aliases : (recordsOf answers chain.current).filterMap aliasOf with
  | nil =>
    simp only [aliases, Prod.mk.injEq] at ok
    exact .inl ⟨aliases, ok.2.symm, ok.1⟩
  | cons first rest =>
    obtain ⟨target, ttl⟩ := first
    simp only [aliases] at ok
    cases followed : chain.followAlias hickory answers received grace target with
    | error error => simp [followed] at ok
    | ok middle =>
      cases hops with
      | zero => simp [followed] at ok
      | succ fewer =>
        simp only [followed] at ok
        exact .inr ⟨target, ttl, rest, middle, fewer, aliases, followed, rfl, ok⟩

/-- A walk inside one reply adds hops in that reply, and ends as the addresses there say. -/
theorem Walked.walk (walked : Walked start grace hops chain) (reply : ValidatedResponse)
    (ok : AddressChain.walk hickory reply.message.answers received grace left followed chain =
      (.ok progress, next)) :
    ∃ more, Walked start grace (hops ++ more) next ∧
      (∀ hop ∈ more, hop.reply = reply ∧ hop.received = received) ∧
      next.kind = chain.kind ∧ next.aliases.maxHops = chain.aliases.maxHops ∧
      next.aliasesIn reply.message.answers = [] ∧
      next.finish hickory reply.message.answers received grace (followed || !more.isEmpty) =
        .ok progress := by
  induction left generalizing chain followed hops with
  | zero =>
    obtain ⟨none, rfl, finished⟩ | ⟨target, ttl, rest, middle, fewer, -, -, impossible, -⟩ :=
      AddressChain.walk_cases ok
    · exact ⟨[], by simpa using walked, by simp, rfl, rfl, none, by simpa using finished⟩
    · omega
  | succ left ih =>
    obtain ⟨none, rfl, finished⟩ | ⟨target, ttl, rest, middle, fewer, first, followedTo, same, later⟩ :=
      AddressChain.walk_cases ok
    · exact ⟨[], by simpa using walked, by simp, rfl, rfl, none, by simpa using finished⟩
    · obtain rfl : fewer = left := by omega
      have stepped := walked.followAlias reply received
        (by rw [first]; exact List.mem_cons_self) followedTo
      obtain ⟨kind, limit, -⟩ := AddressChain.followAlias_kept followedTo
      obtain ⟨more, reached, inReply, sameKind, sameLimit, none, finished⟩ := ih stepped later
      rw [List.append_assoc] at reached
      refine ⟨_, reached, ?_, sameKind.trans kind, sameLimit.trans limit, none, ?_⟩
      · intro hop member
        rcases List.mem_append.mp member with here | there
        · obtain rfl := List.mem_singleton.mp here
          exact ⟨rfl, rfl⟩
        · exact inReply hop there
      · simpa using finished

/-- The addresses asked for at the name reached, in one reply. -/
def AddressChain.addressesIn (chain : AddressChain) (answers : List Record) :
    List (IpAddr × Nat) :=
  (recordsOf answers chain.current).filterMap (addressOf chain.kind)

theorem AddressChain.mem_addressesIn : (address, ttl) ∈ chain.addressesIn answers ↔
    ∃ record ∈ answers, record.ownedBy chain.current ∧ record.recordType = chain.kind ∧
      record.data.address = some address ∧ record.ttl = ttl := by
  simp [addressesIn, mem_recordsOf, addressOf_eq_some, and_assoc]

theorem AddressChain.finish_complete :
    chain.finish hickory answers received grace followed = .ok (.complete candidates) ↔
      ∃ earliest, earliestDeadline ((chain.addressesIn answers).map Prod.snd) received grace =
          .ok (some earliest) ∧
        candidates = (chain.addressesIn answers).map fun (address, _) =>
          { address, deadline := chain.aliases.permissionDeadline earliest } := by
  unfold finish
  simp only
  rw [← addressesIn]
  cases earliestDeadline ((chain.addressesIn answers).map Prod.snd) received grace with
  | error error => simp
  | ok found =>
    cases found with
    | none => by_cases followed <;> simp [*]
    | some earliest => simp [eq_comm]

theorem AddressChain.finish_follow
    (ok : chain.finish hickory answers received grace followed = .ok (.follow target)) :
    followed = true ∧ target = hickory.toAscii chain.current := by
  unfold finish at ok
  simp only at ok
  split at ok
  · cases ok
  · cases ok
  · cases followed with
    | false => simp at ok
    | true => exact ⟨rfl, by simpa [eq_comm] using ok⟩

theorem addressEnds_eq (reply : ValidatedResponse) :
    endsOf received grace ((chain.addressesIn reply.message.answers).map Prod.snd) =
      addressEnds grace chain.kind chain.current (reply, received) := by
  ext instant
  simp only [endsOf, addressEnds, List.mem_map, Prod.exists, AddressChain.mem_addressesIn,
    Set.mem_ofPred_eq, Option.isSome_iff_exists]
  constructor
  · rintro ⟨ttl, ⟨address, -, ⟨record, member, owned, kind, holds, rfl⟩, rfl⟩, rfl⟩
    exact ⟨record, member, owned, kind, ⟨address, holds⟩, rfl⟩
  · rintro ⟨record, member, owned, kind, ⟨address, holds⟩, rfl⟩
    exact ⟨record.ttl, ⟨address, record.ttl, ⟨record, member, owned, kind, holds, rfl⟩, rfl⟩, rfl⟩

/-- The message repeats the question for the name reached. -/
def AddressChain.Repeats (chain : AddressChain) (message : Message) : Prop :=
  ∃ question rest, message.queries = question :: rest ∧
    question.name.eqIgnoreRoot chain.current = true ∧ question.queryType = chain.kind ∧
      question.queryClass = .internet

/-- A response that is accepted is an answer, and is walked through unless it denies the name. -/
theorem AddressChain.consume_ok
    (ok : chain.consume hickory response received grace = (.ok progress, next)) :
    chain.Repeats response.message ∧ ((progress = .noData ∧ next = chain) ∨
      (response.disposition = .answer ∧ response.message.metadata.responseCode = .noError ∧
        walk hickory response.message.answers received grace chain.hopsLeft false chain =
          (.ok progress, next))) := by
  have inner : chain.consumeInner hickory response received grace = (.ok progress, next) := by
    unfold consume at ok
    split at ok <;> simp_all
  unfold consumeInner at inner
  split at inner
  · simp at inner
  · rename_i question rest asked
    split at inner
    · simp at inner
    · rename_i repeated
      simp only [Bool.or_eq_true, Bool.not_eq_true', decide_eq_true_eq, not_or, not_not,
        Bool.not_eq_false] at repeated
      refine ⟨⟨question, rest, asked, repeated.1.1, repeated.1.2, repeated.2⟩, ?_⟩
      split at inner
      · simp at inner
      · rename_i answer
        split at inner
        · simp only [Prod.mk.injEq, Except.ok.injEq] at inner
          exact .inl ⟨inner.1.symm, inner.2.symm⟩
        · rename_i code
          exact .inr ⟨not_not.mp answer, not_not.mp code, inner⟩

theorem AddressChain.consume_of_walk (repeated : chain.Repeats response.message)
    (answer : response.disposition = .answer)
    (code : response.message.metadata.responseCode = .noError)
    (ok : walk hickory response.message.answers received grace chain.hopsLeft false chain =
      (.ok progress, next)) :
    chain.consume hickory response received grace = (.ok progress, next) := by
  obtain ⟨question, rest, asked, name, kind, internet⟩ := repeated
  have inner : chain.consumeInner hickory response received grace = (.ok progress, next) := by
    simp [consumeInner, asked, name, kind, internet, answer, code, ok]
  simp [consume, inner]

/-- A response that is refused leaves no trace. -/
theorem AddressChain.consume_error
    (refused : chain.consume hickory response received grace = (.error error, next)) :
    next = chain := by
  unfold consume at refused
  split at refused
  · simp only [Prod.mk.injEq] at refused
    exact refused.2.symm
  · simp at refused

end Walk

/-- What a list of candidates rests on. -/
structure RestsOn (candidates : List AddressCandidate) (query : Query) (maxHops : Nat)
    (grace : Duration) (hops : List Hop) (name : DomainName) (last : Received)
    (deadline : Instant) : Prop where
  linked : Linked query.name hops name
  distinct : (query.name :: hops.map Hop.target).Pairwise fun left right =>
    left.eqIgnoreRoot right = false
  bounded : hops.length ≤ maxHops
  addresses : ∀ candidate ∈ candidates, ∃ record ∈ last.1.message.answers,
    record.ownedBy name ∧ record.recordType = query.queryType ∧
      record.data.address = some candidate.address
  common : ∀ candidate ∈ candidates, candidate.deadline = deadline
  earliest : IsLeast (aliasEnds grace hops ∪ addressEnds grace query.queryType name last) deadline

theorem Walked.restsOn {query : Query} (walked : Walked query.name grace hops chain)
    (kind : chain.kind = query.queryType) (reply : ValidatedResponse)
    (ok : chain.finish hickory reply.message.answers received grace followed = .ok
    (.complete candidates)) :
    ∃ deadline, RestsOn candidates query chain.aliases.maxHops grace hops chain.current
      (reply, received) deadline := by
  obtain ⟨earliest, found, rfl⟩ := AddressChain.finish_complete.mp ok
  obtain ⟨-, least⟩ := earliestDeadline_ok.mp found
  rw [addressEnds_eq, kind] at least
  refine ⟨chain.aliases.permissionDeadline earliest, walked.linked, walked.distinct,
    walked.bounded, ?_, ?_, walked.deadline.union least⟩
  · intro candidate member
    obtain ⟨⟨address, ttl⟩, held, rfl⟩ := List.mem_map.mp member
    obtain ⟨record, present, owned, same, holds, -⟩ := AddressChain.mem_addressesIn.mp held
    exact ⟨record, present, owned, same.trans kind, holds⟩
  · intro candidate member
    obtain ⟨⟨address, ttl⟩, held, rfl⟩ := List.mem_map.mp member
    rfl

end Kakoi
