import Kakoi.Net.ResolveRuns
import Kakoi.Net.Screen

/-! What screening leaves in an answer, and which permitted addresses it keeps. -/

namespace Kakoi

variable {candidates : List AddressCandidate}

/-- A record that is no alias of the name. -/
def Record.NoAliasOf (name : DomainName) (record : Record) : Prop :=
  record.ownedBy name → ∀ target, record.data ≠ .cname target

/-- The first alias of each name is followed, with at most so many steps. -/
inductive FollowsFirst (answers : List Record) : Nat → DomainName → DomainName → Prop where
  | cut (name : DomainName) : FollowsFirst answers 0 name name
  | stop (steps : Nat) {name : DomainName} :
      (∀ record ∈ answers, record.NoAliasOf name) → FollowsFirst answers steps name name
  | hop {steps : Nat} {name next last : DomainName} {before after : List Record}
      {record : Record} : answers = before ++ record :: after → record.ownedBy name →
      record.data = .cname next → (∀ other ∈ before, other.NoAliasOf name) →
      FollowsFirst answers steps next last → FollowsFirst answers (steps + 1) name last

theorem aliasFor_some : aliasFor name record = some target ↔
    record.ownedBy name ∧ record.data = .cname target := by
  unfold aliasFor Record.ownedBy
  by_cases owned : record.dnsClass = .internet ∧ record.name.eqIgnoreRoot name = true
  · simp [owned, aliasOf_eq_some]
  · have foreign : (record.dnsClass = .internet && record.name.eqIgnoreRoot name) = false := by
      simpa using owned
    simp [foreign, owned]

theorem aliasFor_none : aliasFor name record = none ↔ record.NoAliasOf name := by
  unfold Record.NoAliasOf
  rw [Option.eq_none_iff_forall_ne_some]
  simp only [ne_eq, aliasFor_some, not_and]
  exact forall_comm

theorem firstAlias_some : firstAlias answers name = some target ↔
    ∃ before record after, answers = before ++ record :: after ∧
      (record.ownedBy name ∧ record.data = .cname target) ∧
      ∀ other ∈ before, other.NoAliasOf name := by
  simp [firstAlias, List.findSome?_eq_some_iff, aliasFor_some, aliasFor_none]

theorem firstAlias_none : firstAlias answers name = none ↔
    ∀ record ∈ answers, record.NoAliasOf name := by
  simp [firstAlias, aliasFor_none]

theorem followsFirst_terminal (answers : List Record) (steps : Nat) (name : DomainName) :
    FollowsFirst answers steps name (terminalName answers steps name) := by
  induction steps generalizing name with
  | zero => exact .cut name
  | succ steps ih =>
    unfold terminalName
    cases found : firstAlias answers name with
    | none => exact .stop _ (firstAlias_none.mp found)
    | some next =>
      obtain ⟨before, record, after, split, ⟨owned, holds⟩, none⟩ := firstAlias_some.mp found
      exact .hop split owned holds none (ih next)

theorem mem_retained : address ∈ retainedAddresses candidates admission ↔
    ∃ candidate ∈ candidates, candidate.address = address ∧ admission address ≠ .denied := by
  simp only [retainedAddresses, List.mem_map, List.mem_filter, decide_eq_true_eq]
  constructor
  · rintro ⟨candidate, ⟨member, kept⟩, rfl⟩
    exact ⟨candidate, member, rfl, kept⟩
  · rintro ⟨candidate, member, rfl, kept⟩
    exact ⟨candidate, ⟨member, kept⟩, rfl⟩

section Aligning

variable {message : Message}

theorem shortestTtl_le (found : message.shortestTtl = some shortest)
    (member : record ∈ message.answers) : shortest ≤ record.ttl :=
  (List.min?_eq_some_iff.mp found).2 _ (List.mem_map_of_mem member)

theorem shortestTtl_of_mem (member : record ∈ message.answers) :
    ∃ shortest, message.shortestTtl = some shortest := by
  refine Option.isSome_iff_exists.mp (List.isSome_min?_of_mem (a := record.ttl) ?_)
  exact List.mem_map_of_mem member

/-- Without aligning, all times to live are the shortest already. -/
theorem ttl_of_not_aligning (unsigned : message.signature = none)
    (even : message.needsAligning = false) (member : record ∈ message.answers) :
    message.shortestTtl = some record.ttl := by
  obtain ⟨shortest, found⟩ := shortestTtl_of_mem member
  have lower := shortestTtl_le found member
  simp only [Message.needsAligning, unsigned, Option.isNone_none, Bool.true_and,
    List.any_eq_false] at even
  have upper := even record member
  simp only [found, Option.all_some, decide_eq_true_eq, Nat.not_lt] at upper
  rw [found, Nat.le_antisymm lower upper]

end Aligning

/-- Neither the message nor any of its records is signed. -/
def Message.Unsigned (message : Message) : Prop :=
  message.signature = none ∧ ∀ record, (record ∈ message.answers ∨ record ∈ message.authorities ∨
    record ∈ message.additionals) → record.recordType ≠ .rrsig

theorem Message.Unsigned.isSigned {message : Message} (unsigned : message.Unsigned) :
    message.isSigned = false := by
  have records := unsigned.2
  simp only [Message.isSigned, unsigned.1, Option.isSome_none, Bool.false_or, List.any_eq_false,
    List.mem_append, decide_eq_true_eq]
  intro record member
  exact records record (by tauto)

/-- The answers of a screened message, in terms of the response. -/
def leftAnswers (message : Message) (screened : Record → Bool) : List Record :=
  (message.answers.filter screened).map fun record =>
    { record with ttl := message.shortestTtl.getD record.ttl }

/-- What screening does to a response that is not signed. -/
structure Screened (response : ValidatedResponse) (candidates : List AddressCandidate)
    (admission : IpAddr → DnsAdmission) (query : Query) (terminal : DomainName)
    (returned : Message) : Prop where
  asked : ∃ rest, response.message.queries = query :: rest
  follows : FollowsFirst response.message.answers response.message.answers.length query.name
    terminal
  answers : returned.answers = leftAnswers response.message
    (screenedRecord query.queryType terminal (retainedAddresses candidates admission))
  authorities : returned.authorities = response.message.authorities.filter
    (permittedAddress (retainedAddresses candidates admission))
  additionals : returned.additionals = response.message.additionals.filter
    (permittedAddress (retainedAddresses candidates admission))

section Rewriting

variable {message : Message}

theorem rewritten_unchanged (even : message.needsAligning = false)
    (passing : message.needsFiltering answers others = false) :
    message.rewritten answers others = message := by
  unfold Message.rewritten
  cases message.shortestTtl <;> simp [even, passing]

theorem needsFiltering_false (unsigned : message.Unsigned)
    (passing : message.needsFiltering answers others = false) :
    message.answers.filter answers = message.answers ∧
      message.authorities.filter others = message.authorities ∧
      message.additionals.filter others = message.additionals := by
  simp only [Message.needsFiltering, unsigned.isSigned, Bool.not_false, Bool.true_and,
    Bool.or_eq_false_iff, Bool.not_eq_false', List.all_eq_true] at passing
  exact ⟨List.filter_eq_self.mpr passing.1.1, List.filter_eq_self.mpr passing.1.2,
    List.filter_eq_self.mpr passing.2⟩

/-- Filtering takes out what does not pass, whether it is needed or not. -/
theorem kept_records (unsigned : message.Unsigned) (answers others : Record → Bool) :
    let kept := if message.needsFiltering answers others then message.keeping answers others
      else message
    kept.answers = message.answers.filter answers ∧
      kept.authorities = message.authorities.filter others ∧
      kept.additionals = message.additionals.filter others := by
  cases passing : message.needsFiltering answers others with
  | true => exact ⟨rfl, rfl, rfl⟩
  | false =>
    obtain ⟨first, second, third⟩ := needsFiltering_false unsigned passing
    exact ⟨first.symm, second.symm, third.symm⟩

theorem rewritten_records (unsigned : message.Unsigned) :
    (message.rewritten answers others).answers = leftAnswers message answers ∧
      (message.rewritten answers others).authorities = message.authorities.filter others ∧
      (message.rewritten answers others).additionals = message.additionals.filter others := by
  obtain ⟨first, second, third⟩ := kept_records unsigned answers others
  unfold Message.rewritten leftAnswers
  cases found : message.shortestTtl with
  | none => simp [first, second, third]
  | some shortest =>
    cases aligning : message.needsAligning with
    | true => exact ⟨by simp [Message.withTtl, first], second, third⟩
    | false =>
      refine ⟨?_, second, third⟩
      have same : ∀ record ∈ message.answers.filter answers,
          { record with ttl := (some shortest).getD record.ttl } = record := by
        intro record member
        have even := ttl_of_not_aligning unsigned.1 aligning (List.mem_filter.mp member).1
        rw [found, Option.some.injEq] at even
        simp [even]
      simp only [Bool.false_eq_true, if_false]
      rw [first, List.map_congr_left same, List.map_id']

end Rewriting

/-- A screened answer reads as the response without what was not admitted. -/
theorem screenAddresses_ok (faithful : hickory.Faithful)
    (valid : hickory.read response.wire = some (response.message, []))
    (unsigned : response.message.Unsigned)
    (ok : response.screenAddresses hickory candidates admission = .ok screened) :
    ∃ query terminal returned, hickory.read screened.wire = some (returned, []) ∧
      Screened response candidates admission query terminal returned ∧
      screened.dynamicGrants = candidates.filter fun candidate =>
        admission candidate.address = .dynamic := by
  unfold ValidatedResponse.screenAddresses at ok
  simp only at ok
  split at ok
  · cases ok
  · split at ok
    · cases ok
    · split at ok
      · cases ok
      · rename_i query rest asked
        refine ⟨query, terminalName response.message.answers response.message.answers.length
          query.name, response.message.rewritten _ _, ?_, ⟨⟨rest, asked⟩,
            followsFirst_terminal .., (rewritten_records unsigned).1,
            (rewritten_records unsigned).2.1, (rewritten_records unsigned).2.2⟩, ?_⟩
        · split at ok
          · rename_i unchanged
            simp only [Bool.and_eq_true, Bool.not_eq_true'] at unchanged
            cases ok
            rw [rewritten_unchanged unchanged.1 unchanged.2]
            exact valid
          · split at ok
            · rename_i wire written
              cases ok
              exact faithful _ _ written
            · cases ok
        · split at ok
          · cases ok
            rfl
          · split at ok
            · cases ok
              rfl
            · cases ok

section Assembling

variable {original : Question hickory}

theorem age_ok (ok : age received now record = .ok aged) :
    aged = { record with
      ttl := min ((received + seconds record.ttl - now) / seconds 1) maxTtl } := by
  unfold age at ok
  cases fits : checkedAdd received (seconds record.ttl) with
  | none =>
    rw [fits, Option.elim_none] at ok
    cases ok
  | some expiry =>
    rw [fits, Option.elim_some, Except.ok.injEq] at ok
    rw [(checkedAdd_some.mp fits).1]
    exact ok.symm

/-- The records of a response put together from replies. -/
structure PutTogether (previous : List Received) (last : Received) (message : Message) :
    Prop where
  earlier : ∀ reply ∈ previous, ∀ record ∈ reply.1.message.answers,
    ∃ aged ∈ message.answers, age reply.2 last.2 record = .ok aged
  latest : ∀ record ∈ last.1.message.answers, record ∈ message.answers
  only : ∀ record ∈ message.answers, record ∈ last.1.message.answers ∨
    ∃ reply ∈ previous, ∃ source ∈ reply.1.message.answers, age reply.2 last.2 source = .ok record
  authorities : message.authorities = last.1.message.authorities
  additionals : message.additionals = last.1.message.additionals
  signature : message.signature = last.1.message.signature

theorem combined_putTogether
    (aged : previous.mapM (fun (response, received) => response.message.answers.mapM
    (age received last.2)) = .ok parts) :
    PutTogether previous last (combined original previous last.1.message parts.flatten) := by
  obtain ⟨forward, backward⟩ := Except.mapM_ok aged
  refine ⟨?_, ?_, ?_, rfl, rfl, rfl⟩
  · intro reply member record held
    obtain ⟨part, present, ok⟩ := forward reply member
    obtain ⟨old, kept, same⟩ := (Except.mapM_ok ok).1 record held
    exact ⟨old, List.mem_append_left _ (List.mem_flatten.mpr ⟨part, present, kept⟩), same⟩
  · intro record member
    exact List.mem_append_right _ member
  · intro record member
    rcases List.mem_append.mp member with old | new
    · obtain ⟨part, present, kept⟩ := List.mem_flatten.mp old
      obtain ⟨reply, from_, ok⟩ := backward part present
      obtain ⟨source, held, same⟩ := (Except.mapM_ok ok).2 record kept
      exact .inr ⟨reply, from_, source, held, same⟩
    · exact .inl new

/-- The response of a resolution is validated, and holds the answers of every reply. -/
theorem ending_ok (faithful : hickory.Faithful)
    (repeated : previous = [] → ∃ wire, original.validateResponse wire = .ok last.1)
    (ok : ending original previous last.1 last.2 = .ok ended) :
    (∃ wire, original.validateResponse wire = .ok ended) ∧
      PutTogether previous last ended.message := by
  unfold ending at ok
  split at ok
  · rename_i none
    rw [List.isEmpty_iff] at none
    subst none
    cases ok
    exact ⟨repeated rfl, ⟨by simp, by simp, by simp, rfl, rfl, rfl⟩⟩
  · unfold assemble at ok
    split at ok
    · cases ok
    · obtain ⟨parts, aged, ok⟩ := Except.bind_eq_ok.mp ok
      cases written : hickory.toVec (combined original previous last.1.message parts.flatten) with
      | none =>
        simp only [written] at ok
        cases ok
      | some wire =>
        simp only [written] at ok
        obtain ⟨-, read, -⟩ := Question.validateResponse_ok ok
        rw [faithful _ _ written, Option.some.injEq, Prod.mk.injEq] at read
        refine ⟨⟨wire, ok⟩, ?_⟩
        rw [← read.1]
        exact combined_putTogether aged

end Assembling

theorem seconds_le_lifetime (grace : Duration) (ttl : Nat) : seconds ttl ≤ lifetime grace ttl := by
  unfold lifetime
  split
  · rename_i zero
    simp [zero, seconds]
  · exact Nat.le_refl _

/-- The record whose end is the deadline, in the reply that holds it. -/
theorem RestsOn.earliest_record {query : Query}
    (rests : RestsOn candidates query maxHops grace hops name last deadline)
    (inReplies : ∀ hop ∈ hops, (hop.reply, hop.received) ∈ previous ++ [last]) :
    ∃ reply ∈ previous ++ [last], ∃ record ∈ reply.1.message.answers,
      deadline = reply.2 + lifetime grace record.ttl := by
  rcases rests.earliest.1 with ⟨hop, member, record, present, -, -, same⟩ |
    ⟨record, present, -, -, -, same⟩
  · exact ⟨_, inReplies hop member, record, present, same⟩
  · exact ⟨last, by simp, record, present, same⟩

theorem ends_within_life {start point rest length life : Nat}
    (left : rest ≤ start + length - point) (longer : length ≤ life)
    (live : point ≤ start + life) : point + rest ≤ start + life := by
  omega

/-- An aged record ends within the lifetime it was received with. -/
theorem aged_within (ok : age received now record = .ok aged)
    (live : now ≤ received + lifetime grace record.ttl) :
    now + seconds aged.ttl ≤ received + lifetime grace record.ttl := by
  have aged_ttl : aged.ttl ≤ (received + seconds record.ttl - now) / seconds 1 := by
    rw [age_ok ok]
    exact Nat.min_le_left ..
  have whole : seconds aged.ttl ≤ received + seconds record.ttl - now := by
    have scaled := Nat.mul_le_mul_right (seconds 1) aged_ttl
    have divided := Nat.div_mul_le_self (received + seconds record.ttl - now) (seconds 1)
    have unit : aged.ttl * seconds 1 = seconds aged.ttl := by simp [seconds]
    rw [unit] at scaled
    exact scaled.trans divided
  exact ends_within_life whole (seconds_le_lifetime grace record.ttl) live

/-- The shortest time to live of the response ends within the deadline of its candidates. -/
theorem shortest_within {message : Message} {query : Query}
    (together : PutTogether previous last message)
    (rests : RestsOn candidates query maxHops grace hops name last deadline)
    (inReplies : ∀ hop ∈ hops, (hop.reply, hop.received) ∈ previous ++ [last])
    (live : last.2 ≤ deadline) (found : message.shortestTtl = some shortest) :
    last.2 + seconds shortest ≤ deadline := by
  obtain ⟨reply, member, record, present, same⟩ := rests.earliest_record inReplies
  have monotone {small large : Nat} (le : small ≤ large) : seconds small ≤ seconds large :=
    Nat.mul_le_mul_right _ le
  rcases mem_concat.mp member with earlier | latest
  · obtain ⟨aged, kept, ok⟩ := together.earlier reply earlier record present
    rw [same] at live ⊢
    have shorter := monotone (shortestTtl_le found kept)
    exact (Nat.add_le_add_left shorter last.2).trans (aged_within ok live)
  · obtain rfl := latest
    have shorter := monotone (shortestTtl_le found (together.latest record present))
    rw [same]
    exact Nat.add_le_add_left (shorter.trans (seconds_le_lifetime grace record.ttl)) reply.2

theorem screenedRecord_address (kept : screenedRecord kind terminal retained record = true)
    (internet : record.dnsClass = .internet) (holds : record.data.address = some address) :
    record.recordType = kind ∧ record.name.eqIgnoreRoot terminal = true ∧
      address ∈ retained := by
  simpa [screenedRecord, internet, holds, and_assoc] using kept

theorem permittedAddress_address (kept : permittedAddress retained record = true)
    (holds : record.data.address = some address) : address ∈ retained := by
  simpa [permittedAddress, holds] using kept

/-- Every address returned was admitted, at the name the aliases of the answer lead to; permissions
are given for just the dynamic ones, and none ends before the answer does. -/
theorem screened_addresses_admitted (hickory : Hickory) (faithful : hickory.Faithful)
    (admission : IpAddr → DnsAdmission) :
    (∀ (question : Question hickory) (wire : Wire) (response : ValidatedResponse)
      (candidates : List AddressCandidate) (screened : ScreenedAnswer),
      question.validateResponse wire = .ok response → response.message.Unsigned →
      response.screenAddresses hickory candidates admission = .ok screened →
      ∃ query terminal returned, response.message.queries = [query] ∧
        FollowsFirst response.message.answers response.message.answers.length query.name
          terminal ∧
        hickory.read screened.wire = some (returned, []) ∧
        (∀ record ∈ returned.answers, record.dnsClass = .internet →
          ∀ address, record.data.address = some address →
          record.recordType = query.queryType ∧ record.name.eqIgnoreRoot terminal = true ∧
            ∃ candidate ∈ candidates, candidate.address = address ∧
              admission address ≠ .denied) ∧
        (∀ record ∈ returned.authorities ++ returned.additionals,
          ∀ address, record.data.address = some address →
          ∃ candidate ∈ candidates, candidate.address = address ∧
            admission address ≠ .denied) ∧
        screened.dynamicGrants = candidates.filter fun candidate =>
          admission candidate.address = .dynamic) ∧
    (∀ rounds wire limits budget events found screened returned request reply received,
      (resolveWithin hickory rounds wire limits budget).Runs events (.done (some (.ok found))) →
      events.getLast? = some (lookedUp request reply received) →
      found.response.message.Unsigned →
      found.response.screenAddresses hickory found.candidates admission = .ok screened →
      hickory.read screened.wire = some (returned, []) →
      ∀ record ∈ returned.answers, ∀ grant ∈ screened.dynamicGrants,
        received ≤ grant.deadline → received + seconds record.ttl ≤ grant.deadline) := by
  constructor
  · intro question wire response candidates screened validated unsigned ok
    obtain ⟨rfl, valid, repeated, asked, -⟩ := Question.validateResponse_ok validated
    obtain ⟨query, terminal, returned, read, spec, grants⟩ :=
      screenAddresses_ok faithful valid unsigned ok
    obtain ⟨rest, first⟩ := spec.asked
    obtain ⟨rfl, rfl⟩ : query = repeated ∧ rest = [] := by simpa [asked, eq_comm] using first
    refine ⟨query, terminal, returned, asked, spec.follows, read, ?_, ?_, grants⟩
    · intro record member internet address holds
      rw [spec.answers] at member
      obtain ⟨source, kept, rfl⟩ := List.mem_map.mp member
      obtain ⟨kind, owner, retained⟩ :=
        screenedRecord_address (List.mem_filter.mp kept).2 internet holds
      exact ⟨kind, owner, mem_retained.mp retained⟩
    · intro record member address holds
      rw [spec.authorities, spec.additionals, ← List.filter_append] at member
      exact mem_retained.mp (permittedAddress_address (List.mem_filter.mp member).2 holds)
  · intro rounds wire limits budget events found screened returned request reply received runs
      latest unsigned ok read record member grant granted live
    obtain ⟨original, previous, last, parsed, outcome⟩ := resolveWithin_outcome runs
    obtain ⟨⟨bytes, validated⟩, together⟩ := ending_ok faithful outcome.repeated outcome.response
    obtain ⟨rfl, valid, -⟩ := Question.validateResponse_ok validated
    obtain ⟨query, terminal, message, readBack, spec, grants⟩ :=
      screenAddresses_ok faithful valid unsigned ok
    rw [readBack, Option.some.injEq, Prod.mk.injEq] at read
    obtain ⟨rfl, -⟩ := read
    rw [grants] at granted
    have candidate := (List.mem_filter.mp granted).1
    obtain ⟨hops, name, deadline, rests, inReplies⟩ :=
      outcome.rests (List.ne_nil_of_mem candidate)
    have same : received = last.2 := by
      obtain ⟨lastRequest, lastWire, final⟩ := outcome.latest
      rw [final, Option.some.injEq] at latest
      exact (lookedUp_received latest).symm
    rw [spec.answers] at member
    obtain ⟨source, kept, rfl⟩ := List.mem_map.mp member
    obtain ⟨shortest, least⟩ := shortestTtl_of_mem (List.mem_filter.mp kept).1
    rw [rests.common grant candidate] at live ⊢
    subst same
    simpa [least] using
      shortest_within together rests inReplies live least

/-- Two addresses of the name asked for. -/
def mixedReply : Message :=
  answeredWith 97
    [⟨named 97, .internet, 60, .a 16909060⟩, ⟨named 97, .internet, 30, .a 84281096⟩]

def onlyFirst (address : IpAddr) : DnsAdmission :=
  if address = .v4 16909060 then .dynamic else .denied

def mixedCandidates : List AddressCandidate :=
  [⟨.v4 16909060, seconds 31⟩, ⟨.v4 84281096, seconds 31⟩]

theorem mixedReply_unsigned : mixedReply.Unsigned := by
  refine ⟨rfl, ?_⟩
  intro record member
  simp only [mixedReply, answeredWith, List.mem_cons, List.not_mem_nil, or_false] at member
  rcases member with rfl | rfl <;> decide

theorem mixed_reply_screened :
    ∃ (question : Question plainHickory) (response : ValidatedResponse)
      (screened : ScreenedAnswer) (returned : Message),
      question.validateResponse (PlainLibrary.message.encode mixedReply) = .ok response ∧
      response.screenAddresses plainHickory mixedCandidates onlyFirst = .ok screened ∧
      plainHickory.read screened.wire = some (returned, []) ∧
      ∀ record ∈ returned.answers, record.dnsClass = .internet →
        ∀ address, record.data.address = some address →
        ∃ candidate ∈ mixedCandidates, candidate.address = address ∧
          onlyFirst address ≠ .denied := by
  have evaluated : ∃ question,
      Question.parse plainHickory (PlainLibrary.message.encode (askedFor 97)) = .ok question ∧
      ∃ response, question.validateResponse (PlainLibrary.message.encode mixedReply) = .ok response ∧
      ∃ screened, response.screenAddresses plainHickory mixedCandidates onlyFirst =
        .ok screened := by decide +kernel
  obtain ⟨question, -, response, validated, screened, ok⟩ := evaluated
  obtain ⟨-, read, -⟩ := Question.validateResponse_ok validated
  have same : response.message = mixedReply := by
    rw [plainHickory_faithful mixedReply _ rfl, Option.some.injEq, Prod.mk.injEq] at read
    exact read.1.symm
  obtain ⟨query, terminal, returned, -, -, readBack, addresses, -⟩ :=
    (screened_addresses_admitted plainHickory plainHickory_faithful onlyFirst).1 question _
      response mixedCandidates screened validated (same ▸ mixedReply_unsigned) ok
  exact ⟨question, response, screened, returned, validated, ok, readBack,
    fun record member internet address holds =>
      (addresses record member internet address holds).2.2⟩

/-- A record of the type asked for that holds nothing, as an update deletes records. -/
def datalessReply : Message := answeredWith 97 [⟨named 98, .internet, 0, .other .a []⟩]

/-- It is returned although no address was admitted. -/
theorem dataless_record_kept :
    (((Question.parse plainHickory (PlainLibrary.message.encode (askedFor 97))).toOption.bind
      fun question => (question.validateResponse
        (PlainLibrary.message.encode datalessReply)).toOption.bind
      fun response => (response.screenAddresses plainHickory [] fun _ => .denied).toOption.bind
      fun screened => plainHickory.read screened.wire) = some (datalessReply, [])) ∧
    datalessReply.isSigned = false ∧
    ∀ record ∈ datalessReply.answers, record.dnsClass = .internet ∧ record.recordType = .a ∧
      record.data.address = none := by
  decide +kernel

end Kakoi
