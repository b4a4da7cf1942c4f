import Kakoi.Net.ScreenedAnswers

/-! Which admitted addresses a screened answer still holds: candidates come from each reply by
itself, screening walks through all at once. -/

namespace Kakoi

section Agreement

variable {answers : List Record}

theorem aliasFor_folded (same : DomainName.folded name = DomainName.folded other) :
    aliasFor name record = aliasFor other record := by
  unfold aliasFor
  rw [DomainName.eqIgnoreRoot_folded, same, ← DomainName.eqIgnoreRoot_folded]

theorem terminalName_folded (same : DomainName.folded name = DomainName.folded other) :
    (terminalName answers steps name).folded = (terminalName answers steps other).folded := by
  cases steps with
  | zero => exact same
  | succ steps =>
    have first : firstAlias answers name = firstAlias answers other := by
      unfold firstAlias
      congr 1
      funext record
      exact aliasFor_folded same
    unfold terminalName
    rw [first]
    cases firstAlias answers other with
    | none => exact same
    | some next => rfl

theorem ownedBy_folded {record : Record}
    (same : DomainName.folded name = DomainName.folded other) :
    record.ownedBy name ↔ record.ownedBy other := by
  unfold Record.ownedBy
  rw [DomainName.eqIgnoreRoot_folded, same, ← DomainName.eqIgnoreRoot_folded]

/-- One record is an alias, the other another alias of the same name or an address for it. -/
def Record.contradicts (record beside : Record) : Bool :=
  record.dnsClass = .internet && beside.ownedBy record.name &&
    match record.data, beside.data with
    | .cname target, .cname other => !target.eqIgnoreRoot other
    | .cname _, data => data.address.isSome
    | _, _ => false

theorem alias_agrees {record beside : Record} (agrees : record.contradicts beside = false)
    (owned : record.ownedBy name) (holds : record.data = .cname target)
    (alike : beside.ownedBy name) :
    beside.data.address = none ∧
      ∀ other, beside.data = .cname other → target.folded = other.folded := by
  have owner : record.name.folded = name.folded := by
    simpa [DomainName.eqIgnoreRoot_folded] using owned.2
  have same : beside.ownedBy record.name := (ownedBy_folded owner).mpr alike
  simp only [Record.contradicts, owned.1, same, holds, decide_true, Bool.true_and] at agrees
  cases data : beside.data with
  | cname other => simpa [data, RData.address, DomainName.eqIgnoreRoot_folded] using agrees
  | a address | aaaa address | other kind bytes => simpa [data] using agrees

/-- Where the answers agree, the first aliases lead along every chain of aliases among them to
the name with an address. -/
theorem terminalName_linked
    (agree : ∀ record ∈ answers, ∀ beside ∈ answers, Record.contradicts record beside = false)
    (linked : Linked start hops last)
    (present : ∀ hop ∈ hops, ∃ record ∈ answers, record.ownedBy hop.owner ∧ record.data = .cname hop.target)
    (addressed : ∃ record ∈ answers, record.ownedBy last ∧ record.data.address ≠ none)
    (enough : hops.length ≤ steps) : (terminalName answers steps start).folded = last.folded := by
  induction hops generalizing start steps with
  | nil =>
    cases linked
    obtain ⟨beside, member, owned, address⟩ := addressed
    have none : firstAlias answers last = none := firstAlias_none.mpr fun record listed owns target
      holds => address (alias_agrees (agree record listed beside member) owns holds owned).1
    cases steps with
    | zero => rfl
    | succ steps => rw [terminalName, none]
  | cons hop hops ih =>
    obtain ⟨rfl, -, linked⟩ := linked
    obtain ⟨record, listed, owned, holds⟩ := present hop List.mem_cons_self
    cases steps with
    | zero => cases enough
    | succ steps =>
      cases first : firstAlias answers hop.owner with
      | none => exact absurd holds (firstAlias_none.mp first record listed owned _)
      | some next =>
        obtain ⟨before, beside, after, split, ⟨owns, leads⟩, -⟩ := firstAlias_some.mp first
        have member : beside ∈ answers := split ▸ List.mem_append_right _ List.mem_cons_self
        have same := (alias_agrees (agree record listed beside member) owned holds owns).2 next leads
        rw [terminalName, first, terminalName_folded same.symm]
        exact ih linked (fun hop member => present hop (List.mem_cons_of_mem _ member))
          (Nat.le_of_succ_le_succ enough)

theorem Linked.isAlias (linked : Linked start hops last) (member : hop ∈ hops) : hop.IsAlias := by
  induction hops generalizing start with
  | nil => cases member
  | cons first hops ih =>
    rcases List.mem_cons.mp member with rfl | later
    · exact linked.2.1
    · exact ih linked.2.2 later

theorem Linked.owners (linked : Linked start hops last) :
    hops.map Hop.owner ++ [last] = start :: hops.map Hop.target := by
  induction hops generalizing start with
  | nil => rw [show start = last from linked]; rfl
  | cons hop hops ih =>
    obtain ⟨rfl, -, linked⟩ := linked
    rw [List.map_cons, List.cons_append, ih linked, List.map_cons]

/-- A chain without repetition has an answer of its own for each of its aliases. -/
theorem Linked.length_le (linked : Linked start hops last)
    (distinct : (start :: hops.map Hop.target).Pairwise fun left right =>
      left.eqIgnoreRoot right = false)
    (present : ∀ hop ∈ hops, ∃ record ∈ answers, record.ownedBy hop.owner ∧
      record.data = .cname hop.target) : hops.length ≤ answers.length := by
  rw [← linked.owners] at distinct
  have once : (hops.map (·.owner.folded)).Nodup := by
    have owners := List.pairwise_map.mp (List.pairwise_append.mp distinct).1
    exact List.pairwise_map.mpr (owners.imp fun apart => by
      simpa [DomainName.eqIgnoreRoot_folded] using apart)
  have listed : hops.map (·.owner.folded) ⊆ answers.map (·.name.folded) := by
    intro name member
    obtain ⟨hop, inside, rfl⟩ := List.mem_map.mp member
    obtain ⟨record, held, owned, -⟩ := present hop inside
    refine List.mem_map.mpr ⟨record, held, ?_⟩
    simpa [DomainName.eqIgnoreRoot_folded] using owned.2
  simpa using (List.subperm_of_subset once listed).length_le

section Replies

variable (together : PutTogether previous last message)

include together

theorem PutTogether.source (member : record ∈ message.answers) :
    ∃ reply ∈ previous ++ [last], ∃ source ∈ reply.1.message.answers, ∃ ttl,
      record = { source with ttl } := by
  rcases together.only record member with latest | ⟨reply, earlier, source, present, ok⟩
  · exact ⟨last, by simp, record, latest, record.ttl, rfl⟩
  · exact ⟨reply, List.mem_append_left _ earlier, source, present, _, age_ok ok⟩

theorem PutTogether.copy {reply : Received} {source : Record} (listed : reply ∈ previous ++ [last])
    (present : source ∈ reply.1.message.answers) :
    ∃ ttl, { source with ttl } ∈ message.answers := by
  rcases mem_concat.mp listed with earlier | rfl
  · obtain ⟨aged, member, ok⟩ := together.earlier reply earlier source present
    exact ⟨_, age_ok ok ▸ member⟩
  · exact ⟨source.ttl, together.latest source present⟩

theorem PutTogether.unsigned
    (replies : ∀ reply ∈ previous ++ [last], reply.1.message.Unsigned) : message.Unsigned := by
  have final := replies last (by simp)
  refine ⟨together.signature.trans final.1, ?_⟩
  rintro record (member | member | member)
  · obtain ⟨reply, listed, source, present, ttl, rfl⟩ := together.source member
    exact (replies reply listed).2 source (.inl present)
  · exact final.2 record (.inr (.inl (together.authorities ▸ member)))
  · exact final.2 record (.inr (.inr (together.additionals ▸ member)))

/-- The first aliases of a response lead where the chain through its replies led. -/
theorem PutTogether.terminal {candidates : List AddressCandidate}
    (rests : RestsOn candidates query maxHops grace hops name last deadline)
    (inReplies : ∀ hop ∈ hops, (hop.reply, hop.received) ∈ previous ++ [last])
    (agree : ∀ reply ∈ previous ++ [last], ∀ other ∈ previous ++ [last],
      ∀ record ∈ reply.1.message.answers, ∀ beside ∈ other.1.message.answers,
      record.contradicts beside = false)
    (candidate : AddressCandidate) (member : candidate ∈ candidates) :
    (terminalName message.answers message.answers.length query.name).folded = name.folded := by
  have present : ∀ hop ∈ hops, ∃ record ∈ message.answers, record.ownedBy hop.owner ∧
      record.data = .cname hop.target := by
    intro hop inside
    obtain ⟨source, held, owned, holds⟩ := rests.linked.isAlias inside
    obtain ⟨ttl, copied⟩ := together.copy (inReplies hop inside) held
    exact ⟨_, copied, owned, holds⟩
  refine terminalName_linked ?_ rests.linked present ?_
    (rests.linked.length_le rests.distinct present)
  · intro record listed beside beneath
    obtain ⟨reply, replied, source, held, ttl, rfl⟩ := together.source listed
    obtain ⟨other, answered, second, kept, _, rfl⟩ := together.source beneath
    exact agree reply replied other answered source held second kept
  · obtain ⟨record, held, owned, -, address⟩ := rests.addresses candidate member
    exact ⟨record, together.latest record held, owned, by simp [address]⟩

end Replies

end Agreement

end Kakoi
