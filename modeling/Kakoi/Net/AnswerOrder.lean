import Kakoi.Net.AliasWalk

/-! The candidates found in one response do not depend on the order of its answers. -/

namespace Kakoi

variable {candidates : List AddressCandidate}

/-- Chains that differ in the case of their names only. -/
structure AddressChain.Alike (left right : AddressChain) : Prop where
  current : left.current.folded = right.current.folded
  kind : left.kind = right.kind
  names : left.aliases.names.map DomainName.folded = right.aliases.names.map DomainName.folded
  maxHops : left.aliases.maxHops = right.aliases.maxHops
  deadline : left.aliases.deadline = right.aliases.deadline

theorem recordsOf_perm (order : answers.Perm shuffled)
    (same : DomainName.folded name = DomainName.folded other) :
    (recordsOf answers name).Perm (recordsOf shuffled other) := by
  have alike : ∀ record : Record, record.name.eqIgnoreRoot name = record.name.eqIgnoreRoot other := by
    intro record
    rw [DomainName.eqIgnoreRoot_folded, same, ← DomainName.eqIgnoreRoot_folded]
  simp only [recordsOf, alike]
  exact order.filter _

theorem earliestDeadline_perm (order : List.Perm ttls shuffled)
    (ok : earliestDeadline ttls received grace = .ok earliest) :
    earliestDeadline shuffled received grace = .ok earliest := by
  obtain ⟨fits, least⟩ := earliestDeadline_ok.mp ok
  have sameEnds : endsOf received grace shuffled = endsOf received grace ttls := by
    ext instant
    simp [endsOf, order.mem_iff]
  refine earliestDeadline_ok.mpr ⟨fun ttl member => fits ttl (order.mem_iff.mpr member), ?_⟩
  rwa [sameEnds]

namespace AddressChain

variable {left right next : AddressChain}

theorem walk_stop (none : left.aliasesIn answers = []) :
    walk hickory answers received grace hops followed left =
      (left.finish hickory answers received grace followed, left) := by
  unfold aliasesIn at none
  rw [walk.eq_def]
  simp only [none]

theorem walk_step (first : left.aliasesIn answers = (target, ttl) :: rest)
    (ok : left.followAlias hickory answers received grace target = .ok next) :
    walk hickory answers received grace (hops + 1) followed left =
      walk hickory answers received grace hops true next := by
  unfold aliasesIn at first
  rw [walk.eq_def]
  simp only [first, ok]

section Walks

variable {answers shuffled : List Record} (alike : Alike left right)
  (order : answers.Perm shuffled)

include alike order

theorem Alike.aliasesIn : (left.aliasesIn answers).Perm (right.aliasesIn shuffled) :=
  (recordsOf_perm order alike.current).filterMap _

theorem Alike.addressesIn : (left.addressesIn answers).Perm (right.addressesIn shuffled) := by
  unfold AddressChain.addressesIn
  rw [alike.kind]
  exact (recordsOf_perm order alike.current).filterMap _

theorem Alike.followAlias (same : DomainName.folded target = DomainName.folded other)
    (ok : left.followAlias hickory answers received grace target = .ok next) :
    ∃ reached, right.followAlias hickory shuffled received grace other = .ok reached ∧
      Alike next reached := by
  obtain ⟨agree, beside, earliest, found, aliases, followed, rfl⟩ := followAlias_ok.mp ok
  obtain ⟨name, read, unseen, short, rfl⟩ := CnameChain.follow_ok.mp followed
  have aliasesAlike := alike.aliasesIn order
  have sameName : target.eqIgnoreRoot other = true := by
    simp [DomainName.eqIgnoreRoot_folded, same]
  have readable := hickory.caseless sameName
  rw [read] at readable
  obtain ⟨parsed, readOther⟩ := Option.isSome_iff_exists.mp readable.symm
  have sameParsed : parsed.folded = name.folded := by
    have first := hickory.presents read
    have second := hickory.presents readOther
    rw [DomainName.eqIgnoreRoot_folded, decide_eq_true_eq] at first second
    rw [second, first, same]
  have sameLength : right.aliases.names.length = left.aliases.names.length := by
    simpa using congrArg List.length alike.names.symm
  refine ⟨_, followAlias_ok.mpr ⟨?_, ?_, earliest, ?_, _, CnameChain.follow_ok.mpr
    ⟨parsed, readOther, ?_, ?_, rfl⟩, rfl⟩, ?_⟩
  · intro held member
    have agreed := agree held (aliasesAlike.mem_iff.mpr member)
    rwa [DomainName.eqIgnoreRoot_folded, same, ← DomainName.eqIgnoreRoot_folded] at agreed
  · intro record member
    exact beside record ((recordsOf_perm order alike.current).mem_iff.mpr member)
  · exact earliestDeadline_perm (aliasesAlike.map _) found
  · intro seen member
    have kept : seen.folded ∈ left.aliases.names.map DomainName.folded := by
      rw [alike.names]
      exact List.mem_map_of_mem member
    obtain ⟨old, known, sameOld⟩ := List.mem_map.mp kept
    have differs := unseen old known
    rwa [DomainName.eqIgnoreRoot_folded, sameOld, ← sameParsed,
      ← DomainName.eqIgnoreRoot_folded] at differs
  · rw [sameLength, ← alike.maxHops]
    exact short
  · refine ⟨same, alike.kind, ?_, alike.maxHops, ?_⟩
    · simp [alike.names, sameParsed]
    · simp [alike.deadline]

theorem Alike.finish
    (ok : left.finish hickory answers received grace followed = .ok (.complete candidates)) :
    ∃ others, right.finish hickory shuffled received grace followed = .ok (.complete others) ∧
      candidates.Perm others := by
  obtain ⟨earliest, found, rfl⟩ := finish_complete.mp ok
  have addressesAlike := alike.addressesIn order
  refine ⟨_, finish_complete.mpr
    ⟨earliest, earliestDeadline_perm (addressesAlike.map _) found, rfl⟩, ?_⟩
  simp only [CnameChain.permissionDeadline, alike.deadline]
  exact addressesAlike.map _

theorem Alike.stops (none : left.aliasesIn answers = [])
    (finished : left.finish hickory answers received grace followed = .ok (.complete candidates)) :
    ∃ others reached, AddressChain.walk hickory shuffled received grace hops followed right =
      (.ok (.complete others), reached) ∧ candidates.Perm others := by
  have noneOther : right.aliasesIn shuffled = [] := (none ▸ alike.aliasesIn order).nil_eq.symm
  obtain ⟨others, finishedOther, same⟩ := alike.finish order finished
  exact ⟨others, right, by rw [walk_stop noneOther, finishedOther], same⟩

theorem Alike.walk
    (ok : AddressChain.walk hickory answers received grace hops followed left =
      (.ok (.complete candidates), next)) :
    ∃ others reached, AddressChain.walk hickory shuffled received grace hops followed right =
      (.ok (.complete others), reached) ∧ candidates.Perm others := by
  induction hops generalizing left right followed with
  | zero =>
    obtain ⟨none, rfl, finished⟩ | ⟨-, -, -, -, fewer, -, -, impossible, -⟩ := walk_cases ok
    · exact alike.stops order none finished
    · omega
  | succ hops ih =>
    obtain ⟨none, rfl, finished⟩ | ⟨target, ttl, rest, middle, fewer, first, step, sameHops, later⟩ :=
      walk_cases ok
    · exact alike.stops order none finished
    · obtain rfl : fewer = hops := by omega
      have aliasesAlike := alike.aliasesIn order
      cases firstOther : right.aliasesIn shuffled with
      | nil =>
        rw [first, firstOther] at aliasesAlike
        exact absurd aliasesAlike.length_eq (by simp)
      | cons head restOther =>
        obtain ⟨other, otherTtl⟩ := head
        -- Another alias may come first, but all the aliases of a name agree.
        have agree := (followAlias_ok.mp step).1 (other, otherTtl)
          (aliasesAlike.mem_iff.mpr (by simp [firstOther]))
        rw [DomainName.eqIgnoreRoot_folded, decide_eq_true_eq] at agree
        obtain ⟨reached, stepOther, reachedAlike⟩ := alike.followAlias order agree.symm step
        rw [walk_step firstOther stepOther]
        exact ih reachedAlike later

end Walks

theorem Alike.refl (chain : AddressChain) : Alike chain chain := ⟨rfl, rfl, rfl, rfl, rfl⟩

/-- A response that completes does so in any order of its answers, with the same candidates. -/
theorem consume_perm {response shuffled : ValidatedResponse}
    (differ : shuffled.message =
      { response.message with answers := shuffled.message.answers })
    (order : response.message.answers.Perm shuffled.message.answers)
    (ok : left.consume hickory response received grace = (.ok (.complete candidates), next)) :
    ∃ others reached, left.consume hickory shuffled received grace =
      (.ok (.complete others), reached) ∧ candidates.Perm others := by
  obtain ⟨repeated, denied | ⟨answer, code, walked⟩⟩ := consume_ok ok
  · cases denied.1
  · obtain ⟨others, reached, walkedOther, same⟩ := (Alike.refl left).walk order walked
    refine ⟨others, reached, consume_of_walk ?_ ?_ ?_ walkedOther, same⟩
    · rw [differ]
      exact repeated
    · unfold ValidatedResponse.disposition at answer ⊢
      rw [differ]
      exact answer
    · rw [differ]
      exact code

end AddressChain

end Kakoi
