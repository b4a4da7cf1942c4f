import Kakoi.Net.AnswerOrder
import Kakoi.Net.PlainLibrary
import Kakoi.Policy.Diagnostic

/-! The runs of a resolution, whatever its lookups return. -/

namespace Kakoi

abbrev ResolveEvent := Program.Event ResolveOp ResolveOp.Answer

/-- A lookup that returned a reply. -/
def lookedUp (request reply : Wire) (received : Instant) : ResolveEvent :=
  ⟨.lookup request, Except.ok (reply, received)⟩

theorem lookedUp_received (same : lookedUp request reply received = lookedUp other wire later) :
    received = later := by
  unfold lookedUp at same
  cases same
  rfl

/-- A reply that was looked up and passed the checks of the request it answers. -/
def Validated (hickory : Hickory) (events : List ResolveEvent) (reply : Received) : Prop :=
  ∃ request wire question, lookedUp request wire reply.2 ∈ events ∧
    Question.parse hickory request = .ok question ∧ question.validateResponse wire = .ok reply.1

/-- What is returned at the end of the loop. -/
def AddressProgress.Returns (progress : AddressProgress) (candidates : List AddressCandidate) :
    Prop :=
  progress = .complete candidates ∨ (progress = .noData ∧ candidates = [])

/-- A reply that is taken passed every check. -/
structure Taken (hickory : Hickory) (limits : NetworkLimits)
    (budget : ResolutionBudget) (state : Resolution) (reply : Wire) (received : Instant)
    (response : ValidatedResponse) (progress : AddressProgress) (chain : AddressChain) :
    Prop where
  live : received < budget.deadline
  ordered : ∀ last ∈ state.previous.getLast?, last.2 ≤ received
  validated : ∃ question, Question.parse hickory state.request = .ok question ∧
    question.validateResponse reply = .ok response
  consumed : state.chain.consume hickory response received (zeroGrace limits) =
    (.ok progress, chain)

theorem nextRound_ok {round : Round}
    (ok : nextRound original previous response received chain progress = .ok round) :
    (∃ target request, progress = .follow target ∧ original.signature = none ∧
        response.message.signature = none ∧ followUp original target = .ok request ∧
        round = .again { chain, request, previous := previous ++ [(response, received)] }) ∨
      ∃ ended candidates, progress.Returns candidates ∧
        ending original previous response received = .ok ended ∧
        round = .over { response := ended, candidates } := by
  cases progress with
  | follow target =>
    left
    simp only [nextRound] at ok
    split at ok
    · cases ok
    · rename_i unsigned
      obtain ⟨request, written, ok⟩ := Except.bind_eq_ok.mp ok
      cases ok
      simp only [Bool.or_eq_true, not_or, Option.not_isSome_iff_eq_none] at unsigned
      exact ⟨target, request, rfl, unsigned.1, unsigned.2, written, rfl⟩
  | complete candidates =>
    obtain ⟨ended, found, ok⟩ := Except.bind_eq_ok.mp ok
    cases ok
    exact .inr ⟨ended, candidates, .inl rfl, found, rfl⟩
  | noData =>
    obtain ⟨ended, found, ok⟩ := Except.bind_eq_ok.mp ok
    cases ok
    exact .inr ⟨ended, [], .inr ⟨rfl, rfl⟩, found, rfl⟩

theorem takeReply_ok {original : Question hickory} {round : Round}
    (ok : takeReply original limits budget state reply received = .ok round) :
    ∃ response progress chain,
      Taken hickory limits budget state reply received response progress chain ∧
      nextRound original state.previous response received chain progress = .ok round := by
  unfold takeReply at ok
  obtain ⟨checked, passed, ok⟩ := Except.bind_eq_ok.mp ok
  split at ok
  · cases ok
  · rename_i ordered
    obtain ⟨question, parsed, ok⟩ := Except.bind_eq_ok.mp ok
    obtain ⟨response, validated, ok⟩ := Except.bind_eq_ok.mp ok
    have live : received < budget.deadline := by
      by_contra late
      simp [ResolutionBudget.ensureLive, Nat.not_lt.mp late, Except.mapError] at passed
    have ordered : ∀ last ∈ state.previous.getLast?, last.2 ≤ received := by
      intro last found
      simpa [Option.mem_def.mp found] using ordered
    split at ok
    · cases ok
    · rename_i progress chain consumed
      exact ⟨response, progress, chain,
        ⟨live, ordered, ⟨question, parsed, validated⟩, consumed⟩, ok⟩

/-- One turn of the loop: it stops before the lookup, or the reply decides. -/
theorem resolveRounds_cases
    (runs : (resolveRounds original limits budget (rounds + 1) state).Runs events last) :
    (∀ event ∈ events, ∃ time, event = ⟨.now, time⟩) ∧
        (∀ resolved, last ≠ .done (some (.ok resolved))) ∧ last ≠ .done none ∨
      ∃ time answer later, events = ⟨.now, time⟩ :: ⟨.lookup state.request, answer⟩ :: later ∧
        ((∃ reply received next, answer = Except.ok (reply, received) ∧
            takeReply original limits budget state reply received = .ok (.again next) ∧
            (resolveRounds original limits budget rounds next).Runs later last) ∨
          (∃ reply received resolved, answer = Except.ok (reply, received) ∧
            takeReply original limits budget state reply received = .ok (.over resolved) ∧
            later = [] ∧ last = .done (some (.ok resolved))) ∨
          (∃ error, later = [] ∧ last = .done (some (.error error)))) := by
  unfold resolveRounds at runs
  obtain ⟨rfl, rfl⟩ | ⟨time, rest, rfl, begun⟩ := runs.of_ask
  · simp
  · split at begun
    · obtain ⟨rfl, rfl⟩ := begun.of_done
      simp
    · obtain ⟨rfl, rfl⟩ | ⟨answer, later, rfl, answered⟩ := begun.of_ask
      · simp
      · right
        refine ⟨time, answer, later, rfl, ?_⟩
        split at answered
        · obtain ⟨rfl, rfl⟩ := answered.of_done
          exact .inr (.inr ⟨_, rfl, rfl⟩)
        · rename_i reply received
          split at answered
          · obtain ⟨rfl, rfl⟩ := answered.of_done
            exact .inr (.inr ⟨_, rfl, rfl⟩)
          · rename_i resolved taken
            obtain ⟨rfl, rfl⟩ := answered.of_done
            exact .inr (.inl ⟨reply, received, resolved, rfl, taken, rfl, rfl⟩)
          · rename_i next taken
            exact .inl ⟨reply, received, next, rfl, taken, answered⟩

/-- What every reply that leads on preserves holds where the loop ends. -/
theorem resolveRounds_ends {original : Question hickory}
    {invariant : List ResolveEvent → Resolution → Prop}
    (kept : ∀ history time state reply received next, invariant history state →
      takeReply original limits budget state reply received = .ok (.again next) →
      invariant (history ++ [⟨.now, time⟩, lookedUp state.request reply received]) next)
    (holds : invariant history state)
    (runs : (resolveRounds original limits budget rounds state).Runs events
      (.done (some (.ok resolved)))) :
    ∃ earlier time before reply received, invariant earlier before ∧
      takeReply original limits budget before reply received = .ok (.over resolved) ∧
      history ++ events = earlier ++ [⟨.now, time⟩, lookedUp before.request reply received] := by
  induction rounds generalizing history state events with
  | zero =>
    have stopped := runs.of_done
    cases stopped.2
  | succ rounds ih =>
    rcases resolveRounds_cases runs with stopped | ⟨time, answer, later, rfl, turn⟩
    · exact absurd rfl (stopped.2.1 resolved)
    · rcases turn with ⟨reply, received, next, rfl, taken, runs⟩ |
        ⟨reply, received, found, rfl, taken, rfl, same⟩ | ⟨error, -, impossible⟩
      · have reached := ih (kept history time state reply received next holds taken) runs
        simpa [List.append_assoc, lookedUp] using reached
      · cases same
        exact ⟨history, time, state, reply, received, holds, taken, rfl⟩
      · cases impossible

/-- The lookups of a run. -/
def lookups (events : List ResolveEvent) : Nat :=
  events.countP fun event => match event.1 with
    | .lookup _ => true
    | .now => false

theorem Validated.append (validated : Validated hickory events reply) :
    Validated hickory (events ++ more) reply := by
  obtain ⟨request, wire, question, member, passed⟩ := validated
  exact ⟨request, wire, question, List.mem_append_left _ member, passed⟩

/-- How a resolution ended: the replies that led on, the last one, and what they gave. -/
structure Outcome (original : Question hickory) (limits : NetworkLimits)
    (events : List ResolveEvent) (found : ResolvedAddresses) (previous : List Received)
    (last : Received) : Prop where
  validated : ∀ reply ∈ previous ++ [last], Validated hickory events reply
  latest : ∃ request wire, events.getLast? = some (lookedUp request wire last.2)
  repeated : previous = [] → ∃ wire, original.validateResponse wire = .ok last.1
  response : ending original previous last.1 last.2 = .ok found.response
  rests : found.candidates ≠ [] → ∃ hops name deadline,
    RestsOn found.candidates original.query limits.dnsMaxCnameHops (zeroGrace limits) hops name
      last deadline ∧
    ∀ hop ∈ hops, (hop.reply, hop.received) ∈ previous ++ [last]

/-- Before each lookup the chain rests on the replies so far. -/
structure Resolution.Sound (original : Question hickory) (wire : Wire) (limits : NetworkLimits)
    (events : List ResolveEvent) (state : Resolution) : Prop where
  kind : state.chain.kind = original.query.queryType
  limit : state.chain.aliases.maxHops = limits.dnsMaxCnameHops
  walked : ∃ hops, Walked original.query.name (zeroGrace limits) hops state.chain ∧
    ∀ hop ∈ hops, (hop.reply, hop.received) ∈ state.previous
  validated : ∀ reply ∈ state.previous, Validated hickory events reply
  first : state.previous = [] → state.request = wire

namespace Resolution.Sound

variable {chain : AddressChain} {original : Question hickory}
 

theorem initial
    (ok : AddressChain.new hickory original.query limits.dnsMaxCnameHops = .ok chain) :
    Sound original wire limits [] { chain, request := wire, previous := [] } ∧
      chain.hopsLeft = limits.dnsMaxCnameHops := by
  unfold AddressChain.new CnameChain.new at ok
  split at ok
  · cases ok
  · cases read : hickory.fromAscii (hickory.toAscii original.query.name) with
    | none => simp [read] at ok
    | some name =>
      simp only [read, Except.ok.injEq] at ok
      subst ok
      have same := hickory.presents read
      rw [DomainName.eqIgnoreRoot_folded, decide_eq_true_eq] at same
      refine ⟨⟨rfl, rfl, ⟨[], ⟨rfl, ?_, ?_, ?_, ?_⟩, ?_⟩, ?_, fun _ => rfl⟩, ?_⟩
      · simp [same]
      · simp
      · simp
      · simp [LeastOf, aliasEnds]
      · simp
      · simp
      · simp [AddressChain.hopsLeft]

/-- The walk through a reply that was taken, from the aliases followed before it. -/
theorem walked_reply (sound : Sound original wire limits events state)
    (taken : Taken hickory limits budget state reply received response progress chain) :
    (progress = .noData ∧ chain = state.chain) ∨
      ∃ before more, Walked original.query.name (zeroGrace limits) before state.chain ∧
        Walked original.query.name (zeroGrace limits) (before ++ more) chain ∧
        (∀ hop ∈ before, (hop.reply, hop.received) ∈ state.previous) ∧
        (∀ hop ∈ more, (hop.reply, hop.received) = (response, received)) ∧
        chain.kind = original.query.queryType ∧
        chain.aliases.maxHops = limits.dnsMaxCnameHops ∧
        chain.aliasesIn response.message.answers = [] ∧
        chain.finish hickory response.message.answers received (zeroGrace limits)
          (!more.isEmpty) = .ok progress := by
  obtain ⟨-, denied | ⟨-, -, walk⟩⟩ := AddressChain.consume_ok taken.consumed
  · exact .inl denied
  · obtain ⟨before, walked, inPrevious⟩ := sound.walked
    obtain ⟨more, reached, inReply, kind, limit, none, finished⟩ := walked.walk response walk
    refine .inr ⟨before, more, walked, reached, inPrevious, ?_, kind.trans sound.kind,
      limit.trans sound.limit, none, by simpa using finished⟩
    intro hop member
    rw [(inReply hop member).1, (inReply hop member).2]

theorem hopsLeft_eq (walked : Walked start grace hops chain) :
    chain.hopsLeft = chain.aliases.maxHops - hops.length := by
  have length := walked.length_names
  unfold AddressChain.hopsLeft
  omega

theorem validated_reply
    (taken : Taken hickory limits budget state reply received response progress chain) :
    Validated hickory (events ++ [⟨.now, time⟩, lookedUp state.request reply received])
      (response, received) := by
  obtain ⟨question, parsed, passed⟩ := taken.validated
  exact ⟨state.request, reply, question, by simp, parsed, passed⟩

/-- A reply that leads on uses up at least one alias. -/
theorem again (sound : Sound original wire limits events state)
    (ok : takeReply original limits budget state reply received = .ok (.again next))
    (time : ResolveOp.Answer .now) :
    Sound original wire limits (events ++ [⟨.now, time⟩, lookedUp state.request reply received])
        next ∧ next.chain.hopsLeft < state.chain.hopsLeft := by
  obtain ⟨response, progress, chain, taken, round⟩ := takeReply_ok ok
  obtain ⟨target, request, rfl, -, -, -, same⟩ | ⟨ended, candidates, -, -, impossible⟩ :=
    nextRound_ok round
  · cases same
    obtain ⟨denied, -⟩ | ⟨before, more, walked, reached, inPrevious, inReply, kind, limit, -,
      finished⟩ := sound.walked_reply taken
    · cases denied
    · have led := (AddressChain.finish_follow finished).1
      refine ⟨⟨kind, limit, ⟨before ++ more, reached, ?_⟩, ?_, by simp⟩, ?_⟩
      · intro hop member
        rcases List.mem_append.mp member with old | new
        · exact List.mem_append_left _ (inPrevious hop old)
        · rw [inReply hop new]
          simp
      · intro earlier member
        rcases mem_concat.mp member with old | rfl
        · exact (sound.validated earlier old).append
        · exact validated_reply taken
      · have used : 0 < more.length := by
          cases more with
          | nil => simp at led
          | cons hop more => simp
        have bounded := reached.bounded
        rw [hopsLeft_eq walked, hopsLeft_eq reached, limit, sound.limit]
        rw [limit] at bounded
        simp only [List.length_append] at bounded ⊢
        omega
  · cases impossible

/-- Each lookup but the last follows an alias. -/
theorem lookups_le (sound : Sound original wire limits history state)
    (runs : (resolveRounds original limits budget rounds state).Runs events last) :
    lookups events ≤ state.chain.hopsLeft + 1 := by
  induction rounds generalizing history state events with
  | zero =>
    obtain ⟨rfl, -⟩ := runs.of_done
    simp [lookups]
  | succ rounds ih =>
    rcases resolveRounds_cases runs with ⟨clock, -⟩ | ⟨time, answer, later, rfl, turn⟩
    · have none : lookups events = 0 := by
        refine List.countP_eq_zero.mpr fun event member => ?_
        obtain ⟨time, rfl⟩ := clock event member
        simp
      omega
    · have counted : lookups (⟨.now, time⟩ :: ⟨.lookup state.request, answer⟩ :: later) =
          lookups later + 1 := by
        simp [lookups]
      rcases turn with ⟨reply, received, next, rfl, taken, runs⟩ |
        ⟨reply, received, found, rfl, taken, rfl, -⟩ | ⟨error, rfl, -⟩
      · obtain ⟨reached, fewer⟩ := sound.again taken time
        have bound := ih reached runs
        omega
      · rw [counted]
        simp [lookups]
      · rw [counted]
        simp [lookups]

/-- The loop ends within the aliases that may be followed. -/
theorem ends_within (sound : Sound original wire limits history state)
    (enough : state.chain.hopsLeft < rounds) :
    ¬ (resolveRounds original limits budget rounds state).Runs events (.done none) := by
  intro runs
  induction rounds generalizing history state events with
  | zero => omega
  | succ rounds ih =>
    rcases resolveRounds_cases runs with ⟨-, -, impossible⟩ | ⟨time, answer, later, rfl, turn⟩
    · exact impossible rfl
    · rcases turn with ⟨reply, received, next, rfl, taken, runs⟩ |
        ⟨reply, received, found, rfl, taken, rfl, impossible⟩ | ⟨error, rfl, impossible⟩
      · obtain ⟨reached, fewer⟩ := sound.again taken time
        exact ih reached (by omega) runs
      · cases impossible
      · cases impossible

/-- A resolution that returns addresses ends with an outcome. -/
theorem resolved (sound : Sound original wire limits history state)
    (parsed : Question.parse hickory wire = .ok original)
    (runs : (resolveRounds original limits budget rounds state).Runs events
      (.done (some (.ok found)))) :
    ∃ previous last, Outcome original limits (history ++ events) found previous last := by
  obtain ⟨earlier, time, before, reply, received, reached, taken, split⟩ :=
    resolveRounds_ends (fun _ time _ _ _ _ holds ok => (holds.again ok time).1) sound runs
  rw [split]
  obtain ⟨response, progress, chain, passed, round⟩ := takeReply_ok taken
  obtain ⟨_, _, -, -, -, -, impossible⟩ | ⟨ended, candidates, returns, ending, same⟩ :=
    nextRound_ok round
  · cases impossible
  · cases same
    refine ⟨before.previous, (response, received), ?_, ⟨before.request, reply, by simp⟩,
      ?_, ending, ?_⟩
    · intro validated member
      rcases mem_concat.mp member with old | rfl
      · exact (reached.validated _ old).append
      · exact validated_reply passed
    · intro none
      obtain ⟨question, asked, accepted⟩ := passed.validated
      rw [reached.first none, parsed] at asked
      cases asked
      exact ⟨reply, accepted⟩
    · intro nonempty
      obtain rfl | ⟨-, empty⟩ := returns
      · obtain ⟨denied, -⟩ | ⟨old, more, -, walked, inPrevious, inReply, kind, limit, -, finished⟩ :=
          reached.walked_reply passed
        · cases denied
        · obtain ⟨deadline, rests⟩ := walked.restsOn kind response finished
          rw [limit] at rests
          refine ⟨old ++ more, chain.current, deadline, rests, ?_⟩
          intro hop member
          rcases List.mem_append.mp member with previous | new
          · exact List.mem_append_left _ (inPrevious hop previous)
          · rw [inReply hop new]
            simp
      · exact absurd empty nonempty

end Resolution.Sound

/-- What starts a resolution: the question's own name, and every alias still to be followed. -/
theorem resolveWithin_cases
    (runs : (resolveWithin hickory rounds wire limits budget).Runs events last) :
    (events = [] ∧ ∃ error, last = .done (some (.error error))) ∨
      ∃ original chain, Question.parse hickory wire = .ok original ∧
        Resolution.Sound original wire limits []
          { chain, request := wire, previous := [] } ∧
        chain.hopsLeft = limits.dnsMaxCnameHops ∧
        (resolveRounds original limits budget rounds
          { chain, request := wire, previous := [] }).Runs events last := by
  unfold resolveWithin at runs
  split at runs
  · exact .inl ⟨runs.of_done.1, _, runs.of_done.2⟩
  · rename_i original parsed
    split at runs
    · exact .inl ⟨runs.of_done.1, _, runs.of_done.2⟩
    · rename_i chain made
      obtain ⟨sound, left⟩ := Resolution.Sound.initial made
      exact .inr ⟨original, chain, parsed, sound, left, runs⟩

/-- A resolution that returns addresses, from its first lookup to its last. -/
theorem resolveWithin_outcome
    (runs : (resolveWithin hickory rounds wire limits budget).Runs events
      (.done (some (.ok found)))) :
    ∃ original previous last, Question.parse hickory wire = .ok original ∧
      Outcome original limits events found previous last := by
  obtain ⟨-, error, impossible⟩ | ⟨original, chain, parsed, sound, -, loop⟩ :=
    resolveWithin_cases runs
  · cases impossible
  · obtain ⟨previous, last, outcome⟩ := sound.resolved parsed loop
    exact ⟨original, previous, last, parsed, outcome⟩

/-- Candidates come out of a chain of aliases without repetition and end with its earliest record;
no upstream can make the chain longer, leave a trace by a refused response, or choose by the order
of the answers. -/
theorem candidates_rest_on_aliases (hickory : Hickory) (rounds : Nat) (wire : Wire)
    (limits : NetworkLimits) (budget : ResolutionBudget) :
    (∀ events found,
      (resolveWithin hickory rounds wire limits budget).Runs events (.done (some (.ok found))) →
      found.candidates ≠ [] →
      ∃ question hops name last deadline, Question.parse hickory wire = .ok question ∧
        RestsOn found.candidates question.query limits.dnsMaxCnameHops (zeroGrace limits) hops
          name last deadline ∧
        (∀ hop ∈ hops, Validated hickory events (hop.reply, hop.received)) ∧
        Validated hickory events last) ∧
    (∀ events last, (resolveWithin hickory rounds wire limits budget).Runs events last →
      lookups events ≤ limits.dnsMaxCnameHops + 1) ∧
    (limits.dnsMaxCnameHops < rounds →
      ∀ events, ¬ (resolveWithin hickory rounds wire limits budget).Runs events (.done none)) ∧
    (∀ chain next : AddressChain, ∀ response received grace error,
      chain.consume hickory response received grace = (.error error, next) → next = chain) ∧
    (∀ chain next : AddressChain, ∀ response shuffled : ValidatedResponse,
      ∀ received grace candidates,
      shuffled.message = { response.message with answers := shuffled.message.answers } →
      response.message.answers.Perm shuffled.message.answers →
      chain.consume hickory response received grace = (.ok (.complete candidates), next) →
      ∃ others reached, chain.consume hickory shuffled received grace =
        (.ok (.complete others), reached) ∧
        ∀ candidate, candidate ∈ others ↔ candidate ∈ candidates) := by
  refine ⟨?_, ?_, ?_, ?_, ?_⟩
  · intro events found runs nonempty
    obtain ⟨original, previous, last, parsed, outcome⟩ := resolveWithin_outcome runs
    obtain ⟨hops, name, deadline, rests, inReplies⟩ := outcome.rests nonempty
    exact ⟨original, hops, name, last, deadline, parsed, rests,
      fun hop member => outcome.validated _ (inReplies hop member),
      outcome.validated last (by simp)⟩
  · intro events last runs
    obtain ⟨rfl, -⟩ | ⟨original, chain, -, sound, left, loop⟩ := resolveWithin_cases runs
    · simp [lookups]
    · rw [← left]
      exact sound.lookups_le loop
  · intro enough events runs
    obtain ⟨-, error, impossible⟩ | ⟨original, chain, -, sound, left, loop⟩ :=
      resolveWithin_cases runs
    · cases impossible
    · exact sound.ends_within (by rw [left]; exact enough) loop
  · intro chain next response received grace error refused
    exact AddressChain.consume_error refused
  · intro chain next response shuffled received grace candidates differ order ok
    obtain ⟨others, reached, completes, same⟩ := AddressChain.consume_perm differ order ok
    exact ⟨others, reached, completes, fun candidate => same.mem_iff.symm⟩

def named (label : UInt8) : DomainName := ⟨[[label]], true⟩

def askedFor (label : UInt8) : Message :=
  { metadata := { id := 7, messageType := .query, opCode := .query }
    queries := [{ name := named label, queryType := .a, queryClass := .internet }] }

def answeredWith (label : UInt8) (answers : List Record) : Message :=
  { metadata := { id := 7, messageType := .response, opCode := .query }
    queries := [{ name := named label, queryType := .a, queryClass := .internet }]
    answers }

/-- An upstream that sends one message a second after the start and another from then on. -/
def replying (first second : Message) (count : Nat) : (op : ResolveOp) → op.Answer × Nat
  | .now => (count, count)
  | .lookup _ =>
    match count with
    | 0 => (.ok (PlainLibrary.message.encode first, seconds 1), 1)
    | _ => (.ok (PlainLibrary.message.encode second, seconds 2), 2)

/-- The first name is an alias of the second, whose address comes with the second reply. -/
def aliasReply : Message := answeredWith 97 [⟨named 97, .internet, 60, .cname (named 98)⟩]

def addressReply : Message := answeredWith 98 [⟨named 98, .internet, 300, .a 16909060⟩]

def twoReplies : Nat → (op : ResolveOp) → op.Answer × Nat := replying aliasReply addressReply

def twoRepliesRun : Resolving (Option (Except DnsError ResolvedAddresses)) :=
  resolveWithin plainHickory 17 (PlainLibrary.message.encode (askedFor 97)) {}
    { deadline := seconds 5, serverTimeout := seconds 2 }

theorem two_replies_rest_on_alias :
    ∃ found, (twoRepliesRun.execute twoReplies 0).1 = some (.ok found) ∧
      found.candidates = [⟨.v4 16909060, seconds 61⟩] ∧
      ∃ question hops name last deadline,
        Question.parse plainHickory (PlainLibrary.message.encode (askedFor 97)) = .ok question ∧
        RestsOn found.candidates question.query 16 (seconds 1) hops name last deadline := by
  have runs := Program.runs_execute twoReplies twoRepliesRun 0
  have evaluated : ∃ outcome ∈ (twoRepliesRun.execute twoReplies 0).1, ∃ found,
      outcome = .ok found ∧ found.candidates = [⟨.v4 16909060, seconds 61⟩] := by decide +kernel
  obtain ⟨_, result, found, rfl, candidates⟩ := evaluated
  rw [result] at runs
  obtain ⟨question, hops, name, last, deadline, parsed, rests, -⟩ :=
    (candidates_rest_on_aliases plainHickory 17 (PlainLibrary.message.encode (askedFor 97)) {}
      { deadline := seconds 5, serverTimeout := seconds 2 }).1 _ found runs (by simp [candidates])
  exact ⟨found, result, candidates, question, hops, name, last, deadline, parsed, rests⟩

end Kakoi
