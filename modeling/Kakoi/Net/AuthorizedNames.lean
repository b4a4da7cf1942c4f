import Kakoi.Net.RequestAccounting
import Kakoi.Net.ResolveRuns
import Kakoi.Net.UpstreamUse

/-! Only authorized names reach an upstream, and every grant is for a rule that names the
question. -/

namespace Kakoi

section Gate

variable (idna : Idna) {hickory : Hickory}

/-- The rule at `index` is for a DNS pattern that matches the question's name. -/
def DnsGate.Names (gate : DnsGate) (question : Question hickory) (index : Nat) : Prop :=
  ∃ rule pattern, gate.policy[index]? = some rule ∧ rule.destination = .dns pattern ∧
    pattern.matches idna (hickory.toAscii question.query.name) = true

/-- A reserved host name, or one that no allow rule names. -/
def DnsGate.Unauthorized (gate : DnsGate) (question : Question hickory) : Prop :=
  (reservedHost idna (hickory.toAscii question.query.name)).isSome = true ∨
    ∀ index, ¬ gate.Names idna question index

variable {idna} {gate : DnsGate} {question : Question hickory}

theorem mem_authorizedRules :
    index ∈ gate.authorizedRules idna question ↔ gate.Names idna question index := by
  simp only [DnsGate.authorizedRules, List.mem_filterMap, DnsGate.Names]
  constructor
  · rintro ⟨⟨rule, place⟩, member, named⟩
    have found := List.mem_zipIdx_iff_getElem?.mp member
    simp only [Option.ite_none_right_eq_some, Option.some.injEq] at named
    obtain ⟨named, rfl⟩ := named
    unfold Allow.names at named
    split at named
    · rename_i pattern named_by
      exact ⟨rule, pattern, found, named_by, named⟩
    · cases named
  · rintro ⟨rule, pattern, found, named_by, named⟩
    refine ⟨(rule, index), List.mem_zipIdx_iff_getElem?.mpr found, ?_⟩
    simp [Allow.names, named_by, named]

theorem not_matches_of_reservedHost {pattern : DnsPattern}
    (reserved : (reservedHost idna name).isSome = true) : pattern.matches idna name = false := by
  unfold reservedHost at reserved
  unfold DnsPattern.matches
  split
  · rfl
  · rename_i name normal
    rw [normal] at reserved
    have host : hostNames.contains name = true := by
      dsimp only at reserved
      split at reserved
      · simp [hostNames, *]
      · split at reserved
        · simp [hostNames, *]
        · cases reserved
    rw [if_pos host]

theorem DnsGate.Unauthorized.not_names (unauthorized : gate.Unauthorized idna question)
    (index : Nat) : ¬ gate.Names idna question index := by
  rcases unauthorized with reserved | none
  · rintro ⟨rule, pattern, -, -, named⟩
    rw [not_matches_of_reservedHost reserved] at named
    cases named
  · exact none index

theorem DnsGate.Unauthorized.authorizedRules_isEmpty
    (unauthorized : gate.Unauthorized idna question) :
    (gate.authorizedRules idna question).isEmpty = true := by
  refine List.isEmpty_iff.mpr (List.eq_nil_iff_forall_not_mem.mpr fun index member => ?_)
  exact unauthorized.not_names index (mem_authorizedRules.mp member)

end Gate

section Accepting

variable {idna : Idna} {hickory : Hickory} {ω : Type} {question : Question hickory}

/-- A request is answered by the environment alone: with its answer for a reserved host name
or a refusal, and nothing of the request's owner changes. -/
structure AnsweredAlone (idna : Idna) (question : Question hickory) (recipient : ω)
    (requests : DnsRequests hickory ω)
    (accepted : Except (DnsError × ω) (AcceptedRequest ω) × DnsRequests hickory ω) : Prop where
  unchanged : accepted.2 = requests
  own : (∃ error, accepted.1 = .error (error, recipient)) ∨
    ∃ wire, accepted.1 = .ok (.answer { recipient, wire }) ∧
      (question.reservedHostResponse idna = some (.ok wire) ∨
        question.errorResponse .refused = .ok wire)

theorem accept_unauthorized (parsed : Question.parse hickory wire = .ok question)
    (unauthorized : requests.gate.Unauthorized idna question) :
    AnsweredAlone idna question recipient requests (requests.accept idna wire recipient now) := by
  unfold DnsRequests.accept
  rw [parsed]
  dsimp only
  split
  · rename_i reserved
    exact ⟨rfl, .inr ⟨_, rfl, .inl reserved⟩⟩
  · exact ⟨rfl, .inl ⟨_, rfl⟩⟩
  · split
    · exact ⟨rfl, .inl ⟨_, rfl⟩⟩
    · rw [if_pos unauthorized.authorizedRules_isEmpty]
      refine ⟨rfl, ?_⟩
      unfold DnsRequests.reply
      split
      · rename_i refused
        exact .inr ⟨_, rfl, .inr refused⟩
      · exact .inl ⟨_, rfl⟩

theorem admitQuestion_start {requests : DnsRequests hickory ω}
    (started : (requests.admitQuestion wire question key recipient now).1 = .ok (.start task)) :
    task.wire = wire := by
  unfold DnsRequests.admitQuestion at started
  dsimp only at started
  split at started
  · cases started
    rfl
  · cases started
  · unfold DnsRequests.reply at started
    split at started
    · cases started
    · cases started

/-- A resolution is only started for an authorized question, with the client's bytes. -/
theorem accept_start {requests : DnsRequests hickory ω}
    (parsed : Question.parse hickory wire = .ok question)
    (started : (requests.accept idna wire recipient now).1 = .ok (.start task)) :
    task.wire = wire ∧ ¬ requests.gate.Unauthorized idna question := by
  constructor
  · obtain ⟨-, -, none⟩ | ⟨question, key, admitted⟩ :=
      DnsRequests.accept_cases idna requests wire recipient now
    · rw [started] at none
      cases none
    · rw [admitted] at started
      exact admitQuestion_start started
  · intro unauthorized
    have alone : AnsweredAlone idna question recipient requests
        (requests.accept idna wire recipient now) := accept_unauthorized parsed unauthorized
    obtain ⟨error, failed⟩ | ⟨answer, answered, -⟩ := alone.own
    · cases started.symm.trans failed
    · cases started.symm.trans answered

end Accepting

section Sending

variable {α : Type} {wire : Wire} {limit : Instant}

/-- The query that an event sends upstream. -/
def sentRequest (event : Program.Event UpstreamOp UpstreamOp.Answer) : Option Wire :=
  match event.1 with
  | .exchange _ _ request _ => some request
  | _ => none

/-- The queries sent upstream, in order. -/
def sentRequests (events : List (Program.Event UpstreamOp UpstreamOp.Answer)) : List Wire :=
  events.filterMap sentRequest

/-- Work within the use of its upstreams first sends the client's own question. -/
theorem first_sent_own {program last : Upstream α}
    (keeps : (upstreamUse wire limit).Keeps ensures use program) (unasked : use.asked = false)
    (runs : program.Runs events last) (first : (sentRequests events).head? = some request) :
    request.drop 2 = wire.drop 2 := by
  induction runs generalizing use with
  | stay program => cases first
  | @ask op next answer events last later ih =>
    cases op with
    | exchange channel peer asked deadline =>
      cases first
      exact keeps.1.2.2.1 unasked
    | take =>
      refine ih (keeps.2 answer) ?_ first
      cases (answer : Bool) with
      | false => exact unasked
      | true => exact unasked
    | now | isCancelled | randomId | route => exact ih (keeps.2 answer) unasked first

/-- Work that sends nothing upstream. -/
def noQuery : Monitor UpstreamOp UpstreamOp.Answer Unit where
  allowed _
    | .exchange .. => False
    | _ => True
  update _ _ _ := ()

theorem sentRequests_nil {program last : Upstream α} (keeps : noQuery.Keeps ensures () program)
    (runs : program.Runs events last) : sentRequests events = [] := by
  induction runs with
  | stay program => rfl
  | @ask op next answer events last later ih =>
    cases op with
    | exchange => exact keeps.1.elim
    | now | isCancelled | take | randomId | route => exact ih (keeps.2 answer)

end Sending

section Resolver

variable {idna : Idna} {hickory : Hickory} {question : Question hickory}
variable {resolver : UpstreamResolver}

theorem resolveControlled_unauthorized (parsed : Question.parse hickory wire = .ok question)
    (unauthorized : resolver.gate.Unauthorized idna question) :
    resolver.resolveControlled idna hickory wire deadline scope install =
      .done (question.closing (.error .policyDenied), []) := by
  unfold UpstreamResolver.resolveControlled DnsGate.dispatch
  rw [parsed]
  dsimp only
  rw [if_pos unauthorized.authorizedRules_isEmpty]
  rfl

theorem prepareSharing_unauthorized (parsed : Question.parse hickory wire = .ok question)
    (unauthorized : resolver.gate.Unauthorized idna question) :
    noQuery.Keeps (fun _ _ => True) ()
      (resolver.prepareSharing idna hickory wire deadline scope) := by
  have looking : noQuery.Keeps (fun _ _ => True) () Upstream.now := ⟨trivial, fun _ => trivial⟩
  refine looking.bind fun _ now _ => ?_
  rw [parsed]
  dsimp only
  rw [resolveControlled_unauthorized parsed unauthorized]
  trivial

/-- What a resolution may do: it sends nothing for an unauthorized question, the first query is the
question itself, and the grants are for rules that name it. -/
structure Within (idna : Idna) (gate : DnsGate) (wire : Wire) (question : Question hickory)
    (sent : List Wire) (grants : List ActiveGrant) : Prop where
  silent : gate.Unauthorized idna question → sent = []
  own : ∀ request, sent.head? = some request →
    request.drop 2 = wire.drop 2 ∧ ¬ gate.Unauthorized idna question
  named : ∀ grant ∈ grants, gate.Names idna question grant.rule

theorem within_of_silent {gate : DnsGate}
    (silent : gate.Unauthorized idna question → sent = [])
    (first : ∀ request, sent.head? = some request → request.drop 2 = wire.drop 2)
    (rules : ∀ grant ∈ grants, grant.rule ∈ gate.authorizedRules idna question) :
    Within idna gate wire question sent grants where
  silent := silent
  own request head := by
    refine ⟨first request head, fun unauthorized => ?_⟩
    rw [silent unauthorized] at head
    cases head
  named grant granted := mem_authorizedRules.mp (rules grant granted)

/-- The grants a finished resolution offered. -/
def offeredBy : Upstream (Except DnsError Wire × List ActiveGrant) → List ActiveGrant
  | .done result => result.2
  | .ask .. => []

/-- The grants a finished preparation holds. -/
def preparedBy : Upstream (Except DnsError PreparedAnswer) → List ActiveGrant
  | .done (.ok prepared) => prepared.grants
  | _ => []

theorem resolveControlled_within {outcome : List ActiveGrant → Except DnsError Unit}
    (parsed : Question.parse hickory wire = .ok question)
    (runs : (resolver.resolveControlled idna hickory wire deadline scope
      fun grants => .done (outcome grants)).Runs events last) :
    Within idna resolver.gate wire question (sentRequests events) (offeredBy last) := by
  have keeps : (upstreamUse wire deadline).Keeps _ {} (resolver.resolveControlled idna hickory wire
      deadline scope fun grants => .done (outcome grants)) :=
    resolveControlled_use (Nat.le_refl deadline) scope
  refine within_of_silent (fun unauthorized => ?_)
    (fun request first => first_sent_own keeps rfl runs first) fun grant granted => ?_
  · rw [resolveControlled_unauthorized parsed unauthorized] at runs
    rw [runs.of_done.1]
    rfl
  · have ended := keeps.runs runs
    cases last with
    | done result => exact ended question parsed grant granted
    | ask op next => cases granted

theorem prepareSharing_within (parsed : Question.parse hickory wire = .ok question)
    (runs : (resolver.prepareSharing idna hickory wire deadline scope).Runs events last) :
    Within idna resolver.gate wire question (sentRequests events) (preparedBy last) := by
  have keeps : (upstreamUse wire deadline).Keeps _ {}
      (resolver.prepareSharing idna hickory wire deadline scope) :=
    prepareSharing_use (Nat.le_refl deadline) scope
  refine within_of_silent
    (fun unauthorized => sentRequests_nil (prepareSharing_unauthorized parsed unauthorized) runs)
    (fun request first => first_sent_own keeps rfl runs first) fun grant granted => ?_
  have ended := keeps.runs runs
  match last, ended, granted with
  | .done (.ok prepared), ended, granted => exact ended prepared question rfl parsed grant granted

/-- A question with a reserved host name, or with one that no rule names, is answered alone and
sends nothing. What another question's resolution first sends is that question, and each of its
grants is for a rule that names it. -/
theorem only_authorized_names {ω : Type} (idna : Idna) (question : Question hickory)
    (parsed : Question.parse hickory wire = .ok question) :
    (∀ (requests : DnsRequests hickory ω) recipient now,
      requests.gate.Unauthorized idna question →
        AnsweredAlone idna question recipient requests
          (requests.accept idna wire recipient now)) ∧
    (∀ (requests : DnsRequests hickory ω) recipient now task,
      (requests.accept idna wire recipient now).1 = .ok (.start task) →
        task.wire = wire ∧ ¬ requests.gate.Unauthorized idna question) ∧
    (∀ (resolver : UpstreamResolver) deadline scope
        (outcome : List ActiveGrant → Except DnsError Unit) events last,
      (resolver.resolveControlled idna hickory wire deadline scope
          fun grants => .done (outcome grants)).Runs events last →
        Within idna resolver.gate wire question (sentRequests events) (offeredBy last)) ∧
    (∀ (resolver : UpstreamResolver) deadline scope events last,
      (resolver.prepareSharing idna hickory wire deadline scope).Runs events last →
        Within idna resolver.gate wire question (sentRequests events) (preparedBy last)) := by
  refine ⟨?_, ?_, ?_, ?_⟩
  · intro requests recipient now unauthorized
    exact accept_unauthorized parsed unauthorized
  · intro requests recipient now task started
    exact accept_start parsed started
  · intro resolver deadline scope outcome events last runs
    exact resolveControlled_within parsed runs
  · intro resolver deadline scope events last runs
    exact prepareSharing_within parsed runs

end Resolver

def singleQuestion : Wire := PlainLibrary.message.encode (askedFor 97)

def singleAnswer : Wire :=
  PlainLibrary.message.encode (answeredWith 97 [⟨named 97, .internet, 60, .a 16909060⟩])

/-- An upstream that answers at once. -/
def answeringAtOnce (state : Unit) : (op : UpstreamOp) → op.Answer × Unit
  | .now => ((0 : Nat), state)
  | .isCancelled => (false, state)
  | .take => (true, state)
  | .randomId => (some (singleQuestion.getD 0 0, singleQuestion.getD 1 0), state)
  | .exchange .. => (some (singleAnswer, (0 : Nat)), state)
  | .route _ => (none, state)

def firstNamed : Allow :=
  { destination := .dns { ascii := "a", descendants := false }, protocol := .tcp, ports := ⟨[]⟩ }

def plainResolver : UpstreamResolver :=
  { gate := { policy := [firstNamed] }
    upstreams := [{ address := .v4 134744072, port := 53, tlsName := none }]
    limits := {}
    trust := false }

def singlePreparation : Upstream (Except DnsError PreparedAnswer) :=
  plainResolver.prepareSharing plainIdna plainHickory singleQuestion (seconds 10) {}

theorem single_question_sent :
    ∃ question, Question.parse plainHickory singleQuestion = .ok question ∧
      sentRequests (singlePreparation.execute answeringAtOnce ()).2 = [singleQuestion] ∧
      (preparedBy (.done (singlePreparation.execute answeringAtOnce ()).1)).map
        ActiveGrant.rule = [0] ∧
      plainResolver.gate.Names plainIdna question 0 := by
  have parses : ∃ question, Question.parse plainHickory singleQuestion = .ok question := by
    decide +kernel
  obtain ⟨question, parsed⟩ := parses
  have sent : sentRequests (singlePreparation.execute answeringAtOnce ()).2 =
      [singleQuestion] := by decide +kernel
  have granted : (preparedBy (.done (singlePreparation.execute answeringAtOnce ()).1)).map
      ActiveGrant.rule = [0] := by decide +kernel
  refine ⟨question, parsed, sent, granted, ?_⟩
  have runs := Program.runs_execute answeringAtOnce singlePreparation ()
  obtain ⟨-, -, -, prepares⟩ :=
    only_authorized_names (ω := Unit) plainIdna question parsed
  obtain ⟨grant, member, rule⟩ := List.mem_map.mp (granted ▸ List.mem_singleton.mpr rfl)
  rw [← rule]
  exact (prepares plainResolver (seconds 10) {} _ _ runs).named grant member

end Kakoi
