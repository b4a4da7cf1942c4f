import Kakoi.Net.Engine
import Kakoi.Policy.Diagnostic

/-! How a worker uses its upstreams: each query is paid for, none outlasts the work, and the first
is the client's own. -/

namespace Kakoi

/-- What a worker has reserved and not sent, and what it sent last. -/
structure Use where
  credit : Nat := 0
  asked : Bool := false
  last : Option (Channel × Peer × Instant) := none

def Use.reserve (use : Use) (reserved : Bool) : Use :=
  if reserved then { use with credit := use.credit + 1 } else use

def Use.send (use : Use) (channel : Channel) (peer : Peer) (deadline : Instant) : Use :=
  { credit := use.credit - 1, asked := true, last := some (channel, peer, deadline) }

/-- The queries that may be sent for a question until a limit. -/
def upstreamUse (wire : Wire) (limit : Instant) : Monitor UpstreamOp UpstreamOp.Answer Use where
  allowed use
    | .exchange channel peer request deadline =>
      0 < use.credit ∧ deadline ≤ limit ∧
        (use.asked = false → request.drop 2 = wire.drop 2) ∧
        (channel = .tcp → ∃ earlier, use.last = some (.udp, peer, earlier) ∧ deadline ≤ earlier)
    | _ => True
  update use
    | .take, reserved => use.reserve reserved
    | .exchange channel peer _ deadline, _ => use.send channel peer deadline
    | _, _ => use

section Worker

variable {wire : Wire} {use : Use} {client : Wire}
  {resolver : UpstreamResolver} {budget : ResolutionBudget}

/-- What only looks around changes nothing. -/
theorem now_use : (upstreamUse wire limit).Leaves use Upstream.now :=
  ⟨trivial, fun _ => rfl⟩

theorem isCancelled_use : (upstreamUse wire limit).Leaves use Upstream.isCancelled :=
  ⟨trivial, fun _ => rfl⟩

theorem randomId_use : (upstreamUse wire limit).Leaves use Upstream.randomId :=
  ⟨trivial, fun _ => rfl⟩

theorem route_use (address : IpAddr) :
    (upstreamUse wire limit).Leaves use (Upstream.route address) :=
  ⟨trivial, fun _ => rfl⟩

theorem takeQuery_use : (upstreamUse wire limit).Keeps
    (fun after reserved => after = use.reserve reserved) use Upstream.takeQuery :=
  ⟨trivial, fun _ => rfl⟩

theorem send_use (allowed : (upstreamUse wire limit).allowed use
    (.exchange channel peer request deadline)) :
    (upstreamUse wire limit).Keeps (fun after _ => after = use.send channel peer deadline) use
      (Upstream.send channel peer request deadline) :=
  ⟨allowed, fun _ => rfl⟩

theorem remaining_use (deadline : Instant) :
    (upstreamUse wire limit).Leaves use (remaining deadline) := by
  refine isCancelled_use.look fun cancelled => ?_
  split
  · exact rfl
  · exact now_use.bind fun after now same => same

theorem exchangeDeadline_le (budget : ResolutionBudget) (now : Instant) (wait : UpstreamWait) :
    budget.exchangeDeadline now wait ≤ budget.deadline := by
  unfold ResolutionBudget.exchangeDeadline
  cases wait with
  | wholeResolution => exact Nat.le_refl _
  | perCandidate =>
    cases checkedAdd now budget.serverTimeout with
    | none => exact Nat.le_refl _
    | some deadline => exact Nat.min_le_right ..

/-- What a reservation leaves: nothing, or one query more and a deadline for it. -/
def Reserved (use after : Use) (budget : ResolutionBudget) : Option Instant → Prop
  | none => after = use
  | some deadline => after = use.reserve true ∧ deadline ≤ budget.deadline

theorem reserveQuery_use (budget : ResolutionBudget) (wait : UpstreamWait) :
    (upstreamUse wire limit).Keeps (fun after result => Reserved use after budget result) use
      (reserveQuery budget wait) := by
  refine now_use.look fun now => ?_
  split
  · exact rfl
  · refine takeQuery_use.bind fun after reserved same => ?_
    subst same
    cases reserved with
    | false => exact rfl
    | true => exact ⟨rfl, exchangeDeadline_le budget now wait⟩

theorem upstreamRequest_use (original : Question hickory) (client : Wire) (deadline : Instant) :
    (upstreamUse wire limit).Keeps
      (fun after result => after = use ∧
        ∀ request ∈ result, request.drop 2 = client.drop 2)
      use (upstreamRequest client original deadline) := by
  unfold upstreamRequest
  split
  · exact ⟨rfl, by simp⟩
  · refine (remaining_use deadline).look fun live => ?_
    split
    · refine randomId_use.look fun id => ?_
      cases id with
      | none => exact ⟨rfl, by simp⟩
      | some bytes => exact ⟨rfl, by simp⟩
    · exact ⟨rfl, by simp⟩

/-- An exchange fails before it sends, or sends once. -/
def Sent (use after : Use) (channel : Channel) (peer : Peer) (deadline : Instant)
    (result : Option ReceivedResponse) : Prop :=
  (result = none ∧ after = use) ∨ after = use.send channel peer deadline

/-- What an exchange needs: a reservation, a deadline in time, and a request of its own. -/
structure MaySend (wire : Wire) (limit : Instant) (use : Use) (client : Wire) (channel : Channel)
    (peer : Peer) (deadline : Instant) : Prop where
  paid : 0 < use.credit
  within : deadline ≤ limit
  own : use.asked = false → client.drop 2 = wire.drop 2
  follows : channel = .tcp → ∃ earlier, use.last = some (.udp, peer, earlier) ∧ deadline ≤ earlier

theorem MaySend.allowed (may : MaySend wire limit use client channel peer deadline)
    (same : request.drop 2 = client.drop 2) :
    (upstreamUse wire limit).allowed use (.exchange channel peer request deadline) :=
  ⟨may.paid, may.within, fun first => same.trans (may.own first), may.follows⟩

theorem plain_use (may : MaySend wire limit use client channel peer deadline) :
    (upstreamUse wire limit).Keeps
      (fun after result => Sent use after channel peer deadline result) use
      (plain hickory client peer channel deadline) := by
  unfold plain
  split
  · exact .inl ⟨rfl, rfl⟩
  · refine (remaining_use deadline).look fun live => ?_
    split
    · refine (upstreamRequest_use _ client deadline).bind fun after result kept => ?_
      obtain ⟨rfl, same⟩ := kept
      split
      · exact .inl ⟨rfl, rfl⟩
      · rename_i request
        split
        · exact .inl ⟨rfl, rfl⟩
        · refine (send_use (may.allowed (same request rfl))).bind fun after received sent => ?_
          subst sent
          split
          · exact .inr rfl
          · split
            · exact .inr rfl
            · refine (remaining_use deadline).look fun live => ?_
              split
              · exact .inr rfl
              · exact .inr rfl
    · exact .inl ⟨rfl, rfl⟩

theorem exchangeTls_use (may : MaySend wire limit use client (.tls name) peer deadline) :
    (upstreamUse wire limit).Keeps
      (fun after result => Sent use after (.tls name) peer deadline result) use
      (exchangeTls hickory client peer name deadline) := by
  unfold exchangeTls
  split
  · exact .inl ⟨rfl, rfl⟩
  · refine (upstreamRequest_use _ client deadline).bind fun after result kept => ?_
    obtain ⟨rfl, same⟩ := kept
    split
    · exact .inl ⟨rfl, rfl⟩
    · rename_i request
      split
      · exact .inl ⟨rfl, rfl⟩
      · refine (send_use (may.allowed (same request rfl))).bind fun after received sent => ?_
        subst sent
        split
        · exact .inr rfl
        · refine (remaining_use deadline).look fun live => ?_
          split
          · split
            · exact .inr rfl
            · exact .inr rfl
          · exact .inr rfl

/-- What a lookup leaves: once anything was sent, it stays so, and a reply was sent for. -/
def LookedUp (use after : Use) (result : Option ReceivedResponse) : Prop :=
  (use.asked = true → after.asked = true) ∧ (result.isSome = true → after.asked = true)

theorem Sent.lookedUp (sent : Sent use after channel peer deadline result) :
    LookedUp use after result := by
  rcases sent with ⟨rfl, rfl⟩ | rfl
  · exact ⟨id, by simp⟩
  · exact ⟨fun _ => rfl, fun _ => rfl⟩

/-- The search goes on with another candidate. -/
theorem LookedUp.on {program : Upstream (Option ReceivedResponse)}
    (before : LookedUp use after first) (own : use.asked = false → client.drop 2 = wire.drop 2)
    (later : (after.asked = false → client.drop 2 = wire.drop 2) →
      (upstreamUse wire limit).Keeps (fun final result => LookedUp after final result) after program) :
    (upstreamUse wire limit).Keeps (fun final result => LookedUp use final result) after
      program := by
  have still : after.asked = false → client.drop 2 = wire.drop 2 := by
    intro unasked
    refine own ?_
    cases asked : use.asked with
    | false => rfl
    | true => simp [before.1 asked] at unasked
  exact (later still).mono fun final result kept =>
    ⟨fun asked => kept.1 (before.1 asked), kept.2⟩

theorem answered_some (found : answered result = some received) : result = some received := by
  exact (Option.filter_eq_some_iff.mp found).1

section Lookups

variable (within : budget.deadline ≤ limit) (own : use.asked = false → client.drop 2 = wire.drop 2)

include within own

theorem plainCandidates_use (wait : UpstreamWait) (peers attempted : List Peer) :
    (upstreamUse wire limit).Keeps (fun after result => LookedUp use after result) use
      (plainCandidates hickory client budget wait peers attempted) := by
  induction peers generalizing attempted use with
  | nil => exact ⟨id, by simp⟩
  | cons peer peers ih =>
    unfold plainCandidates
    split
    · exact ih own attempted
    · refine (reserveQuery_use budget wait).bind fun after result reserved => ?_
      cases result with
      | none =>
        obtain rfl := reserved
        exact ⟨id, by simp⟩
      | some candidateDeadline =>
        obtain ⟨rfl, early⟩ := reserved
        have may : MaySend wire limit (use.reserve true) client .udp peer candidateDeadline :=
          ⟨Nat.succ_pos _, Nat.le_trans early within, own, by simp⟩
        refine (plain_use may).bind fun after first sent => ?_
        have first_up : LookedUp use after first := sent.lookedUp
        split
        · rename_i truncated
          -- A truncated reply came back, so the query over UDP was the last one sent.
          obtain ⟨received, rfl⟩ : ∃ received, first = some received := by
            cases first with
            | none => simp at truncated
            | some received => exact ⟨received, rfl⟩
          obtain ⟨impossible, -⟩ | rfl := sent
          · cases impossible
          refine now_use.look fun now => ?_
          split
          · exact first_up.on own fun still => ih still _
          · refine (reserveQuery_use budget wait).bind fun after result reserved => ?_
            cases result with
            | none =>
              obtain rfl := reserved
              exact ⟨first_up.1, by simp⟩
            | some deadline =>
              obtain ⟨rfl, -⟩ := reserved
              have may : MaySend wire limit
                  (((use.reserve true).send .udp peer candidateDeadline).reserve true) client .tcp
                  peer (min deadline candidateDeadline) :=
                ⟨Nat.succ_pos _,
                  Nat.le_trans (Nat.min_le_right ..) (Nat.le_trans early within),
                  fun unasked => absurd unasked (by simp [Use.reserve, Use.send]),
                  fun _ => ⟨candidateDeadline, rfl, Nat.min_le_right ..⟩⟩
              refine (plain_use may).bind fun after second sent => ?_
              have second_up : LookedUp use after second :=
                ⟨fun asked => sent.lookedUp.1 (first_up.1 asked), sent.lookedUp.2⟩
              split
              · rename_i answer
                exact ⟨second_up.1, fun _ => second_up.2 (by simp [answered_some answer])⟩
              · exact second_up.on own fun still => ih still _
        · split
          · rename_i answer
            exact ⟨first_up.1, fun _ => first_up.2 (by simp [answered_some answer])⟩
          · exact first_up.on own fun still => ih still _

theorem tlsCandidates_use (wait : UpstreamWait) (upstreams : List DnsUpstream)
    (attempted : List (Peer × String)) :
    (upstreamUse wire limit).Keeps (fun after result => LookedUp use after result) use
      (tlsCandidates hickory client budget wait upstreams attempted) := by
  induction upstreams generalizing attempted use with
  | nil => exact ⟨id, by simp⟩
  | cons upstream upstreams ih =>
    unfold tlsCandidates
    split
    · exact ⟨id, by simp⟩
    · dsimp only
      split
      · exact ih own attempted
      · refine (reserveQuery_use budget wait).bind fun after result reserved => ?_
        cases result with
        | none =>
          obtain rfl := reserved
          exact ⟨id, by simp⟩
        | some deadline =>
          obtain ⟨rfl, early⟩ := reserved
          have may : ∀ name, MaySend wire limit (use.reserve true) client (.tls name)
              { address := upstream.address, port := upstream.port } deadline := fun name =>
            ⟨Nat.succ_pos _, Nat.le_trans early within, own, by simp⟩
          refine (exchangeTls_use (may _)).bind fun after result sent => ?_
          have looked : LookedUp use after result := sent.lookedUp
          split
          · rename_i answer
            exact ⟨looked.1, fun _ => looked.2 (by simp [answered_some answer])⟩
          · exact looked.on own fun still => ih still _

theorem exchangeUpstreams_use (upstreams : List DnsUpstream) (trust : Bool) (wait : UpstreamWait) :
    (upstreamUse wire limit).Keeps (fun after result => LookedUp use after result) use
      (exchangeUpstreams hickory client upstreams trust budget wait) := by
  unfold exchangeUpstreams
  split
  · exact ⟨id, by simp⟩
  · exact ⟨id, by simp⟩
  · split
    · split
      · exact ⟨id, by simp⟩
      · exact plainCandidates_use within own wait _ _
    · split
      · exact ⟨id, by simp⟩
      · split
        · exact ⟨id, by simp⟩
        · exact tlsCandidates_use within own wait _ _

end Lookups

/-- The lookups of a resolution: until a reply came, they are for the client's question. -/
def ownLookup (wire : Wire) : Monitor ResolveOp ResolveOp.Answer Bool where
  allowed replied
    | .now => True
    | .lookup request => replied = false → request.drop 2 = wire.drop 2
  update replied
    | .now, _ => replied
    | .lookup _, (answer : Except DnsError (Wire × Instant)) => replied || answer.isOk

theorem resolveRounds_asks (rounds : Nat) (state : Resolution)
    (own : replied = false → state.request.drop 2 = wire.drop 2) :
    (ownLookup wire).Keeps (fun _ _ => True) replied
      (resolveRounds original limits budget rounds state) := by
  induction rounds generalizing state replied with
  | zero => trivial
  | succ rounds ih =>
    refine ⟨trivial, fun now => ?_⟩
    dsimp only [ownLookup]
    split
    · trivial
    · refine ⟨own, fun answer => ?_⟩
      cases (answer : Except DnsError (Wire × Instant)) with
      | error error => trivial
      | ok received =>
        dsimp only
        split
        · trivial
        · trivial
        · exact ih _ fun unreplied => by simp [Except.isOk, Except.toBool] at unreplied

theorem resolveAddresses_asks (limits : NetworkLimits) (budget : ResolutionBudget) :
    (ownLookup wire).Keeps (fun _ _ => True) false
      (resolveAddresses hickory wire limits budget) := by
  have rounds : (ownLookup wire).Keeps (fun _ _ => True) false
      (resolveWithin hickory (limits.dnsMaxCnameHops + 1) wire limits budget) := by
    unfold resolveWithin
    split
    · trivial
    · split
      · trivial
      · exact resolveRounds_asks _ _ fun _ => rfl
  exact rounds.bind fun _ _ _ => trivial

/-- A reply only comes to a worker that sent a query. -/
def Replied (replied : Bool) (use : Use) : Prop := replied = true → use.asked = true

theorem lookup_use (within : budget.deadline ≤ limit) (op : ResolveOp)
    (related : Replied replied use) (allowed : (ownLookup wire).allowed replied op) :
    (upstreamUse wire limit).Keeps
      (fun after answer => Replied ((ownLookup wire).update replied op answer) after) use
      (resolver.lookup hickory budget op) := by
  cases op with
  | now =>
    refine now_use.mono fun after now same => ?_
    subst same
    exact related
  | lookup request =>
    have own : use.asked = false → request.drop 2 = wire.drop 2 := by
      intro unasked
      refine allowed ?_
      cases replied with
      | false => rfl
      | true => simp [related rfl] at unasked
    refine (exchangeUpstreams_use within own _ _ _).bind fun after result looked => ?_
    cases result with
    | none => exact fun answered => looked.1 (related (by simpa [ownLookup, Except.isOk,
        Except.toBool] using answered))
    | some received => exact fun _ => looked.2 rfl

theorem ensureLive_use (budget : ResolutionBudget) (grants : List ActiveGrant) :
    (upstreamUse wire limit).Leaves use (ensureLive budget grants) := by
  refine now_use.look fun now => ?_
  split
  · exact rfl
  · exact rfl

theorem checkCancel_use : (upstreamUse wire limit).Leaves use checkCancel :=
  isCancelled_use.bind fun _ _ same => same

theorem observeRoutes_use (addresses : List AddressCandidate)
    (routes : List (IpAddr × Option String)) :
    (upstreamUse wire limit).Leaves use (observeRoutes addresses routes) := by
  induction addresses generalizing routes with
  | nil => exact rfl
  | cons address addresses ih =>
    unfold observeRoutes
    split
    · exact ih routes
    · refine (route_use address.address).look fun route => ?_
      exact ih _

/-- Grants are only prepared for the rules that authorize the question. -/
theorem grantsFor_rules (granted : grant ∈ resolver.grantsFor scope routes rules addresses) :
    grant.rule ∈ rules := by
  obtain ⟨candidate, -, granted⟩ := List.mem_flatMap.mp granted
  obtain ⟨rule, admitted, rfl⟩ := List.mem_map.mp granted
  exact List.mem_of_mem_filter admitted

/-- What the resolution of an authorized question ends with. -/
def Offered (rules : List Nat) (result : Except DnsError Wire × List ActiveGrant) : Prop :=
  ∀ grant ∈ result.2, grant.rule ∈ rules

theorem offered_nil : Offered rules (answer, []) :=
  fun _ granted => nomatch granted

variable {outcome : List ActiveGrant → Except DnsError Unit}

/-- The last checks keep the grants that were installed. -/
theorem conclude_use (budget : ResolutionBudget) (answer : Wire) (installed : Except DnsError Unit)
    (offered : ∀ grant ∈ grants, grant.rule ∈ rules) :
    (upstreamUse wire limit).Keeps (fun _ result => Offered rules result) use
      (UpstreamResolver.conclude budget answer grants installed) := by
  cases installed with
  | error error => exact offered
  | ok _ =>
    refine (ensureLive_use _ _).look fun live => ?_
    split
    · refine checkCancel_use.look fun live => ?_
      split
      · exact offered
      · exact offered
    · exact offered

theorem adoptResolved_use (scope : AddressContext) (rules : List Nat) (budget : ResolutionBudget)
    (resolved : ResolvedAddresses) :
    (upstreamUse wire limit).Keeps (fun _ result => Offered rules result) use
      (resolver.adoptResolved hickory scope rules budget (fun grants => .done (outcome grants))
        resolved) := by
  refine (observeRoutes_use _ _).look fun routes => ?_
  split
  · exact offered_nil
  · refine (ensureLive_use _ _).look fun live => ?_
    split
    · refine checkCancel_use.look fun live => ?_
      split
      · split
        · exact conclude_use _ _ _ fun grant granted => grantsFor_rules granted
        · exact conclude_use _ _ _ fun grant granted => grantsFor_rules granted
      · exact offered_nil
    · exact offered_nil

theorem resolveAuthorized_use (within : deadline ≤ limit) (scope : AddressContext)
    (rules : List Nat) :
    (upstreamUse wire limit).Keeps (fun _ result => Offered rules result) use
      (resolver.resolveAuthorized hickory deadline scope (fun grants => .done (outcome grants))
        wire rules) := by
  refine checkCancel_use.look fun live => ?_
  split
  · refine now_use.look fun now => ?_
    split
    · exact offered_nil
    · rename_i budget _
      have early : (budget.constrainDeadline deadline).deadline ≤ limit :=
        Nat.le_trans (Nat.min_le_right ..) within
      refine (ensureLive_use _ _).look fun live => ?_
      split
      · split
        · exact offered_nil
        · split
          · refine (exchangeUpstreams_use early (fun _ => rfl) _ _ _).bind
              fun after result looked => ?_
            split
            · exact offered_nil
            · exact offered_nil
          · have start : ∀ use, Replied false use := fun use replied => nomatch replied
            refine (Program.keeps_interpret
              (fun replied use op related allowed => lookup_use early op related allowed)
              (resolveAddresses_asks resolver.limits (budget.constrainDeadline deadline))
              (start _)).bind fun after result _ => ?_
            split
            · exact offered_nil
            · split
              · exact offered_nil
              · exact adoptResolved_use scope rules _ _
      · exact offered_nil
  · exact offered_nil

/-- Of an authorized question, the work stays within the use of its upstreams. -/
theorem resolveControlled_use (within : deadline ≤ limit) (scope : AddressContext) :
    (upstreamUse wire limit).Keeps
      (fun _ result => ∀ question, Question.parse hickory wire = .ok question →
        Offered (resolver.gate.authorizedRules idna question) result)
      use (resolver.resolveControlled idna hickory wire deadline scope
        fun grants => .done (outcome grants)) := by
  unfold UpstreamResolver.resolveControlled DnsGate.dispatch
  split
  · exact fun _ _ => offered_nil
  · rename_i parsed
    dsimp only
    split
    · exact fun _ _ => offered_nil
    · refine (resolveAuthorized_use within scope _).bind fun after result offered => ?_
      intro question same
      cases parsed.symm.trans same
      exact offered

/-- The grants of a prepared answer are for rules that authorize the question. -/
def Prepared (idna : Idna) (hickory : Hickory) (gate : DnsGate) (wire : Wire)
    (result : Except DnsError PreparedAnswer) : Prop :=
  ∀ prepared question, result = .ok prepared → Question.parse hickory wire = .ok question →
    ∀ grant ∈ prepared.grants, grant.rule ∈ gate.authorizedRules idna question

theorem prepareSharing_use (within : deadline ≤ limit) (scope : AddressContext) :
    (upstreamUse wire limit).Keeps
      (fun _ result => Prepared idna hickory resolver.gate wire result) use
      (resolver.prepareSharing idna hickory wire deadline scope) := by
  refine now_use.look fun now => ?_
  dsimp only
  split
  · exact fun _ _ failed => nomatch failed
  · have early : min deadline (now + seconds resolver.limits.dnsResolutionTimeoutSeconds) ≤ limit :=
      Nat.le_trans (Nat.min_le_left ..) within
    refine (resolveControlled_use early scope).bind fun after result offered => ?_
    intro prepared question done same grant granted
    refine offered question same grant ?_
    obtain ⟨answer, -, done⟩ := Except.bind_eq_ok.mp done
    obtain ⟨validated, -, done⟩ := Except.bind_eq_ok.mp done
    cases done
    dsimp only at granted
    split at granted
    · cases granted
    · exact granted

end Worker

end Kakoi
