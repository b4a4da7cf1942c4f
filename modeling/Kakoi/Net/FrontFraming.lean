import Mathlib.Data.List.Induction
import Mathlib.Data.List.Nodup
import Kakoi.Base.Collecting
import Kakoi.Net.DnsFront

/-! Queries and replies on the streams of the front, which take their frames one at a time. -/

namespace Kakoi.DnsFront

open Std (ExtTreeMap)

/-- What has passed on one stream. -/
structure Traffic where
  received : Wire := []
  delivered : List Wire := []
  accepted : List Wire := []
  written : Wire := []

namespace Traffic

def turned (traffic : Traffic) (turn : Turn) : Traffic :=
  { traffic with
    received := traffic.received ++ turn.read
    delivered := traffic.delivered ++ turn.query.toList
    written := traffic.written ++ turn.wrote }

def replied (traffic : Traffic) (wire : Wire) : Traffic :=
  { traffic with accepted := traffic.accepted ++ [wire] }

def add (id : Nat) (traffic : Traffic) : FrontEvent → Traffic
  | .turn other turn => if other = id then traffic.turned turn else traffic
  | .reply other wire => if other = id then traffic.replied wire else traffic

/-- Every query has its reply, and the replies are written. -/
def Settled (traffic : Traffic) : Prop :=
  traffic.delivered.length = traffic.accepted.length ∧ traffic.written = frames traffic.accepted

/-- What was received behind the frames that were handed over, with what is read now. -/
def rest (traffic : Traffic) (read : Wire) : Wire :=
  (traffic.received ++ read).drop (frames traffic.delivered).length

/-- What holds of a stream at any time, also when it has been closed. -/
structure Sound (traffic : Traffic) : Prop where
  framed : frames traffic.delivered <+: traffic.received
  framable : Framable traffic.delivered
  answered : traffic.accepted.length ≤ traffic.delivered.length
  single : traffic.delivered.length ≤ traffic.accepted.length + 1
  replies : traffic.written <+: frames traffic.accepted

end Traffic

def trafficOf (log : List FrontEvent) (id : Nat) : Traffic := log.foldl (Traffic.add id) {}

theorem trafficOf_concat (log : List FrontEvent) (event : FrontEvent) (id : Nat) :
    trafficOf (log ++ [event]) id = (trafficOf log id).add id event := by
  simp [trafficOf]

theorem Traffic.add_other {id : Nat} (traffic : Traffic) (other : event.id ≠ id) :
    traffic.add id event = traffic := by
  cases event with
  | turn owner turn => exact if_neg other
  | reply owner wire => exact if_neg other

/-- The three states of a stream that is open. -/
inductive Phase (peer : Peer) (traffic : Traffic) : Prop where
  | idle (pending : peer.pending = false) (output : peer.output = []) (settled : traffic.Settled)
  | waiting (pending : peer.pending = true) (output : peer.output = [])
      (outstanding : traffic.delivered.length = traffic.accepted.length + 1)
      (written : traffic.written = frames traffic.accepted)
  | replying (pending : peer.pending = true) (inside : peer.written < peer.output.length)
      (answered : traffic.delivered.length = traffic.accepted.length)
      (written : traffic.written ++ peer.output.drop peer.written = frames traffic.accepted)

structure Live (peer : Peer) (traffic : Traffic) : Prop where
  received : traffic.received = frames traffic.delivered ++ peer.input
  bounded : peer.input.length ≤ maxFrame
  framable : Framable traffic.delivered
  phase : Phase peer traffic

theorem Live.sound (live : Live peer traffic) : traffic.Sound := by
  have framed : frames traffic.delivered <+: traffic.received := ⟨peer.input, live.received.symm⟩
  cases live.phase with
  | idle pending output settled =>
    have answered := settled.1
    exact ⟨framed, live.framable, by omega, by omega, settled.2 ▸ List.prefix_rfl⟩
  | waiting pending output outstanding written =>
    exact ⟨framed, live.framable, by omega, by omega, written ▸ List.prefix_rfl⟩
  | replying pending inside answered written =>
    exact ⟨framed, live.framable, by omega, by omega, ⟨_, written⟩⟩

/-- The next frame is handed over when it is there and the replies before it are written, and a
stream whose next frame has no bytes is not kept. -/
structure Turn.Fair (traffic : Traffic) (turn : Turn) : Prop where
  paced : turn.query.isSome = true → traffic.Settled
  closing : traffic.Settled → turn.kept = true → ¬ [0, 0] <+: traffic.rest turn.read
  handed : traffic.Settled → turn.kept = true →
    turn.query = (readFrames (traffic.rest turn.read)).head?

/-- What a turn does to a stream. -/
structure Turned (traffic : Traffic) (turn : Turn) : Prop where
  fair : turn.Fair traffic
  sound : (traffic.turned turn).Sound
  kept : turn.kept = true → Live turn.peer (traffic.turned turn)

theorem Turned.of_live (fair : Turn.Fair traffic turn) (live : Live turn.peer (traffic.turned turn)) :
    Turned traffic turn :=
  ⟨fair, live.sound, fun _ => live⟩

section Turns

variable {traffic : Traffic} {read : Wire}

theorem Traffic.turned_quiet (traffic : Traffic) (peer : Peer) (kept : Bool) :
    traffic.turned { peer, kept } = traffic := by
  simp [Traffic.turned]

theorem Traffic.rest_eq
    (received : traffic.received ++ read = frames traffic.delivered ++ input) :
    traffic.rest read = input := by
  rw [Traffic.rest, received, List.drop_left]

theorem Live.closed (live : Live peer traffic) : Turned traffic { peer, kept := false } where
  fair := ⟨nofun, nofun, nofun⟩
  sound := by
    rw [Traffic.turned_quiet]
    exact live.sound
  kept := nofun

/-- A stream that announces no bytes has its frame there as a whole. -/
theorem empty_frame (starts : [0, 0] <+: input) : announced input = 0 ∧ 2 ≤ input.length := by
  obtain ⟨rest, rfl⟩ := starts
  exact ⟨rfl, by simp⟩

theorem not_empty_frame (incomplete : input.length < announced input + 2) : ¬ [0, 0] <+: input := by
  intro starts
  obtain ⟨none, long⟩ := empty_frame starts
  omega

theorem Live.unmoved (live : Live peer traffic)
    (incomplete : traffic.Settled → peer.input.length < announced peer.input + 2) :
    Turned traffic { peer, kept := true } := by
  have rest : traffic.rest [] = peer.input :=
    Traffic.rest_eq (by rw [List.append_nil, live.received])
  refine .of_live ⟨nofun, fun settled _ => ?_, fun settled _ => ?_⟩ ?_
  · rw [rest]
    exact not_empty_frame (incomplete settled)
  · rw [rest, readFrames_incomplete (incomplete settled)]
    rfl
  · rw [Traffic.turned_quiet]
    exact live

theorem Phase.busy (phase : Phase peer traffic) (pending : peer.pending = true) : ¬ traffic.Settled := by
  rintro ⟨answered, written⟩
  cases phase with
  | idle free =>
    rw [free] at pending
    cases pending
  | waiting _ _ outstanding => omega
  | replying _ inside _ rest =>
    rw [written] at rest
    have none : peer.output.drop peer.written = [] := by simpa using rest
    have length := congrArg List.length none
    rw [List.length_drop, List.length_nil] at length
    omega

theorem Phase.settled (phase : Phase peer traffic) (free : peer.pending = false) :
    peer.output = [] ∧ traffic.Settled := by
  cases phase with
  | idle _ output settled => exact ⟨output, settled⟩
  | waiting pending =>
    rw [free] at pending
    cases pending
  | replying pending =>
    rw [free] at pending
    cases pending

theorem Live.write (live : Live peer traffic) (filled : peer.output ≠ []) :
    Turned traffic (peer.write now answer) := by
  obtain ⟨pending, inside, answered, written⟩ : peer.pending = true ∧
      peer.written < peer.output.length ∧ traffic.delivered.length = traffic.accepted.length ∧
      traffic.written ++ peer.output.drop peer.written = frames traffic.accepted := by
    cases live.phase with
    | idle _ output => exact absurd output filled
    | waiting _ output => exact absurd output filled
    | replying pending inside answered written => exact ⟨pending, inside, answered, written⟩
  have busy := live.phase.busy pending
  unfold Peer.write
  dsimp only
  split
  · rename_i count
    split
    · exact live.closed
    · rename_i moved
      -- What is written is the front of what was left of the reply.
      generalize chunk : ((peer.output.take (peer.written + chunkSize)).drop peer.written).take count = wrote
        at moved ⊢
      have front : wrote <+: peer.output.drop peer.written := by
        rw [← chunk, List.drop_take]
        exact (List.take_prefix _ _).trans (List.take_prefix _ _)
      obtain ⟨left, split⟩ := front
      have behind : peer.output.drop (peer.written + wrote.length) = left := by
        rw [← List.drop_drop, ← split, List.drop_left]
      have size : wrote.length + left.length = peer.output.length - peer.written := by
        rw [← List.length_append, split, List.length_drop]
      have more : traffic.written ++ wrote ++ left = frames traffic.accepted := by
        rw [List.append_assoc, split, written]
      have fair (after : Peer) : Turn.Fair traffic { peer := after, kept := true, wrote } :=
        ⟨nofun, fun settled => absurd settled busy, fun settled => absurd settled busy⟩
      split
      · rename_i all
        have nothing : left = [] := List.length_eq_zero_iff.mp (by omega)
        subst nothing
        rw [List.append_nil] at more
        refine .of_live (fair _) ⟨?_, live.bounded, ?_, ?_⟩
        · simpa [Traffic.turned] using live.received
        · simpa [Traffic.turned] using live.framable
        · exact .idle rfl rfl ⟨by simpa [Traffic.turned] using answered, more⟩
      · rename_i part
        refine .of_live (fair _) ⟨?_, live.bounded, ?_, ?_⟩
        · simpa [Traffic.turned] using live.received
        · simpa [Traffic.turned] using live.framable
        · refine .replying pending ?_ (by simpa [Traffic.turned] using answered) ?_
          · show peer.written + wrote.length < peer.output.length
            omega
          · show traffic.written ++ wrote ++ peer.output.drop (peer.written + wrote.length) = _
            rw [behind]
            exact more
  · exact live.unmoved fun settled => absurd settled busy
  · exact live.closed

theorem Live.handOver (live : Live peer (traffic.turned { peer, kept := true, read }))
    (free : peer.pending = false) : Turned traffic (peer.handOver now timeout read) := by
  obtain ⟨output, settled⟩ := live.phase.settled free
  have received : traffic.received ++ read = frames traffic.delivered ++ peer.input := by
    simpa [Traffic.turned] using live.received
  have framable : Framable traffic.delivered := by simpa [Traffic.turned] using live.framable
  have before : traffic.Settled := ⟨by simpa [Traffic.turned] using settled.1,
    by simpa [Traffic.turned] using settled.2⟩
  have fair (turn : Turn) (taken : turn.read = read)
      (full : turn.kept = true → ¬ [0, 0] <+: peer.input)
      (handed : turn.kept = true → turn.query = (readFrames peer.input).head?) :
      turn.Fair traffic := by
    rw [← Traffic.rest_eq received, ← taken] at full handed
    exact ⟨fun _ => before, fun _ => full, fun _ => handed⟩
  have short (incomplete : peer.input.length < announced peer.input + 2) :
      Turned traffic { peer, kept := true, read } := by
    refine .of_live (fair _ rfl (fun _ => not_empty_frame incomplete) fun _ => ?_) live
    rw [readFrames_incomplete incomplete]
    rfl
  unfold Peer.handOver
  split
  · exact short (by omega)
  · split
    · exact ⟨fair _ rfl nofun nofun, live.sound, nofun⟩
    · rename_i announces
      split
      · rename_i incomplete
        exact short incomplete
      · rename_i complete
        obtain ⟨split, size⟩ := split_frame (Nat.le_of_not_lt complete)
        have least := announced_lt peer.input
        have nonempty : announced peer.input ≠ 0 := fun none =>
          announces (by rw [Peer.frameLength, none])
        have first : readFrames peer.input = (peer.input.take peer.frameLength).drop 2 ::
            readFrames (peer.input.drop peer.frameLength) := by
          conv_lhs => rw [split]
          exact readFrames_frame (by omega) (by omega) _
        refine .of_live (fair _ rfl (fun _ starts => nonempty (empty_frame starts).1)
          fun _ => by rw [first]; rfl) ⟨?_, ?_, ?_, ?_⟩
        · show traffic.received ++ read = frames (traffic.delivered ++ [_]) ++ _
          rw [received, frames_concat, List.append_assoc]
          exact congrArg (frames traffic.delivered ++ ·) split
        · show (peer.input.drop peer.frameLength).length ≤ maxFrame
          rw [List.length_drop]
          exact Nat.le_trans (Nat.sub_le _ _) live.bounded
        · intro message member
          rcases mem_concat.mp member with old | new
          · exact framable message old
          · rw [new]
            exact ⟨by rw [Peer.frameLength, size]; omega, by rw [Peer.frameLength, size]; exact least⟩
        · refine .waiting rfl output ?_ ?_
          · simpa [Traffic.turned] using before.1
          · simpa [Traffic.turned] using before.2

/-- A read takes no more than fits in one frame. -/
theorem Live.fed (live : Live peer traffic) (free : peer.pending = false) (output : peer.output = [])
    (settled : traffic.Settled) (kept : Bool) (bytes : Wire) :
    Live { peer with input := peer.input ++ bytes.take (min chunkSize (maxFrame - peer.input.length)) }
      (traffic.turned
        { peer := { peer with
            input := peer.input ++ bytes.take (min chunkSize (maxFrame - peer.input.length)) }
          kept
          read := bytes.take (min chunkSize (maxFrame - peer.input.length)) }) := by
  refine ⟨?_, ?_, ?_, ?_⟩
  · simp [Traffic.turned, live.received]
  · have bounded := live.bounded
    simp only [List.length_append, List.length_take]
    omega
  · simpa [Traffic.turned] using live.framable
  · exact .idle free output ⟨by simpa [Traffic.turned] using settled.1,
      by simpa [Traffic.turned] using settled.2⟩

theorem Live.step (live : Live peer traffic) : Turned traffic (peer.step now timeout answer) := by
  unfold Peer.step
  split
  · rename_i filled
    exact live.write filled
  · split
    · rename_i pending
      exact live.unmoved fun settled => absurd settled (live.phase.busy pending)
    · rename_i taken
      have free : peer.pending = false := by simpa using taken
      obtain ⟨output, settled⟩ := live.phase.settled free
      split
      · rename_i incomplete
        rw [Peer.frameLength] at incomplete
        split
        · rename_i bytes read
          dsimp only
          split
          · exact live.closed
          · exact (live.fed free output settled _ bytes).handOver free
        · exact live.unmoved fun _ => by omega
        · exact live.closed
      · refine Live.handOver ?_ free
        rw [Traffic.turned_quiet]
        exact live

end Turns

/-- What holds of the front after every call. -/
structure Kept (limit : Nat) (system : FrontSystem) : Prop where
  configured : system.front.maxConnections = limit
  distinct : system.front.order.Nodup
  queued : ∀ id, id ∈ system.front.order ↔ id ∈ system.front.peers
  connections : system.front.peers.size ≤ limit
  numbered : ∀ id ∈ system.front.peers, id < system.front.nextId
  past : ∀ event ∈ system.log, event.id < system.front.nextId
  live : ∀ id peer, system.front.peers[id]? = some peer → Live peer (trafficOf system.log id)
  sound : ∀ id, (trafficOf system.log id).Sound
  -- A token is held for a query that has no reply yet.
  accounted : ∀ id, system.held.count (.tcp id) + (trafficOf system.log id).accepted.length ≤
    (trafficOf system.log id).delivered.length
  ended : ∀ id turn, .turn id turn ∈ system.log → turn.kept = false → id ∉ system.front.peers
  orderly : ∀ before id turn after, system.log = before ++ .turn id turn :: after →
    turn.Fair (trafficOf before id) ∧ (turn.kept = false → ∀ event ∈ after, event.id ≠ id)

theorem receiveDatagramsOn_udp
    (received : receiveDatagramsOn library second answers rounds incoming = .ok queries)
    (before : ∀ query ∈ incoming, ∀ id, query.reply ≠ .tcp id) :
    ∀ query ∈ queries, ∀ id, query.reply ≠ .tcp id := by
  induction rounds generalizing incoming with
  | zero =>
    cases received
    exact before
  | succ left ih =>
    unfold receiveDatagramsOn at received
    split at received
    · refine ih received ?_
      intro query member id
      rcases mem_concat.mp member with old | new
      · exact before query old id
      · rw [new]
        nofun
    · cases received
      exact before
    · exact ih received before
    · cases received

theorem receiveDatagrams_udp (received : receiveDatagrams library answers = .ok queries) :
    ∀ query ∈ queries, ∀ id, query.reply ≠ .tcp id := by
  unfold receiveDatagrams at received
  cases first : receiveDatagramsOn library false (answers false) 32 [] with
  | error failure =>
    rw [first] at received
    cases received
  | ok incoming =>
    rw [first] at received
    exact receiveDatagramsOn_udp received (receiveDatagramsOn_udp first nofun)

theorem trafficOf_absent {id : Nat} (absent : ∀ event ∈ log, event.id ≠ id) : trafficOf log id = {} := by
  induction log using List.reverseRecOn with
  | nil => rfl
  | append_singleton front last ih =>
    rw [trafficOf_concat, ih fun event member => absent event (List.mem_append_left _ member)]
    exact Traffic.add_other _ (absent last (by simp))

namespace Kept

variable {id : Nat}
 

theorem start (created : new limit timeout = .ok front) : Kept limit { front } := by
  unfold new at created
  split at created
  · cases created
  · cases created
    refine ⟨rfl, List.nodup_nil, ?_, ?_, ?_, nofun, ?_, ?_, ?_, nofun, ?_⟩
    · intro id
      simp
    · simp
    · intro id member
      simp at member
    · intro id peer found
      simp at found
    · intro id
      exact ⟨List.prefix_rfl, nofun, Nat.le_refl _, Nat.zero_le _, List.prefix_rfl⟩
    · intro id
      exact Nat.le_refl 0
    · intro before id turn after split
      cases before <;> cases split

theorem trafficOf_turn (log : List FrontEvent) (id other : Nat) (turn : Turn) :
    trafficOf (log ++ [.turn id turn]) other =
      if id = other then (trafficOf log id).turned turn else trafficOf log other := by
  rw [trafficOf_concat, Traffic.add]
  split
  · rename_i same
    rw [same]
  · rfl

theorem trafficOf_reply (log : List FrontEvent) (id other : Nat) (wire : Wire) :
    trafficOf (log ++ [.reply id wire]) other =
      if id = other then (trafficOf log id).replied wire else trafficOf log other := by
  rw [trafficOf_concat, Traffic.add]
  split
  · rename_i same
    rw [same]
  · rfl

/-- What holds once a turn is logged, whatever becomes of the stream. -/
structure Logged (front : DnsFront) (held : List ReplyToken) (log : List FrontEvent) (id : Nat) :
    Prop where
  past : ∀ event ∈ log, event.id < front.nextId
  sound : ∀ other, (trafficOf log other).Sound
  accounted : ∀ other, held.count (.tcp other) + (trafficOf log other).accepted.length ≤
    (trafficOf log other).delivered.length
  orderly : ∀ before owner turn after, log = before ++ .turn owner turn :: after →
    turn.Fair (trafficOf before owner) ∧ (turn.kept = false → ∀ later ∈ after, later.id ≠ owner)
  elsewhere : ∀ (other : Nat) (peer : Peer), id ≠ other → front.peers[other]? = some peer →
    Live peer (trafficOf log other)

theorem mem_insert_present {peers : ExtTreeMap Nat Peer} (present : id ∈ peers) (next : Peer)
    (other : Nat) : other ∈ peers.insert id next ↔ other ∈ peers := by
  rw [ExtTreeMap.mem_insert]
  refine ⟨fun either => either.elim (fun same => ?_) fun old => old, .inr⟩
  rw [← Std.LawfulEqCmp.eq_of_compare same]
  exact present

section Polled

variable (kept : Kept limit { front, held, log })

include kept

theorem expire (now : Instant) : Kept limit { front := front.expire now, held, log } := by
  have fewer : ∀ (id : Nat) (peer : Peer), (front.expire now).peers[id]? = some peer →
      front.peers[id]? = some peer := by
    intro id peer found
    unfold DnsFront.expire at found
    rw [ExtTreeMap.getElem?_filter'] at found
    exact (Option.filter_eq_some_iff.mp found).1
  have inside : ∀ id ∈ (front.expire now).peers, id ∈ front.peers := by
    intro id member
    obtain ⟨peer, found⟩ := ExtTreeMap.mem_iff_isSome_getElem?.mp member |> Option.isSome_iff_exists.mp
    exact ExtTreeMap.mem_iff_isSome_getElem?.mpr (by rw [fewer id peer found]; rfl)
  refine ⟨kept.configured, kept.distinct.filter _, ?_, ?_,
    fun id member => kept.numbered id (inside id member), kept.past, fun id peer found => kept.live id peer (fewer id peer found), kept.sound, kept.accounted,
    fun id turn member ended present => kept.ended id turn member ended (inside id present), kept.orderly⟩
  · intro id
    show id ∈ front.order.filter _ ↔ _
    rw [List.mem_filter, kept.queued id]
    constructor
    · rintro ⟨-, present⟩
      exact ExtTreeMap.contains_iff_mem.mp present
    · intro present
      exact ⟨inside id present, ExtTreeMap.contains_iff_mem.mpr present⟩
  · exact Nat.le_trans ExtTreeMap.size_filter_le_size kept.connections

theorem opened (now : Instant) (room : front.peers.size ≠ front.maxConnections) :
    Kept limit { front := front.opened now, held, log } := by
  have fresh : front.nextId ∉ front.peers := fun member =>
    Nat.lt_irrefl _ (kept.numbered _ member)
  have unused : trafficOf log front.nextId = {} := trafficOf_absent fun event member same =>
    Nat.lt_irrefl _ (same ▸ kept.past event member)
  refine ⟨kept.configured, ?_, ?_, ?_, ?_,
    fun event member => Nat.lt_succ_of_lt (kept.past event member), ?_, kept.sound, kept.accounted, ?_,
    kept.orderly⟩
  · refine kept.distinct.append (List.nodup_singleton _) ?_
    intro id old new
    rw [List.mem_singleton.mp new] at old
    exact fresh ((kept.queued _).mp old)
  · intro id
    show id ∈ front.order ++ [front.nextId] ↔ id ∈ front.peers.insert _ _
    rw [List.mem_append, List.mem_singleton, kept.queued id, ExtTreeMap.mem_insert]
    constructor
    · rintro (old | rfl)
      · exact .inr old
      · exact .inl (by simp)
    · rintro (new | old)
      · exact .inr (Std.LawfulEqCmp.eq_of_compare new).symm
      · exact .inl old
  · show (front.peers.insert _ _).size ≤ limit
    rw [ExtTreeMap.size_insert, if_neg fun present => fresh (ExtTreeMap.contains_iff_mem.mp present)]
    exact Nat.lt_of_le_of_ne kept.connections fun full => room (full.trans kept.configured.symm)
  · intro id member
    show id < front.nextId + 1
    rcases ExtTreeMap.mem_insert.mp member with new | old
    · have same : front.nextId = id := by simpa using new
      omega
    · exact Nat.lt_succ_of_lt (kept.numbered id old)
  · intro id peer found
    have inserted : (front.peers.insert front.nextId { deadline := now + ioTimeout })[id]? = some peer := found
    rw [ExtTreeMap.getElem?_insert] at inserted
    split at inserted
    · rename_i new
      have same : front.nextId = id := by simpa using new
      cases inserted
      rw [← same, unused]
      exact ⟨rfl, Nat.zero_le _, nofun, .idle rfl rfl ⟨rfl, rfl⟩⟩
    · exact kept.live id peer inserted
  · intro id turn member ended present
    rcases ExtTreeMap.mem_insert.mp present with new | old
    · have same : front.nextId = id := by simpa using new
      have earlier : id < front.nextId := kept.past _ member
      omega
    · exact kept.ended id turn member ended old

theorem orderly_concat (fair : ∀ id turn, event = .turn id turn → turn.Fair (trafficOf log id))
    (present : event.id ∈ front.peers) :
    ∀ before id turn after, log ++ [event] = before ++ .turn id turn :: after →
      turn.Fair (trafficOf before id) ∧ (turn.kept = false → ∀ later ∈ after, later.id ≠ id) := by
  intro before id turn after split
  cases after using List.reverseRecOn with
  | nil =>
    obtain ⟨rfl, tail⟩ := List.append_inj' split rfl
    cases tail
    exact ⟨fair id turn rfl, fun _ => nofun⟩
  | append_singleton rest last =>
    have folded : log ++ [event] = (before ++ .turn id turn :: rest) ++ [last] := by simpa using split
    obtain ⟨same, tail⟩ := List.append_inj' folded rfl
    cases tail
    obtain ⟨earlier, apart⟩ := kept.orderly before id turn rest same
    refine ⟨earlier, fun ended later member => ?_⟩
    rcases mem_concat.mp member with old | new
    · exact apart ended later old
    · rw [new]
      intro owned
      exact kept.ended id turn (by simp [same]) ended (owned ▸ present)

theorem turn_accounted (id : Nat) (turn : Turn) (other : Nat) :
    (held ++ turn.query.toList.map fun _ => ReplyToken.tcp id).count (.tcp other) +
      (trafficOf (log ++ [.turn id turn]) other).accepted.length ≤
        (trafficOf (log ++ [.turn id turn]) other).delivered.length := by
  have before := kept.accounted other
  rw [trafficOf_turn, List.count_append]
  split
  · rename_i same
    subst same
    have handed : (turn.query.toList.map fun _ => ReplyToken.tcp id).count (.tcp id) =
        turn.query.toList.length := by
      rw [List.count_eq_length.mpr (by simp), List.length_map]
    rw [handed]
    simp only [Traffic.turned, List.length_append]
    dsimp only at before
    omega
  · rename_i apart
    have none : (turn.query.toList.map fun _ => ReplyToken.tcp id).count (.tcp other) = 0 := by
      refine List.count_eq_zero.mpr fun member => ?_
      obtain ⟨-, -, same⟩ := List.mem_map.mp member
      exact apart (ReplyToken.tcp.inj same)
    rw [none]
    exact before

theorem logged (present : id ∈ front.peers) (done : Turned (trafficOf log id) turn) :
    Logged front (held ++ turn.query.toList.map fun _ => .tcp id) (log ++ [.turn id turn]) id := by
  refine ⟨?_, ?_, kept.turn_accounted id turn, ?_, ?_⟩
  · intro event member
    rcases mem_concat.mp member with old | new
    · exact kept.past event old
    · rw [new]
      exact kept.numbered id present
  · intro other
    rw [trafficOf_turn]
    split
    · exact done.sound
    · exact kept.sound other
  · refine kept.orderly_concat ?_ present
    rintro _ _ ⟨⟩
    exact done.fair
  · intro other peer apart there
    rw [trafficOf_turn, if_neg apart]
    exact kept.live other peer there

theorem turned_open (next : front.order = id :: rest) (present : id ∈ front.peers)
    (done : Turned (trafficOf log id) turn) (stays : turn.kept = true) :
    Kept limit
      { front := { front with order := rest ++ [id], peers := front.peers.insert id turn.peer }
        held := held ++ turn.query.toList.map fun _ => .tcp id
        log := log ++ [.turn id turn] } := by
  have distinct := kept.distinct
  have queued := kept.queued
  dsimp only at distinct queued
  rw [next] at distinct queued
  obtain ⟨fresh, others⟩ := List.nodup_cons.mp distinct
  have logged := kept.logged present done
  have members := mem_insert_present present turn.peer
  refine ⟨kept.configured, ?_, ?_, ?_, ?_, logged.past, ?_, logged.sound, logged.accounted, ?_,
    logged.orderly⟩
  · exact others.append (List.nodup_singleton id) (by simpa using fresh)
  · intro other
    show other ∈ rest ++ [id] ↔ other ∈ front.peers.insert id turn.peer
    rw [members, ← queued other]
    simp [or_comm]
  · show (front.peers.insert id turn.peer).size ≤ limit
    rw [ExtTreeMap.size_insert, if_pos (ExtTreeMap.contains_iff_mem.mpr present)]
    exact kept.connections
  · exact fun other member => kept.numbered other ((members other).mp member)
  · intro other peer there
    have inserted : (front.peers.insert id turn.peer)[other]? = some peer := there
    rw [ExtTreeMap.getElem?_insert] at inserted
    split at inserted
    · rename_i same
      cases inserted
      rw [← Std.LawfulEqCmp.eq_of_compare same, trafficOf_turn, if_pos rfl]
      exact done.kept stays
    · rename_i apart
      exact logged.elsewhere other peer (fun owner => apart (by simp [owner])) inserted
  · intro other given member ended there
    rcases mem_concat.mp member with old | new
    · exact kept.ended other given old ended ((members other).mp there)
    · cases new
      rw [stays] at ended
      cases ended

theorem turned_closed (next : front.order = id :: rest) (present : id ∈ front.peers)
    (done : Turned (trafficOf log id) turn) :
    Kept limit
      { front := { front with order := rest, peers := front.peers.erase id }
        held := held ++ turn.query.toList.map fun _ => .tcp id
        log := log ++ [.turn id turn] } := by
  have distinct := kept.distinct
  have queued := kept.queued
  dsimp only at distinct queued
  rw [next] at distinct queued
  obtain ⟨fresh, others⟩ := List.nodup_cons.mp distinct
  have logged := kept.logged present done
  have members : ∀ other, other ∈ front.peers.erase id ↔ id ≠ other ∧ other ∈ front.peers := by
    intro other
    rw [ExtTreeMap.mem_erase]
    simp
  refine ⟨kept.configured, others, ?_, ?_, ?_, logged.past, ?_, logged.sound, logged.accounted, ?_,
    logged.orderly⟩
  · intro other
    show other ∈ rest ↔ other ∈ front.peers.erase id
    rw [members, ← queued other, List.mem_cons]
    constructor
    · intro member
      exact ⟨fun same => fresh (same ▸ member), .inr member⟩
    · rintro ⟨apart, same | member⟩
      · exact absurd same.symm apart
      · exact member
  · exact Nat.le_trans ExtTreeMap.size_erase_le kept.connections
  · exact fun other member => kept.numbered other ((members other).mp member).2
  · intro other peer there
    have erased : (front.peers.erase id)[other]? = some peer := there
    rw [ExtTreeMap.getElem?_erase] at erased
    split at erased
    · cases erased
    · rename_i apart
      exact logged.elsewhere other peer (fun owner => apart (by simp [owner])) erased
  · intro other given member ended there
    obtain ⟨apart, still⟩ := (members other).mp there
    rcases mem_concat.mp member with old | new
    · exact kept.ended other given old ended still
    · cases new
      exact apart rfl

theorem turned (next : front.order = id :: rest) (present : id ∈ front.peers)
    (done : Turned (trafficOf log id) turn) :
    Kept limit
      { front := front.turned id rest turn
        held := held ++ turn.query.toList.map fun _ => .tcp id
        log := log ++ [.turn id turn] } := by
  unfold DnsFront.turned
  split
  · rename_i stays
    exact kept.turned_open next present done stays
  · exact kept.turned_closed next present done

theorem dropped (token : ReplyToken) : Kept limit { front, held := held.erase token, log } :=
  { kept with
    accounted := fun id => Nat.le_trans
      (Nat.add_le_add_right (List.erase_sublist.count_le _) _) (kept.accounted id) }

/-- A token is held only while its stream waits for the reply. -/
theorem awaited (holds : .tcp id ∈ held) (found : front.peers[id]? = some peer)
    (pending : peer.pending = true) :
    peer.output = [] ∧
      (trafficOf log id).delivered.length = (trafficOf log id).accepted.length + 1 ∧
      (trafficOf log id).written = frames (trafficOf log id).accepted := by
  have counted := kept.accounted id
  have one : 0 < held.count (.tcp id) := List.count_pos_iff.mpr holds
  dsimp only at counted
  cases (kept.live id peer found).phase with
  | idle free =>
    rw [free] at pending
    cases pending
  | waiting _ output outstanding written => exact ⟨output, outstanding, written⟩
  | replying _ _ answered =>
    dsimp only at answered
    omega

theorem replied (holds : .tcp id ∈ held) (found : front.peers[id]? = some peer)
    (pending : peer.pending = true) (wire : Wire) (deadline : Instant) :
    Kept limit
      { front := { front with
          peers := front.peers.insert id { peer with output := frame wire, written := 0, deadline } }
        held := held.erase (.tcp id)
        log := log ++ [.reply id wire] } := by
  obtain ⟨output, outstanding, written⟩ := kept.awaited holds found pending
  have present : id ∈ front.peers := ExtTreeMap.mem_iff_isSome_getElem?.mpr (by rw [found]; rfl)
  have members := mem_insert_present present
  have live := kept.live id peer found
  have sound := kept.sound id
  have counted := kept.accounted id
  dsimp only at live sound counted
  refine ⟨kept.configured, kept.distinct, ?_, ?_, ?_, ?_, ?_, ?_, ?_, ?_, ?_⟩
  · exact fun other => (kept.queued other).trans (members _ other).symm
  · show (front.peers.insert id _).size ≤ limit
    rw [ExtTreeMap.size_insert, if_pos (ExtTreeMap.contains_iff_mem.mpr present)]
    exact kept.connections
  · exact fun other member => kept.numbered other ((members _ other).mp member)
  · intro event member
    rcases mem_concat.mp member with old | new
    · exact kept.past event old
    · rw [new]
      exact kept.numbered id present
  · intro other next there
    have inserted : (front.peers.insert id
        { peer with output := frame wire, written := 0, deadline })[other]? = some next := there
    rw [ExtTreeMap.getElem?_insert] at inserted
    rw [trafficOf_reply]
    split at inserted
    · rename_i same
      cases inserted
      rw [if_pos (Std.LawfulEqCmp.eq_of_compare same)]
      refine ⟨live.received, live.bounded, live.framable, .replying pending ?_ ?_ ?_⟩
      · show 0 < (frame wire).length
        simp [frame]
      · simpa [Traffic.replied] using outstanding
      · simp [Traffic.replied, frames_concat, written]
    · rename_i apart
      rw [if_neg fun owner => apart (by simp [owner])]
      exact kept.live other next inserted
  · intro other
    rw [trafficOf_reply]
    split
    · refine ⟨sound.framed, sound.framable, ?_, ?_, ?_⟩
      · simp [Traffic.replied, outstanding]
      · simp [Traffic.replied, outstanding]
      · simp [Traffic.replied, frames_concat, written]
    · exact kept.sound other
  · intro other
    have before := kept.accounted other
    rw [trafficOf_reply]
    split
    · rename_i same
      subst same
      rw [List.count_erase_self]
      simp only [Traffic.replied, List.length_append, List.length_singleton]
      have one : 0 < held.count (.tcp id) := List.count_pos_iff.mpr holds
      omega
    · rename_i apart
      rw [List.count_erase_of_ne fun same => apart (ReplyToken.tcp.inj same).symm]
      exact before
  · intro other given member ended there
    rcases mem_concat.mp member with old | new
    · exact kept.ended other given old ended ((members _ other).mp there)
    · cases new
  · refine kept.orderly_concat ?_ present
    rintro _ _ ⟨⟩

theorem respond (holds : token ∈ held)
    (done : front.respond library token wire now sent = (after, result)) :
    Kept limit { front := after, held := held.erase token, log := log ++ replyTaken token wire result } := by
  have refused (same : after = front) (none : replyTaken token wire result = []) :
      Kept limit { front := after, held := held.erase token, log := log ++ replyTaken token wire result } := by
    rw [same, none, List.append_nil]
    exact kept.dropped token
  unfold DnsFront.respond at done
  split at done
  · cases done
    exact refused rfl rfl
  · cases token with
    | udp second peer limit =>
      have quiet : ∀ result, replyTaken (.udp second peer limit) wire result = [] := by
        intro result
        unfold replyTaken
        split <;> rfl
      dsimp only at done
      split at done
      · cases done
        exact refused rfl rfl
      · split at done
        · cases done
          exact refused rfl (quiet _)
        · cases done
          exact refused rfl rfl
        · cases done
          exact refused rfl rfl
    | tcp id =>
      dsimp only at done
      split at done
      · cases done
        exact refused rfl rfl
      · rename_i peer found
        split at done
        · cases done
          exact refused rfl rfl
        · rename_i accepts
          cases done
          have pending : peer.pending = true := by
            cases taken : peer.pending with
            | true => rfl
            | false => simp [taken] at accepts
          exact kept.replied holds found pending wire _

theorem accept (now : Instant) (answers : Nat → AcceptAnswer) (rounds : Nat) :
    Kept limit { front := (acceptStreamsOn now answers rounds front).1, held, log } := by
  induction rounds generalizing front with
  | zero => exact kept
  | succ left ih =>
    unfold acceptStreamsOn
    split
    · split
      · exact ih kept
      · rename_i room
        split
        · exact kept
        · split
          · exact ih (kept.opened now room)
          · exact kept
    · exact kept
    · exact ih kept
    · exact kept

theorem acceptStreams (now : Instant) (answers : Bool → Nat → AcceptAnswer) :
    Kept limit { front := (front.acceptStreams now answers).1, held, log } := by
  have first := kept.accept now (answers false) 16
  unfold DnsFront.acceptStreams
  split
  · rename_i after error stopped
    rw [stopped] at first
    exact first
  · rename_i after accepted
    rw [accepted] at first
    exact first.accept now (answers true) 16

/-- Turns for as many streams as are in the queue: the expectations on it hold. -/
theorem stepStreams (now : Instant) (answers : Nat → SocketAnswer) (rounds : Nat)
    (few : rounds ≤ front.order.length) :
    ∃ after turns, DnsFront.stepStreams now answers rounds front = some (after, turns) ∧
      Kept limit
        { front := after
          held := held ++ (turns.filterMap queryOf).map IncomingQuery.reply
          log := log ++ turns.map fun entry => .turn entry.1 entry.2 } := by
  induction rounds generalizing front held log with
  | zero => exact ⟨front, [], rfl, by simpa using kept⟩
  | succ left ih =>
    cases next : front.order with
    | nil =>
      rw [next] at few
      cases few
    | cons id rest =>
      have member : id ∈ front.peers := (kept.queued id).mp (by rw [next]; exact List.mem_cons_self)
      obtain ⟨peer, found⟩ := Option.isSome_iff_exists.mp (ExtTreeMap.mem_iff_isSome_getElem?.mp member)
      have done : Turned (trafficOf log id) (peer.step now front.resolutionTimeout (answers left)) :=
        (kept.live id peer found).step
      generalize given : peer.step now front.resolutionTimeout (answers left) = turn at done
      have fewer : left ≤ (front.turned id rest turn).order.length := by
        rw [next] at few
        unfold DnsFront.turned
        split
        · simpa using Nat.le_of_succ_le few
        · exact Nat.le_of_succ_le_succ few
      obtain ⟨after, turns, stepped, later⟩ := ih (kept.turned next member done) fewer
      refine ⟨after, (id, turn) :: turns, ?_, ?_⟩
      · rw [DnsFront.stepStreams]
        simp only [next, found, given, stepped, Option.map_some]
      · have handed : (((id, turn) :: turns).filterMap queryOf).map IncomingQuery.reply =
            (turn.query.toList.map fun _ => ReplyToken.tcp id) ++
              (turns.filterMap queryOf).map IncomingQuery.reply := by
          cases asked : turn.query <;> simp [queryOf, asked]
        rw [handed, ← List.append_assoc]
        simpa using later

theorem received (datagrams : ∀ token ∈ more, ∀ id, token ≠ .tcp id) :
    Kept limit { front, held := held ++ more, log } :=
  { kept with
    accounted := by
      intro id
      have none : more.count (.tcp id) = 0 :=
        List.count_eq_zero.mpr fun member => datagrams _ member id rfl
      rw [List.count_append, none, Nat.add_zero]
      exact kept.accounted id }

/-- A poll always returns, and leaves the front as it should be. -/
theorem poll (library : Truncation) (now : Instant) (answers : PollAnswers) :
    ∃ polled, front.poll library now answers = some polled ∧
      Kept limit
        { front := polled.front
          held := held ++ tokensOf polled.result
          log := log ++ polled.turns.map fun entry => .turn entry.1 entry.2 } := by
  have expired := kept.expire now
  unfold DnsFront.poll
  dsimp only
  split
  · exact ⟨_, rfl, by simpa [tokensOf] using expired⟩
  · rename_i incoming received
    have accepted := expired.acceptStreams now answers.accepts
    split
    · rename_i after error stopped
      rw [stopped] at accepted
      exact ⟨_, rfl, by simpa [tokensOf] using accepted⟩
    · rename_i after done
      rw [done] at accepted
      have datagrams : ∀ token ∈ incoming.map IncomingQuery.reply, ∀ id, token ≠ .tcp id := by
        intro token member id
        obtain ⟨query, present, rfl⟩ := List.mem_map.mp member
        exact receiveDatagrams_udp received query present id
      obtain ⟨last, turns, stepped, later⟩ :=
        (accepted.received datagrams).stepStreams now answers.turns _ (Nat.min_le_left _ 64)
      refine ⟨_, by rw [stepped]; rfl, ?_⟩
      simpa [tokensOf] using later

end Polled

theorem step (kept : Kept limit system) (step : Step library system next) : Kept limit next := by
  cases step with
  | @poll _ _ polled answers done =>
    obtain ⟨other, returned, later⟩ := kept.poll library _ answers
    rw [done] at returned
    cases returned
    exact later
  | respond wire sent holds done => exact kept.respond holds done

theorem reaches (kept : Kept limit system) (reached : Relation.ReflTransGen (Step library) system next) :
    Kept limit next := by
  induction reached with
  | refl => exact kept
  | tail _ step ih => exact ih.step step

end Kept

end Kakoi.DnsFront
