import Kakoi.Base.Collecting
import Kakoi.Runtime.Events
import Mathlib.Logic.Relation

/-! Every event is accounted for, whatever is skipped, dropped, lost or evicted on its way. -/

namespace Kakoi

theorem length_utf8_digits (number : Nat) (bound : number < 2 ^ 64) :
    (utf8 (toString number)).length ≤ 20 := by
  have ascii : ∀ char ∈ (toString number).toList, (String.utf8EncodeChar char).length = 1 := by
    intro char member
    rw [Nat.toString_eq_repr, Nat.toList_repr] at member
    have digit := Nat.isDigit_of_mem_toDigits (by omega) (by omega) member
    rw [String.length_utf8EncodeChar, Char.utf8Size_eq_one_iff]
    simp only [Char.isDigit, Bool.and_eq_true, decide_eq_true_eq] at digit
    exact Nat.le_trans (show char.val.toNat ≤ 57 from digit.2) (by decide)
  have digits : (toString number).toList.length ≤ 20 := by
    rw [Nat.toString_eq_repr, String.length_toList]
    exact Nat.repr_length number 20 (by decide) (Nat.lt_trans bound (by decide))
  rw [utf8, List.length_flatMap, List.map_congr_left ascii, List.map_const', List.sum_replicate]
  simpa using digits

/-- How many characters an event's detail has. -/
def RunEventKind.detailLength : RunEventKind → Nat
  | .status _ => 0
  | .network _ detail _ => detail.toList.length

theorem length_json_of_no_detail {kind : RunEventKind} (empty : kind.detailLength = 0) :
    (utf8 kind.json).length ≤ 100 := by
  cases kind with
  | status current => cases current <;> decide +kernel
  | network state detail truncated =>
    have blank : detail = "" := by
      apply String.toList_injective
      exact List.length_eq_zero_iff.mp empty
    subst blank
    cases truncated <;> cases state with
    | none => decide +kernel
    | some state => cases state <;> decide +kernel

/-- Without a detail an event fits. -/
theorem size_of_no_detail {event : RunEvent} (numbered : event.sequence < 2 ^ 64)
    (empty : event.kind.detailLength = 0) : event.size ≤ maxEvent := by
  have kind := length_json_of_no_detail empty
  have digits := length_utf8_digits event.sequence numbered
  have opening : (utf8 "\x7b\"sequence\":").length = 12 := by decide +kernel
  have middle : (utf8 ",\"kind\":").length = 8 := by decide +kernel
  have closing : (utf8 "\x7d").length = 1 := by decide +kernel
  simp only [RunEvent.size, RunEvent.encode, utf8_append, List.length_append, maxEvent]
  omega

theorem detailLength_shrinkOnce (kind : RunEventKind) :
    kind.shrinkOnce.detailLength = kind.detailLength / 2 := by
  cases kind with
  | status current => exact (Nat.zero_div 2).symm
  | network state detail truncated =>
    simp only [RunEventKind.shrinkOnce, RunEventKind.detailLength, String.toList_ofList,
      List.length_take]
    omega

/-- The shrinking keeps the number and ends only with an event that fits. -/
theorem shrink_fits {event shrunk : RunEvent} (ended : event.shrink rounds = some shrunk) :
    shrunk.sequence = event.sequence ∧ shrunk.size ≤ maxEvent := by
  induction rounds generalizing event with
  | zero => cases ended
  | succ rounds ih =>
    rw [RunEvent.shrink] at ended
    split at ended
    · have further := ih ended
      exact further
    · rename_i fits
      cases ended
      exact ⟨rfl, Nat.not_lt.mp fits⟩

/-- The shrinking ends: each round halves the detail, and without one the event fits. -/
theorem shrink_ends {event : RunEvent} (numbered : event.sequence < 2 ^ 64)
    (enough : event.kind.detailLength < rounds) : (event.shrink rounds).isSome := by
  induction rounds generalizing event with
  | zero => cases enough
  | succ rounds ih =>
    rw [RunEvent.shrink]
    split
    · rename_i large
      have detailed : event.kind.detailLength ≠ 0 :=
        fun empty => Nat.not_lt.mpr (size_of_no_detail numbered empty) large
      refine ih numbered ?_
      rw [detailLength_shrinkOnce]
      omega
    · rfl

/-- A receiver with what it was told: the events, the numbers it missed, and the end. -/
structure Receiver where
  start : Nat
  cursor : Nat
  events : List RunEvent := []
  missed : List Nat := []
  ended : Bool := false

namespace Receiver

/-- Where a receiver of a history starts. -/
def new (history : EventHistory) : Receiver :=
  { start := history.receiver, cursor := history.receiver }

/-- The receiver behind one read. -/
def told (receiver : Receiver) (answer : EventRead) (cursor : Nat) : Receiver :=
  match answer with
  | .event event => { receiver with cursor, events := receiver.events ++ [event] }
  | .lagged missed => { receiver with cursor, missed := receiver.missed ++ [missed] }
  | .closed => { receiver with cursor, ended := true }

end Receiver

/-- The sender, the datagrams on their way, the history and its receivers. -/
structure EventSystem where
  sender : EventSender := {}
  channel : List RunEvent := []
  history : EventHistory := {}
  receivers : List Receiver := []

namespace EventSystem

inductive Step : EventSystem → EventSystem → Prop where
  | skip {system : EventSystem} (missed : Nat) :
      Step system { system with sender := system.sender.skip missed }
  | emit {system : EventSystem} {kind : RunEventKind} {rounds : Nat} {answers : List SocketSend}
      {sender : EventSender} {sent : List RunEvent}
      (emits : system.sender.emit kind rounds answers = some (sender, sent)) :
      Step system { system with sender, channel := system.channel ++ sent }
  | flush {system : EventSystem} (answers : List SocketSend) :
      Step system { system with
        sender := (system.sender.flush answers).1
        channel := system.channel ++ (system.sender.flush answers).2 }
  | lose {system : EventSystem} {front back : List RunEvent} {event : RunEvent}
      (sent : system.channel = front ++ event :: back) :
      Step system { system with channel := front ++ back }
  | deliver {system : EventSystem} {event : RunEvent} {rest : List RunEvent}
      (sent : system.channel = event :: rest) :
      Step system { system with channel := rest, history := readDatagram system.history event }
  | subscribe {system : EventSystem} :
      Step system { system with receivers := system.receivers ++ [.new system.history] }
  | read {system : EventSystem} {front back : List Receiver} {receiver : Receiver}
      {answer : EventRead} {cursor : Nat} (present : system.receivers = front ++ receiver :: back)
      (reads : system.history.read receiver.cursor = some (answer, cursor)) :
      Step system { system with receivers := front ++ receiver.told answer cursor :: back }
  | close {system : EventSystem} (counted : Bool) (open_ : system.history.closed = false) :
      Step system { system with
        history := system.history.close (if counted then some system.sender.next else none) }

abbrev Reaches := Relation.ReflTransGen Step

end EventSystem

/-- The history's entries are in order, all before its next number, and within the bounds. -/
structure EventHistory.Sound (history : EventHistory) : Prop where
  sorted : (history.entries.map (·.1.sequence)).Pairwise (· < ·)
  before : ∀ entry ∈ history.entries, entry.1.sequence < history.next
  counted : history.bytes = weigh Prod.snd history.entries
  few : history.entries.length ≤ maxEvents
  small : history.bytes ≤ maxBytes

structure EventSender.Sound (sender : EventSender) : Prop where
  numbered : sender.next < 2 ^ 64
  counted : sender.bytes = weigh RunEvent.size sender.pending
  few : sender.pending.length ≤ maxEvents
  small : sender.bytes ≤ maxBytes
  fits : ∀ event ∈ sender.pending, event.size ≤ maxEvent

/-- A receiver's account against the history it reads. -/
structure Receiver.Sound (receiver : Receiver) (history : EventHistory) : Prop where
  started : receiver.start ≤ receiver.cursor
  behind : receiver.cursor ≤ history.next
  accounted : receiver.events.length + receiver.missed.sum = receiver.cursor - receiver.start
  sorted : (receiver.events.map (·.sequence)).Pairwise (· < ·)
  within : ∀ event ∈ receiver.events,
    receiver.start ≤ event.sequence ∧ event.sequence < receiver.cursor
  ended : receiver.ended = true → history.closed = true ∧ receiver.cursor = history.next

section History

variable {history : EventHistory}

/-- An event that is not taken changes nothing, and the next number only grows. -/
theorem push_next (history : EventHistory) (event : RunEvent) (bytes : Nat) :
    history.next ≤ (history.push event bytes).next ∧
      (history.push event bytes).closed = history.closed ∧
      (history.closed = true → (history.push event bytes).next = history.next) := by
  unfold EventHistory.push
  split
  · exact ⟨Nat.le_refl _, rfl, fun _ => rfl⟩
  · rename_i taken
    rw [not_or, Nat.not_lt] at taken
    exact ⟨Nat.le_succ_of_le taken.1, rfl, fun closed => absurd closed taken.2⟩

theorem push_sound (sound : history.Sound) (event : RunEvent) (bytes : Nat) :
    (history.push event bytes).Sound := by
  unfold EventHistory.push
  split
  · exact sound
  · rename_i taken
    rw [not_or, Nat.not_lt] at taken
    have counted : history.bytes + bytes =
        weigh Prod.snd (history.entries ++ [(event, bytes)]) := by
      rw [weigh_append, ← sound.counted]
      simp
    have rest : (trim Prod.snd maxEvents maxBytes (history.entries ++ [(event, bytes)])
        (history.bytes + bytes)).1 <:+ history.entries ++ [(event, bytes)] := trim_suffix _ _
    refine ⟨?_, ?_, trim_total _ counted, (trim_bounded _ counted).1, (trim_bounded _ counted).2⟩
    · refine List.Pairwise.sublist (rest.sublist.map _) ?_
      rw [List.map_append]
      refine pairwise_concat.mpr ⟨sound.sorted, fun earlier listed => ?_⟩
      obtain ⟨entry, member, rfl⟩ := List.mem_map.mp listed
      exact Nat.lt_of_lt_of_le (sound.before entry member) taken.1
    · intro entry member
      rcases mem_concat.mp (rest.subset member) with earlier | rfl
      · exact Nat.lt_succ_of_lt (Nat.lt_of_lt_of_le (sound.before entry earlier) taken.1)
      · exact Nat.lt_succ_self _

theorem close_sound (sound : history.Sound) (next : Option Nat) : (history.close next).Sound where
  sorted := sound.sorted
  before := fun entry member => Nat.lt_of_lt_of_le (sound.before entry member) (Nat.le_max_left _ _)
  counted := sound.counted
  few := sound.few
  small := sound.small

/-- One read moves the cursor over exactly what it tells. -/
theorem read_spec (sound : history.Sound) (behind : cursor ≤ history.next)
    (reads : history.read cursor = some (answer, after)) :
    (∃ event, answer = .event event ∧ event.sequence = cursor ∧ after = cursor + 1 ∧
      after ≤ history.next) ∨
    (∃ missed, answer = .lagged missed ∧ after = cursor + missed ∧ after ≤ history.next) ∨
    (answer = .closed ∧ after = cursor ∧ history.closed = true ∧ cursor = history.next) := by
  unfold EventHistory.read at reads
  split at reads
  · rename_i event bytes found
    have member := List.mem_of_find?_eq_some found
    have reached : cursor ≤ event.sequence := by simpa using List.find?_some found
    have before : event.sequence < history.next := sound.before _ member
    split at reads
    · rename_i gap
      cases reads
      exact .inr (.inl ⟨_, rfl, (Nat.add_sub_cancel' reached).symm, Nat.le_of_lt before⟩)
    · rename_i exactly
      cases reads
      have same : event.sequence = cursor := Nat.le_antisymm (Nat.not_lt.mp exactly) reached
      exact .inl ⟨event, rfl, same, rfl, same ▸ before⟩
  · split at reads
    · rename_i gap
      cases reads
      exact .inr (.inl ⟨_, rfl, (Nat.add_sub_cancel' behind).symm, Nat.le_refl _⟩)
    · rename_i caught
      split at reads
      · rename_i closed
        cases reads
        exact .inr (.inr ⟨rfl, rfl, closed, Nat.le_antisymm behind (Nat.not_lt.mp caught)⟩)
      · cases reads

end History

section Receivers

variable {receiver : Receiver}

theorem new_sound (history : EventHistory) : (Receiver.new history).Sound history where
  started := Nat.le_refl _
  behind := Nat.le_refl _
  accounted := (Nat.sub_self _).symm
  sorted := List.Pairwise.nil
  within := nofun
  ended := nofun

/-- A receiver's account holds against a history that went on. -/
theorem Receiver.Sound.later (sound : receiver.Sound history) (grows : history.next ≤ after.next)
    (closed : history.closed = true → after.closed = true ∧ after.next = history.next) :
    receiver.Sound after :=
  { sound with
    behind := Nat.le_trans sound.behind grows
    ended := by
      intro ended
      obtain ⟨shut, caught⟩ := sound.ended ended
      obtain ⟨still, same⟩ := closed shut
      exact ⟨still, caught.trans same.symm⟩ }

theorem told_sound (sound : receiver.Sound history) (ordered : history.Sound)
    (reads : history.read receiver.cursor = some (answer, cursor)) :
    (receiver.told answer cursor).Sound history := by
  obtain ⟨started, behind, accounted, sorted, within, ended⟩ := sound
  rcases read_spec ordered behind reads with
    ⟨event, rfl, same, rfl, reached⟩ | ⟨missed, rfl, rfl, reached⟩ | ⟨rfl, rfl, shut, caught⟩
  · refine ⟨Nat.le_succ_of_le started, reached, ?_, ?_, ?_, ?_⟩
    · simp only [Receiver.told, List.length_append, List.length_singleton]
      omega
    · rw [Receiver.told, List.map_append]
      refine pairwise_concat.mpr ⟨sorted, fun earlier listed => ?_⟩
      obtain ⟨old, member, rfl⟩ := List.mem_map.mp listed
      exact Nat.lt_of_lt_of_eq (within old member).2 same.symm
    · intro other member
      rcases mem_concat.mp member with earlier | rfl
      · exact ⟨(within other earlier).1, Nat.lt_succ_of_lt (within other earlier).2⟩
      · rw [same]
        exact ⟨started, Nat.lt_succ_self _⟩
    · intro over'
      have caught := (ended over').2
      omega
  · refine ⟨Nat.le_trans started (Nat.le_add_right _ _), reached, ?_, sorted, ?_, ?_⟩
    · simp only [Receiver.told, List.sum_append, List.sum_singleton]
      omega
    · intro other member
      obtain ⟨first, last⟩ := within other member
      exact ⟨first, Nat.lt_of_lt_of_le last (Nat.le_add_right _ _)⟩
    · intro stopped
      obtain ⟨shut, caught⟩ := ended stopped
      refine ⟨shut, Nat.le_antisymm reached ?_⟩
      rw [← caught]
      exact Nat.le_add_right _ _
  · exact ⟨started, behind, accounted, sorted, within, fun _ => ⟨shut, caught⟩⟩

end Receivers

section Sender

variable {sender : EventSender}

theorem enqueue_sound (sound : sender.Sound) (fits : event.size ≤ maxEvent) :
    (sender.enqueue event).Sound := by
  have counted : sender.bytes + event.size = weigh RunEvent.size (sender.pending ++ [event]) := by
    rw [weigh_append, ← sound.counted]
    simp
  refine ⟨sound.numbered, trim_total _ counted, (trim_bounded _ counted).1,
    (trim_bounded _ counted).2, fun other kept => ?_⟩
  rcases mem_concat.mp ((trim_suffix _ _).subset kept) with earlier | rfl
  · exact sound.fits other earlier
  · exact fits

/-- Sending takes no number, and what is sent was made to fit. -/
theorem flush_sound (sound : sender.Sound) (answers : List SocketSend) :
    (sender.flush answers).1.Sound ∧ (sender.flush answers).1.next = sender.next ∧
      ∀ event ∈ (sender.flush answers).2, event.size ≤ maxEvent := by
  induction answers generalizing sender with
  | nil => exact ⟨sound, rfl, nofun⟩
  | cons answer answers ih =>
    rw [EventSender.flush]
    split
    · exact ⟨sound, rfl, nofun⟩
    · rename_i message rest waiting
      cases answer with
      | sent =>
        obtain ⟨numbered, counted, few, small, fits⟩ := sound
        rw [waiting] at counted few fits
        have first := fits message List.mem_cons_self
        obtain ⟨flushed, next, within⟩ := @ih
          { sender with pending := rest, bytes := sender.bytes - message.size }
          ⟨numbered, by rw [counted, weigh_cons]; exact Nat.add_sub_cancel_left _ _,
            Nat.le_of_succ_le few, Nat.le_trans (Nat.sub_le _ _) small,
            fun event member => fits event (List.mem_cons_of_mem _ member)⟩
        exact ⟨flushed, next, List.forall_mem_cons.mpr ⟨first, within⟩⟩
      | interrupted => exact ih sound
      | wouldBlock => exact ⟨sound, rfl, nofun⟩
      | failed =>
        exact ⟨⟨sound.numbered, rfl, Nat.zero_le _, Nat.zero_le _, nofun⟩, rfl, nofun⟩

/-- An event that is emitted takes one number. -/
theorem emit_sound (sound : sender.Sound)
    (emits : sender.emit kind rounds answers = some (after, sent)) :
    after.Sound ∧ after.next = sender.next + 1 ∧ ∀ event ∈ sent, event.size ≤ maxEvent := by
  unfold EventSender.emit at emits
  split at emits
  · rename_i numbered
    obtain ⟨event, shrunk, same⟩ := Option.bind_eq_some_iff.mp emits
    have next : ({ sender with next := sender.next + 1 } : EventSender).Sound :=
      ⟨numbered, sound.counted, sound.few, sound.small, sound.fits⟩
    have queued := flush_sound (enqueue_sound next (shrink_fits shrunk).2) answers
    rw [Option.some.inj same] at queued
    exact queued
  · cases emits

theorem skip_sound (sound : sender.Sound) (missed : Nat) : (sender.skip missed).Sound :=
  ⟨Nat.lt_of_le_of_lt (Nat.min_le_right _ _) (by decide), sound.counted, sound.few, sound.small,
    sound.fits⟩

end Sender

namespace EventSystem

/-- The invariant of every run. -/
structure Kept (system : EventSystem) : Prop where
  sender : system.sender.Sound
  history : system.history.Sound
  receivers : ∀ receiver ∈ system.receivers, receiver.Sound system.history

theorem kept_initial : Kept {} where
  sender := ⟨by decide, rfl, Nat.zero_le _, Nat.zero_le _, nofun⟩
  history := ⟨List.Pairwise.nil, nofun, rfl, Nat.zero_le _, Nat.zero_le _⟩
  receivers := nofun

theorem readDatagram_next (history : EventHistory) (event : RunEvent) :
    history.next ≤ (readDatagram history event).next ∧
      (history.closed = true → (readDatagram history event).closed = true ∧
        (readDatagram history event).next = history.next) := by
  unfold readDatagram
  split
  · obtain ⟨grows, closed, stays⟩ := push_next history event event.size
    exact ⟨grows, fun shut => ⟨closed.trans shut, stays shut⟩⟩
  · exact ⟨Nat.le_refl _, fun shut => ⟨shut, rfl⟩⟩

theorem Kept.step (kept : Kept system) (step : Step system after) : Kept after := by
  obtain ⟨sender, history, receivers⟩ := kept
  cases step with
  | skip missed => exact ⟨skip_sound sender missed, history, receivers⟩
  | emit emits => exact ⟨(emit_sound sender emits).1, history, receivers⟩
  | flush answers => exact ⟨(flush_sound sender answers).1, history, receivers⟩
  | lose sent => exact ⟨sender, history, receivers⟩
  | @deliver event rest sent =>
    obtain ⟨grows, closed⟩ := readDatagram_next system.history event
    refine ⟨sender, ?_, fun receiver member => (receivers receiver member).later grows closed⟩
    unfold readDatagram
    split
    · exact push_sound history event event.size
    · exact history
  | subscribe =>
    refine ⟨sender, history, fun receiver member => ?_⟩
    rcases mem_concat.mp member with earlier | rfl
    · exact receivers receiver earlier
    · exact new_sound system.history
  | @read front back receiver answer cursor present reads =>
    rw [present] at receivers
    refine ⟨sender, history, fun other member => ?_⟩
    rcases List.mem_append.mp member with before | rest
    · exact receivers other (List.mem_append_left _ before)
    · rcases List.mem_cons.mp rest with rfl | later
      · exact told_sound (receivers receiver (by simp)) history reads
      · exact receivers other (by simp [later])
  | close counted open_ =>
    refine ⟨sender, close_sound history _, fun receiver member => ?_⟩
    refine (receivers receiver member).later (Nat.le_max_left _ _) ?_
    exact fun shut => absurd (open_.symm.trans shut) Bool.false_ne_true

theorem kept_of_reaches (reaches : Reaches {} system) : Kept system := by
  induction reaches with
  | refl => exact kept_initial
  | tail _ step ih => exact ih.step step

/-- A closed history's next number is final. -/
theorem next_final (closed : system.history.closed = true) (later : Reaches system after) :
    after.history.closed = true ∧ after.history.next = system.history.next := by
  induction later with
  | refl => exact ⟨closed, rfl⟩
  | @tail middle last _ step ih =>
    obtain ⟨shut, same⟩ := ih
    cases step with
    | skip | emit | flush | lose | subscribe | read => exact ⟨shut, same⟩
    | @deliver event rest sent =>
      obtain ⟨still, stays⟩ := (readDatagram_next middle.history event).2 shut
      exact ⟨still, stays.trans same⟩
    | close counted open_ => exact absurd (open_.symm.trans shut) Bool.false_ne_true

/-- A receiver gets events in order from where it started, and at the end its events and the numbers
it missed are all there were; the queues stay within their bounds, and every event takes one number
and is made to fit. -/
theorem events_accounted (reaches : Reaches {} system) :
    (∀ receiver ∈ system.receivers,
      (receiver.events.map (·.sequence)).Pairwise (· < ·) ∧
      (∀ event ∈ receiver.events, receiver.start ≤ event.sequence) ∧
      (receiver.ended = true →
        receiver.events.length + receiver.missed.sum = system.history.next - receiver.start ∧
        ∀ after, Reaches system after → after.history.next = system.history.next)) ∧
    (system.history.entries.length ≤ 256 ∧ weigh Prod.snd system.history.entries ≤ 1024 * 1024) ∧
    (system.sender.pending.length ≤ 256 ∧
      weigh RunEvent.size system.sender.pending ≤ 1024 * 1024) ∧
    ∀ kind : RunEventKind, ∀ rounds, kind.detailLength < rounds →
      (∃ shrunk, RunEvent.shrink rounds { sequence := system.sender.next, kind } = some shrunk ∧
        shrunk.encode.length ≤ 8192) ∧
      ∀ answers, system.sender.next + 1 < 2 ^ 64 → ∃ sender sent,
        system.sender.emit kind rounds answers = some (sender, sent) ∧
        sender.next = system.sender.next + 1 ∧
        ∀ event ∈ sent ++ sender.pending, event.encode.length ≤ 8192 := by
  obtain ⟨sender, history, receivers⟩ := kept_of_reaches reaches
  refine ⟨?_, ⟨history.few, history.counted ▸ history.small⟩,
    ⟨sender.few, sender.counted ▸ sender.small⟩, ?_⟩
  · intro receiver member
    have sound := receivers receiver member
    refine ⟨sound.sorted, fun event got => (sound.within event got).1, ?_⟩
    intro ended
    obtain ⟨shut, caught⟩ := sound.ended ended
    exact ⟨caught ▸ sound.accounted, fun after later => (next_final shut later).2⟩
  · intro kind rounds enough
    have ends : (RunEvent.shrink rounds { sequence := system.sender.next, kind }).isSome :=
      shrink_ends sender.numbered enough
    obtain ⟨shrunk, found⟩ := Option.isSome_iff_exists.mp ends
    refine ⟨⟨shrunk, found, (shrink_fits found).2⟩, fun answers room => ?_⟩
    have emitted : (system.sender.emit kind rounds answers).isSome := by
      rw [EventSender.emit, if_pos room, found]
      rfl
    obtain ⟨⟨after, sent⟩, emits⟩ := Option.isSome_iff_exists.mp emitted
    obtain ⟨sound, next, within⟩ := emit_sound sender emits
    exact ⟨after, sent, emits, next, List.forall_mem_append.mpr ⟨within, sound.fits⟩⟩

/-- Two notifications are lost, one event is sent and one datagram lost, and the receiver is
told of all four numbers. -/
theorem lossy_run_accounted : ∃ system, Reaches {} system ∧ ∃ receiver ∈ system.receivers,
    receiver.ended = true ∧ receiver.events.length + receiver.missed.sum = 4 := by
  have first : (EventSender.skip {} 2).emit (.status .stopping) 1 [.sent] =
      some ({ next := 3 }, [⟨2, .status .stopping⟩]) := by decide +kernel
  have second : ({ next := 3 } : EventSender).emit (.status .finished) 1 [.sent] =
      some ({ next := 4 }, [⟨3, .status .finished⟩]) := by decide +kernel
  have reaches := (Relation.ReflTransGen.refl : Reaches {} {})
    |>.tail .subscribe
    |>.tail (.skip 2)
    |>.tail (.emit first)
    |>.tail (.deliver rfl)
    |>.tail (.emit second)
    |>.tail (@Step.lose _ [] [] _ rfl)
    |>.tail (.close true rfl)
    |>.tail (@Step.read _ [] [] _ (.lagged 2) 2 rfl rfl)
    |>.tail (@Step.read _ [] [] _ (.event ⟨2, .status .stopping⟩) 3 rfl rfl)
    |>.tail (@Step.read _ [] [] _ (.lagged 1) 4 rfl rfl)
    |>.tail (@Step.read _ [] [] _ .closed 4 rfl rfl)
  refine ⟨_, reaches, _, List.mem_singleton_self _, rfl, ?_⟩
  exact (((events_accounted reaches).1 _ (List.mem_singleton_self _)).2.2 rfl).1

end EventSystem

end Kakoi
