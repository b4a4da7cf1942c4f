import Kakoi.Base.Collecting
import Kakoi.Net.Notification

/-! Whatever is called on the notifications, nothing is lost without being counted. -/

namespace Kakoi.Notifications

inductive Call where
  | update (state : NetworkState) (reason : String)
  | notice (text : String)
  | popRecord

/-- What a call came to. -/
inductive Told where
  | suppressed
  | pushed
  | popped (record : Notification) (lost : Nat)
  | drained

/-- One call; none where the source panics. -/
def call (notifications : Notifications) : Call → Option (Told × Notifications)
  | .update state reason =>
    (notifications.update state reason).map fun (pushed, next) =>
      (if pushed then .pushed else .suppressed, next)
  | .notice text => (notifications.notice text).map fun next => (.pushed, next)
  | .popRecord =>
    match notifications.popRecord with
    | (some (record, lost), next) => some (.popped record lost, next)
    | (none, next) => some (.drained, next)

/-- What has been counted from outside. -/
structure Ledger where
  pushed : Nat := 0
  /-- Records popped one by one. -/
  single : Nat := 0
  /-- Losses reported by summaries. -/
  lost : Nat := 0
  lastUpdate : Option NetworkState := none
  /-- The state of the last popped record that carried one. -/
  lastShown : Option NetworkState := none

def Ledger.noteCall (ledger : Ledger) : Call → Ledger
  | .update state _ => { ledger with lastUpdate := some state }
  | .notice _ => ledger
  | .popRecord => ledger

def Ledger.noteTold (ledger : Ledger) : Told → Ledger
  | .suppressed => ledger
  | .pushed => { ledger with pushed := ledger.pushed + 1 }
  | .popped record lost =>
    { ledger with
      single := ledger.single + if lost = 0 then 1 else 0
      lost := ledger.lost + lost
      lastShown := record.state.or ledger.lastShown }
  | .drained => ledger

/-- Calls one after the other, so many that the counters do not saturate. -/
inductive Run : Notifications → Ledger → Prop where
  | start : Run {} {}
  | call : Run notifications ledger → notifications.call request = some (told, next) →
      next.omitted + next.queue.length < u64Limit →
      Run next ((ledger.noteCall request).noteTold told)

theorem overflow_keeps {bytes : Nat}
    (keep : ¬ (maxNotices < (first :: rest).length ∨ maxNoticeBytes < bytes))
    (omitted : Nat) :
    overflow 0 (first :: rest) bytes omitted = some (first :: rest, bytes, omitted) :=
  if_neg keep

theorem overflow_drops {bytes : Nat}
    (excess : maxNotices < (first :: rest).length ∨ maxNoticeBytes < bytes)
    (omitted : Nat) : overflow 0 (first :: rest) bytes omitted =
      overflow 0 rest (bytes - first.size) (saturatingAdd omitted 1) :=
  if_pos excess

/-- What the overflow loop leaves: the newest records, as many as there may be. -/
theorem overflow_spec {queue : List Notification} (some : queue ≠ [])
    (small : ∀ record ∈ queue, record.size ≤ maxLine) {omitted : Nat} (counted : omitted < u64Limit) :
    ∃ dropped kept, queue = dropped ++ kept ∧ kept ≠ [] ∧ kept.length ≤ maxNotices ∧
      weigh Notification.size kept ≤ maxNoticeBytes ∧
      overflow 0 queue (weigh Notification.size queue) omitted =
        .some (kept, weigh Notification.size kept, saturatingAdd omitted dropped.length) := by
  induction queue generalizing omitted with
  | nil => exact absurd rfl some
  | cons first rest ih =>
    by_cases excess : maxNotices < (first :: rest).length ∨
        maxNoticeBytes < weigh Notification.size (first :: rest)
    · have more : rest ≠ [] := by
        rintro rfl
        have one := small first List.mem_cons_self
        simp only [weigh_cons, weigh_nil, List.length_cons, List.length_nil, maxNotices,
          maxNoticeBytes, maxLine] at excess one
        omega
      obtain ⟨dropped, kept, shape, filled, few, light, left⟩ :=
        ih more (fun record member => small record (List.mem_cons_of_mem _ member))
          (saturatingAdd_lt omitted 1)
      refine ⟨first :: dropped, kept, by rw [shape, List.cons_append], filled, few, light, ?_⟩
      rw [overflow_drops excess, weigh_cons, Nat.add_sub_cancel_left, left]
      rw [saturatingAdd_twice, List.length_cons, Nat.add_comm 1]
    · refine ⟨[], first :: rest, rfl, List.cons_ne_nil _ _, by omega, by omega, ?_⟩
      rw [overflow_keeps excess, List.length_nil, saturatingAdd_fits counted, Nat.add_zero]

theorem stateHead_fits (state : NetworkState) :
    (∀ found ∈ (stateHead state).toList, isControl found = false) ∧
      (stateHead state).utf8ByteSize ≤ maxLine - 4 := by
  have plain : (stateHead state).toList.all (fun found => !isControl found) = true := by
    cases state <;> decide +kernel
  have short : (stateHead state).utf8ByteSize ≤ 32 := by cases state <;> decide +kernel
  refine ⟨fun found member => ?_, short.trans ?_⟩
  · simpa using List.all_eq_true.mp plain found member
  · unfold maxLine
    omega

theorem line_starts (state : NetworkState) (reason : String) :
    (stateHead state).toList <+: (boundedLine (stateHead state) reason).toList := by
  obtain ⟨plain, short⟩ := stateHead_fits state
  have fits : "".utf8ByteSize + (String.ofList (stateHead state).toList).utf8ByteSize ≤ maxLine - 4 := by
    simpa using short
  rw [boundedLine, boundedFrom_taken reason.toList plain fits, String.ofList_toList,
    String.empty_append]
  exact boundedFrom_starts (stateHead state) reason.toList

theorem line_state (same : boundedLine (stateHead left) reason = boundedLine (stateHead right) other) :
    left = right := by
  have initials (state : NetworkState) (text : String) :
      (boundedLine (stateHead state) text).toList[15]? = (stateHead state).toList[15]? := by
    obtain ⟨rest, whole⟩ := line_starts state text
    rw [← whole, List.getElem?_append_left]
    cases state <;> decide
  have letters : (stateHead left).toList[15]? = (stateHead right).toList[15]? := by
    rw [← initials left reason, same, initials]
  cases left <;> cases right <;> first | rfl | exact absurd letters (by decide)

section Invariant

/-- What is shown last once everything queued is popped one by one. -/
def shownAfter (shown : Option NetworkState) (queue : List Notification) : Option NetworkState :=
  queue.foldl (fun shown record => record.state.or shown) shown

/-- What the notifications keep of the history. -/
structure Kept (notifications : Notifications) (ledger : Ledger) : Prop where
  alone : notifications.inFlightBytes = 0
  counted : notifications.bytes = weigh Notification.size notifications.queue
  few : notifications.queue.length ≤ maxNotices
  light : notifications.bytes ≤ maxNoticeBytes
  fits : notifications.omitted + notifications.queue.length < u64Limit
  lines : ∀ record ∈ notifications.queue, BoundedLine record.detail
  conserved : ledger.pushed =
    ledger.single + ledger.lost + notifications.queue.length + notifications.omitted
  current : notifications.current.map (·.2) = ledger.lastUpdate
  spelled : ∀ line state, notifications.current = some (line, state) →
    ∃ reason, line = boundedLine (stateHead state) reason
  unseen : ledger.lastUpdate = none →
    ledger.lastShown = none ∧ ∀ record ∈ notifications.queue, record.state = none
  fresh : notifications.omitted = 0 →
    shownAfter ledger.lastShown notifications.queue = ledger.lastUpdate

theorem kept_start : Kept {} {} where
  alone := rfl
  counted := rfl
  few := Nat.zero_le _
  light := Nat.zero_le _
  fits := by decide
  lines := nofun
  conserved := rfl
  current := rfl
  spelled := nofun
  unseen _ := ⟨rfl, nofun⟩
  fresh _ := rfl

variable {notifications next : Notifications}

theorem shownAfter_append (shown : Option NetworkState) (queue : List Notification)
    (record : Notification) :
    shownAfter shown (queue ++ [record]) = record.state.or (shownAfter shown queue) := by
  simp [shownAfter]

theorem update_new
    (unknown : ¬ (notifications.current.any fun (current, _) => current = boundedLine
    (stateHead state) reason) = true) :
    notifications.update state reason =
      (Notifications.push
        { notifications with current := some (boundedLine (stateHead state) reason, state) }
        ⟨boundedLine (stateHead state) reason, some state⟩).map fun next => (true, next) :=
  if_neg unknown

section Steps

variable (kept : Kept notifications ledger)

include kept

/-- A pushed record is queued, and nothing panics. -/
theorem push_spec {record : Notification} (line : BoundedLine record.detail)
    (current : Option (String × NetworkState)) :
    ∃ dropped queue, notifications.queue ++ [record] = dropped ++ queue ∧ queue ≠ [] ∧
      queue.length ≤ maxNotices ∧ weigh Notification.size queue ≤ maxNoticeBytes ∧
      push { notifications with current } record =
        some ⟨queue, current, weigh Notification.size queue,
          saturatingAdd notifications.omitted dropped.length, 0⟩ := by
  have small : ∀ found ∈ notifications.queue ++ [record], found.size ≤ maxLine := by
    intro found member
    rcases mem_concat.mp member with before | last
    · exact (kept.lines found before).short
    · rw [last]
      exact line.short
  have total : notifications.bytes + record.size =
      weigh Notification.size (notifications.queue ++ [record]) := by
    rw [weigh_append, weigh_cons, weigh_nil, kept.counted, Nat.add_zero]
  obtain ⟨dropped, queue, shape, filled, few, light, left⟩ :=
    overflow_spec (by simp) small (Nat.lt_of_le_of_lt (Nat.le_add_right _ _) kept.fits)
  refine ⟨dropped, queue, shape, filled, few, light, ?_⟩
  unfold push
  rw [kept.alone, total, left]
  rfl

theorem Kept.push {record : Notification} (line : BoundedLine record.detail)
    {current : Option (String × NetworkState)}
    (spelled : ∀ line state, current = some (line, state) →
      ∃ reason, line = boundedLine (stateHead state) reason)
    (last : current.map (·.2) = record.state.or ledger.lastUpdate)
    (done : Notifications.push { notifications with current } record = some next)
    (fits : next.omitted + next.queue.length < u64Limit) :
    Kept next { ledger with
      pushed := ledger.pushed + 1, lastUpdate := record.state.or ledger.lastUpdate } := by
  obtain ⟨dropped, queue, shape, filled, few, light, left⟩ := push_spec kept line current
  obtain rfl := Option.some.inj (left.symm.trans done)
  have lengths : notifications.queue.length + 1 = dropped.length + queue.length := by
    simpa using congrArg List.length shape
  have exact : saturatingAdd notifications.omitted dropped.length =
      notifications.omitted + dropped.length := by
    have some := List.length_pos_of_ne_nil filled
    refine saturatingAdd_fits (Nat.lt_of_not_le fun excess => ?_)
    -- a saturated count and the record just queued would be too many
    unfold saturatingAdd at fits
    generalize u64Limit = limit at fits excess
    simp only [if_neg (Nat.not_lt.mpr excess)] at fits
    omega
  have older : ∀ found ∈ queue, found ∈ notifications.queue ++ [record] := by
    intro found member
    rw [shape]
    exact List.mem_append_right dropped member
  refine ⟨rfl, rfl, few, light, fits, ?_, ?_, last, spelled, ?_, ?_⟩
  · intro found member
    rcases mem_concat.mp (older found member) with before | last
    · exact kept.lines found before
    · rw [last]
      exact line
  · have before := kept.conserved
    simp only [exact]
    omega
  · intro never
    obtain ⟨stateless, before⟩ := Option.or_eq_none_iff.mp never
    obtain ⟨shown, queued⟩ := kept.unseen before
    refine ⟨shown, fun found member => ?_⟩
    rcases mem_concat.mp (older found member) with before | last
    · exact queued found before
    · rw [last]
      exact stateless
  · intro complete
    simp only [exact] at complete
    have all : dropped = [] := List.eq_nil_of_length_eq_zero (by omega)
    rw [all, List.nil_append] at shape
    simp only [← shape]
    rw [shownAfter_append, kept.fresh (by omega)]

theorem Kept.repeated
    (known : (notifications.current.any fun (current, _) => current = boundedLine
    (stateHead state) reason) = true) : ledger.lastUpdate = some state := by
  rw [← kept.current]
  cases current : notifications.current with
  | none => simp [current] at known
  | some shown =>
    obtain ⟨line, before⟩ := shown
    obtain ⟨written, spelled⟩ := kept.spelled line before current
    have same : line = boundedLine (stateHead state) reason := by simpa [current] using known
    rw [line_state (spelled.symm.trans same)]
    rfl

theorem Kept.update (done : notifications.update state reason = some (pushed, next))
    (fits : next.omitted + next.queue.length < u64Limit) :
    Kept next { ledger with
      pushed := ledger.pushed + if pushed then 1 else 0, lastUpdate := some state } := by
  by_cases known : (notifications.current.any fun (current, _) =>
      current = boundedLine (stateHead state) reason) = true
  · obtain ⟨rfl, rfl⟩ := Prod.mk.inj (Option.some.inj ((if_pos known).symm.trans done))
    rw [← kept.repeated known]
    exact kept
  · rw [update_new known] at done
    obtain ⟨queued, left, same⟩ := Option.map_eq_some_iff.mp done
    obtain ⟨rfl, rfl⟩ := Prod.mk.inj same
    refine kept.push (boundedLine_bounded _ _) ?_ rfl left fits
    intro line shown found
    obtain ⟨rfl, rfl⟩ := Prod.mk.inj (Option.some.inj found)
    exact ⟨reason, rfl⟩

/-- The summary stands for the whole backlog and tells the last state. -/
theorem Kept.summarized (some : notifications.omitted ≠ 0) :
    Kept { notifications with queue := [], bytes := 0, omitted := 0 }
      (ledger.noteTold (.popped ⟨notifications.summary, notifications.current.map (·.2)⟩
        (saturatingAdd notifications.omitted notifications.queue.length))) := by
  have lost := saturatingAdd_fits kept.fits
  have shown : (notifications.current.map (·.2)).or ledger.lastShown = ledger.lastUpdate := by
    rw [kept.current]
    cases last : ledger.lastUpdate with
    | none => exact (kept.unseen last).1
    | some state => rfl
  refine ⟨kept.alone, rfl, Nat.zero_le _, Nat.zero_le _, (by decide : 0 < u64Limit), nofun, ?_, kept.current,
    kept.spelled, ?_, fun _ => shown⟩
  · have before := kept.conserved
    simp only [Ledger.noteTold, lost, List.length_nil]
    rw [if_neg (by omega)]
    omega
  · intro never
    exact ⟨shown.trans never, nofun⟩

theorem Kept.popped (all : notifications.omitted = 0)
    (queued : notifications.queue = record :: rest) :
    Kept { notifications with queue := rest, bytes := notifications.bytes - record.size }
      (ledger.noteTold (.popped record 0)) := by
  have bytes : notifications.bytes - record.size = weigh Notification.size rest := by
    rw [kept.counted, queued, weigh_cons, Nat.add_sub_cancel_left]
  have shorter : notifications.queue.length = rest.length + 1 := by rw [queued, List.length_cons]
  have few := kept.few
  have fits := kept.fits
  refine ⟨kept.alone, bytes, by simp only; omega, (Nat.sub_le _ _).trans kept.light,
    by simp only; omega, ?_, ?_, kept.current, kept.spelled, ?_, ?_⟩
  · exact fun found member => kept.lines found (queued ▸ List.mem_cons_of_mem _ member)
  · have before := kept.conserved
    simp only [Ledger.noteTold, if_true]
    omega
  · intro never
    obtain ⟨shown, stateless⟩ := kept.unseen never
    rw [queued] at stateless
    refine ⟨?_, fun found member => stateless found (List.mem_cons_of_mem _ member)⟩
    simp only [Ledger.noteTold, stateless record List.mem_cons_self, shown, Option.or_none]
  · intro complete
    have before := kept.fresh complete
    rw [queued] at before
    exact before

theorem Kept.step {request : Call} (done : notifications.call request = some (told, next))
    (fits : next.omitted + next.queue.length < u64Limit) :
    Kept next ((ledger.noteCall request).noteTold told) := by
  cases request with
  | update state reason =>
    obtain ⟨⟨pushed, left⟩, updated, same⟩ := Option.map_eq_some_iff.mp done
    obtain ⟨rfl, rfl⟩ := Prod.mk.inj same
    have next := kept.update updated fits
    cases pushed
    · exact next
    · exact next
  | notice text =>
    obtain ⟨left, noted, same⟩ := Option.map_eq_some_iff.mp done
    obtain ⟨rfl, rfl⟩ := Prod.mk.inj same
    exact kept.push (boundedLine_bounded _ _) kept.spelled (by rw [kept.current]; rfl) noted fits
  | popRecord =>
    unfold call Notifications.popRecord at done
    by_cases omissions : notifications.omitted ≠ 0
    · simp only [if_pos omissions, Option.some.injEq, Prod.mk.injEq] at done
      obtain ⟨rfl, rfl⟩ := done
      exact kept.summarized omissions
    · rw [if_neg omissions] at done
      cases queued : notifications.queue with
      | nil =>
        simp only [queued, Option.some.injEq, Prod.mk.injEq] at done
        obtain ⟨rfl, rfl⟩ := done
        exact kept
      | cons record rest =>
        simp only [queued, Option.some.injEq, Prod.mk.injEq] at done
        obtain ⟨rfl, rfl⟩ := done
        exact kept.popped (Decidable.not_not.mp omissions) queued

/-- No call panics, and what was pushed last is still queued. -/
theorem Kept.answers (request : Call) :
    ∃ told next, notifications.call request = some (told, next) ∧
      (told = .pushed → next.queue ≠ []) := by
  cases request with
  | update state reason =>
    by_cases known : (notifications.current.any fun (current, _) =>
        current = boundedLine (stateHead state) reason) = true
    · refine ⟨.suppressed, notifications, ?_, nofun⟩
      simp only [call, Notifications.update, if_pos known]
      rfl
    · let record : Notification := ⟨boundedLine (stateHead state) reason, some state⟩
      have line : BoundedLine record.detail := boundedLine_bounded _ _
      obtain ⟨dropped, queue, shape, filled, few, light, left⟩ :=
        push_spec kept line (some (record.detail, state))
      have updated := (update_new known).trans (congrArg (Option.map _) left)
      exact ⟨.pushed, _, congrArg (Option.map _) updated, fun _ => filled⟩
  | notice text =>
    let record : Notification := ⟨boundedLine "kakoi: " text, none⟩
    have line : BoundedLine record.detail := boundedLine_bounded _ _
    obtain ⟨dropped, queue, shape, filled, few, light, left⟩ :=
      push_spec kept line notifications.current
    exact ⟨.pushed, _, congrArg (Option.map _) left, fun _ => filled⟩
  | popRecord =>
    simp only [call]
    cases notifications.popRecord with
    | mk popped left =>
      cases popped with
      | none => exact ⟨.drained, left, rfl, nofun⟩
      | some record => exact ⟨.popped record.1 record.2, left, rfl, nofun⟩

theorem Kept.drained (done : notifications.call .popRecord = some (.drained, next)) :
    ledger.lastShown = ledger.lastUpdate := by
  unfold call Notifications.popRecord at done
  by_cases omissions : notifications.omitted ≠ 0
  · simp [if_pos omissions] at done
  · rw [if_neg omissions] at done
    cases queued : notifications.queue with
    | nil =>
      have shown := kept.fresh (Decidable.not_not.mp omissions)
      rw [queued] at shown
      exact shown
    | cons record rest => simp [queued] at done

theorem Kept.shows (done : notifications.call .popRecord = some (.popped record lost, next)) :
    BoundedLine record.detail := by
  unfold call Notifications.popRecord at done
  by_cases omissions : notifications.omitted ≠ 0
  · simp only [if_pos omissions, Option.some.injEq, Prod.mk.injEq, Told.popped.injEq] at done
    obtain ⟨⟨rfl, _⟩, _⟩ := done
    unfold summary
    dsimp only
    split <;> exact boundedLine_bounded _ _
  · rw [if_neg omissions] at done
    cases queued : notifications.queue with
    | nil => simp [queued] at done
    | cons first rest =>
      simp only [queued, Option.some.injEq, Prod.mk.injEq, Told.popped.injEq] at done
      obtain ⟨⟨rfl, _⟩, _⟩ := done
      exact kept.lines _ (queued ▸ List.mem_cons_self)

end Steps

theorem Run.kept (history : Run notifications ledger) : Kept notifications ledger := by
  induction history with
  | start => exact kept_start
  | call _ done fits ih => exact ih.step done fits

/-- Every record pushed is queued, shown or counted, what is queued stays within the limits, and a
drained queue has shown the last state. -/
theorem notifications_accounted (history : Run notifications ledger) :
    notifications.bytes = weigh Notification.size notifications.queue ∧
    notifications.queue.length ≤ 256 ∧ notifications.bytes ≤ 1024 * 1024 ∧
    (∀ request, ∃ told next, notifications.call request = some (told, next) ∧
      (told = .pushed → next.queue ≠ [])) ∧
    ledger.pushed =
      ledger.single + ledger.lost + notifications.queue.length + notifications.omitted ∧
    (∀ next, notifications.call .popRecord = some (.drained, next) →
      ledger.lastShown = ledger.lastUpdate) ∧
    (∀ record ∈ notifications.queue, BoundedLine record.detail) ∧
    (∀ record lost next, notifications.call .popRecord = some (.popped record lost, next) →
      BoundedLine record.detail) := by
  have kept := history.kept
  exact ⟨kept.counted, kept.few, kept.light, kept.answers, kept.conserved,
    fun _ done => kept.drained done, kept.lines, fun _ _ _ done => kept.shows done⟩

theorem Run.notice (history : Run notifications ledger) (room : ledger.pushed + 1 < u64Limit)
    (text : String) : ∃ next, Run next { ledger with pushed := ledger.pushed + 1 } := by
  have kept := history.kept
  obtain ⟨dropped, queue, shape, -, -, -, left⟩ :=
    @push_spec _ _ kept ⟨boundedLine "kakoi: " text, none⟩ (boundedLine_bounded _ _)
      notifications.current
  have told : notifications.call (.notice text) = some (.pushed, _) :=
    congrArg (Option.map (Prod.mk Told.pushed)) left
  have lengths : notifications.queue.length + 1 = dropped.length + queue.length := by
    simpa using congrArg List.length shape
  have sum := saturatingAdd_le notifications.omitted dropped.length
  have conserved := kept.conserved
  exact ⟨_, .call history told (by dsimp only; omega)⟩

/-- One notice too many is left out, and a summary is shown for it. -/
theorem overflow_accounted : ∃ notifications, Run notifications { pushed := 257 } ∧
    notifications.queue.length ≤ 256 ∧ 257 = notifications.queue.length + notifications.omitted ∧
    ∃ record next, notifications.call .popRecord = some (.popped record 257, next) ∧
      BoundedLine record.detail := by
  have runs : ∀ count ≤ 257, ∃ notifications, Run notifications { pushed := count } := by
    intro count few
    induction count with
    | zero => exact ⟨_, .start⟩
    | succ count ih =>
      obtain ⟨notifications, history⟩ := ih (Nat.le_of_succ_le few)
      refine history.notice (Nat.lt_of_le_of_lt few ?_) "full"
      decide
  obtain ⟨notifications, history⟩ := runs 257 (Nat.le_refl _)
  obtain ⟨-, few, -, -, conserved, -, -, shows⟩ := notifications_accounted history
  have conserved : 257 = notifications.queue.length + notifications.omitted := by
    simpa using conserved
  have omitted : notifications.omitted ≠ 0 := by omega
  have lost : saturatingAdd notifications.omitted notifications.queue.length = 257 := by
    rw [saturatingAdd_fits history.kept.fits]
    omega
  obtain ⟨record, next, popped⟩ : ∃ record next,
      notifications.call .popRecord = some (.popped record 257, next) :=
    ⟨_, _, by rw [call, Notifications.popRecord, if_pos omitted, lost]⟩
  exact ⟨notifications, history, few, conserved, record, next, popped, shows _ _ _ popped⟩

end Invariant

end Kakoi.Notifications
