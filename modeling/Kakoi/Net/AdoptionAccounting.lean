import Kakoi.Base.Collecting
import Kakoi.Net.Adoption

/-! The controller's count of what it handed over is what is still to be collected. -/

namespace Kakoi

@[simp]
def AdoptionAct.acceptance : AdoptionAct → Option Nat
  | .accepted id => some id
  | _ => none

@[simp]
def AdoptionAct.ending : AdoptionAct → Option Nat
  | .ended completion => some completion.id
  | _ => none

@[simp]
def AdoptionAct.collection : AdoptionAct → Option Nat
  | .collected completion => some completion.id
  | _ => none

/-- A candidate ended with an enforcement error. -/
def AdoptionAct.Faults : AdoptionAct → Prop
  | .ended completion => completion.isEnforcement = true
  | _ => False

/-- A candidate is staged or activated. -/
def AdoptionAct.Touches : AdoptionAct → Prop
  | .staged | .activated => True
  | _ => False

def AdoptionAct.Stops : AdoptionAct → Prop
  | .stopped => True
  | _ => False

/-- A success is collected. -/
def AdoptionAct.Succeeds : AdoptionAct → Prop
  | .collected completion => completion.answer.isOk = true
  | _ => False

/-- The candidate that the thread has in hand. -/
def AdoptionWorker.ids : AdoptionWorker → List Nat
  | .received candidate => [candidate.1]
  | .adopting id _ => [id]
  | .answered completion | .reporting completion => [completion.id]
  | _ => []

/-- The candidate that the thread has handled and not reported yet. -/
def AdoptionWorker.handled : AdoptionWorker → List Nat
  | .answered completion | .reporting completion => [completion.id]
  | _ => []

def AdoptionWorker.HasLeft : AdoptionWorker → Prop
  | .returned | .finished => True
  | _ => False

namespace DnsAdoption

variable {adoption next : DnsAdoption}

theorem accepts_ok (accepted : adoption.accepts = .ok ()) :
    adoption.cancelled = false ∧ adoption.outstanding ≠ adoption.limit := by
  unfold accepts at accepted
  split at accepted
  · cases accepted
  next live =>
    split at accepted
    · cases accepted
    next room =>
      simp only [Bool.or_eq_true, not_or, Bool.not_eq_true] at live
      exact ⟨live.1.1, room⟩

theorem send_of_room (present : adoption.requests.receiver = true)
    (room : adoption.requests.items.length < adoption.requests.capacity)
    (candidate : Nat × PreparedAnswer) :
    adoption.send candidate = (.ok (), { adoption with
      requests := { adoption.requests with items := adoption.requests.items ++ [candidate] }
      outstanding := adoption.outstanding + 1 }) := by
  rw [send, BoundedChannel.trySend_of_room present room]

theorem collect_some (result : adoption.collect = (some completion, next)) :
    ∃ found rest, adoption.results.items = found :: rest ∧ completion.id = found.id ∧
      (adoption.cancelled = true → completion.answer.isOk = false) ∧
      next = { adoption with
        results := { adoption.results with items := rest }
        outstanding := adoption.outstanding - 1 } := by
  unfold collect at result
  split at result
  next found results taken =>
    obtain ⟨items, same⟩ := BoundedChannel.tryReceive_eq_received taken
    obtain ⟨rfl, rfl⟩ := Prod.mk.inj result |>.imp_left Option.some.inj
    refine ⟨found, results.items, items, ?_, ?_, by rw [← same]⟩
    · split <;> rfl
    · intro cancelled
      obtain ⟨id, answer⟩ := found
      cases answer <;> simp [cancelled, Except.isOk, Except.toBool]
  next => cases result
  next => cases result

theorem collect_none (last : adoption.collect = (none, next))
    (quiet : adoption.results.sender = false → adoption.cancelled = true) : next = adoption := by
  unfold collect at last
  split at last
  next => cases last
  next => exact (Prod.mk.inj last).2.symm
  next gone =>
    obtain ⟨_, dropped⟩ := BoundedChannel.tryReceive_eq_disconnected gone
    have same : (adoption.faulted || !adoption.cancelled) = adoption.faulted := by
      rw [quiet dropped, Bool.not_true, Bool.or_false]
    rw [← (Prod.mk.inj last).2, same]

theorem join_spec (joined : adoption.join finished = (answer, next))
    (quiet : finished = true → adoption.cancelled = true) :
    ∃ handle, next = { adoption with handle } := by
  unfold join at joined
  split at joined
  next both =>
    have cancelled := quiet (Bool.and_eq_true_iff.mp both).2
    rw [if_pos cancelled] at joined
    exact ⟨false, (Prod.mk.inj joined).2.symm⟩
  next => exact ⟨adoption.handle, (Prod.mk.inj joined).2.symm⟩

end DnsAdoption

namespace AdoptionSystem

/-- What every run keeps. -/
structure Kept (limit : Nat) (system : AdoptionSystem) (log : List AdoptionAct) : Prop where
  limits : system.adoption.limit = limit ∧ system.adoption.requests.capacity = limit ∧
    system.adoption.results.capacity = limit
  counted : system.adoption.outstanding = system.adoption.requests.items.length +
    system.worker.ids.length + system.adoption.results.items.length
  bounded : system.adoption.outstanding ≤ limit
  submitting : ∀ candidate, system.call = .submitting candidate →
    system.adoption.outstanding < limit ∧ system.adoption.cancelled = false
  collector : system.adoption.results.receiver = true
  source : system.adoption.requests.sender = false → system.adoption.cancelled = true
  present : ¬ system.worker.HasLeft →
    system.adoption.requests.receiver = true ∧ system.adoption.results.sender = true
  left : system.worker.HasLeft → system.adoption.cancelled = true
  ordered : log.filterMap AdoptionAct.acceptance = log.filterMap AdoptionAct.collection ++
    system.adoption.results.items.map (·.id) ++ system.worker.ids ++
    system.adoption.requests.items.map (·.1)
  handled : log.filterMap AdoptionAct.ending = log.filterMap AdoptionAct.collection ++
    system.adoption.results.items.map (·.id) ++ system.worker.handled
  faulted : (∃ act ∈ log, act.Faults) →
    (∃ completion, system.worker = .answered completion ∧ completion.isEnforcement = true) ∨
      system.adoption.faulted = true ∧ ∀ id work, system.worker ≠ .adopting id work
  untouched : log.Pairwise fun first second => first.Faults → ¬ second.Touches
  stopped : (∃ act ∈ log, act.Stops) → system.adoption.cancelled = true
  refused : log.Pairwise fun first second => first.Stops → ¬ second.Succeeds

theorem kept_start {adoption : DnsAdoption} (created : DnsAdoption.new limit = .ok adoption) :
    Kept limit { adoption } [] := by
  unfold DnsAdoption.new at created
  split at created
  next =>
    obtain rfl := Except.ok.inj created
    exact ⟨⟨rfl, rfl, rfl⟩, rfl, Nat.zero_le _, nofun, rfl, nofun, fun _ => ⟨rfl, rfl⟩, nofun, rfl,
      rfl, nofun, .nil, nofun, .nil⟩
  next => cases created

section Notes

variable {P Q : α → Prop}

theorem exists_note (noted : ∃ found ∈ log ++ [act], P found) : (∃ found ∈ log, P found) ∨ P act := by
  simpa [or_and_right, exists_or] using noted

/-- Nothing of one kind follows one of the other. -/
theorem pairwise_note (before : log.Pairwise fun first second => P first → ¬ Q second)
    (fresh : Q act → ¬ ∃ found ∈ log, P found) :
    (log ++ [act]).Pairwise fun first second => P first → ¬ Q second := by
  refine pairwise_concat.mpr ⟨before, fun first member holds later => ?_⟩
  exact fresh later ⟨first, member, holds⟩

end Notes

section Steps

variable {adoption : DnsAdoption}
 

variable (kept : Kept limit system log)

include kept

/-- What is sent is accepted: the count leaves room for it, and the thread is there. -/
theorem Kept.send (submitting : system.call = .submitting candidate)
    (sent : system.adoption.send candidate = (answer, adoption)) :
    answer = .ok () ∧
      Kept limit { system with adoption, call := .idle } (log ++ [.accepted candidate.1]) := by
  obtain ⟨room, live⟩ := kept.submitting candidate submitting
  have here : ¬ system.worker.HasLeft := fun left => by
    rw [kept.left left] at live
    cases live
  have counted := kept.counted
  obtain ⟨_, capacity, _⟩ := kept.limits
  have fits : system.adoption.requests.items.length < system.adoption.requests.capacity := by
    omega
  rw [DnsAdoption.send_of_room (kept.present here).1 fits] at sent
  obtain ⟨rfl, rfl⟩ := Prod.mk.inj sent
  refine ⟨rfl, { kept with
    counted := ?_, bounded := room, submitting := nofun, ordered := ?_, handled := ?_
    faulted := ?_, untouched := pairwise_note kept.untouched nofun, stopped := ?_
    refused := pairwise_note kept.refused nofun }⟩
  · simp only [List.length_append, List.length_singleton]
    omega
  · simp [kept.ordered, List.filterMap_cons]
  · simp [kept.handled, List.filterMap_cons]
  · exact fun noted => kept.faulted ((exists_note noted).resolve_right id)
  · exact fun noted => kept.stopped ((exists_note noted).resolve_right id)

theorem Kept.collect (result : system.adoption.collect = (some completion, adoption))
    (call : List AdoptionCompletion) :
    Kept limit { system with adoption, call := .collecting call }
      (log ++ [.collected completion]) := by
  obtain ⟨found, rest, items, same, failed, rfl⟩ := DnsAdoption.collect_some result
  have counted := kept.counted
  have bounded := kept.bounded
  have ordered := kept.ordered
  have handled := kept.handled
  rw [items] at counted ordered handled
  rw [List.length_cons] at counted
  refine { kept with
    counted := ?_, bounded := ?_, submitting := nofun, ordered := ?_, handled := ?_
    faulted := ?_, untouched := pairwise_note kept.untouched nofun, stopped := ?_
    refused := pairwise_note kept.refused ?_ }
  · simp only
    omega
  · simp only
    omega
  · simp [ordered, same]
  · simp [handled, same]
  · exact fun noted => kept.faulted ((exists_note noted).resolve_right id)
  · exact fun noted => kept.stopped ((exists_note noted).resolve_right id)
  · intro success earlier
    have refused := failed (kept.stopped earlier)
    rw [show completion.answer.isOk = true from success] at refused
    cases refused

theorem Kept.stop (idle : system.call = .idle) :
    Kept limit { system with adoption := system.adoption.stop } (log ++ [.stopped]) := by
  refine { kept with
    submitting := ?_, source := fun _ => rfl, left := fun _ => rfl, ordered := ?_, handled := ?_
    faulted := ?_, untouched := pairwise_note kept.untouched nofun, stopped := fun _ => rfl
    refused := pairwise_note kept.refused nofun }
  · intro candidate submitting
    rw [idle] at submitting
    cases submitting
  · simpa [List.filterMap_cons, DnsAdoption.stop, BoundedChannel.dropSender] using kept.ordered
  · simpa [List.filterMap_cons, DnsAdoption.stop] using kept.handled
  · exact fun noted => kept.faulted ((exists_note noted).resolve_right id)

/-- A thread that has not just answered keeps every enforcement error in the flag. -/
theorem Kept.flagged (apart : ∀ completion, system.worker ≠ .answered completion)
    (noted : ∃ act ∈ log, act.Faults) : system.adoption.faulted = true := by
  rcases kept.faulted noted with ⟨completion, answered, _⟩ | ⟨faulted, _⟩
  · exact absurd answered (apart completion)
  · exact faulted

theorem Kept.receive (receiving : system.worker = .receiving)
    (some : system.adoption.requests.tryReceive = .received candidate requests) :
    Kept limit
      { system with adoption := { system.adoption with requests }, worker := .received candidate }
      log := by
  obtain ⟨items, same⟩ := BoundedChannel.tryReceive_eq_received some
  have counted := kept.counted
  have ordered := kept.ordered
  have handled := kept.handled
  rw [receiving, items] at counted ordered
  rw [receiving] at handled
  have here : ¬ system.worker.HasLeft := by
    rw [receiving]
    exact id
  rw [same]
  refine { kept with
    limits := kept.limits, counted := ?_, source := kept.source, present := fun _ => kept.present here
    left := nofun, ordered := ?_, handled := handled
    faulted := fun noted => .inr ⟨kept.flagged (by simp [receiving]) noted, nofun⟩ }
  · simpa [AdoptionWorker.ids, Nat.add_assoc, Nat.add_comm 1] using counted
  · simpa [AdoptionWorker.ids] using ordered

theorem Kept.leave (receiving : system.worker = .receiving)
    (none : system.adoption.requests.tryReceive = .disconnected) :
    Kept limit
      { system with
        adoption := { system.adoption with
          requests := system.adoption.requests.dropReceiver
          results := system.adoption.results.dropSender }
        worker := .returned } log := by
  obtain ⟨empty, gone⟩ := BoundedChannel.tryReceive_eq_disconnected none
  have counted := kept.counted
  have ordered := kept.ordered
  have handled := kept.handled
  rw [receiving] at counted ordered handled
  exact { kept with
    counted := counted, present := fun here => absurd trivial here, left := fun _ => kept.source gone
    ordered := ordered, handled := handled
    faulted := fun noted => .inr ⟨kept.flagged (by simp [receiving]) noted, nofun⟩ }

theorem Kept.move {later : AdoptionWorker} (ids : system.worker.ids = later.ids)
    (handled : system.worker.handled = later.handled) (here : ¬ system.worker.HasLeft)
    (stays : ¬ later.HasLeft) (sound : ¬ ∃ act ∈ log, act.Faults) :
    Kept limit { system with worker := later } log where
  __ := kept
  counted := ids ▸ kept.counted
  present _ := kept.present here
  left left := absurd left stays
  ordered := ids ▸ kept.ordered
  handled := handled ▸ kept.handled
  faulted noted := absurd noted sound

/-- While a candidate is adopted, none has ended with an enforcement error. -/
theorem Kept.sound (adopting : system.worker = .adopting number work) :
    ¬ ∃ act ∈ log, act.Faults := by
  intro noted
  rcases kept.faulted noted with ⟨completion, answered, _⟩ | ⟨_, apart⟩
  · rw [adopting] at answered
    cases answered
  · exact apart number work adopting

theorem Kept.adopt (received : system.worker = .received candidate)
    (sound : system.adoption.faulted = false) (work : Adopting (Except EnforcedDnsError Wire)) :
    Kept limit { system with worker := .adopting candidate.1 work } log := by
  refine kept.move (by rw [received]; rfl) (by rw [received]; rfl) (by rw [received]; exact id) id ?_
  intro noted
  have faulted := kept.flagged (by simp [received]) noted
  rw [sound] at faulted
  cases faulted

/-- Only before any enforcement error is a candidate staged or activated. -/
theorem Kept.touch {act : AdoptionAct} (touches : act.Touches)
    (sound : ¬ ∃ found ∈ log, found.Faults) : Kept limit system (log ++ [act]) := by
  have plain : act.acceptance = none ∧ act.ending = none ∧ act.collection = none ∧
      ¬ act.Faults ∧ ¬ act.Stops ∧ ¬ act.Succeeds := by
    cases act with
    | staged | activated => exact ⟨rfl, rfl, rfl, id, id, id⟩
    | accepted | ended | collected | stopped => exact touches.elim
  obtain ⟨acceptance, ending, collection, faultless, going, fruitless⟩ := plain
  refine { kept with
    ordered := ?_, handled := ?_, faulted := ?_, untouched := pairwise_note kept.untouched fun _ => sound
    stopped := ?_, refused := pairwise_note kept.refused fun success => absurd success fruitless }
  · simpa only [List.filterMap_append, List.filterMap_cons, acceptance, collection,
      List.filterMap_nil, List.append_nil] using kept.ordered
  · simpa only [List.filterMap_append, List.filterMap_cons, ending, collection,
      List.filterMap_nil, List.append_nil] using kept.handled
  · exact fun noted => kept.faulted ((exists_note noted).resolve_right faultless)
  · exact fun noted => kept.stopped ((exists_note noted).resolve_right going)

theorem Kept.ask (op : AdoptOp) (adopting : system.worker = .adopting number work)
    (later : Adopting (Except EnforcedDnsError Wire)) :
    Kept limit { system with worker := .adopting number later } (log ++ op.acts) := by
  have sound := kept.sound adopting
  have moved : Kept limit { system with worker := .adopting number later } log :=
    kept.move (by rw [adopting]; rfl) (by rw [adopting]; rfl) (by rw [adopting]; exact id) id sound
  cases op with
  | stage | activate => exact moved.touch trivial sound
  | requiresReconciliation | matchesPolicy | now | cancelled | withdrawn | lock | discard =>
    simpa [AdoptOp.acts] using moved

/-- A candidate is handled: with an enforcement error, or after none was. -/
theorem Kept.ended (ids : system.worker.ids = [completion.id])
    (unhandled : system.worker.handled = []) (here : ¬ system.worker.HasLeft)
    (first : completion.isEnforcement = true ∨ ¬ ∃ act ∈ log, act.Faults) :
    Kept limit { system with worker := .answered completion } (log ++ [.ended completion]) := by
  have ordered := kept.ordered
  have handled := kept.handled
  rw [ids] at ordered
  rw [unhandled] at handled
  refine { kept with
    counted := ?_, present := fun _ => kept.present here, left := nofun, ordered := ?_
    handled := ?_, faulted := ?_, untouched := pairwise_note kept.untouched nofun, stopped := ?_
    refused := pairwise_note kept.refused nofun }
  · rw [kept.counted, ids]
    rfl
  · simpa [List.filterMap_cons, AdoptionWorker.ids] using ordered
  · simp [List.filterMap_cons, AdoptionWorker.handled, handled]
  · intro noted
    refine .inl ⟨completion, rfl, first.elim id fun sound => ?_⟩
    exact (exists_note noted).resolve_left sound
  · exact fun noted => kept.stopped ((exists_note noted).resolve_right id)

/-- The flag is set before the completion is sent. -/
theorem Kept.store (answered : system.worker = .answered completion) :
    Kept limit
      { system with
        adoption := { system.adoption with
          faulted := system.adoption.faulted || completion.isEnforcement }
        worker := .reporting completion } log := by
  have counted := kept.counted
  have ordered := kept.ordered
  have handled := kept.handled
  rw [answered] at counted ordered handled
  have here : ¬ system.worker.HasLeft := by
    rw [answered]
    exact id
  refine { kept with
    counted := counted, present := fun _ => kept.present here, left := nofun, ordered := ordered
    handled := handled, faulted := ?_ }
  intro noted
  refine .inr ⟨?_, nofun⟩
  rcases kept.faulted noted with ⟨found, same, enforcement⟩ | ⟨faulted, _⟩
  · rw [answered] at same
    obtain rfl := AdoptionWorker.answered.inj same
    exact Bool.or_eq_true_iff.mpr (.inr enforcement)
  · exact Bool.or_eq_true_iff.mpr (.inl faulted)

theorem Kept.room (reporting : system.worker = .reporting completion) :
    system.adoption.results.items.length < system.adoption.results.capacity := by
  have counted := kept.counted
  have bounded := kept.bounded
  obtain ⟨_, _, capacity⟩ := kept.limits
  have one : system.worker.ids.length = 1 := by
    rw [reporting]
    rfl
  omega

theorem Kept.report (reporting : system.worker = .reporting completion)
    (room : system.adoption.results.trySend completion = .sent results) :
    Kept limit { system with adoption := { system.adoption with results }, worker := .receiving }
      log := by
  rw [BoundedChannel.trySend_of_room kept.collector (kept.room reporting)] at room
  obtain rfl := BoundedChannel.TrySend.sent.inj room
  have counted := kept.counted
  have ordered := kept.ordered
  have handled := kept.handled
  rw [reporting] at counted ordered handled
  have here : ¬ system.worker.HasLeft := by
    rw [reporting]
    exact id
  refine { kept with
    limits := kept.limits, counted := ?_, collector := kept.collector
    present := fun _ => kept.present here, left := nofun, ordered := ?_, handled := ?_
    faulted := fun noted => .inr ⟨kept.flagged (by simp [reporting]) noted, nofun⟩ }
  · simp only [AdoptionWorker.ids, List.length_append, List.length_singleton, List.length_nil]
      at counted ⊢
    omega
  · simpa [AdoptionWorker.ids] using ordered
  · simpa [AdoptionWorker.handled] using handled

theorem Kept.finish (returned : system.worker = .returned) :
    Kept limit { system with worker := .finished } log := by
  have counted := kept.counted
  have ordered := kept.ordered
  have handled := kept.handled
  rw [returned] at counted ordered handled
  exact { kept with
    counted := counted, present := fun here => absurd trivial here
    left := fun _ => kept.left (returned ▸ trivial), ordered := ordered, handled := handled
    faulted := fun noted => .inr ⟨kept.flagged (by simp [returned]) noted, nofun⟩ }

theorem Kept.join (joined : system.adoption.join system.worker.isFinished = (answer, adoption)) :
    Kept limit { system with adoption, call := .idle } log := by
  have quiet : system.worker.isFinished = true → system.adoption.cancelled = true := by
    intro finished
    refine kept.left ?_
    cases worker : system.worker with
    | finished => trivial
    | _ => rw [worker] at finished; cases finished
  obtain ⟨handle, rfl⟩ := DnsAdoption.join_spec joined quiet
  exact { kept with submitting := nofun }

/-- The disconnection that the controller sees follows its own stop. -/
theorem Kept.collected (last : system.adoption.collect = (none, adoption))
    (call : List AdoptionCompletion) :
    Kept limit { system with adoption, call := .joining call } log := by
  have quiet : system.adoption.results.sender = false → system.adoption.cancelled = true := by
    intro gone
    refine kept.left (Classical.byContradiction fun here => ?_)
    rw [(kept.present here).2] at gone
    cases gone
  rw [DnsAdoption.collect_none last quiet]
  exact { kept with submitting := nofun }

theorem Kept.step (step : Step system acts next) : Kept limit next (log ++ acts) := by
  cases step with
  | refuse _ _ => rwa [List.append_nil]
  | submit _ accepted candidate =>
    rw [List.append_nil]
    obtain ⟨live, room⟩ := DnsAdoption.accepts_ok accepted
    rw [kept.limits.1] at room
    exact { kept with submitting := fun _ _ => ⟨Nat.lt_of_le_of_ne kept.bounded room, live⟩ }
  | send submitting sent => exact (kept.send submitting sent).2
  | unsent submitting unsent => cases (kept.send submitting unsent).1
  | poll _ =>
    rw [List.append_nil]
    exact { kept with submitting := nofun }
  | collect _ result => exact kept.collect result _
  | collected _ last =>
    rw [List.append_nil]
    exact kept.collected last _
  | join _ joined =>
    rw [List.append_nil]
    exact kept.join joined
  | stop idle => exact kept.stop idle
  | receive receiving some =>
    rw [List.append_nil]
    exact kept.receive receiving some
  | leave receiving none =>
    rw [List.append_nil]
    exact kept.leave receiving none
  | fail received faulted same =>
    subst same
    exact kept.ended (by rw [received]; rfl) (by rw [received]; rfl) (by rw [received]; exact id)
      (.inl rfl)
  | adopt received sound =>
    rw [List.append_nil]
    exact kept.adopt received sound _
  | ask adopting _ => exact kept.ask _ adopting _
  | answer adopting =>
    exact kept.ended (by rw [adopting]; rfl) (by rw [adopting]; rfl) (by rw [adopting]; exact id)
      (.inr (kept.sound adopting))
  | store answered =>
    rw [List.append_nil]
    exact kept.store answered
  | report reporting room =>
    rw [List.append_nil]
    exact kept.report reporting room
  | abandon reporting gone =>
    rw [BoundedChannel.trySend_of_room kept.collector (kept.room reporting)] at gone
    cases gone
  | finish returned =>
    rw [List.append_nil]
    exact kept.finish returned

end Steps

theorem Run.kept {adoption : DnsAdoption} (created : DnsAdoption.new limit = .ok adoption)
    (history : Run { adoption } system log) : Kept limit system log := by
  induction history with
  | start => exact kept_start created
  | step _ step ih => exact ih.step step

/-- Whatever the order of the steps, the count is what is queued, adopted and not yet collected,
within the limit; every accepted candidate is completed once and in its turn; nothing is staged or
activated after an enforcement error, and no success is collected after the stop. -/
theorem adoption_accounted {adoption : DnsAdoption} (created : DnsAdoption.new limit = .ok adoption)
    (history : Run { adoption } system log) :
    system.adoption.outstanding = system.adoption.requests.items.length +
      system.worker.ids.length + system.adoption.results.items.length ∧
    system.adoption.outstanding ≤ limit ∧
    (∀ completion, system.worker = .reporting completion →
      ∃ results, system.adoption.results.trySend completion = .sent results) ∧
    log.filterMap AdoptionAct.acceptance = log.filterMap AdoptionAct.collection ++
      system.adoption.results.items.map (·.id) ++ system.worker.ids ++
      system.adoption.requests.items.map (·.1) ∧
    log.filterMap AdoptionAct.ending = log.filterMap AdoptionAct.collection ++
      system.adoption.results.items.map (·.id) ++ system.worker.handled ∧
    (log.Pairwise fun first second => first.Faults → ¬ second.Touches) ∧
    log.Pairwise fun first second => first.Stops → ¬ second.Succeeds := by
  have kept := history.kept created
  refine ⟨kept.counted, kept.bounded, ?_, kept.ordered, kept.handled, kept.untouched, kept.refused⟩
  intro completion reporting
  exact ⟨_, BoundedChannel.trySend_of_room kept.collector (kept.room reporting) completion⟩

/-- One candidate ends with an enforcement error and is collected, then the thread is stopped. -/
theorem one_candidate_accounted :
    ∃ adoption, DnsAdoption.new 1 = .ok adoption ∧ ∃ system log, Run { adoption } system log ∧
      (∃ error, log = [.accepted 7, .ended ⟨7, .error (.enforcement error)⟩,
        .collected ⟨7, .error (.enforcement error)⟩, .stopped]) ∧
      system.adoption.outstanding = 0 := by
  let first : DnsAdoption := { limit := 1, requests := { capacity := 1 }, results := { capacity := 1 } }
  have created : DnsAdoption.new 1 = .ok first := rfl
  have submitted := Run.start.step (@Step.submit { adoption := first } rfl rfl (7, ⟨[], [], 0⟩))
  have received := (submitted.step (.send rfl rfl)).step (.receive rfl rfl)
  have refused := (received.step (.adopt rfl rfl)).step (@Step.ask _ _ .requiresReconciliation true _ rfl trivial)
  have reported := ((refused.step (.answer rfl)).step (.store rfl)).step (.report rfl rfl)
  have collected := (reported.step (.poll rfl)).step (.collect rfl rfl)
  have stopped := ((collected.step (.collected rfl rfl)).step (.join rfl rfl)).step (.stop rfl)
  exact ⟨first, created, _, _, stopped, ⟨_, rfl⟩, (adoption_accounted created stopped).1⟩

end AdoptionSystem

end Kakoi
