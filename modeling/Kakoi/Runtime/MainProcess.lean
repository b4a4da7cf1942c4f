import Kakoi.Base.Collecting
import Kakoi.Runtime.InitUse
import Mathlib.Data.List.Nodup
import Mathlib.Logic.Relation

/-! Init with the processes of its isolation. It knows its main command by number alone: the
result is the command's own exactly when no descendant reaped later had that number. -/

namespace Kakoi

/-- A process that init must reap: the main command's own, or a descendant it adopted. -/
structure Child where
  own : Bool
  pid : Nat
  deriving DecidableEq

/-- A process reaped, by which wait, and how it ended. -/
structure Reap where
  call : WaitCall
  child : Child
  status : Nat
  deriving DecidableEq

def WaitCall.waitsFor (call : WaitCall) (pid : Nat) : Prop :=
  match call with
  | .child other => pid = other
  | .any | .release => True

def InitOp.sent : InitOp → List InitReply
  | .send reply => [reply]
  | _ => []

/-- Whether a question starts a child or waits for one. -/
def InitOp.concernsChildren : InitOp → Bool
  | .spawn | .wait _ => true
  | _ => false

def InitReply.mainReport : InitReply → Option MainOutcome
  | .main outcome => some outcome
  | _ => none

structure InitSystem where
  work : Program InitOp InitOp.Answer (Except Stopped Unit)
  children : List Child := []
  reaped : List Reap := []
  sent : List InitReply := []

/-- An answer with the children it leaves and what it reaps. -/
inductive Answers (children : List Child) :
    (op : InitOp) → InitOp.Answer op → List Child → List Reap → Prop where
  | spawned {pid : Nat} (free : ∀ child ∈ children, child.pid ≠ pid) :
      Answers children .spawn (.ok pid) (⟨true, pid⟩ :: children) []
  | unspawned (error : String) : Answers children .spawn (.error error) children []
  | reaped {call : WaitCall} {child : Child} (status : Nat) (member : child ∈ children)
      (waited : call.waitsFor child.pid) :
      Answers children (.wait call) (.child child.pid status) (children.erase child)
        [⟨call, child, status⟩]
  | childless {call : WaitCall} (none : ∀ child ∈ children, ¬ call.waitsFor child.pid) :
      Answers children (.wait call) .noChildren children []
  | unreaped (call : WaitCall) {answer : Waited}
      (empty : answer = .none ∨ answer = .interrupted ∨ ∃ error, answer = .failed error) :
      Answers children (.wait call) answer children []
  | other (op : InitOp) (apart : op.concernsChildren = false) (answer : InitOp.Answer op) :
      Answers children op answer children []

namespace InitSystem

def initial (count : Nat) : InitSystem := { work := (init count).run }

/-- A descendant loses its parent, with a number no child has, or init gets an answer. -/
inductive Step : InitSystem → InitSystem → Prop where
  | adopt {system : InitSystem} {pid : Nat} (free : ∀ child ∈ system.children, child.pid ≠ pid) :
      Step system { system with children := ⟨false, pid⟩ :: system.children }
  | ask {system : InitSystem} {op : InitOp} {answer : InitOp.Answer op}
      {next : InitOp.Answer op → Program InitOp InitOp.Answer (Except Stopped Unit)}
      {children : List Child} {reaped : List Reap} (asks : system.work = .ask op next)
      (answers : Answers system.children op answer children reaped) :
      Step system
        { work := next answer
          children
          reaped := system.reaped ++ reaped
          sent := system.sent ++ op.sent }

abbrev Reaches := Relation.ReflTransGen Step

/-- How the main command's own process ended. -/
def mainEnd (system : InitSystem) : Option Nat :=
  (system.reaped.find? (·.child.own)).map (·.status)

/-- The main command's result is reported at most once, and the run finishes with it. -/
def MainKept (system : InitSystem) : Prop :=
  (system.sent.filterMap InitReply.mainReport).length ≤ 1 ∧
    ∀ outcome, .finished outcome ∈ system.sent →
      system.mainEnd.map mainStatus = some outcome.main

/-- No descendant that the loop reaped had the number of the main command. -/
def Unmixed (system : InitSystem) : Prop :=
  ∀ main ∈ system.reaped, main.child.own = true →
    ∀ reap ∈ system.reaped, reap.call = .any → reap.child.pid = main.child.pid →
      reap.child.own = true

/-- An end that init takes for the main command's. -/
def counts (pid : Nat) (reap : Reap) : Bool := reap.child.pid = pid && reap.call.counts reap.status

/-- What is true of the main command's own process once it was started. -/
structure Account (pid : Nat) (watch : MainWatch) (system : InitSystem) : Prop where
  numbered : ∀ child ∈ system.children, child.own = true → child.pid = pid
  seen : watch.seen = (system.reaped.filter (counts pid)).map (·.status)
  alive : watch.gone = false → ⟨true, pid⟩ ∈ system.children ∧
    system.reaped.filter (·.child.own) = [] ∧ watch.seen = []
  ended : watch.gone = true → (∀ child ∈ system.children, child.own = false) ∧
    ∃ main, system.reaped.filter (·.child.own) = [main] ∧ main.child.pid = pid ∧
      (watch.seen = [] ∨ ∃ rest, system.reaped.filter (counts pid) = main :: rest ∧
        ∀ reap ∈ rest, reap.child.own = false ∧ reap.call = .any)

/-- The invariant of every run. -/
structure Kept (watch : MainWatch) (system : InitSystem) : Prop where
  keeps : initUse.Keeps (fun after _ => after.Settled) watch system.work
  unique : (system.children.map (·.pid)).Nodup
  unstarted : watch.main = none → watch.seen = [] ∧ watch.gone = false ∧
    (∀ child ∈ system.children, child.own = false) ∧
    ∀ reap ∈ system.reaped, reap.child.own = false ∧ reap.call = .release
  account : ∀ pid, watch.main = some pid → Account pid watch system
  supervising : (∃ reap ∈ system.reaped, reap.call = .any) → watch.supervising = true
  reports : watch.reports = system.sent.filterMap InitReply.mainReport
  reported : watch.reports.length ≤ watch.seen.length
  childless : watch.childless = true → watch.gone = true ∧ watch.seen ≠ []
  finished : ∀ outcome, .finished outcome ∈ system.sent → watch.finished = some outcome.main
  finishedWith : ∀ main, watch.finished = some main →
    watch.childless = true ∧ main = watch.lastSeen

theorem kept_initial (count : Nat) : Kept {} (initial count) where
  keeps := init_settled count
  unique := List.nodup_nil
  unstarted := fun _ => ⟨rfl, rfl, nofun, nofun⟩
  account := nofun
  supervising := fun ⟨_, member, _⟩ => nomatch member
  reports := rfl
  reported := Nat.le_refl 0
  childless := nofun
  finished := nofun
  finishedWith := nofun

section Fields

variable {watch : MainWatch}

@[simp] theorem waited_started : (watch.waited call answer).main = watch.main := by
  cases answer <;> simp only [MainWatch.waited, MainWatch.reaped]
  split <;> rfl

@[simp] theorem waited_reports : (watch.waited call answer).reports = watch.reports := by
  cases answer <;> simp only [MainWatch.waited, MainWatch.reaped]
  split <;> rfl

@[simp] theorem waited_finished : (watch.waited call answer).finished = watch.finished := by
  cases answer <;> simp only [MainWatch.waited, MainWatch.reaped]
  split <;> rfl

@[simp] theorem waited_supervising :
    (watch.waited call answer).supervising = (watch.supervising || call = .any) := by
  cases answer <;> simp only [MainWatch.waited, MainWatch.reaped]
  split <;> rfl

/-- A wait that reaps no process of the command's number. -/
theorem waited_other (call : WaitCall)
    (other : ∀ pid status, answer = .child pid status → watch.main ≠ some pid) :
    (watch.waited call answer).seen = watch.seen ∧ (watch.waited call answer).gone = watch.gone := by
  cases answer with
  | child pid status =>
    simp [MainWatch.waited, MainWatch.reaped, other pid status rfl]
  | none | noChildren | interrupted | failed error => exact ⟨rfl, rfl⟩

theorem waited_number (call : WaitCall) (status : Nat) (started : watch.main = some pid) :
    (watch.waited call (.child pid status)).gone = true ∧
      (watch.waited call (.child pid status)).seen =
        watch.seen ++ if call.counts status then [status] else [] := by
  simp only [MainWatch.waited, MainWatch.reaped, started]
  cases call.counts status <;> simp

/-- What was seen stays seen. -/
theorem waited_grows (watch : MainWatch) (call : WaitCall) (pid status : Nat) :
    (∃ more, (watch.waited call (.child pid status)).seen = watch.seen ++ more) ∧
      (watch.gone = true → (watch.waited call (.child pid status)).gone = true) ∧
      (watch.waited call (.child pid status)).childless = watch.childless := by
  by_cases started : watch.main = some pid
  · obtain ⟨gone, seen⟩ := waited_number call status started
    refine ⟨⟨_, seen⟩, fun _ => gone, ?_⟩
    simp [MainWatch.waited, MainWatch.reaped, started]
  · refine ⟨⟨[], ?_⟩, ?_, ?_⟩ <;> simp [MainWatch.waited, MainWatch.reaped, started]

end Fields

section Steps

variable {system : InitSystem}
  {sent : List InitReply} {work : Program InitOp InitOp.Answer (Except Stopped Unit)}

/-- The system once a process was reaped. -/
def reapedBy (system : InitSystem) (reap : Reap)
    (work : Program InitOp InitOp.Answer (Except Stopped Unit)) (sent : List InitReply) :
    InitSystem :=
  { work, children := system.children.erase reap.child, reaped := system.reaped ++ [reap], sent }

theorem mem_of_filter_own (own : system.reaped.filter (·.child.own) = [main]) :
    main ∈ system.reaped ∧ main.child.own = true := by
  have member : main ∈ system.reaped.filter (·.child.own) := by rw [own]; exact List.mem_cons_self
  exact List.mem_filter.mp member

section Accounts

variable (account : Account pid watch system)

include account

/-- The command's own process is the only child with its number. -/
theorem Account.own_of_number (unique : (system.children.map (·.pid)).Nodup)
    (alive : watch.gone = false) (member : child ∈ system.children) (number : child.pid = pid) :
    child = ⟨true, pid⟩ :=
  List.inj_on_of_nodup_map unique member (account.alive alive).1 number

theorem Account.adopt {number : Nat} :
    Account pid watch { system with children := ⟨false, number⟩ :: system.children } where
  numbered := by
    intro child member own
    rcases List.mem_cons.mp member with rfl | earlier
    · cases own
    · exact account.numbered child earlier own
  seen := account.seen
  alive := fun alive => ⟨List.mem_cons_of_mem _ (account.alive alive).1, (account.alive alive).2⟩
  ended := by
    intro gone
    obtain ⟨others, rest⟩ := account.ended gone
    refine ⟨?_, rest⟩
    intro child member
    rcases List.mem_cons.mp member with rfl | earlier
    · rfl
    · exact others child earlier

/-- A descendant whose end is not taken for the command's. -/
theorem Account.reap_uncounted (foreign : reap.child.own = false)
    (uncounted : counts pid reap = false) (seen : after.seen = watch.seen)
    (gone : after.gone = watch.gone) :
    Account pid after (system.reapedBy reap work sent) where
  numbered := fun child member => account.numbered child (List.mem_of_mem_erase member)
  seen := by simpa [reapedBy, uncounted, seen] using account.seen
  alive := by
    intro alive
    obtain ⟨present, unreaped, unseen⟩ := account.alive (gone.symm.trans alive)
    refine ⟨?_, ?_, seen.trans unseen⟩
    · refine (List.mem_erase_of_ne ?_).mpr present
      intro same
      rw [← same] at foreign
      cases foreign
    · simpa [reapedBy, foreign] using unreaped
  ended := by
    intro ended
    obtain ⟨others, main, own, number, ends⟩ := account.ended (gone.symm.trans ended)
    refine ⟨fun child member => others child (List.mem_of_mem_erase member), main, ?_, number, ?_⟩
    · simpa [reapedBy, foreign] using own
    · rw [seen]
      simpa [reapedBy, uncounted] using ends

/-- A descendant that got the command's number after it, and is taken for it. -/
theorem Account.reap_counted (foreign : reap.child.own = false) (counted : counts pid reap = true)
    (any : reap.call = .any) (known : watch.seen ≠ []) (ended : watch.gone = true)
    (seen : after.seen = watch.seen ++ [reap.status]) (gone : after.gone = true) :
    Account pid after (system.reapedBy reap work sent) where
  numbered := fun child member => account.numbered child (List.mem_of_mem_erase member)
  seen := by simp [reapedBy, counted, seen, account.seen]
  alive := fun alive => nomatch gone.symm.trans alive
  ended := by
    intro _
    obtain ⟨others, main, own, number, ends⟩ := account.ended ended
    refine ⟨fun child member => others child (List.mem_of_mem_erase member), main, ?_, number, ?_⟩
    · simpa [reapedBy, foreign] using own
    · obtain ⟨rest, first, later⟩ := ends.resolve_left known
      refine .inr ⟨rest ++ [reap], by simp [reapedBy, counted, first], ?_⟩
      intro other member
      rcases mem_concat.mp member with earlier | rfl
      · exact later other earlier
      · exact ⟨foreign, any⟩

/-- The command's own process. -/
theorem Account.reap_own (unique : (system.children.map (·.pid)).Nodup)
    (alive : watch.gone = false) (own : reap.child = ⟨true, pid⟩)
    (seen : after.seen = watch.seen ++ if reap.call.counts reap.status then [reap.status] else [])
    (gone : after.gone = true) : Account pid after (system.reapedBy reap work sent) := by
  obtain ⟨-, unreaped, unseen⟩ := account.alive alive
  have uncounted : system.reaped.filter (counts pid) = [] := by
    have empty := account.seen
    rwa [unseen, eq_comm, List.map_eq_nil_iff] at empty
  have counted : counts pid reap = reap.call.counts reap.status := by simp [counts, own]
  refine ⟨fun child member => account.numbered child (List.mem_of_mem_erase member), ?_,
    (fun alive => nomatch gone.symm.trans alive), fun _ => ⟨?_, reap, ?_, by rw [own], ?_⟩⟩
  · rw [seen, unseen]
    cases taken : reap.call.counts reap.status <;> simp [reapedBy, uncounted, counted, taken]
  · intro child member
    rw [← Bool.not_eq_true]
    intro isOwn
    have nodup := unique.of_map
    obtain ⟨different, present⟩ := nodup.mem_erase_iff.mp member
    exact different ((account.own_of_number unique alive present
      (account.numbered child present isOwn)).trans own.symm)
  · simp [reapedBy, unreaped, own]
  · rw [seen, unseen]
    cases taken : reap.call.counts reap.status with
    | false => exact .inl rfl
    | true => exact .inr ⟨[], by simp [reapedBy, uncounted, counted, taken], nofun⟩

/-- The account reads only what was seen of the command. -/
theorem Account.congr (seen : after.seen = watch.seen) (gone : after.gone = watch.gone) :
    Account pid after { system with work, sent } := by
  obtain ⟨numbered, counted, alive, ended⟩ := account
  rw [← seen] at counted alive ended
  rw [← gone] at alive ended
  exact ⟨numbered, counted, alive, ended⟩

end Accounts

variable (kept : Kept watch system)

include kept

theorem Kept.adopt {number : Nat} (free : ∀ child ∈ system.children, child.pid ≠ number) :
    Kept watch { system with children := ⟨false, number⟩ :: system.children } where
  keeps := kept.keeps
  unique := by
    rw [List.map_cons, List.nodup_cons]
    refine ⟨?_, kept.unique⟩
    rintro taken
    obtain ⟨child, member, same⟩ := List.mem_map.mp taken
    exact free child member same
  unstarted := by
    intro unstarted
    obtain ⟨seen, gone, others, reaped⟩ := kept.unstarted unstarted
    refine ⟨seen, gone, ?_, reaped⟩
    intro child member
    rcases List.mem_cons.mp member with rfl | earlier
    · rfl
    · exact others child earlier
  account := fun pid started => (kept.account pid started).adopt
  supervising := kept.supervising
  reports := kept.reports
  reported := kept.reported
  childless := kept.childless
  finished := kept.finished
  finishedWith := kept.finishedWith

/-- What the end of any process does to what is known of the command's own. -/
theorem Kept.account_reaped {call : WaitCall} (allowed : watch.Allows (.wait call))
    (member : child ∈ system.children) (started : watch.main = some pid) :
    Account pid (watch.waited call (.child child.pid status))
      (system.reapedBy ⟨call, child, status⟩ work sent) := by
  have account := kept.account pid started
  by_cases number : child.pid = pid
  · subst number
    obtain ⟨gone, seen⟩ := waited_number call status started
    cases alive : watch.gone with
    | false =>
      exact account.reap_own kept.unique alive
        (account.own_of_number kept.unique alive member rfl) seen gone
    | true =>
      have foreign := (account.ended alive).1 child member
      cases call with
      | child other => exact nomatch allowed.2.symm.trans alive
      | any =>
        exact account.reap_counted foreign (by simp [counts, WaitCall.counts]) rfl
          (allowed.2.1 alive) alive seen gone
      | release =>
        refine account.reap_uncounted foreign (by simp [counts, WaitCall.counts]) ?_ ?_
        · simpa [WaitCall.counts] using seen
        · exact gone.trans alive.symm
  · have other : ∀ waited ended, Waited.child child.pid status = .child waited ended →
        watch.main ≠ some waited := by
      intro waited ended same taken
      rw [started, ← (Waited.child.inj same).1] at taken
      exact number (Option.some.inj taken).symm
    obtain ⟨seen, gone⟩ := waited_other call other
    have foreign : child.own = false := by
      rw [← Bool.not_eq_true]
      exact fun own => number (account.numbered child member own)
    exact account.reap_uncounted foreign (by simp [counts, number]) seen gone

theorem Kept.reaping {call : WaitCall} {child : Child} {status : Nat}
    {next : Waited → Program InitOp InitOp.Answer (Except Stopped Unit)}
    (asks : system.work = .ask (.wait call) next) (member : child ∈ system.children) :
    Kept (watch.waited call (.child child.pid status))
      (system.reapedBy ⟨call, child, status⟩ (next (.child child.pid status)) system.sent) := by
  have asked := kept.keeps
  rw [asks] at asked
  obtain ⟨⟨running, allowed⟩, continues⟩ := asked
  obtain ⟨⟨more, grows⟩, stays, same⟩ := waited_grows watch call child.pid status
  refine
    { keeps := continues (.child child.pid status)
      unique := kept.unique.sublist (List.erase_sublist.map _)
      unstarted := ?_
      account := ?_
      supervising := ?_
      reports := ?_
      reported := ?_
      childless := ?_
      finished := ?_
      finishedWith := ?_ }
  · intro unstarted
    rw [waited_started] at unstarted
    obtain ⟨seen, gone, others, reaped⟩ := kept.unstarted unstarted
    have releasing : call = .release := by
      cases call with
      | child other => exact nomatch allowed.1.symm.trans unstarted
      | any =>
        have started := allowed.1
        rw [unstarted] at started
        cases started
      | release => rfl
    have other : ∀ waited ended, Waited.child child.pid status = .child waited ended →
        watch.main ≠ some waited := by
      intro waited ended _
      rw [unstarted]
      exact nofun
    obtain ⟨sameSeen, sameGone⟩ := waited_other call other
    refine ⟨sameSeen.trans seen, sameGone.trans gone,
      fun child member => others child (List.mem_of_mem_erase member), ?_⟩
    intro reap listed
    rcases mem_concat.mp listed with earlier | rfl
    · exact reaped reap earlier
    · exact ⟨others child member, releasing⟩
  · intro pid started
    rw [waited_started] at started
    exact kept.account_reaped allowed member started
  · rintro ⟨reap, listed, any⟩
    rw [waited_supervising]
    rcases mem_concat.mp listed with earlier | rfl
    · rw [kept.supervising ⟨reap, earlier, any⟩]
      rfl
    · have any : call = .any := any
      simp [any]
  · rw [waited_reports]
    exact kept.reports
  · rw [waited_reports]
    rw [grows, List.length_append]
    exact Nat.le_trans kept.reported (Nat.le_add_right _ _)
  · intro childless
    obtain ⟨gone, seen⟩ := kept.childless (same.symm.trans childless)
    refine ⟨stays gone, ?_⟩
    rw [grows]
    exact fun empty => seen (List.append_eq_nil_iff.mp empty).1
  · intro outcome listed
    rw [waited_finished]
    exact kept.finished outcome listed
  · intro main finished
    rw [waited_finished, running] at finished
    cases finished

/-- An answer that reaps and starts nothing, to a question that says nothing. -/
theorem Kept.quiet (keeps : initUse.Keeps (fun after _ => after.Settled) after work)
    (same : after.main = watch.main ∧ after.seen = watch.seen ∧ after.gone = watch.gone ∧
      after.reports = watch.reports ∧ after.finished = watch.finished)
    (running : watch.finished = none)
    (supervising : watch.supervising = true → after.supervising = true)
    (childless : after.childless = true → watch.gone = true ∧ watch.seen ≠ []) :
    Kept after { system with work } := by
  obtain ⟨main, seen, gone, reports, finished⟩ := same
  refine
    { keeps
      unique := kept.unique
      unstarted := ?_
      account := fun pid started => (kept.account pid (main.symm.trans started)).congr seen gone
      supervising := fun any => supervising (kept.supervising any)
      reports := reports.trans kept.reports
      reported := by rw [reports, seen]; exact kept.reported
      childless := by rw [gone, seen]; exact childless
      finished := fun outcome listed => finished.trans (kept.finished outcome listed)
      finishedWith := fun outcome ended => nomatch (finished.trans running).symm.trans ended }
  intro unstarted
  rw [seen, gone]
  exact kept.unstarted (main.symm.trans unstarted)

theorem Kept.spawning (asks : system.work = .ask .spawn next)
    (free : ∀ child ∈ system.children, child.pid ≠ pid) : Kept { watch with main := some pid }
      { system with work := next (.ok pid), children := ⟨true, pid⟩ :: system.children } := by
  have asked := kept.keeps
  rw [asks] at asked
  obtain ⟨⟨running, unstarted⟩, continues⟩ := asked
  obtain ⟨seen, alive, others, reaped⟩ := kept.unstarted unstarted
  have uncounted : system.reaped.filter (counts pid) = [] := by
    refine List.filter_eq_nil_iff.mpr fun reap listed => ?_
    simp [counts, (reaped reap listed).2, WaitCall.counts]
  have unreaped : system.reaped.filter (·.child.own) = [] := by
    refine List.filter_eq_nil_iff.mpr fun reap listed => ?_
    simp [(reaped reap listed).1]
  refine
    { keeps := continues (.ok pid)
      unique := ?_
      unstarted := fun impossible => absurd impossible (Option.some_ne_none pid)
      account := ?_
      supervising := kept.supervising
      reports := kept.reports
      reported := kept.reported
      childless := kept.childless
      finished := kept.finished
      finishedWith := kept.finishedWith }
  · rw [List.map_cons, List.nodup_cons]
    refine ⟨fun taken => ?_, kept.unique⟩
    obtain ⟨child, member, same⟩ := List.mem_map.mp taken
    exact free child member same
  · rintro _ ⟨⟩
    refine ⟨?_, by rw [uncounted]; exact seen, fun _ => ⟨List.mem_cons_self, unreaped, seen⟩,
      fun gone => absurd (alive.symm.trans gone) Bool.false_ne_true⟩
    intro child member own
    rcases List.mem_cons.mp member with rfl | earlier
    · rfl
    · exact absurd ((others child earlier).symm.trans own) Bool.false_ne_true

theorem Kept.saying {reply : InitReply}
    {next : Except String Unit → Program InitOp InitOp.Answer (Except Stopped Unit)}
    (asks : system.work = .ask (.send reply) next) (answer : Except String Unit) :
    Kept (watch.said reply)
      { system with work := next answer, sent := system.sent ++ [reply] } := by
  have asked := kept.keeps
  rw [asks] at asked
  obtain ⟨⟨running, allowed⟩, continues⟩ := asked
  have account : ∀ pid, (watch.said reply).main = some pid →
      Account pid (watch.said reply)
        { system with work := next answer, sent := system.sent ++ [reply] } := by
    intro pid started
    cases reply <;> exact (kept.account pid started).congr rfl rfl
  have unended : ∀ outcome, .finished outcome ∉ system.sent := by
    intro outcome listed
    exact nomatch running.symm.trans (kept.finished outcome listed)
  cases reply with
  | ready | failed error =>
    exact
      { kept with
        keeps := continues answer
        account
        reports := by
          rw [List.filterMap_append, ← kept.reports]
          exact (List.append_nil _).symm
        finished := by
          intro outcome listed
          rcases mem_concat.mp listed with earlier | new
          · exact absurd earlier (unended outcome)
          · cases new }
  | main outcome =>
    have allowed : watch.reports ++ [outcome] = watch.seen.map mainStatus := allowed
    exact
      { kept with
        keeps := continues answer
        account
        reports := by simp [MainWatch.said, InitReply.mainReport, kept.reports]
        reported := by
          change (watch.reports ++ [outcome]).length ≤ watch.seen.length
          rw [allowed, List.length_map]
        finished := by
          intro outcome listed
          rcases mem_concat.mp listed with earlier | new
          · exact absurd earlier (unended outcome)
          · cases new }
  | finished outcome =>
    obtain ⟨childless, -, same⟩ : watch.childless = true ∧ watch.Reported ∧
      outcome.main = watch.lastSeen := allowed
    exact
      { kept with
        keeps := continues answer
        account
        reports := by
          rw [List.filterMap_append, ← kept.reports]
          exact (List.append_nil _).symm
        finished := by
          intro other listed
          rcases mem_concat.mp listed with earlier | new
          · exact absurd earlier (unended other)
          · cases new
            rfl
        finishedWith := by
          rintro _ ⟨⟩
          exact ⟨childless, same⟩ }

/-- Without children the command's own process was reaped, and seen. -/
theorem Kept.none_left (allowed : watch.Allows (.wait .any))
    (none : ∀ child ∈ system.children, ¬ WaitCall.any.waitsFor child.pid) :
    watch.gone = true ∧ watch.seen ≠ [] := by
  obtain ⟨started, known, -⟩ := allowed
  obtain ⟨pid, main⟩ := Option.isSome_iff_exists.mp started
  have gone : watch.gone = true := by
    rw [← Bool.not_eq_false]
    intro alive
    exact none _ ((kept.account pid main).alive alive).1 trivial
  exact ⟨gone, known gone⟩

theorem Kept.step (step : Step system next) : ∃ watch, Kept watch next := by
  cases step with
  | adopt free => exact ⟨watch, kept.adopt free⟩
  | @ask op answer next children reaped asks answers =>
    have asked := kept.keeps
    rw [asks] at asked
    obtain ⟨⟨running, allowed⟩, continues⟩ := asked
    have keeps := continues answer
    cases answers with
    | spawned free =>
      simp only [InitOp.sent, List.append_nil]
      exact ⟨_, kept.spawning asks free⟩
    | unspawned error =>
      simp only [InitOp.sent, List.append_nil]
      exact ⟨_, kept.quiet keeps ⟨rfl, rfl, rfl, rfl, rfl⟩ running id kept.childless⟩
    | reaped status member waited =>
      simp only [InitOp.sent, List.append_nil]
      exact ⟨_, kept.reaping asks member⟩
    | @childless call none =>
      simp only [InitOp.sent, List.append_nil]
      refine ⟨_, kept.quiet keeps ⟨rfl, rfl, rfl, rfl, rfl⟩ running ?_ ?_⟩
      · exact fun supervising => Bool.or_eq_true_iff.mpr (.inl supervising)
      · intro childless
        rcases Bool.or_eq_true_iff.mp childless with before | now
        · exact kept.childless before
        · cases of_decide_eq_true now
          exact kept.none_left allowed none
    | unreaped call empty =>
      simp only [InitOp.sent, List.append_nil]
      rcases empty with rfl | rfl | ⟨error, rfl⟩ <;>
      exact ⟨_, kept.quiet keeps ⟨rfl, rfl, rfl, rfl, rfl⟩ running
        (fun supervising => Bool.or_eq_true_iff.mpr (.inl supervising)) kept.childless⟩
    | other _ apart =>
      rw [List.append_nil]
      cases op with
      | spawn | wait call => cases apart
      | send reply => exact ⟨_, kept.saying asks answer⟩
      | _ =>
        simp only [InitOp.sent, List.append_nil]
        exact ⟨_, kept.quiet keeps ⟨rfl, rfl, rfl, rfl, rfl⟩ running id kept.childless⟩

/-- The command's own process among the reaped, and the account it starts. -/
theorem Kept.ended (gone : watch.gone = true) :
    ∃ pid, Account pid watch system ∧ ∃ main, system.reaped.filter (·.child.own) = [main] ∧
      main.child.pid = pid ∧
      (watch.seen = [] ∨ ∃ rest, system.reaped.filter (counts pid) = main :: rest ∧
        ∀ reap ∈ rest, reap.child.own = false ∧ reap.call = .any) := by
  cases started : watch.main with
  | none => exact nomatch (kept.unstarted started).2.1.symm.trans gone
  | some pid =>
    have account := kept.account pid started
    exact ⟨pid, account, (account.ended gone).2⟩

/-- Without a reused number at most one end was seen, the command's own. -/
theorem Kept.seen_of_unmixed (unmixed : system.Unmixed) (gone : watch.gone = true)
    (known : watch.seen ≠ []) : ∃ status, watch.seen = [status] ∧ system.mainEnd = some status := by
  obtain ⟨pid, account, main, own, number, ends⟩ := kept.ended gone
  obtain ⟨rest, first, later⟩ := ends.resolve_left known
  have alone : rest = [] := by
    refine List.eq_nil_iff_forall_not_mem.mpr fun reap member => ?_
    obtain ⟨foreign, any⟩ := later reap member
    have listed : reap ∈ system.reaped.filter (counts pid) := by
      rw [first]
      exact List.mem_cons_of_mem _ member
    obtain ⟨present, counted⟩ := List.mem_filter.mp listed
    simp only [counts, Bool.and_eq_true, decide_eq_true_eq] at counted
    obtain ⟨mainPresent, mainOwn⟩ := mem_of_filter_own own
    have mixed := unmixed main mainPresent mainOwn reap present any (counted.1.trans number.symm)
    exact nomatch foreign.symm.trans mixed
  refine ⟨main.status, ?_, ?_⟩
  · rw [account.seen, first, alone]
    rfl
  · rw [mainEnd, ← List.head?_filter, own]
    rfl

theorem Kept.mainKept (unmixed : system.Unmixed) : system.MainKept := by
  refine ⟨?_, ?_⟩
  · rw [← kept.reports]
    refine Nat.le_trans kept.reported ?_
    by_cases known : watch.seen = []
    · rw [known]
      exact Nat.zero_le 1
    · have gone : watch.gone = true := by
        rw [← Bool.not_eq_false]
        intro alive
        cases started : watch.main with
        | none => exact known (kept.unstarted started).1
        | some pid => exact known ((kept.account pid started).alive alive).2.2
      obtain ⟨status, seen, -⟩ := kept.seen_of_unmixed unmixed gone known
      rw [seen]
      exact Nat.le_refl 1
  · intro outcome listed
    obtain ⟨childless, last⟩ := kept.finishedWith _ (kept.finished outcome listed)
    obtain ⟨gone, known⟩ := kept.childless childless
    obtain ⟨status, seen, ended⟩ := kept.seen_of_unmixed unmixed gone known
    rw [ended, last, MainWatch.lastSeen, seen]
    rfl

theorem Kept.gone_of_own (present : main ∈ system.reaped) (own : main.child.own = true) :
    watch.gone = true := by
  rw [← Bool.not_eq_false]
  intro alive
  cases started : watch.main with
  | none => exact nomatch ((kept.unstarted started).2.2.2 main present).1.symm.trans own
  | some pid =>
    have unreaped := ((kept.account pid started).alive alive).2.1
    exact List.filter_eq_nil_iff.mp unreaped main present own

/-- A reused number makes a second report. -/
theorem Kept.unmixed (settled : watch.Settled) (mainKept : system.MainKept) : system.Unmixed := by
  intro main present own reap listed any number
  rw [← Bool.not_eq_false]
  intro foreign
  obtain ⟨pid, account, first, only, firstNumber, ends⟩ := kept.ended (kept.gone_of_own present own)
  have same : main = first := by
    have member : main ∈ system.reaped.filter (·.child.own) := List.mem_filter.mpr ⟨present, own⟩
    rw [only] at member
    exact List.mem_singleton.mp member
  have counted : reap ∈ system.reaped.filter (counts pid) := by
    refine List.mem_filter.mpr ⟨listed, ?_⟩
    simp [counts, any, WaitCall.counts, number, same, firstNumber]
  have known : watch.seen ≠ [] := by
    rw [account.seen]
    exact fun empty => List.ne_nil_of_mem counted (List.map_eq_nil_iff.mp empty)
  obtain ⟨rest, starts, -⟩ := ends.resolve_left known
  have later : reap ∈ rest := by
    rw [starts] at counted
    rcases List.mem_cons.mp counted with rfl | later
    · exact absurd (foreign.symm.trans (mem_of_filter_own only).2) Bool.false_ne_true
    · exact later
  -- Every end that was seen was reported, and there are two.
  have reported : watch.reports = watch.seen.map mainStatus :=
    settled (kept.supervising ⟨reap, listed, any⟩)
  have once := mainKept.1
  rw [← kept.reports, reported, account.seen, starts] at once
  have positive := List.length_pos_of_mem later
  simp only [List.map_cons, List.length_cons, List.length_map] at once
  omega

end Steps

theorem kept_of_reaches (reaches : Reaches (initial count) system) : ∃ watch, Kept watch system := by
  induction reaches with
  | refl => exact ⟨_, kept_initial count⟩
  | tail _ step ih =>
    obtain ⟨watch, kept⟩ := ih
    exact kept.step step

/-- The main command's result is reported once and the run finishes with it, unless a descendant
reaped by the loop got its number after it; once init ended, that is the only way to lose it. -/
theorem mainKept_iff_unmixed (reaches : Reaches (initial count) system) :
    (system.Unmixed → system.MainKept) ∧
      ∀ result, system.work = .done result → (system.MainKept ↔ system.Unmixed) := by
  obtain ⟨watch, kept⟩ := kept_of_reaches reaches
  refine ⟨kept.mainKept, fun result ended => ⟨?_, kept.mainKept⟩⟩
  have settled := kept.keeps
  rw [ended] at settled
  exact kept.unmixed settled

def ordinaryRequest : InitRequest := { graceMs := 10000, guards := [], limited := false }

/-- The command got number 5, was executed, exited with 7, and that was retained. -/
def mainRetained : InitSystem where
  work := (do
    let loop ← Supervised.beginStopping { main := .exited 7 }
    Program.tryRounds (Supervised.round 3 5 10000) .unfinished 2 loop : InitWork Unit).run
  reaped := [⟨.any, ⟨true, 5⟩, 7 * 256⟩]
  sent := [.ready, .main (.exited 7)]

theorem reaches_mainRetained : Reaches (initial 3) mainRetained := by
  have reaches := (Relation.ReflTransGen.refl : Reaches (initial 3) (initial 3))
    |>.tail (.ask rfl (.other .recvRequest rfl (Except.ok (ordinaryRequest, false))))
    |>.tail (.ask rfl (.other .restore rfl (Except.ok ())))
    |>.tail (.ask rfl (.other (.kill .kill) rfl ()))
    |>.tail (.ask rfl (.childless (by exact nofun)))
    |>.tail (.ask rfl (.other .validate rfl (Except.ok ())))
    |>.tail (.ask rfl (@Answers.spawned _ 5 (by exact nofun)))
    |>.tail (.ask rfl (.other .initIdentity rfl (Except.ok 1)))
    |>.tail (.ask rfl (.other (.executableIdentity 5) rfl (Except.ok 2)))
    |>.tail (.ask rfl (.other (.send .ready) rfl (Except.ok ())))
    |>.tail (.ask rfl (.reaped (7 * 256) List.mem_cons_self trivial))
    |>.tail (.ask rfl (.other (.send (.main (.exited 7))) rfl (Except.ok ())))
    |>.tail (.ask rfl (.other .recvControl rfl (Except.ok (.mainRetained, false))))
  exact reaches

/-- A descendant with another number ends after the command, and the run finishes with the
command's result. -/
theorem mainRetained_finishes : ∃ system, Reaches (initial 3) system ∧
    system.work = .done (.ok ()) ∧ system.MainKept := by
  have reaches := reaches_mainRetained
    |>.tail (.ask rfl (.other .now rfl (0 : Nat)))
    |>.tail (.ask rfl (.other (.kill .term) rfl ()))
    |>.tail (@Step.adopt _ 6 (by exact nofun))
    |>.tail (.ask rfl (.reaped 0 List.mem_cons_self trivial))
    |>.tail (.ask rfl (.childless (by exact nofun)))
    |>.tail (.ask rfl (.other (.send (.finished ⟨.exited 7, .completed, .notApplicable,
      .confirmedReaped, []⟩)) rfl (Except.ok ())))
  refine ⟨_, reaches, rfl, (mainKept_iff_unmixed reaches).1 ?_⟩
  intro main present own reap listed any number
  rcases List.mem_pair.mp present with rfl | rfl
  · rcases List.mem_pair.mp listed with rfl | rfl
    · rfl
    · cases number
  · cases own

/-- A descendant gets number 5 after the command was reaped, and exits with 0: it is reported
in the command's place, and the run finishes with its result. -/
theorem reused_number_reported : ∃ system, Reaches (initial 3) system ∧
    system.work = .done (.ok ()) ∧ system.mainEnd = some (7 * 256) ∧
    system.sent.filterMap InitReply.mainReport = [.exited 7, .exited 0] ∧
    ¬ system.MainKept := by
  have reaches := reaches_mainRetained
    |>.tail (.ask rfl (.other .now rfl (0 : Nat)))
    |>.tail (.ask rfl (.other (.kill .term) rfl ()))
    |>.tail (@Step.adopt _ 5 (by exact nofun))
    |>.tail (.ask rfl (.reaped 0 List.mem_cons_self trivial))
    |>.tail (.ask rfl (.other (.send (.main (.exited 0))) rfl (Except.ok ())))
    |>.tail (.ask rfl (.other .recvControl rfl (Except.ok (.mainRetained, false))))
    |>.tail (.ask rfl (.childless (by exact nofun)))
    |>.tail (.ask rfl (.other (.send (.finished ⟨.exited 0, .completed, .notApplicable,
      .confirmedReaped, []⟩)) rfl (Except.ok ())))
  refine ⟨_, reaches, rfl, rfl, rfl, ?_⟩
  rintro ⟨once, -⟩
  exact absurd once (by decide)

end InitSystem

end Kakoi
