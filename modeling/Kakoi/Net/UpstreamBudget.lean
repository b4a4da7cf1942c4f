import Kakoi.Net.AuthorizedNames
import Mathlib.Algebra.GroupWithZero.Nat
import Mathlib.Logic.Relation

/-! The upstream queries of every resolution over all its dispatches by the DNS runtime. -/

namespace Kakoi

open Std (ExtTreeMap)

/-- A question handed to a worker, kept to ask again with the same deadline and what is left of the
same query count: `queries` is the place of that count. -/
structure DnsRuntime.Asked where
  wire : Wire
  deadline : Instant
  queries : Nat

/-- A worker thread, with everything it asked so far. -/
structure ResolutionWorker where
  id : Nat
  asked : DnsRuntime.Asked
  work : Upstream (Except DnsError PreparedAnswer)
  events : List (Program.Event UpstreamOp UpstreamOp.Answer) := []

/-- The runtime without what it answers: completing a question is left to the requests. -/
structure DnsRuntime where
  /-- The tasks of the service that were not taken yet. -/
  tasks : List (Nat × Instant)
  resolver : UpstreamResolver
  scope : AddressContext
  limits : NetworkLimits
  inflight : ExtTreeMap Nat DnsRuntime.Asked := ∅
  adopting : ExtTreeMap Nat DnsRuntime.Asked := ∅
  /-- Workers whose settings were replaced; their results are never used. -/
  retired : List Nat := []
  /-- What is left of every query count that was made. -/
  allowances : List Nat := []
  /-- Every thread that was started. -/
  threads : List ResolutionWorker := []
  /-- Noted for the proofs: every task that was taken. -/
  admitted : List (Nat × DnsRuntime.Asked) := []

namespace DnsRuntime

section Controller

variable (idna : Idna) (hickory : Hickory) (runtime : DnsRuntime)

/-- The thread that asks a question under the settings of the time. -/
def thread (id : Nat) (asked : Asked) : ResolutionWorker :=
  { id, asked
    work := runtime.resolver.prepareSharing idna hickory asked.wire asked.deadline runtime.scope }

/-- A question is answered at once, as failed, when its deadline has come or no worker `starts`. -/
def dispatch (id : Nat) (asked : Asked) (now : Instant) (starts : Bool) : DnsRuntime :=
  if asked.deadline ≤ now || !starts then runtime
  else { runtime with
    threads := runtime.threads ++ [runtime.thread idna hickory id asked]
    inflight := runtime.inflight.insert id asked }

/-- The host's DNS configuration changed. -/
def follow (resolver : UpstreamResolver) : DnsRuntime :=
  { runtime with
    resolver, retired := runtime.retired ++ runtime.inflight.keys ++ runtime.adopting.keys }

/-- One round of `collect_adoptions`: what was adopted under replaced settings is asked again. -/
def collectAdoption (id : Nat) (now : Instant) (starts : Bool) : DnsRuntime :=
  let after := { runtime with
    adopting := runtime.adopting.erase id, retired := runtime.retired.filter (· ≠ id) }
  match runtime.adopting[id]?, runtime.retired.contains id with
  | some asked, true => after.dispatch idna hickory id asked now starts
  | _, _ => after

/-- One round of `collect_workers`, for a worker with a candidate that adoption takes or not. -/
def collectWorker (id : Nat) (now : Instant) (starts submitted : Bool) : DnsRuntime :=
  let after := { runtime with
    inflight := runtime.inflight.erase id, retired := runtime.retired.filter (· ≠ id) }
  match runtime.inflight[id]?, runtime.retired.contains id with
  | some asked, true => after.dispatch idna hickory id asked now starts
  | some asked, false =>
    if submitted then { after with adopting := after.adopting.insert id asked } else after
  | none, _ => after

/-- One round of `admit_new`: a task is dispatched with a query count of its own. -/
def admitNew (wire : Wire) (now : Instant) (starts : Bool) : DnsRuntime :=
  match runtime.tasks with
  | [] => runtime
  | (id, deadline) :: tasks =>
    let asked : Asked := { wire, deadline, queries := runtime.allowances.length }
    { runtime with
      tasks
      allowances := runtime.allowances ++ [runtime.limits.dnsMaxUpstreamQueries]
      admitted := runtime.admitted ++ [(id, asked)] }.dispatch idna hickory id asked now starts

end Controller

end DnsRuntime

/-- What an event sent: the channel, the peer and the deadline of the exchange. -/
def sentQuery (event : Program.Event UpstreamOp UpstreamOp.Answer) :
    Option (Channel × Peer × Instant) :=
  match event.1 with
  | .exchange channel peer _ deadline => some (channel, peer, deadline)
  | _ => none

namespace ResolutionWorker

variable (worker : ResolutionWorker)

/-- The queries that a worker sent, in order. -/
def sent : List (Channel × Peer × Instant) :=
  worker.events.filterMap sentQuery

def goOn (op : UpstreamOp) (answer : op.Answer)
    (work : Upstream (Except DnsError PreparedAnswer)) : ResolutionWorker :=
  { worker with work, events := worker.events ++ [⟨op, answer⟩] }

/-- The state of a worker's use of its upstreams. -/
def use : Use :=
  (upstreamUse worker.asked.wire worker.asked.deadline).after {} worker.events

end ResolutionWorker

namespace DnsRuntime

/-- The answers to a question, and what they leave of the allowance. A query is taken
atomically; the surroundings answer the rest as they like. -/
inductive Answers (left : Nat) : (op : UpstreamOp) → op.Answer → Nat → Prop where
  | taken (some : 0 < left) : Answers left .take true (left - 1)
  | refused (none : left = 0) : Answers left .take false left
  | other (op : UpstreamOp) (answer : op.Answer) (other : op ≠ .take) : Answers left op answer left

section System

variable (idna : Idna) (hickory : Hickory)

/-- A round of the controller, or a thread that goes on and takes from its own count. -/
inductive Step (runtime : DnsRuntime) : DnsRuntime → Prop where
  | follow (resolver : UpstreamResolver) : Step runtime (runtime.follow resolver)
  | adoption (id : Nat) (now : Instant) (starts : Bool) :
      Step runtime (runtime.collectAdoption idna hickory id now starts)
  | worker (id : Nat) (now : Instant) (starts submitted : Bool) :
      Step runtime (runtime.collectWorker idna hickory id now starts submitted)
  | admitNew (wire : Wire) (now : Instant) (starts : Bool) :
      Step runtime (runtime.admitNew idna hickory wire now starts)
  | act {op : UpstreamOp} {next : op.Answer → Upstream (Except DnsError PreparedAnswer)}
      {answer : op.Answer} (place : runtime.threads = before ++ worker :: after)
      (asking : worker.work = .ask op next)
      (counted : runtime.allowances[worker.asked.queries]? = some left)
      (answers : Answers left op answer rest) :
      Step runtime { runtime with
        allowances := runtime.allowances.set worker.asked.queries rest
        threads := before ++ worker.goOn op answer (next answer) :: after }

def Reaches : DnsRuntime → DnsRuntime → Prop :=
  Relation.ReflTransGen (Step idna hickory)

/-- A TCP query follows a UDP query to the same peer, and does not last longer. -/
def Follows (sent : List (Channel × Peer × Instant)) : Prop :=
  ∀ before query after, sent = before ++ query :: after → query.1 = .tcp →
    ∃ earlier deadline, before = earlier ++ [(.udp, query.2.1, deadline)] ∧ query.2.2 ≤ deadline

/-- A worker stays within the use of its upstreams. -/
structure WorkerKept (worker : ResolutionWorker) : Prop where
  keeps : (upstreamUse worker.asked.wire worker.asked.deadline).Keeps (fun _ _ => True) worker.use
    worker.work
  last : worker.use.last = worker.sent.getLast?
  within : ∀ query ∈ worker.sent, query.2.2 ≤ worker.asked.deadline
  follows : Follows worker.sent

/-- What the workers with one count sent, and reserved without having sent it. -/
def spent (workers : List ResolutionWorker) (place : Nat) : Nat :=
  ((workers.filter (·.asked.queries = place)).map fun worker =>
    worker.sent.length + worker.use.credit).sum

/-- The tasks that were taken, or are left, are those of the service; each has a count of its own,
and what is asked again is what was asked. -/
structure Kept (started : List (Nat × Instant)) (limits : NetworkLimits) (runtime : DnsRuntime) :
    Prop where
  configured : runtime.limits = limits
  taken : started = runtime.admitted.map (fun entry => (entry.1, entry.2.deadline)) ++ runtime.tasks
  counted : ∀ entry ∈ runtime.admitted, entry.2.queries < runtime.allowances.length
  flying : ∀ id asked, runtime.inflight[id]? = some asked → (id, asked) ∈ runtime.admitted
  handed : ∀ id asked, runtime.adopting[id]? = some asked → (id, asked) ∈ runtime.admitted
  working : ∀ worker ∈ runtime.threads, (worker.id, worker.asked) ∈ runtime.admitted
  each : ∀ worker ∈ runtime.threads, WorkerKept worker
  shared : ∀ place left, runtime.allowances[place]? = some left →
    spent runtime.threads place + left ≤ limits.dnsMaxUpstreamQueries

variable {idna hickory} {worker : ResolutionWorker} {op : UpstreamOp}

theorem use_goOn : (worker.goOn op answer work).use =
    (upstreamUse worker.asked.wire worker.asked.deadline).update worker.use op answer := by
  simp [ResolutionWorker.use, ResolutionWorker.goOn, Monitor.after]

theorem sent_goOn : (worker.goOn op answer work).sent =
    worker.sent ++ (sentQuery ⟨op, answer⟩).toList := by
  cases sends : sentQuery ⟨op, answer⟩ <;>
    simp [ResolutionWorker.sent, ResolutionWorker.goOn, sends]

theorem Follows.concat (follows : Follows sent)
    (last : query.1 = .tcp → ∃ deadline, sent.getLast? = some (.udp, query.2.1, deadline) ∧
      query.2.2 ≤ deadline) : Follows (sent ++ [query]) := by
  intro before other after split tcp
  rcases List.eq_nil_or_concat after with rfl | ⟨later, final, rfl⟩
  · obtain ⟨rfl, rfl⟩ : sent = before ∧ query = other := by simpa using split
    obtain ⟨deadline, latest, early⟩ := last tcp
    obtain ⟨earlier, rfl⟩ := List.getLast?_eq_some_iff.mp latest
    exact ⟨earlier, deadline, rfl, early⟩
  · have inside : sent = before ++ other :: later := by
      have parts : sent ++ [query] = (before ++ other :: later) ++ [final] := by simpa using split
      exact (List.append_inj' parts rfl).1
    exact follows before other later inside tcp

/-- What is not an exchange leaves the last query as it was. -/
theorem update_last {use : Use} (quiet : sentQuery ⟨op, answer⟩ = none) :
    ((upstreamUse wire limit).update use op answer).last = use.last := by
  cases op with
  | exchange => cases quiet
  | take =>
    cases (answer : Bool) with
    | false => rfl
    | true => rfl
  | now | isCancelled | randomId | route => rfl

/-- A worker that is answered goes on within its use. -/
theorem WorkerKept.goOn (kept : WorkerKept worker) (asking : worker.work = .ask op next)
    (answer : op.Answer) : WorkerKept (worker.goOn op answer (next answer)) := by
  have keeps := kept.keeps
  rw [asking] at keeps
  obtain ⟨allowed, goes⟩ := keeps
  have judged : (upstreamUse worker.asked.wire worker.asked.deadline).Keeps (fun _ _ => True)
      (worker.goOn op answer (next answer)).use (next answer) := by
    rw [use_goOn]
    exact goes answer
  have sent : (worker.goOn op answer (next answer)).sent =
      worker.sent ++ (sentQuery ⟨op, answer⟩).toList := sent_goOn
  cases sends : sentQuery ⟨op, answer⟩ with
  | none =>
    rw [sends, Option.toList_none, List.append_nil] at sent
    refine ⟨judged, ?_, sent ▸ kept.within, sent ▸ kept.follows⟩
    rw [use_goOn, update_last sends, sent]
    exact kept.last
  | some query =>
    rw [sends, Option.toList_some] at sent
    cases op with
    | now | isCancelled | take | randomId | route => cases sends
    | exchange channel peer request deadline =>
      cases sends
      obtain ⟨-, within, -, tcp⟩ := allowed
      refine ⟨judged, ?_, fun query member => ?_, ?_⟩
      · rw [sent, List.getLast?_concat, use_goOn]
        rfl
      · rw [sent] at member
        rcases mem_concat.mp member with old | rfl
        · exact kept.within query old
        · exact within
      · rw [sent]
        exact kept.follows.concat fun isTcp => kept.last ▸ tcp isTcp

/-- A worker only sends what it reserved. -/
theorem WorkerKept.spends (kept : WorkerKept worker) (asking : worker.work = .ask op next)
    (answers : Answers left op answer rest) :
    (worker.goOn op answer (next answer)).sent.length +
        (worker.goOn op answer (next answer)).use.credit + rest =
      worker.sent.length + worker.use.credit + left := by
  rw [sent_goOn, use_goOn]
  cases answers with
  | taken some =>
    simp only [sentQuery, Option.toList_none, List.append_nil, upstreamUse, Use.reserve, ite_true]
    omega
  | refused none => simp [sentQuery, upstreamUse, Use.reserve]
  | other op answer other =>
    cases op with
    | exchange channel peer request deadline =>
      have keeps := kept.keeps
      rw [asking] at keeps
      have paid : 0 < worker.use.credit := keeps.1.1
      simp only [sentQuery, Option.toList_some, List.length_append, List.length_singleton,
        upstreamUse, Use.send]
      omega
    | take => exact absurd rfl other
    | now | isCancelled | randomId | route => simp [sentQuery, upstreamUse]

variable {runtime : DnsRuntime} {limits : NetworkLimits}

theorem WorkerKept.fresh (number : Nat) (asked : Asked) :
    WorkerKept (runtime.thread idna hickory number asked) := by
  refine ⟨(prepareSharing_use (Nat.le_refl _) _).mono fun _ _ _ => trivial, rfl, nofun, ?_⟩
  intro before query after split
  simp [ResolutionWorker.sent, DnsRuntime.thread] at split

/-- What is left in a map after one is taken out was there. -/
theorem erase_found {map : ExtTreeMap Nat Asked} {other : Nat}
    (found : (map.erase number)[other]? = some asked) : map[other]? = some asked := by
  rw [ExtTreeMap.getElem?_erase] at found
  split at found
  · cases found
  · exact found

theorem insert_found {map : ExtTreeMap Nat Asked} {other : Nat} {admitted : List (Nat × Asked)}
    (member : (number, asked) ∈ admitted)
    (before : map[other]? = some known → (other, known) ∈ admitted)
    (found : (map.insert number asked)[other]? = some known) : (other, known) ∈ admitted := by
  rw [ExtTreeMap.getElem?_insert] at found
  split at found
  · rename_i same
    obtain rfl := Std.LawfulEqCmp.eq_of_compare same
    cases found
    exact member
  · exact before found

/-- A dispatched worker takes from the count its question was given. -/
theorem Kept.dispatch (kept : Kept started limits runtime)
    (member : (number, asked) ∈ runtime.admitted) (now : Instant) (starts : Bool) :
    Kept started limits (runtime.dispatch idna hickory number asked now starts) := by
  unfold DnsRuntime.dispatch
  split
  · exact kept
  have nothing (place : Nat) : spent [runtime.thread idna hickory number asked] place = 0 := by
    rw [spent, List.filter_singleton]
    cases decide ((runtime.thread idna hickory number asked).asked.queries = place) <;> rfl
  refine { kept with
    flying := fun other known => insert_found member (kept.flying other known)
    working := fun worker started => ?_, each := fun worker started => ?_
    shared := fun place left found => ?_ }
  · rcases mem_concat.mp started with old | rfl
    · exact kept.working worker old
    · exact member
  · rcases mem_concat.mp started with old | rfl
    · exact kept.each worker old
    · exact .fresh ..
  · have shared := kept.shared place left found
    have nothing := nothing place
    simp only [spent, List.filter_append, List.map_append, List.sum_append] at nothing shared ⊢
    omega

theorem Kept.collectAdoption (kept : Kept started limits runtime) (number : Nat) (now : Instant)
    (starts : Bool) :
    Kept started limits (runtime.collectAdoption idna hickory number now starts) := by
  have taken : Kept started limits { runtime with
      adopting := runtime.adopting.erase number, retired := runtime.retired.filter (· ≠ number) } :=
    { kept with handed := fun _ _ found => kept.handed _ _ (erase_found found) }
  unfold DnsRuntime.collectAdoption
  split
  · rename_i found _
    exact taken.dispatch (kept.handed _ _ found) now starts
  · exact taken

theorem Kept.collectWorker (kept : Kept started limits runtime) (number : Nat) (now : Instant)
    (starts submitted : Bool) :
    Kept started limits (runtime.collectWorker idna hickory number now starts submitted) := by
  have taken : Kept started limits { runtime with
      inflight := runtime.inflight.erase number, retired := runtime.retired.filter (· ≠ number) } :=
    { kept with flying := fun _ _ found => kept.flying _ _ (erase_found found) }
  unfold DnsRuntime.collectWorker
  dsimp only
  split
  · rename_i found _
    exact taken.dispatch (kept.flying _ _ found) now starts
  · rename_i found _
    split
    · refine { taken with handed := fun other known => ?_ }
      exact insert_found (kept.flying _ _ found) (kept.handed other known)
    · exact taken
  · exact taken

/-- A new question is given a count of its own, as large as the limit. -/
theorem Kept.admitNew (kept : Kept started limits runtime) (wire : Wire) (now : Instant)
    (starts : Bool) : Kept started limits (runtime.admitNew idna hickory wire now starts) := by
  unfold DnsRuntime.admitNew
  split
  · exact kept
  rename_i number deadline tasks listed
  refine Kept.dispatch ?_ (mem_concat.mpr (.inr rfl)) now starts
  refine { kept with
    taken := ?_, counted := ?_, shared := ?_
    flying := fun _ _ found => List.mem_append_left _ (kept.flying _ _ found)
    handed := fun _ _ found => List.mem_append_left _ (kept.handed _ _ found)
    working := fun worker member => List.mem_append_left _ (kept.working worker member) }
  · simp [kept.taken, listed]
  · intro entry member
    rw [List.length_append, List.length_singleton]
    rcases mem_concat.mp member with old | rfl
    · exact Nat.lt_succ_of_lt (kept.counted entry old)
    · exact Nat.lt_succ_self _
  · intro place left found
    rcases Nat.lt_trichotomy place runtime.allowances.length with before | rfl | after
    · rw [List.getElem?_append_left before] at found
      exact kept.shared place left found
    · have unused : runtime.threads.filter (·.asked.queries = runtime.allowances.length) = [] := by
        refine List.filter_eq_nil_iff.mpr fun worker member => ?_
        simpa using Nat.ne_of_lt (kept.counted _ (kept.working worker member))
      rw [List.getElem?_concat_length, Option.some.injEq, kept.configured] at found
      simp [spent, unused, found]
    · rw [List.getElem?_eq_none (by rw [List.length_append]; exact after)] at found
      cases found

/-- What one worker takes is spent from its own count, and from no other. -/
theorem spent_goOn {next : op.Answer → Upstream (Except DnsError PreparedAnswer)}
    (kept : WorkerKept worker) (asking : worker.work = .ask op next)
    (answers : Answers left op answer rest) (before after : List ResolutionWorker) (place : Nat) :
    spent (before ++ worker.goOn op answer (next answer) :: after) place +
        (if worker.asked.queries = place then rest else 0) =
      spent (before ++ worker :: after) place +
        (if worker.asked.queries = place then left else 0) := by
  have spends := kept.spends asking answers
  have same : (worker.goOn op answer (next answer)).asked = worker.asked := rfl
  simp only [spent, List.filter_append, List.filter_cons, same, List.map_append, List.sum_append]
  by_cases own : worker.asked.queries = place
  · simp only [own, decide_true, if_true, List.map_cons, List.sum_cons]
    omega
  · simp [own]

theorem Kept.step (kept : Kept started limits runtime) (step : Step idna hickory runtime after) :
    Kept started limits after := by
  cases step with
  | follow resolver => exact { kept with }
  | adoption number now starts => exact kept.collectAdoption number now starts
  | worker number now starts submitted => exact kept.collectWorker number now starts submitted
  | admitNew wire now starts => exact kept.admitNew wire now starts
  | @act before worker after left rest op next answer place asking counted answers =>
    have member : worker ∈ runtime.threads := by simp [place]
    have others : ∀ other ∈ before ++ worker.goOn op answer (next answer) :: after,
        other = worker.goOn op answer (next answer) ∨ other ∈ runtime.threads := by
      intro other inside
      rw [place]
      simp only [List.mem_append, List.mem_cons] at inside ⊢
      tauto
    refine { kept with
      counted := by simpa only [List.length_set] using kept.counted
      working := fun other inside => ?_, each := fun other inside => ?_
      shared := fun number remains found => ?_ }
    · rcases others other inside with rfl | old
      · exact kept.working worker member
      · exact kept.working other old
    · rcases others other inside with rfl | old
      · exact (kept.each worker member).goOn asking answer
      · exact kept.each other old
    · dsimp only at found ⊢
      have balance := spent_goOn (kept.each worker member) asking answers before after number
      rw [← place] at balance
      rw [List.getElem?_set] at found
      by_cases own : worker.asked.queries = number
      · subst own
        have shared := kept.shared _ _ counted
        simp only [ite_true, Option.ite_none_right_eq_some, Option.some.injEq] at found balance
        omega
      · have shared := kept.shared number remains (by simpa only [own, if_false] using found)
        simp only [own, if_false] at balance
        omega

theorem Kept.reaches (kept : Kept started limits runtime)
    (reaches : Reaches idna hickory runtime after) : Kept started limits after := by
  induction reaches with
  | refl => exact kept
  | tail _ step ih => exact ih.step step

theorem sent_le_spent {workers : List ResolutionWorker}
    (own : ∀ worker ∈ workers, worker.id = number → worker.asked.queries = place) :
    ((workers.filter (·.id = number)).map fun worker => worker.sent.length).sum ≤
      spent workers place := by
  induction workers with
  | nil => exact Nat.le_refl _
  | cons worker workers ih =>
    have rest := ih fun other member => own other (List.mem_cons_of_mem _ member)
    have first := own worker List.mem_cons_self
    by_cases same : worker.id = number
    · simp only [spent, List.filter_cons, same, first same, decide_true, if_true, List.map_cons,
        List.sum_cons] at rest ⊢
      omega
    · by_cases shares : worker.asked.queries = place <;>
        simp only [spent, List.filter_cons, same, shares, decide_true, decide_false, if_true,
          Bool.false_eq_true, if_false, List.map_cons, List.sum_cons] at rest ⊢ <;> omega

/-- Ids are given once, so workers of one id ask with the same count. -/
theorem Kept.bounded (kept : Kept started limits runtime) (once : (started.map Prod.fst).Nodup)
    (number : Nat) :
    ((runtime.threads.filter (·.id = number)).map fun worker => worker.sent.length).sum ≤
      limits.dnsMaxUpstreamQueries := by
  rw [kept.taken, List.map_append, List.map_map] at once
  by_cases any : ∃ worker ∈ runtime.threads, worker.id = number
  · obtain ⟨worker, member, rfl⟩ := any
    have counted := kept.counted _ (kept.working worker member)
    have shared := kept.shared _ _ (List.getElem?_eq_getElem counted)
    refine Nat.le_trans (sent_le_spent fun other inside same => ?_)
      (Nat.le_trans (Nat.le_add_right ..) shared)
    have pair := List.inj_on_of_nodup_map (List.nodup_append.mp once).1 (kept.working other inside)
      (kept.working worker member) same
    rw [(Prod.mk.inj pair).2]
  · have none : runtime.threads.filter (·.id = number) = [] := by
      refine List.filter_eq_nil_iff.mpr fun worker member => ?_
      simpa using fun same => any ⟨worker, member, same⟩
    simp [none]

/-- However often a resolution is dispatched, and however its workers interleave, they send no more
queries than it may; none outlasts the deadline it was started with, and a retry over TCP does not
outlast the attempt over UDP that it follows. -/
theorem upstream_queries_bounded {initial : DnsRequests hickory ω} (idna : Idna) (hold : Duration)
    (made : DnsRequests.new policy generation maxResolutions maxWaiters timeout = .ok initial)
    (ops : List (RequestOp ω)) (resolver : UpstreamResolver) (scope : AddressContext)
    (limits : NetworkLimits) :
    let started := ((initial.withFailureHold hold).run idna ops).2.started
    ∀ runtime, Reaches idna hickory { tasks := started, resolver, scope, limits } runtime →
      (∀ id, ((runtime.threads.filter (·.id = id)).map fun worker => worker.sent.length).sum ≤
        limits.dnsMaxUpstreamQueries) ∧
      ∀ worker ∈ runtime.threads, ∃ deadline, (worker.id, deadline) ∈ started ∧
        (∀ query ∈ worker.sent, query.2.2 ≤ deadline) ∧ Follows worker.sent := by
  intro started runtime reaches
  have kept : Kept started limits runtime := by
    refine Kept.reaches ⟨rfl, rfl, ?_, ?_, ?_, ?_, ?_, ?_⟩ reaches <;> simp
  have once : (started.map Prod.fst).Nodup :=
    ((DnsRequests.new_accounted made hold).1.run idna ops).once
  refine ⟨kept.bounded once, fun worker member => ?_⟩
  have inside : (worker.id, worker.asked.deadline) ∈ started := by
    rw [kept.taken]
    exact List.mem_append_left _ (List.mem_map.mpr ⟨_, kept.working worker member, rfl⟩)
  exact ⟨_, inside, (kept.each worker member).within, (kept.each worker member).follows⟩

/-- The last thread goes on under fixed answers. -/
def actLast (respond : Nat → (op : UpstreamOp) → op.Answer × Nat) (runtime : DnsRuntime) :
    DnsRuntime :=
  match runtime.threads.getLast? with
  | none => runtime
  | some worker =>
    match worker.work, runtime.allowances[worker.asked.queries]? with
    | .ask op next, some left =>
      let (answer, rest) := respond left op
      { runtime with
        allowances := runtime.allowances.set worker.asked.queries rest
        threads := runtime.threads.dropLast ++ [worker.goOn op answer (next answer)] }
    | _, _ => runtime

theorem reaches_actLast {respond : Nat → (op : UpstreamOp) → op.Answer × Nat}
    (answers : ∀ left op, Answers left op (respond left op).1 (respond left op).2)
    (times : Nat) (runtime : DnsRuntime) :
    Reaches idna hickory runtime ((actLast respond)^[times] runtime) := by
  induction times generalizing runtime with
  | zero => exact .refl
  | succ times ih =>
    refine Relation.ReflTransGen.trans ?_ (ih _)
    unfold actLast
    split
    · exact .refl
    rename_i worker last
    split
    · rename_i asking found
      have place := (List.dropLast_append_getLast? worker last).symm
      exact .single (.act place asking found (answers ..))
    · exact .refl

end System

/-- An upstream whose replies over UDP are truncated. -/
def truncating (left : Nat) : (op : UpstreamOp) → op.Answer × Nat
  | .take => (decide (0 < left), left - 1)
  | .exchange .udp .. =>
    (some (PlainLibrary.message.encode { answeredWith 97 [] with
      metadata := { (answeredWith 97 []).metadata with truncation := true } }, (0 : Nat)), left)
  | op => ((answeringAtOnce () op).1, left)

theorem truncating_answers (left : Nat) (op : UpstreamOp) :
    Answers left op (truncating left op).1 (truncating left op).2 := by
  cases op with
  | take =>
    cases left with
    | zero => exact .refused rfl
    | succ left => exact .taken (Nat.succ_pos left)
  | exchange channel peer request deadline =>
    cases channel <;> exact .other _ _ (by simp)
  | now | isCancelled | randomId | route => exact .other _ _ (by simp)

/-- The worker of a question runs to its end. -/
def askedOnce : DnsRuntime :=
  (actLast truncating)^[30] <| admitNew plainIdna plainHickory
    { tasks := ((DnsRequests.slotRequests.withFailureHold 0).run plainIdna
        [.accept singleQuestion 1 0]).2.started
      resolver := plainResolver, scope := {}, limits := {} } singleQuestion 0 true

/-- The settings change, and the worker that asks again runs to its end. -/
def askedTwice : DnsRuntime :=
  (actLast truncating)^[30] <|
    (askedOnce.follow plainResolver).collectWorker plainIdna plainHickory 0 1 true false

theorem asked_again_shares_count :
    askedTwice.threads.map (fun worker => (worker.id, worker.sent.map Prod.fst)) =
        [(0, [.udp, .tcp]), (0, [.udp, .tcp])] ∧
      askedTwice.allowances = [60] ∧
      ∀ id, ((askedTwice.threads.filter (·.id = id)).map fun worker => worker.sent.length).sum ≤
        64 := by
  have made : DnsRequests.new DnsRequests.slotRequests.gate.policy 0 1 1 (seconds 5) =
      .ok DnsRequests.slotRequests := rfl
  have once : Reaches plainIdna plainHickory _ askedOnce :=
    .head (.admitNew singleQuestion 0 true) (reaches_actLast truncating_answers 30 _)
  have again : Reaches plainIdna plainHickory askedOnce askedTwice :=
    .head (.follow plainResolver) (.head (.worker 0 1 true false)
      (reaches_actLast truncating_answers 30 _))
  exact ⟨by decide +kernel, by decide +kernel,
    (upstream_queries_bounded plainIdna 0 made _ _ _ _ _ (once.trans again)).1⟩

end DnsRuntime

end Kakoi
