import Kakoi.Base.Keyed
import Kakoi.Net.Message

/-! The running resolutions of one environment by key, each with those that wait for its
answer. -/

namespace Kakoi

/-- What makes two questions one resolution: the settings, and the question without its
message id and the case of its name. -/
structure ResolutionKey where
  generation : Nat
  wire : Wire
  deriving DecidableEq

/-- A signed message binds its exact bytes, so its question is not changed. -/
def Question.resolutionKey (question : Question hickory) (generation : Nat) :
    Except DnsError ResolutionKey :=
  let message := question.message
  let message :=
    if message.signature.isNone then
      { message with
        metadata := { message.metadata with id := 0 }
        queries := message.queries.map fun query => { query with name := query.name.toLowercase } }
    else message
  match hickory.toVec message with
  | some wire => .ok { generation, wire }
  | none => .error .malformed

/-- One more than `u64::MAX`. -/
def u64Limit : Nat := 18446744073709551616

/-- `u64::saturating_add`. -/
def saturatingAdd (left right : Nat) : Nat :=
  if left + right < u64Limit then left + right else u64Limit - 1

theorem saturatingAdd_fits (fits : left + right < u64Limit) :
    saturatingAdd left right = left + right :=
  if_pos fits

theorem saturatingAdd_lt (left right : Nat) : saturatingAdd left right < u64Limit := by
  unfold saturatingAdd
  split
  next fits => exact fits
  next => exact Nat.sub_one_lt_of_lt (by decide : 0 < u64Limit)

theorem saturatingAdd_le (left right : Nat) : saturatingAdd left right ≤ left + right := by
  unfold saturatingAdd
  generalize u64Limit = limit
  split <;> omega

theorem saturatingAdd_twice (start first second : Nat) :
    saturatingAdd (saturatingAdd start first) second = saturatingAdd start (first + second) := by
  have some : 0 < u64Limit := by decide
  unfold saturatingAdd
  generalize u64Limit = limit at some ⊢
  split <;> split <;> split <;> omega

inductive Admission where
  | start (id : Nat)
  | join (id : Nat)
  deriving DecidableEq

inductive CapacityError where
  | resolutions
  | waiters
  | idsExhausted
  deriving DecidableEq

structure Pending (ω : Type) where
  id : Nat
  waiters : List ω

structure ResolutionPool (κ : Type) (ω : Type) where
  pending : List (κ × Pending ω) := []
  maxResolutions : Nat
  maxWaiters : Nat
  nextId : Nat := 0

namespace ResolutionPool

variable {κ ω : Type} [DecidableEq κ]

def new (maxResolutions maxWaiters : Nat) : Except String (ResolutionPool κ ω) :=
  if !(1 ≤ maxResolutions && maxResolutions ≤ maxDnsConcurrentResolutions) ||
      !(1 ≤ maxWaiters && maxWaiters ≤ maxDnsWaitersPerResolution) then
    .error "DNS capacity limits outside supported range"
  else .ok { maxResolutions, maxWaiters }

def addWaiter (key : κ) (waiter : ω) (entry : κ × Pending ω) : κ × Pending ω :=
  if entry.1 = key then (entry.1, { entry.2 with waiters := entry.2.waiters ++ [waiter] })
  else entry

def admitWaiter (pool : ResolutionPool κ ω) (key : κ) (waiter : ω) :
    Except (CapacityError × ω) Admission × ResolutionPool κ ω :=
  match pool.pending.find? (·.1 = key) with
  | some (_, pending) =>
    if pending.waiters.length = pool.maxWaiters then (.error (.waiters, waiter), pool)
    else
      (.ok (.join pending.id), { pool with pending := pool.pending.map (addWaiter key waiter) })
  | none =>
    if pool.pending.length = pool.maxResolutions then (.error (.resolutions, waiter), pool)
    else if pool.nextId + 1 < u64Limit then
      (.ok (.start pool.nextId),
        { pool with
          pending := pool.pending ++ [(key, { id := pool.nextId, waiters := [waiter] })]
          nextId := pool.nextId + 1 })
    else (.error (.idsExhausted, waiter), pool)

/-- Moves the resolution `id` under `key`, unless another resolution runs under it. -/
def rekey (pool : ResolutionPool κ ω) (id : Nat) (key : κ) : ResolutionPool κ ω :=
  if pool.pending.any (·.1 = key) then pool
  else
    match pool.pending.find? (·.2.id = id) with
    | none => pool
    | some (old, _) =>
      { pool with
        pending := pool.pending.map fun entry => if entry.1 = old then (key, entry.2) else entry }

/-- Takes the resolution `id` out and gives those that wait for it. -/
def complete (pool : ResolutionPool κ ω) (id : Nat) : List ω × ResolutionPool κ ω :=
  let completed := pool.pending.filter (·.2.id = id)
  ((completed.getLast?.map (·.2.waiters)).getD [],
    { pool with pending := pool.pending.filter (·.2.id ≠ id) })

end ResolutionPool

end Kakoi
