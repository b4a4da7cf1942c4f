import Mathlib.Data.List.Basic

/-! Channels of bounded capacity, whose ends can be dropped. -/

namespace Kakoi

structure BoundedChannel (α : Type) where
  capacity : Nat
  items : List α := []
  /-- Whether the sending end is still there. -/
  sender : Bool := true
  receiver : Bool := true

namespace BoundedChannel

variable {α : Type}

/-- What became of a message that was not waited with. -/
inductive TrySend (α : Type) where
  | sent (channel : BoundedChannel α)
  | full
  | disconnected

def trySend (channel : BoundedChannel α) (item : α) : TrySend α :=
  if !channel.receiver then .disconnected
  else if channel.items.length < channel.capacity then
    .sent { channel with items := channel.items ++ [item] }
  else .full

inductive TryReceive (α : Type) where
  | received (item : α) (channel : BoundedChannel α)
  | empty
  | disconnected

/-- What was sent is received also after the sender is gone. -/
def tryReceive (channel : BoundedChannel α) : TryReceive α :=
  match channel.items with
  | item :: rest => .received item { channel with items := rest }
  | [] => if channel.sender then .empty else .disconnected

def dropSender (channel : BoundedChannel α) : BoundedChannel α := { channel with sender := false }

def dropReceiver (channel : BoundedChannel α) : BoundedChannel α := { channel with receiver := false }

/-- There is room as long as the receiver is there and the channel is not full. -/
theorem trySend_of_room {channel : BoundedChannel α} (present : channel.receiver = true)
    (room : channel.items.length < channel.capacity) (item : α) :
    channel.trySend item = .sent { channel with items := channel.items ++ [item] } := by
  simp [trySend, present, room]

theorem tryReceive_eq_received {channel next : BoundedChannel α}
    (taken : channel.tryReceive = .received item next) :
    channel.items = item :: next.items ∧ next = { channel with items := next.items } := by
  unfold tryReceive at taken
  split at taken
  next first rest items =>
    obtain ⟨rfl, rfl⟩ := TryReceive.received.inj taken
    exact ⟨items, rfl⟩
  next => split at taken <;> cases taken

theorem tryReceive_eq_disconnected {channel : BoundedChannel α}
    (none : channel.tryReceive = .disconnected) :
    channel.items = [] ∧ channel.sender = false := by
  unfold tryReceive at none
  split at none
  · cases none
  next empty =>
    split at none
    · cases none
    next gone => exact ⟨empty, Bool.eq_false_iff.mpr gone⟩

end BoundedChannel

end Kakoi
