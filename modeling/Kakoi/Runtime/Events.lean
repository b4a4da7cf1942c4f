import Kakoi.Base.BoundedQueue
import Kakoi.Base.Path
import Mathlib.Data.Nat.Digits.Lemmas

/-! The events of a run: the worker's sender, and the caller's history with its cursors. A number
past the end of `u64` ends the program. -/

namespace Kakoi

def maxEvents : Nat := 256

def maxBytes : Nat := 1024 * 1024

def maxEvent : Nat := 8192

inductive RunStatus where
  | starting
  | running
  | stopping
  | finished
  deriving DecidableEq

inductive NetworkEventState where
  | running
  | isolated
  | unsafeState
  deriving DecidableEq

inductive RunEventKind where
  | status (status : RunStatus)
  | network (state : Option NetworkEventState) (detail : String) (truncated : Bool)
  deriving DecidableEq

structure RunEvent where
  sequence : Nat
  kind : RunEventKind
  deriving DecidableEq

inductive EventRead where
  | event (event : RunEvent)
  | lagged (missed : Nat)
  | closed
  deriving DecidableEq

/-- A character inside a JSON string. -/
def escapeChar (char : Char) : List Char :=
  if char = '"' then ['\\', '"']
  else if char = '\\' then ['\\', '\\']
  else if char.toNat = 8 then ['\\', 'b']
  else if char.toNat = 9 then ['\\', 't']
  else if char.toNat = 10 then ['\\', 'n']
  else if char.toNat = 12 then ['\\', 'f']
  else if char.toNat = 13 then ['\\', 'r']
  else if char.toNat < 32 then
    ['\\', 'u', '0', '0', Nat.digitChar (char.toNat / 16), Nat.digitChar (char.toNat % 16)]
  else [char]

def jsonString (text : String) : String :=
  "\"" ++ String.ofList (text.toList.flatMap escapeChar) ++ "\""

def RunStatus.json : RunStatus → String
  | .starting => "\"Starting\""
  | .running => "\"Running\""
  | .stopping => "\"Stopping\""
  | .finished => "\"Finished\""

def NetworkEventState.json : Option NetworkEventState → String
  | some .running => "\"Running\""
  | some .isolated => "\"Isolated\""
  | some .unsafeState => "\"Unsafe\""
  | none => "null"

def RunEventKind.json : RunEventKind → String
  | .status current => "\x7b\"Status\":" ++ current.json ++ "\x7d"
  | .network state detail truncated =>
    "\x7b\"Network\":\x7b\"state\":" ++ NetworkEventState.json state ++ ",\"detail\":" ++
      jsonString detail ++ ",\"truncated\":" ++ toString truncated ++ "\x7d\x7d"

/-- `serde_json::to_vec`. -/
def RunEvent.encode (event : RunEvent) : Name :=
  utf8 ("\x7b\"sequence\":" ++ toString event.sequence ++ ",\"kind\":" ++ event.kind.json ++ "\x7d")

/-- The bytes of an event's datagram. -/
def RunEvent.size (event : RunEvent) : Nat := event.encode.length

/-- One round of the shrinking: the first half of a detail is kept. -/
def RunEventKind.shrinkOnce : RunEventKind → RunEventKind
  | .status current => .status current
  | .network state detail _ =>
    .network state (String.ofList (detail.toList.take (detail.toList.length / 2))) true

/-- The loop that makes an event fit, for some rounds. -/
def RunEvent.shrink : Nat → RunEvent → Option RunEvent
  | 0, _ => none
  | rounds + 1, event =>
    if maxEvent < event.size then shrink rounds { event with kind := event.kind.shrinkOnce }
    else some event

/-- How the socket takes a datagram. -/
inductive SocketSend where
  | sent
  | interrupted
  | wouldBlock
  | failed
  deriving DecidableEq

/-- The sender's queue holds encodings; each stands here as the event that it reads back to. -/
structure EventSender where
  pending : List RunEvent := []
  bytes : Nat := 0
  next : Nat := 0
  deriving DecidableEq

namespace EventSender

/-- Numbers for notifications that were lost before they became events. -/
def skip (sender : EventSender) (missed : Nat) : EventSender :=
  { sender with next := min (sender.next + missed) (2 ^ 64 - 1) }

/-- Sends what the socket takes; with the datagrams sent. -/
def flush (sender : EventSender) : List SocketSend → EventSender × List RunEvent
  | [] => (sender, [])
  | answer :: answers =>
    match sender.pending with
    | [] => (sender, [])
    | message :: rest =>
      match answer with
      | .sent =>
        let (sender, sent) :=
          flush { sender with pending := rest, bytes := sender.bytes - message.size } answers
        (sender, message :: sent)
      | .interrupted => flush sender answers
      | .wouldBlock => (sender, [])
      | .failed => ({ sender with pending := [], bytes := 0 }, [])

/-- Queues an encoded event; the oldest ones make room. -/
def enqueue (sender : EventSender) (event : RunEvent) : EventSender :=
  let (pending, bytes) := trim RunEvent.size maxEvents maxBytes (sender.pending ++ [event])
    (sender.bytes + event.size)
  { sender with pending, bytes }

/-- Numbers, shrinks, queues and sends an event. `none` when the next number does not fit, or
while the shrinking takes more rounds than these. -/
def emit (sender : EventSender) (kind : RunEventKind) (rounds : Nat)
    (answers : List SocketSend) : Option (EventSender × List RunEvent) := do
  if sender.next + 1 < 2 ^ 64 then
    let event ← RunEvent.shrink rounds { sequence := sender.next, kind }
    some (({ sender with next := sender.next + 1 }.enqueue event).flush answers)
  else none

end EventSender

structure EventHistory where
  entries : List (RunEvent × Nat) := []
  bytes : Nat := 0
  next : Nat := 0
  closed : Bool := false

namespace EventHistory

def push (history : EventHistory) (event : RunEvent) (bytes : Nat) : EventHistory :=
  if event.sequence < history.next ∨ history.closed = true then history
  else
    let (entries, bytes) := trim Prod.snd maxEvents maxBytes (history.entries ++ [(event, bytes)])
      (history.bytes + bytes)
    { history with entries, bytes, next := event.sequence + 1 }

def close (history : EventHistory) (next : Option Nat) : EventHistory :=
  { history with next := max history.next (next.getD history.next), closed := true }

/-- A receiver starts at what comes next. -/
def receiver (history : EventHistory) : Nat := history.next

/-- What a cursor reads, with the cursor behind it. -/
def read (history : EventHistory) (cursor : Nat) : Option (EventRead × Nat) :=
  match history.entries.find? fun entry => cursor ≤ entry.1.sequence with
  | some (event, _) =>
    if cursor < event.sequence then some (.lagged (event.sequence - cursor), event.sequence)
    else some (.event event, cursor + 1)
  | none =>
    if cursor < history.next then some (.lagged (history.next - cursor), history.next)
    else if history.closed then some (.closed, cursor)
    else none

end EventHistory

/-- The reader of the datagrams keeps what fits its buffer. -/
def readDatagram (history : EventHistory) (event : RunEvent) : EventHistory :=
  if event.size ≤ maxEvent then history.push event event.size else history

end Kakoi
