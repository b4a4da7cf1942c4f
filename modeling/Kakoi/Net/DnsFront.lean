import Mathlib.Logic.Relation
import Kakoi.Base.Framing
import Kakoi.Net.Message

/-! The front of the resolver: datagrams and framed streams, without blocking. What the kernel
answers during a call is given to it. -/

namespace Kakoi

open Std (ExtTreeMap)

namespace DnsFront

def ioTimeout : Duration := seconds 2

def maxFrame : Nat := 65535 + 2

def minUdpPayload : Nat := 512

def maxUdpPayload : Nat := 65507

/-- How much one read or write moves at most. -/
def chunkSize : Nat := 8192

structure SocketAddr where
  address : IpAddr
  port : Nat
  deriving DecidableEq

inductive ReplyToken where
  | udp (second : Bool) (peer : SocketAddr) (limit : Nat)
  | tcp (id : Nat)
  deriving DecidableEq

structure IncomingQuery where
  wire : Wire
  reply : ReplyToken

structure Peer where
  input : Wire := []
  output : Wire := []
  written : Nat := 0
  pending : Bool := false
  deadline : Instant

/-- The answer to a read. At the end of the stream there are no bytes. -/
inductive ReadAnswer where
  | data (bytes : Wire)
  | blocked
  | failed

inductive WriteAnswer where
  | moved (count : Nat)
  | blocked
  | failed

structure SocketAnswer where
  read : ReadAnswer
  write : WriteAnswer

/-- One step of a stream: what becomes of it, what went through its socket and the query
it handed over. -/
structure Turn where
  peer : Peer
  kept : Bool
  read : Wire := []
  wrote : Wire := []
  query : Option Wire := none

namespace Peer

def frameLength (peer : Peer) : Nat := announced peer.input + 2

/-- Writes more of the reply. -/
def write (peer : Peer) (now : Instant) (answer : WriteAnswer) : Turn :=
  let chunk := (peer.output.take (peer.written + chunkSize)).drop peer.written
  match answer with
  | .moved count =>
    let wrote := chunk.take count
    if wrote = [] then { peer, kept := false }
    else
      let written := peer.written + wrote.length
      if written = peer.output.length then
        { peer := { peer with output := [], written, pending := false, deadline := now + ioTimeout }
          kept := true
          wrote }
      else { peer := { peer with written }, kept := true, wrote }
  | .blocked => { peer, kept := true }
  | .failed => { peer, kept := false }

/-- Hands over the first frame of the input, if it is there. -/
def handOver (peer : Peer) (now : Instant) (timeout : Duration) (read : Wire) : Turn :=
  if peer.input.length < 2 then { peer, kept := true, read }
  else if peer.frameLength = 2 then { peer, kept := false, read }
  else if peer.input.length < peer.frameLength then { peer, kept := true, read }
  else
    -- The transport is kept long enough to write a failure when the resolution times out.
    { peer :=
        { peer with
          input := peer.input.drop peer.frameLength
          pending := true
          deadline := now + timeout + ioTimeout }
      kept := true
      read
      query := some ((peer.input.take peer.frameLength).drop 2) }

def step (peer : Peer) (now : Instant) (timeout : Duration) (answer : SocketAnswer) : Turn :=
  if peer.output ≠ [] then peer.write now answer.write
  else if peer.pending then { peer, kept := true }
  else if peer.input.length < 2 ∨ peer.input.length < peer.frameLength then
    match answer.read with
    | .data bytes =>
      let read := bytes.take (min chunkSize (maxFrame - peer.input.length))
      if read = [] then { peer, kept := false }
      else handOver { peer with input := peer.input ++ read } now timeout read
    | .blocked => { peer, kept := true }
    | .failed => { peer, kept := false }
  else peer.handOver now timeout []

end Peer

inductive FrontError where
  | io
  | invalidLimits
  | idsExhausted
  | responseTooLong
  | unreadable
  | truncatedTooLarge
  deriving DecidableEq

def FrontError.text : FrontError → Option String
  | .io | .unreadable => none
  | .invalidLimits => some "invalid DNS frontend limits"
  | .idsExhausted => some "DNS connection IDs exhausted"
  | .responseTooLong => some "DNS response exceeds wire limit"
  | .truncatedTooLarge => some "truncated DNS response is too large"

inductive DatagramAnswer where
  | received (wire : Wire) (peer : SocketAddr)
  | blocked
  | interrupted
  | failed

/-- The answer to an accept, with whether the new socket could be made nonblocking. -/
inductive AcceptAnswer where
  | connected (nonblocking : Bool)
  | blocked
  | interrupted
  | failed

inductive SendAnswer where
  | moved (size : Nat)
  | blocked
  | failed

/-- What the kernel answers during one poll; the two addresses apart. -/
structure PollAnswers where
  datagrams : Bool → Nat → DatagramAnswer
  accepts : Bool → Nat → AcceptAnswer
  turns : Nat → SocketAnswer

/-- What is asked of the DNS library: the payload a query admits, a response without its
records, and the same without its options. -/
structure Truncation where
  maxPayload : Wire → Option Nat
  truncate : Wire → Option Wire
  withoutOptions : Wire → Option Wire

end DnsFront

open DnsFront

structure DnsFront where
  peers : ExtTreeMap Nat Peer := ∅
  order : List Nat := []
  nextId : Nat := 0
  maxConnections : Nat
  resolutionTimeout : Duration

namespace DnsFront

def new (maxConnections : Nat) (resolutionTimeout : Duration) : Except FrontError DnsFront :=
  if maxConnections = 0 ∨ maxDnsConcurrentResolutions < maxConnections ∨ resolutionTimeout = 0 ∨
      seconds maxDnsResolutionTimeoutSeconds < resolutionTimeout then
    .error .invalidLimits
  else .ok { maxConnections, resolutionTimeout }

/-- Closes the streams whose deadline has come. -/
def expire (front : DnsFront) (now : Instant) : DnsFront :=
  let peers := front.peers.filter fun _ peer => decide (now < peer.deadline)
  { front with peers, order := front.order.filter peers.contains }

def udpLimit (library : Truncation) (wire : Wire) : Nat :=
  ((library.maxPayload wire).map fun size => min (max size minUdpPayload) maxUdpPayload).getD
    minUdpPayload

def receiveDatagramsOn (library : Truncation) (second : Bool) (answers : Nat → DatagramAnswer) :
    Nat → List IncomingQuery → Except FrontError (List IncomingQuery)
  | 0, incoming => .ok incoming
  | left + 1, incoming =>
    match answers left with
    | .received wire peer =>
      receiveDatagramsOn library second answers left
        (incoming ++ [{ wire, reply := .udp second peer (udpLimit library wire) }])
    | .blocked => .ok incoming
    | .interrupted => receiveDatagramsOn library second answers left incoming
    | .failed => .error .io

def receiveDatagrams (library : Truncation) (answers : Bool → Nat → DatagramAnswer) :
    Except FrontError (List IncomingQuery) := do
  let incoming ← receiveDatagramsOn library false (answers false) 32 []
  receiveDatagramsOn library true (answers true) 32 incoming

/-- One more than `u64::MAX`. -/
def idLimit : Nat := 18446744073709551616

/-- A stream that was accepted. -/
def opened (front : DnsFront) (now : Instant) : DnsFront :=
  { front with
    nextId := front.nextId + 1
    peers := front.peers.insert front.nextId { deadline := now + ioTimeout }
    order := front.order ++ [front.nextId] }

def acceptStreamsOn (now : Instant) (answers : Nat → AcceptAnswer) :
    Nat → DnsFront → DnsFront × Option FrontError
  | 0, front => (front, none)
  | left + 1, front =>
    match answers left with
    | .connected nonblocking =>
      if front.peers.size = front.maxConnections then acceptStreamsOn now answers left front
      else if !nonblocking then (front, some .io)
      else if front.nextId + 1 < idLimit then acceptStreamsOn now answers left (front.opened now)
      else (front, some .idsExhausted)
    | .blocked => (front, none)
    | .interrupted => acceptStreamsOn now answers left front
    | .failed => (front, some .io)

def acceptStreams (front : DnsFront) (now : Instant) (answers : Bool → Nat → AcceptAnswer) :
    DnsFront × Option FrontError :=
  match acceptStreamsOn now (answers false) 16 front with
  | (front, some error) => (front, some error)
  | (front, none) => acceptStreamsOn now (answers true) 16 front

/-- The front after a turn of the stream at the head of the queue. -/
def turned (front : DnsFront) (id : Nat) (rest : List Nat) (turn : Turn) : DnsFront :=
  if turn.kept then
    { front with order := rest ++ [id], peers := front.peers.insert id turn.peer }
  else { front with order := rest, peers := front.peers.erase id }

/-- Turns of the streams in the order of the queue; `none` where an expectation on the queue
fails. -/
def stepStreams (now : Instant) (answers : Nat → SocketAnswer) :
    Nat → DnsFront → Option (DnsFront × List (Nat × Turn))
  | 0, front => some (front, [])
  | left + 1, front =>
    match front.order with
    | [] => none
    | id :: rest =>
      match front.peers[id]? with
      | none => none
      | some peer =>
        let turn := peer.step now front.resolutionTimeout (answers left)
        (stepStreams now answers left (front.turned id rest turn)).map fun (front, turns) =>
          (front, (id, turn) :: turns)

/-- What a poll did: the front after it, its result and the turns it gave. -/
structure Polled where
  front : DnsFront
  result : Except FrontError (List IncomingQuery)
  turns : List (Nat × Turn) := []

/-- The query that a turn handed over. -/
def queryOf (entry : Nat × Turn) : Option IncomingQuery :=
  entry.2.query.map fun wire => { wire, reply := .tcp entry.1 }

def poll (library : Truncation) (front : DnsFront) (now : Instant) (answers : PollAnswers) :
    Option Polled :=
  let front := front.expire now
  match receiveDatagrams library answers.datagrams with
  | .error error => some { front, result := .error error }
  | .ok incoming =>
    match front.acceptStreams now answers.accepts with
    | (front, some error) => some { front, result := .error error }
    | (front, none) =>
      (stepStreams now answers.turns (min front.order.length 64) front).map fun (front, turns) =>
        { front, result := .ok (incoming ++ turns.filterMap queryOf), turns }

/-- A UDP response as it is sent, within the limit of its query. -/
def udpAnswer (library : Truncation) (wire : Wire) (limit : Nat) : Except FrontError Wire :=
  if limit < wire.length then
    match library.truncate wire with
    | none => .error .unreadable
    | some short =>
      if limit < short.length then
        match library.withoutOptions wire with
        | none => .error .unreadable
        | some bare => if limit < bare.length then .error .truncatedTooLarge else .ok bare
      else .ok short
  else .ok wire

def respond (library : Truncation) (front : DnsFront) (token : ReplyToken) (wire : Wire)
    (now : Instant) (sent : SendAnswer) : DnsFront × Except FrontError Bool :=
  if 65535 < wire.length then (front, .error .responseTooLong)
  else
    match token with
    | .udp _ _ limit =>
      match udpAnswer library wire limit with
      | .error error => (front, .error error)
      | .ok answer =>
        match sent with
        | .moved size => (front, .ok (size = answer.length))
        | .blocked => (front, .ok false)
        | .failed => (front, .error .io)
    | .tcp id =>
      match front.peers[id]? with
      | none => (front, .ok false)
      | some peer =>
        if !peer.pending || decide (peer.deadline ≤ now) then (front, .ok false)
        else
          ({ front with
              peers := front.peers.insert id
                { peer with output := frame wire, written := 0, deadline := now + ioTimeout } },
            .ok true)

/-- What passed between the front and its clients: the turns of the streams and the
replies that were taken. -/
inductive FrontEvent where
  | turn (id : Nat) (turn : Turn)
  | reply (id : Nat) (wire : Wire)

def FrontEvent.id : FrontEvent → Nat
  | .turn id _ | .reply id _ => id

end DnsFront

/-- The front with the tokens its caller holds, which can each be used once, and what has
happened so far. -/
structure FrontSystem where
  front : DnsFront
  held : List ReplyToken := []
  log : List FrontEvent := []

namespace DnsFront

def tokensOf : Except FrontError (List IncomingQuery) → List ReplyToken
  | .ok queries => queries.map IncomingQuery.reply
  | .error _ => []

/-- The reply that a call took, if it took one for a stream. -/
def replyTaken (token : ReplyToken) (wire : Wire) : Except FrontError Bool → List FrontEvent
  | .ok true =>
    match token with
    | .tcp id => [.reply id wire]
    | .udp _ _ _ => []
  | _ => []

/-- A call of `poll` or of `respond`, with any answers of the kernel and at any time. -/
inductive Step (library : Truncation) : FrontSystem → FrontSystem → Prop where
  | poll (answers : PollAnswers) (done : system.front.poll library now answers = some polled) :
    Step library system
      { front := polled.front
        held := system.held ++ tokensOf polled.result
        log := system.log ++ polled.turns.map fun entry => .turn entry.1 entry.2 }
  | respond (wire : Wire) (sent : SendAnswer) (holds : token ∈ system.held)
    (done : system.front.respond library token wire now sent = (front, result)) :
    Step library system
      { front
        held := system.held.erase token
        log := system.log ++ replyTaken token wire result }

end DnsFront

end Kakoi
