import BorderProxy.Media.DelayQueue
import BorderProxy.Media.StreamTable

/-! The media relay: the open streams and the packets that wait. A packet that arrives on a stream leaves
from the socket of its opposite, or from its own socket while it has none. A stream whose socket cannot
send is closed; so are streams that have long been silent. -/

namespace BorderProxy

structure Relay where
  table : StreamTable
  queue : DelayQueue
  /-- The delay aimed at for new streams. -/
  dejitter : Duration
  /-- How long a stream may be silent. -/
  inactivity : Duration
  lastSweep : Instant
  running : Bool

namespace Relay

/-- The time between two sweeps for silent streams. -/
def sweepEvery : Duration := .seconds 10

def idle (m : MediaSettings) (devices : List (Ip × Text)) (now : Instant) : Relay :=
  { table := .empty m.maxStreams m.portRange devices
    queue := .empty m.maxDelayed
    dejitter := m.dejitter
    inactivity := m.inactivity
    lastSweep := now
    running := true }

/-- A relay without streams, unless the settings forbid it. -/
def new (m : MediaSettings) (devices : List (Ip × Text)) (now : Instant) : Except Fault Relay := do
  m.check
  return idle m devices now

def teardown (r : Relay) (network : Network) (h : StreamRef) : Relay × Network :=
  let queue := (r.queue.purge h).2
  let (_, table, network) := r.table.remove network h
  ({ r with table := table, queue := queue }, network)

/-- Closes streams one after the other. -/
def teardownAll : List StreamRef → Relay → Network → Relay × Network
  | [], r, network => (r, network)
  | h :: rest, r, network =>
    let (r, network) := r.teardown network h
    teardownAll rest r network

/-- Opens or refreshes a stream; gives its lower port. -/
def start (r : Relay) (network : Network) (request : StreamRequest) (now : Instant) :
    Except Fault UInt16 × Relay × Network :=
  if !r.running then (.error .relayStopped, r, network)
  else
    let (answer, table, network) := r.table.start network request now
    (answer.map (·.2), { r with table := table }, network)

/-- Closes the selected streams of a call; gives their number. -/
def stop (r : Relay) (network : Network) (callId : CallId) (direction : Direction)
    (selector : SectionChoice) : Except Fault Nat × Relay × Network :=
  if !r.running then (.error .relayStopped, r, network)
  else
    match r.table.selected callId direction selector with
    | [] => (.error .noMatchingStream, r, network)
    | handles =>
      let (r, network) := teardownAll handles r network
      (.ok handles.length, r, network)

def streams (r : Relay) : Except Fault (List Stream) :=
  if r.running then .ok (r.table.entries.map (·.2)) else .error .relayStopped

/-- What sending a packet leads to: the table, what was handed to a socket, and the stream to close. -/
structure Sending where
  table : StreamTable
  attempt : Option Attempt
  failed : Option StreamRef

/-- Sends a packet of a stream from the socket of its opposite, or else from its own. -/
def send (table : StreamTable) (network : Network) (p : DelayedPacket) : Sending :=
  let (peer, table) := table.linkPeer p.stream
  match (peer.bind table.get?).or (table.get? p.stream) with
  | none => ⟨table, none, none⟩
  | some stream =>
    let datagram : Datagram := ⟨stream.source p.leg, p.destination, p.payload⟩
    let delivery := network.deliver datagram.source datagram.destination
    ⟨table, some ⟨datagram, delivery⟩, if delivery = .failed then peer else none⟩

/-- A packet that arrived on a leg of a stream with the time at which it is due, if there is one, and the
stream's jitter after it. Packets whose time is not learned from their arrival are due at once. -/
def arrival (h : StreamRef) (stream : Stream) (leg : Leg) (payload : List UInt8) (now : Instant) :
    Option DelayedPacket × Jitter :=
  let scheduled :=
    if leg = .rtp ∧ stream.jitter.target ≠ 0 then
      (rtpTimestamp? payload).map fun timestamp => stream.jitter.schedule timestamp now
    else none
  let (due, jitter) := scheduled.getD (some now, stream.jitter)
  (due.map fun due => ⟨h, leg, stream.destination leg, due, payload⟩, jitter)

/-- The queue with a packet that is due later than now; a packet that is due now or is refused does not
wait. -/
def delay? (queue : DelayQueue) (p : DelayedPacket) (now : Instant) : Option DelayQueue :=
  if now < p.due then (queue.push p).toOption else none

/-- Sends a packet, and closes the stream whose socket could not send it. -/
def sendNow (r : Relay) (network : Network) (p : DelayedPacket) : List Attempt × Relay × Network :=
  let sending := send r.table network p
  let (r, network) := teardownAll sending.failed.toList { r with table := sending.table } network
  (sending.attempt.toList, r, network)

def shutdown (r : Relay) (network : Network) : Relay × Network :=
  let (r, network) := teardownAll r.table.handles r network
  ({ r with running := false }, network)

/-- Handles a packet that arrived on a leg of a stream: it waits if it is due later, and is sent at once
otherwise or when it cannot wait. With a packet for which no time can be told the relay ends: all that it
had open is closed, as by a shutdown. -/
def receive (r : Relay) (network : Network) (h : StreamRef) (leg : Leg) (payload : List UInt8)
    (now : Instant) : List Attempt × Relay × Network :=
  match r.table.get? h with
  | none => ([], r, network)
  | some stream =>
    let (packet, jitter) := arrival h stream leg payload now
    let r := { r with
      table := r.table.modify h fun s => { s with lastHeard := now, jitter := jitter } }
    match packet with
    | none => ([], r.shutdown network)
    | some p =>
      match delay? r.queue p now with
      | some queue => ([], { r with queue := queue }, network)
      | none => r.sendNow network p

/-- Handles a packet that arrived at an endpoint; nothing happens where no stream has that endpoint. -/
def receiveAt (r : Relay) (network : Network) (endpoint : Endpoint) (payload : List UInt8)
    (now : Instant) : Option (List Attempt × Relay × Network) :=
  let leg? := r.table.entries.findSome? fun (h, s) =>
    if s.source .rtp = endpoint then some (h, Leg.rtp)
    else if s.source .rtcp = endpoint then some (h, Leg.rtcp)
    else none
  leg?.map fun (h, leg) => r.receive network h leg payload now

/-- Sends packets in order; gives what was handed to sockets and the streams to close. -/
def sendAll (network : Network) : List DelayedPacket → StreamTable →
    List Attempt × List StreamRef × StreamTable
  | [], table => ([], [], table)
  | p :: rest, table =>
    let sending := send table network p
    let (attempts, failed, table) := sendAll network rest sending.table
    (sending.attempt.toList ++ attempts, sending.failed.toList ++ failed, table)

/-- Sends the packets that are due, and then closes the streams whose sockets could not send. -/
def sendDue (r : Relay) (network : Network) (now : Instant) : List Attempt × Relay × Network :=
  let (due, queue) := r.queue.flush now
  let (attempts, failed, table) := sendAll network due r.table
  let (r, network) := teardownAll failed { r with queue := queue, table := table } network
  (attempts, r, network)

/-- Closes the streams that have been silent for too long. -/
def sweep (r : Relay) (network : Network) (now : Instant) : Relay × Network :=
  let (r, network) := teardownAll (r.table.expired now r.inactivity) r network
  ({ r with lastSweep := now }, network)

/-- What the relay does at a moment by itself: packets that are due are sent, and when enough time has
passed since the last sweep the silent streams are closed. -/
def settle (r : Relay) (network : Network) (now : Instant) : List Attempt × Relay × Network :=
  if !r.running then ([], r, network)
  else
    let (attempts, r, network) := r.sendDue network now
    if sweepEvery ≤ now.since r.lastSweep then
      let (r, network) := r.sweep network now
      (attempts, r, network)
    else (attempts, r, network)

end Relay

end BorderProxy
