import BorderProxy.Arena
import BorderProxy.Media.Stream
import BorderProxy.Network
import BorderProxy.Settings

/-! The table of open streams. A handle names a slot and its generation, which moves on when the slot's
stream is removed. Port pairs are given out in turn: the search for a free pair goes once around the
range, from the pair after the one that was given out last. -/

namespace BorderProxy

structure StreamTable where
  arena : Arena Stream
  /-- The generation of each slot. -/
  generations : List UInt32
  range : PortRange
  /-- The pair that the next search begins with. -/
  cursor : Nat
  /-- The devices that sockets on an address are bound to. -/
  devices : List (Ip × Text)

namespace StreamTable

def empty (capacity : Nat) (range : PortRange) (devices : List (Ip × Text)) : StreamTable :=
  { arena := .empty capacity
    generations := List.replicate capacity 0
    range := range
    cursor := 0
    devices := devices }

def size (t : StreamTable) : Nat := t.arena.size

def handleAt (t : StreamTable) (index : Nat) : StreamRef := ⟨index, t.generations.getD index 0⟩

/-- The open streams with their handles, in the order of the slots. -/
def entries (t : StreamTable) : List (StreamRef × Stream) :=
  t.arena.entries.map fun (index, stream) => (t.handleAt index, stream)

/-- The handles of the open streams, in the order of the slots. -/
def handles (t : StreamTable) : List StreamRef := t.entries.map (·.1)

def get? (t : StreamTable) (h : StreamRef) : Option Stream :=
  if t.generations[h.index]? = some h.generation then t.arena.get? h.index else none

/-- The table with the stream that a handle names changed. -/
def modify (h : StreamRef) (change : Stream → Stream) (t : StreamTable) : StreamTable :=
  if (t.get? h).isSome then { t with arena := t.arena.modify h.index change } else t

def legOfToken (t : StreamTable) (token : Nat) : Option (StreamRef × Leg) :=
  let (index, leg) := Leg.ofToken token
  (t.arena.get? index).map fun _ => (t.handleAt index, leg)

/-- The handle of the first stream that satisfies `p`. -/
def find? (p : StreamRef → Stream → Bool) (t : StreamTable) : Option StreamRef :=
  (t.entries.find? fun (h, s) => p h s).map (·.1)

/-- The handles of the streams that satisfy `p`, in the order of the slots. -/
def handlesWhere (p : Stream → Bool) (t : StreamTable) : List StreamRef :=
  (t.entries.filter fun (_, s) => p s).map (·.1)

/-- Whether an open stream on an address has its pair at a port. -/
def usesPort (t : StreamTable) (ip : Ip) (port : UInt16) : Bool :=
  t.entries.any fun (_, s) => s.localIp == ip && s.rtpPort == port

/-- The device that sockets on an address are bound to. -/
def deviceOf (t : StreamTable) (ip : Ip) : Option Text :=
  (t.devices.find? fun (address, _) => address == ip).map (·.2)

/-- Opens the sockets of a pair; where the second one fails the first is closed again. -/
def bindPorts (t : StreamTable) (network : Network) (ip : Ip) (port : UInt16) :
    Except Fault Unit × Network :=
  let device := t.deviceOf ip
  match network.bind ⟨ip, port⟩ device with
  | .error fault => (.error fault, network)
  | .ok network =>
    match network.bind ⟨ip, port + 1⟩ device with
    | .error fault => (.error fault, network.release ⟨ip, port⟩)
    | .ok network => (.ok (), network)

def portOfPair (range : PortRange) (pair : Nat) : UInt16 := range.min + UInt16.ofNat pair * 2

/-- Opens a pair, if both its ports lie in the range, no stream uses it and both can be bound; gives its
lower port. -/
def tryPair (t : StreamTable) (network : Network) (ip : Ip) (pair : Nat) : Option UInt16 × Network :=
  let port := portOfPair t.range pair
  if t.range.max.toNat < port.toNat + 1 then (none, network)
  else if t.usesPort ip port then (none, network)
  else
    match t.bindPorts network ip port with
    | (.ok _, network) => (some port, network)
    | (.error _, network) => (none, network)

/-- The pairs of the range in the order of the search. -/
def searchOrder (t : StreamTable) : List Nat :=
  let pairs := t.range.pairs
  (List.range pairs).map fun step => (t.cursor + step) % pairs

/-- Opens the first of some pairs that can be opened; gives the pair and its lower port. -/
def openFirst (t : StreamTable) (ip : Ip) : List Nat → Network → Option (Nat × UInt16) × Network
  | [], network => (none, network)
  | pair :: rest, network =>
    match t.tryPair network ip pair with
    | (some port, network) => (some (pair, port), network)
    | (none, network) => openFirst t ip rest network

/-- Opens the first pair in the order of the search that can be opened. -/
def openPair (t : StreamTable) (network : Network) (ip : Ip) : Option (Nat × UInt16) × Network :=
  t.openFirst ip t.searchOrder network

def newStream (key : StreamKey) (request : StreamRequest) (port : UInt16) (now : Instant) : Stream :=
  { key := key
    localIp := request.localIp
    rtpPort := port
    remote := request.remote
    jitter := { target := request.dejitter }
    lastHeard := now
    peer := none }

/-- The key under which a request's stream is stored. -/
def storedKey (key : StreamKey) : StreamKey := { key with client := cutIdentifier key.client }

/-- A stream pointed at the remote party of a new request. -/
def refresh (request : StreamRequest) (now : Instant) (s : Stream) : Stream :=
  { s with remote := request.remote, jitter := s.jitter.reset, lastHeard := now }

/-- Has both sockets of a stream watched for packets. -/
def watchPorts (network : Network) (s : Stream) : Except Fault Unit := do
  network.watch (s.source .rtp)
  network.watch (s.source .rtcp)

def releasePorts (network : Network) (s : Stream) : Network :=
  (network.release (s.source .rtp)).release (s.source .rtcp)

/-- Opens the stream of a request, or points an open one with the same key at the new remote party;
gives its handle and lower port. Where that fails, the slot and the ports taken for it are given back. -/
def start (t : StreamTable) (network : Network) (request : StreamRequest) (now : Instant) :
    Except Fault (StreamRef × UInt16) × StreamTable × Network :=
  let key := storedKey request.key
  match t.entries.find? fun (_, s) => s.key == key with
  | some (h, stream) => (.ok (h, stream.rtpPort), t.modify h (refresh request now), network)
  | none =>
    match t.arena.reserve? with
    | none => (.error (.storeFull .streams), t, network)
    | some (index, arena) =>
      match t.openPair network request.localIp with
      | (none, network) =>
        (.error (.noPortAvailable t.range.min t.range.max), { t with arena := arena.giveBack index },
          network)
      | (some (pair, port), network) =>
        let stream := newStream key request port now
        match watchPorts network stream with
        | .error fault =>
          (.error fault, { t with arena := arena.giveBack index, cursor := pair + 1 },
            releasePorts network stream)
        | .ok _ =>
          (.ok (t.handleAt index, port), { t with arena := arena.fill index stream, cursor := pair + 1 },
            network)

/-- The handles of the streams that a stop request for a call means. -/
def selected (t : StreamTable) (callId : CallId) (direction : Direction) (selector : SectionChoice) :
    List StreamRef :=
  t.handlesWhere (Stream.isSelected callId direction selector)

/-- The opposite of a stream: the one noted with it while that is open, or else the first one in the
table, which is then noted with both. -/
def linkPeer (t : StreamTable) (h : StreamRef) : Option StreamRef × StreamTable :=
  match t.get? h with
  | none => (none, t)
  | some stream =>
    match stream.peer.filter fun peer => (t.get? peer).isSome with
    | some peer => (some peer, t)
    | none =>
      let peer := t.find? fun candidate other =>
        candidate != h && other.key.opposes stream.key
      let noted := t.modify h (Stream.withPeer peer)
      match peer with
      | none => (none, noted)
      | some other => (peer, noted.modify other (Stream.withPeer (some h)))

/-- The stream without a note of its opposite, if that is the given one. -/
def forgetPeer (h : StreamRef) (s : Stream) : Stream :=
  if s.peer = some h then s.withPeer none else s

/-- Closes a stream: its sockets, its slot, and the notes of it with others. -/
def remove (t : StreamTable) (network : Network) (h : StreamRef) :
    Option Stream × StreamTable × Network :=
  match t.get? h with
  | none => (none, t, network)
  | some stream =>
    let arena := (t.arena.erase h.index).map (forgetPeer h)
    let generations := t.generations.set h.index (h.generation + 1)
    (some stream, { t with arena := arena, generations := generations }, releasePorts network stream)

/-- The handles of the streams that have been silent for longer than a length of time. -/
def expired (t : StreamTable) (now : Instant) (timeout : Duration) : List StreamRef :=
  t.handlesWhere fun s => timeout < now.since s.lastHeard

end StreamTable

end BorderProxy
