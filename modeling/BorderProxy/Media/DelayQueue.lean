import BorderProxy.Fault
import BorderProxy.Media.Stream

/-! Packets that wait until they are due. The slots of the queue are made once and used again and again:
a chain leads through those in use, each naming the one after it, and a stack holds the others. A slot
that is not in use keeps what was last in it. Packets stand in the order of their due times, and packets
due at the same time in the order in which they came. -/

namespace BorderProxy

structure DelayedPacket where
  stream : StreamRef
  leg : Leg
  destination : Endpoint
  due : Instant
  payload : List UInt8
  deriving DecidableEq, Repr

/-- A slot with the packet that is, or was last, in it. -/
structure DelaySlot where
  stream : StreamRef
  leg : Leg
  destination : Endpoint
  due : Instant
  /-- How many bytes of the buffer are the payload. -/
  length : Nat
  buffer : List UInt8
  /-- The slot after this one in the chain. -/
  next : Option Nat
  deriving DecidableEq, Repr

structure DelayQueue where
  slots : List DelaySlot
  /-- The first slot of the chain. -/
  head : Option Nat
  /-- The slots that are not in use, the next one to be used first. -/
  free : List Nat
  deriving DecidableEq, Repr

namespace DelaySlot

def size : Nat := 2048

def blank : DelaySlot :=
  { stream := ⟨0, 0⟩
    leg := .rtp
    destination := ⟨.v4 0 0 0 0, 0⟩
    due := 0
    length := 0
    buffer := List.replicate size 0
    next := none }

def packet (s : DelaySlot) : DelayedPacket :=
  ⟨s.stream, s.leg, s.destination, s.due, s.buffer.take s.length⟩

/-- The slot with a packet written over its last one. -/
def hold (p : DelayedPacket) (s : DelaySlot) : DelaySlot :=
  { s with
    stream := p.stream
    leg := p.leg
    destination := p.destination
    due := p.due
    length := p.payload.length
    buffer := p.payload ++ s.buffer.drop p.payload.length }

end DelaySlot

namespace DelayQueue

/-- A queue without packets; its slots are used from the lowest on. -/
def empty (capacity : Nat) : DelayQueue :=
  ⟨List.replicate capacity .blank, none, List.range capacity⟩

def size (q : DelayQueue) : Nat := q.slots.length - q.free.length

def isEmpty (q : DelayQueue) : Bool := q.head.isNone

/-- The slots from one on, each followed by the one that it names; `steps` bounds their number. -/
def walk (slots : List DelaySlot) : (steps : Nat) → Option Nat → List Nat
  | steps + 1, some index =>
    match slots[index]? with
    | some slot => index :: walk slots steps slot.next
    | none => []
  | _, _ => []

/-- The slots of the chain in order; none is visited twice, so there are no more steps than slots. -/
def chain (q : DelayQueue) : List Nat := walk q.slots q.slots.length q.head

/-- The packets in the order in which they will be sent. -/
def packets (q : DelayQueue) : List DelayedPacket :=
  q.chain.filterMap fun index => q.slots[index]?.map DelaySlot.packet

def dueAt? (q : DelayQueue) (index : Nat) : Option Instant := q.slots[index]?.map (·.due)

def firstDue? (q : DelayQueue) : Option Instant := q.head.bind q.dueAt?

/-- The queue with the slot after another one changed; the first slot stands after none. -/
def setNext (previous next : Option Nat) (q : DelayQueue) : DelayQueue :=
  match previous with
  | some index => { q with slots := q.slots.modify index fun s => { s with next := next } }
  | none => { q with head := next }

/-- The last slot of a chain whose packet is due no later than a moment, and the slot after it. -/
def place (q : DelayQueue) (due : Instant) : (previous : Option Nat) → List Nat →
    Option Nat × Option Nat
  | previous, [] => (previous, none)
  | previous, index :: rest =>
    match q.dueAt? index with
    | some other => if due < other then (previous, some index) else q.place due (some index) rest
    | none => (previous, some index)

/-- Puts a packet behind all that are due no later. A packet that is too long or finds no slot is
refused. -/
def push (q : DelayQueue) (p : DelayedPacket) : Except Fault DelayQueue :=
  if DelaySlot.size < p.payload.length then .error (.media (.packetTooLong p.payload.length))
  else
    match q.free with
    | [] => .error (.storeFull .delayedPackets)
    | index :: rest =>
      let (previous, next) := q.place p.due none q.chain
      let held := { q with slots := q.slots.modify index (DelaySlot.hold p), free := rest }
      .ok ((held.setNext (some index) next).setNext previous (some index))

/-- Takes a slot, which stands after `previous`, out of the chain and puts it on the stack. -/
def unlink (q : DelayQueue) (previous : Option Nat) (index : Nat) : DelayQueue :=
  let next := q.slots[index]?.bind (·.next)
  let q := (q.setNext previous next).setNext (some index) none
  { q with free := index :: q.free }

/-- Takes out the packets at the front of a chain that are due, in order. -/
def flushChain (now : Instant) : (chain : List Nat) → DelayQueue → List DelayedPacket × DelayQueue
  | [], q => ([], q)
  | index :: rest, q =>
    match q.slots[index]? with
    | none => ([], q)
    | some slot =>
      if now < slot.due then ([], q)
      else
        let (sent, q) := flushChain now rest (q.unlink none index)
        (slot.packet :: sent, q)

/-- Takes out the packets that are due, in order. -/
def flush (q : DelayQueue) (now : Instant) : List DelayedPacket × DelayQueue :=
  flushChain now q.chain q

/-- Takes out the packets of a stream from a chain, which stands after `previous`; gives their
number. -/
def purgeChain (stream : StreamRef) : (previous : Option Nat) → (chain : List Nat) → DelayQueue →
    Nat × DelayQueue
  | _, [], q => (0, q)
  | previous, index :: rest, q =>
    if (q.slots[index]?.map (·.stream)) = some stream then
      let (removed, q) := purgeChain stream previous rest (q.unlink previous index)
      (removed + 1, q)
    else purgeChain stream (some index) rest q

/-- Takes out the packets of a stream; gives their number. -/
def purge (q : DelayQueue) (stream : StreamRef) : Nat × DelayQueue :=
  purgeChain stream none q.chain q

end DelayQueue

end BorderProxy
