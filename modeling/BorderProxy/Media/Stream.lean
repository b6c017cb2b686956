import BorderProxy.Address
import BorderProxy.Field.CallId
import BorderProxy.Media.Jitter
import BorderProxy.Message.Normal

/-! Media streams. A stream has a pair of neighbouring ports, the lower for media packets and the upper
for control packets, and sends what it receives to the party that it was opened for. Its opposite is the
stream of the same section of the same call that was opened for the other party. -/

namespace BorderProxy

inductive Leg where
  | rtp
  | rtcp
  deriving DecidableEq, Repr

def Leg.index : Leg → Nat
  | .rtp => 0
  | .rtcp => 1

/-- A reference to a stream. It goes stale when the stream's slot is given to another stream. -/
structure StreamRef where
  index : Nat
  generation : UInt32
  deriving DecidableEq, Repr

def StreamRef.token (h : StreamRef) (leg : Leg) : Nat := h.index * 2 + leg.index

/-- The leg that a number names, with the slot of its stream. -/
def Leg.ofToken (token : Nat) : Nat × Leg := (token / 2, if token % 2 = 0 then .rtp else .rtcp)

/-- What identifies a stream: the call, the direction, the section and the party it was opened by. -/
structure StreamKey where
  callId : CallId
  direction : Direction
  sectionIndex : Nat
  client : Text
  deriving DecidableEq, Repr

structure StreamRequest where
  key : StreamKey
  /-- The address that the ports are opened on. -/
  localIp : Ip
  /-- Where media packets are sent. -/
  remote : Endpoint
  dejitter : Duration

structure Stream where
  key : StreamKey
  localIp : Ip
  rtpPort : UInt16
  remote : Endpoint
  jitter : Jitter
  lastHeard : Instant
  peer : Option StreamRef

inductive SectionChoice where
  | all
  | only (sectionIndex : Nat)
  deriving DecidableEq, Repr

def SectionChoice.matches (s : SectionChoice) (sectionIndex : Nat) : Bool :=
  match s with
  | .all => true
  | .only index => index == sectionIndex

namespace StreamKey

/-- Whether two streams carry the two ways of one section. -/
def opposes (a b : StreamKey) : Bool :=
  a.callId == b.callId && a.sectionIndex == b.sectionIndex && a.direction == b.direction.opposite &&
    a.client != b.client

end StreamKey

namespace Stream

/-- The endpoint that a leg is bound to, which is also where its packets come from. -/
def source (s : Stream) : Leg → Endpoint
  | .rtp => ⟨s.localIp, s.rtpPort⟩
  | .rtcp => ⟨s.localIp, s.rtpPort + 1⟩

/-- Where the packets of a leg are sent. Control packets go to the next port, and port zero follows the
last one. -/
def destination (s : Stream) : Leg → Endpoint
  | .rtp => s.remote
  | .rtcp => ⟨s.remote.ip, s.remote.port + 1⟩

def withPeer (peer : Option StreamRef) (s : Stream) : Stream := { s with peer := peer }

/-- Whether a stop request for a call means this stream. -/
def isSelected (callId : CallId) (direction : Direction) (selector : SectionChoice) (s : Stream) :
    Bool :=
  s.key.callId == callId && s.key.direction == direction && selector.matches s.key.sectionIndex

end Stream

end BorderProxy
