import BorderProxy.Address
import BorderProxy.Fault

/-! The network around the proxy: the names it can look up, the endpoints that others hold or that cannot
be reached, and the sockets that the proxy itself holds open. -/

namespace BorderProxy

/-- The state of the network as far as the proxy can see it. -/
structure Network where
  /-- The addresses of each name, in the order that look-ups give them. -/
  names : List (Text × List Ip) := []
  /-- The endpoints held by other programs. -/
  busy : List Endpoint := []
  /-- The endpoints that answer every packet with a refusal. -/
  refused : List Endpoint := []
  /-- The endpoints that no packet can be sent to. -/
  unreachable : List Endpoint := []
  /-- The device names that no device has. -/
  absentDevices : List Text := []
  /-- The endpoints whose sockets cannot be watched for packets. -/
  unwatched : List Endpoint := []
  /-- The endpoints whose sockets cannot take another packet at the moment. -/
  congested : List Endpoint := []
  /-- The endpoints that this program's sockets are bound to. -/
  held : List Endpoint := []

structure Datagram where
  source : Endpoint
  destination : Endpoint
  payload : List UInt8
  deriving DecidableEq, Repr

/-- What becomes of a datagram when it is sent. -/
inductive Delivery where
  | sent
  | refused
  /-- The socket cannot take it at the moment, and it is lost. -/
  | congested
  | failed
  deriving DecidableEq, Repr

/-- A datagram that was handed to a socket, and what became of it. -/
structure Attempt where
  datagram : Datagram
  delivery : Delivery
  deriving DecidableEq, Repr

def Attempt.sent (attempts : List Attempt) : List Datagram :=
  (attempts.filter fun a => a.delivery = .sent).map (·.datagram)

namespace Network

/-- The type-of-service byte of a socket marked with a code point: the code point in its upper six
bits. Code point zero and sockets of version 6 stay unmarked. -/
def serviceByte (ip : Ip) (codePoint : UInt8) : Except Fault UInt8 :=
  if 63 < codePoint then .error (.setting (.codePointOutOfRange codePoint.toNat))
  else .ok (if ip.isV4 then codePoint * 4 else 0)

def checkDevice (n : Network) : Option Text → Except Fault Unit
  | none => .ok ()
  | some name =>
    if name.contains (Char.ofNat 0) then .error (.setting (.deviceNameWithNul name))
    else if n.absentDevices.contains name then .error (.setting (.noSuchDevice name))
    else .ok ()

/-- Binds a socket to an endpoint that no other socket is bound to. Only equal endpoints are in each other's
way: an unspecified address is an address like any other here, and does not stand for all of them. -/
def bind (n : Network) (e : Endpoint) (device : Option Text) : Except Fault Network := do
  n.checkDevice device
  if n.busy.contains e || n.held.contains e then .error .transport
  else .ok { n with held := e :: n.held }

/-- Has the socket on an endpoint watched for packets. -/
def watch (n : Network) (e : Endpoint) : Except Fault Unit :=
  if n.unwatched.contains e then .error .transport else .ok ()

def release (n : Network) (e : Endpoint) : Network := { n with held := n.held.erase e }

/-- What becomes of a datagram from one endpoint to another. -/
def deliver (n : Network) (source destination : Endpoint) : Delivery :=
  if !source.ip.sameFamily destination.ip || destination.port == 0 ||
      n.unreachable.contains destination then .failed
  else if n.congested.contains source then .congested
  else if n.refused.contains destination then .refused
  else .sent

/-- The addresses of a name, in the order of the look-up. -/
def addressesOf (n : Network) (host : Text) : List Ip :=
  match n.names.find? fun entry => Text.sameLetters entry.1 host with
  | some entry => entry.2
  | none => []

end Network

end BorderProxy
