import BorderProxy.Proxy.Requests
import BorderProxy.Proxy.Responses

/-! Routing of messages, and the proxy as it runs: it listens on one endpoint, sends what routing makes of
each datagram, and lets its timers tick. -/

namespace BorderProxy

/-- Routes a message. One without the fields that every message needs is dropped. -/
def route (cx : Context) (t : Ticket) : Act Routed := do
  match t.message.headers.checkComplete with
  | .error fault => return .drop (.fault fault)
  | .ok () =>
    match t.message with
    | .request _ => (processRequest cx t).outcome
    | .response _ => (processResponse cx t).outcome

/-- Removes the registrations that have expired, and gives them. -/
def ageRegistrations : Act (List Registration) := do
  let w ← get
  let (gone, registrations) := w.registrations.age w.clock.now
  set { w with registrations := registrations }
  return gone

def tick : Act Unit := do
  let _ ← ageRegistrations
  modify fun w => { w with plugins := w.plugins.callTimer }

/-- Lets time pass, and then lets the relay do what has become due; gives the datagrams that it sent. -/
def passTime (d : Duration) : Act (List Datagram) := do
  modify fun w => { w with clock := w.clock.advance d }
  let attempts ← withRelay fun relay network now => relay.settle network now
  return Attempt.sent (attempts.getD [])

/-- Whether a datagram only keeps a connection alive: it holds nothing but blanks. -/
def isKeepalive (bytes : List UInt8) : Bool :=
  bytes.all fun b => b == 9 || b == 10 || b == 12 || b == 13 || b == 32

structure Listener where
  endpoint : Endpoint
  lastTick : Instant

namespace Listener

/-- Starts to listen, with a first tick of the timers. -/
def start (cx : Context) (w : World) : Except Fault (Listener × World) := do
  let sip := cx.settings.sip
  let network ← w.network.bind sip.listenEndpoint sip.listen.device
  let ((), w) := tick { w with network := network }
  return (⟨sip.listenEndpoint, w.clock.now⟩, w)

/-- Sends a message from the listener; a message that cannot be sent is lost. -/
def send (l : Listener) (m : Message) (destination : Endpoint) : Act (List Datagram) := do
  match (← get).network.deliver l.endpoint destination with
  | .sent => return [⟨l.endpoint, destination, m.wire⟩]
  | _ => return []

/-- Handles a datagram that arrived; gives the datagrams that were sent. -/
def receive (l : Listener) (cx : Context) (source : Endpoint) (bytes : List UInt8) :
    Act (List Datagram) := do
  if isKeepalive bytes then return []
  else
    match Ticket.read bytes source with
    | .error _ => return []
    | .ok t =>
      match ← route cx t with
      | .forward m destination => l.send m destination
      | .respond r destination => l.send (.response r) destination
      | .consumed => return []
      | .drop _ => return []

/-- Lets time pass. The timers tick once if at least their interval has passed since the last tick. -/
def passTime (l : Listener) (cx : Context) (d : Duration) : Act (List Datagram × Listener) := do
  let sent ← BorderProxy.passTime d
  let w ← get
  if Duration.seconds cx.settings.timers.tickSeconds ≤ w.clock.now.since l.lastTick then
    tick
    return (sent, { l with lastTick := w.clock.now })
  else return (sent, l)

/-- Stops: the listener and the relay are closed, and the plugins are told. -/
def stop (l : Listener) : Act Unit := do
  modify fun w => { w with network := w.network.release l.endpoint }
  let _ ← withRelay fun relay network _ =>
    let (relay, network) := relay.shutdown network
    ((), relay, network)
  modify fun w => { w with plugins := w.plugins.shutdown }

end Listener

end BorderProxy
