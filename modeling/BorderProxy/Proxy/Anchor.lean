import BorderProxy.Proxy.World
import BorderProxy.Sdp.Redirect

/-! Anchoring media at the relay. Each section of a session description that can be relayed gets a stream,
and the description is pointed at the ports of those that could be opened. -/

namespace BorderProxy

/-- Runs a step of the relay, if there is a relay. -/
def withRelay {α : Type} (step : Relay → Network → Instant → α × Relay × Network) :
    Act (Option α) := do
  let w ← get
  match w.relay with
  | none => return none
  | some relay =>
    let (a, relay, network) := step relay w.network w.clock.now
    set { w with relay := some relay, network := network }
    return some a

def startStream (request : StreamRequest) : Act (Option UInt16) := do
  let port ← withRelay fun relay network now => relay.start network request now
  return port.bind Except.toOption

/-- Opens the streams of sections; gives the lower port of each that could be opened. -/
def startSections (request : MediaOffer → Option StreamRequest) : List MediaOffer →
    Act (List (Option UInt16))
  | [] => return []
  | m :: rest => do
    let port ←
      match request m with
      | some request => startStream request
      | none => pure none
    return port :: (← startSections request rest)

/-- The stream that a section asks for, if it can be relayed. -/
def MediaOffer.streamRequest (callId : CallId) (client : Text) (direction : Direction) (localIp : Ip)
    (dejitter : Duration) (m : MediaOffer) : Option StreamRequest :=
  if m.canRelay then
    m.connection.map fun ip =>
      { key := ⟨callId, direction, m.index, client⟩
        localIp := localIp
        remote := ⟨ip, m.port⟩
        dejitter := dejitter }
  else none

/-- A message with its session description pointed at the relay. Anything that prevents it leaves the
message as it is. -/
def anchorMedia (cx : Context) (direction : Direction) (client : Text) (m : Message) :
    Act Message := do
  match (← get).relay, m.headers.callId?, Utf8.decode? m.body with
  | some relay, some callId, some text =>
    if m.headers.carriesSdp then
      match Sdp.read text with
      | .error _ => return m
      | .ok sdp =>
        let ip := cx.ipTowards direction
        let request :=
          MediaOffer.streamRequest (.ofText callId) client direction ip relay.dejitter
        let ports ← startSections request sdp.media
        if ports.all Option.isNone then return m
        else return m.withBody (Utf8.encode (sdp.pointAt ⟨ip, Sdp.newlineOf text⟩ ports))
    else return m
  | _, _, _ => return m

def stopDirection (callId : CallId) (direction : Direction) : Act Unit := do
  let _ ← withRelay fun relay network _ => relay.stop network callId direction .all

/-- Closes every stream of the call that a message belongs to. -/
def stopStreams (hs : Headers) : Act Unit := do
  match hs.callId? with
  | none => return
  | some callId =>
    stopDirection (.ofText callId) .incoming
    stopDirection (.ofText callId) .outgoing

end BorderProxy
