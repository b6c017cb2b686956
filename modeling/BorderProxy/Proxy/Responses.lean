import BorderProxy.Proxy.Anchor
import BorderProxy.Proxy.Classification
import BorderProxy.Proxy.Outcome

/-! Routing of responses. A response has to come back to the proxy's own Via, which is taken off; the
response is then classified, changed for the other side and sent along the next Via. -/

namespace BorderProxy

/-- Where a response is sent: along its topmost Via, or, where that fails, along the Via that the
registration was made with. -/
def responseTarget (hs : Headers) (registration : Registration) :
    Act (Except Fault Endpoint) := do
  let next ←
    match hs.topVia?.bind Via.replyTarget? with
    | some (host, port) => lookUpEndpoint host port
    | none => pure (.error (.malformed .noFurtherVia))
  match next, registration.returnVia.bind Via.replyTarget? with
  | .error _, some (host, port) => lookUpEndpoint host port
  | next, _ => return next

/-- Takes the proxy's own Via off a response; any other response is dropped. -/
def receiveResponse (cx : Context) (t : Ticket) : Processing (Ticket × Response) := do
  let t ← consult .preProxy t
  let r ← responseOf t
  let w ← get
  if (r.headers.topVia?.map (cx.own.ownsVia w.knownHosts)).getD false then
    return (t, { r with headers := r.headers.eraseFirst .via })
  else finish (.drop .foreignVia)

/-- The name of the method that a response answers, in upper case. -/
def answeredMethod? (hs : Headers) : Option Text := hs.sequence?.map fun s => Text.upper s.2

/-- The status of a response as it is passed on: "202" to a SUBSCRIBE becomes "404" where the sender is a
product that is known for it. -/
def Context.passedStatus (cx : Context) (r : Response) : Status :=
  let product :=
    ((r.headers.named? "User-Agent".toList).or (r.headers.named? "Server".toList)).getD []
  let isKnown := cx.settings.sip.subscribe202Agents.any fun part =>
    part = [] || Text.occursIn part product
  if r.status.code = 202 ∧ answeredMethod? r.headers = some "SUBSCRIBE".toList ∧ isKnown then
    .ofCode 404
  else r.status

/-- Whether a response ends its call: it refuses an INVITE, and not for lack of authentication. -/
def endsCall (hs : Headers) (code : UInt16) : Bool :=
  answeredMethod? hs == some "INVITE".toList && 400 ≤ code && code != 401 && code != 407

def processResponse (cx : Context) (t : Ticket) : Processing Routed := do
  let source := t.source
  let (t, r) ← receiveResponse cx t
  let w ← get
  match directionOfResponse w.knownHosts w.clock.now w.registrations source.ip r.headers with
  | none => finish (.drop .unmatchedResponse)
  | some (direction, registration) =>
    let t ← consult .determineTarget
      { t with message := .response r, direction := some direction }
    let client := clientOf t.message.headers source
    let r ← responseOf t
    let ends := endsCall r.headers r.status.code
    let w ← get
    let headers := (cx.own.faceRecordRoutes w.knownHosts (cx.ipTowards direction) r.headers).1
    let headers := presentContact w.knownHosts w.clock.now w.registrations direction headers
    let m ← anchorMedia cx direction client
      (.response { r with status := cx.passedStatus r, headers := headers })
    if ends then stopStreams m.headers
    let t ← consult .postProxy { t with message := m }
    match t.nextHop with
    | some endpoint => return forwardTo t.message (.ok endpoint)
    | none =>
      return forwardTo t.message (← responseTarget t.message.headers registration)

end BorderProxy
