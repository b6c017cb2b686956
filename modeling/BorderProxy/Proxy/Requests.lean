import BorderProxy.HostSetting
import BorderProxy.Proxy.Anchor
import BorderProxy.Proxy.Branch
import BorderProxy.Proxy.Classification
import BorderProxy.Proxy.Outcome
import BorderProxy.Proxy.Registrar

/-! Routing of requests. A request is checked for loops, registered if it is a REGISTER, classified,
changed for the other side and sent to its next hop; where that is not possible it is answered, and an
ACK, which has no answer, is dropped. -/

namespace BorderProxy

/-- How often a request may be forwarded if it does not say so. -/
def defaultHops : UInt32 := 70

def ownVia (ip : Ip) (port : UInt16) (branch : Text) : Text :=
  "SIP/2.0/UDP ".toList ++ ip.hostText ++ ':' :: Text.decimal port.toNat ++ ";branch=".toList ++
    branch

/-- Where the answer to a request goes: along its topmost Via, or else to its source. -/
def answerTarget (hs : Headers) (source : Endpoint) : Act Endpoint := do
  match hs.topVia?.bind Via.replyTarget? with
  | none => return source
  | some (host, port) => return (← lookUpEndpoint host port).toOption.getD source

/-- Sends an answer where the answer to its request goes. -/
def respondWith (r : Request) (source : Endpoint) (answer : Nat → Response) : Act Routed := do
  let answer := answer (← get).clock.wallNanos
  return .respond answer (← answerTarget r.headers source)

/-- Answers a request with a status. -/
def respond (cx : Context) (r : Request) (source : Endpoint) (code : UInt16) : Act Routed :=
  respondWith r source (r.answer (.ofCode code) [] cx.product)

/-- Refuses a request with a status; an ACK is dropped. -/
def refuse {α : Type} (cx : Context) (r : Request) (source : Endpoint) (code : UInt16)
    (reason : DropReason) : Processing α := do
  if r.method = .ack then finish (.drop reason)
  else finish (← respond cx r source code)

/-- Whether a request with a branch has been forwarded by the proxy before: one of its Vias is the
proxy's own and has that branch. -/
def Context.isLooped (cx : Context) (known : KnownHosts) (hs : Headers) (branch : Text) : Bool :=
  hs.vias.any fun via => cx.own.ownsVia known via && Via.param? via "branch".toList == some branch

/-- Receives a request: its source is noted, the plugins see it, and own Routes are taken off. -/
def receiveRequest (cx : Context) (t : Ticket) : Processing (Ticket × Request) := do
  let t ← consult .preProxy { t with message := t.message.mapHeaders (Headers.stamp t.source) }
  let r ← requestOf t
  let w ← get
  return (t, { r with headers := (cx.own.stripRoutes w.knownHosts r.headers).1 })

/-- Refuses a request that may not be forwarded any more or that has been here before; gives the branch
under which it is forwarded. -/
def checkLoop (cx : Context) (r : Request) (source : Endpoint) : Processing Text := do
  if r.headers.maxForwards? = some 0 then refuse cx r source 483 .ackWithoutHops
  else
    let branch := r.branch
    let w ← get
    if cx.isLooped w.knownHosts r.headers branch then refuse cx r source 482 .loopedAck
    else return branch

/-- Carries out a REGISTER. Processing goes on only for one that was accepted and is meant for another
registrar. -/
def processRegister (cx : Context) (r : Request) (source : Endpoint) : Processing Unit := do
  let outcome ← register cx r source
  let w ← get
  let isAccepted :=
    match outcome with
    | .success .. => true
    | _ => false
  if isAccepted && !cx.isRegistrarOf w.knownHosts r then return
  else finish (← respondWith r source (cx.registerAnswer r outcome))

/-- The direction of a request, with its registration. An accepted REGISTER goes out in any case. -/
def directRequest (cx : Context) (r : Request) (source : Endpoint) :
    Processing (Direction × Option Registration) := do
  if r.method = .register then processRegister cx r source
  let w ← get
  match directionOfRequest w.knownHosts w.clock.now w.registrations source.ip r with
  | some (direction, registration) =>
    return (if r.method = .register then .outgoing else direction, some registration)
  | none =>
    if r.method = .register then return (.outgoing, none)
    else refuse cx r source 408 .unmatchedAck

/-- A request that comes in has the contact of its registration as Request-URI. -/
def Request.aimAt (r : Request) (direction : Direction) (registration : Option Registration) :
    Request :=
  match direction, registration with
  | .incoming, some registration =>
    { r with uri := { r.uri with hostPort := registration.contact.hostPort } }
  | _, _ => r

def oneLess (n : UInt32) : UInt32 := if n = 0 then 0 else n - 1

/-- The fields of a request as they are forwarded: with one hop less, with the proxy recorded unless the
request is a REGISTER, and with the proxy's Via on top. -/
def Context.forwardHeaders (cx : Context) (method : Method) (direction : Direction) (branch : Text)
    (hs : Headers) : Headers :=
  let ip := cx.ipTowards direction
  let hops := (hs.maxForwards?.map oneLess).getD defaultHops
  let hs := hs.withMaxForwards hops
  let hs := if method = .register then hs else hs.recordRoute ip cx.ownPort
  hs.pushAbove .via (ownVia ip cx.ownPort branch)

/-- The effect of a request of a method on media: an offer or answer is anchored, and the end of a call closes its
streams. -/
def handleMedia (cx : Context) (method : Method) (direction : Direction) (client : Text)
    (r : Request) : Act Message := do
  match method with
  | .invite | .ack | .update => anchorMedia cx direction client (.request r)
  | .bye | .cancel =>
    stopStreams r.headers
    return .request r
  | _ => return .request r

/-- A message whose first Route, if it is a request and that router is strict, has become the
Request-URI; the second part tells whether that was done. -/
def Message.promoteStrictRoute : Message → Message × Bool
  | .request r => (.request r.promoteStrictRoute.1, r.promoteStrictRoute.2)
  | .response r => (.response r, false)

/-- The next hop of a request by its Routes and Request-URI. -/
def routeTarget (r : Request) (strict : Bool) : Uri :=
  if strict then r.uri else r.headers.nextRoute?.getD r.uri

/-- Where a request is sent: where a plugin said, or, going out, to the proxy for its domain or the one
for all requests, or else to its next hop. -/
def requestTarget (cx : Context) (r : Request) (direction : Direction)
    (nextHop : Option Endpoint) (strict : Bool) : Act (Except Fault Endpoint) := do
  match nextHop with
  | some endpoint => return .ok endpoint
  | none =>
    let domain :=
      cx.domainRoutes.find? fun d => Text.sameLetters d.domain r.uri.hostText
    match direction, domain, cx.settings.sip.outboundProxy with
    | .outgoing, some d, _ => lookUpEndpoint d.host d.port
    | .outgoing, none, some proxy =>
      match readHostPort proxy sipPort with
      | .ok (host, port) => lookUpEndpoint host port
      | .error fault => return .error fault
    | _, _, _ => lookUpUri (routeTarget r strict)

def processRequest (cx : Context) (t : Ticket) : Processing Routed := do
  let source := t.source
  let (t, r) ← receiveRequest cx t
  let method := r.method
  let branch ← checkLoop cx r source
  let (direction, registration) ← directRequest cx r source
  let t ← consult .determineTarget
    { t with message := .request r, direction := some direction }
  let client := clientOf t.message.headers source
  let r ← requestOf t
  let w ← get
  let r := r.aimAt direction registration
  let headers := presentContact w.knownHosts w.clock.now w.registrations direction r.headers
  let r := { r with headers := cx.forwardHeaders method direction branch headers }
  let m ← handleMedia cx method direction client r
  let (m, strict) := m.promoteStrictRoute
  let t ← consult .postProxy { t with message := m }
  let r ← requestOf t
  return forwardTo t.message (← requestTarget cx r direction t.nextHop strict)

end BorderProxy
