import BorderProxy.Message.Normal
import BorderProxy.Uri.Identity

/-! Routes through the proxy. The proxy takes its own entries off the ends of a Route list, records itself
in requests, faces its recorded entries the other way in responses, and hands a request on to a router
that expects to find its own address as the Request-URI. -/

namespace BorderProxy

/-- The addresses and names under which the proxy is reached, and its port. -/
structure OwnAddresses where
  ips : List Ip
  domains : List Text
  port : UInt16
  deriving DecidableEq, Repr

namespace OwnAddresses

def ownsHost (own : OwnAddresses) (known : KnownHosts) (host : Text) : Bool :=
  own.domains.any (Text.sameLetters · host) ||
    match known host with
    | some ip => own.ips.contains ip
    | none => false

def ownsUri (own : OwnAddresses) (known : KnownHosts) (uri : Uri) : Bool :=
  uri.port == own.port && own.ownsHost known uri.hostText

def ownsRoute (own : OwnAddresses) (known : KnownHosts) (value : Text) : Bool :=
  match NameAddr.uri? value with
  | some uri => own.ownsUri known uri
  | none => false

/-- Whether the sender of a Via value is the proxy itself. -/
def ownsVia (own : OwnAddresses) (known : KnownHosts) (via : Text) : Bool :=
  match Via.sentBy? via with
  | some (host, port) => port.getD sipPort == own.port && own.ownsHost known host
  | none => false

/-- A Route list without the own entry at its head, and then without the one at its end. -/
def stripEnds (own : OwnAddresses) (known : KnownHosts) (routes : List Text) : List Text :=
  let routes :=
    match routes with
    | first :: rest => if own.ownsRoute known first then rest else routes
    | [] => []
  match routes.getLast? with
  | some last => if own.ownsRoute known last then routes.dropLast else routes
  | none => routes

/-- The fields without own Routes at the ends of the list, and how many were taken off. -/
def stripRoutes (own : OwnAddresses) (known : KnownHosts) (hs : Headers) : Headers × Nat :=
  let kept := own.stripEnds known hs.routes
  let removed := hs.routes.length - kept.length
  (if removed = 0 then hs else hs.withRoutes kept, removed)

/-- An own Record-Route value that names another address of the proxy instead. -/
def faceRoute (own : OwnAddresses) (known : KnownHosts) (ip : Ip) (value : Text) : Option Text :=
  match NameAddr.uri? value with
  | none => none
  | some uri =>
    if own.ownsUri known uri then
      some (NameAddr.replaceUri value
        { uri with hostPort := { uri.hostPort with host := .ip ip } })
    else none

/-- The fields with every own Record-Route naming the given address, and how many there are. -/
def faceRecordRoutes (own : OwnAddresses) (known : KnownHosts) (ip : Ip) (hs : Headers) :
    Headers × Nat :=
  let faced := hs.recordRoutes.map fun value => (own.faceRoute known ip value, value)
  let changed := (faced.filter (·.1.isSome)).length
  (if changed = 0 then hs else hs.withRecordRoutes (faced.map fun pair => pair.1.getD pair.2),
    changed)

end OwnAddresses

/-- The Record-Route value of the proxy at an address. -/
def ownRecordRoute (ip : Ip) (port : UInt16) : Text :=
  "<sip:".toList ++ ip.hostText ++ ':' :: Text.decimal port.toNat ++ ";lr>".toList

/-- The fields with the proxy recorded above all others. -/
def Headers.recordRoute (ip : Ip) (port : UInt16) (hs : Headers) : Headers :=
  hs.withRecordRoutes (ownRecordRoute ip port :: hs.recordRoutes)

/-- The URI of the first Route, if it can be read. -/
def Headers.nextRoute? (hs : Headers) : Option Uri := hs.routes.head?.bind NameAddr.uri?

/-- Where the first Route is a router of the strict kind, its URI becomes the Request-URI and the old
Request-URI the last Route; the second part tells whether that was done. -/
def Request.promoteStrictRoute (r : Request) : Request × Bool :=
  match r.headers.routes with
  | [] => (r, false)
  | first :: rest =>
    if NameAddr.isLoose first then (r, false)
    else
      match NameAddr.uri? first with
      | none => (r, false)
      | some uri =>
        let last := '<' :: r.uri.text ++ ['>']
        ({ r with uri := uri, headers := r.headers.withRoutes (rest ++ [last]) }, true)

end BorderProxy
