import BorderProxy.Proxy.World

/-! The direction of a message, with the registration that it belongs to. A message from the address of a
registered contact goes out; any other goes in if it names a registered party. -/

namespace BorderProxy

/-- The first unexpired registration whose contact has an address. -/
def Registrations.ofContactIp? (t : Registrations) (now : Instant) (ip : Ip) : Option Registration :=
  (t.current now).find? fun r => r.contactIp == some ip

/-- Whether a request names a registration in its Request-URI or To field. A REGISTER counts only where
it names the party as it is presented. -/
def Registration.isNamedBy (known : KnownHosts) (request : Request) (r : Registration) : Bool :=
  (request.uri :: request.headers.toUri?.toList).any fun uri =>
    r.isPresentedAs known uri ||
      (request.method != .register && r.isRegisteredAs known uri)

def directionOfRequest (known : KnownHosts) (now : Instant) (t : Registrations) (source : Ip)
    (request : Request) : Option (Direction × Registration) :=
  match t.ofContactIp? now source with
  | some r => some (.outgoing, r)
  | none =>
    ((t.current now).find? (Registration.isNamedBy known request)).map fun r => (.incoming, r)

def directionOfResponse (known : KnownHosts) (now : Instant) (t : Registrations) (source : Ip)
    (hs : Headers) : Option (Direction × Registration) :=
  match t.ofContactIp? now source with
  | some r => some (.outgoing, r)
  | none => do
    let party ← hs.fromUri?
    let r ← (t.current now).find? fun r =>
      r.isRegisteredAs known party || r.isPresentedAs known party
    return (.incoming, r)

/-- The name of the party that sent a message: its contact, or else the sender in the topmost Via, or else
its source. -/
def clientOf (hs : Headers) (source : Endpoint) : Text :=
  cutIdentifier <|
    match hs.contactUri? with
    | some contact => contact.hostPort.text
    | none =>
      match hs.topVia?.bind Via.sentBy? with
      | some (host, port) => host ++ ':' :: Text.decimal (port.getD sipPort).toNat
      | none => source.text

/-- The contact as the other side is to see it: a contact that goes out is replaced by the presented URI
of its registration, and a presented one that comes in by the contact of its registration. Only host and
port change. -/
def presentContact (known : KnownHosts) (now : Instant) (t : Registrations) (direction : Direction)
    (hs : Headers) : Headers :=
  match hs.contactUri? with
  | none => hs
  | some contact =>
    let target : Option Uri :=
      match direction with
      | .outgoing =>
        ((t.current now).find? (Registration.isReachedAt known contact)).map (·.presented)
      | .incoming =>
        ((t.current now).find? (Registration.isPresentedAs known contact)).map (·.contact)
    match target with
    | none => hs
    | some target =>
      if target.hostPort = contact.hostPort then hs
      else hs.withContactUri { contact with hostPort := target.hostPort }

end BorderProxy
