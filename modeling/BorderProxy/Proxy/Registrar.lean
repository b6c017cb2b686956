import BorderProxy.Message.Answer
import BorderProxy.Proxy.World

/-! Registration. A REGISTER that the authenticator accepts binds a contact, removes a binding, or removes
all bindings of the registered URI when its contact is an asterisk. -/

namespace BorderProxy

/-- What becomes of a REGISTER. -/
inductive RegisterResult where
  /-- It was carried out; `bound` tells whether a binding was made. -/
  | success (expires : UInt32) (bound : Bool)
  | refused
  /-- The client is challenged with a field. -/
  | challenged (field : Header)
  deriving DecidableEq, Repr

inductive RegisterContact where
  | all
  | one (uri : Uri)
  deriving DecidableEq, Repr

/-- The seconds that a REGISTER asks for: those of the request, or else those of its first Contact field,
or else the given default. -/
def askedExpiry (hs : Headers) (default : UInt32) : UInt32 :=
  let ofContact := do
    Text.uint32? (← NameAddr.param? (← hs.value? .contact) "expires".toList)
  (hs.expires?.or ofContact).getD default

/-- The contact of a REGISTER, if it has one that can be read. -/
def registerContact? (hs : Headers) : Option RegisterContact := do
  let value ← hs.value? .contact
  if Text.trim value = ['*'] then return .all
  else return .one (← NameAddr.uri? value)

/-- The URI that a registered party is presented under: with the host that masks its own, or, for a
transparent proxy, at the outbound address. A mask that cannot be read changes nothing. -/
def Context.presented (cx : Context) (registered : Uri) : Uri :=
  match cx.maskOf registered.hostText with
  | some mask =>
    match HostPort.ofMaskText mask with
    | some place =>
      { registered with hostPort := ⟨place.host, place.port.or registered.hostPort.port⟩ }
    | none => registered
  | none =>
    if cx.settings.sip.transparent then
      { registered with
        hostPort := ⟨.ip cx.settings.sip.outbound.address, some cx.ownPort⟩ }
    else registered

def authenticate (r : Request) : Act AuthVerdict := do
  let w ← get
  match w.authenticator with
  | none => return .authorized
  | some a =>
    let (decision, a) := a.authenticate w.clock r
    set { w with authenticator := some a }
    return decision

/-- Removes the bindings of a registered URI, or only the one to a contact. -/
def unregister (registered : Uri) (contact : Option Uri) : Act Unit :=
  modify fun w =>
    { w with registrations := (w.registrations.unregister w.knownHosts registered contact).2 }

/-- Binds a contact. Its address is that of its host, or else the source of the request. -/
def bindContact (cx : Context) (r : Request) (source : Endpoint) (registered contact : Uri)
    (expiry : UInt32) : Act RegisterResult := do
  let contactIp ← lookUpHost contact.hostText
  let presented := cx.presented registered
  let registeredIp ← lookUpHost registered.hostText
  let presentedIp ← lookUpHost presented.hostText
  let w ← get
  let margin := cx.settings.registration.expiryMargin
  let binding : Registration :=
    { contact := contact
      registered := registered
      presented := presented
      contactIp := some (contactIp.toOption.getD source.ip)
      registeredIp := registeredIp.toOption
      presentedIp := presentedIp.toOption
      returnVia := r.headers.topVia?
      expires := w.clock.now + Duration.seconds (expiry.toNat + margin.toNat) }
  match w.registrations.upsert w.knownHosts binding with
  | .ok (_, registrations) =>
    set { w with registrations := registrations }
    return .success expiry true
  | .error _ => return .refused

def register (cx : Context) (r : Request) (source : Endpoint) : Act RegisterResult := do
  match ← authenticate r with
  | .challenge field => return .challenged field
  | .authorized =>
    match r.headers.toUri?, registerContact? r.headers with
    | some registered, some binding =>
      let expiry := askedExpiry r.headers cx.settings.registration.defaultExpires
      match binding with
      | .all =>
        unregister registered none
        return .success 0 false
      | .one contact =>
        if expiry = 0 then
          unregister registered (some contact)
          return .success 0 false
        else bindContact cx r source registered contact expiry
    | _, _ => return .refused

/-- Whether a REGISTER is meant for the proxy itself and not for another registrar. -/
def Context.isRegistrarOf (cx : Context) (known : KnownHosts) (r : Request) : Bool :=
  cx.own.ownsUri known r.uri

def Context.registerAnswer (cx : Context) (r : Request) (outcome : RegisterResult)
    (wallNanos : Nat) : Response :=
  match outcome with
  | .success expires bound =>
    let contact := if bound then (r.headers.find? (Header.isNamed .contact)).toList else []
    r.answer (.ofCode 200) (contact ++ [.of .expires (Text.decimal expires.toNat)]) cx.product
      wallNanos
  | .refused => r.answer (.ofCode 503) [] cx.product wallNanos
  | .challenged field => r.answer (.ofCode 407) [field] cx.product wallNanos

end BorderProxy
