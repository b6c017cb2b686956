import BorderProxy.Digest
import BorderProxy.Media.Relay
import BorderProxy.Plugin
import BorderProxy.Registration
import BorderProxy.Resolver
import BorderProxy.Route

/-! What the processing of messages works with: the context, which stays as the settings made it, and the
world, which every message may change. -/

namespace BorderProxy

/-- What stays the same while a proxy runs. -/
structure Context where
  settings : Settings
  /-- Each host to be masked with the host presented in its place. -/
  masks : List (Text × Text)
  domainRoutes : List DomainRoute
  own : OwnAddresses
  /-- The product name of local answers. -/
  product : Text

/-- What changes while a proxy runs. -/
structure World where
  clock : Clock
  network : Network
  resolver : Resolver
  registrations : Registrations
  /-- Without an authenticator every registration is accepted. -/
  authenticator : Option Authenticator
  /-- Without a relay media flow past the proxy. -/
  relay : Option Relay
  plugins : PluginChain

/-- A step that may change the world. -/
abbrev Act := StateM World

/-- What is known about hosts in a world, without a look-up. -/
def World.knownHosts (w : World) : KnownHosts := w.resolver.cached w.clock.now

namespace Context

/-- The own addresses that settings give: both sides, and the address listened on if it is another one. -/
def ownIps (s : SipSettings) : List Ip :=
  let sides := [s.inbound.address, s.outbound.address]
  if s.listen.address.isUnspecified || sides.contains s.listen.address then sides
  else sides ++ [s.listen.address]

/-- The context of settings; tables that are inconsistent count as empty. -/
def ofSettings (s : Settings) : Context :=
  { settings := s
    masks := s.sip.masks.toOption.getD []
    domainRoutes := s.sip.domainRoutes.toOption.getD []
    own := ⟨ownIps s.sip, s.sip.ownDomains, s.sip.listen.port⟩
    product := s.productName }

def ownPort (cx : Context) : UInt16 := cx.settings.sip.listen.port

/-- The address announced on the side that a message travels towards. -/
def ipTowards (cx : Context) : Direction → Ip
  | .outgoing => cx.settings.sip.outbound.address
  | .incoming => cx.settings.sip.inbound.address

/-- The host presented in place of a host. -/
def maskOf (cx : Context) (host : Text) : Option Text :=
  (cx.masks.find? fun mask => Text.sameLetters mask.1 host).map (·.2)

end Context

namespace World

/-- The devices of relay sockets by address; where both sides have one address, the outbound device. -/
def relayDevices (s : SipSettings) : List (Ip × Text) :=
  [s.outbound, s.inbound].filterMap fun side => side.device.map fun name => (side.address, name)

/-- The world in which a proxy starts. -/
def initial (s : Settings) (plugins : List Plugin) (network : Network) (clock : Clock)
    (processId : Nat) : World :=
  { clock := clock
    network := network
    resolver := { lifeTime := .seconds s.timers.resolverCacheSeconds }
    registrations := .empty s.registration.capacity
    authenticator := s.auth.map fun auth => { settings := auth, processId := processId }
    relay :=
      if s.media.enabled then (Relay.new s.media (relayDevices s.sip) clock.now).toOption else none
    plugins := .ofPlugins plugins }

end World

/-- A proxy that can run, unless the settings forbid it. -/
def build (s : Settings) (plugins : List Plugin) (network : Network) (clock : Clock)
    (processId : Nat) : Except Fault (Context × World) := do
  s.check
  return (.ofSettings s, .initial s plugins network clock processId)

def lookUpHost (host : Text) : Act (Except Fault Ip) := do
  let w ← get
  let (answer, resolver) := w.resolver.resolve w.network w.clock.now host
  set { w with resolver := resolver }
  return answer

def lookUpEndpoint (host : Text) (port : UInt16) : Act (Except Fault Endpoint) := do
  return (← lookUpHost host).map fun ip => ⟨ip, port⟩

def lookUpUri (uri : Uri) : Act (Except Fault Endpoint) := lookUpEndpoint uri.hostText uri.port

end BorderProxy
