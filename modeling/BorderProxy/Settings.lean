import BorderProxy.Address
import BorderProxy.Fault
import BorderProxy.Time

/-! The settings of the proxy with their defaults, the tables derived from them, and the checks that a
proxy or its relay is built under. -/

namespace BorderProxy

/-- The port of SIP where none is given. -/
def sipPort : UInt16 := 5060

structure ListenSettings where
  address : Ip := .v4 0 0 0 0
  port : UInt16 := sipPort
  device : Option Text := none

/-- One side of the border: the address announced there and the device that relay sockets use. -/
structure SideSettings where
  address : Ip := .v4 127 0 0 1
  device : Option Text := none

structure DomainRoute where
  domain : Text
  host : Text
  port : UInt16
  deriving DecidableEq

structure SipSettings where
  listen : ListenSettings := {}
  /-- The side of the registered user agents. -/
  inbound : SideSettings := {}
  /-- The side of the public network. -/
  outbound : SideSettings := {}
  ownDomains : List Text := []
  /-- Whether every registered user agent is presented under the outbound address. -/
  transparent : Bool := false
  maskHosts : List Text := []
  maskedHosts : List Text := []
  outboundProxy : Option Text := none
  outboundDomainNames : List Text := []
  outboundDomainHosts : List Text := []
  outboundDomainPorts : List UInt16 := []
  codePoint : UInt8 := 0
  /-- Parts of a product name whose "202" to a SUBSCRIBE is passed on as "404". -/
  subscribe202Agents : List Text := []

structure RegistrationSettings where
  capacity : Nat := 32
  defaultExpires : UInt32 := 600
  expiryMargin : UInt32 := 30

structure PortRange where
  min : UInt16
  max : UInt16
  deriving DecidableEq, Repr

structure MediaSettings where
  enabled : Bool := true
  portRange : PortRange := ⟨7070, 7089⟩
  inactivitySeconds : Nat := 300
  dejitterMilliseconds : Nat := 0
  codePoint : UInt8 := 46
  maxStreams : Nat := 256
  maxDelayed : Nat := 1024

structure TimerSettings where
  tickSeconds : Nat := 5
  resolverTimeoutMilliseconds : Nat := 2000
  resolverCacheSeconds : Nat := 300

structure Credential where
  username : Text
  password : Text
  deriving DecidableEq

/-- Settings of the digest authentication of REGISTER. -/
structure AuthSettings where
  realm : Text
  credentials : List Credential

structure Settings where
  sip : SipSettings := {}
  registration : RegistrationSettings := {}
  media : MediaSettings := {}
  timers : TimerSettings := {}
  auth : Option AuthSettings := none
  userAgent : Option Text := none

namespace PortRange

def contains (r : PortRange) (port : UInt16) : Bool := r.min ≤ port && port ≤ r.max

/-- Refuses a range that starts on an odd port or holds no pair. -/
def check (r : PortRange) : Except Fault Unit :=
  if r.min % 2 ≠ 0 then .error (.setting .oddRangeStart)
  else if r.max ≤ r.min then .error (.setting .rangeTooShort)
  else .ok ()

/-- The number of pairs of neighbouring ports in the range. -/
def pairs (r : PortRange) : Nat :=
  if r.max ≤ r.min then 0 else (r.max.toNat - r.min.toNat + 1) / 2

end PortRange

namespace SipSettings

/-- Each host to be masked with the host presented in its place. -/
def masks (s : SipSettings) : Except Fault (List (Text × Text)) :=
  if s.maskHosts.length ≠ s.maskedHosts.length then
    .error (.setting (.maskListsDiffer s.maskHosts.length s.maskedHosts.length))
  else .ok (s.maskHosts.zip s.maskedHosts)

def domainRoutes (s : SipSettings) : Except Fault (List DomainRoute) :=
  let names := s.outboundDomainNames.length
  let hosts := s.outboundDomainHosts.length
  let ports := s.outboundDomainPorts.length
  if names ≠ hosts ∨ names ≠ ports then .error (.setting (.domainListsDiffer names hosts ports))
  else
    .ok ((s.outboundDomainNames.zip (s.outboundDomainHosts.zip s.outboundDomainPorts)).map
      fun (domain, host, port) => ⟨domain, host, port⟩)

def listenEndpoint (s : SipSettings) : Endpoint := ⟨s.listen.address, s.listen.port⟩

end SipSettings

namespace MediaSettings

/-- The longest delay that packets may be given to smooth their jitter, in milliseconds. -/
def dejitterLimit : Nat := 1000

/-- The delay aimed at to smooth jitter. -/
def dejitter (m : MediaSettings) : Duration := .milliseconds m.dejitterMilliseconds

/-- How long a stream may be silent. -/
def inactivity (m : MediaSettings) : Duration := .seconds m.inactivitySeconds

/-- Refuses settings that no relay can be built with. -/
def check (m : MediaSettings) : Except Fault Unit := do
  m.portRange.check
  if dejitterLimit < m.dejitterMilliseconds then
    .error (.setting (.dejitterTooLong m.dejitterMilliseconds dejitterLimit))
  else if m.maxStreams = 0 then .error (.setting .noStreamCapacity)
  else .ok ()

end MediaSettings

namespace Settings

/-- The product name used where none is set. -/
def defaultProduct : Text := "sipmasq/0.1.0".toList

/-- The product name of local answers: the one set, unless it is blank. -/
def productName (s : Settings) : Text :=
  match s.userAgent with
  | none => defaultProduct
  | some name => if Text.trim name = [] then defaultProduct else Text.trim name

def check (s : Settings) : Except Fault Unit :=
  if s.sip.listen.port = 0 then .error (.setting .noListenPort)
  else if s.registration.capacity = 0 then .error (.setting .noRegistrationCapacity)
  else if s.timers.tickSeconds = 0 then .error (.setting .noTickInterval)
  else .ok ()

end Settings

end BorderProxy
