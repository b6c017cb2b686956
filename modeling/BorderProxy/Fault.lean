import BorderProxy.Text.Number

/-! The faults that the proxy reports, by cause, and the wording of each. -/

namespace BorderProxy

inductive SettingFault where
  | maskListsDiffer (masks masked : Nat)
  | domainListsDiffer (names hosts ports : Nat)
  | oddRangeStart
  | rangeTooShort
  | noListenPort
  | noRegistrationCapacity
  | noTickInterval
  | dejitterTooLong (milliseconds limit : Nat)
  | noStreamCapacity
  | emptyHost
  | unterminatedLiteral (host : Text)
  | badPort (fault : NumberFault)
  | deviceNameWithNul (name : Text)
  | noSuchDevice (name : Text)
  | codePointOutOfRange (value : Nat)
  deriving DecidableEq, Repr

/-- A session description or a media packet that cannot be handled. -/
inductive MediaFault where
  | emptyMediaLine
  | invalidPort (line : Text)
  | invalidConnection (line : Text)
  | unsupportedNetwork (network : Text)
  | invalidV4
  | invalidV6
  | packetTooLong (bytes : Nat)
  deriving DecidableEq, Repr

inductive MessageFault where
  | noVia
  | noFrom
  | noTo
  | noCallId
  | noSequence
  | noFurtherVia
  deriving DecidableEq, Repr

inductive Store where
  | registrations
  | streams
  | delayedPackets
  deriving DecidableEq, Repr

inductive Fault where
  | transport
  | setting (fault : SettingFault)
  | unreadable
  | media (fault : MediaFault)
  | storeFull (store : Store)
  | noPortAvailable (first last : UInt16)
  | noMatchingStream
  | unresolvableHost (host : Text)
  | malformed (fault : MessageFault)
  | relayStopped
  deriving DecidableEq, Repr

def SettingFault.message : SettingFault → Text
  | .maskListsDiffer masks masked =>
    "mask_host has ".toList ++ Text.decimal masks ++ " entries but masked_host has ".toList ++
      Text.decimal masked
  | .domainListsDiffer names hosts ports =>
    "outbound_domain_name/host/port lists differ in length (".toList ++ Text.decimal names ++
      '/' :: Text.decimal hosts ++ '/' :: Text.decimal ports ++ [')']
  | .oddRangeStart => "media port range must start on an even port".toList
  | .rangeTooShort => "media port range must span at least two ports".toList
  | .noListenPort => "sip listen port must not be 0".toList
  | .noRegistrationCapacity => "registration capacity must be positive".toList
  | .noTickInterval => "timer tick interval must be positive".toList
  | .dejitterTooLong milliseconds limit =>
    "dejitter of ".toList ++ Text.decimal milliseconds ++ " ms exceeds ".toList ++
      Text.decimal limit ++ " ms".toList
  | .noStreamCapacity => "media stream capacity must be positive".toList
  | .emptyHost => "empty host".toList
  | .unterminatedLiteral host => "unterminated IPv6 literal: ".toList ++ host
  | .badPort fault => fault.message
  | .deviceNameWithNul name => "interface name contains interior NUL bytes: ".toList ++ name
  | .noSuchDevice name =>
    "failed to bind socket to interface ".toList ++ name ++ ": No such device (os error 19)".toList
  | .codePointOutOfRange value => "invalid DSCP value ".toList ++ Text.decimal value

def MediaFault.message : MediaFault → Text
  | .emptyMediaLine => "empty media line".toList
  | .invalidPort line => "invalid media port: m=".toList ++ line
  | .invalidConnection line => "invalid connection line: c=".toList ++ line
  | .unsupportedNetwork network => "unsupported network type ".toList ++ network
  | .invalidV4 => "invalid IPv4 address syntax".toList
  | .invalidV6 => "invalid IPv6 address syntax".toList
  | .packetTooLong bytes =>
    "datagram of ".toList ++ Text.decimal bytes ++ " bytes exceeds delay slot".toList

def MessageFault.message : MessageFault → Text
  | .noVia => "missing Via header".toList
  | .noFrom => "missing From header".toList
  | .noTo => "missing To header".toList
  | .noCallId => "missing Call-ID header".toList
  | .noSequence => "missing or invalid CSeq header".toList
  | .noFurtherVia => "response without further Via".toList

def Store.name : Store → Text
  | .registrations => "registration".toList
  | .streams => "media stream".toList
  | .delayedPackets => "delay queue".toList

def Fault.message : Fault → Text
  | .transport => "transport error".toList
  | .setting fault => "invalid configuration: ".toList ++ fault.message
  | .unreadable => "sip stack error".toList
  | .media fault => "media relay error: ".toList ++ fault.message
  | .storeFull store => store.name ++ " table is full".toList
  | .noPortAvailable first last =>
    "no RTP port available in range ".toList ++ Text.decimal first.toNat ++
      '-' :: Text.decimal last.toNat
  | .noMatchingStream => "no matching media stream".toList
  | .unresolvableHost host => "unable to resolve host `".toList ++ host ++ "`".toList
  | .malformed fault => "malformed message: ".toList ++ fault.message
  | .relayStopped => "rtp relay worker is not running".toList

/-- Whether the fault is a lack of slots or ports, which passes when others are released. -/
def Fault.isShortage : Fault → Bool
  | .storeFull _ => true
  | .noPortAvailable .. => true
  | _ => false

end BorderProxy
