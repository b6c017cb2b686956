import BorderProxy.Resolver
import BorderProxy.Uri

/-! When two URIs name the same party. Scheme and user must be equal; hosts are equal as names up to
letter case, or when both have the same known address. Ports count only where stated. -/

namespace BorderProxy.Uri

/-- Whether two hosts are equal as names or by their known addresses. -/
def hostsAgree (known : KnownHosts) (a b : Uri) : Bool :=
  Text.sameLetters a.hostText b.hostText ||
    match known a.hostText, known b.hostText with
    | some x, some y => x == y
    | _, _ => false

def sameSchemeAndUser (a b : Uri) : Bool := a.schemeOrSip == b.schemeOrSip && a.user == b.user

/-- Whether two URIs name the same party, whatever their ports. -/
def sameParty (known : KnownHosts) (a b : Uri) : Bool := sameSchemeAndUser a b && hostsAgree known a b

/-- Whether two URIs name the same party at the same port. -/
def samePlace (known : KnownHosts) (a b : Uri) : Bool := sameParty known a b && a.port == b.port

/-- As `sameParty`; `b` may also stand for `a` by an address that `a` was stored with. -/
def samePartyPinned (known : KnownHosts) (a : Uri) (pinned : Option Ip) (b : Uri) : Bool :=
  sameParty known a b ||
    match pinned with
    | some ip => sameSchemeAndUser a b && known b.hostText == some ip
    | none => false

end BorderProxy.Uri
