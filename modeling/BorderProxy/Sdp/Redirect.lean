import BorderProxy.Sdp

/-! Pointing media sections at a relay. A relayed section gets the relay's port and address; all other
lines stay as they were written. Where the session's own connection line has to name the relay, each
section that depended on it and is not relayed gets a copy of the old line. -/

namespace BorderProxy

/-- Where a section is pointed at: the address of the relay, and how lines of it end. -/
structure RelayTarget where
  ip : Ip
  newline : Text

namespace RelayTarget

/-- Network, family and address as connection lines name them. -/
def place (t : RelayTarget) : Text :=
  (if t.ip.isV4 then "IN IP4 ".toList else "IN IP6 ".toList) ++ t.ip.text

/-- A line with new content; it ends as the relay's lines do if it had an end. -/
def withContent (t : RelayTarget) (raw content : Text) : Text :=
  content ++ if SdpLine.content raw = raw then [] else t.newline

def mediaContent (port : UInt16) (raw : Text) : Text :=
  "m=".toList ++
    Text.join [' '] ((Text.words ((SdpLine.content raw).drop 2)).set 1 (Text.decimal port.toNat))

/-- An RTCP attribute with another port, and with the relay's address if it names one. -/
def rtcpContent (t : RelayTarget) (port : UInt16) (raw : Text) : Text :=
  let tokens := (Text.words ((SdpLine.content raw).drop 7)).drop 1
  let named :=
    match tokens with
    | network :: _ :: _ :: rest =>
      if Text.sameLetters network "IN".toList then t.place :: rest else tokens
    | _ => tokens
  Text.join [' '] (("a=rtcp:".toList ++ Text.decimal port.toNat) :: named)

/-- A connection line that names the relay, unless it puts its media on hold. -/
def faceConnection (t : RelayTarget) (line : SdpLine) : Text :=
  match line.item with
  | .connection ip =>
    if ip.isUnspecified then line.raw else t.withContent line.raw ("c=".toList ++ t.place)
  | _ => line.raw

/-- The port after a port, at most the last one. -/
def nextPort (port : UInt16) : UInt16 := UInt16.ofNat (min (port.toNat + 1) 65535)

def faceLine (t : RelayTarget) (port : UInt16) (line : SdpLine) : Text :=
  match line.item with
  | .rtcp => t.withContent line.raw (t.rtcpContent (nextPort port) line.raw)
  | _ => t.faceConnection line

def faceSection (t : RelayTarget) (port : UInt16) (part : SdpSection) : Text :=
  t.withContent part.head (mediaContent port part.head) ++ part.lines.flatMap (t.faceLine port)

/-- A section with a connection line put in behind its titles. -/
def restoreConnection (t : RelayTarget) (connection : Text) (part : SdpSection) : Text :=
  let titles := part.lines.takeWhile SdpLine.isTitle
  let before := part.head ++ titles.flatMap (·.raw)
  let gap := if before.getLast? = some '\n' then [] else t.newline
  before ++ gap ++ connection ++ t.newline ++
    (part.lines.dropWhile SdpLine.isTitle).flatMap (·.raw)

end RelayTarget

def SdpSection.raw (part : SdpSection) : Text := part.head ++ part.lines.flatMap (·.raw)

/-- Whether a section has no connection line of its own. -/
def SdpSection.inherits (part : SdpSection) : Bool := (Sdp.lastConnection? part.lines).isNone

namespace Sdp

/-- The last connection line of the session that puts nothing on hold. -/
def sharedConnection? (s : Sdp) : Option Text :=
  ((s.session.filter fun line =>
    match line.item with
    | .connection ip => !ip.isUnspecified
    | _ => false).getLast?).map fun line => SdpLine.content line.raw

def portOf (ports : List (Option UInt16)) (index : Nat) : Option UInt16 := ports[index]?.join

/-- The session's connection line, if some relayed section depends on it. -/
def relayedConnection? (s : Sdp) (ports : List (Option UInt16)) : Option Text :=
  if s.sections.zipIdx.any fun (part, index) => part.inherits && (portOf ports index).isSome then
    s.sharedConnection?
  else none

/-- The text of a description with the sections that have a port pointed at the relay. -/
def pointAt (s : Sdp) (t : RelayTarget) (ports : List (Option UInt16)) : Text :=
  let shared := s.relayedConnection? ports
  let session :=
    s.session.flatMap fun line => if shared.isSome then t.faceConnection line else line.raw
  let sections := s.sections.zipIdx.flatMap fun (part, index) =>
    match portOf ports index with
    | some port => t.faceSection port part
    | none =>
      match shared with
      | some connection =>
        if part.inherits then t.restoreConnection connection part else part.raw
      | none => part.raw
  session ++ sections

/-- How the lines of a text end: with a carriage return if any line does. -/
def newlineOf (body : Text) : Text :=
  if Text.occursIn "\r\n".toList body then "\r\n".toList else "\n".toList

/-- The text of a body with the sections that have a port pointed at the relay. -/
def redirect (body : Text) (ip : Ip) (ports : List (Option UInt16)) : Except Fault Text :=
  (read body).map fun s => s.pointAt ⟨ip, newlineOf body⟩ ports

end Sdp

end BorderProxy
