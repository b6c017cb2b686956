import BorderProxy.Address.Literal
import BorderProxy.Field.NameAddr

/-! Via values: the protocol, the host and port that sent the message, and parameters. A response goes
to the address that the receiver noted in "received" and "rport", or else to the sender's own. -/

namespace BorderProxy.Via

/-- The value of the parameter with a name, in any case. -/
def param? (via name : Text) : Option Text := paramAmong? name ((Text.splitOn ';' via).drop 1)

/-- The port in a text with blanks around it. -/
def looseUInt16? (t : Text) : Option UInt16 := Text.uint16? (Text.trim t)

/-- The host and port in the part of a value that names the sender. A name with several colons is an
address without port. -/
def readSender (sender : Text) : Option (Text × Option UInt16) :=
  match sender with
  | '[' :: inner =>
    (Text.cut? ']' inner).map fun (host, rest) =>
      match rest with
      | ':' :: port => (host, looseUInt16? port)
      | _ => (host, none)
  | _ =>
    match Text.cutLast? ':' sender with
    | some (host, port) =>
      if host.contains ':' then some (sender, none) else some (Text.trim host, looseUInt16? port)
    | none => some (sender, none)

def sentBy? (via : Text) : Option (Text × Option UInt16) := do
  let (_, rest) ← Text.cutWhere? Text.isBlank (Text.trim via)
  let sender := (Text.splitOn ';' (Text.trim rest)).headD []
  readSender (Text.trim sender)

def replyTarget? (via : Text) : Option (Text × UInt16) := do
  let (sentHost, sentPort) ← sentBy? via
  let host :=
    match param? via "received".toList with
    | some (c :: cs) => c :: cs
    | _ => sentHost
  let port := ((param? via "rport".toList).bind Text.uint16?).or sentPort
  return (host, port.getD sipPort)

/-- Whether a parameter is an "rport" that waits for its value. -/
def isOpenRport (piece : Text) : Bool := Text.sameLetters (Text.trim piece) "rport".toList

/-- The value with the source noted in it: an "rport" that waits for its value gets the source port, and
"received" is added when the sender is not the source address and none is there. Nothing is noted in a
value whose sender cannot be read. -/
def stamp? (source : Endpoint) (via : Text) : Option Text := do
  let (sentHost, _) ← sentBy? via
  let pieces := Text.splitOn ';' via
  let filled := "rport=".toList ++ Text.decimal source.port.toNat
  let stamped :=
    pieces.take 1 ++ (pieces.drop 1).map fun piece => if isOpenRport piece then filled else piece
  let needsReceived :=
    Ip.readHost sentHost != some source.ip && (param? via "received".toList).isNone
  let received := if needsReceived then ["received=".toList ++ source.ip.text] else []
  if needsReceived || (pieces.drop 1).any isOpenRport then
    some (Text.join [';'] (stamped ++ received))
  else none

end BorderProxy.Via
