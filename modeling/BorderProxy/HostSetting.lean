import BorderProxy.Settings

/-! A host with an optional port, as settings give it. -/

namespace BorderProxy

def readPort (t : Text) : Except Fault UInt16 :=
  (Text.readUInt16 t).mapError fun fault => .setting (.badPort fault)

/-- Reads "host", "host:port", "[literal]" or "[literal]:port"; a host with several colons and no
brackets is a literal without port. -/
def readHostPort (t : Text) (defaultPort : UInt16) : Except Fault (Text × UInt16) :=
  match Text.trim t with
  | [] => .error (.setting .emptyHost)
  | '[' :: rest =>
    match Text.cut? ']' rest with
    | none => .error (.setting (.unterminatedLiteral ('[' :: rest)))
    | some (host, ':' :: port) => (readPort port).map fun port => (host, port)
    | some (host, _) => .ok (host, defaultPort)
  | value =>
    match Text.cut? ':' value with
    | none => .ok (value, defaultPort)
    | some (host, port) =>
      if port.contains ':' then .ok (value, defaultPort)
      else (readPort port).map fun port => (host, port)

end BorderProxy
