import BorderProxy.Uri

/-! Reading URIs. Each part is read off the front of the text and the rest is handed on: the scheme, the
user part, the host with its port, and parameters for as long as they follow. -/

namespace BorderProxy

namespace Scheme

/-- Reads a scheme: one of SIP in either case, or else all text before the first "://" ahead. -/
def readFront (t : Text) : Option Scheme × Text :=
  match Text.afterPrefixAnyCase? "sip:".toList t with
  | some rest => (some .sip, rest)
  | none =>
    match Text.afterPrefixAnyCase? "sips:".toList t with
    | some rest => (some .sips, rest)
    | none =>
      match Text.cutAt? "://".toList t with
      | some (name, rest) => (some (.other name), rest)
      | none => (none, t)

end Scheme

namespace UserInfo

/-- The user part that a text without its end mark is: a password follows the first colon. -/
def ofText (t : Text) : UserInfo :=
  match Text.cut? ':' t with
  | some (user, password) => ⟨user, some password⟩
  | none => ⟨t, none⟩

/-- Reads a user part: the text before the first point or at sign ahead, if that is an at sign. -/
def readFront (t : Text) : Option UserInfo × Text :=
  let pieces := t.span fun c => c != '.' && c != '@'
  match pieces.2 with
  | '@' :: rest => (some (ofText pieces.1), rest)
  | _ => (none, t)

end UserInfo

namespace HostPort

/-- The host and port in a text that holds nothing else: a port follows the first colon. -/
def ofText (t : Text) : Option HostPort :=
  match Text.cut? ':' t with
  | none => some ⟨.ofText t, none⟩
  | some (host, port) => (Text.uint16? port).map fun port => ⟨.ofText host, some port⟩

/-- As `ofText`, but a port follows the last colon. -/
def ofMaskText (t : Text) : Option HostPort :=
  match Text.cutLast? ':' t with
  | none => some ⟨.ofText t, none⟩
  | some (host, port) => (Text.uint16? port).map fun port => ⟨.ofText host, some port⟩

/-- Reads a host and port up to a semicolon or a space. -/
def readFront (t : Text) : Option (HostPort × Text) :=
  let pieces := t.span fun c => c != ';' && c != ' '
  match pieces.1 with
  | [] => none
  | front => (ofText front).map fun hostPort => (hostPort, pieces.2)

end HostPort

namespace UriParam

def transports : List Text :=
  ["UDP", "TCP", "TLS", "SCTP", "TLS-SCTP", "WS", "WSS"].map String.toList

/-- The parameters that are known by name when they have a value of any form. -/
def namedValues : List Text :=
  ["user", "ttl", "maddr", "branch", "received", "tag", "expires", "q"].map String.toList

/-- A parameter with a value in its canonical spelling; a transport or method must be a known one. -/
def withValue (name value : Text) : Option UriParam :=
  let key := Text.lower name
  if key = "transport".toList then
    if transports.contains (Text.upper value) then some ⟨key, some (Text.upper value)⟩ else none
  else if key = "method".toList then (Method.read value).map fun m => ⟨key, some m.text⟩
  else if namedValues.contains key then some ⟨key, some value⟩
  else some ⟨name, some value⟩

/-- A parameter without a value in its canonical spelling. -/
def withoutValue (name : Text) : UriParam :=
  if Text.lower name = "lr".toList then ⟨Text.lower name, none⟩ else ⟨name, none⟩

/-- Reads parameters for as long as they follow; `steps` bounds their number. -/
def readAll : (steps : Nat) → Text → Option (List UriParam × Text)
  | steps + 1, ';' :: t =>
    let name := t.takeWhile isTokenChar
    match t.dropWhile isTokenChar with
    | '=' :: rest => do
      let param ← withValue name (rest.takeWhile isTokenChar)
      let more ← readAll steps (rest.dropWhile isTokenChar)
      return (param :: more.1, more.2)
    | rest => do
      let more ← readAll steps rest
      return (withoutValue name :: more.1, more.2)
  | _, t => some ([], t)

def readFront (t : Text) : Option (List UriParam × Text) := readAll t.length t

end UriParam

namespace Uri

def readFront (t : Text) : Option (Uri × Text) := do
  let (scheme, t) := Scheme.readFront t
  let (userInfo, t) := UserInfo.readFront t
  let (hostPort, t) ← HostPort.readFront t
  let (params, t) ← UriParam.readFront t
  return (⟨scheme, userInfo, hostPort, params⟩, t)

def read (t : Text) : Option Uri := (readFront t).map (·.1)

end Uri

end BorderProxy
