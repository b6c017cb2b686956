import BorderProxy.Address.Literal
import BorderProxy.Fault

/-! Session descriptions. A description is kept line by line as it was written; the lines that the proxy
understands are media lines, connection lines, titles and RTCP attributes. The lines before the first
media line belong to the session, and each media line begins a section. -/

namespace BorderProxy

inductive SdpItem where
  | media (kind : Text) (port : UInt16)
  | connection (ip : Ip)
  | title
  | rtcp
  | other
  deriving DecidableEq, Repr

structure SdpLine where
  raw : Text
  item : SdpItem
  deriving DecidableEq, Repr

structure SdpSection where
  kind : Text
  port : UInt16
  head : Text
  lines : List SdpLine
  deriving DecidableEq, Repr

structure Sdp where
  session : List SdpLine
  sections : List SdpSection
  deriving DecidableEq, Repr

/-- A media section with the address that it is received at. -/
structure MediaOffer where
  index : Nat
  kind : Text
  port : UInt16
  connection : Option Ip
  deriving DecidableEq, Repr

/-- Whether the section can be relayed: port zero disables it, and the address that names no host puts
it on hold. -/
def MediaOffer.canRelay (m : MediaOffer) : Bool :=
  m.port != 0 &&
    match m.connection with
    | some ip => !ip.isUnspecified
    | none => false

namespace SdpLine

/-- A line without its end: one line feed, and one carriage return before it. -/
def text (raw : Text) : Text :=
  match raw.reverse with
  | '\n' :: '\r' :: rest => rest.reverse
  | '\n' :: rest => rest.reverse
  | _ => raw

def isEnd (c : Char) : Bool := c == '\r' || c == '\n'

/-- A line without any line feeds and carriage returns at its end. -/
def content (raw : Text) : Text := Text.dropEndWhile isEnd raw

def readMedia (rest : Text) : Except Fault SdpItem :=
  match Text.words rest with
  | [] => .error (.media .emptyMediaLine)
  | [_] => .error (.media (.invalidPort rest))
  | kind :: port :: _ =>
    match Text.uint16? ((Text.splitOn '/' port).headD []) with
    | some port => .ok (.media kind port)
    | none => .error (.media (.invalidPort rest))

def readConnection (rest : Text) : Except Fault Ip :=
  match Text.words rest with
  | network :: family :: address :: _ =>
    let address := (Text.splitOn '/' address).headD []
    if !Text.sameLetters network "IN".toList then .error (.media (.unsupportedNetwork network))
    else if Text.sameLetters family "IP6".toList then
      match Ip.readV6 address with
      | some ip => .ok ip
      | none => .error (.media .invalidV6)
    else
      match Ip.readV4 address with
      | some ip => .ok ip
      | none => .error (.media .invalidV4)
  | _ => .error (.media (.invalidConnection rest))

def readItem (line : Text) : Except Fault SdpItem :=
  match line with
  | 'm' :: '=' :: rest => readMedia rest
  | 'c' :: '=' :: rest => (readConnection rest).map .connection
  | 'i' :: '=' :: _ => .ok .title
  | _ => .ok (if Text.startsWith "a=rtcp:".toList line then .rtcp else .other)

def read (raw : Text) : Except Fault SdpLine := (readItem (text raw)).map fun item => ⟨raw, item⟩

def isTitle (l : SdpLine) : Bool := l.item == .title

def connection? (l : SdpLine) : Option Ip :=
  match l.item with
  | .connection ip => some ip
  | _ => none

end SdpLine

namespace Sdp

def rawLines : Text → List Text
  | [] => []
  | c :: cs =>
    if c = '\n' then [c] :: rawLines cs
    else
      match rawLines cs with
      | [] => [[c]]
      | line :: lines => (c :: line) :: lines

/-- Lines gathered into those of the session and those of each section. -/
def ofLines : List SdpLine → Sdp
  | [] => ⟨[], []⟩
  | line :: lines =>
    let rest := ofLines lines
    match line.item with
    | .media kind port => ⟨[], ⟨kind, port, line.raw, rest.session⟩ :: rest.sections⟩
    | _ => ⟨line :: rest.session, rest.sections⟩

/-- Reads a session description; the first line that cannot be read decides the fault. -/
def read (body : Text) : Except Fault Sdp := (rawLines body).mapM SdpLine.read |>.map ofLines

def lastConnection? (lines : List SdpLine) : Option Ip :=
  (lines.filterMap SdpLine.connection?).getLast?

/-- The address that a section is received at: its own, or else that of the session. -/
def connectionOf (s : Sdp) (part : SdpSection) : Option Ip :=
  (lastConnection? part.lines).or (lastConnection? s.session)

/-- The media sections in order. -/
def media (s : Sdp) : List MediaOffer :=
  s.sections.zipIdx.map fun (part, index) => ⟨index, part.kind, part.port, s.connectionOf part⟩

end Sdp

end BorderProxy
