import BorderProxy.Field.CommaList
import BorderProxy.Message.Fields
import BorderProxy.Message.Reader

/-! The normal form of header fields: compact names are spelled out, and each Via, Route and Record-Route
has a field of its own. Every message is brought into this form when it is received. -/

namespace BorderProxy

/-- The standard name that a compact name stands for. -/
def StandardName.ofCompact (t : Text) : Option StandardName :=
  match Text.lower t with
  | ['f'] => some .from
  | ['t'] => some .to
  | ['i'] => some .callId
  | ['m'] => some .contact
  | ['v'] => some .via
  | ['l'] => some .contentLength
  | ['c'] => some .contentType
  | ['e'] => some .contentEncoding
  | ['k'] => some .supported
  | ['s'] => some .subject
  | _ => none

def Header.expand (h : Header) : Header :=
  match h.name with
  | .standard _ => h
  | .other spelling =>
    match StandardName.ofCompact spelling with
    | some name => .of name h.value
    | none => h

/-- Whether the values of a name are lists that are taken apart. -/
def HeaderName.isSplit : HeaderName → Bool
  | .standard .via => true
  | .standard .route => true
  | .standard .recordRoute => true
  | _ => false

/-- The fields that a field stands for, one per list item where its values are taken apart. -/
def Header.splitItems (h : Header) : Headers :=
  if h.name.isSplit then (CommaList.items h.value).map fun item => ⟨h.name, item⟩ else [h]

def Headers.normal (hs : Headers) : Headers := hs.flatMap fun h => h.expand.splitItems

def Message.read (bytes : List UInt8) : Except Fault Message :=
  match Message.readPlain bytes with
  | some m => .ok (m.mapHeaders Headers.normal)
  | none => .error .unreadable

/-- The side of the border that a message travels towards. -/
inductive Direction where
  /-- From the public network to a registered user agent. -/
  | incoming
  /-- From a registered user agent to the public network. -/
  | outgoing
  deriving DecidableEq, Repr

def Direction.opposite : Direction → Direction
  | .incoming => .outgoing
  | .outgoing => .incoming

@[simp] theorem Direction.opposite_opposite (d : Direction) : d.opposite.opposite = d := by
  cases d <;> rfl

def Direction.text : Direction → Text
  | .incoming => "incoming".toList
  | .outgoing => "outgoing".toList

structure Ticket where
  message : Message
  source : Endpoint
  direction : Option Direction := none
  /-- A destination that a plugin chose. -/
  nextHop : Option Endpoint := none
  deriving DecidableEq, Repr

def Ticket.read (bytes : List UInt8) (source : Endpoint) : Except Fault Ticket :=
  (Message.read bytes).map fun message => { message, source }

end BorderProxy
