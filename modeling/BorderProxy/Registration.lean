import BorderProxy.Arena
import BorderProxy.Fault
import BorderProxy.Uri.Identity

/-! The bindings of registered user agents, in a table of fixed capacity. A binding is found by the pair
of the URI that was registered and the contact that it is bound to. -/

namespace BorderProxy

structure Registration where
  /-- The contact at which the user agent is reached. -/
  contact : Uri
  /-- The URI that was registered. -/
  registered : Uri
  /-- The URI presented to the public network in place of the contact. -/
  presented : Uri
  contactIp : Option Ip
  /-- The address that the registered host had when the binding was made. -/
  registeredIp : Option Ip
  /-- The address that the presented host had when the binding was made. -/
  presentedIp : Option Ip
  /-- The topmost Via of the request that made the binding. -/
  returnVia : Option Text
  expires : Instant
  deriving DecidableEq, Repr

namespace Registration

/-- Whether the binding has not expired. -/
def isCurrent (now : Instant) (r : Registration) : Bool := now ≤ r.expires

def isRegisteredAs (known : KnownHosts) (uri : Uri) (r : Registration) : Bool :=
  Uri.samePartyPinned known r.registered r.registeredIp uri

/-- Whether a URI names the party as it is presented. -/
def isPresentedAs (known : KnownHosts) (uri : Uri) (r : Registration) : Bool :=
  Uri.samePartyPinned known r.presented r.presentedIp uri

def isReachedAt (known : KnownHosts) (uri : Uri) (r : Registration) : Bool :=
  Uri.samePartyPinned known r.contact r.contactIp uri

/-- Whether the binding is one of a registered URI; with a contact, whether it binds that contact. -/
def binds (known : KnownHosts) (registered : Uri) (contact : Option Uri) (r : Registration) : Bool :=
  Uri.samePlace known r.registered registered &&
    match contact with
    | some contact => Uri.samePlace known r.contact contact
    | none => true

end Registration

abbrev Registrations := Arena Registration

namespace Registrations

/-- The bindings that have not expired, in the order of the slots. -/
def current (now : Instant) (t : Registrations) : List Registration :=
  (t.entries.map (·.2)).filter (Registration.isCurrent now)

/-- The slot of the first binding of a registered URI to a contact. -/
def slot? (known : KnownHosts) (registered contact : Uri) (t : Registrations) : Option Nat :=
  (t.find? (Registration.binds known registered (some contact))).map (·.1)

/-- Stores a binding in place of an equal one, or else in an empty slot. -/
def upsert (known : KnownHosts) (r : Registration) (t : Registrations) :
    Except Fault (Nat × Registrations) :=
  match t.slot? known r.registered r.contact with
  | some index => .ok (index, t.replace index r)
  | none =>
    match t.insert? r with
    | some stored => .ok stored
    | none => .error (.storeFull .registrations)

/-- Removes the bindings that satisfy `p`, and gives them in the order of the slots. -/
def removeWhere (p : Registration → Bool) (t : Registrations) : List Registration × Registrations :=
  let gone := t.entries.filter fun e => p e.2
  (gone.map (·.2), t.eraseAll (gone.map (·.1)))

/-- Removes the bindings of a registered URI, or only the one to a contact; gives their number. -/
def unregister (known : KnownHosts) (registered : Uri) (contact : Option Uri) (t : Registrations) :
    Nat × Registrations :=
  let gone := t.removeWhere (Registration.binds known registered contact)
  (gone.1.length, gone.2)

/-- Removes the bindings that have expired, and gives them in the order of the slots. -/
def age (now : Instant) (t : Registrations) : List Registration × Registrations :=
  t.removeWhere fun r => !r.isCurrent now

end Registrations

end BorderProxy
