import BorderProxy.Text.Number

/-! Network addresses and their canonical text. An address of version 4 is written as four decimal
numbers; one of version 6 as eight hexadecimal groups whose first longest run of at least two zero
groups is left out, and one that embeds a version 4 address with that address written out. -/

namespace BorderProxy

inductive Ip where
  | v4 (a b c d : UInt8)
  | v6 (groups : Vector UInt16 8)
  deriving DecidableEq, Repr

namespace Ip

def sameFamily : Ip → Ip → Bool
  | .v4 .., .v4 .. => true
  | .v6 .., .v6 .. => true
  | _, _ => false

def isV4 : Ip → Bool
  | .v4 .. => true
  | .v6 .. => false

/-- The address that names no host: all zeros. -/
def isUnspecified : Ip → Bool
  | .v4 a b c d => a == 0 && b == 0 && c == 0 && d == 0
  | .v6 groups => groups.toList.all (· == 0)

/-- A run of zero groups: where it starts and how long it is. -/
structure ZeroRun where
  start : Nat
  length : Nat
  deriving DecidableEq, Repr

def leadingZeros : List UInt16 → Nat
  | [] => 0
  | g :: gs => if g = 0 then leadingZeros gs + 1 else 0

/-- The first longest run of zero groups; `start` is the position of the list's head. -/
def longestZeroRun (start : Nat) : List UInt16 → ZeroRun
  | [] => ⟨start, 0⟩
  | g :: gs =>
    let here := leadingZeros (g :: gs)
    let later := longestZeroRun (start + 1) gs
    if later.length ≤ here then ⟨start, here⟩ else later

/-- Groups in hexadecimal with colons between them. -/
def groupsText (groups : List UInt16) : Text :=
  Text.join [':'] (groups.map fun g => Text.hexadecimal g.toNat)

/-- Four bytes in decimal with points between them. -/
def quadText (a b c d : UInt8) : Text :=
  Text.join ['.'] ([a, b, c, d].map fun n => Text.decimal n.toNat)

def groupBytes (g : UInt16) : UInt8 × UInt8 := (UInt8.ofNat (g.toNat / 256), UInt8.ofNat (g.toNat % 256))

def v6Text (groups : List UInt16) : Text :=
  match groups with
  | [0, 0, 0, 0, 0, 0xFFFF, g, h] =>
    "::ffff:".toList ++
      quadText (groupBytes g).1 (groupBytes g).2 (groupBytes h).1 (groupBytes h).2
  | _ =>
    let run := longestZeroRun 0 groups
    if run.length ≤ 1 then groupsText groups
    else groupsText (groups.take run.start) ++ "::".toList ++
      groupsText (groups.drop (run.start + run.length))

/-- The canonical text of an address. -/
def text : Ip → Text
  | .v4 a b c d => quadText a b c d
  | .v6 groups => v6Text groups.toList

/-- The text of an address where a port may follow: version 6 stands in brackets. -/
def hostText : Ip → Text
  | .v4 a b c d => quadText a b c d
  | .v6 groups => '[' :: v6Text groups.toList ++ [']']

end Ip

structure Endpoint where
  ip : Ip
  port : UInt16
  deriving DecidableEq, Repr

def Endpoint.text (e : Endpoint) : Text :=
  e.ip.hostText ++ ':' :: Text.decimal e.port.toNat

end BorderProxy
