import BorderProxy.Address

/-! Reading addresses. Decimal parts have one to three digits and no leading zero; hexadecimal groups
have one to four digits in either case; "::" stands once for at least one zero group; the last two
groups may be written as a version 4 address. -/

namespace BorderProxy.Ip

def readByte (t : Text) : Option UInt8 :=
  if t = [] ∨ 3 < t.length ∨ (t.head? = some '0' ∧ t.length ≠ 1) then none
  else
    match t.mapM Text.digit? with
    | none => none
    | some digits =>
      let n := digits.foldl (fun value d => value * 10 + d) 0
      if n ≤ 255 then some (UInt8.ofNat n) else none

def readQuad (t : Text) : Option (UInt8 × UInt8 × UInt8 × UInt8) :=
  match Text.splitOn '.' t with
  | [a, b, c, d] => do return (← readByte a, ← readByte b, ← readByte c, ← readByte d)
  | _ => none

def readV4 (t : Text) : Option Ip :=
  (readQuad t).map fun (a, b, c, d) => .v4 a b c d

def readGroup (t : Text) : Option UInt16 :=
  if t = [] ∨ 4 < t.length then none
  else
    (t.mapM Text.hexDigit?).map fun digits =>
      UInt16.ofNat (digits.foldl (fun value d => value * 16 + d) 0)

def groupOfBytes (high low : UInt8) : UInt16 := UInt16.ofNat (high.toNat * 256 + low.toNat)

/-- Reads pieces between colons as groups; with `quadLast` the last may be a version 4 address. -/
def readGroups (quadLast : Bool) : List Text → Option (List UInt16)
  | [] => some []
  | [piece] =>
    match readGroup piece with
    | some g => some [g]
    | none =>
      if quadLast then
        (readQuad piece).map fun (a, b, c, d) => [groupOfBytes a b, groupOfBytes c d]
      else none
  | piece :: pieces => do return (← readGroup piece) :: (← readGroups quadLast pieces)

/-- Reads one side of a "::"; an empty side has no groups. -/
def readSide (quadLast : Bool) (t : Text) : Option (List UInt16) :=
  if t = [] then some [] else readGroups quadLast (Text.splitOn ':' t)

def ofGroups (groups : List UInt16) : Option Ip :=
  if h : groups.length = 8 then some (.v6 ⟨groups.toArray, by simp [h]⟩) else none

def readV6 (t : Text) : Option Ip :=
  match Text.cutAt? "::".toList t with
  | none => (readSide true t).bind ofGroups
  | some (front, back) => do
    let head ← readSide false front
    let tail ← readSide true back
    if 7 < head.length + tail.length then none
    else ofGroups (head ++ List.replicate (8 - head.length - tail.length) 0 ++ tail)

/-- Reads an address of either version. -/
def read (t : Text) : Option Ip := (readV4 t).or (readV6 t)

/-- Reads an address as a host name may give it: brackets around the whole are allowed. -/
def readHost (t : Text) : Option Ip :=
  match t with
  | '[' :: inner =>
    match inner.getLast? with
    | some ']' => read inner.dropLast
    | _ => read t
  | _ => read t

end BorderProxy.Ip

namespace BorderProxy

/-- Reads an address and a port with a colon between them; version 6 stands in brackets. -/
def Endpoint.read (t : Text) : Option Endpoint := do
  let (host, port) ← Text.cutLast? ':' t
  let port ← Text.uint16? port
  match host with
  | '[' :: inner =>
    match inner.getLast? with
    | some ']' => return ⟨← Ip.readV6 inner.dropLast, port⟩
    | _ => none
  | _ => return ⟨← Ip.readV4 host, port⟩

end BorderProxy
