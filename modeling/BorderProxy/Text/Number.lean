import BorderProxy.Text

/-! Decimal and hexadecimal numbers as text. A number is read from left to right and the first
position that cannot be continued decides which fault is reported. -/

namespace BorderProxy

/-- Why a text is no number. -/
inductive NumberFault where
  | empty
  | invalidDigit
  | tooLarge
  deriving DecidableEq, Repr

def NumberFault.message : NumberFault → Text
  | .empty => "cannot parse integer from empty string".toList
  | .invalidDigit => "invalid digit found in string".toList
  | .tooLarge => "number too large to fit in target type".toList

namespace Text

def digit? (c : Char) : Option Nat :=
  if '0' ≤ c ∧ c ≤ '9' then some (c.toNat - '0'.toNat) else none

def hexDigit? (c : Char) : Option Nat :=
  if '0' ≤ c ∧ c ≤ '9' then some (c.toNat - '0'.toNat)
  else if 'a' ≤ c ∧ c ≤ 'f' then some (c.toNat - 'a'.toNat + 10)
  else if 'A' ≤ c ∧ c ≤ 'F' then some (c.toNat - 'A'.toNat + 10)
  else none

/-- Reads digits onto `value`, which stays at most `limit`. -/
def readDigits (limit : Nat) (value : Nat) : Text → Except NumberFault Nat
  | [] => .ok value
  | c :: cs =>
    match digit? c with
    | none => .error .invalidDigit
    | some d =>
      if limit < value * 10 + d then .error .tooLarge else readDigits limit (value * 10 + d) cs

/-- Reads an unsigned number of at most `limit`: decimal digits after at most one plus sign. -/
def readNumber (limit : Nat) : Text → Except NumberFault Nat
  | [] => .error .empty
  | ['+'] => .error .invalidDigit
  | '+' :: cs => readDigits limit 0 cs
  | cs => readDigits limit 0 cs

def readUInt16 (t : Text) : Except NumberFault UInt16 :=
  (readNumber 65535 t).map UInt16.ofNat

/-- The number of 16 bits that the text writes, if it writes one. -/
def uint16? (t : Text) : Option UInt16 := (readUInt16 t).toOption

/-- The number of 32 bits that the text writes, if it writes one. -/
def uint32? (t : Text) : Option UInt32 := (readNumber 4294967295 t).toOption.map UInt32.ofNat

/-- The number of 8 bits that the text writes, if it writes one. -/
def uint8? (t : Text) : Option UInt8 := (readNumber 255 t).toOption.map UInt8.ofNat

/-- A number in decimal digits without leading zeros. -/
def decimal (n : Nat) : Text := Nat.toDigits 10 n

/-- A number in lower-case hexadecimal digits without leading zeros. -/
def hexadecimal (n : Nat) : Text := Nat.toDigits 16 n

def hexByte (b : UInt8) : Text :=
  [Nat.digitChar (b.toNat / 16), Nat.digitChar (b.toNat % 16)]

def hexBytes (bytes : List UInt8) : Text := bytes.flatMap hexByte

def padZeros (width : Nat) (t : Text) : Text := List.replicate (width - t.length) '0' ++ t

end Text

end BorderProxy
