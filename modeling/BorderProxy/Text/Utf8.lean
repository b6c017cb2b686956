import BorderProxy.Text

/-! UTF-8. The decoder takes one byte at a time and remembers how many continuation bytes are owed and
in which range the next one must lie; a byte that does not fit ends the piece before it and starts a new
one. So each longest prefix of a character that is not completed counts as one damaged piece. -/

namespace BorderProxy.Utf8

/-- A character whose first bytes have been read: the continuation bytes still owed, the range of the
next one, and the bits collected so far. -/
structure Pending where
  owed : Nat
  low : Nat
  high : Nat
  bits : Nat
  deriving DecidableEq, Repr

/-- The effect of a byte between characters: the pieces it completes and the character it begins. -/
def first (byte : Nat) : List (Option Char) × Option Pending :=
  if byte < 0x80 then ([some (Char.ofNat byte)], none)
  else if byte < 0xC2 then ([none], none)
  else if byte < 0xE0 then ([], some ⟨1, 0x80, 0xBF, byte - 0xC0⟩)
  else if byte = 0xE0 then ([], some ⟨2, 0xA0, 0xBF, 0⟩)
  else if byte = 0xED then ([], some ⟨2, 0x80, 0x9F, 0xD⟩)
  else if byte < 0xF0 then ([], some ⟨2, 0x80, 0xBF, byte - 0xE0⟩)
  else if byte = 0xF0 then ([], some ⟨3, 0x90, 0xBF, 0⟩)
  else if byte < 0xF4 then ([], some ⟨3, 0x80, 0xBF, byte - 0xF0⟩)
  else if byte = 0xF4 then ([], some ⟨3, 0x80, 0x8F, 4⟩)
  else ([none], none)

/-- The effect of a byte: the pieces it completes and the character that is then pending. -/
def step (pending : Option Pending) (byte : Nat) : List (Option Char) × Option Pending :=
  match pending with
  | none => first byte
  | some p =>
    if p.low ≤ byte ∧ byte ≤ p.high then
      let bits := p.bits * 64 + (byte - 0x80)
      if p.owed ≤ 1 then ([some (Char.ofNat bits)], none)
      else ([], some ⟨p.owed - 1, 0x80, 0xBF, bits⟩)
    else
      let next := first byte
      (none :: next.1, next.2)

/-- The pieces of a byte string after a pending character; a damaged piece is `none`. -/
def piecesFrom (pending : Option Pending) : List UInt8 → List (Option Char)
  | [] => if pending.isSome then [none] else []
  | byte :: bytes =>
    let next := step pending byte.toNat
    next.1 ++ piecesFrom next.2 bytes

/-- The characters of a byte string in order, with `none` for each damaged piece. -/
def pieces (bytes : List UInt8) : List (Option Char) := piecesFrom none bytes

/-- The text of a byte string that is well-formed throughout. -/
def decode? (bytes : List UInt8) : Option Text := (pieces bytes).mapM id

/-- The character that stands for a damaged piece. -/
def replacement : Char := Char.ofNat 0xFFFD

/-- The text of a byte string, with the replacement character for each damaged piece. -/
def decodeLossy (bytes : List UInt8) : Text := (pieces bytes).map (·.getD replacement)

def encodeChar (c : Char) : List UInt8 :=
  let n := c.toNat
  if n < 0x80 then [UInt8.ofNat n]
  else if n < 0x800 then [UInt8.ofNat (0xC0 + n / 64), UInt8.ofNat (0x80 + n % 64)]
  else if n < 0x10000 then
    [UInt8.ofNat (0xE0 + n / 4096), UInt8.ofNat (0x80 + n / 64 % 64), UInt8.ofNat (0x80 + n % 64)]
  else
    [UInt8.ofNat (0xF0 + n / 262144), UInt8.ofNat (0x80 + n / 4096 % 64),
      UInt8.ofNat (0x80 + n / 64 % 64), UInt8.ofNat (0x80 + n % 64)]

def encode (t : Text) : List UInt8 := t.flatMap encodeChar

end BorderProxy.Utf8
