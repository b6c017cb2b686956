import BorderProxy.Text.Utf8
import Mathlib.Algebra.Group.Nat.Defs

/-! Text that is encoded is decoded again, and what is decoded without damage is the encoding of its text. The
decoder completes each character with the last of its bytes and is then as it was before the first one. -/

namespace BorderProxy.Utf8

theorem toNat_ofNat_of_lt {n : Nat} (h : n < 256) : (UInt8.ofNat n).toNat = n := by
  rw [UInt8.toNat_ofNat']
  exact Nat.mod_eq_of_lt h

/-- The bytes of a character begin with its code, or with a byte that is not ASCII. -/
theorem encodeChar_eq_cons (c : Char) :
    ∃ b rest, encodeChar c = b :: rest ∧ (b.toNat = c.toNat ∨ 0x80 ≤ b.toNat) := by
  have hvalid : c.toNat < 0xD800 ∨ 0xDFFF < c.toNat ∧ c.toNat < 0x110000 := c.valid
  unfold encodeChar
  dsimp only
  split
  · exact ⟨_, _, rfl, .inl (toNat_ofNat_of_lt (by omega))⟩
  · split
    · exact ⟨_, _, rfl, .inr (by rw [toNat_ofNat_of_lt (by omega)]; omega)⟩
    · split
      · exact ⟨_, _, rfl, .inr (by rw [toNat_ofNat_of_lt (by omega)]; omega)⟩
      · exact ⟨_, _, rfl, .inr (by rw [toNat_ofNat_of_lt (by omega)]; omega)⟩

theorem piecesFrom_last {low high bits n : Nat} {rest : List UInt8} (hn : n < 256) (hlow : low ≤ n)
    (hhigh : n ≤ high) :
    piecesFrom (some ⟨1, low, high, bits⟩) (UInt8.ofNat n :: rest) =
      some (Char.ofNat (bits * 64 + (n - 0x80))) :: piecesFrom none rest := by
  simp [piecesFrom, step, toNat_ofNat_of_lt hn, hlow, hhigh]

theorem piecesFrom_more {owed low high bits n : Nat} {rest : List UInt8} (howed : 1 < owed)
    (hn : n < 256) (hlow : low ≤ n) (hhigh : n ≤ high) :
    piecesFrom (some ⟨owed, low, high, bits⟩) (UInt8.ofNat n :: rest) =
      piecesFrom (some ⟨owed - 1, 0x80, 0xBF, bits * 64 + (n - 0x80)⟩) rest := by
  have hnot : ¬ owed ≤ 1 := by omega
  simp [piecesFrom, step, toNat_ofNat_of_lt hn, hlow, hhigh, hnot]

theorem piecesFrom_none {n : Nat} {rest : List UInt8} (hn : n < 256) :
    piecesFrom none (UInt8.ofNat n :: rest) = (first n).1 ++ piecesFrom (first n).2 rest := by
  simp only [piecesFrom, step, toNat_ofNat_of_lt hn]

theorem pieces_two {n : Nat} (rest : List UInt8) (hlow : 0x80 ≤ n) (hhigh : n < 0x800) :
    piecesFrom none (UInt8.ofNat (0xC0 + n / 64) :: UInt8.ofNat (0x80 + n % 64) :: rest) =
      some (Char.ofNat n) :: piecesFrom none rest := by
  have hfirst : first (0xC0 + n / 64) = ([], some ⟨1, 0x80, 0xBF, n / 64⟩) := by
    unfold first
    rw [if_neg (by omega), if_neg (by omega), if_pos (by omega)]
    rw [show 0xC0 + n / 64 - 0xC0 = n / 64 by omega]
  rw [piecesFrom_none (by omega), hfirst, List.nil_append,
    piecesFrom_last (by omega) (by omega) (by omega),
    show n / 64 * 64 + (0x80 + n % 64 - 0x80) = n by omega]

theorem first_three {n : Nat} (hlow : 0x800 ≤ n) (hhigh : n < 0x10000)
    (hvalid : n < 0xD800 ∨ 0xE000 ≤ n) :
    ∃ low high, first (0xE0 + n / 4096) = ([], some ⟨2, low, high, n / 4096⟩) ∧
      low ≤ 0x80 + n / 64 % 64 ∧ 0x80 + n / 64 % 64 ≤ high := by
  unfold first
  rw [if_neg (by omega), if_neg (by omega), if_neg (by omega)]
  by_cases hzero : n / 4096 = 0
  · exact ⟨0xA0, 0xBF, by simp [hzero], by omega, by omega⟩
  · rw [if_neg (by omega)]
    by_cases hd : n / 4096 = 0xD
    · exact ⟨0x80, 0x9F, by simp [hd], by omega, by omega⟩
    · rw [if_neg (by omega), if_pos (by omega)]
      refine ⟨0x80, 0xBF, ?_, by omega, by omega⟩
      rw [show 0xE0 + n / 4096 - 0xE0 = n / 4096 by omega]

theorem pieces_three {n : Nat} (rest : List UInt8) (hlow : 0x800 ≤ n) (hhigh : n < 0x10000)
    (hvalid : n < 0xD800 ∨ 0xE000 ≤ n) :
    piecesFrom none (UInt8.ofNat (0xE0 + n / 4096) :: UInt8.ofNat (0x80 + n / 64 % 64) ::
      UInt8.ofNat (0x80 + n % 64) :: rest) = some (Char.ofNat n) :: piecesFrom none rest := by
  obtain ⟨low, high, hfirst, hl, hh⟩ := first_three hlow hhigh hvalid
  rw [piecesFrom_none (by omega), hfirst, List.nil_append,
    piecesFrom_more (by omega) (by omega) hl hh, piecesFrom_last (by omega) (by omega) (by omega),
    show (n / 4096 * 64 + (0x80 + n / 64 % 64 - 0x80)) * 64 + (0x80 + n % 64 - 0x80) = n by omega]

theorem first_four {n : Nat} (hlow : 0x10000 ≤ n) (hhigh : n < 0x110000) :
    ∃ low high, first (0xF0 + n / 262144) = ([], some ⟨3, low, high, n / 262144⟩) ∧
      low ≤ 0x80 + n / 4096 % 64 ∧ 0x80 + n / 4096 % 64 ≤ high := by
  unfold first
  rw [if_neg (by omega), if_neg (by omega), if_neg (by omega), if_neg (by omega), if_neg (by omega),
    if_neg (by omega)]
  by_cases hzero : n / 262144 = 0
  · exact ⟨0x90, 0xBF, by simp [hzero], by omega, by omega⟩
  · rw [if_neg (by omega)]
    by_cases hfour : n / 262144 = 4
    · exact ⟨0x80, 0x8F, by simp [hfour], by omega, by omega⟩
    · rw [if_pos (by omega)]
      refine ⟨0x80, 0xBF, ?_, by omega, by omega⟩
      rw [show 0xF0 + n / 262144 - 0xF0 = n / 262144 by omega]

theorem pieces_four {n : Nat} (rest : List UInt8) (hlow : 0x10000 ≤ n) (hhigh : n < 0x110000) :
    piecesFrom none (UInt8.ofNat (0xF0 + n / 262144) :: UInt8.ofNat (0x80 + n / 4096 % 64) ::
      UInt8.ofNat (0x80 + n / 64 % 64) :: UInt8.ofNat (0x80 + n % 64) :: rest) =
        some (Char.ofNat n) :: piecesFrom none rest := by
  obtain ⟨low, high, hfirst, hl, hh⟩ := first_four hlow hhigh
  rw [piecesFrom_none (by omega), hfirst, List.nil_append,
    piecesFrom_more (by omega) (by omega) hl hh,
    piecesFrom_more (by omega) (by omega) (by omega) (by omega),
    piecesFrom_last (by omega) (by omega) (by omega),
    show ((n / 262144 * 64 + (0x80 + n / 4096 % 64 - 0x80)) * 64 + (0x80 + n / 64 % 64 - 0x80)) * 64 +
    (0x80 + n % 64 - 0x80) = n by omega]

theorem piecesFrom_encodeChar (c : Char) (rest : List UInt8) :
    piecesFrom none (encodeChar c ++ rest) = some c :: piecesFrom none rest := by
  have hvalid : c.toNat < 0xD800 ∨ 0xDFFF < c.toNat ∧ c.toNat < 0x110000 := c.valid
  have hc : Char.ofNat c.toNat = c := Char.ofNat_toNat c
  unfold encodeChar
  generalize c.toNat = n at hvalid hc
  subst hc
  dsimp only
  split
  · rw [List.singleton_append, piecesFrom_none (by omega)]
    unfold first
    rw [if_pos (by omega)]
    rfl
  · split
    · exact pieces_two rest (by omega) (by omega)
    · split
      · exact pieces_three rest (by omega) (by omega) (by omega)
      · exact pieces_four rest (by omega) (by omega)

theorem encode_append (a b : Text) : encode (a ++ b) = encode a ++ encode b := List.flatMap_append

theorem pieces_encode (t : Text) : pieces (encode t) = t.map some := by
  unfold pieces encode
  induction t with
  | nil => rfl
  | cons c cs ih =>
      rw [List.flatMap_cons, piecesFrom_encodeChar, ih]
      rfl

theorem decode?_eq_some_iff {bytes : List UInt8} {t : Text} :
    decode? bytes = some t ↔ pieces bytes = t.map some := by
  unfold decode?
  generalize pieces bytes = pieces
  induction pieces generalizing t with
  | nil => cases t <;> simp
  | cons piece pieces ih =>
      rw [List.mapM_cons]
      cases piece with
      | none => cases t <;> simp
      | some c =>
          cases t with
          | nil => cases List.mapM id pieces <;> simp
          | cons c' t =>
              rw [List.map_cons, List.cons.injEq, Option.some.injEq, ← ih]
              cases List.mapM id pieces <;> simp

@[simp] theorem decode?_encode (t : Text) : decode? (encode t) = some t :=
  decode?_eq_some_iff.mpr (pieces_encode t)

/-! Bytes that are not damaged are the encoding of what is read from them. While a character is pending, the
bytes read so far begin the encoding of each character that they let follow. -/

theorem toNat_ofNat_of_valid {n : Nat} (hvalid : n.isValidChar) : (Char.ofNat n).toNat = n := by
  rw [Char.ofNat, dif_pos hvalid]
  rfl

/-- The continuation bytes of a code: its groups of six bits from the highest of them down. -/
def continuation : Nat → Nat → List UInt8
  | 0, _ => []
  | k + 1, n => UInt8.ofNat (0x80 + n / 64 ^ k % 64) :: continuation k n

/-- Bytes that begin each character which they let follow: one whose code begins with the bits collected so
far, and whose next byte is in the range for it. -/
structure Pending.Begun (p : Pending) (front : List UInt8) : Prop where
  owed : 0 < p.owed
  low : 0x80 ≤ p.low
  high : p.high ≤ 0xBF
  completes : ∀ n, n / 64 ^ p.owed = p.bits → p.low ≤ 0x80 + n / 64 ^ (p.owed - 1) % 64 →
    0x80 + n / 64 ^ (p.owed - 1) % 64 ≤ p.high →
      encodeChar (Char.ofNat n) = front ++ continuation p.owed n

theorem ofNat_of_toNat {b : UInt8} {n : Nat} (h : b.toNat = n) : UInt8.ofNat n = b := by
  rw [← h, UInt8.ofNat_toNat]

theorem encodeChar_one {b : UInt8} (h : b.toNat < 0x80) : encodeChar (Char.ofNat b.toNat) = [b] := by
  unfold encodeChar
  rw [toNat_ofNat_of_valid (.inl (by omega))]
  dsimp only
  rw [if_pos h, UInt8.ofNat_toNat]

theorem encodeChar_two {n : Nat} (hlow : 0x80 ≤ n) (hhigh : n < 0x800) :
    encodeChar (Char.ofNat n) = UInt8.ofNat (0xC0 + n / 64) :: continuation 1 n := by
  unfold encodeChar
  rw [toNat_ofNat_of_valid (.inl (by omega))]
  dsimp only
  rw [if_neg (by omega), if_pos hhigh]
  simp [continuation]

theorem encodeChar_three {n : Nat} (hlow : 0x800 ≤ n) (hhigh : n < 0x10000)
    (hvalid : n < 0xD800 ∨ 0xE000 ≤ n) :
    encodeChar (Char.ofNat n) = UInt8.ofNat (0xE0 + n / 4096) :: continuation 2 n := by
  unfold encodeChar
  rw [toNat_ofNat_of_valid (hvalid.imp id fun h => ⟨by omega, by omega⟩)]
  dsimp only
  rw [if_neg (by omega), if_neg (by omega), if_pos hhigh]
  simp [continuation]

theorem encodeChar_four {n : Nat} (hlow : 0x10000 ≤ n) (hhigh : n < 0x110000) :
    encodeChar (Char.ofNat n) = UInt8.ofNat (0xF0 + n / 262144) :: continuation 3 n := by
  unfold encodeChar
  rw [toNat_ofNat_of_valid (.inr ⟨by omega, hhigh⟩)]
  dsimp only
  rw [if_neg (by omega), if_neg (by omega), if_neg (by omega)]
  simp [continuation]

theorem begun_one {b : UInt8} {bits : Nat} (hb : b.toNat = 0xC0 + bits) (hlow : 2 ≤ bits)
    (hhigh : bits < 32) : (⟨1, 0x80, 0xBF, bits⟩ : Pending).Begun [b] := by
  refine ⟨Nat.one_pos, Nat.le_refl _, Nat.le_refl _, fun n hn _ _ => ?_⟩
  dsimp only at hn
  rw [encodeChar_two (by omega) (by omega), ofNat_of_toNat (b := b) (by omega)]
  rfl

theorem begun_two {b : UInt8} {low high bits : Nat} (hb : b.toNat = 0xE0 + bits) (hlow : 0x80 ≤ low)
    (hhigh : high ≤ 0xBF) (hbits : bits < 16) (hzero : bits = 0 → 0xA0 ≤ low)
    (hsurrogate : bits = 0xD → high ≤ 0x9F) : (⟨2, low, high, bits⟩ : Pending).Begun [b] := by
  refine ⟨Nat.succ_pos _, hlow, hhigh, fun n hn hl hh => ?_⟩
  dsimp only at hn hl hh
  rw [encodeChar_three (by omega) (by omega) (by omega), ofNat_of_toNat (b := b) (by omega)]
  rfl

theorem begun_three {b : UInt8} {low high bits : Nat} (hb : b.toNat = 0xF0 + bits) (hlow : 0x80 ≤ low)
    (hhigh : high ≤ 0xBF) (hbits : bits ≤ 4) (hzero : bits = 0 → 0x90 ≤ low)
    (hfour : bits = 4 → high ≤ 0x8F) : (⟨3, low, high, bits⟩ : Pending).Begun [b] := by
  refine ⟨Nat.succ_pos _, hlow, hhigh, fun n hn hl hh => ?_⟩
  dsimp only at hn hl hh
  rw [encodeChar_four (by omega) (by omega), ofNat_of_toNat (b := b) (by omega)]
  rfl

/-- What bytes are to the decoder: a character, the beginning of one, or damaged. -/
inductive Reads (front : List UInt8) : List (Option Char) × Option Pending → Prop
  | character {c : Char} (hc : encodeChar c = front) : Reads front ([some c], none)
  | begun {p : Pending} (hp : p.Begun front) : Reads front ([], some p)
  | damaged {result : List (Option Char) × Option Pending} (h : none ∈ result.1) : Reads front result

theorem reads_first (b : UInt8) : Reads [b] (first b.toNat) := by
  -- The first bytes of two, three and four in the order of the decoder, which narrows the second byte where
  -- a longer form, a surrogate or a code beyond the last one would begin.
  unfold first
  split
  · exact .character (encodeChar_one ‹_›)
  split
  · exact .damaged List.mem_cons_self
  split
  · exact .begun (begun_one (by omega) (by omega) (by omega))
  split
  · exact .begun (begun_two (by omega) (by decide) (by decide) (by decide) (by decide) (by decide))
  split
  · exact .begun (begun_two (by omega) (by decide) (by decide) (by decide) (by decide) (by decide))
  split
  · exact .begun (begun_two (by omega) (by decide) (by decide) (by omega) (by omega) (by omega))
  split
  · exact .begun (begun_three (by omega) (by decide) (by decide) (by decide) (by decide) (by decide))
  split
  · exact .begun (begun_three (by omega) (by decide) (by decide) (by omega) (by omega) (by omega))
  split
  · exact .begun (begun_three (by omega) (by decide) (by decide) (by decide) (by decide) (by decide))
  · exact .damaged List.mem_cons_self

namespace Pending.Begun

variable {k low high bits : Nat} {front : List UInt8} {b : UInt8}

theorem last (h : (⟨1, low, high, bits⟩ : Pending).Begun front) (hlow : low ≤ b.toNat)
    (hhigh : b.toNat ≤ high) : encodeChar (Char.ofNat (bits * 64 + (b.toNat - 0x80))) = front ++ [b] := by
  have hrange := And.intro h.low h.high
  dsimp only at hrange
  have hcompleted := h.completes (bits * 64 + (b.toNat - 0x80)) (by dsimp only; omega)
    (by dsimp only; omega) (by dsimp only; omega)
  rw [hcompleted, continuation, continuation, ofNat_of_toNat (b := b) (by omega)]

theorem more (h : (⟨k + 2, low, high, bits⟩ : Pending).Begun front) (hlow : low ≤ b.toNat)
    (hhigh : b.toNat ≤ high) :
    (⟨k + 1, 0x80, 0xBF, bits * 64 + (b.toNat - 0x80)⟩ : Pending).Begun (front ++ [b]) := by
  have hrange := And.intro h.low h.high
  dsimp only at hrange
  refine ⟨Nat.succ_pos k, Nat.le_refl _, Nat.le_refl _, fun n hn _ _ => ?_⟩
  dsimp only at hn
  have hprefix : n / 64 ^ (k + 2) = bits := by
    rw [Nat.pow_succ, ← Nat.div_div_eq_div_mul, hn]
    omega
  have hcompleted := h.completes n hprefix (by dsimp only [Nat.add_one_sub_one]; omega)
    (by dsimp only [Nat.add_one_sub_one]; omega)
  rw [hcompleted, continuation, ofNat_of_toNat (b := b) (by omega), List.append_assoc]
  rfl

end Pending.Begun

/-- The bytes after which the decoder is in a state, if none of them is damaged. -/
def Awaits : Option Pending → List UInt8 → Prop
  | none, front => front = []
  | some p, front => p.Begun front

theorem reads_step {pending : Option Pending} {front : List UInt8} (h : Awaits pending front) (b : UInt8) :
    Reads (front ++ [b]) (step pending b.toNat) := by
  cases pending with
  | none =>
      rw [show front = [] from h]
      exact reads_first b
  | some p =>
      obtain ⟨owed, low, high, bits⟩ := p
      have hbegun : (⟨owed, low, high, bits⟩ : Pending).Begun front := h
      unfold step
      dsimp only
      split
      · rename_i hrange
        match owed with
        | 0 => exact absurd hbegun.owed (Nat.lt_irrefl 0)
        | 1 => exact .character (hbegun.last hrange.1 hrange.2)
        | k + 2 => exact .begun (hbegun.more hrange.1 hrange.2)
      · exact .damaged List.mem_cons_self

theorem encode_of_piecesFrom {pending : Option Pending} {bytes front : List UInt8} {t : Text}
    (hfront : Awaits pending front) (h : piecesFrom pending bytes = t.map some) :
    encode t = front ++ bytes := by
  have hwhole : ∀ t : Text, none ∉ t.map some := by simp
  induction bytes generalizing pending front t with
  | nil =>
      cases pending with
      | none =>
          rw [List.map_eq_nil_iff.mp h.symm, show front = [] from hfront]
          rfl
      | some p =>
          refine absurd ?_ (hwhole t)
          rw [← h]
          exact List.mem_cons_self
  | cons b bytes ih =>
      rw [piecesFrom] at h
      have hreads := reads_step hfront b
      generalize step pending b.toNat = result at h hreads
      rw [List.append_cons]
      cases hreads with
      | @character c hc =>
          cases t with
          | nil => cases h
          | cons c' t =>
              obtain ⟨hhead, htail⟩ := List.cons.inj h
              rw [← Option.some.inj hhead, encode, List.flatMap_cons, hc]
              exact congrArg _ (ih (show Awaits none [] from rfl) htail)
      | @begun p hp => exact ih (show Awaits (some p) _ from hp) h
      | damaged hnone =>
          refine absurd ?_ (hwhole t)
          rw [← h]
          exact List.mem_append_left _ hnone

/-- Only its own encoding is read as a text. -/
theorem encode_of_decode? {bytes : List UInt8} {t : Text} (h : decode? bytes = some t) : encode t = bytes :=
  encode_of_piecesFrom (show Awaits none [] from rfl) (decode?_eq_some_iff.mp h)

/-- Decoding and encoding gives the same bytes only where none of them are damaged. -/
theorem encode_decodeLossy_eq_iff (bytes : List UInt8) :
    encode (decodeLossy bytes) = bytes ↔ (decode? bytes).isSome := by
  constructor
  · intro h
    rw [← h, decode?_encode]
    rfl
  · intro h
    obtain ⟨t, ht⟩ := Option.isSome_iff_exists.mp h
    have hlossy : decodeLossy bytes = t := by
      rw [decodeLossy, decode?_eq_some_iff.mp ht, List.map_map]
      exact List.map_id t
    rw [hlossy]
    exact encode_of_decode? ht

end BorderProxy.Utf8
