import BorderProxy.Proofs.Text.Pieces
import BorderProxy.Text.Number

/-! Numbers that are written are read back. The digits of a number are read one after the other onto the
value of those before them, which are the digits of a smaller number. -/

namespace BorderProxy.Text

theorem digit?_digitChar : ∀ d < 10, digit? (Nat.digitChar d) = some d := by decide

theorem hexDigit?_digitChar : ∀ d < 16, hexDigit? (Nat.digitChar d) = some d := by decide

theorem isDigit_of_mem_decimal {n : Nat} {c : Char} (h : c ∈ decimal n) : c.isDigit :=
  Nat.isDigit_of_mem_toDigits (by decide) (by decide) h

theorem hexDigit?_of_mem_decimal {n : Nat} {c : Char} (h : c ∈ decimal n) : ∃ d, hexDigit? c = some d := by
  have hdigit := isDigit_of_mem_decimal h
  rw [Char.isDigit, Bool.and_eq_true, decide_eq_true_eq, decide_eq_true_eq] at hdigit
  exact ⟨_, if_pos hdigit⟩

theorem decimal_ne_nil (n : Nat) : decimal n ≠ [] := Nat.toDigits_ne_nil

theorem isWord_decimal (n : Nat) : IsWord (decimal n) := by
  refine ⟨decimal_ne_nil n, fun c hc => ?_⟩
  have hdigit := isDigit_of_mem_decimal hc
  rw [Char.isDigit, Bool.and_eq_true, decide_eq_true_eq, decide_eq_true_eq] at hdigit
  have hlow : 48 ≤ c.toNat := hdigit.1
  have hhigh : c.toNat ≤ 57 := hdigit.2
  exact not_blank_of_visible (by omega) (by omega)

theorem not_mem_decimal {n : Nat} {c : Char} (hc : c.isDigit = false) : c ∉ decimal n := by
  intro h
  rw [isDigit_of_mem_decimal h] at hc
  cases hc

/-- The digits of a number have the values that the number is made of. -/
theorem mapM_toDigits {b : Nat} {value? : Char → Option Nat} (hb : 1 < b)
    (hvalue : ∀ d < b, value? (Nat.digitChar d) = some d) (n : Nat) :
    ∃ digits, (Nat.toDigits b n).mapM value? = some digits ∧
      digits.foldl (fun value d => value * b + d) 0 = n := by
  induction n using Nat.strongRecOn with
  | _ n ih =>
      rw [Nat.toDigits_eq_if hb]
      by_cases hlt : n < b
      · rw [if_pos hlt]
        exact ⟨[n], by simp [hvalue n hlt], by simp⟩
      · rw [if_neg hlt]
        obtain ⟨digits, hdigits, hfold⟩ := ih (n / b) (Nat.div_lt_self (by omega) hb)
        refine ⟨digits ++ [n % b], ?_, ?_⟩
        · simp [List.mapM_append, hdigits, hvalue (n % b) (Nat.mod_lt n (by omega))]
        · rw [List.foldl_append, hfold]
          exact Nat.div_add_mod' n b

theorem hexDigit?_of_mem_hexadecimal {n : Nat} {c : Char} (h : c ∈ hexadecimal n) :
    ∃ d, hexDigit? c = some d := by
  obtain ⟨digits, hdigits, -⟩ := mapM_toDigits (b := 16) (by decide) hexDigit?_digitChar n
  obtain ⟨front, back, heq⟩ := List.append_of_mem h
  rw [hexadecimal] at heq
  rw [heq, List.mapM_append, List.mapM_cons] at hdigits
  cases hc : hexDigit? c with
  | some d => exact ⟨d, rfl⟩
  | none => simp [hc] at hdigits

/-- Bytes are written in digits of the base 16. -/
theorem digit_of_mem_hexBytes {bytes : List UInt8} {c : Char} (h : c ∈ hexBytes bytes) :
    ∃ d < 16, c = Nat.digitChar d := by
  rw [hexBytes] at h
  obtain ⟨b, -, hc⟩ := List.mem_flatMap.mp h
  have hlt := b.toNat_lt
  simp only [hexByte, List.mem_cons, List.not_mem_nil, or_false] at hc
  rcases hc with rfl | rfl
  · exact ⟨b.toNat / 16, by omega, rfl⟩
  · exact ⟨b.toNat % 16, by omega, rfl⟩

theorem digitChar_of_digit? {c : Char} {d : Nat} (h : digit? c = some d) :
    d < 10 ∧ Nat.digitChar d = c := by
  unfold digit? at h
  split at h
  · rename_i hrange
    have hlow : 48 ≤ c.toNat := hrange.1
    have hhigh : c.toNat ≤ 57 := hrange.2
    have hd : c.toNat - 48 = d := Option.some.inj h
    have hall : ∀ e < 10, Nat.digitChar e = Char.ofNat (e + 48) := by decide
    refine ⟨by omega, ?_⟩
    rw [hall d (by omega), show d + 48 = c.toNat by omega, Char.ofNat_toNat]
  · cases h

/-- Digits that are read onto a number stand behind it. -/
theorem decimal_foldl {t : Text} {digits : List Nat} (h : t.mapM digit? = some digits) {v : Nat}
    (hv : 0 < v) : decimal (digits.foldl (fun value d => value * 10 + d) v) = decimal v ++ t := by
  induction t generalizing digits v with
  | nil =>
      cases h
      exact (List.append_nil _).symm
  | cons c cs ih =>
      rw [List.mapM_cons] at h
      obtain ⟨d, hd, h⟩ := Option.bind_eq_some_iff.mp h
      obtain ⟨rest, hrest, h⟩ := Option.bind_eq_some_iff.mp h
      cases h
      obtain ⟨hlt, hc⟩ := digitChar_of_digit? hd
      rw [List.foldl_cons, ih hrest (by omega), decimal, Nat.mul_comm,
        ← Nat.toDigits_append_toDigits (by decide) hv hlt, Nat.toDigits_of_lt_base hlt, hc,
        List.append_assoc]
      rfl

theorem readDigits_append {limit value : Nat} {front back : Text} {v : Nat}
    (h : readDigits limit value front = .ok v) :
    readDigits limit value (front ++ back) = readDigits limit v back := by
  induction front generalizing value with
  | nil =>
      rw [readDigits] at h
      rw [Except.ok.inj h, List.nil_append]
  | cons c cs ih =>
      rw [List.cons_append]
      simp only [readDigits] at h ⊢
      split at h
      · cases h
      · rename_i d hd
        split at h
        · cases h
        · rename_i hle
          rw [if_neg hle]
          exact ih h

theorem readDigits_decimal {limit n : Nat} (h : n ≤ limit) : readDigits limit 0 (decimal n) = .ok n := by
  induction n using Nat.strongRecOn with
  | _ n ih =>
      rw [decimal, Nat.toDigits_eq_if (by decide)]
      by_cases hlt : n < 10
      · rw [if_pos hlt]
        simp only [readDigits, digit?_digitChar n hlt]
        rw [if_neg (by omega)]
        simp
      · rw [if_neg hlt]
        have hfront := ih (n / 10) (by omega) (by omega)
        rw [decimal] at hfront
        rw [readDigits_append hfront]
        simp only [readDigits, digit?_digitChar (n % 10) (by omega)]
        rw [if_neg (by omega), Nat.div_add_mod' n 10]

theorem readNumber_decimal {limit n : Nat} (h : n ≤ limit) : readNumber limit (decimal n) = .ok n := by
  have hdigits := readDigits_decimal h
  have hplus : '+' ∉ decimal n := not_mem_decimal (by decide)
  unfold readNumber
  split
  · rename_i hnil
    exact absurd hnil (decimal_ne_nil n)
  · rename_i heq
    simp [heq] at hplus
  · rename_i heq
    simp [heq] at hplus
  · exact hdigits

@[simp] theorem uint16?_decimal (p : UInt16) : uint16? (decimal p.toNat) = some p := by
  have hle : p.toNat ≤ 65535 := Nat.le_of_lt_succ p.toNat_lt
  rw [uint16?, readUInt16, readNumber_decimal hle]
  simp [Except.map, Except.toOption]

@[simp] theorem uint32?_decimal (n : UInt32) : uint32? (decimal n.toNat) = some n := by
  have hle : n.toNat ≤ 4294967295 := Nat.le_of_lt_succ n.toNat_lt
  rw [uint32?, readNumber_decimal hle]
  simp [Except.toOption]

/-- No number has a character that is neither a digit nor a plus sign. -/
theorem uint16?_of_mem {t : Text} {c : Char} (hc : c ∈ t) (hdigit : digit? c = none) (hplus : c ≠ '+') :
    uint16? t = none := by
  have hdigits : ∀ {limit value : Nat} {s : Text}, c ∈ s →
      (readDigits limit value s).toOption = none := by
    intro limit value s hs
    induction s generalizing value with
    | nil => cases hs
    | cons x xs ih =>
        rw [readDigits]
        rcases List.mem_cons.mp hs with rfl | hmem
        · rw [hdigit]
          rfl
        · cases digit? x with
          | none => rfl
          | some d =>
              dsimp only
              split
              · rfl
              · exact ih hmem
  have hnumber : (readNumber 65535 t).toOption = none := by
    unfold readNumber
    split
    · cases hc
    · rfl
    · rename_i cs
      exact hdigits ((List.mem_cons.mp hc).resolve_left hplus)
    · exact hdigits hc
  unfold uint16? readUInt16
  cases hread : readNumber 65535 t with
  | error fault => rfl
  | ok n =>
      rw [hread] at hnumber
      cases hnumber

end BorderProxy.Text
