import BorderProxy.Address.Literal
import BorderProxy.Proofs.Text.Number

/-! The canonical text of an address is read as that address. In the text of version 6 two colons stand
side by side only where a run of zero groups is left out, so they are found where they were put. -/

namespace BorderProxy.Ip

theorem readByte_decimal (b : UInt8) : readByte (Text.decimal b.toNat) = some b := by
  have hall : ∀ n < 256, readByte (Text.decimal n) = some (UInt8.ofNat n) := by decide +kernel
  rw [hall b.toNat b.toNat_lt, UInt8.ofNat_toNat]

theorem readQuad_quadText (a b c d : UInt8) : readQuad (quadText a b c d) = some (a, b, c, d) := by
  have hsplit : Text.splitOn '.' (quadText a b c d) =
      [a, b, c, d].map fun n => Text.decimal n.toNat := by
    apply Text.splitOn_join (by simp)
    intro piece hpiece
    obtain ⟨n, -, rfl⟩ := List.mem_map.mp hpiece
    exact Text.not_mem_decimal (by decide)
  rw [readQuad, hsplit]
  simp [readByte_decimal]

theorem readV4_quadText (a b c d : UInt8) : readV4 (quadText a b c d) = some (.v4 a b c d) := by
  rw [readV4, readQuad_quadText]
  rfl

theorem mem_quadText {a b c d : UInt8} {x : Char} (h : x ∈ quadText a b c d) :
    x = '.' ∨ ∃ v, Text.hexDigit? x = some v := by
  rcases Text.mem_join h with h | ⟨piece, hpiece, h⟩
  · exact .inl (List.mem_singleton.mp h)
  · obtain ⟨n, -, rfl⟩ := List.mem_map.mp hpiece
    exact .inr (Text.hexDigit?_of_mem_decimal h)

theorem colon_not_mem_quadText (a b c d : UInt8) : ':' ∉ quadText a b c d := by
  intro h
  have hdigit : Text.hexDigit? ':' = none := by decide
  rcases mem_quadText h with h | ⟨v, h⟩
  · cases h
  · rw [hdigit] at h
    cases h

theorem readGroup_hexadecimal (g : UInt16) : readGroup (Text.hexadecimal g.toNat) = some g := by
  obtain ⟨digits, hdigits, hfold⟩ :=
    Text.mapM_toDigits (b := 16) (by decide) Text.hexDigit?_digitChar g.toNat
  have hlength : (Nat.toDigits 16 g.toNat).length ≤ 4 :=
    (Nat.length_toDigits_le_iff (by decide) (by decide)).mpr g.toNat_lt
  rw [readGroup, Text.hexadecimal, if_neg, hdigits]
  · rw [Option.map_some, hfold, UInt16.ofNat_toNat]
  · rw [not_or]
    exact ⟨Nat.toDigits_ne_nil, by omega⟩

theorem colon_not_mem_hexadecimal (n : Nat) : ':' ∉ Text.hexadecimal n := by
  intro hmem
  obtain ⟨d, hd⟩ := Text.hexDigit?_of_mem_hexadecimal hmem
  have hcolon : Text.hexDigit? ':' = none := by decide
  rw [hcolon] at hd
  cases hd

theorem hexadecimal_ne_nil (n : Nat) : Text.hexadecimal n ≠ [] := Nat.toDigits_ne_nil

theorem readGroups_hexadecimal (quadLast : Bool) (groups : List UInt16) :
    readGroups quadLast (groups.map fun g => Text.hexadecimal g.toNat) = some groups := by
  induction groups with
  | nil => rfl
  | cons g rest ih =>
      cases rest with
      | nil => simp [readGroups, readGroup_hexadecimal]
      | cons h rest =>
          simp only [List.map_cons] at ih
          simp [readGroups, readGroup_hexadecimal, ih]

theorem groupsText_ne_nil {groups : List UInt16} (h : groups ≠ []) : groupsText groups ≠ [] := by
  cases groups with
  | nil => exact absurd rfl h
  | cons g rest =>
      have hg := hexadecimal_ne_nil g.toNat
      cases rest <;> simp [groupsText, Text.join, hg]

theorem readSide_groupsText (quadLast : Bool) (groups : List UInt16) :
    readSide quadLast (groupsText groups) = some groups := by
  by_cases h : groups = []
  · subst h
    rfl
  · rw [readSide, if_neg (groupsText_ne_nil h), groupsText, Text.splitOn_join (by simpa using h)]
    · exact readGroups_hexadecimal quadLast groups
    · intro piece hpiece
      obtain ⟨g, -, rfl⟩ := List.mem_map.mp hpiece
      exact colon_not_mem_hexadecimal g.toNat

/-! Where two colons stand side by side. -/

theorem cutAt?_append {piece rest : Text} (h : ':' ∉ piece) :
    Text.cutAt? [':', ':'] (piece ++ rest) =
      (Text.cutAt? [':', ':'] rest).map fun parts => (piece ++ parts.1, parts.2) := by
  induction piece with
  | nil => simp
  | cons c cs ih =>
      rw [List.mem_cons, not_or] at h
      have hc : (':' == c) = false := by simpa using h.1
      rw [List.cons_append, Text.cutAt?]
      simp only [Text.afterPrefix?, hc, Bool.false_eq_true, if_false]
      rw [ih h.2, Option.map_map]
      rfl

theorem cutAt?_colon {c : Char} {rest : Text} (h : c ≠ ':') :
    Text.cutAt? [':', ':'] (':' :: c :: rest) =
      (Text.cutAt? [':', ':'] (c :: rest)).map fun parts => (':' :: parts.1, parts.2) := by
  have hc : (':' == c) = false := by simpa using Ne.symm h
  rw [Text.cutAt?]
  simp [Text.afterPrefix?, hc]

theorem cutAt?_groupsText (groups : List UInt16) (rest : Text) :
    Text.cutAt? [':', ':'] (groupsText groups ++ rest) =
      (Text.cutAt? [':', ':'] rest).map fun parts => (groupsText groups ++ parts.1, parts.2) := by
  induction groups with
  | nil => simp [groupsText, Text.join]
  | cons g groups ih =>
      have hg := colon_not_mem_hexadecimal g.toNat
      cases groups with
      | nil => exact cutAt?_append hg
      | cons h groups =>
          have hcons : groupsText (g :: h :: groups) =
              Text.hexadecimal g.toNat ++ ':' :: groupsText (h :: groups) := by
            simp [groupsText, Text.join]
          rw [hcons, List.append_assoc, cutAt?_append hg, List.cons_append]
          -- The group behind the colon begins with a digit.
          obtain ⟨c, cs, hnext⟩ := List.exists_cons_of_ne_nil (groupsText_ne_nil (List.cons_ne_nil h groups))
          have hc : c ≠ ':' := by
            have hh := colon_not_mem_hexadecimal h.toNat
            obtain ⟨d, ds, hd⟩ := List.exists_cons_of_ne_nil (hexadecimal_ne_nil h.toNat)
            have heq : c = d := by
              cases groups <;> simp_all [groupsText, Text.join]
            rw [hd] at hh
            rw [heq]
            exact fun heq => hh (by simp [heq])
          rw [hnext, List.cons_append] at ih ⊢
          rw [cutAt?_colon hc, ih, Option.map_map, Option.map_map]
          refine congrArg (Option.map · _) (funext fun parts => ?_)
          simp

/-! The run of zero groups that is left out. -/

theorem exists_leadingZeros (groups : List UInt16) :
    ∃ back, groups = List.replicate (leadingZeros groups) 0 ++ back := by
  induction groups with
  | nil => exact ⟨[], rfl⟩
  | cons g groups ih =>
      obtain ⟨back, hback⟩ := ih
      by_cases hg : g = 0
      · refine ⟨back, ?_⟩
        rw [leadingZeros, if_pos hg, List.replicate_succ, List.cons_append, ← hback, hg]
      · refine ⟨g :: groups, ?_⟩
        rw [leadingZeros, if_neg hg]
        rfl

theorem exists_longestZeroRun (start : Nat) (groups : List UInt16) :
    ∃ front back, groups = front ++ List.replicate (longestZeroRun start groups).length 0 ++ back ∧
      (longestZeroRun start groups).start = start + front.length := by
  induction groups generalizing start with
  | nil => exact ⟨[], [], rfl, rfl⟩
  | cons g groups ih =>
      rw [longestZeroRun]
      split
      · obtain ⟨back, hback⟩ := exists_leadingZeros (g :: groups)
        exact ⟨[], back, hback, rfl⟩
      · obtain ⟨front, back, hsplit, hstart⟩ := ih (start + 1)
        refine ⟨g :: front, back, ?_, ?_⟩
        · rw [List.cons_append, List.cons_append, ← hsplit]
        · rw [hstart, List.length_cons]
          omega

theorem ofGroups_toList (groups : Vector UInt16 8) : ofGroups groups.toList = some (.v6 groups) := by
  unfold ofGroups
  rw [dif_pos (by simp)]
  rfl

/-- An address that embeds one of version 4. -/
theorem readV6_embedded (g h : UInt16) :
    readV6 ("::ffff:".toList ++
      quadText (groupBytes g).1 (groupBytes g).2 (groupBytes h).1 (groupBytes h).2) =
        ofGroups [0, 0, 0, 0, 0, 0xFFFF, g, h] := by
  have hbytes : ∀ g : UInt16, groupOfBytes (groupBytes g).1 (groupBytes g).2 = g := by
    intro g
    have hlt := g.toNat_lt
    simp only [groupOfBytes, groupBytes, UInt8.toNat_ofNat']
    rw [Nat.mod_eq_of_lt (by omega), Nat.mod_eq_of_lt (by omega), Nat.div_add_mod', UInt16.ofNat_toNat]
  generalize hquad : quadText (groupBytes g).1 (groupBytes g).2 (groupBytes h).1 (groupBytes h).2 = quad
  have hread : readQuad quad =
      some ((groupBytes g).1, (groupBytes g).2, (groupBytes h).1, (groupBytes h).2) := by
    rw [← hquad, readQuad_quadText]
  have hpoint : '.' ∈ quad := by
    rw [← hquad]
    simp [quadText, Text.join]
  have hcolon : ':' ∉ quad := by
    rw [← hquad]
    exact colon_not_mem_quadText _ _ _ _
  have hgroup : readGroup quad = none := by
    rw [readGroup]
    split
    · rfl
    · obtain ⟨front, back, heq⟩ := List.append_of_mem hpoint
      have hdigit : Text.hexDigit? '.' = none := by decide
      rw [heq, List.mapM_append]
      cases front.mapM Text.hexDigit? <;> simp [hdigit]
  have hside : readSide true ("ffff:".toList ++ quad) = some [0xFFFF, g, h] := by
    have hsplit : Text.splitOn ':' (['f', 'f', 'f', 'f'] ++ ':' :: quad) = [['f', 'f', 'f', 'f'], quad] := by
      rw [Text.splitOn, Text.splitWhere_append (by decide) (by simp)]
      exact congrArg _ (Text.splitOn_of_not_mem hcolon)
    have hffff : readGroup ['f', 'f', 'f', 'f'] = some 0xFFFF := by decide
    have htext : "ffff:".toList ++ quad = ['f', 'f', 'f', 'f'] ++ ':' :: quad := rfl
    rw [htext, readSide, if_neg (by simp), hsplit]
    simp [readGroups, hffff, hgroup, hread, hbytes]
  have hcut : Text.cutAt? "::".toList ("::ffff:".toList ++ quad) = some ([], "ffff:".toList ++ quad) := rfl
  rw [readV6, hcut]
  simp only [hside]
  rfl

theorem readV6_v6Text (groups : Vector UInt16 8) : readV6 (v6Text groups.toList) = some (.v6 groups) := by
  rw [← ofGroups_toList]
  have hlength : groups.toList.length = 8 := by simp
  generalize groups.toList = list at hlength ⊢
  unfold v6Text
  split
  · rename_i g h
    exact readV6_embedded g h
  · obtain ⟨front, back, hsplit, hstart⟩ := exists_longestZeroRun 0 list
    dsimp only
    generalize longestZeroRun 0 list = run at hsplit hstart ⊢
    rw [Nat.zero_add] at hstart
    split
    · have hcut := cutAt?_groupsText list []
      rw [List.append_nil] at hcut
      have hpair : "::".toList = [':', ':'] := rfl
      rw [readV6, hpair, hcut]
      simp only [Text.cutAt?, Option.map_none, readSide_groupsText, Option.bind_some]
    · rename_i hlong
      have htake : list.take run.start = front := by
        rw [hsplit, hstart, List.append_assoc, List.take_left]
      have hdrop : list.drop (run.start + run.length) = back := by
        have hboth : run.start + run.length = (front ++ List.replicate run.length (0 : UInt16)).length := by
          rw [List.length_append, List.length_replicate, hstart]
        rw [hboth, hsplit, List.drop_left]
      have hcut := cutAt?_groupsText front ([':', ':'] ++ groupsText back)
      have hpair : "::".toList = [':', ':'] := rfl
      have hfound : Text.cutAt? [':', ':'] ([':', ':'] ++ groupsText back) =
          some ([], groupsText back) := rfl
      rw [hfound, Option.map_some, List.append_nil] at hcut
      have hlengths : front.length + run.length + back.length = 8 := by
        rw [← hlength, hsplit, List.length_append, List.length_append, List.length_replicate]
      rw [htake, hdrop, List.append_assoc, readV6, hpair, hcut]
      simp only [readSide_groupsText]
      have hzeros : 8 - front.length - back.length = run.length := by omega
      have hfew : ¬ 7 < front.length + back.length := by omega
      simp only [bind, Option.bind, hfew, if_false, hzeros, ← hsplit]

/-- The canonical text of an address is read as the address. -/
theorem read_text (ip : Ip) :
    (if ip.isV4 then readV4 ip.text else readV6 ip.text) = some ip := by
  cases ip with
  | v4 a b c d => exact readV4_quadText a b c d
  | v6 groups => exact readV6_v6Text groups

/-! The characters that an address is written in. -/

theorem mem_groupsText {groups : List UInt16} {x : Char} (h : x ∈ groupsText groups) :
    x = ':' ∨ ∃ v, Text.hexDigit? x = some v := by
  rcases Text.mem_join h with h | ⟨piece, hpiece, h⟩
  · exact .inl (List.mem_singleton.mp h)
  · obtain ⟨g, -, rfl⟩ := List.mem_map.mp hpiece
    exact .inr (Text.hexDigit?_of_mem_hexadecimal h)

theorem mem_v6Text {groups : List UInt16} {x : Char} (h : x ∈ v6Text groups) :
    x = '.' ∨ x = ':' ∨ ∃ v, Text.hexDigit? x = some v := by
  unfold v6Text at h
  split at h
  · rcases List.mem_append.mp h with h | h
    · have hmark : "::ffff:".toList = [':', ':', 'f', 'f', 'f', 'f', ':'] := rfl
      have hdigit : Text.hexDigit? 'f' = some 15 := by decide
      rw [hmark] at h
      simp only [List.mem_cons, List.not_mem_nil, or_false] at h
      rcases h with rfl | rfl | rfl | rfl | rfl | rfl | rfl <;>
        first | exact .inr (.inl rfl) | exact .inr (.inr ⟨15, hdigit⟩)
    · rcases mem_quadText h with h | h
      · exact .inl h
      · exact .inr (.inr h)
  · dsimp only at h
    split at h
    · exact .inr (mem_groupsText h)
    · rcases List.mem_append.mp h with h | h
      · rcases List.mem_append.mp h with h | h
        · exact .inr (mem_groupsText h)
        · exact .inr (.inl (by simpa using h))
      · exact .inr (mem_groupsText h)

/-- An address is written with points, colons and digits. -/
theorem mem_text {ip : Ip} {x : Char} (h : x ∈ ip.text) :
    x = '.' ∨ x = ':' ∨ ∃ v, Text.hexDigit? x = some v := by
  cases ip with
  | v4 a b c d =>
      rcases mem_quadText h with h | h
      · exact .inl h
      · exact .inr (.inr h)
  | v6 groups => exact mem_v6Text h

/-- A point, or a character from the digits to the small letter "f", the colon among them. -/
def IsAddressChar (c : Char) : Prop := c = '.' ∨ 48 ≤ c.toNat ∧ c.toNat ≤ 102

theorem isAddressChar_of_hexDigit? {c : Char} {v : Nat} (h : Text.hexDigit? c = some v) :
    IsAddressChar c := by
  have hle : ∀ {a b : Char}, a ≤ b → a.toNat ≤ b.toNat := fun h => h
  unfold Text.hexDigit? at h
  refine .inr ?_
  split at h
  · rename_i hrange
    have hlow : 48 ≤ c.toNat := hle hrange.1
    have hhigh : c.toNat ≤ 57 := hle hrange.2
    omega
  · split at h
    · rename_i hrange
      have hlow : 97 ≤ c.toNat := hle hrange.1
      have hhigh : c.toNat ≤ 102 := hle hrange.2
      omega
    · split at h
      · rename_i hrange
        have hlow : 65 ≤ c.toNat := hle hrange.1
        have hhigh : c.toNat ≤ 70 := hle hrange.2
        omega
      · cases h

theorem isAddressChar_text (ip : Ip) : ∀ x ∈ ip.text, IsAddressChar x := by
  intro x hx
  rcases mem_text hx with rfl | rfl | ⟨v, hv⟩
  · exact .inl rfl
  · exact .inr (by decide)
  · exact isAddressChar_of_hexDigit? hv

theorem IsAddressChar.not_blank {c : Char} (h : IsAddressChar c) : Text.isBlank c = false := by
  rcases h with rfl | ⟨hlow, hhigh⟩
  · decide
  · exact Text.not_blank_of_visible (by omega) (by omega)

theorem text_ne_nil (ip : Ip) : ip.text ≠ [] := by
  intro h
  have hread := read_text ip
  have h4 : readV4 [] = none := by decide
  have h6 : readV6 [] = none := by decide
  rw [h, h4, h6] at hread
  split at hread <;> cases hread

theorem isWord_text (ip : Ip) : Text.IsWord ip.text :=
  ⟨text_ne_nil ip, fun c hc => (isAddressChar_text ip c hc).not_blank⟩

theorem not_mem_text {c : Char} (hpoint : c ≠ '.') (hcolon : c ≠ ':') (hdigit : Text.hexDigit? c = none)
    (ip : Ip) : c ∉ ip.text := by
  intro h
  rcases mem_text h with h | h | ⟨d, h⟩
  · exact hpoint h
  · exact hcolon h
  · rw [hdigit] at h
    cases h

theorem slash_not_mem_text (ip : Ip) : '/' ∉ ip.text :=
  not_mem_text (by decide) (by decide) (by decide) ip

theorem colon_mem_v6Text (groups : Vector UInt16 8) : ':' ∈ v6Text groups.toList := by
  have hlength : groups.toList.length = 8 := by simp
  generalize groups.toList = list at hlength
  unfold v6Text
  split
  · simp
  · dsimp only
    split
    · match list, hlength with
      | g :: h :: rest, _ => simp [groupsText, Text.join]
    · simp

/-- What holds a colon is no address of version 4. -/
theorem readV4_of_colon {t : Text} (h : ':' ∈ t) : readV4 t = none := by
  have hbyte : ∀ {piece : Text}, ':' ∈ piece → readByte piece = none := by
    intro piece hpiece
    obtain ⟨front, back, rfl⟩ := List.append_of_mem hpiece
    have hdigit : Text.digit? ':' = none := by decide
    rw [readByte]
    split
    · rfl
    · rw [List.mapM_append, List.mapM_cons, hdigit]
      cases front.mapM Text.digit? <;> rfl
  have hpiece : ∃ piece ∈ Text.splitOn '.' t, ':' ∈ piece := by
    rw [← Text.join_splitOn '.' t] at h
    rcases Text.mem_join h with h | h
    · simp at h
    · exact h
  rw [readV4, readQuad]
  split
  · rename_i a b c d hsplit
    rw [hsplit] at hpiece
    obtain ⟨piece, hmem, hcolon⟩ := hpiece
    have hnone := hbyte hcolon
    simp only [List.mem_cons, List.not_mem_nil, or_false] at hmem
    rcases hmem with rfl | rfl | rfl | rfl <;> rw [hnone]
    · rfl
    · cases readByte a <;> rfl
    · cases readByte a <;> cases readByte b <;> rfl
    · cases readByte a <;> cases readByte b <;> cases readByte c <;> rfl
  · rfl

/-- What holds no colon is no address of version 6. -/
theorem readV6_of_not_mem {t : Text} (h : ':' ∉ t) : readV6 t = none := by
  have hcut : Text.cutAt? [':', ':'] (t ++ []) = none := cutAt?_append h
  have hpair : "::".toList = [':', ':'] := rfl
  rw [List.append_nil] at hcut
  rw [readV6, hpair, hcut]
  dsimp only
  rw [readSide, Text.splitOn_of_not_mem h]
  split
  · rfl
  · rw [readGroups]
    cases readGroup t with
    | some g => rfl
    | none =>
        dsimp only
        rw [if_pos rfl]
        rcases readQuad t with _ | ⟨a, b, c, d⟩ <;> rfl

/-- What holds neither points nor colons is no address. -/
theorem read_of_not_mem {t : Text} (hpoint : '.' ∉ t) (hcolon : ':' ∉ t) : read t = none := by
  rw [read, readV6_of_not_mem hcolon, readV4, readQuad, Text.splitOn_of_not_mem hpoint]
  rfl

/-! An address of version 4 is written in one way only. -/

theorem decimal_of_readByte {t : Text} {b : UInt8} (h : readByte t = some b) :
    Text.decimal b.toNat = t := by
  unfold readByte at h
  split at h
  · cases h
  · rename_i hform
    simp only [not_or] at hform
    split at h
    · cases h
    · rename_i digits hdigits
      dsimp only at h
      split at h
      · rename_i hle
        rw [← Option.some.inj h, UInt8.toNat_ofNat_of_lt' (by simpa using Nat.lt_succ_of_le hle)]
        cases t with
        | nil => exact absurd rfl hform.1
        | cons c cs =>
            rw [List.mapM_cons] at hdigits
            obtain ⟨d, hd, hdigits⟩ := Option.bind_eq_some_iff.mp hdigits
            obtain ⟨rest, hrest, hdigits⟩ := Option.bind_eq_some_iff.mp hdigits
            cases hdigits
            obtain ⟨hlt, hc⟩ := Text.digitChar_of_digit? hd
            have hfirst : Text.decimal d = [c] := by
              rw [Text.decimal, Nat.toDigits_of_lt_base hlt, hc]
            rw [List.foldl_cons, Nat.zero_mul, Nat.zero_add]
            rcases Nat.eq_zero_or_pos d with rfl | hpos
            · -- A leading zero is the only digit.
              have hnil : cs = [] := by simpa [← hc] using hform.2.2
              subst hnil
              cases hrest
              exact hfirst
            · rw [Text.decimal_foldl hrest hpos, hfirst]
              rfl
      · cases h

theorem text_of_readV4 {t : Text} {ip : Ip} (h : readV4 t = some ip) : ip.text = t := by
  obtain ⟨⟨a, b, c, d⟩, hquad, rfl⟩ := Option.map_eq_some_iff.mp h
  unfold readQuad at hquad
  split at hquad
  · rename_i w x y z hsplit
    obtain ⟨a, ha, hquad⟩ := Option.bind_eq_some_iff.mp hquad
    obtain ⟨b, hb, hquad⟩ := Option.bind_eq_some_iff.mp hquad
    obtain ⟨c, hc, hquad⟩ := Option.bind_eq_some_iff.mp hquad
    obtain ⟨d, hd, hquad⟩ := Option.bind_eq_some_iff.mp hquad
    cases hquad
    have hpieces : [a, b, c, d].map (fun n => Text.decimal n.toNat) = [w, x, y, z] := by
      simp [decimal_of_readByte ha, decimal_of_readByte hb, decimal_of_readByte hc,
        decimal_of_readByte hd]
    rw [← Text.join_splitOn '.' t, hsplit, ← hpieces]
    rfl
  · cases hquad

/-- The canonical text of an address is a host name for it. -/
@[simp] theorem readHost_text (ip : Ip) : readHost ip.text = some ip := by
  have hread : read ip.text = some ip := by
    have htext := read_text ip
    cases ip with
    | v4 a b c d => rw [read, text, readV4_quadText]; rfl
    | v6 groups =>
        rw [read, text, readV4_of_colon (colon_mem_v6Text groups)]
        exact htext
  have hbracket : '[' ∉ ip.text := not_mem_text (by decide) (by decide) (by decide) ip
  unfold readHost
  split
  · rename_i heq
    exact absurd (heq ▸ List.mem_cons_self) hbracket
  · exact hread

end BorderProxy.Ip
