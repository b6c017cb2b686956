import BorderProxy.Field.Via
import BorderProxy.Proofs.Address.Literal

/-! Via values that are written are read back: the sender stands between the protocol and the first
parameter, and whatever parameters are added behind do not change it. Noting the source of a message in a
value changes no parameters but "rport" and "received". -/

namespace BorderProxy

/-! Parameters. -/

theorem paramAmong?_cons (name piece : Text) (pieces : List Text) :
    paramAmong? name (piece :: pieces) =
      if Text.sameLetters (readParam piece).1 name then some (readParam piece).2
      else paramAmong? name pieces := by
  unfold paramAmong?
  rw [List.map_cons, List.find?_cons]
  cases Text.sameLetters (readParam piece).1 name <;> rfl

theorem paramAmong?_append (name : Text) (front back : List Text) :
    paramAmong? name (front ++ back) = (paramAmong? name front).or (paramAmong? name back) := by
  unfold paramAmong?
  rw [List.map_append, List.find?_append, Option.map_or]

theorem paramAmong?_eq_none_iff {name : Text} {pieces : List Text} :
    paramAmong? name pieces = none ↔
      ∀ piece ∈ pieces, Text.sameLetters (readParam piece).1 name = false := by
  simp [paramAmong?]

theorem readParam_written {key : Text} (hkey : Text.IsWord key) (hmark : '=' ∉ key) (value : Text) :
    readParam (key ++ '=' :: value) = (key, Text.trim value) := by
  rw [readParam, Text.cut?_append hmark]
  dsimp only
  rw [Text.trim_of_isWord hkey]

theorem sameLetters_congr {a b : Text} (h : Text.sameLetters a b = true) (name : Text) :
    Text.sameLetters a name = Text.sameLetters b name := by
  rw [Text.sameLetters, beq_iff_eq] at h
  rw [Text.sameLetters, Text.sameLetters, h]

end BorderProxy

namespace BorderProxy.Via

open Text (IsWord)

theorem sentBy?_written {protocol sender : Text} (hprotocol : IsWord protocol) (hsender : IsWord sender)
    (hmark : ';' ∉ sender) (tail : Text) :
    sentBy? (protocol ++ ' ' :: (sender ++ ';' :: tail)) = readSender sender := by
  have hbehind : ∃ tail', Text.trim (protocol ++ ' ' :: (sender ++ ';' :: tail)) =
      protocol ++ ' ' :: (sender ++ ';' :: tail') := by
    -- Trimming reaches no further than to the semicolon.
    obtain ⟨first, rest, rfl⟩ := List.exists_cons_of_ne_nil hprotocol.1
    have hfirst := hprotocol.2 first List.mem_cons_self
    refine ⟨Text.trimEnd tail, ?_⟩
    have hend := Text.dropEndWhile_append_cons (p := Text.isBlank) (c := ';')
      (first :: rest ++ ' ' :: sender) (by decide) tail
    simp only [List.append_assoc, List.cons_append] at hend
    rw [Text.trim, Text.trimStart, List.cons_append, List.dropWhile_cons_of_neg (by simp [hfirst]),
      Text.trimEnd, hend]
    rfl
  obtain ⟨tail', htrim⟩ := hbehind
  have hcut : Text.cutWhere? Text.isBlank (protocol ++ ' ' :: (sender ++ ';' :: tail')) =
      some (protocol, sender ++ ';' :: tail') :=
    Text.cutWhere?_append (by decide) hprotocol.2
  have hhead : (Text.splitOn ';' (Text.trim (sender ++ ';' :: tail'))).headD [] = sender := by
    rw [Text.trim_append_cons hsender (by decide), Text.splitOn_append hmark]
    rfl
  rw [sentBy?, htrim, hcut]
  simp only [Option.bind_eq_bind, Option.bind_some, hhead, Text.trim_of_isWord hsender]

theorem looseUInt16?_decimal (port : UInt16) : looseUInt16? (Text.decimal port.toNat) = some port := by
  rw [looseUInt16?, Text.trim_of_isWord (Text.isWord_decimal _), Text.uint16?_decimal]

/-- The sender is read as the address and the port that it was written with. -/
theorem readSender_written (ip : Ip) (port : UInt16) :
    readSender (ip.hostText ++ ':' :: Text.decimal port.toNat) = some (ip.text, some port) := by
  have hport := looseUInt16?_decimal port
  have hbracket := Ip.not_mem_text (c := '[') (by decide) (by decide) (by decide) ip
  have hclosing := Ip.not_mem_text (c := ']') (by decide) (by decide) (by decide) ip
  have hcolon : ':' ∉ Text.decimal port.toNat := Text.not_mem_decimal (by decide)
  cases ip with
  | v6 groups =>
      have hcut := Text.cut?_append hclosing (':' :: Text.decimal port.toNat)
      rw [Ip.text] at hcut
      simp only [Ip.hostText, List.cons_append, List.append_assoc, List.nil_append, readSender, hcut,
        Option.map_some, hport]
      rfl
  | v4 a b c d =>
      have hlast := Text.cutLast?_append (Ip.quadText a b c d) hcolon
      have hword := Ip.isWord_text (.v4 a b c d)
      rw [Ip.text] at hbracket hword
      have hopen : ∀ inner, Ip.quadText a b c d ++ ':' :: Text.decimal port.toNat ≠ '[' :: inner := by
        intro inner heq
        have hmem : '[' ∈ Ip.quadText a b c d ++ ':' :: Text.decimal port.toNat := by simp [heq]
        have hdigits : '[' ∉ Text.decimal port.toNat := Text.not_mem_decimal (by decide)
        simp [hbracket, hdigits] at hmem
      rw [Ip.hostText, Ip.text, readSender, hlast]
      · simp only [List.contains_iff_mem, Ip.colon_not_mem_quadText, if_false, hport,
          Text.trim_of_isWord hword]
      · exact hopen

theorem isWord_written (ip : Ip) (port : UInt16) :
    IsWord (ip.hostText ++ ':' :: Text.decimal port.toNat) := by
  refine ⟨by simp, fun c hc => ?_⟩
  have hhost : ∀ c ∈ ip.hostText, Text.isBlank c = false := by
    intro c hc
    cases ip with
    | v4 a b d e => exact (Ip.isAddressChar_text (.v4 a b d e) c hc).not_blank
    | v6 groups =>
        simp only [Ip.hostText, List.cons_append, List.mem_cons, List.mem_append, List.not_mem_nil,
          or_false] at hc
        rcases hc with rfl | hc | rfl
        · decide
        · exact (Ip.isAddressChar_text (.v6 groups) c hc).not_blank
        · decide
  rcases List.mem_append.mp hc with hc | hc
  · exact hhost c hc
  · rcases List.mem_cons.mp hc with rfl | hc
    · decide
    · exact (Text.isWord_decimal _).2 c hc

theorem semicolon_not_mem_written (ip : Ip) (port : UInt16) :
    ';' ∉ ip.hostText ++ ':' :: Text.decimal port.toNat := by
  have htext := Ip.not_mem_text (c := ';') (by decide) (by decide) (by decide) ip
  have hport : ';' ∉ Text.decimal port.toNat := Text.not_mem_decimal (by decide)
  cases ip with
  | v4 a b c d => simpa [Ip.hostText, hport, Ip.text] using htext
  | v6 groups => simpa [Ip.hostText, hport, Ip.text] using htext

/-! Noting the source. -/

/-- An "rport" that waits for its value has none. -/
theorem readParam_of_isOpenRport {piece : Text} (h : isOpenRport piece = true) :
    readParam piece = (Text.trim piece, []) := by
  have hnone : Text.cut? '=' piece = none := by
    rw [Text.cut?_eq_none_iff]
    intro hmem
    rw [isOpenRport, Text.sameLetters, beq_iff_eq] at h
    have hlower : '=' ∈ Text.lower (Text.trim piece) :=
      List.mem_map.mpr ⟨'=', Text.mem_trim_of_mem hmem (by decide), by decide⟩
    rw [h] at hlower
    revert hlower
    decide
  rw [readParam, hnone]

/-- An "rport" that waits for its value is called that. -/
theorem name_of_isOpenRport {piece : Text} (h : isOpenRport piece = true) :
    Text.sameLetters (readParam piece).1 "rport".toList = true := by
  rw [readParam_of_isOpenRport h]
  exact h

/-- A piece with the source port in it, if it is an "rport" that waits for its value. -/
def filled (source : Endpoint) (piece : Text) : Text :=
  if isOpenRport piece then "rport=".toList ++ Text.decimal source.port.toNat else piece

theorem readParam_rport (source : Endpoint) :
    readParam ("rport=".toList ++ Text.decimal source.port.toNat) =
      ("rport".toList, Text.decimal source.port.toNat) := by
  have hread := readParam_written (show IsWord "rport".toList by decide) (by decide)
    (Text.decimal source.port.toNat)
  rwa [Text.trim_of_isWord (Text.isWord_decimal _)] at hread

theorem readParam_received (source : Endpoint) :
    readParam ("received=".toList ++ source.ip.text) = ("received".toList, source.ip.text) := by
  have hread := readParam_written (show IsWord "received".toList by decide) (by decide) source.ip.text
  rwa [Text.trim_of_isWord (Ip.isWord_text source.ip)] at hread

theorem semicolon_not_mem_filled {source : Endpoint} {piece : Text} (h : ';' ∉ piece) :
    ';' ∉ filled source piece := by
  unfold filled
  split
  · intro hmem
    rcases List.mem_append.mp hmem with hmem | hmem
    · revert hmem
      decide
    · exact Text.not_mem_decimal (by decide) hmem
  · exact h

/-- What is added behind a value when its source is noted in it. -/
def noted (source : Endpoint) (via : Text) : List Text :=
  if (sentBy? via).any (fun sender => Ip.readHost sender.1 != some source.ip) &&
      (param? via "received".toList).isNone then
    ["received=".toList ++ source.ip.text]
  else []

theorem eq_of_mem_noted {source : Endpoint} {via piece : Text} (h : piece ∈ noted source via) :
    piece = "received=".toList ++ source.ip.text := by
  unfold noted at h
  split at h
  · exact List.mem_singleton.mp h
  · cases h

/-- A value with the source noted has the pieces of the value, but for those that waited for the source
port, and behind them what is noted besides. -/
theorem pieces_of_stamp? {source : Endpoint} {via stamped : Text} (h : stamp? source via = some stamped) :
    ∃ first rest, Text.splitOn ';' via = first :: rest ∧
      Text.splitOn ';' stamped = first :: (rest.map (filled source) ++ noted source via) := by
  obtain ⟨first, rest, hpieces⟩ :=
    List.exists_cons_of_ne_nil (Text.splitWhere_ne_nil (· == ';') via)
  rw [← Text.splitOn] at hpieces
  have hmark : ∀ piece ∈ first :: rest, ';' ∉ piece := fun piece hpiece =>
    Text.not_mem_of_mem_splitOn (hpieces ▸ hpiece)
  have hnoted : ';' ∉ "received=".toList ++ source.ip.text := by
    have htext := Ip.not_mem_text (c := ';') (by decide) (by decide) (by decide) source.ip
    rw [List.mem_append, not_or]
    exact ⟨by decide, htext⟩
  have hjoin : stamped = Text.join [';'] (first :: (rest.map (filled source) ++ noted source via)) := by
    unfold stamp? at h
    obtain ⟨⟨host, port⟩, hsent, h⟩ := Option.bind_eq_some_iff.mp h
    simp only [hpieces, List.take_succ_cons, List.take_zero, List.drop_succ_cons, List.drop_zero] at h
    rw [noted, hsent, Option.any_some]
    split at h
    · exact (Option.some.inj h).symm
    · cases h
  refine ⟨first, rest, hpieces, ?_⟩
  rw [hjoin]
  refine Text.splitOn_join (List.cons_ne_nil _ _) fun piece hpiece => ?_
  rcases List.mem_cons.mp hpiece with rfl | hpiece
  · exact hmark _ List.mem_cons_self
  · rcases List.mem_append.mp hpiece with hpiece | hpiece
    · obtain ⟨old, hold, rfl⟩ := List.mem_map.mp hpiece
      exact semicolon_not_mem_filled (hmark old (List.mem_cons_of_mem _ hold))
    · rw [eq_of_mem_noted hpiece]
      exact hnoted

/-- Filling in the source port changes no parameter's name but for the case of its letters. -/
theorem sameLetters_filled (source : Endpoint) (piece name : Text) :
    Text.sameLetters (readParam (filled source piece)).1 name = Text.sameLetters (readParam piece).1 name := by
  cases hopen : isOpenRport piece with
  | false => rw [filled, hopen, if_neg Bool.false_ne_true]
  | true =>
      rw [filled, hopen, if_pos rfl, readParam_rport, sameLetters_congr (name_of_isOpenRport hopen) name]

theorem paramAmong?_filled {source : Endpoint} {name : Text}
    (hname : Text.sameLetters "rport".toList name = false) (pieces : List Text) :
    paramAmong? name (pieces.map (filled source)) = paramAmong? name pieces := by
  induction pieces with
  | nil => rfl
  | cons piece rest ih =>
      rw [List.map_cons, paramAmong?_cons, paramAmong?_cons, ih, sameLetters_filled]
      cases hopen : isOpenRport piece with
      | false => rw [filled, hopen, if_neg Bool.false_ne_true]
      | true =>
          rw [sameLetters_congr (name_of_isOpenRport hopen) name, hname, if_neg Bool.false_ne_true,
            if_neg Bool.false_ne_true]

/-- Noting the source changes no parameters but "rport" and "received". -/
theorem param?_stamp? {source : Endpoint} {via stamped name : Text} (h : stamp? source via = some stamped)
    (hrport : Text.sameLetters "rport".toList name = false)
    (hreceived : Text.sameLetters "received".toList name = false) :
    param? stamped name = param? via name := by
  obtain ⟨first, rest, hvia, hstamped⟩ := pieces_of_stamp? h
  have hnone : paramAmong? name (noted source via) = none := by
    rw [paramAmong?_eq_none_iff]
    intro piece hpiece
    rw [eq_of_mem_noted hpiece, readParam_received]
    exact hreceived
  rw [param?, param?, hvia, hstamped, List.drop_succ_cons, List.drop_zero, List.drop_succ_cons,
    List.drop_zero, paramAmong?_append, paramAmong?_filled hrport, hnone, Option.or_none]

end BorderProxy.Via
