import BorderProxy.Proofs.Address.Literal
import BorderProxy.Proofs.Sdp.Lines
import BorderProxy.Sdp.Redirect

/-! Lines that are pointed at a relay. Such a line is read again as what it was before, with the relay's
address or port in the place of the old one. -/

namespace BorderProxy

namespace Text

theorem IsWord.not_mem {w : Text} (h : IsWord w) {c : Char} (hc : isBlank c = true) : c ∉ w := by
  intro hmem
  rw [h.2 c hmem] at hc
  cases hc

/-- The first word of a text that begins with a word and a blank, or is a word. -/
theorem words_word_join {w : Text} (hw : IsWord w) (pieces : List Text) :
    (words (join [' '] (w :: pieces))).head? = some w := by
  have hkept : (w != []) = true := by simpa using hw.1
  cases pieces with
  | nil =>
      rw [join, words, splitWhere_of_none hw.2]
      simp [hkept]
  | cons piece rest =>
      rw [join_cons_cons, List.append_assoc, List.singleton_append, words,
        splitWhere_append (by decide) hw.2]
      simp [hkept]

end Text

namespace RelayTarget

/-- A target whose lines end as lines do. -/
def IsFit (t : RelayTarget) : Prop := t.newline = ['\n'] ∨ t.newline = ['\r', '\n']

theorem IsFit.isEnd {t : RelayTarget} (h : t.IsFit) : ∀ c ∈ t.newline, SdpLine.isEnd c = true := by
  intro c hc
  rcases h with h | h
  · rw [h] at hc
    simp_all [SdpLine.isEnd]
  · rw [h] at hc
    simp_all [SdpLine.isEnd]

theorem IsFit.isEnded {t : RelayTarget} (h : t.IsFit) (content : Text) : IsEnded (content ++ t.newline) := by
  rcases h with h | h <;> simp [h, IsEnded]

/-- A line put together from a content and an end. -/
theorem IsFit.isRawLine {t : RelayTarget} (h : t.IsFit) {content : Text} (hc : '\n' ∉ content) :
    IsRawLine (content ++ t.newline) := by
  rcases h with h | h
  · rw [h]
    exact ⟨by simp, by simpa using hc⟩
  · rw [h]
    refine ⟨by simp, ?_⟩
    have hdrop : (content ++ ['\r', '\n']).dropLast = content ++ ['\r'] := by simp
    rw [hdrop]
    simpa using hc

theorem isRawLine_of_not_mem {content : Text} (hne : content ≠ []) (hc : '\n' ∉ content) :
    IsRawLine content :=
  ⟨hne, fun h => hc (List.dropLast_subset content h)⟩

theorem isEnded_withContent {t : RelayTarget} (h : t.IsFit) {raw : Text} (hend : IsEnded raw)
    (content : Text) : IsEnded (t.withContent raw content) := by
  rw [withContent, if_neg (SdpLine.content_ne_of_isEnded hend)]
  exact h.isEnded content

/-- A line with a new content that can be read says what that content says. -/
theorem legible_withContent {t : RelayTarget} (h : t.IsFit) (raw : Text) {content : Text} {item : SdpItem}
    (hne : content ≠ []) (hline : '\n' ∉ content)
    (hitem : (SdpLine.readItem content).toOption = some item) :
    SdpLine.Legible ⟨t.withContent raw content, item⟩ := by
  rw [withContent]
  split
  · rw [List.append_nil]
    exact ⟨isRawLine_of_not_mem hne hline, hitem⟩
  · exact ⟨h.isRawLine hline, (SdpLine.toOption_readItem_append h.isEnd).trans hitem⟩

/-! Connection lines. -/

theorem place_eq_join (t : RelayTarget) :
    t.place = Text.join [' ']
      ["IN".toList, if t.ip.isV4 then "IP4".toList else "IP6".toList, t.ip.text] := by
  unfold place
  cases t.ip.isV4 <;> rfl

theorem isWord_place (t : RelayTarget) :
    ∀ piece ∈ ["IN".toList, if t.ip.isV4 then "IP4".toList else "IP6".toList, t.ip.text],
      Text.IsWord piece := by
  intro piece hpiece
  simp only [List.mem_cons, List.not_mem_nil, or_false] at hpiece
  rcases hpiece with rfl | rfl | rfl
  · exact ⟨by simp, by simp [Text.isBlank]⟩
  · split <;> exact ⟨by simp, by simp [Text.isBlank]⟩
  · exact Ip.isWord_text t.ip

theorem newline_not_mem_place (t : RelayTarget) : '\n' ∉ t.place := by
  rw [place_eq_join]
  intro h
  rcases Text.mem_join h with h | ⟨piece, hpiece, h⟩
  · exact absurd h (by decide)
  · exact (t.isWord_place piece hpiece).not_mem (by decide) h

theorem readConnection_place (t : RelayTarget) :
    (SdpLine.readConnection t.place).toOption = some t.ip := by
  have hsplit : (Text.splitOn '/' t.ip.text).headD [] = t.ip.text := by
    rw [Text.splitOn_of_not_mem (Ip.slash_not_mem_text t.ip)]
    rfl
  have hread := Ip.read_text t.ip
  have hin : Text.sameLetters "IN".toList "IN".toList = true := by decide
  have h4 : Text.sameLetters "IP4".toList "IP6".toList = false := by decide
  have h6 : Text.sameLetters "IP6".toList "IP6".toList = true := by decide
  unfold SdpLine.readConnection
  rw [place_eq_join, Text.words_join t.isWord_place]
  simp only [hsplit, hin, Bool.not_true, Bool.false_eq_true, if_false]
  cases hv4 : t.ip.isV4 with
  | true =>
      rw [hv4, if_pos rfl] at hread
      simp only [if_true, h4, Bool.false_eq_true, if_false, hread]
      rfl
  | false =>
      rw [hv4, if_neg (by simp)] at hread
      simp only [Bool.false_eq_true, if_false, h6, if_true, hread]
      rfl

theorem readItem_connection (t : RelayTarget) :
    (SdpLine.readItem ("c=".toList ++ t.place)).toOption = some (.connection t.ip) := by
  have hread := t.readConnection_place
  have hitem : SdpLine.readItem ("c=".toList ++ t.place) =
      (SdpLine.readConnection t.place).map .connection := rfl
  rw [hitem]
  cases hc : SdpLine.readConnection t.place with
  | error fault => simp [hc, Except.toOption] at hread
  | ok ip =>
      have hip : ip = t.ip := by simpa [hc, Except.toOption] using hread
      simp [hip, Except.map, Except.toOption]

/-! Media lines. -/

/-- A media line is made of words: the kind, the port and perhaps others. -/
theorem words_of_readItem_media {raw kind : Text} {port : UInt16}
    (h : (SdpLine.readItem raw).toOption = some (.media kind port)) :
    ∃ old rest, Text.words ((SdpLine.content raw).drop 2) = kind :: old :: rest := by
  rw [← SdpLine.toOption_readItem_content] at h
  generalize SdpLine.content raw = content at h ⊢
  rw [SdpLine.readItem_eq] at h
  cases hm : Text.afterPrefix? ['m', '='] content with
  | some rest =>
      rw [hm] at h
      rw [Text.afterPrefix?_eq_some_iff.mp hm]
      have hmedia : (SdpLine.readMedia rest).toOption = some (.media kind port) := h
      unfold SdpLine.readMedia at hmedia
      split at hmedia
      · cases hmedia
      · cases hmedia
      · rename_i kind' old others hwords
        split at hmedia
        · simp only [Except.toOption, Option.some.injEq, SdpItem.media.injEq] at hmedia
          obtain ⟨rfl, -⟩ := hmedia
          exact ⟨old, others, hwords⟩
        · cases hmedia
  | none =>
      rw [hm] at h
      cases hc : Text.afterPrefix? ['c', '='] content with
      | some rest =>
          rw [hc] at h
          cases hr : SdpLine.readConnection rest <;> simp [hr, Except.map, Except.toOption] at h
      | none =>
          rw [hc] at h
          cases hi : Text.afterPrefix? ['i', '='] content with
          | some rest =>
              rw [hi] at h
              cases h
          | none =>
              rw [hi] at h
              dsimp only at h
              split at h <;> cases h

theorem readItem_mediaContent {raw kind : Text} {old : UInt16} (port : UInt16)
    (h : (SdpLine.readItem raw).toOption = some (.media kind old)) :
    (SdpLine.readItem (mediaContent port raw)).toOption = some (.media kind port) := by
  obtain ⟨word, rest, hwords⟩ := words_of_readItem_media h
  have hall : ∀ piece ∈ kind :: Text.decimal port.toNat :: rest, Text.IsWord piece := by
    have hold : ∀ piece ∈ kind :: word :: rest, Text.IsWord piece := by
      rw [← hwords]
      exact fun piece hpiece => Text.isWord_of_mem_words hpiece
    intro piece hpiece
    simp only [List.mem_cons] at hpiece hold
    rcases hpiece with rfl | rfl | hpiece
    · exact hold _ (.inl rfl)
    · exact Text.isWord_decimal _
    · exact hold _ (.inr (.inr hpiece))
  have hslash : (Text.splitOn '/' (Text.decimal port.toNat)).headD [] = Text.decimal port.toNat := by
    rw [Text.splitOn_of_not_mem (Text.not_mem_decimal (by decide))]
    rfl
  have hset : (Text.words ((SdpLine.content raw).drop 2)).set 1 (Text.decimal port.toNat) =
      kind :: Text.decimal port.toNat :: rest := by
    rw [hwords]
    rfl
  have hitem : SdpLine.readItem (mediaContent port raw) =
      SdpLine.readMedia (Text.join [' '] (kind :: Text.decimal port.toNat :: rest)) := by
    rw [mediaContent, hset]
    rfl
  rw [hitem, SdpLine.readMedia, Text.words_join hall]
  simp only [hslash, Text.uint16?_decimal]
  rfl

theorem newline_not_mem_mediaContent (port : UInt16) (raw : Text) : '\n' ∉ mediaContent port raw := by
  intro h
  rcases List.mem_append.mp h with h | h
  · exact absurd h (by decide)
  · rcases Text.mem_join h with h | ⟨piece, hpiece, h⟩
    · exact absurd h (by decide)
    · have hword : Text.IsWord piece := by
        rcases List.mem_or_eq_of_mem_set hpiece with hpiece | rfl
        · exact Text.isWord_of_mem_words hpiece
        · exact Text.isWord_decimal _
      exact hword.not_mem (by decide) h

/-! RTCP attributes. -/

theorem newline_not_mem_rtcpContent (t : RelayTarget) (port : UInt16) (raw : Text) :
    '\n' ∉ t.rtcpContent port raw := by
  intro h
  rcases Text.mem_join h with h | ⟨piece, hpiece, h⟩
  · exact absurd h (by decide)
  · have htokens : ∀ word ∈ (Text.words ((SdpLine.content raw).drop 7)).drop 1, Text.IsWord word :=
      fun word hword => Text.isWord_of_mem_words (List.mem_of_mem_drop hword)
    rcases List.mem_cons.mp hpiece with rfl | hpiece
    · rcases List.mem_append.mp h with h | h
      · exact absurd h (by decide)
      · exact Text.not_mem_decimal (by decide) h
    · generalize (Text.words ((SdpLine.content raw).drop 7)).drop 1 = tokens at htokens hpiece
      have hcases : piece = t.place ∨ piece ∈ tokens := by
        split at hpiece
        · split at hpiece
          · rcases List.mem_cons.mp hpiece with rfl | hpiece
            · exact .inl rfl
            · exact .inr (by simp [hpiece])
          · exact .inr hpiece
        · exact .inr hpiece
      rcases hcases with rfl | hpiece
      · exact t.newline_not_mem_place h
      · exact (htokens piece hpiece).not_mem (by decide) h

theorem rtcpContent_eq (t : RelayTarget) (port : UInt16) (raw : Text) :
    ∃ named, t.rtcpContent port raw =
      "a=rtcp:".toList ++ Text.join [' '] (Text.decimal port.toNat :: named) :=
  ⟨_, Text.join_append_cons _ _ _ _⟩

theorem readItem_rtcpContent (t : RelayTarget) (port : UInt16) (raw : Text) :
    (SdpLine.readItem (t.rtcpContent port raw)).toOption = some .rtcp := by
  obtain ⟨named, heq⟩ := t.rtcpContent_eq port raw
  rw [heq]
  rfl

end RelayTarget

/-- The port that an RTCP attribute names. -/
def SdpLine.rtcpPort? (l : SdpLine) : Option UInt16 :=
  (Text.words (l.raw.drop 7)).head?.bind Text.uint16?

theorem RelayTarget.rtcpPort?_withContent {t : RelayTarget} (h : t.IsFit) (port : UInt16) (raw : Text)
    (item : SdpItem) :
    SdpLine.rtcpPort? ⟨t.withContent raw (t.rtcpContent port raw), item⟩ = some port := by
  obtain ⟨named, heq⟩ := t.rtcpContent_eq port raw
  have hwords : ∀ tail : Text, (∀ c ∈ tail, Text.isBlank c = true) →
      (Text.words ((t.rtcpContent port raw ++ tail).drop 7)).head? = some (Text.decimal port.toNat) := by
    intro tail htail
    have hdrop : (t.rtcpContent port raw ++ tail).drop 7 =
        Text.join [' '] (Text.decimal port.toNat :: named) ++ tail := by
      rw [heq]
      rfl
    rw [hdrop, Text.words_append_blanks htail, Text.words_word_join (Text.isWord_decimal _)]
  have hends : ∀ c ∈ (if SdpLine.content raw = raw then [] else t.newline), Text.isBlank c = true := by
    intro c hc
    split at hc
    · cases hc
    · exact SdpLine.isBlank_of_isEnd (h.isEnd c hc)
  rw [SdpLine.rtcpPort?, withContent]
  simp only [hwords _ hends, Option.bind_some, Text.uint16?_decimal]

end BorderProxy
