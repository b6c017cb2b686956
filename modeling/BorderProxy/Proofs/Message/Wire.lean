import BorderProxy.Proofs.Message.Normal
import BorderProxy.Proofs.Message.Values
import BorderProxy.Proofs.Text.Pieces
import BorderProxy.Proofs.Text.Utf8

/-! Bodies on the wire. The body of a message that has all the fields it needs is what follows a blank line of
its datagram. A message is written as its head, a blank line and its body; the body is written as text, so it
arrives as it was only where none of its bytes are damaged. -/

namespace BorderProxy

/-! Writing. -/

def Message.startLine : Message → Text
  | .request r => r.method.text ++ ' ' :: r.uri.text ++ ' ' :: r.version.text
  | .response r => r.version.text ++ ' ' :: r.status.text

/-- The start line and the header fields of a message, each with its line end. -/
def Message.head (m : Message) : Text :=
  m.startLine ++ lineEnd ++ m.headers.flatMap fun h => h.text ++ lineEnd

/-- What is written of a message whose body is a string of bytes: the head, a blank line and the bytes. -/
def Message.framed (m : Message) (body : List UInt8) : List UInt8 := Utf8.encode (m.head ++ lineEnd) ++ body

theorem Message.wire_eq (m : Message) : m.wire = m.framed (Utf8.encode (Utf8.decodeLossy m.body)) := by
  unfold wire framed
  rw [← Utf8.encode_append]
  cases m with
  | request r => simp [text, Request.text, Headers.textWithBody, head, startLine, headers, body, lineEnd]
  | response r => simp [text, Response.text, Headers.textWithBody, head, startLine, headers, body, lineEnd]

theorem Message.framed_inj {m : Message} {body body' : List UInt8} :
    m.framed body = m.framed body' ↔ body = body' := List.append_right_inj _

/-! Reading. -/

theorem Message.headers_mapHeaders (m : Message) (edit : Headers → Headers) :
    (m.mapHeaders edit).headers = edit m.headers := by
  cases m <;> rfl

theorem Message.body_mapHeaders (m : Message) (edit : Headers → Headers) :
    (m.mapHeaders edit).body = m.body := by
  cases m <;> rfl

/-- The end of the last header field and the blank line after it. -/
def blankLine : List UInt8 := [13, 10, 13, 10]

/-- A text of one line is at most one header field. -/
theorem Headers.length_readAll_le {steps : Nat} {t : Text} (hone : ¬ lineEnd <:+: t) {hs : Headers}
    (h : readAll steps t = some hs) : hs.length ≤ 1 := by
  unfold readAll at h
  split at h
  · simp [← Option.some.inj h]
  · cases h
  · dsimp only at h
    split at h
    · cases h
    · split at h
      · rename_i rest hrest
        -- The value is a part of the text, so no line ends in it.
        have hvalue : Text.cutAt? lineEnd (rest.dropWhile fun c => c == ' ' || c == '\t') = none := by
          rw [Text.cutAt?_eq_none_iff (by decide)]
          intro hinside
          have hsuffix : rest <:+ ':' :: rest := List.suffix_cons ':' rest
          rw [← hrest] at hsuffix
          exact hone (hinside.trans (((List.dropWhile_suffix _).trans hsuffix).trans
            (List.dropWhile_suffix _)).isInfix)
        rw [hvalue] at h
        simp [← Option.some.inj h]
      · cases h

theorem Headers.exists_named {hs : Headers} {name : StandardName} (h : (hs.value? name).isSome) :
    ∃ f ∈ hs, f.name = .standard name := by
  rw [value?, Option.isSome_map, List.find?_isSome] at h
  obtain ⟨f, hf, hnamed⟩ := h
  exact ⟨f, hf, beq_iff_eq.mp hnamed⟩

/-- The fields that every message needs are not those of one field. -/
theorem Headers.one_lt_length_of_complete {hs : Headers} (h : hs.normal.checkComplete = .ok ()) :
    1 < hs.length := by
  rw [checkComplete_eq_ok_iff] at h
  obtain ⟨-, hfrom, hto, -, -⟩ := h
  obtain ⟨f, hf, hfname⟩ := exists_named hfrom
  obtain ⟨f', hf', hfname'⟩ := exists_named hto
  rw [normal, List.mem_flatMap] at hf hf'
  obtain ⟨g, hg, hsplit⟩ := hf
  obtain ⟨g', hg', hsplit'⟩ := hf'
  rw [Header.name_of_mem_splitItems hsplit] at hfname
  rw [Header.name_of_mem_splitItems hsplit'] at hfname'
  have hne : g ≠ g' := by
    rintro rfl
    rw [hfname] at hfname'
    cases hfname'
  rcases hs with - | ⟨only, - | ⟨next, rest⟩⟩
  · cases hg
  · exact absurd ((List.mem_singleton.mp hg).trans (List.mem_singleton.mp hg').symm) hne
  · simp

/-- A header field begins with a character of its name. -/
theorem Headers.exists_token_of_readAll {steps : Nat} {t : Text} {hs : Headers}
    (h : readAll steps t = some hs) (hne : hs ≠ []) : ∃ c rest, t = c :: rest ∧ isTokenChar c = true := by
  unfold readAll at h
  split at h
  · exact absurd (Option.some.inj h).symm hne
  · cases h
  · dsimp only at h
    split at h
    · cases h
    · rename_i hname
      cases t with
      | nil => exact absurd rfl hname
      | cons c rest => exact ⟨c, rest, rfl, by simpa [List.takeWhile_cons] using hname⟩

theorem readFields_eq_some {bytes body : List UInt8} {hs : Headers}
    (h : readFields bytes = some (hs, body)) :
    ∃ block t, splitBody bytes = some (block, body) ∧ Utf8.decode? block = some t ∧
      Headers.read t = some hs := by
  obtain ⟨⟨block, body'⟩, hsplit, h⟩ := Option.bind_eq_some_iff.mp h
  obtain ⟨t, hdecoded, h⟩ := Option.bind_eq_some_iff.mp h
  obtain ⟨hs', hread, h⟩ := Option.bind_eq_some_iff.mp h
  obtain ⟨rfl, rfl⟩ := Prod.mk.inj (Option.some.inj h)
  exact ⟨block, t, hsplit, hdecoded, hread⟩

/-- Where the fields are complete, the body is what follows a blank line. -/
theorem exists_blankLine_of_readFields {bytes body : List UInt8} {hs : Headers}
    (h : readFields bytes = some (hs, body)) (hcomplete : hs.normal.checkComplete = .ok ()) :
    ∃ block, bytes = block ++ blankLine ++ body := by
  obtain ⟨block, t, hsplit, hdecoded, hread⟩ := readFields_eq_some h
  rcases Option.or_eq_some_iff.mp hsplit with hblank | ⟨-, hline⟩
  · exact ⟨block, (Text.cutAt?_replaced (by decide) hblank []).1⟩
  · -- Cut at its first line end, the block would be one line.
    have hone : ¬ lineEnd <:+: t := by
      rintro ⟨front, back, ht⟩
      refine Text.not_infix_of_cutAt? (by decide) hline ⟨Utf8.encode front, Utf8.encode back, ?_⟩
      rw [← Utf8.encode_of_decode? hdecoded, ← ht, Utf8.encode_append, Utf8.encode_append]
      rfl
    have hfew := Headers.length_readAll_le hone hread
    have hmany := Headers.one_lt_length_of_complete hcomplete
    omega

/-- Where the fields are complete, the bytes of some character of a name are among those read. -/
theorem exists_token_of_readFields {bytes body : List UInt8} {hs : Headers}
    (h : readFields bytes = some (hs, body)) (hcomplete : hs.normal.checkComplete = .ok ()) :
    ∃ c, isTokenChar c = true ∧ ∀ b ∈ Utf8.encodeChar c, b ∈ bytes := by
  obtain ⟨block, t, hsplit, hdecoded, hread⟩ := readFields_eq_some h
  have hmany := Headers.one_lt_length_of_complete hcomplete
  obtain ⟨c, rest, rfl, hc⟩ := Headers.exists_token_of_readAll hread (List.ne_nil_of_length_pos (by omega))
  obtain ⟨back, hback⟩ : ∃ back, bytes = block ++ back := by
    rcases Option.or_eq_some_iff.mp hsplit with hblank | ⟨-, hline⟩
    · exact ⟨_, (Text.cutAt?_replaced (by decide) hblank []).1.trans (List.append_assoc ..)⟩
    · exact ⟨_, (Text.cutAt?_replaced (by decide) hline []).1.trans (List.append_assoc ..)⟩
  refine ⟨c, hc, fun b hb => ?_⟩
  rw [hback, ← Utf8.encode_of_decode? hdecoded, Utf8.encode, List.flatMap_cons]
  exact List.mem_append_left _ (List.mem_append_left _ hb)

theorem readStartLine_eq_some {α : Type} {read : Text → Option (α × Text)} {bytes rest : List UInt8}
    {line : α} (h : readStartLine read bytes = some (line, rest)) : ∃ start, bytes = start ++ rest := by
  obtain ⟨⟨line', t⟩, -, h⟩ := Option.bind_eq_some_iff.mp h
  obtain ⟨rest', hrest, h⟩ := Option.bind_eq_some_iff.mp h
  obtain ⟨-, rfl⟩ := Prod.mk.inj (Option.some.inj h)
  exact ⟨_, Text.afterPrefix?_eq_some_iff.mp hrest⟩

/-- The fields and the body of a message follow its start line. -/
theorem Message.readPlain_eq_some {bytes : List UInt8} {m : Message} (h : readPlain bytes = some m) :
    ∃ start rest, bytes = start ++ rest ∧ readFields rest = some (m.headers, m.body) := by
  rcases Option.or_eq_some_iff.mp h with hresponse | ⟨-, hrequest⟩
  · obtain ⟨r, hr, rfl⟩ := Option.map_eq_some_iff.mp hresponse
    obtain ⟨⟨line, rest⟩, hline, hr⟩ := Option.bind_eq_some_iff.mp hr
    obtain ⟨⟨hs, body⟩, hfields, hr⟩ := Option.bind_eq_some_iff.mp hr
    obtain rfl := Option.some.inj hr
    obtain ⟨start, hstart⟩ := readStartLine_eq_some hline
    exact ⟨start, rest, hstart, hfields⟩
  · obtain ⟨r, hr, rfl⟩ := Option.map_eq_some_iff.mp hrequest
    obtain ⟨⟨line, rest⟩, hline, hr⟩ := Option.bind_eq_some_iff.mp hr
    obtain ⟨⟨hs, body⟩, hfields, hr⟩ := Option.bind_eq_some_iff.mp hr
    obtain rfl := Option.some.inj hr
    obtain ⟨start, hstart⟩ := readStartLine_eq_some hline
    exact ⟨start, rest, hstart, hfields⟩

theorem Message.read_eq_ok {bytes : List UInt8} {m : Message} (h : read bytes = .ok m)
    (hcomplete : m.headers.checkComplete = .ok ()) :
    ∃ start rest hs, bytes = start ++ rest ∧ readFields rest = some (hs, m.body) ∧
      hs.normal.checkComplete = .ok () := by
  unfold read at h
  cases hplain : readPlain bytes with
  | none =>
      rw [hplain] at h
      cases h
  | some plain =>
      rw [hplain] at h
      obtain rfl := Except.ok.inj h
      obtain ⟨start, rest, hstart, hfields⟩ := readPlain_eq_some hplain
      rw [headers_mapHeaders] at hcomplete
      exact ⟨start, rest, plain.headers, hstart, by rw [body_mapHeaders, hfields], hcomplete⟩

/-- A message that has all the fields it needs has the body that follows a blank line of its datagram. -/
theorem Message.exists_blankLine {bytes : List UInt8} {m : Message} (h : read bytes = .ok m)
    (hcomplete : m.headers.checkComplete = .ok ()) : ∃ front, bytes = front ++ blankLine ++ m.body := by
  obtain ⟨start, rest, hs, hstart, hfields, hcomplete⟩ := read_eq_ok h hcomplete
  obtain ⟨block, hblock⟩ := exists_blankLine_of_readFields hfields hcomplete
  exact ⟨start ++ block, by rw [hstart, hblock]; simp only [List.append_assoc]⟩

/-- Some character of a name is in the datagram of a message that has all the fields it needs. -/
theorem Message.exists_token {bytes : List UInt8} {m : Message} (h : read bytes = .ok m)
    (hcomplete : m.headers.checkComplete = .ok ()) :
    ∃ c, isTokenChar c = true ∧ ∀ b ∈ Utf8.encodeChar c, b ∈ bytes := by
  obtain ⟨start, rest, hs, hstart, hfields, hcomplete⟩ := read_eq_ok h hcomplete
  obtain ⟨c, hc, hamong⟩ := exists_token_of_readFields hfields hcomplete
  exact ⟨c, hc, fun b hb => hstart ▸ List.mem_append_right _ (hamong b hb)⟩

end BorderProxy
